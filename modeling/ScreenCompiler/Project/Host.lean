import ScreenCompiler.Project.Sources

/-!
# Hosts

A host is a file tree as a program meets it: with links, which stand for other paths
and may be on the way to the working directory too.

A link on the way of a path is replaced by the path that it stands for.  A path with
too many links on its way leads nowhere, and so does the empty path.
-/

namespace ScreenCompiler

structure Host where
  tree : FileTree
  /-- What links stand for, by the places of the links. -/
  links : List (Place × Path)

namespace Host

/-- A tree without links. -/
def ofTree (tree : FileTree) : Host :=
  ⟨tree, []⟩

/-- How many links may be on the way of a path. -/
def maxLinks : Nat := 40

/-- The place that the parts of a path lead to; a link on the way is entered, with what is left. -/
def walk (host : Host) (enter : Place → Path → List (List Char) → Option (Nat × Place))
    (more : Nat) : Place → List (List Char) → Option (Nat × Place)
  | place, [] => some (more, place)
  | place, part :: parts =>
      match host.tree.entryAt? place with
      | some .directory =>
          if Path.isTrivial part then host.walk enter more place parts
          else if part = ['.', '.'] then host.walk enter more place.dropLast parts
          else
            match host.links.lookup (place ++ [part]) with
            | none => host.walk enter more (place ++ [part]) parts
            | some target => enter place target parts
      | _ => none

/-- Where a path starts that stands in a directory. -/
def startFrom (place : Place) (path : Path) : Place :=
  if path.isAbsolute then [] else place

/-- The place that the parts of a path lead to from another place, when some more links may be
followed, and how many are left then. -/
def resolveFrom (host : Host) : Nat → Place → List (List Char) → Option (Nat × Place)
  | 0 => host.walk (fun _ _ _ => none) 0
  | more + 1 =>
      host.walk (fun place target parts =>
        host.resolveFrom more (startFrom place target) (target.parts ++ parts)) (more + 1)

def workingPlace? (host : Host) : Option Place :=
  (host.resolveFrom maxLinks [] host.tree.working.parts).map Prod.snd

def start? (host : Host) (path : Path) : Option Place :=
  if path.isAbsolute then some [] else host.workingPlace?

/-- The place of a path, which need not be taken. -/
def place? (host : Host) (path : Path) : Option Place :=
  if path.text = [] then none
  else
    (host.start? path).bind fun start =>
      (host.resolveFrom maxLinks start path.parts).map Prod.snd

/-- The place of a path and what stands there. -/
def find? (host : Host) (path : Path) : Option (Place × FileEntry) :=
  (host.place? path).bind fun place => (host.tree.entryAt? place).map (place, ·)

/-- The direct path to what a path leads to. -/
def canonical? (host : Host) (path : Path) : Option Path :=
  (host.find? path).map fun found => FileTree.pathOf found.1

/-- The sources below a directory that has no links below it, in the order of their names. -/
def list? (host : Host) (directory : Path) (ending : String) (ignored : List String) :
    Option (List Path) :=
  match host.find? directory with
  | none => none
  | some (_, .file _) =>
      some (if directory.extension? = some ending.toList then [directory] else [])
  | some (place, .directory) =>
      some (((host.tree.filesBelow place).filter (Sources.isSource ending ignored)).map
        (Sources.along directory))

end Host

end ScreenCompiler
