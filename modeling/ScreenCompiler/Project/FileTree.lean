import ScreenCompiler.Project.Path

/-!
# File trees

A file tree maps places to what stands there, and knows the working directory.  A
place is the list of names on the way from the root, which is always a directory.

A path is resolved name by name, from the root when it is absolute and from the
working directory when it is relative.  Whatever is followed by another part has to be
a directory, and a double dot leads to the directory above.  The empty path leads
nowhere.
-/

namespace ScreenCompiler

open Text

/-- Why an operation on a file tree fails. -/
inductive FileError where
  | notFound
  | notDirectory
  | isDirectory
  | alreadyExists
  /-- The content is not text. -/
  | notText
  deriving DecidableEq, Repr

def FileError.message : FileError → String
  | notFound => "No such file or directory (os error 2)"
  | notDirectory => "Not a directory (os error 20)"
  | isDirectory => "Is a directory (os error 21)"
  | alreadyExists => "File exists (os error 17)"
  | notText => "stream did not contain valid UTF-8"

abbrev Place := List (List Char)

inductive FileEntry where
  | directory
  | file (content : ByteArray)

structure FileTree where
  entries : List (Place × FileEntry)
  /-- An absolute path to the working directory. -/
  working : Path

namespace FileTree

/-- Nothing but the root, which is the working directory. -/
def empty : FileTree := ⟨[], ⟨['/']⟩⟩

def entryAt? (tree : FileTree) (place : Place) : Option FileEntry :=
  if place = [] then some .directory else tree.entries.lookup place

/-- Entries with one set; an entry that is there is replaced where it stands. -/
def setEntry (place : Place) (entry : FileEntry) :
    List (Place × FileEntry) → List (Place × FileEntry)
  | [] => [(place, entry)]
  | (other, previous) :: entries =>
      if other = place then (place, entry) :: entries
      else (other, previous) :: setEntry place entry entries

def set (tree : FileTree) (place : Place) (entry : FileEntry) : FileTree :=
  { tree with entries := setEntry place entry tree.entries }

theorem lookup_setEntry (place other : Place) (entry : FileEntry)
    (entries : List (Place × FileEntry)) :
    (setEntry place entry entries).lookup other =
      if other = place then some entry else entries.lookup other := by
  induction entries with
  | nil =>
      by_cases same : other = place
      · simp [setEntry, same]
      · simp [setEntry, List.lookup_cons, beq_eq_false_iff_ne.2 same, same]
  | cons head entries inductionHypothesis =>
      obtain ⟨next, previous⟩ := head
      by_cases found : next = place
      · subst found
        by_cases same : other = next
        · simp [setEntry, same]
        · simp [setEntry, List.lookup_cons, beq_eq_false_iff_ne.2 same, same]
      · rw [setEntry, if_neg found]
        by_cases same : other = next
        · subst same
          simp [found]
        · simp [List.lookup_cons, beq_eq_false_iff_ne.2 same, inductionHypothesis]

theorem entryAt?_set (tree : FileTree) {place : Place} (other : Place) (entry : FileEntry)
    (below : place ≠ []) :
    (tree.set place entry).entryAt? other =
      if other = place then some entry else tree.entryAt? other := by
  by_cases top : other = []
  · have differs : other ≠ place := by
      rw [top]
      exact below.symm
    simp [entryAt?, top, below.symm]
  · simp [entryAt?, top, set, lookup_setEntry]

/-- The place that the parts of a path lead to from another place. -/
def resolveFrom (tree : FileTree) (place : Place) : List (List Char) → Except FileError Place
  | [] => .ok place
  | part :: parts =>
      match tree.entryAt? place with
      | none => .error .notFound
      | some (.file _) => .error .notDirectory
      | some .directory =>
          if Path.isTrivial part then tree.resolveFrom place parts
          else if part = ['.', '.'] then tree.resolveFrom place.dropLast parts
          else tree.resolveFrom (place ++ [part]) parts

/-- Where a path starts.  The empty part behind the path of the working directory asks for a
directory. -/
def start (tree : FileTree) (path : Path) : Except FileError Place :=
  if path.isAbsolute then .ok [] else tree.resolveFrom [] (tree.working.parts ++ [[]])

/-- Where what is joined to a path starts; behind the empty path that is the working directory. -/
def reach (tree : FileTree) (path : Path) : Except FileError Place :=
  (tree.start path).bind fun start => tree.resolveFrom start path.parts

/-- The place of a path, which need not be taken. -/
def resolve (tree : FileTree) (path : Path) : Except FileError Place :=
  if path.text = [] then .error .notFound else tree.reach path

/-- The place of a path and what stands there. -/
def find (tree : FileTree) (path : Path) : Except FileError (Place × FileEntry) :=
  match tree.resolve path with
  | .error error => .error error
  | .ok place =>
      match tree.entryAt? place with
      | none => .error .notFound
      | some entry => .ok (place, entry)

def isDirectory (tree : FileTree) (path : Path) : Bool :=
  match tree.find path with
  | .ok (_, .directory) => true
  | _ => false

def isFile (tree : FileTree) (path : Path) : Bool :=
  match tree.find path with
  | .ok (_, .file _) => true
  | _ => false

/-- The path of a place, from the root on. -/
def pathOf (place : Place) : Path :=
  ⟨'/' :: List.intercalate ['/'] place⟩

def read (tree : FileTree) (path : Path) : Except FileError ByteArray :=
  match tree.find path with
  | .error error => .error error
  | .ok (_, .directory) => .error .isDirectory
  | .ok (_, .file content) => .ok content

def readText (tree : FileTree) (path : Path) : Except FileError String :=
  match tree.read path with
  | .error error => .error error
  | .ok content =>
      match String.fromUTF8? content with
      | some text => .ok text
      | none => .error .notText

/-- The tree with a file written.  A path that ends in a separator names a directory. -/
def write (tree : FileTree) (path : Path) (content : ByteArray) : Except FileError FileTree :=
  match tree.resolve path.withoutEnd with
  | .error error => .error error
  | .ok place =>
      match tree.entryAt? place with
      | some .directory => .error .isDirectory
      | _ =>
          if path.text.getLast? = some '/' then .error .isDirectory
          else .ok (tree.set place (.file content))

/-- Makes the directories that are missing on the way from a place.  A file in the way ends this;
it counts as standing in for the directory when nothing follows it or a directory has been made
before it. -/
def createFrom (made : Bool) (place : Place) (tree : FileTree) :
    List (List Char) → Except FileError Unit × FileTree
  | [] => (.ok (), tree)
  | part :: parts =>
      if Path.isTrivial part then createFrom made place tree parts
      else if part = ['.', '.'] then createFrom made place.dropLast tree parts
      else
        match tree.entryAt? (place ++ [part]) with
        | some .directory => createFrom made (place ++ [part]) tree parts
        | some (.file _) =>
            (.error (if made || parts.all List.isEmpty then .alreadyExists else .notDirectory),
              tree)
        | none => createFrom true (place ++ [part]) (tree.set (place ++ [part]) .directory) parts

/-- Makes a directory and all that are missing on the way to it.  The empty path stands for the
working directory, which nothing is asked of. -/
def create (tree : FileTree) (path : Path) : Except FileError Unit × FileTree :=
  if path.text = [] then (.ok (), tree)
  else
    match tree.start path with
    | .error error => (.error error, tree)
    | .ok start => createFrom false start tree path.parts

/-- The tree without a place and all below it. -/
def remove (tree : FileTree) (place : Place) : FileTree :=
  { tree with entries := tree.entries.filter fun entry => !place.isPrefixOf entry.1 }

/-- The names on the way from a place to a file below it. -/
def fileBelow? (place : Place) : Place × FileEntry → Option Place
  | (_, .directory) => none
  | (other, .file _) =>
      if place.isPrefixOf other then some (other.drop place.length) else none

/-- The files below a place, in the order of their names. -/
def filesBelow (tree : FileTree) (place : Place) : List Place :=
  (tree.entries.filterMap (fileBelow? place)).mergeSort fun first second =>
    (compare first second).isLE

end FileTree

end ScreenCompiler
