import ScreenCompiler.Project.FileTree

/-!
# Source files

The sources below a directory are the files with the right extension.  Hidden
names and names on the ignore list are left out with all that is below them; the
directory itself may have any name.
-/

namespace ScreenCompiler

open Text

namespace Sources

/-- Whether a name is left out. -/
def isSkipped (ignored : List String) (name : List Char) : Bool :=
  startsWith ['.'] name || ignored.contains (String.ofList name)

/-- Whether the names on the way to a file make it a source. -/
def isSource (ending : String) (ignored : List String) (names : Place) : Bool :=
  names.all (!isSkipped ignored ·) &&
    names.getLast?.bind Path.extensionOf? == some ending.toList

/-- The path that leads along names from a directory. -/
def along (directory : Path) (names : Place) : Path :=
  names.foldl (fun path name => path.join ⟨name⟩) directory

/-- The sources below a directory, in the order of their names.  A file instead of a directory
stands for itself. -/
def list (tree : FileTree) (directory : Path) (ending : String) (ignored : List String) :
    Except FileError (List Path) :=
  match tree.find directory with
  | .error error => .error error
  | .ok (_, .file _) =>
      .ok (if directory.extension? = some ending.toList then [directory] else [])
  | .ok (place, .directory) =>
      .ok (((tree.filesBelow place).filter (isSource ending ignored)).map (along directory))

end Sources

end ScreenCompiler
