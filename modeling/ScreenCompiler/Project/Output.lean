import ScreenCompiler.Digest.Sha256
import ScreenCompiler.Project.Error

/-!
# Writing output

A generated file is written only when its digest differs from that of the file
that is there, so an unchanged project is left alone.
-/

namespace ScreenCompiler

inductive WriteOutcome where
  | written
  | unchanged
  deriving DecidableEq, Repr

/-- The file of a generated module in a directory. -/
def Path.moduleFile (directory : Path) (name : List Char) : Path :=
  directory.join ⟨name ++ ".js".toList⟩

namespace FileTree

/-- Whether a path leads to a text with the same digest. -/
def holdsText (tree : FileTree) (path : Path) (text : String) : Bool :=
  match tree.readText path with
  | .ok existing => Digest.ofText existing == Digest.ofText text
  | .error _ => false

/-- Makes the directory that a path lies in. -/
def createParent (tree : FileTree) (path : Path) : Except ProjectError Unit × FileTree :=
  match path.parent? with
  | none => (.ok (), tree)
  | some parent =>
      match tree.create parent with
      | (.ok _, changed) => (.ok (), changed)
      | (.error error, changed) => (.error (.file parent error), changed)

/-- Writes a text with the directories that it needs. -/
def emitText (tree : FileTree) (path : Path) (text : String) :
    Except ProjectError Unit × FileTree :=
  match tree.createParent path with
  | (.error error, changed) => (.error error, changed)
  | (.ok _, changed) =>
      match changed.write path text.toUTF8 with
      | .ok final => (.ok (), final)
      | .error error => (.error (.file path error), changed)

/-- Writes a text unless it is there already. -/
def writeIfChanged (tree : FileTree) (path : Path) (text : String) :
    Except ProjectError WriteOutcome × FileTree :=
  if tree.holdsText path text then (.ok .unchanged, tree)
  else
    match tree.emitText path text with
    | (.ok _, changed) => (.ok .written, changed)
    | (.error error, changed) => (.error error, changed)

end FileTree

end ScreenCompiler
