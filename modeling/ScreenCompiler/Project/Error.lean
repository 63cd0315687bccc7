import ScreenCompiler.Project.FileTree

/-!
# Errors of a project

What ends a pass over a project.  Anything wrong inside a screen source is a
diagnostic and ends nothing.
-/

namespace ScreenCompiler

inductive ProjectError where
  | screensMissing (directory : Path)
  /-- A file or directory that cannot be read or made. -/
  | file (path : Path) (error : FileError)
  /-- A source directory that cannot be listed. -/
  | listing (directory : Path) (error : FileError)
  | settings (path : Path)
  /-- Two sources with one component name. -/
  | nameTaken (source name earlier : String)
  deriving DecidableEq, Repr

def ProjectError.message : ProjectError → String
  | screensMissing directory => "screens directory not found: " ++ directory.toString
  | file path error => "i/o error on " ++ path.toString ++ ": " ++ error.message
  | listing directory error =>
      "failed to walk source tree: IO error for operation on " ++ directory.toString ++ ": " ++
        error.message
  | settings path => "invalid compiler config in " ++ path.toString
  | nameTaken source name earlier =>
      "cannot compile " ++ source ++ ": component name " ++ name ++ " is already used by " ++
        earlier

end ScreenCompiler
