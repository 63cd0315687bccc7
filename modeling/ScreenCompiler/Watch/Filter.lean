import ScreenCompiler.Project.Basic
import ScreenCompiler.Project.Host

/-!
# Source filter

Which paths matter to a project: sources below the screens directory that are not
output.  Directories are known by their configured path and, when they are there,
by their direct path too.
-/

namespace ScreenCompiler

open Text

structure SourceFilter where
  screens : List Path
  output : List Path
  extension : String
  ignored : List String

namespace SourceFilter

/-- A path, and its direct form where that differs. -/
def knownAs (host : Host) (path : Path) : List Path :=
  match host.canonical? path with
  | some direct => if direct.same path then [path] else [path, direct]
  | none => [path]

def ofProject (host : Host) (project : Project) : SourceFilter where
  screens := knownAs host project.screens
  output := knownAs host project.output
  extension := project.settings.extension
  ignored := project.settings.ignored

/-- Whether a component of a path is left out. -/
def isSkipped (ignored : List String) : Path.Component → Bool
  | .name part => Sources.isSkipped ignored part
  | _ => false

/-- Whether a path is that of a source. -/
def accepts (filter : SourceFilter) (path : Path) : Bool :=
  !filter.output.any (·.isBelow path) &&
    path.extension? == some filter.extension.toList &&
      match filter.screens.findSome? (Path.relative? · path) with
      | some components => !components.any (isSkipped filter.ignored)
      | none => false

end SourceFilter

end ScreenCompiler
