import ScreenCompiler.Project.Error
import ScreenCompiler.Project.Settings

/-!
# Projects

A project is a root directory with its settings.
-/

namespace ScreenCompiler

structure Project where
  root : Path
  settings : Settings
  deriving DecidableEq, Repr

namespace Project

/-- The file that holds the settings. -/
def fileName : String := "ignite.json"

/-- The project at a root.  A project without a settings file has the standard settings. -/
def load (tree : FileTree) (root : Path) : Except ProjectError Project :=
  let path := root.joinString fileName
  if tree.isFile path then
    match tree.readText path with
    | .error error => .error (.file path error)
    | .ok text =>
        match Settings.read? text with
        | some settings => .ok { root, settings }
        | none => .error (.settings path)
  else .ok { root, settings := .standard }

def screens (project : Project) : Path :=
  project.root.joinString project.settings.screensDirectory

def output (project : Project) : Path :=
  project.root.joinString project.settings.outputDirectory

/-- Where the modules of the screens go. -/
def screensOutput (project : Project) : Path :=
  project.output.joinString "screens"

end Project

end ScreenCompiler
