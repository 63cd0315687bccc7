import ScreenCompiler.Catalog.Standard
import ScreenCompiler.Project.Pass

/-!
# Watch sessions

A session begins with a pass.  It needs the screens directory, but not that the
pass succeeds.
-/

namespace ScreenCompiler

structure WatchSession where
  stopped : Bool
  deriving DecidableEq, Repr

namespace WatchSession

def start (project : Project) (tree : FileTree) :
    Except ProjectError WatchSession × FileTree :=
  if tree.isDirectory project.screens then
    (.ok { stopped := false }, (project.compile .standard tree).2)
  else (.error (.screensMissing project.screens), tree)

/-- Stopping again changes nothing. -/
def stop (session : WatchSession) : WatchSession :=
  { session with stopped := true }

end WatchSession

end ScreenCompiler
