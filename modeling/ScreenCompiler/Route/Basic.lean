import ScreenCompiler.Document.Screen

/-!
# Routes

A route ties a screen to its generated module.
-/

namespace ScreenCompiler

structure Route where
  /-- The path that navigation calls use. -/
  logicalPath : String
  componentName : String
  /-- The source path relative to the screens directory. -/
  sourceFile : String
  /-- The generated module relative to the directory of generated screens, without extension. -/
  modulePath : String
  options : ScreenOptions
  deriving DecidableEq, Repr

end ScreenCompiler
