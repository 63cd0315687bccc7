import ScreenCompiler.Json.Record
import ScreenCompiler.Route.Basic

/-!
# Routes from JSON
-/

namespace ScreenCompiler

open Json

def ScreenOptions.ofJson? (json : Json) : Option ScreenOptions := do
  let record ← json.record? ["title", "headerShown", "isTabScreen", "tabOrder", "tabIcon"] []
  let title ← record.option? "title" string?
  let headerShown ← record.get? "headerShown" bool?
  let isTabScreen ← record.get? "isTabScreen" bool?
  let tabOrder ← record.option? "tabOrder" int?
  let tabIcon ← record.option? "tabIcon" string?
  return { title, headerShown, isTabScreen, tabOrder, tabIcon }

def Route.ofJson? (json : Json) : Option Route := do
  let record ← json.record?
    ["logicalPath", "componentName", "sourceFile", "modulePath", "options"] []
  let logicalPath ← record.get? "logicalPath" string?
  let componentName ← record.get? "componentName" string?
  let sourceFile ← record.get? "sourceFile" string?
  let modulePath ← record.get? "modulePath" string?
  let options ← record.get? "options" ScreenOptions.ofJson?
  return { logicalPath, componentName, sourceFile, modulePath, options }

end ScreenCompiler
