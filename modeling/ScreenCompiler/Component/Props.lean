import ScreenCompiler.Component.State
import ScreenCompiler.Markup.Node
import ScreenCompiler.Route.Basic
import ScreenCompiler.Route.Name

/-!
# Props as code

How the props of an element are written in the generated component.  A navigation
call names the component of its route, and a bound state becomes a value and a
handler.
-/

namespace ScreenCompiler

open Text Script

/-- What the code of an element depends on besides the element. -/
structure Rendering where
  catalog : Catalog
  routes : List Route
  /-- The states of the component and their types. -/
  stateTypes : List (String × StateType)

/-- Code in braces. -/
def braced (code : String) : String :=
  "\x7b" ++ code ++ "\x7d"

def codeProp (key code : String) : String :=
  key ++ "=" ++ braced code

/-- A text prop.  A text with a double quote becomes a literal in braces. -/
def textProp (key text : String) : String :=
  if text.toList.contains '"' then codeProp key (quote text) else key ++ "=\"" ++ text ++ "\""

namespace Style

/-- A style name as an entry of the stylesheet. -/
def entry (name : List Char) : List Char :=
  "styles.".toList ++ name

/-- The code of a style prop: names refer to the stylesheet, several names make a list, and
anything else is code already. -/
def reference (style : List Char) : List Char :=
  let style := trim style
  if style.isEmpty then "undefined".toList
  else if startsWith "styles.".toList style then style
  else if isIdentifier style then entry style
  else
    let names := words style
    if 1 < names.length ∧ names.all isIdentifier then
      '[' :: List.intercalate ", ".toList (names.map entry) ++ [']']
    else style

end Style

/-- How a bound element reads and writes its state. -/
inductive Wiring where
  /-- A switch between the dark and the light theme. -/
  | theme
  | toggle
  /-- A text input for a number. -/
  | number
  | text
  | plain
  deriving DecidableEq, Repr

namespace Wiring

def of (catalog : Catalog) (tag name : String) (type : Option StateType) : Wiring :=
  if catalog.isToggle tag then
    (if name = "theme" ∧ (type = some .string ∨ type = none) then theme else toggle)
  else if catalog.isTextInput tag then
    (if type = some .number then number else text)
  else plain

/-- The value prop and the handler of a state. -/
def props (name : String) : Wiring → List String
  | theme =>
      [codeProp "value" (name ++ " === 'dark'"),
        codeProp "onValueChange" ("(value) => " ++ setterName name ++ "(value ? 'dark' : 'light')")]
  | toggle =>
      [codeProp "value" name,
        codeProp "onValueChange" ("(value) => " ++ setterName name ++ "(value)")]
  | number =>
      [codeProp "value" ("String(" ++ name ++ ")"),
        codeProp "onChangeText" ("(text) => " ++ setterName name ++ "(Number(text) || 0)")]
  | text =>
      [codeProp "value" name,
        codeProp "onChangeText" ("(text) => " ++ setterName name ++ "(text)")]
  | plain =>
      [codeProp "value" name,
        codeProp "onChange" ("(value) => " ++ setterName name ++ "(value)")]

end Wiring

namespace Rendering

/-- The component that a navigation path leads to: that of the first route with this logical path,
or else the name made from the path. -/
def navigationTarget (rendering : Rendering) (path : String) : String :=
  let clean := stripMark '/' (trim path.toList)
  match rendering.routes.find? fun route => route.logicalPath == String.ofList clean with
  | some route => route.componentName
  | none => String.ofList (RoutePath.componentName clean)

def navigationCall (rendering : Rendering) (path : String) : String :=
  "() => navigation.navigate(" ++ quote (rendering.navigationTarget path) ++ ")"

/-- The last type given to a state. -/
def stateType? (rendering : Rendering) (name : String) : Option StateType :=
  rendering.stateTypes.reverse.lookup name

def imageSource (source : String) : String :=
  if startsWith "http://".toList source.toList || startsWith "https://".toList source.toList then
    braced (" uri: " ++ quote source ++ " ")
  else "require(" ++ quote source ++ ")"

/-- A value under a name without a meaning of its own. -/
def plainProp (rendering : Rendering) (key : String) : PropValue → String
  | .string text => textProp key text
  | .number value => codeProp key (Decimal.numberText value)
  | .bool value => codeProp key (toString value)
  | .expression code => codeProp key code
  | .navigation path => codeProp key (rendering.navigationCall path)
  | .state name => codeProp key name

/-- A value that is shown as text, whatever its kind. -/
def shownProp (key : String) : PropValue → String
  | .expression code => codeProp key code
  | value => textProp key value.plainText

/-- The code of one prop of an element; a binding without a state writes nothing. -/
def prop (rendering : Rendering) (tag key : String) (value : PropValue) : List String :=
  match key, value with
  | "onPress", .navigation path => [codeProp key (rendering.navigationCall path)]
  | "onPress", .string handler => [codeProp key ("() => " ++ handler)]
  | "bind", .state name =>
      (Wiring.of rendering.catalog tag name (rendering.stateType? name)).props name
  | "bind", _ => []
  | "style", .string style =>
      [codeProp key (String.ofList (Style.reference style.toList))]
  | "source", .string source =>
      if rendering.catalog.isImage tag then [codeProp key (imageSource source)]
      else [textProp key source]
  | "placeholder", value => [shownProp key value]
  | "label", value => [shownProp key value]
  | key, value => [rendering.plainProp key value]

def props (rendering : Rendering) (tag : String) (props : Props) : List String :=
  props.entries.flatMap fun entry => rendering.prop tag entry.1 entry.2

end Rendering

end ScreenCompiler
