import ScreenCompiler.Markup.Attributes

/-!
# Screen settings

The `screen` line sets how a screen appears in navigation.  Keys that have no
meaning here are kept aside.
-/

namespace ScreenCompiler

open Text

/-- How a screen appears in navigation. -/
structure ScreenOptions where
  title : Option String
  headerShown : Bool
  isTabScreen : Bool
  tabOrder : Option Int
  tabIcon : Option String
  deriving DecidableEq, Repr

structure Screen where
  options : ScreenOptions
  /-- Keys without a meaning of their own. -/
  extra : Props
  deriving DecidableEq

namespace Screen

/-- The settings of a source without a screen line. -/
def standard : Screen where
  options :=
    { title := none, headerShown := true, isTabScreen := false, tabOrder := none,
      tabIcon := none }
  extra := .empty

def set (screen : Screen) (key : String) (value : PropValue) : Screen :=
  if key = "title" then
    { screen with options := { screen.options with title := some value.plainText } }
  else if key = "isTabScreen" then
    { screen with options := { screen.options with
        isTabScreen := value = .bool true ∨ value = .string "true" } }
  else if key = "tabOrder" then
    { screen with options := { screen.options with tabOrder := value.toInteger? } }
  else if key = "tabIcon" then
    { screen with options := { screen.options with tabIcon := some value.plainText } }
  else if key = "headerShown" then
    { screen with options := { screen.options with headerShown := value.isTruthy } }
  else { screen with extra := screen.extra.insert key value }

def ofProps (props : Props) : Screen :=
  props.entries.foldl (fun screen entry => screen.set entry.1 entry.2) standard

/-- The attribute text of a screen line. -/
def attributes? (line : List Char) : Option (List Char) :=
  match afterPrefix? "screen".toList line with
  | some [] => some []
  | some (c :: rest) => if isBlank c then some (trimStart rest) else none
  | none => none

def ofAttributes (catalog : Catalog) (text : List Char) : Screen :=
  ofProps (ScannedProps.read catalog text).props

end Screen

end ScreenCompiler
