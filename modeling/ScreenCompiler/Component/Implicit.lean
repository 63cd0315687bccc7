import ScreenCompiler.Document.Basic

/-!
# Implicit states

A state may be bound without being declared.  Its type is then read off the element
that binds it and off its name.
-/

namespace ScreenCompiler

/-- Keyboards that type numbers. -/
def numericKeyboards : List String :=
  ["numeric", "number-pad", "decimal-pad", "phone-pad"]

namespace Element

/-- The state that an element binds. -/
def boundState? (element : Element) : Option String :=
  match element.props.get? "bind" with
  | some (.state name) => some name
  | _ => none

def hasNumericKeyboard (element : Element) : Bool :=
  match element.props.get? "keyboardType" with
  | some (.string keyboard) => numericKeyboards.contains keyboard
  | _ => false

/-- The state of a name that an element binds without a declaration. -/
def implicitState (catalog : Catalog) (element : Element) (name : String) : State :=
  if catalog.isToggle element.tag && name == "theme" then
    { name, initialValue := .string "light", type := .string, literal := "" }
  else if catalog.isToggle element.tag || catalog.looksBoolean name then
    { name, initialValue := .bool false, type := .boolean, literal := "" }
  else if catalog.isTextInput element.tag &&
      (element.hasNumericKeyboard || catalog.looksNumeric name) then
    { name, initialValue := .ofInt 0, type := .number, literal := "" }
  else { name, initialValue := .string "", type := .string, literal := "" }

end Element

namespace Document

/-- The implicit states of a list of elements, given the names that are known already. -/
def implicitStatesOf (catalog : Catalog) (known : List String) : List Element → List State
  | [] => []
  | element :: elements =>
      match element.boundState? with
      | none => implicitStatesOf catalog known elements
      | some name =>
          if known.contains name then implicitStatesOf catalog known elements
          else
            element.implicitState catalog name ::
              implicitStatesOf catalog (name :: known) elements

/-- The states that are bound but not declared, in the order of their first use. -/
def implicitStates (catalog : Catalog) (document : Document) : List State :=
  implicitStatesOf catalog (document.states.map State.name) (Node.elementsOf document.nodes)

/-- All states of a document, declared ones first. -/
def allStates (catalog : Catalog) (document : Document) : List State :=
  document.states ++ document.implicitStates catalog

end Document

end ScreenCompiler
