import ScreenCompiler.Document.State
import ScreenCompiler.Json.Printer
import ScreenCompiler.Script.Quoted
import ScreenCompiler.Text.Case

/-!
# Code of states

How a state is declared in a component: its setter, and its initial value as code.
-/

namespace ScreenCompiler

open Text Script

/-- The setter of a state: `set` and the name with a capital first letter. -/
def setterName (state : String) : String :=
  match state.toList with
  | [] => "set"
  | c :: rest => String.ofList ("set".toList ++ upper c ++ rest)

namespace State

/-- The initial value as code.  Literals that are not JSON stay as written. -/
def code (state : State) : String :=
  match state.type with
  | .boolean =>
      match state.initialValue with
      | .bool value => toString value
      | _ => "false"
  | .number =>
      match state.initialValue with
      | .number value => Decimal.numberText value.toFloat
      | _ => "0"
  | .string =>
      match state.initialValue with
      | .string text => quote text
      | _ => quote state.literal
  | .array | .object =>
      if state.literal = "" ∨ (Json.read? state.literal.toList).isSome then
        state.initialValue.text
      else state.literal

def declarationLine (state : State) : String :=
  "  const [" ++ state.name ++ ", " ++ setterName state.name ++ "] = useState(" ++ state.code ++
    ");"

end State

end ScreenCompiler
