import ScreenCompiler.Json.Basic
import ScreenCompiler.Script.Identifier
import ScreenCompiler.Text.Affix
import ScreenCompiler.Text.Blank

/-!
# State declarations

A state has a name and an initial value.  Its type is read off the literal behind
the equals sign; a literal that has no other type is text.
-/

namespace ScreenCompiler

open Text

inductive StateType where
  | string
  | number
  | boolean
  | array
  | object
  deriving DecidableEq, Repr

structure State where
  name : String
  initialValue : Json
  type : StateType
  /-- The literal as written. -/
  literal : String

namespace State

/-- A state line: its name, and the literal behind the equals sign. -/
def line? (line : List Char) : Option (List Char × List Char) :=
  match afterPrefix? "state".toList line with
  | some (c :: rest) =>
      if isBlank c then
        (Script.identifier? (trimStart rest)).bind fun (name, rest) =>
          match trimStart rest with
          | '=' :: literal => if literal.isEmpty then none else some (name, trimStart literal)
          | _ => none
      else none
  | _ => none

/-- The literal without the semicolons that end its line. -/
def cleanLiteral (literal : List Char) : List Char :=
  trimEnd ((trim literal).reverse.dropWhile (· == ';')).reverse

/-- The text between two equal quotes at the ends. -/
def quotedText? (literal : List Char) : Option (List Char) :=
  match literal with
  | [] => none
  | c :: rest =>
      if c = '"' ∨ c = '\'' then beforeSuffix? [c] rest else none

def isBetween (first last : Char) (literal : List Char) : Bool :=
  literal.head? == some first && literal.getLast? == some last

/-- The value of a text that is JSON of the wanted kind, or else an empty value. -/
def jsonOr (wanted : Json → Bool) (empty : Json) (literal : List Char) : Json :=
  match Json.read? literal with
  | some value => if wanted value then value else empty
  | none => empty

/-- The initial value and type of a literal. -/
def classify (literal : List Char) : Json × StateType :=
  if literal = "true".toList then (.bool true, .boolean)
  else if literal = "false".toList then (.bool false, .boolean)
  else match Decimal.number? literal with
    | some value => (.number (.ofFloat value), .number)
    | none =>
        match quotedText? literal with
        | some inner => (.string (String.ofList inner), .string)
        | none =>
            if isBetween '[' ']' literal then
              (jsonOr Json.isArray (.array []) literal, .array)
            else if isBetween '{' '}' literal then
              (jsonOr Json.isObject (.object []) literal, .object)
            else (.string (String.ofList literal), .string)

/-- The state of a name and the literal behind the equals sign. -/
def infer (name : String) (literal : List Char) : State :=
  let clean := cleanLiteral literal
  let (initialValue, type) := classify clean
  { name, initialValue, type, literal := String.ofList clean }

/-- The states with one added; a state of the same name is replaced where it stands. -/
def put (state : State) : List State → List State
  | [] => [state]
  | other :: states =>
      if other.name = state.name then state :: states else other :: put state states

@[simp]
theorem put_nil (state : State) : state.put [] = [state] :=
  rfl

theorem put_cons (state other : State) (states : List State) :
    state.put (other :: states) =
      if other.name = state.name then state :: states else other :: state.put states :=
  rfl

end State

end ScreenCompiler
