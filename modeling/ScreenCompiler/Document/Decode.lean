import ScreenCompiler.Document.Basic
import ScreenCompiler.Json.Record

/-!
# Documents from JSON

Reading is strict about types, case names and missing fields.  A tree is read from
the parts of its value, each smaller than the whole, so reading ends.
-/

namespace ScreenCompiler

open Json

def PropValue.ofJson? (json : Json) : Option PropValue :=
  (json.record? ["type", "value"] []).bind fun record =>
    (record.get? "type" caseName?).bind fun name =>
      match name with
      | "string" => (record.get? "value" string?).map .string
      | "number" => (record.get? "value" float?).map .number
      | "bool" => (record.get? "value" bool?).map .bool
      | "expression" => (record.get? "value" string?).map .expression
      | "navigation" => (record.get? "value" string?).map .navigation
      | "state" => (record.get? "value" string?).map .state
      | _ => none

/-- A prop: its name and its value. -/
def Props.entryOfJson? : Json → Option (String × PropValue)
  | .array [.string name, value] => (PropValue.ofJson? value).map (name, ·)
  | _ => none

def Props.ofJson? (json : Json) : Option Props :=
  (json.list? Props.entryOfJson?).map Props.mk

def Screen.ofJson? (json : Json) : Option Screen := do
  let record ← json.record? ["title", "headerShown", "isTabScreen", "tabOrder", "tabIcon"]
    ["extra"]
  let title ← record.option? "title" string?
  let headerShown ← record.get? "headerShown" bool?
  let isTabScreen ← record.get? "isTabScreen" bool?
  let tabOrder ← record.option? "tabOrder" int?
  let tabIcon ← record.option? "tabIcon" string?
  let extra ← record.getOr? "extra" .empty Props.ofJson?
  return { options := { title, headerShown, isTabScreen, tabOrder, tabIcon }, extra }

def StateType.ofJson? (json : Json) : Option StateType :=
  json.caseName?.bind fun name =>
    match name with
    | "string" => some .string
    | "number" => some .number
    | "boolean" => some .boolean
    | "array" => some .array
    | "object" => some .object
    | _ => none

def State.ofJson? (json : Json) : Option State := do
  let record ← json.record? ["name", "initialValue", "inferredType"] ["literal"]
  let name ← record.get? "name" string?
  let initialValue ← record.value? "initialValue"
  let type ← record.get? "inferredType" StateType.ofJson?
  let literal ← record.getOr? "literal" "" string?
  return { name, initialValue, type, literal }

def Function.ofJson? (json : Json) : Option Function := do
  let record ← json.record? ["name", "isAsync", "params", "body"] []
  let name ← record.get? "name" string?
  let isAsync ← record.get? "isAsync" bool?
  let params ← record.get? "params" string?
  let body ← record.get? "body" string?
  return { name, isAsync, params, body }

/-- The fields of an import of a given kind. -/
def Import.ofFields? (kind : String) (fields : Json) : Option Import :=
  match kind with
  | "default" => do
      let record ← fields.record? ["local", "source"] []
      return .default (← record.get? "local" string?) (← record.get? "source" string?)
  | "named" => do
      let record ← fields.record? ["names", "source"] []
      return .named (← record.get? "names" (list? string?)) (← record.get? "source" string?)
  | "namespace" => do
      let record ← fields.record? ["alias", "source"] []
      return .whole (← record.get? "alias" string?) (← record.get? "source" string?)
  | _ => none

def Import.ofJson? (json : Json) : Option Import :=
  (json.variant? "kind").bind fun (kind, fields) => Import.ofFields? kind fields

/-- The fields of a diagnostic that names something. -/
def Diagnostic.named? (key : String) (fields : Json) : Option (String × Nat) := do
  let record ← fields.record? [key, "line"] []
  return (← record.get? key string?, ← record.get? "line" nat?)

def Diagnostic.ofFields? (kind : String) (fields : Json) : Option Diagnostic :=
  match kind with
  | "unterminatedTag" =>
      (Diagnostic.named? "tag" fields).map fun (tag, line) => .unterminatedTag tag line
  | "unterminatedFunction" =>
      (Diagnostic.named? "name" fields).map fun (name, line) => .unterminatedFunction name line
  | "unterminatedStylesheet" =>
      ((fields.record? ["line"] []).bind (·.get? "line" nat?)).map .unterminatedStylesheet
  | "unterminatedValue" =>
      (Diagnostic.named? "attribute" fields).map fun (name, line) => .unterminatedValue name line
  | "unmatchedClosingTag" =>
      (Diagnostic.named? "tag" fields).map fun (tag, line) => .unmatchedClosingTag tag line
  | _ => none

def Diagnostic.ofJson? (json : Json) : Option Diagnostic :=
  (json.variant? "kind").bind fun (kind, fields) => Diagnostic.ofFields? kind fields

/-- The record of an element. -/
def Node.elementRecord? (fields : Json) : Option Record :=
  fields.record? ["tag", "props", "children"] ["line"]

/-- The values of the children of an element. -/
def Node.childValues? (fields : Json) : Option (List Json) :=
  (Node.elementRecord? fields).bind (·.get? "children" items?)

theorem Node.sizeOf_lt_of_childValues? {key kind : String} {json fields child : Json}
    {children : List Json} (found : json.variant? key = some (kind, fields))
    (reading : Node.childValues? fields = some children) (member : child ∈ children) :
    sizeOf child < sizeOf json := by
  obtain ⟨record, isRecord, isField⟩ := Option.bind_eq_some_iff.1 reading
  obtain ⟨list, isValue, isList⟩ := Option.bind_eq_some_iff.1 isField
  cases list with
  | array items =>
      simp only [items?, Option.some.injEq] at isList
      subst isList
      have inside := Record.mem_parts_of_value? isRecord isValue
      have outer := sizeOf_lt_of_mem_parts (mem_parts_of_variant? found inside)
      have inner : sizeOf child < sizeOf (Json.array items) := sizeOf_lt_of_mem_parts member
      omega
  | _ => simp [items?] at isList

def Node.ofJson? (json : Json) : Option Node :=
  match _found : json.variant? "type" with
  | some ("text", fields) =>
      ((fields.record? ["text"] []).bind (·.get? "text" string?)).map .text
  | some ("element", fields) =>
      match reading : Node.childValues? fields with
      | none => none
      | some values => do
          let record ← Node.elementRecord? fields
          let tag ← record.get? "tag" string?
          let props ← record.get? "props" Props.ofJson?
          let children ← values.attach.mapM fun child => Node.ofJson? child.1
          let line ← record.getOr? "line" 0 nat?
          return .element tag props children line
  | _ => none
termination_by sizeOf json
decreasing_by exact Node.sizeOf_lt_of_childValues? _found reading child.2

def Document.ofJson? (json : Json) : Option Document := do
  let record ← json.record?
    ["screen", "imports", "states", "functions", "nodes", "stylesheet"] ["diagnostics"]
  let screen ← record.option? "screen" Screen.ofJson?
  let imports ← record.get? "imports" (list? Import.ofJson?)
  let states ← record.get? "states" (list? State.ofJson?)
  let functions ← record.get? "functions" (list? Function.ofJson?)
  let nodes ← record.get? "nodes" (list? Node.ofJson?)
  let stylesheet ← record.option? "stylesheet" string?
  let diagnostics ← record.getOr? "diagnostics" [] (list? Diagnostic.ofJson?)
  return { screen, imports, states, functions, nodes, stylesheet, diagnostics }

end ScreenCompiler
