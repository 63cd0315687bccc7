import ScreenCompiler.Document.Basic
import ScreenCompiler.Json.Printer

/-!
# Documents as JSON

Fields are written in the order in which they are declared, and the case of a
variant comes first.
-/

namespace ScreenCompiler

def PropValue.toJson : PropValue → Json
  | .string text => .object [("type", .string "string"), ("value", .string text)]
  | .number value => .object [("type", .string "number"), ("value", .number (.double value))]
  | .bool value => .object [("type", .string "bool"), ("value", .bool value)]
  | .expression code => .object [("type", .string "expression"), ("value", .string code)]
  | .navigation path => .object [("type", .string "navigation"), ("value", .string path)]
  | .state name => .object [("type", .string "state"), ("value", .string name)]

def Props.toJson (props : Props) : Json :=
  .ofList (fun entry => .array [.string entry.1, entry.2.toJson]) props.entries

namespace Node

mutual

def toJson : Node → Json
  | text run => .object [("type", .string "text"), ("text", .string run)]
  | element tag props children line =>
      .object [("type", .string "element"), ("tag", .string tag), ("props", props.toJson),
        ("children", .array (listToJson children)), ("line", .ofNat line)]

def listToJson : List Node → List Json
  | [] => []
  | node :: nodes => toJson node :: listToJson nodes

end

end Node

def Screen.toJson (screen : Screen) : Json :=
  .object [("title", .ofOption .ofString screen.options.title),
    ("headerShown", .bool screen.options.headerShown),
    ("isTabScreen", .bool screen.options.isTabScreen),
    ("tabOrder", .ofOption .ofInt screen.options.tabOrder),
    ("tabIcon", .ofOption .ofString screen.options.tabIcon),
    ("extra", screen.extra.toJson)]

def StateType.name : StateType → String
  | string => "string"
  | number => "number"
  | boolean => "boolean"
  | array => "array"
  | object => "object"

def State.toJson (state : State) : Json :=
  .object [("name", .string state.name), ("initialValue", state.initialValue),
    ("inferredType", .string state.type.name), ("literal", .string state.literal)]

def Function.toJson (function : Function) : Json :=
  .object [("name", .string function.name), ("isAsync", .bool function.isAsync),
    ("params", .string function.params), ("body", .string function.body)]

def Import.toJson : Import → Json
  | .default name source =>
      .object [("kind", .string "default"), ("local", .string name), ("source", .string source)]
  | .named names source =>
      .object [("kind", .string "named"), ("names", .ofList .ofString names),
        ("source", .string source)]
  | .whole name source =>
      .object [("kind", .string "namespace"), ("alias", .string name),
        ("source", .string source)]

def Diagnostic.toJson : Diagnostic → Json
  | .unterminatedTag tag line =>
      .object [("kind", .string "unterminatedTag"), ("tag", .string tag), ("line", .ofNat line)]
  | .unterminatedFunction name line =>
      .object [("kind", .string "unterminatedFunction"), ("name", .string name),
        ("line", .ofNat line)]
  | .unterminatedStylesheet line =>
      .object [("kind", .string "unterminatedStylesheet"), ("line", .ofNat line)]
  | .unterminatedValue name line =>
      .object [("kind", .string "unterminatedValue"), ("attribute", .string name),
        ("line", .ofNat line)]
  | .unmatchedClosingTag tag line =>
      .object [("kind", .string "unmatchedClosingTag"), ("tag", .string tag),
        ("line", .ofNat line)]

def Document.toJson (document : Document) : Json :=
  .object [("screen", .ofOption Screen.toJson document.screen),
    ("imports", .ofList Import.toJson document.imports),
    ("states", .ofList State.toJson document.states),
    ("functions", .ofList Function.toJson document.functions),
    ("nodes", .array (Node.listToJson document.nodes)),
    ("stylesheet", .ofOption .ofString document.stylesheet),
    ("diagnostics", .ofList Diagnostic.toJson document.diagnostics)]

end ScreenCompiler
