import ScreenCompiler.Component.Implicit
import ScreenCompiler.Component.Imports
import ScreenCompiler.Component.Markup

/-!
# Component modules

The module generated for a document: imports, one function component with its
states, functions and markup, and the stylesheet.
-/

namespace ScreenCompiler

open Text

/-- A generated module in parts. -/
structure ComponentModule where
  imports : List ImportLine
  name : String
  states : List State
  functions : List Function
  /-- The returned markup, line ends included. -/
  markup : String
  stylesheet : String

/-- The stylesheet of a module whose source has none. -/
def emptyStylesheet : String :=
  "const styles = StyleSheet.create(\x7b\x7d);"

namespace Function

/-- A line of a function body; blank lines stay empty. -/
def bodyLine (line : List Char) : String :=
  if isAllBlank line then "\n" else "    " ++ String.ofList line ++ "\n"

def code (function : Function) : String :=
  "  const " ++ function.name ++ " = " ++ (if function.isAsync then "async " else "") ++ "(" ++
    function.params ++ ") => \x7b\n" ++
    String.join ((lines function.body.toList).map bodyLine) ++ "  \x7d;"

end Function

namespace ComponentModule

def importText (component : ComponentModule) : String :=
  String.intercalate "\n" (component.imports.map ImportLine.text)

/-- The function component up to its markup. -/
def header (component : ComponentModule) : String :=
  "export default function " ++ component.name ++ "() \x7b\n" ++
    "  const navigation = useNavigation();\n" ++
    String.join (component.states.map fun state => state.declarationLine ++ "\n") ++
    String.join (component.functions.map fun function => "\n" ++ function.code ++ "\n")

def text (component : ComponentModule) : String :=
  component.importText ++ "\n\n" ++ component.header ++ "\n  return (\n" ++ component.markup ++
    "  );\n\x7d\n\n" ++ component.stylesheet ++ "\n"

end ComponentModule

namespace Rendering

/-- The markup that a component returns: nothing, one node, or several in a fragment. -/
def returned (rendering : Rendering) : List Node → String
  | [] => "    null\n"
  | [node] => rendering.node 2 node ++ "\n"
  | nodes =>
      "    <>\n" ++ String.join (nodes.map fun node => rendering.node 3 node ++ "\n") ++
        "    </>\n"

end Rendering

namespace Document

def rendering (catalog : Catalog) (routes : List Route) (document : Document) : Rendering where
  catalog := catalog
  routes := routes
  stateTypes := (document.allStates catalog).map fun state => (state.name, state.type)

/-- The module of a document under a component name, with the routes that its calls lead to. -/
def component (catalog : Catalog) (routes : List Route) (name : String) (document : Document) :
    ComponentModule where
  imports := document.importLines catalog
  name := name
  states := document.allStates catalog
  functions := document.functions
  markup := (document.rendering catalog routes).returned document.nodes
  stylesheet := document.stylesheet.getD emptyStylesheet

/-- The text of the generated module. -/
def generate (catalog : Catalog) (routes : List Route) (name : String) (document : Document) :
    String :=
  (document.component catalog routes name).text

end Document

end ScreenCompiler
