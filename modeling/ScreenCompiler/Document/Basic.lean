import ScreenCompiler.Document.Forest
import ScreenCompiler.Document.Stylesheet

/-!
# Documents

A document is a screen source that has been read: its declarations, its markup, its
stylesheet, and what is wrong with it.
-/

namespace ScreenCompiler

structure Document where
  screen : Option Screen
  imports : List Import
  states : List State
  functions : List Function
  nodes : List Node
  /-- The stylesheet block as written. -/
  stylesheet : Option String
  diagnostics : List Diagnostic

namespace Document

def screenOrStandard (document : Document) : Screen :=
  document.screen.getD .standard

/-- The document with one more declaration.  Of several screen lines the last counts, and of
several states of one name the last value. -/
def declare (document : Document) : Declaration → Document
  | .imports imports => { document with imports := document.imports ++ imports }
  | .screen screen => { document with screen := some screen }
  | .state state => { document with states := state.put document.states }
  | .function function => { document with functions := document.functions ++ [function] }

/-- A document with markup and no declarations. -/
def ofNodes (nodes : List Node) (diagnostics : List Diagnostic) : Document :=
  { screen := none, imports := [], states := [], functions := [], nodes, stylesheet := none,
    diagnostics }

def ofForest (forest : Forest) : Document :=
  forest.declarations.foldl declare (ofNodes forest.nodes forest.diagnostics)

/-- The diagnostics about the stylesheet block. -/
def stylesheetFaults (cut : StylesheetCut) : List Diagnostic :=
  (cut.unterminatedAt.map Diagnostic.unterminatedStylesheet).toList

/-- The document of a source text. -/
def parse (catalog : Catalog) (source : List Char) : Document :=
  let cut := Stylesheet.cut source
  let document := ofForest (Forest.ofItems (Item.ofSource catalog cut.remaining))
  { document with
    stylesheet := cut.block.map String.ofList
    diagnostics := stylesheetFaults cut ++ document.diagnostics }

end Document

end ScreenCompiler
