import ScreenCompiler.Catalog.Imports
import ScreenCompiler.Document.Basic

/-!
# Imports of a component

The import lines of a generated component come from three sides: what every
component needs, what its tags need, and what its author imports.  A name that one
line binds is dropped from the others.
-/

namespace ScreenCompiler

open Text

/-- An import line of generated code. -/
inductive ImportLine where
  | single (statement : Import)
  /-- A default import with named imports behind it. -/
  | mixed (name : String) (names : List String) (source : String)
  deriving DecidableEq, Repr

namespace ImportLine

def text : ImportLine → String
  | single statement => statement.text
  | mixed name names source =>
      "import " ++ name ++ ", \x7b " ++ String.intercalate ", " names ++ " \x7d from " ++
        Script.quote source ++ ";"

def boundNames : ImportLine → List String
  | single statement => statement.boundNames
  | mixed name names _ => name :: names.map Import.localName

end ImportLine

namespace Import

/-- The import without the names that are bound already; none when nothing is left. -/
def unbound? (bound : List String) : Import → Option Import
  | named names source =>
      match names.filter fun entry => !bound.contains (localName entry) with
      | [] => none
      | entry :: entries => some (named (entry :: entries) source)
  | other => if other.boundNames.any bound.contains then none else some other

/-- The entries of a named import from one module. -/
def namesFrom (source : String) : Import → List String
  | named names from_ => if from_ = source then names else []
  | _ => []

def isNamedFrom (source : String) : Import → Bool
  | named _ from_ => from_ == source
  | _ => false

end Import

/-- The list with a name added unless it is there. -/
def addName (names : List String) (name : String) : List String :=
  if names.contains name then names else names ++ [name]

namespace Document

/-- What marks a use of the linking module. -/
def linkingMark : List Char := "Linking.".toList

def valueMentionsLinking : PropValue → Bool
  | .string text => occursIn linkingMark text.toList
  | .expression code => occursIn linkingMark code.toList
  | _ => false

def mentionsLinking (document : Document) : Bool :=
  document.functions.any (fun function => occursIn linkingMark function.body.toList) ||
    (Node.textsOf document.nodes).any (fun run => occursIn linkingMark run.toList) ||
    (Node.elementsOf document.nodes).any fun element =>
      element.props.entries.any fun entry => valueMentionsLinking entry.2

/-- Whether some button has a text right inside. -/
def wrapsButtonText (catalog : Catalog) (document : Document) : Bool :=
  (Node.elementsOf document.nodes).any fun element =>
    catalog.isButton element.tag && element.children.any Node.isText

def required (catalog : Catalog) (document : Document) : RequiredImports :=
  catalog.requiredImports (Node.tagsOf document.nodes)

/-- The names imported from the framework. -/
def frameworkNames (document : Document) : List String :=
  (document.imports.flatMap (Import.namesFrom "react")).foldl addName ["useState"]

/-- The core components of the tags; wrapped texts need one of their own. -/
def coreComponents (catalog : Catalog) (document : Document) : List String :=
  let core := (document.required catalog).core
  if document.wrapsButtonText catalog then insertName "Text" core else core

/-- The names imported from the component library. -/
def libraryNames (catalog : Catalog) (document : Document) : List String :=
  (document.imports.flatMap (Import.namesFrom "react-native")).foldl addName
    (document.coreComponents catalog ++ ["StyleSheet"] ++
      if document.mentionsLinking then ["Linking"] else [])

/-- The names that the first lines bind. -/
def baseline (catalog : Catalog) (document : Document) : List String :=
  ["React", "useNavigation"] ++ document.frameworkNames ++ document.libraryNames catalog

/-- The author's imports, apart from those merged into the first lines. -/
def ownImports (catalog : Catalog) (document : Document) : List Import :=
  (document.imports.filter fun statement =>
      !statement.isNamedFrom "react" && !statement.isNamedFrom "react-native").filterMap
    (Import.unbound? (document.baseline catalog))

/-- The lines for one package, without the names that the author imports. -/
def packageLines (bound : List String) (entry : PackageImport) : List ImportLine :=
  match entry.kind, entry.names.filter fun name => !bound.contains name with
  | _, [] => []
  | .named, names => [.single (.named names entry.package)]
  | .default, names => names.map fun name => .single (.default name entry.package)

/-- The import lines of the component of a document. -/
def importLines (catalog : Catalog) (document : Document) : List ImportLine :=
  [.mixed "React" document.frameworkNames "react",
    .single (.named (document.libraryNames catalog) "react-native"),
    .single (.named ["useNavigation"] "@react-navigation/native")] ++
  (document.required catalog).packages.flatMap
    (packageLines (document.imports.flatMap Import.boundNames)) ++
  (document.ownImports catalog).map .single

end Document

end ScreenCompiler
