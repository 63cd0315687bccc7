import ScreenCompiler.Catalog.Imports
import ScreenCompiler.Document.Basic

/-!
# Checks against the catalog

Props and tags that the catalog does not know.  They are reported and still
generated as written.
-/

namespace ScreenCompiler

structure UnknownProp where
  tag : String
  prop : String
  line : Nat
  deriving DecidableEq, Repr

namespace Element

/-- The props of an element that its component does not know.  Custom components and components
the catalog does not describe take any prop, and style shorthands are good everywhere. -/
def unknownProps (catalog : Catalog) (element : Element) : List UnknownProp :=
  let target := catalog.target element.tag
  if catalog.isCustom element.tag || !catalog.describes target then []
  else
    (element.props.names.filter fun prop =>
      !catalog.knowsProp target prop && !catalog.isStyleProp prop).map fun prop =>
        ⟨element.tag, prop, element.line⟩

end Element

namespace Document

def unknownProps (catalog : Catalog) (document : Document) : List UnknownProp :=
  (Node.elementsOf document.nodes).flatMap (Element.unknownProps catalog)

/-- Tags without a known component; they get no generated import. -/
def customComponents (catalog : Catalog) (document : Document) : List String :=
  (catalog.requiredImports (Node.tagsOf document.nodes)).custom

end Document

end ScreenCompiler
