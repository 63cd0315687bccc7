import ScreenCompiler.Text.Affix
import ScreenCompiler.Text.Case

/-!
# Component catalog

The catalog says which component a tag stands for, where that component is
imported from, which props it knows, and which words of a state name hint at the
type of the state.  Earlier entries of a list win over later ones.
-/

namespace ScreenCompiler

open Text

/-- How a module exports a component. -/
inductive ImportKind where
  | default
  | named
  deriving DecidableEq, Repr

/-- A component that needs an import line of its own. -/
structure PackageComponent where
  package : String
  imported : String
  kind : ImportKind
  deriving DecidableEq, Repr

structure Catalog where
  /-- Tags and the components they stand for. -/
  components : List (String × String)
  coreComponents : List String
  packageComponents : List (String × PackageComponent)
  /-- Components and the props they know; the entry of `*` holds for all components. -/
  componentProps : List (String × List String)
  styleProps : List String
  buttonTags : List String
  textTags : List String
  toggleTags : List String
  textInputTags : List String
  imageTags : List String
  keyboardTypes : List String
  capitalizations : List String
  /-- Parts of names that read like a flag. -/
  booleanHints : List String
  /-- Parts of names that read like a number, in letters of any case. -/
  numericHints : List String

namespace Catalog

/-- The component of a tag; a tag without an entry stands for itself. -/
def target (catalog : Catalog) (tag : String) : String :=
  (catalog.components.lookup tag).getD tag

/-- Whether the catalog has no entry of any kind for a tag. -/
def isCustom (catalog : Catalog) (tag : String) : Bool :=
  (catalog.components.lookup tag).isNone && (catalog.packageComponents.lookup tag).isNone

/-- The props listed for a component itself. -/
def propsOf (catalog : Catalog) (target : String) : List String :=
  (catalog.componentProps.lookup target).getD []

def describes (catalog : Catalog) (target : String) : Bool :=
  (catalog.componentProps.lookup target).isSome

def knowsProp (catalog : Catalog) (target prop : String) : Bool :=
  (catalog.propsOf target).contains prop || (catalog.propsOf "*").contains prop

def isStyleProp (catalog : Catalog) (prop : String) : Bool :=
  catalog.styleProps.contains prop

def isButton (catalog : Catalog) (tag : String) : Bool :=
  catalog.buttonTags.contains tag

def isText (catalog : Catalog) (tag : String) : Bool :=
  catalog.textTags.contains tag

def isToggle (catalog : Catalog) (tag : String) : Bool :=
  catalog.toggleTags.contains tag

def isTextInput (catalog : Catalog) (tag : String) : Bool :=
  catalog.textInputTags.contains tag

def isImage (catalog : Catalog) (tag : String) : Bool :=
  catalog.imageTags.contains tag

/-- A keyboard type of the catalog; any other value becomes the default keyboard. -/
def keyboardType (catalog : Catalog) (value : String) : String :=
  if catalog.keyboardTypes.contains value then value else "default"

/-- A capitalization of the catalog; any other value becomes that of sentences. -/
def capitalization (catalog : Catalog) (value : String) : String :=
  if catalog.capitalizations.contains value then value else "sentences"

/-- A hint that starts with a small letter must begin the name, right before a capital; any
other hint may occur anywhere. -/
def matchesFlag (name hint : List Char) : Bool :=
  match hint with
  | [] => true
  | first :: _ =>
      if isLowercase first then
        match afterPrefix? hint name with
        | some (next :: _) => isUppercase next
        | _ => false
      else occursIn hint name

/-- Whether a state name reads like a flag. -/
def looksBoolean (catalog : Catalog) (name : String) : Bool :=
  catalog.booleanHints.any fun hint => matchesFlag name.toList hint.toList

/-- Whether a state name reads like a number. -/
def looksNumeric (catalog : Catalog) (name : String) : Bool :=
  catalog.numericHints.any fun hint => occursIn (lowercase hint.toList) (lowercase name.toList)

end Catalog

end ScreenCompiler
