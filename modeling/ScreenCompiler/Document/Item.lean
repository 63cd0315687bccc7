import ScreenCompiler.Document.Block
import ScreenCompiler.Document.Diagnostic

/-!
# Items of a source

The blocks of a source stand for a sequence of items: declarations, the tags and
texts of its markup, and diagnostics where something is wrong.  Which tags belong
together is not decided here.
-/

namespace ScreenCompiler

open Text

inductive Declaration where
  | imports (imports : List Import)
  | screen (screen : Screen)
  | state (state : State)
  | function (function : Function)

inductive Item where
  | fault (diagnostic : Diagnostic)
  | declaration (declaration : Declaration)
  /-- A module name alone on its line: an import outside elements, and text inside. -/
  | word (name : List Char)
  | text (text : String)
  /-- An element without children. -/
  | leaf (tag : String) (props : Props) (line : Nat)
  | opening (tag : String) (props : Props) (line : Nat)
  | closing (tag : String) (line : Nat)

namespace Item

/-- The items of a complete head: what is wrong with its values, and its tag. -/
def ofHead (catalog : Catalog) (number : Nat) (head : Head) : List Item :=
  let scanned := ScannedProps.read catalog head.attributes
  let tag := String.ofList head.tag
  scanned.unterminated.map (fun name => fault (.unterminatedValue name number)) ++
    [if head.selfClosing then leaf tag scanned.props number
      else opening tag scanned.props number]

def ofPiece (catalog : Catalog) (number : Nat) : Piece → List Item
  | .text run => [text (String.ofList run)]
  | .closing inside => [closing (String.ofList (trim inside)) number]
  | .head inside => ofHead catalog number (Head.ofInside inside)

/-- The item of a closing tag whose end is hidden in quotes or braces.  It closes what it names if
its line ends like a tag, and is text otherwise. -/
def ofOpenClosing (number : Nat) (tag : List Char) : Item :=
  match (afterPrefix? ['<', '/'] tag).bind (beforeSuffix? ['>']) with
  | some inside => closing (String.ofList (trim inside)) number
  | none => text (String.ofList tag)

/-- The items of a tag whose text ends without an end of tag. -/
def ofUnfinished (catalog : Catalog) (number : Nat) (text : List Char) : List Item :=
  match Head.recover? text with
  | some head => ofHead catalog number head
  | none =>
      let head := Head.abandoned text
      fault (.unterminatedTag (String.ofList head.tag) number) :: ofHead catalog number head

/-- The items of a function declaration; one whose body is never closed is at fault. -/
def ofFunction (number : Nat) (function : Function) (closed : Bool) : List Item :=
  (if closed then [] else [fault (.unterminatedFunction function.name number)]) ++
    [declaration (.function function)]

end Item

/-- The items that a block stands for. -/
def Block.items (catalog : Catalog) : Block → List Item
  | imports statement => [.declaration (.imports statement)]
  | word name => [.word name]
  | screen attributes => [.declaration (.screen (Screen.ofAttributes catalog attributes))]
  | state name literal => [.declaration (.state (State.infer (String.ofList name) literal))]
  | function number found closed => Item.ofFunction number found closed
  | piece number found => Item.ofPiece catalog number found
  | openClosing number tag => [Item.ofOpenClosing number tag]
  | head number found => Item.ofHead catalog number found
  | unfinished number text => Item.ofUnfinished catalog number text

/-- The items of a source without its stylesheet. -/
def Item.ofSource (catalog : Catalog) (source : List Char) : List Item :=
  (Block.ofSource source).flatMap (Block.items catalog)

end ScreenCompiler
