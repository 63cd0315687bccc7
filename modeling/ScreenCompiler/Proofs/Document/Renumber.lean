import ScreenCompiler.Proofs.Document.Machine
import ScreenCompiler.Document.Basic

/-!
# Line numbers

Line numbers are carried along by every stage and decided by none.  Renumbering the
blocks of a source renumbers its items, its tree and its diagnostics, and changes
nothing else.
-/

namespace ScreenCompiler

namespace Node

mutual

/-- The tree with other line numbers. -/
def renumber (change : Nat → Nat) : Node → Node
  | text run => text run
  | element tag props children line =>
      element tag props (renumberAll change children) (change line)

def renumberAll (change : Nat → Nat) : List Node → List Node
  | [] => []
  | node :: nodes => renumber change node :: renumberAll change nodes

end

theorem renumberAll_eq_map (change : Nat → Nat) (nodes : List Node) :
    renumberAll change nodes = nodes.map (renumber change) := by
  induction nodes with
  | nil => rw [renumberAll, List.map_nil]
  | cons node nodes inductionHypothesis =>
      rw [renumberAll, List.map_cons, inductionHypothesis]

end Node

def Diagnostic.renumber (change : Nat → Nat) : Diagnostic → Diagnostic
  | unterminatedTag tag line => unterminatedTag tag (change line)
  | unterminatedFunction name line => unterminatedFunction name (change line)
  | unterminatedStylesheet line => unterminatedStylesheet (change line)
  | unterminatedValue name line => unterminatedValue name (change line)
  | unmatchedClosingTag tag line => unmatchedClosingTag tag (change line)

def Block.renumber (change : Nat → Nat) : Block → Block
  | imports statement => imports statement
  | word name => word name
  | screen attributes => screen attributes
  | state name literal => state name literal
  | function number found closed => function (change number) found closed
  | piece number found => piece (change number) found
  | openClosing number tag => openClosing (change number) tag
  | head number found => head (change number) found
  | unfinished number text => unfinished (change number) text

namespace Item

def renumber (change : Nat → Nat) : Item → Item
  | fault diagnostic => fault (diagnostic.renumber change)
  | declaration found => declaration found
  | word name => word name
  | text run => text run
  | leaf tag props line => leaf tag props (change line)
  | opening tag props line => opening tag props (change line)
  | closing tag line => closing tag (change line)

theorem ofHead_renumber (catalog : Catalog) (change : Nat → Nat) (number : Nat) (head : Head) :
    ofHead catalog (change number) head = (ofHead catalog number head).map (renumber change) := by
  unfold ofHead
  cases head.selfClosing <;>
    simp [renumber, Diagnostic.renumber, Function.comp_def]

end Item

theorem Block.items_renumber (catalog : Catalog) (change : Nat → Nat) (block : Block) :
    (block.renumber change).items catalog =
      (block.items catalog).map (Item.renumber change) := by
  cases block with
  | imports statement => rfl
  | word name => rfl
  | screen attributes => rfl
  | state name literal => rfl
  | function number found closed => cases closed <;> rfl
  | piece number found =>
      cases found with
      | text run => rfl
      | closing inside => rfl
      | head inside => exact Item.ofHead_renumber ..
  | openClosing number tag =>
      simp only [renumber, items, Item.ofOpenClosing]
      split <;> rfl
  | head number found => exact Item.ofHead_renumber ..
  | unfinished number text =>
      simp only [renumber, items, Item.ofUnfinished]
      split
      · exact Item.ofHead_renumber ..
      · rw [Item.ofHead_renumber]
        rfl

theorem Block.flatMap_items_renumber (catalog : Catalog) (change : Nat → Nat)
    (blocks : List Block) :
    (blocks.map (renumber change)).flatMap (items catalog) =
      (blocks.flatMap (items catalog)).map (Item.renumber change) := by
  rw [List.flatMap_map, List.map_flatMap]
  exact congrArg (blocks.flatMap ·) (funext (items_renumber catalog change))

namespace Forest

def renumber (change : Nat → Nat) (forest : Forest) : Forest where
  nodes := forest.nodes.map (Node.renumber change)
  declarations := forest.declarations
  diagnostics := forest.diagnostics.map (Diagnostic.renumber change)

theorem renumber_append (change : Nat → Nat) (first second : Forest) :
    (first ++ second).renumber change = first.renumber change ++ second.renumber change := by
  ext1 <;> simp [renumber]

theorem renumber_wrap (change : Nat → Nat) (tag : String) (props : Props) (line : Nat)
    (closed : Bool) (children : Forest) :
    (wrap tag props line closed children).renumber change =
      wrap tag props (change line) closed (children.renumber change) := by
  cases closed <;>
    simp [wrap, renumber, Node.renumber, Node.renumberAll_eq_map, Diagnostic.renumber]

theorem afterClosing_renumber (change : Nat → Nat) (tag : String) (items : List Item) :
    afterClosing tag (items.map (Item.renumber change)) =
      ((afterClosing tag items).1, (afterClosing tag items).2.map (Item.renumber change)) := by
  cases items with
  | nil => rfl
  | cons item rest =>
      cases item with
      | closing name line =>
          simp only [List.map_cons, Item.renumber, afterClosing]
          split <;> rfl
      | _ => rfl

theorem alone?_renumber (change : Nat → Nat) (inside : Bool) (item : Item) :
    alone? inside (item.renumber change) = (alone? inside item).map (renumber change) := by
  cases item with
  | word name => cases inside <;> simp [Item.renumber, alone?, ofWord, renumber, ofNode,
      ofDeclaration, Node.renumber]
  | _ => simp [Item.renumber, alone?, renumber, ofNode, ofDeclaration, ofDiagnostic,
      Node.renumber, Node.renumberAll]

theorem Descent.renumber (change : Nat → Nat) {enclosing : List String}
    {items final : List Item} {forest : Forest} (descent : Descent enclosing items forest final) :
    Descent enclosing (items.map (Item.renumber change)) (forest.renumber change)
      (final.map (Item.renumber change)) := by
  induction descent with
  | done => exact .done
  | leave matched => exact .leave matched
  | unmatched unmatched _ inductionHypothesis =>
      rw [renumber_append]
      exact .unmatched unmatched inductionHypothesis
  | @enter enclosing tag props line rest children remaining after final _ _ inner outer =>
      rw [renumber_append, renumber_wrap]
      have behind := afterClosing_renumber change tag remaining
      have closed := congrArg Prod.fst behind
      have left := congrArg Prod.snd behind
      simp only at closed left
      rw [← left] at outer
      rw [← closed]
      exact .enter inner outer
  | alone found _ inductionHypothesis =>
      rw [renumber_append]
      refine .alone ?_ inductionHypothesis
      rw [alone?_renumber, found, Option.map_some]

theorem ofItems_renumber (change : Nat → Nat) (items : List Item) :
    ofItems (items.map (Item.renumber change)) = (ofItems items).renumber change :=
  ((descent_ofItems items).renumber change).eq_ofItems

end Forest

namespace Document

/-- The document with other line numbers. -/
def renumber (change : Nat → Nat) (document : Document) : Document :=
  { document with
    nodes := document.nodes.map (Node.renumber change)
    diagnostics := document.diagnostics.map (Diagnostic.renumber change) }

theorem renumber_foldl_declare (change : Nat → Nat) (declarations : List Declaration)
    (document : Document) :
    declarations.foldl declare (document.renumber change) =
      (declarations.foldl declare document).renumber change := by
  induction declarations generalizing document with
  | nil => rfl
  | cons declaration declarations inductionHypothesis =>
      rw [List.foldl_cons, List.foldl_cons, ← inductionHypothesis]
      cases declaration <;> rfl

theorem ofForest_renumber (change : Nat → Nat) (forest : Forest) :
    ofForest (forest.renumber change) = (ofForest forest).renumber change := by
  rw [ofForest, ofForest, ← renumber_foldl_declare]
  rfl

end Document

end ScreenCompiler
