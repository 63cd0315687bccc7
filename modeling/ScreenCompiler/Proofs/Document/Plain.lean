import ScreenCompiler.Document.Basic
import ScreenCompiler.Proofs.Document.Descent

/-!
# Documents without a stylesheet

Without a stylesheet a document is what its items make of it.  Where no item is a
declaration, that is a tree and its faults.
-/

namespace ScreenCompiler

/-- Whether an item is part of the tree or a fault, and declares nothing. -/
def Item.isPlain : Item → Bool
  | .declaration _ => false
  | .word _ => false
  | _ => true

namespace Forest

theorem Descent.declarations_of_plain {enclosing : List String} {items final : List Item}
    {forest : Forest} (descent : Descent enclosing items forest final)
    (plain : ∀ item ∈ items, item.isPlain = true) :
    forest.declarations = [] ∧ ∀ item ∈ final, item.isPlain = true := by
  induction descent with
  | done => exact ⟨rfl, plain⟩
  | leave _ => exact ⟨rfl, plain⟩
  | unmatched _ _ inductionHypothesis =>
      obtain ⟨empty, remains⟩ := inductionHypothesis (List.forall_mem_cons.mp plain).2
      exact ⟨empty, remains⟩
  | @enter _ tag _ _ _ _ remaining _ _ _ _ inner outer =>
      obtain ⟨inside, behind⟩ := inner (List.forall_mem_cons.mp plain).2
      have rest : ∀ item ∈ (afterClosing tag remaining).2, item.isPlain = true :=
        fun item membership => behind item ((afterClosing_suffix tag remaining).subset membership)
      obtain ⟨outside, remains⟩ := outer rest
      exact ⟨by simp [wrap, inside, outside], remains⟩
  | @alone _ item _ forest _ _ found _ inductionHypothesis =>
      obtain ⟨isPlain, plain⟩ := List.forall_mem_cons.mp plain
      obtain ⟨empty, remains⟩ := inductionHypothesis plain
      have nothing : forest.declarations = [] := by
        cases item with
        | declaration _ => exact absurd isPlain Bool.false_ne_true
        | word _ => exact absurd isPlain Bool.false_ne_true
        | opening _ _ _ => simp [alone?] at found
        | closing _ _ => simp [alone?] at found
        | _ =>
            rw [← Option.some.inj found]
            rfl
      exact ⟨by simp [nothing, empty], remains⟩

theorem declarations_ofItems_of_plain {items : List Item}
    (plain : ∀ item ∈ items, item.isPlain = true) : (ofItems items).declarations = [] :=
  ((descent_ofItems items).declarations_of_plain plain).1

end Forest

namespace Document

/-- Declarations change nothing in the tree and its faults. -/
theorem foldl_declare_markup (declarations : List Declaration) (document : Document) :
    (declarations.foldl declare document).nodes = document.nodes ∧
      (declarations.foldl declare document).stylesheet = document.stylesheet ∧
        (declarations.foldl declare document).diagnostics = document.diagnostics := by
  induction declarations generalizing document with
  | nil => exact ⟨rfl, rfl, rfl⟩
  | cons declaration declarations inductionHypothesis =>
      rw [List.foldl_cons]
      have kept := inductionHypothesis (document.declare declaration)
      cases declaration <;> exact kept

theorem nodes_ofForest (forest : Forest) : (ofForest forest).nodes = forest.nodes :=
  (foldl_declare_markup forest.declarations _).1

theorem stylesheet_ofForest (forest : Forest) : (ofForest forest).stylesheet = none :=
  (foldl_declare_markup forest.declarations _).2.1

theorem diagnostics_ofForest (forest : Forest) :
    (ofForest forest).diagnostics = forest.diagnostics :=
  (foldl_declare_markup forest.declarations _).2.2

theorem parse_of_find?_eq_none (catalog : Catalog) {source : List Char}
    (plain : Stylesheet.find? source = none) :
    parse catalog source = ofForest (Forest.ofItems (Item.ofSource catalog source)) := by
  have none := stylesheet_ofForest (Forest.ofItems (Item.ofSource catalog source))
  simp only [parse, Stylesheet.cut, plain, stylesheetFaults, Option.map_none, Option.toList_none,
    List.nil_append]
  rw [← none]

/-- Whether a document has markup only. -/
structure IsUndeclared (document : Document) : Prop where
  screen : document.screen = none
  imports : document.imports = []
  states : document.states = []
  functions : document.functions = []

theorem ofForest_of_undeclared {forest : Forest} (undeclared : forest.declarations = []) :
    ofForest forest = ofNodes forest.nodes forest.diagnostics := by
  rw [ofForest, undeclared]
  rfl

end Document

end ScreenCompiler
