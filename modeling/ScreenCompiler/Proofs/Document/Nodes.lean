import ScreenCompiler.Proofs.Document.Descent

/-!
# Where nodes come from

Recursive descent makes nothing up: every node, declaration and diagnostic of a forest
stems from one of its items, and declarations keep their order.
-/

namespace ScreenCompiler

theorem Node.textsOf_append (first second : List Node) :
    textsOf (first ++ second) = textsOf first ++ textsOf second := by
  induction first with
  | nil => rfl
  | cons node nodes inductionHypothesis =>
      rw [List.cons_append, textsOf, textsOf, inductionHypothesis, List.append_assoc]

namespace Forest

/-- What an item declares when no element is open around it. -/
def declaration? : Item → Option Declaration
  | .declaration declaration => some declaration
  | .word name => some (.imports [Import.ofModuleName name])
  | _ => none

/-- The item behind each part of a forest. -/
structure StemsFrom (items : List Item) (forest : Forest) : Prop where
  elements : ∀ element ∈ Node.elementsOf forest.nodes,
    .leaf element.tag element.props element.line ∈ items ∨
      .opening element.tag element.props element.line ∈ items
  texts : ∀ text ∈ Node.textsOf forest.nodes,
    .text text ∈ items ∨ ∃ name, .word name ∈ items ∧ text = String.ofList name
  declarations : ∀ declaration ∈ forest.declarations,
    ∃ item ∈ items, declaration? item = some declaration
  diagnostics : ∀ diagnostic ∈ forest.diagnostics,
    .fault diagnostic ∈ items ∨
      (∃ tag line, .closing tag line ∈ items ∧ diagnostic = .unmatchedClosingTag tag line) ∨
        ∃ tag props line, .opening tag props line ∈ items ∧ diagnostic = .unterminatedTag tag line

namespace StemsFrom

theorem empty (items : List Item) : StemsFrom items empty where
  elements := by simp [Forest.empty, Node.elementsOf]
  texts := by simp [Forest.empty, Node.textsOf]
  declarations := by simp [Forest.empty]
  diagnostics := by simp [Forest.empty]

theorem append {items : List Item} {first second : Forest} (stems : StemsFrom items first)
    (later : StemsFrom items second) : StemsFrom items (first ++ second) where
  elements := by
    rw [nodes_append, Node.elementsOf_append, List.forall_mem_append]
    exact ⟨stems.elements, later.elements⟩
  texts := by
    rw [nodes_append, Node.textsOf_append, List.forall_mem_append]
    exact ⟨stems.texts, later.texts⟩
  declarations := List.forall_mem_append.mpr ⟨stems.declarations, later.declarations⟩
  diagnostics := List.forall_mem_append.mpr ⟨stems.diagnostics, later.diagnostics⟩

theorem widen {items more : List Item} {forest : Forest} (stems : StemsFrom items forest)
    (within : items ⊆ more) : StemsFrom more forest where
  elements element membership := (stems.elements element membership).imp (@within _) (@within _)
  texts text membership := (stems.texts text membership).imp (@within _)
    fun ⟨name, inside, same⟩ => ⟨name, within inside, same⟩
  declarations declaration membership :=
    have ⟨item, inside, declares⟩ := stems.declarations declaration membership
    ⟨item, within inside, declares⟩
  diagnostics diagnostic membership := (stems.diagnostics diagnostic membership).imp (@within _) <|
    Or.imp (fun ⟨tag, line, inside, same⟩ => ⟨tag, line, within inside, same⟩)
      fun ⟨tag, props, line, inside, same⟩ => ⟨tag, props, line, within inside, same⟩

theorem wrap {items : List Item} {children : Forest} (stems : StemsFrom items children)
    {tag : String} {props : Props} {line : Nat} (opened : .opening tag props line ∈ items)
    (closed : Bool) : StemsFrom items (wrap tag props line closed children) where
  elements := by
    intro element membership
    simp only [Forest.wrap, Node.elementsOf, Node.elements, List.append_nil] at membership
    rcases List.mem_cons.mp membership with rfl | child
    · exact .inr opened
    · exact stems.elements element child
  texts := by
    simp only [Forest.wrap, Node.textsOf, Node.texts, List.append_nil]
    exact stems.texts
  declarations := stems.declarations
  diagnostics := by
    refine List.forall_mem_append.mpr ⟨stems.diagnostics, ?_⟩
    intro diagnostic membership
    split at membership
    · exact absurd membership List.not_mem_nil
    · exact .inr (.inr ⟨tag, props, line, opened, List.mem_singleton.mp membership⟩)

/-- The forest of an item that is no opening or closing tag. -/
theorem of_alone? {inside : Bool} {item : Item} {items : List Item} {forest : Forest}
    (membership : item ∈ items) (found : alone? inside item = some forest) :
    StemsFrom items forest := by
  have declared : ∀ declaration, declaration? item = some declaration →
      StemsFrom items (ofDeclaration declaration) := fun declaration declares =>
    { elements := by simp [ofDeclaration, Node.elementsOf]
      texts := by simp [ofDeclaration, Node.textsOf]
      declarations := by simpa [ofDeclaration] using ⟨item, membership, declares⟩
      diagnostics := by simp [ofDeclaration] }
  have shown : ∀ text, (.text text ∈ items ∨ ∃ name, .word name ∈ items ∧
      text = String.ofList name) → StemsFrom items (ofNode (.text text)) := fun text read =>
    { elements := by simp [ofNode, Node.elementsOf, Node.elements]
      texts := by simpa [ofNode, Node.textsOf, Node.texts] using read
      declarations := by simp [ofNode]
      diagnostics := by simp [ofNode] }
  cases item with
  | opening _ _ _ => simp [alone?] at found
  | closing _ _ => simp [alone?] at found
  | declaration declaration =>
      obtain rfl := Option.some.inj found
      exact declared declaration rfl
  | text run =>
      obtain rfl := Option.some.inj found
      exact shown run (.inl membership)
  | word name =>
      obtain rfl := Option.some.inj found
      cases inside with
      | true => exact shown _ (.inr ⟨name, membership, rfl⟩)
      | false => exact declared _ rfl
  | fault diagnostic =>
      obtain rfl := Option.some.inj found
      exact {
        elements := by simp [ofDiagnostic, Node.elementsOf]
        texts := by simp [ofDiagnostic, Node.textsOf]
        declarations := by simp [ofDiagnostic]
        diagnostics := by
          intro reported inFault
          obtain rfl := List.mem_singleton.mp inFault
          exact .inl membership }
  | leaf tag props line =>
      obtain rfl := Option.some.inj found
      exact {
        elements := by
          intro element inLeaf
          obtain rfl : element = ⟨tag, props, [], line⟩ := by
            simpa [ofNode, Node.elementsOf, Node.elements] using inLeaf
          exact .inl membership
        texts := by simp [ofNode, Node.textsOf, Node.texts]
        declarations := by simp [ofNode]
        diagnostics := by simp [ofNode] }

end StemsFrom

theorem Descent.final_suffix {enclosing : List String} {items final : List Item}
    {forest : Forest} (descent : Descent enclosing items forest final) : final <:+ items := by
  induction descent with
  | done => exact List.suffix_rfl
  | leave _ => exact List.suffix_rfl
  | unmatched _ _ inductionHypothesis => exact inductionHypothesis.trans (List.suffix_cons _ _)
  | enter _ _ inner outer =>
      exact ((outer.trans (afterClosing_suffix _ _)).trans inner).trans (List.suffix_cons _ _)
  | alone _ _ inductionHypothesis => exact inductionHypothesis.trans (List.suffix_cons _ _)

theorem Descent.stemsFrom {enclosing : List String} {items final : List Item} {forest : Forest}
    (descent : Descent enclosing items forest final) : StemsFrom items forest := by
  induction descent with
  | done => exact .empty _
  | leave _ => exact .empty _
  | @unmatched _ tag line rest _ _ _ _ inductionHypothesis =>
      have fault : StemsFrom (.closing tag line :: rest)
          (ofDiagnostic (.unmatchedClosingTag tag line)) :=
        { elements := by simp [ofDiagnostic, Node.elementsOf]
          texts := by simp [ofDiagnostic, Node.textsOf]
          declarations := by simp [ofDiagnostic]
          diagnostics := by simp [ofDiagnostic] }
      exact fault.append (inductionHypothesis.widen (List.subset_cons_self _ _))
  | @enter _ tag _ _ _ _ remaining _ _ children _ inner outer =>
      have behind := (afterClosing_suffix tag remaining).trans children.final_suffix
      exact ((inner.widen (List.subset_cons_self _ _)).wrap List.mem_cons_self _).append
        (outer.widen (List.subset_cons_of_subset _ behind.subset))
  | alone found _ inductionHypothesis =>
      exact (StemsFrom.of_alone? List.mem_cons_self found).append
        (inductionHypothesis.widen (List.subset_cons_self _ _))

theorem stemsFrom_ofItems (items : List Item) : StemsFrom items (ofItems items) :=
  (descent_ofItems items).stemsFrom

section Order

variable {Out : Type} {pick : Declaration → Option Out}

/-- What is picked of the declaration of an item. -/
def picked (pick : Declaration → Option Out) (item : Item) : Option Out :=
  (declaration? item).bind pick

theorem filterMap_picked_afterClosing (tag : String) (items : List Item) :
    (afterClosing tag items).2.filterMap (picked pick) = items.filterMap (picked pick) := by
  unfold afterClosing
  split
  · split <;> rfl
  · rfl

variable (noImport : ∀ imports, pick (.imports imports) = none)

include noImport

theorem filterMap_of_alone? {inside : Bool} {item : Item} {forest : Forest}
    (found : alone? inside item = some forest) :
    forest.declarations.filterMap pick = [item].filterMap (picked pick) := by
  cases item with
  | opening _ _ _ => simp [alone?] at found
  | closing _ _ => simp [alone?] at found
  | word name =>
      obtain rfl := Option.some.inj found
      have nothing : picked pick (.word name) = none := noImport _
      cases inside <;> simp [ofWord, ofNode, ofDeclaration, nothing, noImport]
  | _ =>
      obtain rfl := Option.some.inj found
      rfl

/-- Declarations are gathered in order.  Only module names may be read as text instead. -/
theorem Descent.filterMap_declarations {enclosing : List String} {items final : List Item}
    {forest : Forest} (descent : Descent enclosing items forest final) :
    items.filterMap (picked pick) =
      forest.declarations.filterMap pick ++ final.filterMap (picked pick) := by
  induction descent with
  | done => rfl
  | leave _ => rfl
  | unmatched _ _ inductionHypothesis => exact inductionHypothesis
  | enter _ _ inner outer =>
      rw [filterMap_picked_afterClosing] at outer
      rw [declarations_append, List.filterMap_append, List.append_assoc, ← outer]
      exact inner
  | @alone _ item rest _ _ _ found _ inductionHypothesis =>
      rw [← List.singleton_append, List.filterMap_append, inductionHypothesis,
        declarations_append, List.filterMap_append, filterMap_of_alone? noImport found,
        List.append_assoc]

theorem filterMap_declarations_ofItems (items : List Item) :
    (ofItems items).declarations.filterMap pick = items.filterMap (picked pick) := by
  simpa using ((descent_ofItems items).filterMap_declarations noImport).symm

end Order

end Forest

end ScreenCompiler
