import ScreenCompiler.Document.Forest

/-!
# Recursive descent as a relation

`Descent` says which forest stands inside the open elements and what is left behind
it.  Every item but a tag stands for a forest of its own, so the rules are those of
tags and one rule for the rest.  `Forest.read` computes exactly this relation.
-/

namespace ScreenCompiler

namespace Forest

@[simp]
theorem nodes_append (first second : Forest) :
    (first ++ second).nodes = first.nodes ++ second.nodes := rfl

@[simp]
theorem declarations_append (first second : Forest) :
    (first ++ second).declarations = first.declarations ++ second.declarations := rfl

@[simp]
theorem diagnostics_append (first second : Forest) :
    (first ++ second).diagnostics = first.diagnostics ++ second.diagnostics := rfl

@[ext]
theorem ext {first second : Forest} (nodes : first.nodes = second.nodes)
    (declarations : first.declarations = second.declarations)
    (diagnostics : first.diagnostics = second.diagnostics) : first = second := by
  cases first
  cases second
  simp_all

@[simp]
theorem append_empty (forest : Forest) : forest ++ empty = forest := by
  ext1 <;> simp [empty]

theorem append_assoc (first second third : Forest) :
    first ++ second ++ third = first ++ (second ++ third) := by
  ext1 <;> simp

theorem afterClosing_suffix (tag : String) (items : List Item) :
    (afterClosing tag items).2 <:+ items := by
  unfold afterClosing
  split
  · split
    · exact List.suffix_cons ..
    · exact List.suffix_rfl
  · exact List.suffix_rfl

/-- The forest of an item that is no opening or closing tag. -/
def alone? (inside : Bool) : Item → Option Forest
  | .fault diagnostic => some (ofDiagnostic diagnostic)
  | .declaration declaration => some (ofDeclaration declaration)
  | .word name => some (ofWord inside name)
  | .text run => some (ofNode (.text run))
  | .leaf tag props line => some (ofNode (.element tag props [] line))
  | .opening .. => none
  | .closing .. => none

/-- What `read` finds inside the open elements, and the items it leaves. -/
inductive Descent : List String → List Item → Forest → List Item → Prop where
  | done {enclosing} : Descent enclosing [] empty []
  | leave {enclosing tag line rest} :
      tag ∈ enclosing →
      Descent enclosing (.closing tag line :: rest) empty (.closing tag line :: rest)
  | unmatched {enclosing tag line rest after final} :
      tag ∉ enclosing →
      Descent enclosing rest after final →
      Descent enclosing (.closing tag line :: rest)
        (ofDiagnostic (.unmatchedClosingTag tag line) ++ after) final
  | enter {enclosing tag props line rest children remaining after final} :
      Descent (tag :: enclosing) rest children remaining →
      Descent enclosing (afterClosing tag remaining).2 after final →
      Descent enclosing (.opening tag props line :: rest)
        (wrap tag props line (afterClosing tag remaining).1 children ++ after) final
  | alone {enclosing item rest forest after final} :
      alone? (!enclosing.isEmpty) item = some forest →
      Descent enclosing rest after final →
      Descent enclosing (item :: rest) (forest ++ after) final

/-- An element whose closing tag stands behind its children. -/
theorem Descent.element {enclosing : List String} {tag : String} {items rest final : List Item}
    {children after : Forest} {line : Nat}
    (inner : Descent (tag :: enclosing) (items ++ .closing tag line :: rest) children
      (.closing tag line :: rest))
    (outer : Descent enclosing rest after final) (props : Props) (number : Nat) :
    Descent enclosing (.opening tag props number :: (items ++ .closing tag line :: rest))
      (wrap tag props number true children ++ after) final := by
  have closed : afterClosing tag (.closing tag line :: rest) = (true, rest) := by
    simp [afterClosing]
  have element :
      Descent enclosing (afterClosing tag (.closing tag line :: rest)).2 after final := by
    rw [closed]
    exact outer
  have entered : Descent enclosing
      (.opening tag props number :: (items ++ .closing tag line :: rest))
      (wrap tag props number (afterClosing tag (.closing tag line :: rest)).1 children ++ after)
        final :=
    .enter inner element
  rw [closed] at entered
  exact entered

theorem Descent.faults {enclosing : List String} {items final : List Item} {forest : Forest}
    (descent : Descent enclosing items forest final) (diagnostics : List Diagnostic) :
    Descent enclosing (diagnostics.map .fault ++ items) (⟨[], [], diagnostics⟩ ++ forest)
      final := by
  induction diagnostics with
  | nil => exact descent
  | cons diagnostic diagnostics inductionHypothesis =>
      have first : Descent enclosing (.fault diagnostic :: (diagnostics.map .fault ++ items))
          (ofDiagnostic diagnostic ++ (⟨[], [], diagnostics⟩ ++ forest)) final :=
        .alone rfl inductionHypothesis
      exact first

theorem descent_read (enclosing : List String) (items : List Item) :
    Descent enclosing items (read enclosing items).1 (read enclosing items).2.1 := by
  fun_induction read enclosing items with
  | case1 enclosing => exact .done
  | case2 enclosing tag line rest matched => exact .leave matched
  | case3 enclosing tag line rest unmatched after remaining result inductionHypothesis =>
      rw [result] at inductionHypothesis
      exact .unmatched unmatched inductionHypothesis
  | case4 enclosing tag props line rest children remaining result bound after final resumed
      inner outer =>
      rw [result] at inner
      rw [resumed] at outer
      exact .enter inner outer
  | case5 enclosing tag props line rest after remaining result inductionHypothesis =>
      rw [result] at inductionHypothesis
      exact .alone rfl inductionHypothesis
  | case6 enclosing run rest after remaining result inductionHypothesis =>
      rw [result] at inductionHypothesis
      exact .alone rfl inductionHypothesis
  | case7 enclosing name rest after remaining result inductionHypothesis =>
      rw [result] at inductionHypothesis
      exact .alone rfl inductionHypothesis
  | case8 enclosing declaration rest after remaining result inductionHypothesis =>
      rw [result] at inductionHypothesis
      exact .alone rfl inductionHypothesis
  | case9 enclosing diagnostic rest after remaining result inductionHypothesis =>
      rw [result] at inductionHypothesis
      exact .alone rfl inductionHypothesis

/-- Reading stops at the end of the items or at a tag that closes an open element. -/
theorem Descent.stops {enclosing : List String} {items final : List Item} {forest : Forest}
    (descent : Descent enclosing items forest final) :
    final = [] ∨ ∃ tag line rest, final = .closing tag line :: rest ∧ tag ∈ enclosing := by
  induction descent with
  | done => exact .inl rfl
  | leave matched => exact .inr ⟨_, _, _, rfl, matched⟩
  | unmatched _ _ inductionHypothesis => exact inductionHypothesis
  | enter _ _ _ inductionHypothesis => exact inductionHypothesis
  | alone _ _ inductionHypothesis => exact inductionHypothesis

theorem descent_ofItems (items : List Item) : Descent [] items (ofItems items) [] := by
  have descent := descent_read [] items
  rcases descent.stops with stopped | ⟨tag, line, rest, -, matched⟩
  · rw [stopped] at descent
    exact descent
  · exact absurd matched List.not_mem_nil

theorem Descent.unique {enclosing : List String} {items final other : List Item}
    {forest result : Forest} (first : Descent enclosing items forest final)
    (second : Descent enclosing items result other) : forest = result ∧ final = other := by
  induction first generalizing result other with
  | done =>
      cases second with
      | done => exact ⟨rfl, rfl⟩
  | leave matched =>
      cases second with
      | leave _ => exact ⟨rfl, rfl⟩
      | unmatched unmatched _ => exact absurd matched unmatched
      | alone found _ => simp [alone?] at found
  | unmatched unmatched _ inductionHypothesis =>
      cases second with
      | leave matched => exact absurd matched unmatched
      | unmatched _ later =>
          obtain ⟨rfl, rfl⟩ := inductionHypothesis later
          exact ⟨rfl, rfl⟩
      | alone found _ => simp [alone?] at found
  | enter _ _ inner outer =>
      cases second with
      | enter children after =>
          obtain ⟨rfl, rfl⟩ := inner children
          obtain ⟨rfl, rfl⟩ := outer after
          exact ⟨rfl, rfl⟩
      | alone found _ => simp [alone?] at found
  | alone found _ inductionHypothesis =>
      cases second with
      | leave _ => simp [alone?] at found
      | unmatched _ _ => simp [alone?] at found
      | enter _ _ => simp [alone?] at found
      | alone same later =>
          rw [found, Option.some.injEq] at same
          obtain ⟨rfl, rfl⟩ := inductionHypothesis later
          exact ⟨by rw [same], rfl⟩

theorem Descent.eq_ofItems {items : List Item} {forest : Forest}
    (descent : Descent [] items forest []) : ofItems items = forest :=
  ((descent_ofItems items).unique descent).1

theorem ofItems_nil : ofItems [] = empty :=
  Descent.done.eq_ofItems

theorem ofItems_alone {item : Item} {forest : Forest} (found : alone? false item = some forest)
    (items : List Item) : ofItems (item :: items) = forest ++ ofItems items := by
  have outside : alone? (!List.isEmpty ([] : List String)) item = some forest := found
  exact (Descent.alone outside (descent_ofItems items)).eq_ofItems

/-- Items that are read to nodes and nothing else, wherever they stand. -/
def Yields (items : List Item) (nodes : List Node) : Prop :=
  ∀ ⦃enclosing : List String⦄ ⦃rest final : List Item⦄ ⦃after : Forest⦄,
    Descent enclosing rest after final →
      Descent enclosing (items ++ rest) (⟨nodes, [], []⟩ ++ after) final

namespace Yields

variable {items later : List Item} {nodes more : List Node}

theorem nil : Yields [] [] :=
  fun _ _ _ _ descent => descent

theorem append (first : Yields items nodes) (second : Yields later more) :
    Yields (items ++ later) (nodes ++ more) := by
  intro enclosing rest final after descent
  have whole := first (second descent)
  rw [← Forest.append_assoc, ← List.append_assoc] at whole
  exact whole

theorem text (run : String) : Yields [.text run] [.text run] :=
  fun _ _ _ _ descent => .alone rfl descent

theorem leaf (tag : String) (props : Props) (line : Nat) :
    Yields [.leaf tag props line] [.element tag props [] line] :=
  fun _ _ _ _ descent => .alone rfl descent

theorem element (inner : Yields items nodes) (tag : String) (props : Props) (line last : Nat) :
    Yields (.opening tag props line :: (items ++ [.closing tag last]))
      [.element tag props nodes line] := by
  intro enclosing rest final after descent
  have leaves : Descent (tag :: enclosing) (.closing tag last :: rest) empty _ :=
    .leave List.mem_cons_self
  have inside := inner leaves
  rw [append_empty] at inside
  have element := inside.element descent props line
  simpa [wrap] using element

theorem ofItems_eq (yields : Yields items nodes) : ofItems items = ⟨nodes, [], []⟩ := by
  have whole := yields (.done : Descent [] [] empty [])
  rw [List.append_nil, append_empty] at whole
  exact whole.eq_ofItems

end Yields

end Forest

end ScreenCompiler
