import ScreenCompiler.Catalog.Standard
import ScreenCompiler.Proofs.Document.Declared
import ScreenCompiler.Proofs.Document.Numbering

/-!
# Composition of sources

Nothing of a source that is complete reaches what follows it.  The document of two
sources joined by a line feed is put together from the two documents.
-/

namespace ScreenCompiler

open Text

namespace Forest

theorem fault_mem_afterClosing {tag : String} {items : List Item} {diagnostic : Diagnostic}
    (fault : .fault diagnostic ∈ items) : .fault diagnostic ∈ (afterClosing tag items).2 := by
  unfold afterClosing
  split
  · split
    · exact (List.mem_cons.mp fault).resolve_left (by simp)
    · exact fault
  · exact fault

/-- A fault among the items is reported, or left behind with the items that are left. -/
theorem Descent.fault_mem {enclosing : List String} {items final : List Item} {forest : Forest}
    (descent : Descent enclosing items forest final) {diagnostic : Diagnostic}
    (fault : .fault diagnostic ∈ items) :
    diagnostic ∈ forest.diagnostics ∨ .fault diagnostic ∈ final := by
  induction descent with
  | done => simp at fault
  | leave matched => exact .inr fault
  | unmatched _ _ inductionHypothesis =>
      rcases inductionHypothesis ((List.mem_cons.mp fault).resolve_left (by simp)) with
        reported | left
      · exact .inl (List.mem_append_right _ reported)
      · exact .inr left
  | enter _ _ inner outer =>
      rcases inner ((List.mem_cons.mp fault).resolve_left (by simp)) with reported | left
      · exact .inl (List.mem_append_left _ (List.mem_append_left _ reported))
      · rcases outer (fault_mem_afterClosing left) with reported | remains
        · exact .inl (List.mem_append_right _ reported)
        · exact .inr remains
  | alone found _ inductionHypothesis =>
      rcases List.mem_cons.mp fault with rfl | later
      · obtain rfl := Option.some.inj found
        exact .inl (List.mem_append_left _ List.mem_cons_self)
      · rcases inductionHypothesis later with reported | left
        · exact .inl (List.mem_append_right _ reported)
        · exact .inr left

theorem mem_diagnostics_ofItems {items : List Item} {diagnostic : Diagnostic}
    (fault : .fault diagnostic ∈ items) : diagnostic ∈ (ofItems items).diagnostics :=
  ((descent_ofItems items).fault_mem fault).resolve_right List.not_mem_nil

end Forest

namespace Document

/-- Two documents as one.  The later screen line counts, and the later value of a state. -/
def append (first second : Document) : Document where
  screen := second.screen.or first.screen
  imports := first.imports ++ second.imports
  states := State.putAll first.states second.states
  functions := first.functions ++ second.functions
  nodes := first.nodes ++ second.nodes
  stylesheet := first.stylesheet.or second.stylesheet
  diagnostics := first.diagnostics ++ second.diagnostics

theorem nodup_states_ofForest (forest : Forest) :
    ((ofForest forest).states.map State.name).Nodup := by
  rw [states_ofForest]
  exact State.nodup_names_putAll _

/-- A declaration behind both documents is one behind the second. -/
theorem declare_append (first : Document) {second : Document}
    (distinct : (second.states.map State.name).Nodup) (declaration : Declaration) :
    (first.append second).declare declaration = first.append (second.declare declaration) := by
  cases declaration with
  | imports imports => simp [declare, append]
  | screen screen => simp [declare, append]
  | state state => simp [declare, append, State.putAll_put distinct]
  | function function => simp [declare, append]

theorem foldl_declare_append_ofNodes (nodes : List Node) (diagnostics : List Diagnostic)
    (declarations : List Declaration) (document : Document) :
    declarations.foldl declare (document.append (ofNodes nodes diagnostics)) =
      (declarations.foldl declare document).append (ofNodes nodes diagnostics) := by
  induction declarations generalizing document with
  | nil => rfl
  | cons declaration declarations inductionHypothesis =>
      rw [List.foldl_cons, List.foldl_cons, ← inductionHypothesis]
      congr 1
      cases declaration <;> simp [declare, append, ofNodes, State.putAll]

theorem ofForest_append (first second : Forest) :
    ofForest (first ++ second) = (ofForest first).append (ofForest second) := by
  obtain ⟨nodes, declarations, diagnostics⟩ := second
  induction declarations using List.reverseRecOn with
  | nil =>
      have split := foldl_declare_append_ofNodes nodes diagnostics first.declarations
        (ofNodes first.nodes first.diagnostics)
      simpa [ofForest, append, ofNodes, State.putAll] using split
  | append_singleton declarations declaration inductionHypothesis =>
      have last : ∀ forest : Forest,
          ofForest ⟨forest.nodes, forest.declarations ++ [declaration], forest.diagnostics⟩ =
            (ofForest forest).declare declaration := by
        intro forest
        rw [ofForest, List.foldl_append]
        rfl
      have whole : first ++ ⟨nodes, declarations ++ [declaration], diagnostics⟩ =
          ⟨(first ++ ⟨nodes, declarations, diagnostics⟩ : Forest).nodes,
            (first ++ ⟨nodes, declarations, diagnostics⟩ : Forest).declarations ++ [declaration],
            (first ++ ⟨nodes, declarations, diagnostics⟩ : Forest).diagnostics⟩ := by
        ext1 <;> simp
      rw [whole, last, inductionHypothesis, last ⟨nodes, declarations, diagnostics⟩,
        declare_append _ (nodup_states_ofForest _)]

/-- Every block of a source is complete when nothing is at fault and every head has its end. -/
theorem isComplete_of_clean {catalog : Catalog} {source : List Char}
    (plain : Stylesheet.find? source = none) (clean : (parse catalog source).diagnostics = [])
    (ended : ∀ number text, Block.unfinished number text ∉ Block.ofSource source) :
    ∀ block ∈ Block.ofSource source, block.isComplete = true := by
  rw [parse_of_find?_eq_none catalog plain, diagnostics_ofForest] at clean
  intro block membership
  cases block with
  | function number function closed =>
      cases closed with
      | true => rfl
      | false =>
          have fault : .fault (.unterminatedFunction function.name number) ∈
              Item.ofSource catalog source :=
            List.mem_flatMap.mpr ⟨_, membership, List.mem_cons_self⟩
          have reported := Forest.mem_diagnostics_ofItems fault
          simp [clean] at reported
  | unfinished number text => exact absurd membership (ended number text)
  | _ => rfl

/-- When every block of the first source has its end, the second is read as if it stood alone. -/
theorem parse_append_of_complete {catalog : Catalog} {first second : List Char}
    (plainFirst : Stylesheet.find? first = none) (plainSecond : Stylesheet.find? second = none)
    (plain : Stylesheet.find? (first ++ '\n' :: second) = none)
    (clean : (parse catalog first).diagnostics = [])
    (complete : ∀ block ∈ Block.ofSource first, block.isComplete = true)
    (apart : Function.Apart (Line.ofSource first) (Line.ofSource second)) :
    parse catalog (first ++ '\n' :: second) =
      (parse catalog first).append
        ((parse catalog second).renumber (· + (lineFeeds first + 1))) := by
  rw [parse_of_find?_eq_none catalog plainFirst, diagnostics_ofForest] at clean
  rw [parse_of_find?_eq_none catalog plain, parse_of_find?_eq_none catalog plainFirst,
    parse_of_find?_eq_none catalog plainSecond, ← ofForest_renumber, ← Forest.ofItems_renumber,
    ← ofForest_append, ← Forest.ofItems_append clean]
  rw [Item.ofSource, Block.ofSource_append complete apart, List.flatMap_append,
    Block.flatMap_items_renumber]
  rfl

theorem parse_append_feed {catalog : Catalog} {first second : List Char}
    (plainFirst : Stylesheet.find? first = none) (plainSecond : Stylesheet.find? second = none)
    (plain : Stylesheet.find? (first ++ '\n' :: second) = none)
    (clean : (parse catalog first).diagnostics = [])
    (ended : ∀ number text, Block.unfinished number text ∉ Block.ofSource first)
    (apart : Function.Apart (Line.ofSource first) (Line.ofSource second)) :
    parse catalog (first ++ '\n' :: second) =
      (parse catalog first).append
        ((parse catalog second).renumber (· + (lineFeeds first + 1))) := by
  have complete := isComplete_of_clean plainFirst clean ended
  exact parse_append_of_complete plainFirst plainSecond plain clean complete apart

/-- The second source takes over the state of the first and has a fault of its own. -/
theorem parse_append_feed_replaced_state :
    (parse .standard "state n = 0\ngo() \x7b\n\x7d\n<A>\n</A>".toList).diagnostics = [] ∧
      parse .standard ("state n = 0\ngo() \x7b\n\x7d\n<A>\n</A>".toList ++
          '\n' :: "state n = 1\n<B>".toList) =
        (parse .standard "state n = 0\ngo() \x7b\n\x7d\n<A>\n</A>".toList).append
          ((parse .standard "state n = 1\n<B>".toList).renumber
            (· + (lineFeeds "state n = 0\ngo() \x7b\n\x7d\n<A>\n</A>".toList + 1))) := by
  have clean :
      (parse .standard "state n = 0\ngo() \x7b\n\x7d\n<A>\n</A>".toList).diagnostics = [] := by
    decide +kernel
  have complete : ∀ block ∈ Block.ofSource "state n = 0\ngo() \x7b\n\x7d\n<A>\n</A>".toList,
      block.isComplete = true := by
    decide +kernel
  have ended : ∀ number text,
      Block.unfinished number text ∉
        Block.ofSource "state n = 0\ngo() \x7b\n\x7d\n<A>\n</A>".toList := by
    intro number text membership
    exact absurd (complete _ membership) (by simp [Block.isComplete])
  exact ⟨clean, parse_append_feed (by decide +kernel) (by decide +kernel) (by decide +kernel) clean
    ended (by decide +kernel)⟩

end Document

end ScreenCompiler
