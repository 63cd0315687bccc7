import ScreenCompiler.Catalog.Standard
import ScreenCompiler.Proofs.Document.Blocks
import ScreenCompiler.Proofs.Document.Composition
import ScreenCompiler.Proofs.Markup.Strays

/-!
# Broken tag heads

A head without an end is given up with a diagnostic, or closed where its text ends
like a tag.  In the latter case something hides the end, and it is reported when it
is the value of an attribute.
-/

namespace ScreenCompiler

open Text

namespace Continued

theorem read?_of_unfinished {text last : List Char} {lines more : List Line}
    (broken : Head.read? text = none) (found : read text lines = unfinished last more) :
    Head.read? last = none := by
  induction lines generalizing text with
  | nil =>
      simp only [read, unfinished.injEq] at found
      exact found.1 ▸ broken
  | cons next lines inductionHypothesis =>
      simp only [read] at found
      split at found
      · simp only [unfinished.injEq] at found
        exact found.1 ▸ broken
      · split at found
        · simp at found
        · rename_i longer
          exact inductionHypothesis longer found

end Continued

namespace Head

/-- A text that opens a tag and nowhere ends it. -/
def IsBroken (text : List Char) : Prop :=
  ∃ inside, text = '<' :: inside ∧ findEnd? .start inside = none

theorem append_of_recover? {inside : List Char} {head : Head}
    (recovered : recover? ('<' :: inside) = some head) :
    ∃ ending, Place.start.after ending = .start ∧
      inside = inside.takeWhile isTagChar ++ (head.attributes ++ ending) ++ ['>'] := by
  have whole : inside.takeWhile isTagChar ++ inside.dropWhile isTagChar = inside :=
    List.takeWhile_append_dropWhile
  simp only [recover?] at recovered
  split at recovered
  · rename_i reversed shape
    have behind := congrArg List.reverse shape
    rw [List.reverse_reverse] at behind
    obtain rfl := Option.some.inj recovered
    refine ⟨['/'], rfl, ?_⟩
    conv_lhs => rw [← whole, behind]
    simp
  · rename_i reversed _ shape
    have behind := congrArg List.reverse shape
    rw [List.reverse_reverse] at behind
    obtain rfl := Option.some.inj recovered
    refine ⟨[], rfl, ?_⟩
    conv_lhs => rw [← whole, behind]
    simp
  · simp at recovered

/-- What closes a broken head where it stands is the value that hides its end. -/
theorem IsBroken.exists_unterminated {text : List Char} {head : Head} (broken : IsBroken text)
    (recovered : recover? text = some head)
    (legible : Attribute.AreLegible (trim head.attributes)) :
    ∃ item ∈ Attribute.list (trim head.attributes), item.isUnterminated = true := by
  by_contra none
  simp only [not_exists, not_and, Bool.not_eq_true] at none
  obtain ⟨inside, rfl, endless⟩ := broken
  obtain ⟨ending, back, shape⟩ := append_of_recover? recovered
  have attributes : Place.start.after head.attributes = .start := by
    obtain ⟨before, after, blankBefore, blankAfter, shape⟩ := exists_trim head.attributes
    rw [shape, after_append, after_append, after_of_isAllBlank blankBefore,
      legible.after none, after_of_isAllBlank blankAfter]
  have name : Place.start.after (inside.takeWhile isTagChar) = .start :=
    after_of_plain fun c inName =>
      opensStretch_of_class (by decide) (List.mem_takeWhile_imp inName)
  have returns : Place.start.after
      (inside.takeWhile isTagChar ++ (head.attributes ++ ending)) = .start := by
    rw [after_append, name, after_append, attributes, back]
  have found := isSome_findEnd?_of_after returns []
  rw [← shape, endless] at found
  exact Bool.false_ne_true found

end Head

namespace Block

theorem StandsIn.isBroken {source : List Line} {number : Nat} {text : List Char}
    (stands : StandsIn source (.unfinished number text)) : Head.IsBroken text := by
  cases stands with
  | simple within simple => cases declares_of_simple? simple
  | unfinished reaches tagged isOpening found =>
      obtain ⟨-, segment⟩ := (Pieces.reads_ofText _).unfinished_tag tagged
      cases segment with
      | @unfinished rest starts endless =>
          have broken : Head.read? ('<' :: rest) = none := by
            rw [Head.read?, endless]
            rfl
          have still := Continued.read?_of_unfinished broken found
          obtain ⟨added, -, joined⟩ := Continued.exists_joined_of_unfinished found
          obtain ⟨more, longer⟩ := Continued.prefix_joined ('<' :: rest) added
          rw [joined, ← longer, List.cons_append] at still ⊢
          exact ⟨rest ++ more, rfl, Option.map_eq_none_iff.mp still⟩

/-- A broken head whose attributes are legible is at fault. -/
theorem fault_mem_items (catalog : Catalog) {number : Nat} {text : List Char}
    (broken : Head.IsBroken text)
    (legible : ∀ head ∈ Head.recover? text, Attribute.AreLegible (trim head.attributes)) :
    (∃ name, .fault (.unterminatedValue name number) ∈ (unfinished number text).items catalog) ∨
      ∃ tag, .fault (.unterminatedTag tag number) ∈ (unfinished number text).items catalog := by
  rw [items, Item.ofUnfinished]
  split
  · rename_i head recovered
    obtain ⟨item, membership, isUnterminated⟩ :=
      broken.exists_unterminated recovered (legible head recovered)
    refine .inl ⟨item.name, List.mem_append_left _ (List.mem_map.mpr ⟨item.name, ?_, rfl⟩)⟩
    exact List.mem_map_of_mem (List.mem_filter.mpr ⟨membership, isUnterminated⟩)
  · exact .inr ⟨_, List.mem_cons_self⟩

end Block

namespace Document

/-- A head without an end is reported with its line, unless a stray mark hides the end. -/
theorem parse_reports_broken_head (catalog : Catalog) {source text : List Char} {number : Nat}
    (broken : .unfinished number text ∈ Block.ofSource (Stylesheet.cut source).remaining)
    (legible : ∀ head ∈ Head.recover? text, Attribute.AreLegible (trim head.attributes)) :
    (∃ name, .unterminatedValue name number ∈ (parse catalog source).diagnostics) ∨
      ∃ tag, .unterminatedTag tag number ∈ (parse catalog source).diagnostics := by
  have reported : ∀ {diagnostic}, .fault diagnostic ∈ (Block.unfinished number text).items catalog →
      diagnostic ∈ (parse catalog source).diagnostics := by
    intro diagnostic fault
    rw [diagnostics_parse]
    exact List.mem_append_right _
      (Forest.mem_diagnostics_ofItems (List.mem_flatMap.mpr ⟨_, broken, fault⟩))
  have stands := Block.standsIn_of_mem_ofLines _ broken
  rcases Block.fault_mem_items catalog stands.isBroken legible with ⟨name, value⟩ | ⟨tag, givenUp⟩
  · exact .inl ⟨name, reported value⟩
  · exact .inr ⟨tag, reported givenUp⟩

/-- A head with a brace that is never closed, behind a value that holds an end of tag. -/
def openBraceHead : List Char :=
  "<T on-x=\x7b() => 'a>b'\x7d p, q=1 n=\x7bx y='/>' />".toList

/-- The head on two lines, above a line on which it cannot go on. -/
def openBraceSource : List Char :=
  "A\n<T on-x=\x7b() => 'a>b'\x7d p, q=1 n=\x7bx\n y='/>' />\n<U/>".toList

theorem parse_reports_open_brace :
    .unfinished 2 openBraceHead ∈ Block.ofSource (Stylesheet.cut openBraceSource).remaining ∧
      ((∃ name, .unterminatedValue name 2 ∈ (parse .standard openBraceSource).diagnostics) ∨
        ∃ tag, .unterminatedTag tag 2 ∈ (parse .standard openBraceSource).diagnostics) := by
  have broken :
      .unfinished 2 openBraceHead ∈ Block.ofSource (Stylesheet.cut openBraceSource).remaining := by
    decide +kernel
  exact ⟨broken, parse_reports_broken_head .standard broken (by decide +kernel)⟩

/-- Heads with a quote or a brace outside of the values. -/
def strayMarkHeads : List (List Char) :=
  ["<T a\x60/>", "<T a=b\"/>", "<T \x7b/>"].map String.toList

/-- A stray mark hides the end of a tag, and nothing is reported. -/
theorem parse_accepts_stray_marks :
    (∀ text ∈ strayMarkHeads, .unfinished 1 text ∈ Block.ofSource (Stylesheet.cut text).remaining) ∧
      ∀ text ∈ strayMarkHeads, (parse .standard text).diagnostics = [] := by
  decide +kernel

end Document

end ScreenCompiler
