import ScreenCompiler.Text.Nesting

/-!
# Balanced braces

The braces of a text are balanced when none closes before it opens and none stays
open.  Literals are left out of a text to speak of the braces outside them.
-/

namespace ScreenCompiler.Text

structure HasBalancedBraces (text : List Char) : Prop where
  opened : ∀ length, (text.take length).count '}' ≤ (text.take length).count '{'
  closed : text.count '{' = text.count '}'

/-- How many braces are open behind a text, none when one closes that is not open. -/
def braceDepth? (depth : Nat) : List Char → Option Nat
  | [] => some depth
  | c :: text =>
      if c = '{' then braceDepth? (depth + 1) text
      else if c = '}' then if depth = 0 then none else braceDepth? (depth - 1) text
      else braceDepth? depth text

theorem braceDepth?_eq_some_iff {depth last : Nat} {text : List Char} :
    braceDepth? depth text = some last ↔
      (∀ length, (text.take length).count '}' ≤ depth + (text.take length).count '{') ∧
        depth + text.count '{' = last + text.count '}' := by
  induction text generalizing depth with
  | nil => simp [braceDepth?]
  | cons c text inductionHypothesis =>
      have fronts : (∀ length, ((c :: text).take length).count '}' ≤
          depth + ((c :: text).take length).count '{') ↔
        ∀ length,
          (c :: text.take length).count '}' ≤ depth + (c :: text.take length).count '{' := by
        constructor
        · intro opened length
          exact opened (length + 1)
        · intro opened length
          cases length with
          | zero => simp
          | succ length => exact opened length
      rw [fronts, braceDepth?]
      by_cases opening : c = '{'
      · subst opening
        rw [if_pos rfl, inductionHypothesis]
        simp only [List.count_cons_self, List.count_cons_of_ne (by decide : '{' ≠ '}')]
        refine and_congr (forall_congr' fun length => ?_) ?_ <;> omega
      · by_cases closing : c = '}'
        · subst closing
          simp only [if_neg opening, ↓reduceIte, List.count_cons_self,
            List.count_cons_of_ne (by decide : '}' ≠ '{')]
          split
          · rename_i none
            subst none
            simp only [reduceCtorEq, false_iff, not_and]
            intro opened
            have first := opened 0
            simp at first
          · rename_i some
            rw [inductionHypothesis]
            refine and_congr (forall_congr' fun length => ?_) ?_ <;> omega
        · rw [if_neg opening, if_neg closing, inductionHypothesis]
          simp only [List.count_cons_of_ne opening, List.count_cons_of_ne closing]

theorem hasBalancedBraces_iff {text : List Char} :
    HasBalancedBraces text ↔ braceDepth? 0 text = some 0 := by
  rw [braceDepth?_eq_some_iff]
  simp only [Nat.zero_add]
  exact ⟨fun ⟨opened, closed⟩ => ⟨opened, closed⟩, fun ⟨opened, closed⟩ => ⟨opened, closed⟩⟩

instance (text : List Char) : Decidable (HasBalancedBraces text) :=
  decidable_of_iff _ hasBalancedBraces_iff.symm

/-- A brace that closes too early closes a balanced text in front of it. -/
theorem exists_of_braceDepth?_eq_none {depth : Nat} {text : List Char}
    (early : braceDepth? depth text = none) :
    ∃ before behind, text = before ++ '}' :: behind ∧ braceDepth? depth before = some 0 := by
  induction text generalizing depth with
  | nil => exact absurd early (Option.some_ne_none depth)
  | cons c text inductionHypothesis =>
      rw [braceDepth?] at early
      split at early
      · rename_i opening
        obtain ⟨before, behind, shape, balanced⟩ := inductionHypothesis early
        refine ⟨c :: before, behind, by rw [shape, List.cons_append], ?_⟩
        rw [braceDepth?, if_pos opening, balanced]
      · rename_i opening
        split at early
        · rename_i closing
          split at early
          · rename_i none
            subst closing
            exact ⟨[], text, rfl, congrArg some none⟩
          · rename_i some
            obtain ⟨before, behind, shape, balanced⟩ := inductionHypothesis early
            refine ⟨c :: before, behind, by rw [shape, List.cons_append], ?_⟩
            rw [braceDepth?, if_neg opening, if_pos closing, if_neg some, balanced]
        · rename_i closing
          obtain ⟨before, behind, shape, balanced⟩ := inductionHypothesis early
          refine ⟨c :: before, behind, by rw [shape, List.cons_append], ?_⟩
          rw [braceDepth?, if_neg opening, if_neg closing, balanced]

/-- The characters of a text outside its literals, none when one is left open.  A literal ends at
the next quote of its kind. -/
def outsideLiterals? : Option Char → List Char → Option (List Char)
  | none, [] => some []
  | some _, [] => none
  | none, c :: text =>
      if isQuote c then outsideLiterals? (some c) text
      else (outsideLiterals? none text).map (c :: ·)
  | some mark, c :: text => outsideLiterals? (if c = mark then none else some mark) text

/-- Code that leaves no literal open, with balanced braces outside of its literals. -/
def IsBalancedCode (text : List Char) : Prop :=
  ∃ outside, outsideLiterals? none text = some outside ∧ HasBalancedBraces outside

instance (text : List Char) : Decidable (IsBalancedCode text) :=
  inferInstanceAs (Decidable (∃ outside, outside ∈ outsideLiterals? none text ∧
    HasBalancedBraces outside))

end ScreenCompiler.Text
