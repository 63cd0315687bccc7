import ScreenCompiler.Proofs.Text.Letters
import ScreenCompiler.Proofs.Text.Trim
import ScreenCompiler.Text.Nesting

/-!
# Nested delimiters and the ends of lines

What follows the closing delimiter does not change where it is, and blanks at the
end of a text change neither whether the text closes its pair nor how many inner
pairs it leaves open.
-/

namespace ScreenCompiler.Text

theorem isQuote_of_isBlank {c : Char} (blank : isBlank c = true) : isQuote c = false := by
  rw [← Bool.not_eq_true]
  intro quote
  simp only [isQuote, Bool.or_eq_true, beq_iff_eq] at quote
  rcases quote with (rfl | rfl) | rfl <;> exact absurd blank (by decide)

namespace Closing

variable {delimiters : Delimiters}

theorem find_append_of_closed {nesting : Nesting} {text before after : List Char}
    (more : List Char) (found : find delimiters nesting text = closed before after) :
    find delimiters nesting (text ++ more) = closed before (after ++ more) := by
  induction text generalizing nesting before with
  | nil => simp [find] at found
  | cons c text inductionHypothesis =>
      rw [List.cons_append]
      simp only [find] at found ⊢
      cases stepped : nesting.step delimiters c with
      | none =>
          rw [stepped] at found
          simp only [closed.injEq] at found
          rw [← found.1, ← found.2]
      | some next =>
          rw [stepped] at found
          cases inner : find delimiters next text with
          | unclosed _ => simp [inner, cons] at found
          | closed head tail =>
              simp only [inner, cons, closed.injEq] at found
              obtain ⟨rfl, rfl⟩ := found
              simp only [inductionHypothesis inner, cons]

theorem find_append_of_unclosed {nesting last : Nesting} {text : List Char} (more : List Char)
    (found : find delimiters nesting text = unclosed last) :
    find delimiters nesting (text ++ more) =
      text.foldr cons (find delimiters last more) := by
  induction text generalizing nesting with
  | nil =>
      simp only [find, unclosed.injEq] at found
      rw [List.nil_append, List.foldr_nil, found]
  | cons c text inductionHypothesis =>
      rw [List.cons_append, List.foldr_cons]
      simp only [find] at found ⊢
      cases stepped : nesting.step delimiters c with
      | none => simp [stepped] at found
      | some next =>
          rw [stepped] at found
          cases inner : find delimiters next text with
          | closed _ _ => simp [inner, cons] at found
          | unclosed _ =>
              simp only [inner, cons, unclosed.injEq] at found
              subst found
              simp only [inductionHypothesis inner]

/-- A blank may end an escape or a literal, but opens and closes no pair. -/
theorem step_of_isBlank (opening : isBlank delimiters.opening = false)
    (closing : isBlank delimiters.closing = false) (nesting : Nesting) {c : Char}
    (blank : isBlank c = true) :
    ∃ next, nesting.step delimiters c = some next ∧ next.depth = nesting.depth := by
  have notOpening : c ≠ delimiters.opening := by
    rintro rfl
    simp [blank] at opening
  have notClosing : c ≠ delimiters.closing := by
    rintro rfl
    simp [blank] at closing
  unfold Nesting.step
  split
  · split
    · exact ⟨_, rfl, rfl⟩
    · split
      · exact ⟨_, rfl, rfl⟩
      · split <;> exact ⟨_, rfl, rfl⟩
  · rw [if_neg notOpening, if_neg notClosing]
    split <;> exact ⟨_, rfl, rfl⟩

theorem find_of_isAllBlank (opening : isBlank delimiters.opening = false)
    (closing : isBlank delimiters.closing = false) (nesting : Nesting) {gap : List Char}
    (blank : isAllBlank gap = true) :
    ∃ last, find delimiters nesting gap = unclosed last ∧ last.depth = nesting.depth := by
  induction gap generalizing nesting with
  | nil => exact ⟨nesting, rfl, rfl⟩
  | cons c gap inductionHypothesis =>
      obtain ⟨blankHead, blankRest⟩ : isBlank c = true ∧ isAllBlank gap = true := by
        simpa [isAllBlank] using blank
      obtain ⟨next, stepped, sameDepth⟩ := step_of_isBlank opening closing nesting blankHead
      obtain ⟨last, found, depth⟩ := inductionHypothesis next blankRest
      exact ⟨last, by simp [find, stepped, found, cons], by rw [depth, sameDepth]⟩

theorem foldr_cons_unclosed (text : List Char) (nesting : Nesting) :
    text.foldr cons (unclosed nesting) = unclosed nesting := by
  induction text with
  | nil => rfl
  | cons c text inductionHypothesis =>
      rw [List.foldr_cons, inductionHypothesis]
      rfl

theorem foldr_cons_closed (text before after : List Char) :
    text.foldr cons (closed before after) = closed (text ++ before) after := by
  induction text with
  | nil => rfl
  | cons c text inductionHypothesis =>
      rw [List.foldr_cons, inductionHypothesis]
      rfl

/-- Between literals, blanks change nothing. -/
theorem find_of_isAllBlank_of_bare (opening : isBlank delimiters.opening = false)
    (closing : isBlank delimiters.closing = false) (depth : Nat) {gap : List Char}
    (blank : isAllBlank gap = true) :
    find delimiters ⟨depth, none, false⟩ gap = unclosed ⟨depth, none, false⟩ := by
  induction gap with
  | nil => rfl
  | cons c gap inductionHypothesis =>
      obtain ⟨isBlank, blank⟩ := Bool.and_eq_true_iff.mp blank
      have stays : Nesting.step delimiters ⟨depth, none, false⟩ c = some ⟨depth, none, false⟩ := by
        simp only [Nesting.step, isQuote_of_isBlank isBlank, Bool.false_eq_true, ↓reduceIte,
          if_neg (ne_of_class isBlank opening), if_neg (ne_of_class isBlank closing)]
      rw [find, stays]
      simp only [inductionHypothesis blank, cons]

/-- What `find` says about a text, apart from what follows the pair and the literal at the end. -/
def gist : Closing → Option (List Char) × Nat
  | closed before _ => (some before, 0)
  | unclosed nesting => (none, nesting.depth)

theorem gist_find_append (opening : isBlank delimiters.opening = false)
    (closing : isBlank delimiters.closing = false) (nesting : Nesting) (text : List Char)
    {gap : List Char} (blank : isAllBlank gap = true) :
    (find delimiters nesting (text ++ gap)).gist = (find delimiters nesting text).gist := by
  cases found : find delimiters nesting text with
  | closed before after =>
      rw [find_append_of_closed gap found]
      rfl
  | unclosed last =>
      obtain ⟨final, ended, depth⟩ := find_of_isAllBlank opening closing last blank
      rw [find_append_of_unclosed gap found, ended, foldr_cons_unclosed]
      simp only [gist, depth]

theorem gist_find_trimEnd (opening : isBlank delimiters.opening = false)
    (closing : isBlank delimiters.closing = false) (nesting : Nesting) (text : List Char) :
    (find delimiters nesting (trimEnd text)).gist = (find delimiters nesting text).gist := by
  obtain ⟨gap, blank, split⟩ := exists_trimEnd_append text
  conv_rhs => rw [split, gist_find_append opening closing nesting _ blank]

end Closing

end ScreenCompiler.Text
