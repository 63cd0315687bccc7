import Mathlib.Data.List.Infix
import ScreenCompiler.Proofs.Markup.Pieces

/-!
# Runs of text between tags

A run of text that closes its braces ends at the tag behind it, so a line with such a
run between two tags falls into these three pieces.
-/

namespace ScreenCompiler

open Text

/-- Every brace that a text opens is closed by a later one. -/
def ClosesBraces (text : List Char) : Prop :=
  ∀ rest, rest <:+ text → rest.count '{' ≤ rest.count '}'

instance (text : List Char) : Decidable (ClosesBraces text) :=
  decidable_of_iff (∀ rest ∈ text.tails, rest.count '{' ≤ rest.count '}')
    (forall_congr' fun rest => imp_congr_left (List.mem_tails rest text))

theorem ClosesBraces.append {first second : List Char} (closes : ClosesBraces first)
    (later : ClosesBraces second) : ClosesBraces (first ++ second) := by
  intro rest ending
  rcases List.suffix_or_suffix_of_suffix ending (List.suffix_append first second) with
    inside | beyond
  · exact later rest inside
  · obtain ⟨front, rfl⟩ := beyond
    have inFirst : front <:+ first := by
      obtain ⟨before, shape⟩ := ending
      rw [← List.append_assoc] at shape
      exact ⟨before, List.append_cancel_right shape⟩
    rw [List.count_append, List.count_append]
    exact Nat.add_le_add (closes front inFirst) (later second List.suffix_rfl)

/-- A run of text without blanks at its ends, on one line. -/
structure Text.IsRun (text : List Char) : Prop where
  nonempty : text ≠ []
  trimmed : trim text = text
  noFeed : '\n' ∉ text

/-- A run of text as it may stand between two tags. -/
structure IsInlineRun (text : List Char) : Prop extends IsRun text where
  noBracket : '<' ∉ text
  closes : ClosesBraces text

namespace IsInlineRun

theorem join {first second : List Char} (isRun : IsInlineRun first) (later : IsInlineRun second) :
    IsInlineRun (first ++ ' ' :: second) where
  nonempty := by simp
  trimmed := by
    refine trim_eq_self (fun c head => ?_) (fun c last => ?_)
    · rw [List.head?_append_of_ne_nil _ isRun.nonempty, ← isRun.trimmed] at head
      exact head?_trim head
    · rw [List.getLast?_append_of_ne_nil _ (by simp), List.getLast?_cons_of_ne_nil later.nonempty,
        ← later.trimmed] at last
      exact getLast?_trim last
  noFeed := by simp [isRun.noFeed, later.noFeed]
  noBracket := by simp [isRun.noBracket, later.noBracket]
  closes := by
    have gap : ClosesBraces [' '] := by decide
    exact isRun.closes.append (gap.append later.closes)

theorem intercalate {runs : List (List Char)} (nonempty : runs ≠ [])
    (isRun : ∀ run ∈ runs, IsInlineRun run) : IsInlineRun (List.intercalate [' '] runs) := by
  induction runs with
  | nil => exact absurd rfl nonempty
  | cons run runs inductionHypothesis =>
      obtain ⟨first, later⟩ := List.forall_mem_cons.mp isRun
      cases runs with
      | nil => simpa using first
      | cons next runs =>
          rw [List.intercalate_cons_cons, List.append_assoc]
          exact first.join (inductionHypothesis (by simp) later)

end IsInlineRun

namespace Pieces

/-- Closing braces that match no opening one do not count. -/
theorem foldl_textDepth_of_closesBraces {text : List Char} (closes : ClosesBraces text)
    {depth : Nat} (enough : depth + text.count '{' ≤ text.count '}') :
    text.foldl textDepth depth = 0 := by
  induction text generalizing depth with
  | nil => simpa using enough
  | cons c text inductionHypothesis =>
      have later : ClosesBraces text := fun rest ending =>
        closes rest (ending.trans (List.suffix_cons c text))
      have balance := later text List.suffix_rfl
      rw [List.foldl_cons]
      refine inductionHypothesis later ?_
      by_cases opening : c = '{'
      · subst opening
        have step : textDepth depth '{' = depth + 1 := rfl
        rw [List.count_cons_self, List.count_cons_of_ne (by decide)] at enough
        omega
      · by_cases closing : c = '}'
        · subst closing
          have step : textDepth depth '}' = depth - 1 := rfl
          rw [List.count_cons_self, List.count_cons_of_ne (by decide)] at enough
          omega
        · have step : textDepth depth c = depth := by simp [textDepth, opening, closing]
          rw [List.count_cons_of_ne opening, List.count_cons_of_ne closing] at enough
          omega

theorem beforeTag_append_tag {run tag : List Char} (noBracket : '<' ∉ run)
    (starts : Head.startsTag tag = true) {depth : Nat} (closed : run.foldl textDepth depth = 0) :
    beforeTag depth (run ++ tag) = (run, tag) := by
  induction run generalizing depth with
  | nil =>
      obtain rfl : depth = 0 := closed
      exact beforeTag_of_startsTag starts
  | cons c run inductionHypothesis =>
      rw [List.mem_cons, not_or] at noBracket
      have goesOn : ¬(depth = 0 ∧ Head.startsTag (c :: (run ++ tag)) = true) := by
        simp [Head.startsTag_cons_of_ne (Ne.symm noBracket.1)]
      rw [List.cons_append, beforeTag, if_neg goesOn, inductionHypothesis noBracket.2 closed]

/-- A run of text ends at the tag behind it. -/
theorem ofText_run_append {run tag : List Char} (isRun : IsInlineRun run)
    (starts : Head.startsTag tag = true) : ofText (run ++ tag) = (ofText tag).cons (.text run) := by
  have closed : run.foldl textDepth 0 = 0 :=
    foldl_textDepth_of_closesBraces isRun.closes
      (by simpa using isRun.closes run List.suffix_rfl)
  have solid : trim run ≠ [] := isRun.trimmed.symm ▸ isRun.nonempty
  have piece := addText_of_solid solid (ofText tag)
  rw [isRun.trimmed] at piece
  rw [← piece, ofText, split_eq, beforeTag_append_tag isRun.noBracket starts closed,
    List.append_nil, ofText, split_eq, beforeTag_of_startsTag starts]
  rfl

theorem ofText_tag_append {inside behind : List Char}
    (starts : Head.startsTag ('<' :: inside ++ '>' :: behind) = true)
    (ends : Head.findEnd? .start (inside ++ '>' :: behind) = some (inside, behind)) :
    ofText ('<' :: inside ++ '>' :: behind) = (ofText behind).cons (Piece.ofInside inside) := by
  rw [ofText, split_eq, beforeTag_of_startsTag starts]
  simp only [List.cons_append, ends]
  rfl

end Pieces

end ScreenCompiler
