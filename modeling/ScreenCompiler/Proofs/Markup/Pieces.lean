import ScreenCompiler.Markup.Pieces
import ScreenCompiler.Proofs.Markup.Scanning
import ScreenCompiler.Proofs.Text.Trim

/-!
# How a line falls into pieces

`Reads` follows a line from tag to tag: a run of text, the tag behind it, and the
rest of the line.  Every piece is stable: read on its own it is that piece again.
-/

namespace ScreenCompiler

open Text

theorem Head.startsTag_iff {text : List Char} : startsTag text = true ↔
    ∃ c rest, text = '<' :: c :: rest ∧ (isAsciiLetter c || c == '/') = true := by
  constructor
  · intro starts
    unfold startsTag at starts
    split at starts
    · exact ⟨_, _, rfl, starts⟩
    · simp at starts
  · rintro ⟨c, rest, rfl, solid⟩
    exact solid

theorem Head.startsTag_cons_of_ne {c : Char} (other : c ≠ '<') (rest : List Char) :
    startsTag (c :: rest) = false := by
  refine Bool.eq_false_iff.mpr fun starts => ?_
  obtain ⟨d, more, shape, -⟩ := startsTag_iff.mp starts
  exact other (List.cons.inj shape).1

theorem Head.startsTag_of_append {text : List Char} (more : List Char)
    (starts : startsTag text = true) : startsTag (text ++ more) = true := by
  obtain ⟨c, rest, rfl, solid⟩ := startsTag_iff.mp starts
  exact solid

/-- A tag has something between its angle brackets. -/
theorem Head.exists_of_startsTag {rest inside behind : List Char}
    (starts : startsTag ('<' :: rest) = true)
    (found : findEnd? .start rest = some (inside, behind)) :
    ∃ c text, inside = c :: text ∧ (isAsciiLetter c || c == '/') = true := by
  rw [append_of_findEnd? found] at starts
  cases inside with
  | nil =>
      have bracket : startsTag ('<' :: '>' :: behind) = false := rfl
      exact absurd (bracket.symm.trans starts) Bool.false_ne_true
  | cons c text => exact ⟨c, text, rfl, starts⟩

namespace Pieces

/-- The run of text in front of the first tag outside braces, and the text from that tag on. -/
def beforeTag (depth : Nat) : List Char → List Char × List Char
  | [] => ([], [])
  | c :: rest =>
      if depth = 0 ∧ Head.startsTag (c :: rest) then ([], c :: rest)
      else
        let (run, tag) := beforeTag (textDepth depth c) rest
        (c :: run, tag)

/-- A run of text in front of pieces; a blank one makes no piece. -/
def addText (run : List Char) (pieces : Pieces) : Pieces :=
  flush run.reverse pieces

theorem addText_of_isAllBlank {run : List Char} (blank : isAllBlank run = true) (pieces : Pieces) :
    addText run pieces = pieces := by
  have empty : trim run = [] := by
    rw [← List.nil_append run, trim_append_of_isAllBlank blank]
    rfl
  rw [addText, flush, List.reverse_reverse, empty]

theorem addText_of_solid {run : List Char} (solid : trim run ≠ []) (pieces : Pieces) :
    addText run pieces = pieces.cons (.text (trim run)) := by
  rw [addText, flush, List.reverse_reverse]
  split
  · rename_i empty
    exact absurd empty solid
  · rename_i found
    rw [found]

inductive Reads : List Char → Pieces → Prop where
  | text {run} :
      beforeTag 0 run = (run, []) →
      Reads run (addText run ⟨[], none⟩)
  | tag {run rest inside behind pieces} :
      beforeTag 0 (run ++ '<' :: rest) = (run, '<' :: rest) →
      Head.startsTag ('<' :: rest) = true →
      Head.findEnd? .start rest = some (inside, behind) →
      Reads behind pieces →
      Reads (run ++ '<' :: rest) (addText run (pieces.cons (Piece.ofInside inside)))
  | unfinished {run rest} :
      beforeTag 0 (run ++ '<' :: rest) = (run, '<' :: rest) →
      Head.startsTag ('<' :: rest) = true →
      Head.findEnd? .start rest = none →
      Reads (run ++ '<' :: rest) (addText run ⟨[], some ('<' :: rest)⟩)

theorem beforeTag_append (depth : Nat) (text : List Char) :
    (beforeTag depth text).1 ++ (beforeTag depth text).2 = text := by
  induction text generalizing depth with
  | nil => rfl
  | cons c rest inductionHypothesis =>
      rw [beforeTag]
      split
      · rfl
      · exact congrArg (c :: ·) (inductionHypothesis _)

/-- What stands behind the run is nothing or a tag. -/
theorem beforeTag_behind (depth : Nat) (text : List Char) :
    (beforeTag depth text).2 = [] ∨
      ∃ rest, (beforeTag depth text).2 = '<' :: rest ∧ Head.startsTag ('<' :: rest) = true := by
  induction text generalizing depth with
  | nil => exact .inl rfl
  | cons c rest inductionHypothesis =>
      rw [beforeTag]
      split
      · rename_i tag
        obtain ⟨d, more, shape, solid⟩ := Head.startsTag_iff.mp tag.2
        exact .inr ⟨d :: more, shape, solid⟩
      · exact inductionHypothesis _

/-- A run stays a run when it is cut short or when what stands behind it is cut off. -/
theorem beforeTag_of_append {depth : Nat} {text more tail tag : List Char}
    (whole : beforeTag depth (text ++ more) = (text ++ tail, tag)) :
    beforeTag depth text = (text, []) := by
  induction text generalizing depth with
  | nil => rfl
  | cons c text inductionHypothesis =>
      rw [List.cons_append, beforeTag] at whole
      split at whole
      · simp at whole
      · rename_i goesOn
        have stays : ¬(depth = 0 ∧ Head.startsTag (c :: text) = true) := fun ⟨zero, starts⟩ =>
          goesOn ⟨zero, Head.startsTag_of_append more starts⟩
        simp only [List.cons_append, Prod.mk.injEq, List.cons.injEq, true_and] at whole
        rw [beforeTag, if_neg stays, inductionHypothesis (Prod.ext whole.1 whole.2)]

theorem split_eq (depth : Nat) (run text : List Char) :
    split depth run text =
      flush ((beforeTag depth text).1.reverse ++ run)
        (match (beforeTag depth text).2 with
          | [] => ⟨[], none⟩
          | c :: rest =>
              match Head.findEnd? .start rest with
              | some (inside, behind) => (split 0 [] behind).cons (Piece.ofInside inside)
              | none => ⟨[], some (c :: rest)⟩) := by
  induction text generalizing depth run with
  | nil => rw [split, beforeTag]; rfl
  | cons c rest inductionHypothesis =>
      rw [split, beforeTag]
      split
      · simp only
        split <;> simp only [*] <;> rfl
      · rw [inductionHypothesis]
        simp

@[simp]
theorem ofText_nil : ofText [] = ⟨[], none⟩ := by
  rw [ofText, split_eq]
  rfl

theorem reads_ofText (text : List Char) : Reads text (ofText text) := by
  generalize size : text.length = bound
  induction bound using Nat.strong_induction_on generalizing text with
  | _ bound inductionHypothesis =>
      have whole := beforeTag_append 0 text
      rw [ofText, split_eq, List.append_nil]
      cases found : beforeTag 0 text with
      | mk run behind =>
          rw [found] at whole
          simp only at whole ⊢
          rcases beforeTag_behind 0 text with empty | ⟨rest, tag, starts⟩
          · obtain rfl : behind = [] := by simpa [found] using empty
            obtain rfl : run = text := by simpa using whole
            exact .text found
          · obtain rfl : behind = '<' :: rest := by simpa [found] using tag
            subst whole
            simp only
            cases ended : Head.findEnd? .start rest with
            | none => exact .unfinished found starts ended
            | some parts =>
                obtain ⟨inside, after⟩ := parts
                have shape := congrArg List.length (Head.append_of_findEnd? ended)
                simp only [List.length_append, List.length_cons] at shape size
                exact .tag found starts ended (inductionHypothesis _ (by omega) after rfl)

/-- How a text is read that is a piece of its own. -/
inductive Segment : List Char → Pieces → Prop where
  | text {run} :
      run ≠ [] → trim run = run → beforeTag 0 run = (run, []) →
      Segment run ⟨[.text run], none⟩
  | tag {inside} :
      Head.startsTag ('<' :: inside ++ ['>']) = true →
      Head.findEnd? .start (inside ++ ['>']) = some (inside, []) →
      Segment ('<' :: inside ++ ['>']) ⟨[Piece.ofInside inside], none⟩
  | unfinished {rest} :
      Head.startsTag ('<' :: rest) = true →
      Head.findEnd? .start rest = none →
      Segment ('<' :: rest) ⟨[], some ('<' :: rest)⟩

theorem written_ofInside (inside : List Char) :
    (Piece.ofInside inside).written = '<' :: inside ++ ['>'] := by
  unfold Piece.ofInside
  split <;> rfl

theorem beforeTag_of_isAllBlank {gap : List Char} (blank : isAllBlank gap = true)
    (text : List Char) :
    beforeTag 0 (gap ++ text) = (gap ++ (beforeTag 0 text).1, (beforeTag 0 text).2) := by
  induction gap with
  | nil => rfl
  | cons c gap inductionHypothesis =>
      obtain ⟨blankHead, blankRest⟩ : isBlank c = true ∧ isAllBlank gap = true := by
        simpa [isAllBlank] using blank
      have noBracket : c ≠ '<' := by
        rintro rfl
        exact absurd blankHead (by decide)
      have goesOn : ¬(0 = 0 ∧ Head.startsTag (c :: (gap ++ text)) = true) := by
        simp [Head.startsTag_cons_of_ne noBracket]
      have flat : textDepth 0 c = 0 := by
        have noOpening : c ≠ '{' := by
          rintro rfl
          exact absurd blankHead (by decide)
        simp [textDepth, noOpening]
      rw [List.cons_append, beforeTag, if_neg goesOn, flat, inductionHypothesis blankRest]
      rfl

theorem beforeTag_of_startsTag {text : List Char} (starts : Head.startsTag text = true) :
    beforeTag 0 text = ([], text) := by
  cases text with
  | nil => rfl
  | cons c rest => rw [beforeTag, if_pos ⟨rfl, starts⟩]

theorem beforeTag_of_notMem {text : List Char} (noBracket : '<' ∉ text) (depth : Nat) :
    beforeTag depth text = (text, []) := by
  induction text generalizing depth with
  | nil => rfl
  | cons c rest inductionHypothesis =>
      rw [List.mem_cons, not_or] at noBracket
      have goesOn : ¬(depth = 0 ∧ Head.startsTag (c :: rest) = true) := by
        simp [Head.startsTag_cons_of_ne (Ne.symm noBracket.1)]
      rw [beforeTag, if_neg goesOn, inductionHypothesis noBracket.2]

/-- The solid part of a run is a segment. -/
theorem segment_of_run {run tail tag : List Char}
    (found : beforeTag 0 (run ++ tail) = (run, tag)) (solid : trim run ≠ []) :
    Segment (trim run) ⟨[.text (trim run)], none⟩ := by
  refine .text solid (trim_trim run) ?_
  obtain ⟨before, after, blank, -, shape⟩ := exists_trim run
  have cut : beforeTag 0 (before ++ trim run) = (before ++ trim run, []) := by
    rw [shape, List.append_assoc] at found
    exact beforeTag_of_append found
  rw [beforeTag_of_isAllBlank blank, Prod.mk.injEq] at cut
  exact Prod.ext (List.append_cancel_left cut.1) cut.2

theorem segment_of_tag {rest inside behind : List Char}
    (starts : Head.startsTag ('<' :: rest) = true)
    (found : Head.findEnd? .start rest = some (inside, behind)) :
    Segment (Piece.ofInside inside).written ⟨[Piece.ofInside inside], none⟩ := by
  rw [written_ofInside]
  refine .tag ?_ (Head.findEnd?_inside found [])
  obtain ⟨c, text, rfl, solid⟩ := Head.exists_of_startsTag starts found
  exact solid

theorem forall_mem_addText {run : List Char} {pieces : Pieces} {holds : Piece → Prop}
    (text : trim run ≠ [] → holds (.text (trim run)))
    (others : ∀ piece ∈ pieces.whole, holds piece) :
    ∀ piece ∈ (addText run pieces).whole, holds piece := by
  by_cases solid : trim run = []
  · rw [addText, flush, List.reverse_reverse, solid]
    exact others
  · rw [addText_of_solid solid]
    exact List.forall_mem_cons.mpr ⟨text solid, others⟩

theorem unfinished_addText (run : List Char) (pieces : Pieces) :
    (addText run pieces).unfinished = pieces.unfinished := by
  unfold addText flush
  split <;> rfl

theorem trim_within (text : List Char) : trim text <:+: text := by
  obtain ⟨before, after, -, -, shape⟩ := exists_trim text
  exact ⟨before, after, shape.symm⟩

theorem behind_suffix {run rest inside behind : List Char}
    (found : Head.findEnd? .start rest = some (inside, behind)) :
    behind <:+ run ++ '<' :: rest := by
  rw [Head.append_of_findEnd? found]
  exact ⟨run ++ '<' :: inside ++ ['>'], by simp⟩

/-- Every piece stands in the text as it is written, and is a segment there. -/
theorem Reads.whole {text : List Char} {pieces : Pieces} (reads : Reads text pieces) :
    ∀ piece ∈ pieces.whole, piece.written <:+: text ∧ Segment piece.written ⟨[piece], none⟩ := by
  induction reads with
  | @text run alone =>
      have found : beforeTag 0 (run ++ []) = (run, []) := by rwa [List.append_nil]
      exact forall_mem_addText (fun solid => ⟨trim_within run, segment_of_run found solid⟩)
        (by simp)
  | @tag run rest inside behind pieces found starts ended _ inductionHypothesis =>
      have runWithin : trim run <:+: run ++ '<' :: rest :=
        (trim_within run).trans (List.prefix_append ..).isInfix
      refine forall_mem_addText (fun solid => ⟨runWithin, segment_of_run found solid⟩) ?_
      refine List.forall_mem_cons.mpr ⟨⟨?_, segment_of_tag starts ended⟩, fun piece later => ?_⟩
      · rw [written_ofInside, Head.append_of_findEnd? ended]
        exact ⟨run, behind, by simp⟩
      · obtain ⟨within, segment⟩ := inductionHypothesis piece later
        exact ⟨within.trans (behind_suffix ended).isInfix, segment⟩
  | @unfinished run rest found _ _ =>
      have runWithin : trim run <:+: run ++ '<' :: rest :=
        (trim_within run).trans (List.prefix_append ..).isInfix
      exact forall_mem_addText (fun solid => ⟨runWithin, segment_of_run found solid⟩) (by simp)

theorem Reads.unfinished_tag {text tag : List Char} {pieces : Pieces}
    (reads : Reads text pieces) (found : pieces.unfinished = some tag) :
    tag <:+ text ∧ Segment tag ⟨[], some tag⟩ := by
  induction reads with
  | text _ => simp [unfinished_addText] at found
  | tag _ _ ended _ inductionHypothesis =>
      rw [unfinished_addText] at found
      obtain ⟨within, segment⟩ := inductionHypothesis found
      exact ⟨within.trans (behind_suffix ended), segment⟩
  | unfinished _ starts ended =>
      rw [unfinished_addText, Option.some.injEq] at found
      rw [← found]
      exact ⟨List.suffix_append .., .unfinished starts ended⟩

theorem Segment.ofText {text : List Char} {pieces : Pieces} (segment : Segment text pieces) :
    ofText text = pieces := by
  cases segment with
  | text solid trimmed alone =>
      have isSolid : trim text ≠ [] := by rwa [trimmed]
      have piece := addText_of_solid isSolid ⟨[], none⟩
      rw [trimmed] at piece
      rw [Pieces.ofText, split_eq, alone]
      simp only [List.append_nil]
      exact piece
  | tag starts ended =>
      rw [Pieces.ofText, split_eq, beforeTag_of_startsTag starts]
      simp only [List.cons_append, ended, Pieces.split]
      rfl
  | unfinished starts ended =>
      rw [Pieces.ofText, split_eq, beforeTag_of_startsTag starts]
      simp only [ended]
      rfl

theorem Segment.segments {text : List Char} {pieces : Pieces} (segment : Segment text pieces) :
    pieces.segments = [text] := by
  cases segment with
  | text _ _ _ => rfl
  | tag _ _ => exact congrArg ([·]) (written_ofInside _)
  | unfinished _ _ => rfl

theorem segment_of_mem_segments {text segment : List Char}
    (membership : segment ∈ (ofText text).segments) :
    segment <:+: text ∧ Segment segment (ofText segment) := by
  have reads := reads_ofText text
  rcases List.mem_append.mp membership with written | unfinished
  · obtain ⟨piece, whole, rfl⟩ := List.mem_map.mp written
    obtain ⟨within, stable⟩ := reads.whole piece whole
    rw [stable.ofText]
    exact ⟨within, stable⟩
  · obtain ⟨within, stable⟩ := reads.unfinished_tag (Option.mem_toList.mp unfinished)
    rw [stable.ofText]
    exact ⟨within.isInfix, stable⟩

theorem head?_segment {text : List Char} {pieces : Pieces} (segment : Segment text pieces)
    {c : Char} (first : text.head? = some c) : isBlank c = false := by
  have bracket : isBlank '<' = false := by decide
  cases segment with
  | text _ trimmed _ =>
      rw [← trimmed] at first
      exact head?_trim first
  | tag _ _ => exact Option.some.inj first ▸ bracket
  | unfinished _ _ => exact Option.some.inj first ▸ bracket

/-- A segment that is a piece is trimmed and not empty. -/
theorem Segment.trimmed {text : List Char} {pieces : Pieces} (segment : Segment text pieces)
    (whole : pieces.unfinished = none) : text ≠ [] ∧ trim text = text := by
  have ending : isBlank '>' = false := by decide
  refine ⟨?_, trim_eq_self (fun c first => head?_segment segment first) (fun c last => ?_)⟩
  · cases segment with
    | text solid _ _ => exact solid
    | tag _ _ => simp
    | unfinished _ _ => simp
  · cases segment with
    | text _ trimmed _ =>
        rw [← trimmed] at last
        exact getLast?_trim last
    | tag _ _ =>
        rw [List.getLast?_concat] at last
        exact Option.some.inj last ▸ ending
    | unfinished _ _ => simp at whole

/-- The segments of a trimmed line are trimmed and not empty. -/
theorem trim_of_mem_segments {text segment : List Char}
    (membership : segment ∈ (ofText (trim text)).segments) :
    segment ≠ [] ∧ trim segment = segment := by
  have reads := reads_ofText (trim text)
  rcases List.mem_append.mp membership with written | unfinished
  · obtain ⟨piece, whole, rfl⟩ := List.mem_map.mp written
    exact (reads.whole piece whole).2.trimmed rfl
  · have found := Option.mem_toList.mp unfinished
    obtain ⟨⟨before, shape⟩, stable⟩ := reads.unfinished_tag found
    have nonempty : segment ≠ [] := by
      rintro rfl
      cases stable
    refine ⟨nonempty, trim_eq_self (fun c first => head?_segment stable first) (fun c last => ?_)⟩
    apply getLast?_trim
    rw [← shape, List.getLast?_append_of_ne_nil _ nonempty]
    exact last

end Pieces

end ScreenCompiler
