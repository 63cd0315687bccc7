import ScreenCompiler.Proofs.Document.MarkupLines
import ScreenCompiler.Proofs.Text.Braces

/-!
# The segments of a line

Splitting a line loses nothing but blanks: its segments stand in it one after the other,
with gaps of blanks around them.  A group in braces within a run of text stays in one
segment, whatever tags are in it.
-/

namespace ScreenCompiler.Pieces

open Text

/-- Segments stand in a text in order, apart from each other, and only blanks are around them. -/
inductive LaidOut : List (List Char) → List Char → Prop where
  | done {gap} : isAllBlank gap = true → LaidOut [] gap
  | next {gap segment segments rest} :
      isAllBlank gap = true → LaidOut segments rest →
      LaidOut (segment :: segments) (gap ++ segment ++ rest)

namespace LaidOut

variable {segments later : List (List Char)} {text rest : List Char}

theorem append_gap {gap : List Char} (blank : isAllBlank gap = true)
    (laidOut : LaidOut segments text) : LaidOut segments (gap ++ text) := by
  cases laidOut with
  | done isBlank =>
      refine .done ?_
      rw [isAllBlank_append, blank, isBlank]
      rfl
  | @next inner segment segments rest isBlank laidOut =>
      rw [← List.append_assoc, ← List.append_assoc]
      refine .next ?_ laidOut
      rw [isAllBlank_append, blank, isBlank]
      rfl

theorem append (laidOut : LaidOut segments text) (behind : LaidOut later rest) :
    LaidOut (segments ++ later) (text ++ rest) := by
  induction laidOut with
  | done blank => exact behind.append_gap blank
  | next blank _ inductionHypothesis =>
      rw [List.append_assoc]
      exact .next blank inductionHypothesis

theorem single (segment : List Char) : LaidOut [segment] segment := by
  have alone : LaidOut [segment] ([] ++ segment ++ []) := .next rfl (.done rfl)
  rwa [List.nil_append, List.append_nil] at alone

end LaidOut

/-- The segment of a run of text, unless it is blank. -/
def textSegments (run : List Char) : List (List Char) :=
  if trim run = [] then [] else [trim run]

theorem segments_addText (run : List Char) (pieces : Pieces) :
    (addText run pieces).segments = textSegments run ++ pieces.segments := by
  by_cases solid : trim run = []
  · rw [addText_of_isAllBlank (isAllBlank_of_trim_eq_nil solid), textSegments, if_pos solid]
    rfl
  · rw [addText_of_solid solid, textSegments, if_neg solid]
    rfl

theorem laidOut_textSegments (run : List Char) : LaidOut (textSegments run) run := by
  by_cases solid : trim run = []
  · rw [textSegments, if_pos solid]
    exact .done (isAllBlank_of_trim_eq_nil solid)
  · obtain ⟨before, after, blankBefore, blankAfter, shape⟩ := exists_trim run
    rw [textSegments, if_neg solid]
    conv_rhs => rw [shape]
    exact .next blankBefore (.done blankAfter)

theorem Reads.laidOut {text : List Char} {pieces : Pieces} (reads : Reads text pieces) :
    LaidOut pieces.segments text := by
  induction reads with
  | @text run _ =>
      rw [segments_addText]
      simpa [segments] using laidOut_textSegments run
  | @tag run rest inside behind pieces _ _ ended _ inductionHypothesis =>
      have tag := (LaidOut.single ('<' :: inside ++ ['>'])).append inductionHypothesis
      rw [segments_addText, Head.append_of_findEnd? ended]
      refine (laidOut_textSegments run).append ?_
      simpa [segments, cons, written_ofInside] using tag
  | @unfinished run rest _ _ _ =>
      rw [segments_addText]
      exact (laidOut_textSegments run).append (LaidOut.single _)

/-- One of the segments of a text, with what stands in front of it and behind it. -/
def IsSegmentAt (segments : List (List Char)) (text before segment after : List Char) : Prop :=
  text = before ++ segment ++ after ∧
    ∃ earlier later, segments = earlier ++ segment :: later ∧
      LaidOut earlier before ∧ LaidOut later after

/-- How many characters are solid.  Gaps are blank, so a place between segments is known by the
solid characters in front of it. -/
def solidCount (text : List Char) : Nat :=
  text.countP (!isBlank ·)

theorem solidCount_append (first second : List Char) :
    solidCount (first ++ second) = solidCount first + solidCount second :=
  List.countP_append

theorem solidCount_cons {c : Char} (solid : isBlank c = false) (text : List Char) :
    solidCount (c :: text) = solidCount text + 1 := by
  rw [solidCount, List.countP_cons_of_pos (by rw [solid]; rfl), solidCount]

theorem solidCount_of_isAllBlank {gap : List Char} (blank : isAllBlank gap = true) :
    solidCount gap = 0 :=
  List.countP_eq_zero.mpr fun c membership => by simp [isAllBlank_iff.mp blank c membership]

theorem LaidOut.solidCount_eq {segments : List (List Char)} {text : List Char}
    (laidOut : LaidOut segments text) : solidCount text = solidCount segments.flatten := by
  induction laidOut with
  | done blank => exact solidCount_of_isAllBlank blank
  | next blank _ inductionHypothesis =>
      rw [solidCount_append, solidCount_append, solidCount_of_isAllBlank blank, Nat.zero_add,
        inductionHypothesis, List.flatten_cons, solidCount_append]

/-- Of two segments of a text, the second does not start within the first. -/
theorem IsSegmentAt.apart {segments : List (List Char)}
    {text before segment after front second behind : List Char}
    (first : IsSegmentAt segments text before segment after)
    (other : IsSegmentAt segments text front second behind) :
    solidCount front ≤ solidCount before ∨
      solidCount before + solidCount segment ≤ solidCount front := by
  obtain ⟨-, earlier, later, whole, laidOut, -⟩ := first
  obtain ⟨-, otherEarlier, otherLater, same, otherLaidOut, -⟩ := other
  rw [laidOut.solidCount_eq, otherLaidOut.solidCount_eq]
  rw [whole] at same
  rcases List.append_eq_append_iff.mp same with ⟨between, rfl, shape⟩ | ⟨between, rfl, -⟩
  · cases between with
    | nil => exact .inl (by rw [List.append_nil])
    | cons found between =>
        obtain ⟨rfl, -⟩ := List.cons.inj shape
        refine .inr ?_
        rw [List.flatten_append, List.flatten_cons, solidCount_append, solidCount_append]
        omega
  · refine .inl ?_
    rw [List.flatten_append, solidCount_append]
    omega

theorem startsTag_cons_append (c d : Char) (text more : List Char) :
    Head.startsTag (c :: d :: (text ++ more)) = Head.startsTag (c :: d :: text) := by
  by_cases bracket : c = '<'
  · subst bracket
    rfl
  · rw [Head.startsTag_cons_of_ne bracket, Head.startsTag_cons_of_ne bracket]

/-- A run of text goes on over a brace behind it. -/
theorem beforeTag_append_brace {depth : Nat} {front : List Char}
    (alone : beforeTag depth front = (front, [])) (rest : List Char) :
    beforeTag depth (front ++ '{' :: rest) =
      (beforeTag (front.foldl textDepth depth) ('{' :: rest)).map (front ++ ·) id := by
  induction front generalizing depth with
  | nil => rfl
  | cons c front inductionHypothesis =>
      rw [beforeTag] at alone
      split at alone
      · simp at alone
      · rename_i goesOn
        have stays : ¬(depth = 0 ∧ Head.startsTag (c :: (front ++ '{' :: rest)) = true) := by
          rintro ⟨zero, starts⟩
          cases front with
          | nil =>
              obtain ⟨d, more, shape, solid⟩ := Head.startsTag_iff.mp starts
              obtain rfl : '{' = d := (List.cons.inj (List.cons.inj shape).2).1
              exact absurd solid (by decide)
          | cons d front =>
              rw [List.cons_append, startsTag_cons_append] at starts
              exact goesOn ⟨zero, starts⟩
        simp only [Prod.mk.injEq, List.cons.injEq, true_and] at alone
        rw [List.cons_append, beforeTag, if_neg stays,
          inductionHypothesis (Prod.ext alone.1 alone.2)]
        rfl

/-- No tag is read while a brace around it is open. -/
theorem beforeTag_inside {depth last : Nat} {inner : List Char}
    (balanced : braceDepth? depth inner = some last) (outer : Nat) (rest : List Char) :
    beforeTag (outer + 1 + depth) (inner ++ rest) =
      (beforeTag (outer + 1 + last) rest).map (inner ++ ·) id := by
  induction inner generalizing depth with
  | nil =>
      obtain rfl : depth = last := Option.some.inj balanced
      rfl
  | cons c inner inductionHypothesis =>
      have inside : ¬(outer + 1 + depth = 0 ∧ Head.startsTag (c :: (inner ++ rest)) = true) := by
        omega
      rw [List.cons_append, beforeTag, if_neg inside]
      rw [braceDepth?] at balanced
      split at balanced
      · rename_i opening
        have deeper : textDepth (outer + 1 + depth) c = outer + 1 + (depth + 1) := by
          rw [textDepth, if_pos opening, Nat.add_assoc]
        rw [deeper, inductionHypothesis balanced]
        rfl
      · rename_i opening
        split at balanced
        · rename_i closing
          obtain ⟨some, balanced⟩ := Option.ite_none_left_eq_some.mp balanced
          have shallower : textDepth (outer + 1 + depth) c = outer + 1 + (depth - 1) := by
            rw [textDepth, if_neg opening, if_pos closing]
            omega
          rw [shallower, inductionHypothesis balanced]
          rfl
        · rename_i closing
          have same : textDepth (outer + 1 + depth) c = outer + 1 + depth := by
            rw [textDepth, if_neg opening, if_neg closing]
          rw [same, inductionHypothesis balanced]
          rfl

theorem beforeTag_group {inner : List Char} (balanced : HasBalancedBraces inner) (depth : Nat)
    (back : List Char) :
    beforeTag depth ('{' :: (inner ++ '}' :: back)) =
      (beforeTag depth back).map (fun run => '{' :: (inner ++ '}' :: run)) id := by
  have noOpening : ¬(depth = 0 ∧ Head.startsTag ('{' :: (inner ++ '}' :: back)) = true) := by
    simp [Head.startsTag_cons_of_ne]
  have noClosing : ¬(depth + 1 = 0 ∧ Head.startsTag ('}' :: back) = true) := by omega
  have inside := beforeTag_inside (hasBalancedBraces_iff.mp balanced) depth ('}' :: back)
  have opened : textDepth depth '{' = depth + 1 + 0 := rfl
  have closed : textDepth (depth + 1) '}' = depth := rfl
  rw [beforeTag, if_neg noOpening, opened, inside, Nat.add_zero, beforeTag, if_neg noClosing,
    closed]
  rfl

/-- The first tag of a text is its first tag when more text follows. -/
theorem beforeTag_append_of_tag {depth : Nat} {text run tag : List Char}
    (found : beforeTag depth text = (run, tag)) (starts : Head.startsTag tag = true)
    (more : List Char) : beforeTag depth (text ++ more) = (run, tag ++ more) := by
  induction text generalizing depth run with
  | nil =>
      obtain rfl : [] = tag := (Prod.mk.inj found).2
      exact absurd starts Bool.false_ne_true
  | cons c text inductionHypothesis =>
      rw [beforeTag] at found
      rw [List.cons_append, beforeTag]
      split at found
      · rename_i here
        obtain ⟨rfl, rfl⟩ := Prod.mk.inj found
        rw [if_pos ⟨here.1, Head.startsTag_of_append more here.2⟩, List.cons_append]
      · rename_i goesOn
        obtain ⟨rfl, rfl⟩ := Prod.mk.inj found
        have stays : ¬(depth = 0 ∧ Head.startsTag (c :: (text ++ more)) = true) := by
          rintro ⟨zero, here⟩
          cases text with
          | nil => exact absurd starts Bool.false_ne_true
          | cons d text =>
              rw [List.cons_append, startsTag_cons_append] at here
              exact goesOn ⟨zero, here⟩
        rw [if_neg stays, inductionHypothesis rfl]

theorem ofText_eq_addText (text : List Char) :
    ofText text = addText (beforeTag 0 text).1 (ofText (beforeTag 0 text).2) := by
  have alone : beforeTag 0 (beforeTag 0 text).2 = ([], (beforeTag 0 text).2) := by
    rcases beforeTag_behind 0 text with empty | ⟨rest, tag, starts⟩
    · rw [empty]
      rfl
    · rw [tag]
      exact beforeTag_of_startsTag starts
  rw [ofText, split_eq, ofText, split_eq 0 [] (beforeTag 0 text).2, alone]
  simp only [List.append_nil, List.reverse_nil]
  rw [addText]
  rfl

theorem ofText_of_tag {rest inside behind : List Char}
    (starts : Head.startsTag ('<' :: rest) = true)
    (found : Head.findEnd? .start rest = some (inside, behind)) :
    ofText ('<' :: rest) = (ofText behind).cons (Piece.ofInside inside) := by
  rw [ofText, split_eq, beforeTag_of_startsTag starts]
  simp only [found]
  rfl

theorem IsSegmentAt.prepend {front text before segment after : List Char}
    {inFront segments : List (List Char)} (laidOut : LaidOut inFront front)
    (isSegment : IsSegmentAt segments text before segment after) :
    IsSegmentAt (inFront ++ segments) (front ++ text) (front ++ before) segment after := by
  obtain ⟨rfl, earlier, later, rfl, before, behind⟩ := isSegment
  refine ⟨by simp, inFront ++ earlier, later, ?_, laidOut.append before, behind⟩
  rw [List.append_assoc]

theorem textSegments_append_group (front inner behind : List Char) :
    textSegments (front ++ '{' :: (inner ++ '}' :: behind)) =
      [trimStart front ++ '{' :: (inner ++ '}' :: trimEnd behind)] := by
  have opening : isBlank '{' = false := by decide
  have closing : isBlank '}' = false := by decide
  have trimmed : trim (front ++ '{' :: (inner ++ '}' :: behind)) =
      trimStart front ++ '{' :: (inner ++ '}' :: trimEnd behind) := by
    have ending := trimEnd_append_cons closing (trimStart front ++ '{' :: inner) behind
    rw [List.append_assoc, List.append_assoc, List.cons_append, List.cons_append] at ending
    rw [trim, trimStart_append_cons opening, ending]
  rw [textSegments, trimmed, if_neg (by simp)]

theorem IsSegmentAt.of_run {front inner : List Char} (alone : beforeTag 0 front = (front, []))
    (balanced : HasBalancedBraces inner) (back : List Char) :
    ∃ before ahead behind after, front = before ++ ahead ∧ back = behind ++ after ∧
      IsSegmentAt (ofText (front ++ '{' :: (inner ++ '}' :: back))).segments
        (front ++ '{' :: (inner ++ '}' :: back)) before
        (ahead ++ '{' :: (inner ++ '}' :: behind)) after := by
  have whole := beforeTag_append_brace alone (inner ++ '}' :: back)
  rw [beforeTag_group balanced] at whole
  have rejoined := beforeTag_append (front.foldl textDepth 0) back
  generalize beforeTag (front.foldl textDepth 0) back = parts at whole rejoined
  obtain ⟨run, tag⟩ := parts
  obtain ⟨gap, blank, inFront⟩ := exists_append_trimStart front
  obtain ⟨gapBehind, blankBehind, atEnd⟩ := exists_trimEnd_append run
  have shape : back = trimEnd run ++ (gapBehind ++ tag) := by
    rw [← List.append_assoc, ← atEnd, rejoined]
  refine ⟨gap, trimStart front, trimEnd run, gapBehind ++ tag, inFront, shape, ?_,
    [], (ofText tag).segments, ?_, .done blank, (reads_ofText tag).laidOut.append_gap blankBehind⟩
  · conv_lhs => rw [inFront, shape]
    simp
  · rw [ofText_eq_addText, whole]
    simp only [Prod.map_fst, Prod.map_snd, id]
    rw [segments_addText, textSegments_append_group]
    rfl

theorem IsSegmentAt.of_tag {run rest inside behind more before segment after : List Char}
    (found : beforeTag 0 (run ++ '<' :: rest) = (run, '<' :: rest))
    (starts : Head.startsTag ('<' :: rest) = true)
    (ended : Head.findEnd? .start rest = some (inside, behind))
    (isSegment : IsSegmentAt (ofText (behind ++ more)).segments (behind ++ more) before segment
      after) :
    IsSegmentAt (ofText (run ++ '<' :: rest ++ more)).segments (run ++ '<' :: rest ++ more)
      (run ++ ('<' :: inside ++ ['>']) ++ before) segment after := by
  have first := beforeTag_append_of_tag found starts more
  have tag : ofText ('<' :: (rest ++ more)) =
      (ofText (behind ++ more)).cons (Piece.ofInside inside) := by
    refine ofText_of_tag (Head.startsTag_of_append more starts) ?_
    rw [Head.append_of_findEnd? ended, List.append_assoc]
    exact Head.findEnd?_inside ended (behind ++ more)
  have whole : (ofText (run ++ '<' :: rest ++ more)).segments =
      textSegments run ++ ['<' :: inside ++ ['>']] ++ (ofText (behind ++ more)).segments := by
    rw [ofText_eq_addText, first, List.cons_append, tag, segments_addText]
    simp [segments, cons, written_ofInside]
  have shape :
      run ++ '<' :: rest ++ more = run ++ ('<' :: inside ++ ['>']) ++ (behind ++ more) := by
    rw [Head.append_of_findEnd? ended]
    simp
  rw [whole, shape]
  exact isSegment.prepend ((laidOut_textSegments run).append (.single _))

/-- A group in braces that stands in a run of text is inside of one segment. -/
theorem Reads.exists_around {front inner : List Char} {pieces : Pieces} (reads : Reads front pieces)
    (text : pieces.unfinished = none) (balanced : HasBalancedBraces inner) (back : List Char) :
    ∃ before ahead behind after, front = before ++ ahead ∧ back = behind ++ after ∧
      IsSegmentAt (ofText (front ++ '{' :: (inner ++ '}' :: back))).segments
        (front ++ '{' :: (inner ++ '}' :: back)) before
        (ahead ++ '{' :: (inner ++ '}' :: behind)) after := by
  induction reads with
  | text alone => exact IsSegmentAt.of_run alone balanced back
  | @tag run rest inside behind pieces found starts ended _ inductionHypothesis =>
      rw [unfinished_addText] at text
      obtain ⟨before, ahead, last, after, shape, shapeBack, around⟩ := inductionHypothesis text
      refine ⟨_, ahead, last, after, ?_, shapeBack, .of_tag found starts ended around⟩
      rw [Head.append_of_findEnd? ended, shape]
      simp
  | unfinished => simp [unfinished_addText] at text

/-- The segments that a text falls into. -/
structure IsSegmentation (text : List Char) (segments : List (List Char)) : Prop where
  laidOut : LaidOut segments text
  solid : ∀ segment ∈ segments, segment ≠ []
  stable : ∀ segment ∈ segments, (ofText segment).segments = [segment]
  /-- No head but the last is left open, and nothing stands behind its end. -/
  complete : ∀ segment ∈ segments.dropLast, Head.isHead segment = true →
    ∃ head, Head.read? segment = some (head, [])
  /-- Where no tag is open in front of it, a group in braces belongs to a run of text.  No segment
  starts between its braces, a tag there as little as anything else. -/
  braced : ∀ front inner back, text = front ++ '{' :: (inner ++ '}' :: back) →
    (ofText front).unfinished = none → HasBalancedBraces inner →
      ∀ ahead behind, inner = ahead ++ behind →
        ∀ segment after, ¬IsSegmentAt segments text (front ++ '{' :: ahead) segment after

theorem Segment.ne_nil {text : List Char} {pieces : Pieces} (segment : Segment text pieces) :
    text ≠ [] := by
  cases segment with
  | text solid _ _ => exact solid
  | tag _ _ => exact List.cons_ne_nil _ _
  | unfinished _ _ => exact List.cons_ne_nil _ _

theorem mem_whole_of_mem_dropLast {pieces : Pieces} {segment : List Char}
    (membership : segment ∈ pieces.segments.dropLast) :
    ∃ piece ∈ pieces.whole, piece.written = segment := by
  rw [← List.mem_map]
  cases found : pieces.unfinished with
  | none =>
      rw [segments, found, Option.toList_none, List.append_nil] at membership
      exact List.dropLast_subset _ membership
  | some tag =>
      rw [segments, found, Option.toList_some, List.dropLast_concat] at membership
      exact membership

theorem not_isSegmentAt_of_group {front inner back : List Char}
    (text : (ofText front).unfinished = none) (balanced : HasBalancedBraces inner)
    {ahead behind : List Char} (within : inner = ahead ++ behind) (segment after : List Char) :
    ¬IsSegmentAt (ofText (front ++ '{' :: (inner ++ '}' :: back))).segments
      (front ++ '{' :: (inner ++ '}' :: back)) (front ++ '{' :: ahead) segment after := by
  intro starts
  obtain ⟨before, beginning, ending, last, rfl, rfl, around⟩ :=
    (reads_ofText front).exists_around text balanced back
  have opening : isBlank '{' = false := by decide
  have closing : isBlank '}' = false := by decide
  have apart := around.apart starts
  rw [within] at apart
  simp only [solidCount_append, solidCount_cons opening, solidCount_cons closing] at apart
  omega

theorem isSegmentation_ofText (text : List Char) :
    IsSegmentation text (ofText text).segments where
  laidOut := (reads_ofText text).laidOut
  solid _ membership := (segment_of_mem_segments membership).2.ne_nil
  stable _ membership := (segment_of_mem_segments membership).2.segments
  complete segment membership isHead := by
    obtain ⟨piece, whole, rfl⟩ := mem_whole_of_mem_dropLast membership
    exact ((reads_ofText text).whole piece whole).2.exists_read? isHead
  braced front inner back shape isText balanced ahead behind within segment after := by
    subst shape
    exact not_isSegmentAt_of_group isText balanced within segment after

example : (ofText "<A>To \x7b<B/>\x7d </A> <C p='>".toList).segments =
    ["<A>".toList, "To \x7b<B/>\x7d".toList, "</A>".toList, "<C p='>".toList] := by
  decide +kernel

end ScreenCompiler.Pieces
