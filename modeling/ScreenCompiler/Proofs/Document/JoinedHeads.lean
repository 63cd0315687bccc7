import ScreenCompiler.Proofs.Document.SpacedHeads

/-!
# Tag heads over several lines

A head that does not end in its line is joined with the next.  Line feeds in the gaps of a
head make it go on like that up to its end, since no part of a head ends it early, and
what is joined differs from the head on one line in the width of its gaps only.
-/

namespace ScreenCompiler

open Text

namespace Text

theorem splitOn_append_flat {mark : Char} {front : List Char} (flat : mark ∉ front)
    (rest : List Char) :
    (front ++ rest).splitOn mark = (rest.splitOn mark).modifyHead (front ++ ·) := by
  induction front with
  | nil => exact (List.modifyHead_id).symm ▸ rfl
  | cons c front inductionHypothesis =>
      rw [List.mem_cons, not_or] at flat
      have other : (c == mark) = false := beq_eq_false_iff_ne.mpr (Ne.symm flat.1)
      rw [List.cons_append, List.splitOn_cons_eq_if_modifyHead, other, inductionHypothesis flat.2]
      simp [List.modifyHead_modifyHead, Function.comp_def]

/-- The last line feed of a text. -/
theorem exists_last_feed {text : List Char} (feed : '\n' ∈ text) :
    ∃ upper lower, text = upper ++ '\n' :: lower ∧ '\n' ∉ lower := by
  obtain ⟨front, back, shape, flat⟩ := List.eq_append_cons_of_mem (List.mem_reverse.mpr feed)
  refine ⟨back.reverse, front.reverse, ?_, by simpa using flat⟩
  have turned := congrArg List.reverse shape
  simpa using turned

theorem unlines_splitOn_append (text : List Char) (below : List (List Char)) :
    unlines (text.splitOn '\n' ++ below) = unlines (text :: below) := by
  obtain ⟨init, last, pieces, -⟩ := exists_splitOn_eq_concat text
  have whole : text = init.flatMap (· ++ ['\n']) ++ last := by
    conv_lhs => rw [← unlines_splitOn text, pieces, unlines_append init (List.cons_ne_nil last [])]
    simp [unlines]
  conv_rhs => rw [whole, ← List.append_nil last, ← List.append_assoc, unlines_append_cons,
    List.append_assoc, ← unlines_append_cons, List.append_nil]
  rw [pieces, List.append_assoc, List.singleton_append,
    unlines_append init (List.cons_ne_nil last below)]

theorem infix_of_mem_splitOn {text part : List Char} (membership : part ∈ text.splitOn '\n') :
    part <:+: text := by
  obtain ⟨above, below, pieces⟩ := List.append_of_mem membership
  refine ⟨above.flatMap (· ++ ['\n']), unlines ([] :: below), ?_⟩
  conv_rhs =>
    rw [← unlines_splitOn text, pieces, unlines_append above (List.cons_ne_nil part below),
      ← List.append_nil part, unlines_append_cons]
  rw [List.append_assoc]

end Text

theorem Line.numbered_of_isAllBlank {raws : List (List Char)}
    (blank : ∀ raw ∈ raws, isAllBlank raw = true) (number : Nat) : numbered number raws = [] := by
  induction raws generalizing number with
  | nil => rfl
  | cons raw raws inductionHypothesis =>
      obtain ⟨isBlank, blank⟩ := List.forall_mem_cons.mp blank
      have empty : trim raw = [] := congrArg trimEnd (trimStart_of_isAllBlank isBlank)
      rw [numbered, empty, inductionHypothesis blank]
      rfl

namespace Continued

/-- A head that may end in a text, or goes on over the lines below. -/
def start (text : List Char) (lines : List Line) : Continued :=
  match Head.read? text with
  | some (head, rest) => complete head rest lines
  | none => read text lines

/-- A head that goes on with the first line of a text, joined to what there is of it. -/
def across (joined : List Char) (number : Nat) (text : List Char) (below : List Line) : Continued :=
  start (joined ++ trim ((text.splitOn '\n').headD []))
    (Line.numbered (number + 1) (text.splitOn '\n').tail ++ below)

variable {below : List Line}

theorem read_cons {text : List Char} {next : Line} {lines : List Line}
    (closed : Head.endsInOpenQuote text = false) (plain : startsStructure next.text = false) :
    read text (next :: lines) = start (text ++ ' ' :: next.text) lines := by
  rw [read, closed, plain]
  rfl

theorem across_flat {text : List Char} (flat : '\n' ∉ text) (joined : List Char) (number : Nat) :
    across joined number text below = start (joined ++ trim text) below := by
  rw [across, splitOn_of_notMem flat]
  rfl

/-- How far a head is: some lines of it, joined, and a part of the next one. -/
structure IsUnderway (joined indent part inside : List Char) : Prop where
  soFar : joined ++ part = '<' :: inside
  quiet : Head.Quiet inside
  solid : HasSolidEnds part
  flat : '\n' ∉ part
  isIndent : IsMargin indent

variable {joined indent part inside gap word : List Char}

namespace IsUnderway

/-- A word is added to the line. -/
theorem add (underway : IsUnderway joined indent part inside) (isGap : IsMargin gap)
    (isWord : Head.IsWord word) :
    IsUnderway joined indent (part ++ (gap ++ word)) (inside ++ (gap ++ word)) where
  soFar := by rw [← List.append_assoc, underway.soFar, List.cons_append]
  quiet := underway.quiet.append ((quiet_of_isAllBlank isGap.blank).append isWord.quiet)
  solid := underway.solid.append gap isWord.solid
  flat := by simp [underway.flat, isGap.flat, isWord.flat]
  isIndent := underway.isIndent

/-- A word starts the next line. -/
theorem turn (underway : IsUnderway joined indent part inside) {lower : List Char}
    (isLower : IsMargin lower) (isWord : Head.IsWord word) :
    IsUnderway (joined ++ (part ++ [' '])) lower word (inside ++ ([' '] ++ word)) where
  soFar := by
    rw [← List.append_assoc joined, underway.soFar]
    simp
  quiet := underway.quiet.append ((quiet_of_isAllBlank (by decide)).append isWord.quiet)
  solid := isWord.solid
  flat := isWord.flat
  isIndent := isLower

end IsUnderway

/-- Where a gap holds line feeds, the text behind it is joined with a single blank. -/
theorem across_gap {rest : List Char} {c : Char}
    (underway : IsUnderway joined indent part inside) (blank : isAllBlank gap = true)
    (feed : '\n' ∈ gap) (first : rest.head? = some c) (solidRest : isBlank c = false)
    (goesOn : SpacedHead.GoesOn (indent ++ (part ++ (gap ++ rest)))) (number : Nat) :
    ∃ lower later, IsMargin lower ∧ SpacedHead.GoesOn (lower ++ rest) ∧
      across joined number (indent ++ (part ++ (gap ++ rest))) below =
        across (joined ++ (part ++ [' '])) later (lower ++ rest) below := by
  obtain ⟨rest, rfl⟩ := List.head?_eq_some_iff.mp first
  obtain ⟨upper, lower, rfl, flatLower⟩ := exists_last_feed feed
  obtain ⟨blankUpper, blankLower⟩ : isAllBlank upper = true ∧ isAllBlank lower = true := by
    rw [isAllBlank_append, Bool.and_eq_true, isAllBlank_cons] at blank
    exact ⟨blank.1, blank.2.2⟩
  obtain ⟨first, others, upperLines⟩ := List.exists_cons_of_ne_nil (List.splitOn_ne_nil '\n' upper)
  obtain ⟨raw, more, lowerLines⟩ :=
    List.exists_cons_of_ne_nil (List.splitOn_ne_nil '\n' (lower ++ c :: rest))
  have blankLines : ∀ line ∈ first :: others, isAllBlank line = true := by
    intro line membership
    rw [← upperLines] at membership
    exact isAllBlank_iff.mpr fun d within =>
      isAllBlank_iff.mp blankUpper d ((infix_of_mem_splitOn membership).subset within)
  obtain ⟨blankFirst, blankOthers⟩ := List.forall_mem_cons.mp blankLines
  have lines : (indent ++ (part ++ (upper ++ '\n' :: lower ++ c :: rest))).splitOn '\n' =
      (indent ++ (part ++ first)) :: (others ++ raw :: more) := by
    have shape : indent ++ (part ++ (upper ++ '\n' :: lower ++ c :: rest)) =
        (indent ++ (part ++ (upper ++ '\n' :: (lower ++ c :: rest)))) := by simp
    rw [shape, splitOn_append_flat underway.isIndent.flat, splitOn_append_flat underway.flat,
      List.splitOn_append_cons_self, upperLines, lowerLines]
    rfl
  rw [SpacedHead.GoesOn, lines, List.tail_cons] at goesOn
  have solidRaw : trim raw ≠ [] := by
    have noFeed : (c == '\n') = false := by
      rw [beq_eq_false_iff_ne]
      rintro rfl
      exact absurd (isBlank_newline.symm.trans solidRest) (by decide)
    rw [splitOn_append_flat flatLower, List.splitOn_cons_eq_if_modifyHead, noFeed] at lowerLines
    obtain ⟨front, behind, restLines⟩ := List.exists_cons_of_ne_nil (List.splitOn_ne_nil '\n' rest)
    rw [restLines] at lowerLines
    obtain ⟨rfl, -⟩ := List.cons.inj lowerLines
    intro empty
    have isBlank := isAllBlank_iff.mp (isAllBlank_of_trim_eq_nil empty) c (by simp)
    exact absurd (isBlank.symm.trans solidRest) (by decide)
  refine ⟨lower, number + 1 + others.length, ⟨blankLower, flatLower⟩, ?_, ?_⟩
  · intro line membership
    rw [lowerLines] at membership
    exact goesOn line (List.mem_append_right others (List.mem_cons_of_mem raw membership))
  · have numbered : Line.numbered (number + 1) (others ++ raw :: more) =
        ⟨number + 1 + others.length, raw⟩ ::
          Line.numbered (number + 1 + others.length + 1) more := by
      rw [Line.numbered_append, Line.numbered_of_isAllBlank blankOthers, Line.numbered]
      simp [solidRaw]
    have plain : startsStructure (trim raw) = false := goesOn raw (by simp)
    have longer : joined ++ (part ++ [' ']) ++ trim raw = '<' :: inside ++ ' ' :: trim raw := by
      rw [← underway.soFar]
      simp
    rw [across, across, lines, lowerLines, List.headD_cons, List.headD_cons, List.tail_cons,
      List.tail_cons, underway.solid.trim_eq underway.isIndent.blank blankFirst, underway.soFar,
      numbered, List.cons_append, longer, start, underway.quiet.read?_eq_none]
    exact read_cons underway.quiet.endsInOpenQuote plain

theorem across_ending {front margin : List Char} (soFar : joined ++ front = '<' :: inside)
    (quiet : Head.Quiet inside) (solid : HasSolidEnds (front ++ ['>'])) (flat : '\n' ∉ front)
    (isIndent : IsMargin indent) (isMargin : IsMargin margin) (number : Nat) :
    across joined number (indent ++ (front ++ '>' :: margin)) below =
      complete (Head.ofInside inside) [] below := by
  have flatLine : '\n' ∉ indent ++ (front ++ '>' :: margin) := by
    simp [isIndent.flat, flat, isMargin.flat]
  have trimmed : trim (indent ++ (front ++ '>' :: margin)) = front ++ ['>'] := by
    have solidLine := solid.trim_eq isIndent.blank isMargin.blank
    rwa [List.append_assoc, List.singleton_append] at solidLine
  rw [across_flat flatLine, trimmed, ← List.append_assoc, soFar, start, quiet.read?_ended]

/-- The end of a head behind a gap. -/
theorem across_last {lastGap margin : List Char} {selfClosing : Bool}
    (underway : IsUnderway joined indent part inside) (blank : isAllBlank lastGap = true)
    (isMargin : IsMargin margin)
    (goesOn : SpacedHead.GoesOn
      (indent ++ (part ++ (lastGap ++ (SpacedHead.slash selfClosing ++ '>' :: margin)))))
    (number : Nat) :
    ∃ spaced, isAllBlank spaced = true ∧
      across joined number
          (indent ++ (part ++ (lastGap ++ (SpacedHead.slash selfClosing ++ '>' :: margin)))) below =
        complete (Head.ofInside (inside ++ (spaced ++ SpacedHead.slash selfClosing))) [] below := by
  have quiet : Head.Quiet (SpacedHead.slash selfClosing) := by
    cases selfClosing
    · exact ⟨rfl, rfl⟩
    · exact Markup.quiet_slash
  have flat : '\n' ∉ SpacedHead.slash selfClosing := by
    cases selfClosing <;> decide
  have solid : HasSolidEnds (SpacedHead.slash selfClosing ++ ['>']) := by
    have mark : ∀ c ∈ ['>'], isBlank c = false := List.forall_mem_singleton.mpr (by decide)
    cases selfClosing
    · exact .of_all (by decide) mark
    · exact .of_all (by decide) (List.forall_mem_cons.mpr ⟨by decide, mark⟩)
  by_cases feed : '\n' ∈ lastGap
  · obtain ⟨c, first, isSolid⟩ : ∃ c,
        (SpacedHead.slash selfClosing ++ '>' :: margin).head? = some c ∧ isBlank c = false := by
      cases selfClosing
      · exact ⟨'>', rfl, by decide⟩
      · exact ⟨'/', rfl, by decide⟩
    obtain ⟨lower, later, isLower, -, turned⟩ :=
      across_gap underway blank feed first isSolid goesOn number
    refine ⟨[' '], by decide, ?_⟩
    rw [turned]
    apply across_ending _ _ solid flat isLower isMargin
    · rw [← List.append_assoc joined, underway.soFar]
      simp
    · exact underway.quiet.append ((quiet_of_isAllBlank (by decide)).append quiet)
  · refine ⟨lastGap, blank, ?_⟩
    have line : part ++ (lastGap ++ (SpacedHead.slash selfClosing ++ '>' :: margin)) =
        part ++ (lastGap ++ SpacedHead.slash selfClosing) ++ '>' :: margin := by simp
    rw [line]
    apply across_ending _ _ _ _ underway.isIndent isMargin
    · rw [← List.append_assoc, underway.soFar, List.cons_append]
    · exact underway.quiet.append ((quiet_of_isAllBlank blank).append quiet)
    · rw [List.append_assoc, List.append_assoc]
      exact underway.solid.append lastGap solid
    · simp [underway.flat, feed, flat]

/-- A head is read from the lines of its text as from one line, but for the width of its gaps. -/
theorem across_row {row : List (List Char × WrittenAttribute)} {lastGap margin : List Char}
    {selfClosing : Bool} (fits : ∀ entry ∈ row, entry.2.FitsHead)
    (gaps : ∀ entry ∈ row, isAllBlank entry.1 = true ∧ entry.1 ≠ [])
    (lastBlank : isAllBlank lastGap = true) (isMargin : IsMargin margin)
    (underway : IsUnderway joined indent part inside)
    (goesOn : SpacedHead.GoesOn
      (indent ++ (part ++ (SpacedHead.inside row lastGap selfClosing ++ '>' :: margin))))
    (number : Nat) (below : List Line) :
    ∃ spaced gap, spaced.map Prod.snd = row.map Prod.snd ∧
      (∀ entry ∈ spaced, isAllBlank entry.1 = true ∧ entry.1 ≠ []) ∧ isAllBlank gap = true ∧
      across joined number
          (indent ++ (part ++ (SpacedHead.inside row lastGap selfClosing ++ '>' :: margin))) below =
        complete (Head.ofInside (inside ++ SpacedHead.inside spaced gap selfClosing)) [] below := by
  induction row generalizing joined indent part inside number with
  | nil =>
      rw [SpacedHead.inside, WrittenAttribute.rowText, List.flatMap_nil, List.nil_append,
        List.append_assoc] at goesOn ⊢
      obtain ⟨gap, blank, ended⟩ := across_last underway lastBlank isMargin goesOn number
      exact ⟨[], gap, rfl, by simp, blank, ended⟩
  | cons entry row inductionHypothesis =>
      obtain ⟨gap, written⟩ := entry
      obtain ⟨fitsFirst, fits⟩ := List.forall_mem_cons.mp fits
      obtain ⟨⟨blank, nonempty⟩, gaps⟩ := List.forall_mem_cons.mp gaps
      have isWord := fitsFirst.isWord
      have line : SpacedHead.inside ((gap, written) :: row) lastGap selfClosing ++ '>' :: margin =
          gap ++ (written.text ++
            (SpacedHead.inside row lastGap selfClosing ++ '>' :: margin)) := by
        simp [SpacedHead.inside, WrittenAttribute.rowText]
      rw [line] at goesOn ⊢
      by_cases feed : '\n' ∈ gap
      · obtain ⟨c, more, shape⟩ := List.exists_cons_of_ne_nil isWord.solid.nonempty
        have first : (written.text ++ (SpacedHead.inside row lastGap selfClosing ++
            '>' :: margin)).head? = some c := by
          rw [shape]
          rfl
        have isSolid : isBlank c = false := isWord.solid.first c (by rw [shape]; rfl)
        obtain ⟨lower, later, isLower, goesOn, turned⟩ :=
          across_gap underway blank feed first isSolid goesOn number
        obtain ⟨spaced, lastSpaced, same, spacedGaps, lastSpacedBlank, read⟩ :=
          inductionHypothesis fits gaps (underway.turn isLower isWord) goesOn later
        refine ⟨([' '], written) :: spaced, lastSpaced, ?_, ?_, lastSpacedBlank, ?_⟩
        · rw [List.map_cons, List.map_cons, same]
        · exact List.forall_mem_cons.mpr ⟨⟨Eq.refl true, List.cons_ne_nil ' ' []⟩, spacedGaps⟩
        · rw [turned, read]
          simp [SpacedHead.inside, WrittenAttribute.rowText]
      · have longer : part ++ (gap ++ (written.text ++
            (SpacedHead.inside row lastGap selfClosing ++ '>' :: margin))) =
            part ++ (gap ++ written.text) ++
              (SpacedHead.inside row lastGap selfClosing ++ '>' :: margin) := by simp
        rw [longer] at goesOn ⊢
        obtain ⟨spaced, lastSpaced, same, spacedGaps, lastSpacedBlank, read⟩ :=
          inductionHypothesis fits gaps (underway.add ⟨blank, feed⟩ isWord) goesOn number
        refine ⟨(gap, written) :: spaced, lastSpaced, ?_, ?_, lastSpacedBlank, ?_⟩
        · rw [List.map_cons, List.map_cons, same]
        · exact List.forall_mem_cons.mpr ⟨⟨blank, nonempty⟩, spacedGaps⟩
        · rw [read]
          simp [SpacedHead.inside, WrittenAttribute.rowText]

end Continued

end ScreenCompiler
