import ScreenCompiler.Proofs.Document.Insertion
import ScreenCompiler.Proofs.Document.JoinedHeads

/-!
# Spread tag heads

A tag head that is spread over lines stands for the same as on one line.  The lines below
it count on from its last line, and no stylesheet begins in it that does not begin in the
head on one line.
-/

namespace ScreenCompiler

open Text

theorem Block.ofText_of_start {c : Char} {rest : List Char} {lines below : List Line} {head : Head}
    (letter : isAsciiLetter c = true) (trimmed : trim ('<' :: c :: rest) = '<' :: c :: rest)
    (ended : Continued.start ('<' :: c :: rest) lines = .complete head [] below)
    (catalog : Catalog) (number : Nat) :
    ∃ block, ofText number ('<' :: c :: rest) lines = block :: ofLines below ∧
      block.items catalog = Item.ofHead catalog number head := by
  have starts : Head.startsTag ('<' :: c :: rest) = true := by
    rw [Head.startsTag, letter, Bool.true_or]
  have noSlash : c ≠ '/' := by
    rintro rfl
    exact absurd letter (by decide)
  have noEnd : c ≠ '>' := by
    rintro rfl
    exact absurd letter (by decide)
  rw [Continued.start, Head.read?] at ended
  cases found : Head.findEnd? .start (c :: rest) with
  | none =>
      have pieces := (Pieces.Segment.unfinished starts found).ofText
      have opening : startsWith ['<', '/'] ('<' :: c :: rest) = false := by
        simp [startsWith, afterPrefix?, Ne.symm noSlash]
      have empty : ofText number [] below = ofLines below := by
        rw [ofText_eq, Pieces.ofText_nil]
        rfl
      simp only [found, Option.map_none] at ended
      refine ⟨.head number head, ?_, rfl⟩
      rw [ofText_eq, pieces]
      simp only [opening, Bool.false_eq_true, ↓reduceIte, ended, empty, List.map_nil,
        List.nil_append]
  | some parts =>
      obtain ⟨inside, behind⟩ := parts
      simp only [found, Option.map_some, Continued.complete.injEq] at ended
      obtain ⟨rfl, blankBehind, rfl⟩ := ended
      have shape := Head.append_of_findEnd? found
      -- the text is trimmed, so nothing stands behind the end of the tag
      obtain rfl : behind = [] := by
        by_contra nonempty
        obtain ⟨last, found⟩ := List.getLast?_isSome.mpr nonempty |> Option.isSome_iff_exists.mp
        have lastOfAll : (trim ('<' :: c :: rest)).getLast? = some last := by
          rw [trimmed, shape, ← List.cons_append, List.getLast?_append_of_ne_nil _ (by simp),
            List.getLast?_cons_of_ne_nil nonempty, found]
        have blank := isAllBlank_iff.mp (isAllBlank_of_trim_eq_nil blankBehind) last
          (List.mem_of_mem_getLast? found)
        exact absurd (blank.symm.trans (getLast?_trim lastOfAll)) (by decide)
      rw [shape] at starts found ⊢
      have pieces := (Pieces.Segment.tag starts found).ofText
      have isHead : Piece.ofInside inside = .head inside := by
        cases inside with
        | nil => exact absurd (List.cons.inj shape).1 noEnd
        | cons d more =>
            obtain ⟨rfl, -⟩ := List.cons.inj shape
            unfold Piece.ofInside
            split
            · rename_i slash
              exact absurd (List.cons.inj slash).1 noSlash
            · rfl
      refine ⟨.piece number (.head inside), ?_, rfl⟩
      rw [ofText_eq, ← List.cons_append, pieces, isHead]
      rfl

namespace SpacedHead

variable (catalog : Catalog)

theorem underway (head : SpacedHead) :
    Continued.IsUnderway [] head.indent ('<' :: head.tag.text) head.tag.text := by
  refine ⟨rfl, Markup.quiet_tag head.tag, ?_, ?_, head.isIndent⟩
  · refine .of_all (List.cons_ne_nil _ _) (List.forall_mem_cons.mpr ⟨by decide, ?_⟩)
    exact fun _ membership => head.tag.isBlank_of_mem_text membership
  · simpa using Markup.feed_notMem_tag head.tag

theorem exists_lines (head : SpacedHead) :
    ∃ first more rest, head.text.splitOn '\n' = first :: more ∧
      trim first = '<' :: head.tag.first :: rest := by
  obtain ⟨first, more, behindTag⟩ := List.exists_cons_of_ne_nil (List.splitOn_ne_nil '\n'
    (inside head.row head.lastGap head.selfClosing ++ '>' :: head.margin))
  refine ⟨head.indent ++ ('<' :: head.tag.text ++ first), more,
    trimEnd (head.tag.rest ++ first), ?_, ?_⟩
  · rw [text, splitOn_append_flat head.isIndent.flat, splitOn_append_flat head.underway.flat,
      behindTag]
    rfl
  · have letter : isBlank head.tag.first = false :=
      head.tag.isBlank_of_mem_text List.mem_cons_self
    have solid : trim ('<' :: head.tag.text ++ first) = trimEnd ('<' :: head.tag.text ++ first) :=
      congrArg trimEnd (trimStart_cons_of_not_blank (by decide))
    rw [trim_append_left_of_isAllBlank head.isIndent.blank, solid]
    exact trimEnd_append_cons letter ['<'] (head.tag.rest ++ first)

/-- A head is a block of its own, whatever its gaps. -/
theorem exists_block (head : SpacedHead) (goesOn : GoesOn head.text) (number : Nat)
    (below : List Line) :
    ∃ block, Block.ofLines (Line.numbered number (head.text.splitOn '\n') ++ below) =
        block :: Block.ofLines below ∧ block.items catalog = [head.item catalog number] := by
  obtain ⟨spaced, gap, same, spacedGaps, blankGap, ended⟩ :=
    Continued.across_row head.fits head.gaps head.lastBlank head.isMargin head.underway goesOn
      number below
  obtain ⟨attributes, parts, read⟩ :=
    ofInside_inside catalog head.tag spacedGaps blankGap head.selfClosing
  obtain ⟨first, more, rest, lines, trimmed⟩ := head.exists_lines
  have whole : trim ('<' :: head.tag.first :: rest) = '<' :: head.tag.first :: rest := by
    rw [← trimmed, trim_trim]
  have started : Continued.start ('<' :: head.tag.first :: rest)
      (Line.numbered (number + 1) more ++ below) =
        .complete (Head.ofInside (head.tag.text ++ inside spaced gap head.selfClosing)) []
          below := by
    rw [← ended, Continued.across]
    change _ = Continued.start ([] ++ trim ((head.text.splitOn '\n').headD []))
      (Line.numbered (number + 1) (head.text.splitOn '\n').tail ++ below)
    rw [lines, List.headD_cons, List.tail_cons, trimmed, List.nil_append]
  obtain ⟨block, blocks, items⟩ :=
    Block.ofText_of_start head.tag.letter whole started catalog number
  refine ⟨block, ?_, ?_⟩
  · have numbered : Line.numbered number (first :: more) =
        ⟨number, first⟩ :: Line.numbered (number + 1) more := by
      rw [Line.numbered, trimmed]
      rfl
    have lineText : Line.text ⟨number, first⟩ = '<' :: head.tag.first :: rest := trimmed
    have undeclared : isDeclarationLike (Line.text ⟨number, first⟩) = false := by
      rw [lineText]
      exact Markup.isDeclarationLike_of_bracket _
    rw [lines, numbered, List.cons_append, Block.ofLines_cons,
      Block.simple?_eq_none undeclared, Block.open?_eq_none undeclared]
    simp only [lineText, blocks]
  · rw [items, parts, Item.ofHead, read, entries_eq catalog same]
    rfl

/-- No function above takes a head for its body. -/
theorem apart (head : SpacedHead) (above below : List Line) (number : Nat) :
    Function.Apart above (Line.numbered number (head.text.splitOn '\n') ++ below) := by
  intro last _ next found _
  obtain ⟨first, more, rest, lines, trimmed⟩ := head.exists_lines
  rw [lines, Line.numbered, trimmed] at found
  obtain rfl : ⟨number, first⟩ = next := Option.some.inj found
  rw [Line.text, trimmed]
  rfl

theorem exists_blocks (head : SpacedHead) (goesOn : GoesOn head.text) {above : List (List Char)}
    (complete : ∀ block ∈ Block.ofLines (Line.numbered 1 above), block.isComplete = true)
    (below : List Line) :
    ∃ block, Block.ofLines (Line.numbered 1 (above ++ head.text.splitOn '\n') ++ below) =
        Block.ofLines (Line.numbered 1 above) ++ block :: Block.ofLines below ∧
      block.items catalog = [head.item catalog (1 + above.length)] := by
  obtain ⟨block, blocks, items⟩ := head.exists_block catalog goesOn (1 + above.length) below
  refine ⟨block, ?_, items⟩
  rw [Line.numbered_append, List.append_assoc, ← blocks]
  exact Block.ofLines_append complete (head.apart _ below _)

end SpacedHead

namespace Stylesheet

theorem respaced_slash {tight loose margin other : List Char}
    (blankTight : isAllBlank tight = true) (blankLoose : isAllBlank loose = true)
    (blankMargin : isAllBlank margin = true) (blankOther : isAllBlank other = true)
    (selfClosing : Bool) (rest : List Char) :
    Respaced (tight ++ (SpacedHead.slash selfClosing ++ '>' :: (margin ++ rest)))
      (loose ++ (SpacedHead.slash selfClosing ++ '>' :: (other ++ rest))) := by
  have ending : Respaced ('>' :: (margin ++ rest)) ('>' :: (other ++ rest)) :=
    .after rfl blankMargin blankOther (.refl rest)
  cases selfClosing with
  | false => exact .before rfl blankTight blankLoose ending
  | true => exact .before rfl blankTight blankLoose (.same '/' ending)

theorem respaced_row {tight loose : List (List Char × WrittenAttribute)}
    (same : tight.map Prod.snd = loose.map Prod.snd)
    (tightGaps : ∀ entry ∈ tight, isAllBlank entry.1 = true ∧ entry.1 ≠ [])
    (looseGaps : ∀ entry ∈ loose, isAllBlank entry.1 = true ∧ entry.1 ≠ [])
    {text other : List Char} (respaced : Respaced text other) :
    Respaced (WrittenAttribute.rowText tight ++ text)
      (WrittenAttribute.rowText loose ++ other) := by
  induction tight generalizing loose with
  | nil =>
      obtain rfl : loose = [] := List.map_eq_nil_iff.mp same.symm
      exact respaced
  | cons entry tight inductionHypothesis =>
      obtain ⟨looseEntry, more, rfl, sameFirst, same⟩ := List.map_eq_cons_iff.mp same.symm
      obtain ⟨⟨blank, nonempty⟩, tightGaps⟩ := List.forall_mem_cons.mp tightGaps
      obtain ⟨⟨looseBlank, looseNonempty⟩, looseGaps⟩ := List.forall_mem_cons.mp looseGaps
      have behind := inductionHypothesis same.symm tightGaps looseGaps
      obtain ⟨c, gap, tightShape⟩ := List.exists_cons_of_ne_nil nonempty
      obtain ⟨d, looseGap, looseShape⟩ := List.exists_cons_of_ne_nil looseNonempty
      rw [tightShape] at blank
      rw [looseShape] at looseBlank
      have word := Respaced.gap blank looseBlank (behind.append_same entry.2.text)
      simpa [WrittenAttribute.rowText, tightShape, looseShape, sameFirst] using word

theorem respaced_of_matches {tight loose : SpacedHead} (same : tight.Matches loose)
    (front rest : List Char) :
    Respaced (front ++ (tight.text ++ rest)) (front ++ (loose.text ++ rest)) := by
  have shape : ∀ head : SpacedHead, head.text ++ rest =
      head.indent ++ '<' :: (head.tag.text ++ (WrittenAttribute.rowText head.row ++
        (head.lastGap ++
          (SpacedHead.slash head.selfClosing ++ '>' :: (head.margin ++ rest))))) := by
    intro head
    simp [SpacedHead.text, SpacedHead.inside]
  have ending := respaced_slash tight.lastBlank loose.lastBlank tight.isMargin.blank
    loose.isMargin.blank tight.selfClosing rest
  have row := respaced_row same.attributes tight.gaps loose.gaps ending
  have bracket : Respaced _ _ := .before rfl tight.isIndent.blank loose.isIndent.blank
    (.same '<' (row.append_same tight.tag.text))
  rw [shape, shape, ← same.tag, ← same.selfClosing]
  exact bracket.append_same front

/-- A head has no part in the opening of a stylesheet but in its values. -/
theorem find?_eq_none_of_matches {tight loose : SpacedHead} (same : tight.Matches loose)
    {above below : List (List Char)}
    (plain : find? (unlines (above ++ tight.text :: below)) = none) :
    find? (unlines (above ++ loose.text :: below)) = none := by
  have shape : ∀ head : SpacedHead, unlines (above ++ head.text :: below) =
      above.flatMap (· ++ ['\n']) ++ (head.text ++ unlines ([] :: below)) := by
    intro head
    have split := unlines_append_cons head.text [] below
    rw [List.append_nil] at split
    rw [unlines_append above (List.cons_ne_nil _ _), split]
  have matched : loose.Matches tight := ⟨same.tag.symm, same.attributes.symm, same.selfClosing.symm⟩
  rw [← Option.isNone_iff_eq_none, ← Option.isSome_eq_false_iff] at plain ⊢
  by_contra found
  rw [Bool.not_eq_false, shape] at found
  have here := isSome_find?_of_respaced (respaced_of_matches matched _ _) found
  rw [← shape, plain] at here
  exact Bool.false_ne_true here

end Stylesheet

theorem Block.isComplete_of_markup {raws : List (List Char)}
    (markup : ∀ raw ∈ raws, IsMarkup (trim raw)) (number : Nat) :
    ∀ block ∈ ofLines (Line.numbered number raws), block.isComplete = true := by
  intro block membership
  rw [ofLines_eq_of_markup (isMarkup_of_mem_numbered markup)] at membership
  obtain ⟨line, -, inside⟩ := List.mem_flatMap.mp membership
  rcases List.mem_append.mp inside with whole | unfinished
  · obtain ⟨piece, -, rfl⟩ := List.mem_map.mp whole
    rfl
  · obtain ⟨tag, -, rfl⟩ := List.mem_map.mp unfinished
    rfl

namespace Document

variable (catalog : Catalog) {above below : List (List Char)} {tight loose : SpacedHead}

theorem ofSource_spread (head : SpacedHead) (flat : ∀ raw ∈ above ++ below, '\n' ∉ raw) :
    Block.ofSource (unlines (above ++ head.text :: below)) =
      Block.ofLines (Line.numbered 1 (above ++ head.text.splitOn '\n' ++ below)) := by
  obtain ⟨flatAbove, flatBelow⟩ := List.forall_mem_append.mp flat
  have lines : unlines (above ++ head.text :: below) =
      unlines (above ++ head.text.splitOn '\n' ++ below) := by
    obtain ⟨first, more, pieces⟩ :=
      List.exists_cons_of_ne_nil (List.splitOn_ne_nil '\n' head.text)
    rw [unlines_append above (List.cons_ne_nil _ _), ← unlines_splitOn_append, List.append_assoc,
      unlines_append above (by simp [pieces])]
  rw [lines]
  apply Block.ofSource_unlines
  refine List.forall_mem_append.mpr ⟨List.forall_mem_append.mpr ⟨flatAbove, ?_⟩, flatBelow⟩
  exact fun raw membership => notMem_of_mem_splitOn membership

theorem items_spread (same : tight.Matches loose) (flat : ∀ raw ∈ above ++ below, '\n' ∉ raw)
    (complete : ∀ block ∈ Block.ofLines (Line.numbered 1 above), block.isComplete = true)
    (oneLine : '\n' ∉ tight.text) (goesOn : SpacedHead.GoesOn loose.text) :
    Item.ofSource catalog (unlines (above ++ loose.text :: below)) =
      (Item.ofSource catalog (unlines (above ++ tight.text :: below))).map
        (Item.renumber (Line.makeRoom (above.length + 1) (lineFeeds loose.text))) := by
  have alone : tight.text.splitOn '\n' = [tight.text] := splitOn_of_notMem oneLine
  have tightGoesOn : SpacedHead.GoesOn tight.text := by
    rw [SpacedHead.GoesOn, alone]
    exact List.forall_mem_nil _
  have lower : Line.numbered 1 (above ++ loose.text.splitOn '\n' ++ below) =
      Line.numbered 1 (above ++ loose.text.splitOn '\n') ++
        Line.numbered (1 + (above.length + 1) + lineFeeds loose.text) below := by
    have number : 1 + (above ++ loose.text.splitOn '\n').length =
        1 + (above.length + 1) + lineFeeds loose.text := by
      rw [List.length_append, length_splitOn]
      omega
    rw [Line.numbered_append, number]
  have room : (Line.numbered 1 (above ++ tight.text.splitOn '\n' ++ below)).map
      (Line.renumber (Line.makeRoom (above.length + 1) (lineFeeds loose.text))) =
        Line.numbered 1 (above ++ tight.text.splitOn '\n') ++
          Line.numbered (1 + (above.length + 1) + lineFeeds loose.text) below := by
    have length : (above ++ tight.text.splitOn '\n').length = above.length + 1 := by
      rw [alone, List.length_append, List.length_singleton]
    have shifted := Line.map_makeRoom_numbered (above ++ tight.text.splitOn '\n') below
      (lineFeeds loose.text)
    rwa [length] at shifted
  obtain ⟨looseBlock, looseBlocks, looseItems⟩ := loose.exists_blocks catalog goesOn complete
    (Line.numbered (1 + (above.length + 1) + lineFeeds loose.text) below)
  obtain ⟨tightBlock, tightBlocks, tightItems⟩ := tight.exists_blocks catalog tightGoesOn complete
    (Line.numbered (1 + (above.length + 1) + lineFeeds loose.text) below)
  rw [Item.ofSource, Item.ofSource, ← Block.flatMap_items_renumber, ofSource_spread loose flat,
    ofSource_spread tight flat, ← Block.ofLines_map (Line.keepsText_renumber _), room, lower,
    looseBlocks, tightBlocks, List.flatMap_append, List.flatMap_append, List.flatMap_cons,
    List.flatMap_cons, looseItems, tightItems, same.item_eq]

/-- A head that is spread over lines stands for the same as on one line; the lines below it have
other numbers. -/
theorem parse_spread (same : tight.Matches loose) (flat : ∀ raw ∈ above ++ below, '\n' ∉ raw)
    (complete : ∀ block ∈ Block.ofLines (Line.numbered 1 above), block.isComplete = true)
    (oneLine : '\n' ∉ tight.text) (goesOn : SpacedHead.GoesOn loose.text)
    (plain : Stylesheet.find? (unlines (above ++ tight.text :: below)) = none) :
    parse catalog (unlines (above ++ loose.text :: below)) =
      (parse catalog (unlines (above ++ tight.text :: below))).renumber
        (Line.makeRoom (above.length + 1) (lineFeeds loose.text)) := by
  have items := items_spread catalog same flat complete oneLine goesOn
  rw [parse_of_find?_eq_none catalog plain,
    parse_of_find?_eq_none catalog (Stylesheet.find?_eq_none_of_matches same plain), items,
    Forest.ofItems_renumber, ofForest_renumber]

/-- A head with a flag and with code that looks like its end. -/
def sampleHead (gap : List Char) (isGap : isAllBlank gap = true ∧ gap ≠ []) : SpacedHead where
  tag := ⟨'V', ['w'], by decide, by decide⟩
  row := [(gap, .flag ⟨['f'], by decide, by decide⟩),
    (gap, .assigned
      ⟨⟨['p'], by decide, by decide⟩, [], [], .braced ['{', '/', '>', '}'], by decide⟩
      (show HasBalancedBraces ['{', '/', '>', '}'] by decide))]
  lastGap := gap
  selfClosing := true
  indent := [' ']
  margin := []
  fits := List.forall_mem_cons.mpr ⟨⟨trivial, by simp [WrittenAttribute.text]⟩,
    List.forall_mem_singleton.mpr ⟨show IsBalancedCode ['{', '/', '>', '}'] by decide, by
      simp [WrittenAttribute.text, Assignment.text, MarkedValue.opening, MarkedValue.content,
        MarkedValue.closing]⟩⟩
  gaps := List.forall_mem_cons.mpr ⟨isGap, List.forall_mem_singleton.mpr isGap⟩
  lastBlank := isGap.1
  isIndent := ⟨by decide, by decide⟩
  isMargin := ⟨by decide, by decide⟩

/-- A head between two lines, spread over seven. -/
theorem parse_spread_sample :
    (∀ raw ∈ ["<A>".toList], IsMarkup (trim raw)) ∧
      SpacedHead.GoesOn (sampleHead ['\n', ' ', '\n'] (by decide)).text ∧
      parse .standard (unlines (["<A>".toList] ++
          (sampleHead ['\n', ' ', '\n'] (by decide)).text :: ["</A>".toList])) =
        (parse .standard (unlines (["<A>".toList] ++
          (sampleHead [' '] (by decide)).text :: ["</A>".toList]))).renumber
            (Line.makeRoom 2 6) := by
  have markup : ∀ raw ∈ ["<A>".toList], IsMarkup (trim raw) := by decide +kernel
  have goesOn : SpacedHead.GoesOn (sampleHead ['\n', ' ', '\n'] (by decide)).text := by
    rw [SpacedHead.GoesOn]
    decide +kernel
  refine ⟨markup, goesOn, ?_⟩
  exact parse_spread .standard ⟨rfl, rfl, rfl⟩ (by decide +kernel)
    (Block.isComplete_of_markup markup 1) (by decide) goesOn (by decide +kernel)

end Document

end ScreenCompiler
