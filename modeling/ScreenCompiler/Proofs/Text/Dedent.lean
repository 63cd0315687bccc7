import ScreenCompiler.Proofs.Text.Indent

/-!
# What dedenting takes away

A line loses blanks in front and nothing else, and is cut between two of its characters.
The width that is taken off is the least indentation, so some line ends up without any
and dedenting again changes nothing.
-/

namespace ScreenCompiler.Text

theorem byteLength_append (first second : List Char) :
    byteLength (first ++ second) = byteLength first + byteLength second := by
  induction first with
  | nil => rw [List.nil_append, byteLength, Nat.zero_add]
  | cons c first inductionHypothesis =>
      rw [List.cons_append, byteLength, byteLength, inductionHypothesis, Nat.add_assoc]

theorem byteLength_eq_zero_iff {text : List Char} : byteLength text = 0 ↔ text = [] := by
  cases text with
  | nil => simp [byteLength]
  | cons c text =>
      have positive := c.utf8Size_pos
      simp only [byteLength, reduceCtorEq, iff_false]
      omega

theorem byteLength_eq_utf8ByteSize (text : List Char) :
    byteLength text = (String.ofList text).utf8ByteSize := by
  induction text with
  | nil => rfl
  | cons c text inductionHypothesis =>
      rw [String.ofList_cons, String.utf8ByteSize_append, String.utf8ByteSize_singleton, byteLength,
        inductionHypothesis]

/-- Of two beginnings of a text the one with fewer bytes begins the other. -/
theorem prefix_of_byteLength_le {text first second : List Char} (begins : first <+: text)
    (other : second <+: text) (shorter : byteLength first ≤ byteLength second) :
    first <+: second := by
  rcases List.prefix_or_prefix_of_prefix begins other with inside | ⟨more, rfl⟩
  · exact inside
  · rw [byteLength_append] at shorter
    obtain rfl : more = [] := byteLength_eq_zero_iff.mp (by omega)
    exact ⟨[], by rw [List.append_nil, List.append_nil]⟩

theorem dropBytes?_zero_iff {text rest : List Char} :
    dropBytes? 0 text = some rest ↔ ∃ front, text = front ++ rest ∧ byteLength front = 0 := by
  simp only [dropBytes?, Option.some.injEq, byteLength_eq_zero_iff]
  constructor
  · rintro rfl
    exact ⟨[], rfl, rfl⟩
  · rintro ⟨front, rfl, rfl⟩
    rfl

theorem dropBytes?_eq_some_iff {width : Nat} {text rest : List Char} :
    dropBytes? width text = some rest ↔
      ∃ front, text = front ++ rest ∧ byteLength front = width := by
  induction text generalizing width with
  | nil =>
      cases width with
      | zero => exact dropBytes?_zero_iff
      | succ width =>
          simp only [dropBytes?, reduceCtorEq, false_iff, not_exists, not_and]
          intro front shape
          obtain ⟨rfl, -⟩ := List.append_eq_nil_iff.mp shape.symm
          simp [byteLength]
  | cons c text inductionHypothesis =>
      have positive := c.utf8Size_pos
      cases width with
      | zero => exact dropBytes?_zero_iff
      | succ width =>
          rw [dropBytes?]
          constructor
          · intro found
            obtain ⟨fits, found⟩ := Option.ite_none_right_eq_some.mp found
            obtain ⟨front, rfl, size⟩ := inductionHypothesis.mp found
            refine ⟨c :: front, rfl, ?_⟩
            rw [byteLength, size]
            omega
          · rintro ⟨front, shape, size⟩
            cases front with
            | nil => simp [byteLength] at size
            | cons d front =>
                obtain ⟨rfl, rfl⟩ := List.cons.inj shape
                rw [byteLength] at size
                rw [if_pos (by omega)]
                exact inductionHypothesis.mpr ⟨front, rfl, by omega⟩

/-- Bytes can be dropped exactly up to a place between two characters. -/
theorem isSome_dropBytes?_iff {width : Nat} {text : List Char} :
    (dropBytes? width text).isSome = true ↔
      String.Pos.Raw.IsValid (String.ofList text) ⟨width⟩ := by
  rw [Option.isSome_iff_exists, String.Pos.Raw.isValid_ofList]
  constructor
  · rintro ⟨rest, found⟩
    obtain ⟨front, rfl, rfl⟩ := dropBytes?_eq_some_iff.mp found
    exact ⟨front.length, by rw [List.take_left, byteLength_eq_utf8ByteSize]⟩
  · rintro ⟨count, place⟩
    refine ⟨text.drop count, dropBytes?_eq_some_iff.mpr ⟨text.take count, ?_, ?_⟩⟩
    · exact (List.take_append_drop count text).symm
    · rw [byteLength_eq_utf8ByteSize, ← place]

theorem isAllBlank_indentation (line : List Char) : isAllBlank (indentation line) = true :=
  isAllBlank_iff.mpr fun _ membership => List.mem_takeWhile_imp membership

theorem indentation_append_trimStart (line : List Char) :
    indentation line ++ trimStart line = line :=
  List.takeWhile_append_dropWhile

theorem indentation_append {gap : List Char} (blank : isAllBlank gap = true) (line : List Char) :
    indentation (gap ++ line) = gap ++ indentation line :=
  List.takeWhile_append_of_pos (isAllBlank_iff.mp blank)

theorem indentOf_append {gap : List Char} (blank : isAllBlank gap = true) (line : List Char) :
    indentOf (gap ++ line) = byteLength gap + indentOf line := by
  change byteLength (indentation (gap ++ line)) = _ + byteLength (indentation line)
  rw [indentation_append blank, byteLength_append]

theorem indentation_eq_self {line : List Char} (blank : isAllBlank line = true) :
    indentation line = line :=
  List.takeWhile_eq_self_iff.mpr (isAllBlank_iff.mp blank)

theorem indentation_trimStart (line : List Char) : indentation (trimStart line) = [] := by
  have whole := indentation_append (isAllBlank_indentation line) (trimStart line)
  rw [indentation_append_trimStart] at whole
  exact List.self_eq_append_right.mp whole

theorem sharedIndent_le {lines : List (List Char)} {line : List Char} (membership : line ∈ lines)
    (solid : isAllBlank line = false) : sharedIndent lines ≤ indentOf line :=
  List.min?_getD_le_of_mem
    (List.mem_map_of_mem (List.mem_filter.mpr ⟨membership, by rw [solid]; rfl⟩))

/-- Some line that is not blank has no more indentation than the lines share. -/
theorem exists_sharedIndent_eq {lines : List (List Char)}
    (solid : ∃ line ∈ lines, isAllBlank line = false) :
    ∃ line ∈ lines, isAllBlank line = false ∧ sharedIndent lines = indentOf line := by
  obtain ⟨line, membership, isSolid⟩ := solid
  have widths : indentOf line ∈ (lines.filter (!isAllBlank ·)).map indentOf :=
    List.mem_map_of_mem (List.mem_filter.mpr ⟨membership, by rw [isSolid]; rfl⟩)
  obtain ⟨least, found⟩ := Option.isSome_iff_exists.mp (List.isSome_min?_of_mem widths)
  obtain ⟨narrowest, inside, rfl⟩ := List.mem_map.mp (List.min?_mem found)
  obtain ⟨inside, isSolid⟩ := List.mem_filter.mp inside
  exact ⟨narrowest, inside, by simpa using isSolid, by rw [sharedIndent, found, Option.getD_some]⟩

theorem sharedIndent_of_blank {lines : List (List Char)}
    (blank : ∀ line ∈ lines, isAllBlank line = true) : sharedIndent lines = 0 := by
  have none : lines.filter (!isAllBlank ·) = [] :=
    List.filter_eq_nil_iff.mpr fun line membership => by simp [blank line membership]
  rw [sharedIndent, none]
  rfl

/-- How a line is cut when `width` bytes are to be taken off it. -/
structure IsCutAt (width : Nat) (line cut : List Char) : Prop where
  /-- Nothing but blanks in front is lost. -/
  blanks : ∃ gap, isAllBlank gap = true ∧ line = gap ++ cut
  /-- The cut is between two characters. -/
  place : String.Pos.Raw.IsValid (String.ofList line) ⟨byteLength line - byteLength cut⟩
  /-- The width itself is lost where it ends between two characters. -/
  atWidth : String.Pos.Raw.IsValid (String.ofList line) ⟨width⟩ →
    byteLength line = width + byteLength cut
  /-- All indentation is lost where it does not. -/
  whole : ¬String.Pos.Raw.IsValid (String.ofList line) ⟨width⟩ → cut = trimStart line

theorem exists_gap_of_dropBytes? {width : Nat} {line cut : List Char}
    (fits : isAllBlank line = true ∨ width ≤ indentOf line)
    (found : dropBytes? width line = some cut) :
    ∃ gap, isAllBlank gap = true ∧ line = gap ++ cut ∧ byteLength gap = width := by
  obtain ⟨gap, rfl, rfl⟩ := dropBytes?_eq_some_iff.mp found
  refine ⟨gap, ?_, rfl, rfl⟩
  rcases fits with blank | fits
  · rw [isAllBlank_append, Bool.and_eq_true] at blank
    exact blank.1
  · have inside : gap <+: indentation (gap ++ cut) :=
      prefix_of_byteLength_le (List.prefix_append gap cut) (List.takeWhile_prefix isBlank) fits
    exact isAllBlank_iff.mpr fun c membership =>
      isAllBlank_iff.mp (isAllBlank_indentation _) c (inside.subset membership)

theorem isCutAt_dropIndent {width : Nat} {line : List Char}
    (fits : isAllBlank line = true ∨ width ≤ indentOf line) :
    IsCutAt width line (dropIndent width line) := by
  have placed : ∀ {gap cut : List Char}, line = gap ++ cut →
      String.Pos.Raw.IsValid (String.ofList line) ⟨byteLength line - byteLength cut⟩ := by
    intro gap cut shape
    have size : byteLength line - byteLength cut = byteLength gap := by
      rw [shape, byteLength_append, Nat.add_sub_cancel]
    rw [size, ← isSome_dropBytes?_iff, Option.isSome_iff_exists]
    exact ⟨cut, dropBytes?_eq_some_iff.mpr ⟨gap, shape, rfl⟩⟩
  cases found : dropBytes? width line with
  | some cut =>
      obtain ⟨gap, blank, shape, size⟩ := exists_gap_of_dropBytes? fits found
      have valid := isSome_dropBytes?_iff.mp (Option.isSome_of_eq_some found)
      rw [dropIndent, found, Option.getD_some]
      refine ⟨⟨gap, blank, shape⟩, placed shape, fun _ => ?_, fun invalid => absurd valid invalid⟩
      rw [shape, byteLength_append, size]
  | none =>
      have shape := (indentation_append_trimStart line).symm
      have invalid : ¬String.Pos.Raw.IsValid (String.ofList line) ⟨width⟩ := by
        rw [← isSome_dropBytes?_iff, found]
        exact Bool.false_ne_true
      rw [dropIndent, found, Option.getD_none]
      exact ⟨⟨indentation line, isAllBlank_indentation line, shape⟩, placed shape,
        fun valid => absurd valid invalid, fun _ => rfl⟩

namespace IsCutAt

variable {width : Nat} {line cut : List Char}

theorem isAllBlank_eq (isCut : IsCutAt width line cut) : isAllBlank cut = isAllBlank line := by
  obtain ⟨gap, blank, rfl⟩ := isCut.blanks
  rw [isAllBlank_append, blank, Bool.true_and]

/-- What a line loses of its bytes it loses of its indentation. -/
theorem indentOf_add (isCut : IsCutAt width line cut) :
    indentOf line + byteLength cut = byteLength line + indentOf cut := by
  obtain ⟨gap, blank, rfl⟩ := isCut.blanks
  rw [indentOf_append blank, byteLength_append]
  omega

theorem lost_of_narrow (isCut : IsCutAt width line cut) (narrow : IsNarrow line)
    (fits : isAllBlank line = true ∨ width ≤ indentOf line) :
    byteLength line = width + byteLength cut ∨ byteLength line < width ∧ cut = [] := by
  by_cases valid : String.Pos.Raw.IsValid (String.ofList line) ⟨width⟩
  · exact .inl (isCut.atWidth valid)
  · have beyond : indentOf line < width := by
      by_contra within
      have size : indentOf line = (indentation line).length := byteLength_of_narrow narrow
      have cuts : dropBytes? width (indentation line ++ trimStart line) = some _ :=
        dropBytes?_of_narrow narrow (by omega)
      rw [indentation_append_trimStart] at cuts
      exact valid (isSome_dropBytes?_iff.mp (Option.isSome_of_eq_some cuts))
    have blank : isAllBlank line = true := fits.resolve_right (Nat.not_le_of_lt beyond)
    refine .inr ⟨?_, ?_⟩
    · rwa [indentOf, ← indentation, indentation_eq_self blank] at beyond
    · rw [isCut.whole valid, trimStart_of_isAllBlank blank]

end IsCutAt

/-- What dedenting makes of some lines. -/
structure IsDedented (lines cuts : List (List Char)) : Prop where
  length : cuts.length = lines.length
  /-- Every line loses blanks in front and nothing else, all of them at the same width. -/
  isCut : ∃ width, ∀ pair ∈ lines.zip cuts, IsCutAt width pair.1 pair.2
  /-- Some line that is not blank, if there is one, ends up without indentation. -/
  flush : (∃ line ∈ lines, isAllBlank line = false) →
    ∃ pair ∈ lines.zip cuts, isAllBlank pair.1 = false ∧ indentation pair.2 = []
  stable : dedent cuts = cuts
  /-- With narrow indentation every line loses the same number of bytes, or all that it has. -/
  even : (∀ line ∈ lines, IsNarrow line) → ∃ width, ∀ pair ∈ lines.zip cuts,
    byteLength pair.1 = width + byteLength pair.2 ∨ byteLength pair.1 < width ∧ pair.2 = []
  /-- With narrow indentation lines that are not blank stand to each other as before. -/
  relative : (∀ line ∈ lines, IsNarrow line) →
    ∀ first ∈ lines.zip cuts, ∀ second ∈ lines.zip cuts,
      isAllBlank first.1 = false → isAllBlank second.1 = false →
        (indentOf first.2 : Int) - indentOf second.2 = indentOf first.1 - indentOf second.1

theorem zip_dedent (lines : List (List Char)) :
    lines.zip (dedent lines) =
      lines.map fun line => (line, dropIndent (sharedIndent lines) line) := by
  have zipped : (lines.map id).zip (lines.map (dropIndent (sharedIndent lines))) = _ :=
    List.zip_map'
  rwa [List.map_id] at zipped

variable {lines : List (List Char)}

theorem fits_sharedIndent {line : List Char} (membership : line ∈ lines) :
    isAllBlank line = true ∨ sharedIndent lines ≤ indentOf line := by
  cases solid : isAllBlank line with
  | true => exact .inl rfl
  | false => exact .inr (sharedIndent_le membership solid)

theorem isCutAt_of_mem_zip {pair : List Char × List Char}
    (membership : pair ∈ lines.zip (dedent lines)) :
    IsCutAt (sharedIndent lines) pair.1 pair.2 := by
  rw [zip_dedent] at membership
  obtain ⟨line, inside, rfl⟩ := List.mem_map.mp membership
  exact isCutAt_dropIndent (fits_sharedIndent inside)

theorem lost_of_mem_zip (narrow : ∀ line ∈ lines, IsNarrow line) {pair : List Char × List Char}
    (membership : pair ∈ lines.zip (dedent lines)) :
    byteLength pair.1 = sharedIndent lines + byteLength pair.2 ∨
      byteLength pair.1 < sharedIndent lines ∧ pair.2 = [] := by
  have inside := (List.of_mem_zip membership).1
  exact (isCutAt_of_mem_zip membership).lost_of_narrow (narrow _ inside) (fits_sharedIndent inside)

theorem exists_flush (solid : ∃ line ∈ lines, isAllBlank line = false) :
    ∃ pair ∈ lines.zip (dedent lines), isAllBlank pair.1 = false ∧ indentation pair.2 = [] := by
  obtain ⟨line, membership, isSolid, least⟩ := exists_sharedIndent_eq solid
  refine ⟨(line, dropIndent (sharedIndent lines) line), ?_, isSolid, ?_⟩
  · rw [zip_dedent]
    exact List.mem_map_of_mem membership
  · have cut : dropBytes? (indentOf line) line = some (trimStart line) :=
      dropBytes?_eq_some_iff.mpr
        ⟨indentation line, (indentation_append_trimStart line).symm, rfl⟩
    rw [dropIndent, least, cut, Option.getD_some, indentation_trimStart]

theorem sharedIndent_dedent (lines : List (List Char)) : sharedIndent (dedent lines) = 0 := by
  by_cases solid : ∃ line ∈ lines, isAllBlank line = false
  · obtain ⟨pair, membership, isSolid, flush⟩ := exists_flush solid
    rw [← (isCutAt_of_mem_zip membership).isAllBlank_eq] at isSolid
    have least := sharedIndent_le (List.of_mem_zip membership).2 isSolid
    rw [indentOf, ← indentation, flush] at least
    exact Nat.le_zero.mp least
  · simp only [not_exists, not_and, Bool.not_eq_false] at solid
    refine sharedIndent_of_blank fun cut membership => ?_
    obtain ⟨line, inside, rfl⟩ := List.mem_map.mp membership
    rw [(isCutAt_dropIndent (fits_sharedIndent inside)).isAllBlank_eq, solid line inside]

theorem dedent_dedent (lines : List (List Char)) : dedent (dedent lines) = dedent lines := by
  rw [dedent, sharedIndent_dedent]
  exact List.map_id'' (fun line => by rw [dropIndent, dropBytes?, Option.getD_some]) _

theorem isDedented_dedent (lines : List (List Char)) : IsDedented lines (dedent lines) where
  length := List.length_map _
  isCut := ⟨sharedIndent lines, fun _ membership => isCutAt_of_mem_zip membership⟩
  flush := exists_flush
  stable := dedent_dedent lines
  even narrow := ⟨sharedIndent lines, fun _ membership => lost_of_mem_zip narrow membership⟩
  relative narrow first membership second other firstSolid secondSolid := by
    have lost : ∀ pair ∈ lines.zip (dedent lines), isAllBlank pair.1 = false →
        indentOf pair.1 = sharedIndent lines + indentOf pair.2 := by
      intro pair inside solid
      have isCut := isCutAt_of_mem_zip inside
      have same := isCut.indentOf_add
      rcases lost_of_mem_zip narrow inside with lost | ⟨-, empty⟩
      · omega
      · rw [← isCut.isAllBlank_eq, empty] at solid
        exact absurd solid (by decide)
    have firstLost := lost first membership firstSolid
    have secondLost := lost second other secondSolid
    omega

/-- A wide space cannot be cut, so the second line loses three bytes where the first loses two. -/
example : dedent ["  if".toList, "\u3000 x".toList, [' '], "   y".toList] =
    ["if".toList, "x".toList, [], " y".toList] := by
  decide

end ScreenCompiler.Text
