import ScreenCompiler.Proofs.Document.RoundTrip
import ScreenCompiler.Proofs.Markup.Notation
import ScreenCompiler.Proofs.Text.Nesting

/-!
# Spaced tag heads

A tag head may stand in a source with gaps of any width between its attributes.  The gaps
are not read: heads that differ in nothing else stand for the same element.
-/

namespace ScreenCompiler

open Text

/-- Whether a value leaves no literal and no brace open that hides the end of its head. -/
def MarkedValue.IsPassed : MarkedValue → Prop
  | braced code => IsBalancedCode code
  | quoted _ _ => True

def WrittenAttribute.IsPassed : WrittenAttribute → Prop
  | flag _ => True
  | assigned assignment _ => assignment.value.IsPassed

/-- Whether an attribute may stand in a head, and stands on one line there. -/
structure WrittenAttribute.FitsHead (written : WrittenAttribute) : Prop where
  passed : written.IsPassed
  flat : '\n' ∉ written.text

/-- Blanks at the side of a line. -/
structure Text.IsMargin (side : List Char) : Prop where
  blank : isAllBlank side = true
  flat : '\n' ∉ side

/-- A tag head as it stands in a source. -/
structure SpacedHead where
  tag : TagName
  /-- The attributes, each with the gap in front of it. -/
  row : List (List Char × WrittenAttribute)
  /-- The gap in front of the end. -/
  lastGap : List Char
  selfClosing : Bool
  indent : List Char
  margin : List Char
  fits : ∀ entry ∈ row, entry.2.FitsHead
  gaps : ∀ entry ∈ row, isAllBlank entry.1 = true ∧ entry.1 ≠ []
  lastBlank : isAllBlank lastGap = true
  isIndent : IsMargin indent
  isMargin : IsMargin margin

namespace SpacedHead

/-- The slash of a head that closes itself. -/
def slash (selfClosing : Bool) : List Char :=
  if selfClosing then ['/'] else []

/-- What stands behind the name of the tag, up to the end of the head. -/
def inside (row : List (List Char × WrittenAttribute)) (lastGap : List Char)
    (selfClosing : Bool) : List Char :=
  WrittenAttribute.rowText row ++ (lastGap ++ slash selfClosing)

def text (head : SpacedHead) : List Char :=
  head.indent ++ ('<' :: head.tag.text ++
    (inside head.row head.lastGap head.selfClosing ++ '>' :: head.margin))

/-- Heads that differ in nothing but their gaps. -/
structure Matches (head other : SpacedHead) : Prop where
  tag : head.tag = other.tag
  attributes : head.row.map Prod.snd = other.row.map Prod.snd
  selfClosing : head.selfClosing = other.selfClosing

/-- No line of a head but the first opens new structure. -/
def GoesOn (text : List Char) : Prop :=
  ∀ raw ∈ (text.splitOn '\n').tail, startsStructure (trim raw) = false

end SpacedHead

/-- A text that neither starts nor ends with a blank. -/
structure Text.HasSolidEnds (text : List Char) : Prop where
  nonempty : text ≠ []
  first : ∀ c, text.head? = some c → isBlank c = false
  last : ∀ c, text.getLast? = some c → isBlank c = false

namespace Text.HasSolidEnds

variable {text other : List Char}

theorem append (solid : HasSolidEnds text) (gap : List Char) (solidOther : HasSolidEnds other) :
    HasSolidEnds (text ++ (gap ++ other)) where
  nonempty := List.append_ne_nil_of_left_ne_nil solid.nonempty _
  first c found := by
    rw [List.head?_append_of_ne_nil _ solid.nonempty] at found
    exact solid.first c found
  last c found := by
    rw [← List.append_assoc, List.getLast?_append_of_ne_nil _ solidOther.nonempty] at found
    exact solidOther.last c found

theorem trim_eq (solid : HasSolidEnds text) {before after : List Char}
    (blankBefore : isAllBlank before = true) (blankAfter : isAllBlank after = true) :
    trim (before ++ (text ++ after)) = text := by
  rw [trim_append_left_of_isAllBlank blankBefore, trim_append_of_isAllBlank blankAfter]
  exact trim_eq_self solid.first solid.last

theorem of_all (nonempty : text ≠ []) (solid : ∀ c ∈ text, isBlank c = false) :
    HasSolidEnds text where
  nonempty := nonempty
  first c found := solid c (List.mem_of_mem_head? found)
  last c found := solid c (List.mem_of_mem_getLast? found)

end Text.HasSolidEnds

theorem WrittenAttribute.hasSolidEnds_text (written : WrittenAttribute) :
    HasSolidEnds written.text where
  nonempty := text_ne_nil written
  first c found := by
    obtain ⟨name, rest, shape⟩ := Attribute.exists_name_text written
    obtain ⟨d, first, named⟩ := Attribute.head?_name name rest
    rw [shape, first, Option.some.injEq] at found
    rw [← found]
    exact Attribute.isBlank_of_isNameChar named
  last _ found := isBlank_getLast? found

/-- A part of a head that gaps may stand around. -/
structure Head.IsWord (word : List Char) : Prop where
  quiet : Quiet word
  solid : HasSolidEnds word
  flat : '\n' ∉ word

theorem quiet_of_isAllBlank {gap : List Char} (blank : isAllBlank gap = true) : Head.Quiet gap := by
  refine Head.quiet_of_plain fun c membership => ?_
  have isBlank := isAllBlank_iff.mp blank c membership
  refine ⟨isQuote_of_isBlank isBlank, ?_, ?_, ?_⟩ <;>
  · rintro rfl
    exact absurd isBlank (by decide)

theorem quiet_name (name : AttributeName) : Head.Quiet name.text :=
  Head.quiet_of_plain fun c membership =>
    Head.plain_of_class (by decide) (List.all_eq_true.mp name.named c membership)

theorem WrittenAttribute.FitsHead.quiet {written : WrittenAttribute} (fits : written.FitsHead) :
    Head.Quiet written.text := by
  cases written with
  | flag name => exact quiet_name name
  | assigned assignment enclosed =>
      obtain ⟨name, before, after, value, blank⟩ := assignment
      have sign : Head.Quiet ['='] :=
        Head.quiet_of_plain (List.forall_mem_singleton.mpr (by decide))
      have front := (((quiet_name name).append (quiet_of_isAllBlank blank.1)).append sign).append
        (quiet_of_isAllBlank blank.2)
      have quiet : Head.Quiet (value.opening :: value.content ++ [value.closing]) := by
        cases value with
        | braced code => exact Head.quiet_braced fits.passed
        | quoted mark content =>
            apply Head.quiet_quoted _ enclosed.2
            rcases enclosed.1 with rfl | rfl
            · decide
            · decide
      simpa [text, Assignment.text] using front.append quiet

theorem WrittenAttribute.FitsHead.isWord {written : WrittenAttribute} (fits : written.FitsHead) :
    Head.IsWord written.text :=
  ⟨fits.quiet, hasSolidEnds_text written, fits.flat⟩

/-- A text without an end of tag goes on. -/
theorem Head.Quiet.read?_eq_none {inside : List Char} (quiet : Quiet inside) :
    read? ('<' :: inside) = none := by
  rw [read?, quiet.goesOn, Option.map_none]

theorem Head.Quiet.endsInOpenQuote {inside : List Char} (quiet : Quiet inside) :
    endsInOpenQuote ('<' :: inside) = false := by
  have returns : Place.start.after ('<' :: inside) = .start := quiet.returns
  rw [Head.endsInOpenQuote, returns]
  rfl

theorem Head.Quiet.read?_ended {inside : List Char} (quiet : Quiet inside) :
    read? ('<' :: inside ++ ['>']) = some (ofInside inside, []) := by
  rw [List.cons_append, read?, quiet.findEnd? []]
  rfl

namespace SpacedHead

variable (catalog : Catalog)

/-- The item of a head. -/
def item (head : SpacedHead) (number : Nat) : Item :=
  let tag := String.ofList head.tag.text
  let props := Props.ofEntries (head.row.map fun (_, written) => written.entry catalog)
  if head.selfClosing then .leaf tag props number else .opening tag props number

variable {row : List (List Char × WrittenAttribute)} {gap : List Char}

theorem entries_eq {other : List (List Char × WrittenAttribute)}
    (same : row.map Prod.snd = other.map Prod.snd) :
    (row.map fun (_, written) => written.entry catalog) =
      other.map fun (_, written) => written.entry catalog := by
  have mapped := congrArg (List.map (WrittenAttribute.entry catalog)) same
  rwa [List.map_map, List.map_map] at mapped

theorem Matches.item_eq {head other : SpacedHead} (same : head.Matches other) (number : Nat) :
    head.item catalog number = other.item catalog number := by
  rw [item, item, entries_eq catalog same.attributes, same.tag, same.selfClosing]

theorem isTagChar_head? (gaps : ∀ entry ∈ row, isAllBlank entry.1 = true ∧ entry.1 ≠ [])
    (blank : isAllBlank gap = true) (c : Char)
    (first : (WrittenAttribute.rowText row ++ gap).head? = some c) : Head.isTagChar c = false := by
  have isBlank : isBlank c = true := by
    cases row with
    | nil => exact isAllBlank_iff.mp blank c (List.mem_of_mem_head? first)
    | cons entry row =>
        obtain ⟨blankEntry, nonempty⟩ := gaps entry List.mem_cons_self
        rw [WrittenAttribute.rowText, List.flatMap_cons, List.append_assoc, List.append_assoc,
          List.head?_append_of_ne_nil _ nonempty] at first
        exact isAllBlank_iff.mp blankEntry c (List.mem_of_mem_head? first)
  rw [Bool.eq_false_iff]
  intro named
  rw [Head.isBlank_of_isTagChar named] at isBlank
  exact Bool.false_ne_true isBlank

/-- The slash of a head that closes itself is the last character of no attribute. -/
theorem beforeSuffix?_rowText (row : List (List Char × WrittenAttribute)) :
    beforeSuffix? ['/'] (WrittenAttribute.rowText row) = none := by
  rw [Option.eq_none_iff_forall_ne_some]
  intro rest found
  have last : (WrittenAttribute.rowText row).getLast? = some '/' := by
    rw [beforeSuffix?_eq_some_iff.mp found, List.getLast?_concat]
  obtain ⟨written, lastOfWritten⟩ := WrittenAttribute.getLast?_rowText row last
  rcases WrittenAttribute.getLast?_text lastOfWritten with named | closing
  · exact absurd named (by decide)
  · exact absurd closing (by decide)

/-- However wide the gaps of a head are, the same is read from it. -/
theorem ofInside_inside (tag : TagName)
    (gaps : ∀ entry ∈ row, isAllBlank entry.1 = true ∧ entry.1 ≠ [])
    (blank : isAllBlank gap = true) (selfClosing : Bool) :
    ∃ attributes, Head.ofInside (tag.text ++ inside row gap selfClosing) =
        ⟨tag.text, attributes, selfClosing⟩ ∧
      ScannedProps.read catalog attributes =
        ⟨.ofEntries (row.map fun (_, written) => written.entry catalog), []⟩ := by
  have areGaps : AreGaps (row.map Prod.fst) := by
    constructor
    · intro side membership
      obtain ⟨entry, inRow, rfl⟩ := List.mem_map.mp membership
      exact (gaps entry inRow).1
    · intro side membership
      obtain ⟨entry, inRow, rfl⟩ := List.mem_map.mp (List.mem_of_mem_tail membership)
      exact (gaps entry inRow).2
  have read := ScannedProps.read_rowText catalog areGaps
  cases selfClosing with
  | true =>
      refine ⟨WrittenAttribute.rowText row ++ gap, ?_, ?_⟩
      · have shape : tag.text ++ inside row gap true =
            tag.text ++ (WrittenAttribute.rowText row ++ gap) ++ ['/'] := by
          simp [inside, slash]
        rw [shape]
        exact Markup.ofInside_closed tag (isTagChar_head? gaps blank)
      · rw [← read, ScannedProps.read, ScannedProps.read, trim_append_of_isAllBlank blank]
  | false =>
      refine ⟨WrittenAttribute.rowText row, ?_, read⟩
      obtain ⟨name, rest⟩ := Markup.scan_tag tag (isTagChar_head? gaps blank)
      have shape : inside row gap false = WrittenAttribute.rowText row ++ gap := by
        simp [inside, slash]
      rw [shape, Head.ofInside, name, rest, trimEnd_append_of_isAllBlank blank,
        WrittenAttribute.trimEnd_rowText, beforeSuffix?_rowText]

end SpacedHead

end ScreenCompiler
