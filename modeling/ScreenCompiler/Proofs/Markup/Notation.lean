import ScreenCompiler.Proofs.Markup.BracedValues
import ScreenCompiler.Proofs.Markup.Props

/-!
# Attribute notation

An attribute is a name alone, or a name with a value in braces or quotes.  However it is
written, with blanks around its equals sign and gaps between it and the next one, it is read
back as it was meant.  The value of the last one may do without its closing mark; then it
reaches to the last solid character of the text.
-/

namespace ScreenCompiler

open Text

structure AttributeName where
  text : List Char
  nonempty : text ≠ []
  named : text.all Attribute.isNameChar = true

/-- A value as it stands between its marks. -/
inductive MarkedValue where
  | braced (code : List Char)
  | quoted (mark : Char) (text : List Char)

namespace MarkedValue

def opening : MarkedValue → Char
  | braced _ => '{'
  | quoted mark _ => mark

def closing : MarkedValue → Char
  | braced _ => '}'
  | quoted mark _ => mark

def content : MarkedValue → List Char
  | braced code => code
  | quoted _ text => text

/-- The value up to its last solid character. -/
def trimmed : MarkedValue → MarkedValue
  | braced code => braced (trimEnd code)
  | quoted mark text => quoted mark (trimEnd text)

/-- Whether nothing in the content closes the value. -/
def GoesOn : MarkedValue → Prop
  | braced code => ∀ length, (code.take length).count '}' ≤ (code.take length).count '{'
  | quoted mark text => (mark = '"' ∨ mark = '\'') ∧ mark ∉ text

/-- Whether the mark behind the content is the one that closes the value. -/
def IsEnclosed : MarkedValue → Prop
  | braced code => HasBalancedBraces code
  | quoted mark text => (mark = '"' ∨ mark = '\'') ∧ mark ∉ text

def form (closed : Bool) : MarkedValue → Attribute.Form
  | braced code => .braced code closed
  | quoted _ text => .quoted text closed

def toValue (catalog : Catalog) (name : String) : MarkedValue → PropValue
  | braced code => .ofBraced code
  | quoted _ text => .ofQuoted catalog name text

end MarkedValue

/-- A name with a value, up to the closing mark of the value. -/
structure Assignment where
  name : AttributeName
  before : List Char
  after : List Char
  value : MarkedValue
  blank : isAllBlank before = true ∧ isAllBlank after = true

namespace Assignment

def text (assignment : Assignment) : List Char :=
  assignment.name.text ++ (assignment.before ++ '=' :: (assignment.after ++
    assignment.value.opening :: assignment.value.content))

def entry (catalog : Catalog) (assignment : Assignment) : String × PropValue :=
  (String.ofList assignment.name.text,
    assignment.value.toValue catalog (String.ofList assignment.name.text))

/-- The assignment with its value up to the last solid character. -/
def trimmed (assignment : Assignment) : Assignment :=
  { assignment with value := assignment.value.trimmed }

end Assignment

inductive WrittenAttribute where
  | flag (name : AttributeName)
  | assigned (assignment : Assignment) (enclosed : assignment.value.IsEnclosed)

namespace WrittenAttribute

def text : WrittenAttribute → List Char
  | flag name => name.text
  | assigned assignment _ => assignment.text ++ [assignment.value.closing]

def entry (catalog : Catalog) : WrittenAttribute → String × PropValue
  | flag name => (String.ofList name.text, .bool true)
  | assigned assignment _ => assignment.entry catalog

/-- The attribute that is read. -/
def item : WrittenAttribute → Attribute
  | flag name => ⟨String.ofList name.text, .bare⟩
  | assigned assignment _ => ⟨String.ofList assignment.name.text, assignment.value.form true⟩

/-- Attributes with a gap in front of each. -/
def rowText (attributes : List (List Char × WrittenAttribute)) : List Char :=
  attributes.flatMap fun (gap, written) => gap ++ written.text

end WrittenAttribute

/-- Gaps in front of things that stand in a row; the first of them may be empty. -/
structure AreGaps (gaps : List (List Char)) : Prop where
  blank : ∀ gap ∈ gaps, isAllBlank gap = true
  apart : ∀ gap ∈ gaps.tail, gap ≠ []

theorem AreGaps.of_append {gaps more : List (List Char)} (areGaps : AreGaps (gaps ++ more)) :
    AreGaps gaps where
  blank gap inside := areGaps.blank gap (List.mem_append_left _ inside)
  apart gap inside := by
    apply areGaps.apart gap
    cases gaps with
    | nil => exact absurd inside List.not_mem_nil
    | cons first gaps => exact List.mem_append_left _ inside

/-- An attribute text: attributes in a row, and perhaps one more whose value is left open. -/
structure AttributeText where
  row : List (List Char × WrittenAttribute)
  openEnd : Option (List Char × { assignment : Assignment // assignment.value.GoesOn })
  gaps : AreGaps (row.map Prod.fst ++ openEnd.toList.map Prod.fst)

namespace AttributeText

def text (attributes : AttributeText) : List Char :=
  WrittenAttribute.rowText attributes.row ++
    attributes.openEnd.toList.flatMap fun (gap, last) => gap ++ last.1.text

/-- What the attributes stand for, in the order in which they are written. -/
def entries (catalog : Catalog) (attributes : AttributeText) : List (String × PropValue) :=
  attributes.row.map (fun (_, written) => written.entry catalog) ++
    attributes.openEnd.toList.map fun (_, last) => last.1.trimmed.entry catalog

def unterminated (attributes : AttributeText) : List String :=
  attributes.openEnd.toList.map fun (_, last) => String.ofList last.1.name.text

end AttributeText

namespace MarkedValue

variable {value : MarkedValue}

theorem isBlank_of_isValueQuote {mark : Char} (marks : mark = '"' ∨ mark = '\'') :
    isBlank mark = false := by
  rcases marks with rfl | rfl
  · decide
  · decide

theorem isBlank_opening (goesOn : value.GoesOn) : isBlank value.opening = false := by
  cases value with
  | braced code => exact Eq.refl false
  | quoted mark text => exact isBlank_of_isValueQuote goesOn.1

theorem IsEnclosed.goesOn (enclosed : value.IsEnclosed) : value.GoesOn := by
  cases value with
  | braced code => exact enclosed.opened
  | quoted mark text => exact enclosed

theorem GoesOn.trimmed (goesOn : value.GoesOn) : value.trimmed.GoesOn := by
  cases value with
  | braced code =>
      intro length
      obtain ⟨gap, -, split⟩ := exists_trimEnd_append code
      have front : (trimEnd code).take length =
          code.take (min length (trimEnd code).length) := by
        generalize trimEnd code = solid at split ⊢
        rw [split, List.take_append_of_le_length (Nat.min_le_right _ _), ← List.take_eq_take_min]
      change ((trimEnd code).take length).count '}' ≤ ((trimEnd code).take length).count '{'
      rw [front]
      exact goesOn _
  | quoted mark text =>
      refine ⟨goesOn.1, fun inside => goesOn.2 ?_⟩
      obtain ⟨gap, -, split⟩ := exists_trimEnd_append text
      rw [split]
      exact List.mem_append_left gap inside

/-- An enclosed value ends at the mark behind it. -/
theorem readValue_enclosed (enclosed : value.IsEnclosed) (rest : List Char) :
    Attribute.readValue value.opening (value.content ++ value.closing :: rest) =
      (value.form true, rest) := by
  cases value with
  | braced code =>
      have ended : Attribute.braced 0 (code ++ '}' :: rest) = (code, some rest) := by
        rw [Attribute.braced_append (hasBalancedBraces_iff.mp enclosed)]
        simp [Attribute.braced]
      simp [Attribute.readValue, opening, content, closing, form, ended]
  | quoted mark text =>
      have other : mark ≠ '{' := by
        rcases enclosed.1 with rfl | rfl <;> decide
      have ended := Attribute.quoted_append enclosed.2 rest
      simp [Attribute.readValue, opening, content, closing, form, other, enclosed.1, ended]

theorem quoted_of_notMem {mark : Char} {text : List Char} (other : mark ∉ text) :
    Attribute.quoted mark text = (text, none) := by
  induction text with
  | nil => rfl
  | cons c text inductionHypothesis =>
      rw [List.mem_cons, not_or] at other
      simp only [Attribute.quoted, Ne.symm other.1, ↓reduceIte, inductionHypothesis other.2]

/-- A value that nothing closes reaches to the end. -/
theorem readValue_open (goesOn : value.GoesOn) :
    Attribute.readValue value.opening value.content = (value.form false, []) := by
  cases value with
  | braced code =>
      have depth : braceDepth? 0 code = some (code.count '{' - code.count '}') := by
        apply braceDepth?_eq_some_iff.mpr
        have whole := goesOn code.length
        rw [List.take_length] at whole
        refine ⟨fun length => ?_, by omega⟩
        rw [Nat.zero_add]
        exact goesOn length
      have unclosed : Attribute.braced 0 code = (code, none) := by
        have ended := Attribute.braced_append depth []
        simpa [Attribute.braced] using ended
      simp [Attribute.readValue, opening, content, form, unclosed]
  | quoted mark text =>
      have other : mark ≠ '{' := by
        rcases goesOn.1 with rfl | rfl <;> decide
      simp [Attribute.readValue, opening, content, form, other, goesOn.1,
        quoted_of_notMem goesOn.2]

end MarkedValue

namespace Attribute

/-- Whether a name in front of a text ends there and has no value. -/
structure EndsName (text : List Char) : Prop where
  ends : ∀ c, text.head? = some c → isNameChar c = false
  alone : (trimStart text).head? ≠ some '='

theorem isNameChar_of_isBlank {c : Char} (blank : isBlank c = true) : isNameChar c = false := by
  rw [← Bool.not_eq_true]
  intro named
  rw [isBlank_of_isNameChar named] at blank
  exact Bool.false_ne_true blank

theorem head?_name (name : AttributeName) (rest : List Char) :
    ∃ c, (name.text ++ rest).head? = some c ∧ isNameChar c = true := by
  obtain ⟨c, more, shape⟩ := List.exists_cons_of_ne_nil name.nonempty
  have named := name.named
  rw [shape, List.all_cons, Bool.and_eq_true] at named
  exact ⟨c, by rw [shape]; rfl, named.1⟩

theorem trimStart_name (name : AttributeName) (rest : List Char) :
    trimStart (name.text ++ rest) = name.text ++ rest := by
  apply trimStart_eq_self
  intro c first
  obtain ⟨d, found, named⟩ := head?_name name rest
  obtain rfl : d = c := Option.some.inj (found.symm.trans first)
  exact isBlank_of_isNameChar named

theorem endsName_nil : EndsName [] where
  ends _ first := absurd first.symm (Option.some_ne_none _)
  alone := by simp

/-- A gap with another name behind it ends a name. -/
theorem endsName_gap {gap : List Char} (blank : isAllBlank gap = true) (nonempty : gap ≠ [])
    (name : AttributeName) (rest : List Char) : EndsName (gap ++ (name.text ++ rest)) where
  ends := by
    intro c first
    rw [List.head?_append_of_ne_nil _ nonempty] at first
    exact isNameChar_of_isBlank (isAllBlank_iff.mp blank c (List.mem_of_mem_head? first))
  alone := by
    obtain ⟨c, first, named⟩ := head?_name name rest
    rw [trimStart_append_of_isAllBlank blank, trimStart_name, first, ne_eq, Option.some.injEq]
    rintro rfl
    exact absurd named (by decide)

theorem readForm_of_endsName {text : List Char} (ends : EndsName text) :
    readForm text = (.bare, text) := by
  unfold readForm
  split
  · rfl
  · rename_i c rest found
    have other : c ≠ '=' := by
      rintro rfl
      exact ends.alone (by rw [found]; rfl)
    rw [if_neg other]

/-- The blanks around an equals sign do not matter. -/
theorem readForm_sign {before after : List Char} (blankBefore : isAllBlank before = true)
    (blankAfter : isAllBlank after = true) {c : Char} (solid : isBlank c = false)
    (inside : List Char) :
    readForm (before ++ '=' :: (after ++ c :: inside)) = readValue c inside := by
  have equals : isBlank '=' = false := by decide
  rw [readForm, trimStart_append_of_isAllBlank blankBefore, trimStart_cons_of_not_blank equals]
  simp only [↓reduceIte]
  rw [trimStart_append_of_isAllBlank blankAfter, trimStart_cons_of_not_blank solid]

theorem sign_ends {before : List Char} (blank : isAllBlank before = true) (rest : List Char) :
    ∀ c, (before ++ '=' :: rest).head? = some c → isNameChar c = false := by
  intro c first
  cases before with
  | nil => exact equals_ends rest c first
  | cons d more =>
      obtain rfl : d = c := Option.some.inj first
      exact isNameChar_of_isBlank (isAllBlank_iff.mp blank d List.mem_cons_self)

theorem list_gap {gap : List Char} (blank : isAllBlank gap = true) (text : List Char) :
    list (gap ++ text) = list text :=
  list_eq_of_trimStart_eq (trimStart_append_of_isAllBlank blank)

theorem list_nil : list [] = [] := by
  rw [list]
  rfl

/-- Only the end of an attribute text is trimmed in earnest; blanks in front are passed over. -/
theorem list_trim (text : List Char) : list (trim text) = list (trimEnd text) := by
  have kept : trim (trimEnd text) = trimStart (trimEnd text) := by
    apply trimEnd_eq_self
    intro last found
    obtain ⟨gap, -, shape⟩ := exists_append_trimStart (trimEnd text)
    have nonempty : trimStart (trimEnd text) ≠ [] := by
      intro empty
      simp [empty] at found
    apply getLast?_trimEnd
    rw [shape, List.getLast?_append_of_ne_nil _ nonempty, found]
  rw [← trim_trimEnd, kept]
  exact list_eq_of_trimStart_eq (trimStart_eq_self fun _ first => head?_trimStart first)

theorem list_assignment (assignment : Assignment) (goesOn : assignment.value.GoesOn)
    (rest : List Char) :
    list (assignment.text ++ rest) =
      ⟨String.ofList assignment.name.text,
          (readValue assignment.value.opening (assignment.value.content ++ rest)).1⟩ ::
        list (readValue assignment.value.opening (assignment.value.content ++ rest)).2 := by
  have shape : assignment.text ++ rest = assignment.name.text ++ (assignment.before ++
      '=' :: (assignment.after ++
        assignment.value.opening :: (assignment.value.content ++ rest))) := by
    simp [Assignment.text]
  rw [shape, list_name assignment.name.nonempty assignment.name.named
    (sign_ends assignment.blank.1 _), readForm_sign assignment.blank.1 assignment.blank.2
      (MarkedValue.isBlank_opening goesOn)]

theorem list_open (assignment : Assignment) (goesOn : assignment.value.GoesOn) :
    list assignment.text =
      [⟨String.ofList assignment.name.text, assignment.value.form false⟩] := by
  have read := list_assignment assignment goesOn []
  rw [List.append_nil, List.append_nil, MarkedValue.readValue_open goesOn, list_nil] at read
  exact read

theorem list_written (written : WrittenAttribute) {rest : List Char} (ends : EndsName rest) :
    list (written.text ++ rest) = written.item :: list rest := by
  cases written with
  | flag name =>
      rw [WrittenAttribute.text, list_name name.nonempty name.named ends.ends,
        readForm_of_endsName ends]
      rfl
  | assigned assignment enclosed =>
      have read := list_assignment assignment enclosed.goesOn (assignment.value.closing :: rest)
      rw [MarkedValue.readValue_enclosed enclosed] at read
      rw [WrittenAttribute.text, List.append_assoc, List.singleton_append, read]
      rfl

theorem exists_name_text (written : WrittenAttribute) :
    ∃ (name : AttributeName) (rest : List Char), written.text = name.text ++ rest := by
  cases written with
  | flag name => exact ⟨name, [], (List.append_nil _).symm⟩
  | assigned assignment enclosed =>
      rw [WrittenAttribute.text, Assignment.text, List.append_assoc]
      exact ⟨assignment.name, _, rfl⟩

/-- Attributes in a row are read one after the other, whatever stands behind them. -/
theorem list_rowText {attributes : List (List Char × WrittenAttribute)}
    (gaps : AreGaps (attributes.map Prod.fst)) {rest : List Char}
    (ends : attributes ≠ [] → EndsName rest) :
    list (WrittenAttribute.rowText attributes ++ rest) =
      attributes.map (WrittenAttribute.item ∘ Prod.snd) ++ list rest := by
  induction attributes with
  | nil => simp [WrittenAttribute.rowText]
  | cons entry attributes inductionHypothesis =>
      obtain ⟨gap, written⟩ := entry
      have later : AreGaps (attributes.map Prod.fst) :=
        ⟨fun other inside => gaps.blank other (List.mem_cons_of_mem _ inside),
          fun other inside => gaps.apart other (List.mem_of_mem_tail inside)⟩
      have behind : EndsName (WrittenAttribute.rowText attributes ++ rest) := by
        cases attributes with
        | nil => exact ends (List.cons_ne_nil _ _)
        | cons next more =>
            obtain ⟨name, tail, shape⟩ := exists_name_text next.2
            have nextGap := gaps.apart next.1 List.mem_cons_self
            have nextBlank := gaps.blank next.1 (List.mem_cons_of_mem _ List.mem_cons_self)
            have front := endsName_gap nextBlank nextGap name
              (tail ++ (WrittenAttribute.rowText more ++ rest))
            simpa [WrittenAttribute.rowText, shape] using front
      have shape : WrittenAttribute.rowText ((gap, written) :: attributes) ++ rest =
          gap ++ (written.text ++ (WrittenAttribute.rowText attributes ++ rest)) := by
        simp [WrittenAttribute.rowText]
      rw [shape, list_gap (gaps.blank gap List.mem_cons_self), list_written written behind,
        inductionHypothesis later fun _ => ends (List.cons_ne_nil _ _)]
      rfl

end Attribute

namespace WrittenAttribute

variable (catalog : Catalog) (attributes : List (List Char × WrittenAttribute))

theorem entry_item (written : WrittenAttribute) :
    written.entry catalog = (written.item.name, written.item.toValue catalog) := by
  cases written with
  | flag name => rfl
  | assigned assignment enclosed =>
      rw [entry, Assignment.entry, item]
      cases assignment.value <;> rfl

theorem isUnterminated_item (written : WrittenAttribute) :
    written.item.isUnterminated = false := by
  cases written with
  | flag name => rfl
  | assigned assignment enclosed =>
      rw [item]
      cases assignment.value <;> rfl

theorem unterminated_items :
    (attributes.map (item ∘ Prod.snd)).filter Attribute.isUnterminated = [] := by
  apply List.filter_eq_nil_iff.mpr
  intro found membership
  obtain ⟨written, -, rfl⟩ := List.mem_map.mp membership
  rw [Function.comp_apply, isUnterminated_item]
  exact Bool.false_ne_true

theorem getLast?_text {written : WrittenAttribute} {c : Char}
    (last : written.text.getLast? = some c) :
    Attribute.isNameChar c = true ∨ c = '}' ∨ c = '"' ∨ c = '\'' := by
  cases written with
  | flag name =>
      exact .inl (List.all_eq_true.mp name.named c (List.mem_of_mem_getLast? last))
  | assigned assignment enclosed =>
      rw [text, List.getLast?_concat, Option.some.injEq] at last
      rw [← last]
      cases value : assignment.value with
      | braced code => exact .inr (.inl rfl)
      | quoted mark content =>
          rw [value] at enclosed
          exact .inr (.inr enclosed.1)

theorem isBlank_getLast? {written : WrittenAttribute} {c : Char}
    (last : written.text.getLast? = some c) : isBlank c = false := by
  rcases getLast?_text last with named | rfl | rfl | rfl
  · exact Attribute.isBlank_of_isNameChar named
  · decide
  · decide
  · decide

theorem text_ne_nil (written : WrittenAttribute) : written.text ≠ [] := by
  obtain ⟨name, rest, shape⟩ := Attribute.exists_name_text written
  rw [shape]
  exact List.append_ne_nil_of_left_ne_nil name.nonempty rest

theorem getLast?_rowText {c : Char} (last : (rowText attributes).getLast? = some c) :
    ∃ written : WrittenAttribute, written.text.getLast? = some c := by
  rcases List.eq_nil_or_concat attributes with rfl | ⟨before, final, rfl⟩
  · exact absurd last.symm (Option.some_ne_none c)
  · refine ⟨final.2, ?_⟩
    rwa [List.concat_eq_append, rowText, List.flatMap_append, List.flatMap_singleton,
      ← List.append_assoc, List.getLast?_append_of_ne_nil _ (text_ne_nil final.2)] at last

theorem trimEnd_rowText : trimEnd (rowText attributes) = rowText attributes := by
  apply trimEnd_eq_self
  intro last found
  obtain ⟨written, lastOfWritten⟩ := getLast?_rowText attributes found
  exact isBlank_getLast? lastOfWritten

end WrittenAttribute

theorem Assignment.trimEnd_text (assignment : Assignment) (goesOn : assignment.value.GoesOn)
    (front : List Char) :
    trimEnd (front ++ assignment.text) = front ++ assignment.trimmed.text := by
  obtain ⟨name, before, after, value, blank⟩ := assignment
  have solid := MarkedValue.isBlank_opening goesOn
  have shape : front ++ Assignment.text ⟨name, before, after, value, blank⟩ =
      front ++ (name.text ++ (before ++ '=' :: after)) ++ value.opening :: value.content := by
    simp [Assignment.text]
  rw [shape, trimEnd_append_cons solid]
  cases value <;> simp [Assignment.text, Assignment.trimmed, MarkedValue.trimmed,
    MarkedValue.opening, MarkedValue.content]

namespace ScannedProps

open WrittenAttribute

variable (catalog : Catalog) {row : List (List Char × WrittenAttribute)}

theorem ofAttributes_eq (found : List Attribute) :
    ofAttributes catalog found =
      ⟨.ofEntries (found.map fun item => (item.name, item.toValue catalog)),
        (found.filter Attribute.isUnterminated).map Attribute.name⟩ := by
  rw [ofAttributes, Props.ofEntries, List.foldl_map]

/-- Behind attributes in a row only what follows them can be unterminated. -/
theorem ofAttributes_items (more : List Attribute) :
    ofAttributes catalog (row.map (item ∘ Prod.snd) ++ more) =
      ⟨.ofEntries (row.map (fun (_, written) => written.entry catalog) ++
          more.map fun item => (item.name, item.toValue catalog)),
        (more.filter Attribute.isUnterminated).map Attribute.name⟩ := by
  have values : (row.map (item ∘ Prod.snd)).map (fun item => (item.name, item.toValue catalog)) =
      row.map fun (_, written) => written.entry catalog := by
    rw [List.map_map]
    exact List.map_congr_left fun entry _ => (entry_item catalog entry.2).symm
  rw [ofAttributes_eq, List.map_append, values, List.filter_append, unterminated_items,
    List.nil_append]

theorem read_rowText (gaps : AreGaps (row.map Prod.fst)) :
    read catalog (rowText row) =
      ⟨.ofEntries (row.map fun (_, written) => written.entry catalog), []⟩ := by
  have listed := Attribute.list_rowText gaps (fun _ => Attribute.endsName_nil)
  rw [List.append_nil, Attribute.list_nil] at listed
  rw [read, Attribute.list_trim, trimEnd_rowText, listed, ofAttributes_items, List.map_nil,
    List.append_nil]
  rfl

/-- A value that is left open loses the blanks at its end and is reported. -/
theorem read_rowText_open {gap : List Char} (gaps : AreGaps (row.map Prod.fst ++ [gap]))
    {last : Assignment} (goesOn : last.value.GoesOn) :
    read catalog (rowText row ++ (gap ++ last.text)) =
      ⟨.ofEntries (row.map (fun (_, written) => written.entry catalog) ++
          [last.trimmed.entry catalog]),
        [String.ofList last.name.text]⟩ := by
  have blank := gaps.blank gap (by simp)
  have ends : row ≠ [] → Attribute.EndsName (gap ++ last.trimmed.text) := by
    intro nonempty
    obtain ⟨first, more, rfl⟩ := List.exists_cons_of_ne_nil nonempty
    exact Attribute.endsName_gap blank (gaps.apart gap (by simp)) last.name _
  have tail : Attribute.list (gap ++ last.trimmed.text) =
      [⟨String.ofList last.name.text, last.value.trimmed.form false⟩] := by
    rw [Attribute.list_gap blank, Attribute.list_open last.trimmed goesOn.trimmed]
    rfl
  rw [read, Attribute.list_trim, ← List.append_assoc, last.trimEnd_text goesOn, List.append_assoc,
    Attribute.list_rowText gaps.of_append ends, tail, ofAttributes_items, Assignment.entry,
    Assignment.trimmed]
  cases last.value with
  | braced code => rfl
  | quoted mark text => rfl

/-- Attributes are read as they are written, and every name is held once. -/
theorem read_attributeText (attributes : AttributeText) :
    read catalog attributes.text =
        ⟨.ofEntries (attributes.entries catalog), attributes.unterminated⟩ ∧
      (Props.ofEntries (attributes.entries catalog)).names =
        ((attributes.entries catalog).map Prod.fst).eraseDups ∧
      ∀ name, (Props.ofEntries (attributes.entries catalog)).get? name =
        (attributes.entries catalog).reverse.lookup name := by
  refine ⟨?_, Props.names_ofEntries _, fun name => Props.get?_ofEntries _ name⟩
  obtain ⟨row, openEnd, gaps⟩ := attributes
  cases openEnd with
  | none =>
      have closed : AreGaps (row.map Prod.fst) := gaps.of_append
      simpa [AttributeText.text, AttributeText.entries, AttributeText.unterminated] using
        read_rowText catalog closed
  | some last =>
      obtain ⟨gap, last, goesOn⟩ := last
      simpa [AttributeText.text, AttributeText.entries, AttributeText.unterminated] using
        read_rowText_open catalog gaps goesOn

end ScannedProps

end ScreenCompiler
