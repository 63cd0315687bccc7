import Mathlib.Data.List.Induction
import Mathlib.Data.List.Nodup
import ScreenCompiler.Markup.Attributes
import ScreenCompiler.Proofs.Markup.Scanning
import ScreenCompiler.Proofs.Text.Letters
import ScreenCompiler.Proofs.Text.Trim

/-!
# Written attributes

Attributes written with quoted values are read as they were written, each value
whole, whatever stands in it besides the quote.
-/

namespace ScreenCompiler

open Text

/-- Attributes as they are written behind a tag. -/
structure WrittenAttributes where
  entries : List (List Char × List Char)
  distinct : (entries.map Prod.fst).Nodup
  named : ∀ entry ∈ entries, entry.1 ≠ [] ∧ entry.1.all Attribute.isNameChar = true
  quotable : ∀ entry ∈ entries, '"' ∉ entry.2 ∧ '\n' ∉ entry.2

namespace WrittenAttributes

def entryText (entry : List Char × List Char) : List Char :=
  ' ' :: entry.1 ++ '=' :: '"' :: entry.2 ++ ['"']

def text (attributes : WrittenAttributes) : List Char :=
  attributes.entries.flatMap entryText

/-- What the attributes stand for, in the order they are written. -/
def props (catalog : Catalog) (attributes : WrittenAttributes) : Props where
  entries := attributes.entries.map fun (name, value) =>
    (String.ofList name, .ofQuoted catalog (String.ofList name) value)

end WrittenAttributes

namespace Attribute

theorem isBlank_of_isNameChar {c : Char} (named : isNameChar c = true) : isBlank c = false := by
  simp only [isNameChar, Bool.or_eq_true, beq_iff_eq] at named
  rcases named with (plain | rfl) | rfl
  · exact isBlank_of_isAsciiAlphanumeric plain
  · decide
  · decide

theorem quoted_append {quote : Char} {value : List Char} (other : quote ∉ value)
    (rest : List Char) : quoted quote (value ++ quote :: rest) = (value, some rest) := by
  induction value with
  | nil => simp [quoted]
  | cons c value inductionHypothesis =>
      rw [List.mem_cons, not_or] at other
      simp only [List.cons_append, quoted, Ne.symm other.1, ↓reduceIte,
        inductionHypothesis other.2]

theorem list_eq_of_trimStart_eq {first second : List Char}
    (same : trimStart first = trimStart second) : list first = list second := by
  rw [list, list, same]

theorem readForm_quoted {value : List Char} (other : '"' ∉ value) (rest : List Char) :
    readForm ('=' :: '"' :: (value ++ '"' :: rest)) = (.quoted value true, rest) := by
  have equals : isBlank '=' = false := by decide
  have quote : isBlank '"' = false := by decide
  rw [readForm, trimStart_cons_of_not_blank equals]
  simp only [↓reduceIte]
  rw [trimStart_cons_of_not_blank quote]
  simp [readValue, quoted_append other]

theorem list_name {name behind : List Char} (nonempty : name ≠ [])
    (named : name.all isNameChar = true)
    (ends : ∀ c, behind.head? = some c → isNameChar c = false) :
    list (name ++ behind) =
      ⟨String.ofList name, (readForm behind).1⟩ :: list (readForm behind).2 := by
  obtain ⟨c, more, rfl⟩ := List.exists_cons_of_ne_nil nonempty
  obtain ⟨first, others⟩ := List.forall_mem_cons.mp (List.all_eq_true.mp named)
  have stops : behind.takeWhile isNameChar = [] ∧ behind.dropWhile isNameChar = behind := by
    cases behind with
    | nil => exact ⟨rfl, rfl⟩
    | cons d behind => simp [ends d rfl]
  have front : (more ++ behind).takeWhile isNameChar = more := by
    rw [List.takeWhile_append_of_pos others, stops.1, List.append_nil]
  have rest : (more ++ behind).dropWhile isNameChar = behind := by
    rw [List.dropWhile_append_of_pos others, stops.2]
  rw [List.cons_append, list, trimStart_cons_of_not_blank (isBlank_of_isNameChar first)]
  simp only [first, ↓reduceIte, front, rest]

theorem equals_ends (rest : List Char) :
    ∀ c, ('=' :: rest).head? = some c → isNameChar c = false := by
  intro c first
  obtain rfl : '=' = c := Option.some.inj first
  decide

theorem list_entryText {name value : List Char} (nonempty : name ≠ [])
    (named : name.all isNameChar = true) (other : '"' ∉ value) (rest : List Char) :
    list (WrittenAttributes.entryText (name, value) ++ rest) =
      ⟨String.ofList name, .quoted value true⟩ :: list rest := by
  have shape : WrittenAttributes.entryText (name, value) ++ rest =
      ' ' :: (name ++ '=' :: '"' :: (value ++ '"' :: rest)) := by
    simp [WrittenAttributes.entryText]
  have trimmed : trimStart (' ' :: (name ++ '=' :: '"' :: (value ++ '"' :: rest))) =
      trimStart (name ++ '=' :: '"' :: (value ++ '"' :: rest)) :=
    trimStart_cons_of_blank (by decide)
  rw [shape, list_eq_of_trimStart_eq trimmed, list_name nonempty named (equals_ends _),
    readForm_quoted other]

end Attribute

namespace Props

theorem put_of_notMem {name : String} {value : PropValue} {entries : List (String × PropValue)}
    (absent : name ∉ entries.map Prod.fst) :
    put name value entries = entries ++ [(name, value)] := by
  induction entries with
  | nil => rfl
  | cons entry entries inductionHypothesis =>
      obtain ⟨other, previous⟩ := entry
      rw [List.map_cons, List.mem_cons, not_or] at absent
      rw [put, if_neg (Ne.symm absent.1), inductionHypothesis absent.2, List.cons_append]

theorem mem_put {key name : String} {value given : PropValue}
    {entries : List (String × PropValue)} (membership : (key, value) ∈ put name given entries) :
    (key, value) ∈ entries ∨ (key = name ∧ value = given) := by
  induction entries with
  | nil => exact .inr (by simpa [put] using membership)
  | cons entry entries inductionHypothesis =>
      obtain ⟨other, previous⟩ := entry
      by_cases same : other = name
      · rw [put, if_pos same] at membership
        rcases List.mem_cons.mp membership with here | later
        · obtain ⟨rfl, rfl⟩ := Prod.mk.inj here
          exact .inr ⟨same, rfl⟩
        · exact .inl (List.mem_cons_of_mem _ later)
      · rw [put, if_neg same] at membership
        rcases List.mem_cons.mp membership with here | later
        · exact .inl (here ▸ List.mem_cons_self)
        · rcases inductionHypothesis later with inEntries | isGiven
          · exact .inl (List.mem_cons_of_mem _ inEntries)
          · exact .inr isGiven

/-- Props of distinct names stand in the order they come in. -/
theorem foldl_insert_of_nodup {entries : List (String × PropValue)} {props : Props}
    (distinct : ((props.entries ++ entries).map Prod.fst).Nodup) :
    entries.foldl (fun props entry => props.insert entry.1 entry.2) props =
      ⟨props.entries ++ entries⟩ := by
  induction entries generalizing props with
  | nil => simp
  | cons entry entries inductionHypothesis =>
      obtain ⟨name, value⟩ := entry
      have absent : name ∉ props.entries.map Prod.fst := by
        rw [List.map_append, List.map_cons] at distinct
        intro inside
        exact (List.nodup_append.mp distinct).2.2 name inside name List.mem_cons_self rfl
      have inserted : props.insert name value = ⟨props.entries ++ [(name, value)]⟩ := by
        rw [insert, put_of_notMem absent]
      have whole : props.entries ++ (name, value) :: entries =
          props.entries ++ [(name, value)] ++ entries := by simp
      rw [List.foldl_cons, inserted, whole]
      rw [whole] at distinct
      exact inductionHypothesis distinct

end Props

namespace ScannedProps

/-- Every value stems from an attribute. -/
theorem exists_toValue_of_mem {catalog : Catalog} {attributes : List Attribute}
    {entry : String × PropValue}
    (membership : entry ∈ (ofAttributes catalog attributes).props.entries) :
    ∃ item ∈ attributes, entry = (item.name, item.toValue catalog) := by
  induction attributes using List.reverseRecOn with
  | nil => exact absurd membership List.not_mem_nil
  | append_singleton attributes last inductionHypothesis =>
      simp only [ofAttributes, List.foldl_append, List.foldl_cons, List.foldl_nil] at membership
      rcases Props.mem_put membership with earlier | ⟨name, value⟩
      · obtain ⟨item, inside, same⟩ := inductionHypothesis earlier
        exact ⟨item, List.mem_append_left _ inside, same⟩
      · exact ⟨last, List.mem_append_right _ List.mem_cons_self, Prod.ext name value⟩

theorem read_nil (catalog : Catalog) : read catalog [] = ⟨.empty, []⟩ := by
  have nothing : Attribute.list (trim []) = [] := by
    rw [Attribute.list]
    rfl
  rw [read, nothing]
  rfl

theorem read_append_of_isAllBlank (catalog : Catalog) (text : List Char) {gap : List Char}
    (blank : isAllBlank gap = true) : read catalog (text ++ gap) = read catalog text := by
  rw [read, trim_append_of_isAllBlank blank, read]

end ScannedProps

namespace WrittenAttributes

variable (attributes : WrittenAttributes)

theorem list_text : Attribute.list attributes.text =
    attributes.entries.map fun (name, value) => ⟨String.ofList name, .quoted value true⟩ := by
  have read : ∀ entries ⊆ attributes.entries, Attribute.list (entries.flatMap entryText) =
      entries.map fun (name, value) => ⟨String.ofList name, .quoted value true⟩ := by
    intro entries inside
    induction entries with
    | nil =>
        rw [Attribute.list]
        rfl
    | cons entry entries inductionHypothesis =>
        obtain ⟨membership, inside⟩ := List.cons_subset.mp inside
        obtain ⟨nonempty, nameChars⟩ := attributes.named entry membership
        rw [List.flatMap_cons, Attribute.list_entryText nonempty nameChars
          (attributes.quotable entry membership).1, inductionHypothesis inside, List.map_cons]
  exact read attributes.entries (List.Subset.refl _)

theorem getLast?_text {c : Char} (last : attributes.text.getLast? = some c) : c = '"' := by
  rw [text] at last
  rcases List.eq_nil_or_concat attributes.entries with empty | ⟨before, entry, shape⟩
  · simp [empty] at last
  · rw [shape, List.concat_eq_append, List.flatMap_append, List.flatMap_singleton, entryText,
      ← List.append_assoc, List.getLast?_concat] at last
    exact (Option.some.inj last).symm

theorem read_text (catalog : Catalog) :
    ScannedProps.read catalog attributes.text = ⟨attributes.props catalog, []⟩ := by
  have kept : trim attributes.text = trimStart attributes.text := by
    apply trimEnd_eq_self
    intro last found
    obtain ⟨gap, -, shape⟩ := exists_append_trimStart attributes.text
    have nonempty : trimStart attributes.text ≠ [] := by
      intro empty
      simp [empty] at found
    have whole : attributes.text.getLast? = some last := by
      rw [shape, List.getLast?_append_of_ne_nil _ nonempty, found]
    rw [attributes.getLast?_text whole]
    decide
  have same : Attribute.list (trimStart attributes.text) = Attribute.list attributes.text :=
    Attribute.list_eq_of_trimStart_eq (trimStart_eq_self fun _ first => head?_trimStart first)
  have names : (((attributes.props catalog).entries).map Prod.fst).Nodup := by
    have injective : (attributes.entries.map Prod.fst).map String.ofList =
        (attributes.props catalog).entries.map Prod.fst := by
      simp [props, Function.comp_def]
    rw [← injective]
    exact List.Nodup.map (fun _ _ => String.ofList_inj.mp) attributes.distinct
  have inserted : (attributes.props catalog).entries.foldl
      (fun props entry => props.insert entry.1 entry.2) Props.empty = attributes.props catalog :=
    Props.foldl_insert_of_nodup names
  have closed : (attributes.entries.map fun (name, value) =>
      (⟨String.ofList name, .quoted value true⟩ : Attribute)).filter Attribute.isUnterminated =
        [] := by
    rw [List.filter_map, List.map_eq_nil_iff]
    exact List.filter_eq_nil_iff.mpr fun _ _ => Bool.false_ne_true
  rw [ScannedProps.read, kept, same, list_text, ScannedProps.ofAttributes, closed]
  simp only [props, List.foldl_map] at inserted ⊢
  exact congrArg (ScannedProps.mk · []) inserted

end WrittenAttributes

end ScreenCompiler
