import ScreenCompiler.Catalog.Standard
import ScreenCompiler.Proofs.Markup.Calls
import ScreenCompiler.Proofs.Markup.Notation

/-!
# Words with and without quotes

The two kinds of quotes around a word mean the same.  Without quotes a word is only what
it spells: a binding is never made, and a word outside the vocabulary of the catalog is
not replaced.
-/

namespace ScreenCompiler

open Text

namespace PropValue

/-- What a text spells: a flag, a number, or nothing but itself. -/
inductive Spells (text : List Char) : PropValue → Prop where
  | flag (value : Bool) (word : text = (toString value).toList) : Spells text (.bool value)
  | number {value : Float} (read : Decimal.number? text = some value) : Spells text (.number value)
  | itself (noFlag : ∀ value : Bool, text ≠ (toString value).toList)
      (noNumber : Decimal.number? text = none) : Spells text (.string (String.ofList text))

theorem spells_ofLiteral (text : List Char) : Spells text (ofLiteral text) := by
  unfold ofLiteral literalOr
  split
  · exact .flag true ‹_›
  · split
    · exact .flag false ‹_›
    · split
      · exact .number ‹_›
      · refine .itself (fun value => ?_) ‹_›
        cases value <;> assumption

end PropValue

/-- A word that can stand without quotes. -/
structure PlainWord where
  text : List Char
  nonempty : text ≠ []
  solid : ∀ c ∈ text, isBlank c = false
  unmarked : ∀ c ∈ text, c ∉ ['"', '\'', '{', '}', '=']

/-- The ways to write a word as a value. -/
inductive ValueStyle where
  | bare
  | double
  | single
  deriving DecidableEq

namespace ValueStyle

/-- An attribute with a word as its value. -/
def write (name : AttributeName) (word : PlainWord) : ValueStyle → List Char
  | bare => name.text ++ '=' :: word.text
  | double => name.text ++ '=' :: '"' :: (word.text ++ ['"'])
  | single => name.text ++ '=' :: '\'' :: (word.text ++ ['\''])

/-- The value of a word under a name. -/
def value (catalog : Catalog) (name : AttributeName) (word : PlainWord) : ValueStyle → PropValue
  | bare => .ofLiteral word.text
  | _ => .ofQuoted catalog (String.ofList name.text) word.text

variable {name : AttributeName} {word : PlainWord}

theorem isBlank_getLast?_write {style : ValueStyle} {c : Char}
    (last : (style.write name word).getLast? = some c) : isBlank c = false := by
  have ended : ∀ (front : List Char) (mark : Char), isBlank mark = false →
      (front ++ [mark]).getLast? = some c → isBlank c = false := by
    intro front mark solid found
    rw [List.getLast?_concat] at found
    exact Option.some.inj found ▸ solid
  cases style with
  | bare =>
      have behind : write name word bare = name.text ++ ['='] ++ word.text := by simp [write]
      rw [behind, List.getLast?_append_of_ne_nil _ word.nonempty] at last
      exact word.solid c (List.mem_of_mem_getLast? last)
  | double =>
      refine ended (name.text ++ '=' :: '"' :: word.text) '"' (by decide) ?_
      simpa [write] using last
  | single =>
      refine ended (name.text ++ '=' :: '\'' :: word.text) '\'' (by decide) ?_
      simpa [write] using last

theorem trim_write (style : ValueStyle) : trim (style.write name word) = style.write name word := by
  refine trim_eq_self (fun c first => ?_) fun c => isBlank_getLast?_write
  have inName : name.text.head? = some c := by
    cases style <;> rwa [write, List.head?_append_of_ne_nil _ name.nonempty] at first
  exact Attribute.isBlank_of_isNameChar
    (List.all_eq_true.mp name.named c (List.mem_of_mem_head? inName))

theorem readValue_word {c : Char} {rest : List Char} (shape : word.text = c :: rest) :
    Attribute.readValue c rest = (.word word.text, []) := by
  have unmarked := word.unmarked c (shape ▸ List.mem_cons_self)
  simp only [List.mem_cons, List.not_mem_nil, or_false, not_or] at unmarked
  obtain ⟨noDouble, noSingle, noBrace, -⟩ := unmarked
  have passes : ∀ d ∈ rest, (!isBlank d) = true := fun d inside => by
    rw [word.solid d (shape ▸ List.mem_cons_of_mem c inside), Bool.not_false]
  rw [Attribute.readValue, if_neg noBrace, if_neg (not_or.mpr ⟨noDouble, noSingle⟩),
    List.takeWhile_eq_self_iff.mpr passes, List.dropWhile_eq_nil_iff.mpr passes, shape]

/-- A value right behind its equals sign, with nothing behind it. -/
theorem list_value {c : Char} {inside : List Char} {form : Attribute.Form}
    (solid : isBlank c = false) (read : Attribute.readValue c inside = (form, [])) :
    Attribute.list (name.text ++ '=' :: c :: inside) = [⟨String.ofList name.text, form⟩] := by
  have noGap : isAllBlank [] = true := rfl
  have signed : Attribute.readForm ('=' :: c :: inside) = (form, []) :=
    (Attribute.readForm_sign noGap noGap solid inside).trans read
  rw [Attribute.list_name name.nonempty name.named (Attribute.equals_ends _), signed,
    Attribute.list_nil]

theorem list_bare :
    Attribute.list (name.text ++ '=' :: word.text) =
      [⟨String.ofList name.text, .word word.text⟩] := by
  obtain ⟨c, rest, shape⟩ := List.exists_cons_of_ne_nil word.nonempty
  have read := readValue_word shape
  rw [shape] at read ⊢
  exact list_value (word.solid c (shape ▸ List.mem_cons_self)) read

/-- A word in quotes of either kind. -/
theorem list_quoted {mark : Char} (isMark : mark = '"' ∨ mark = '\'') :
    Attribute.list (name.text ++ '=' :: mark :: (word.text ++ [mark])) =
      [⟨String.ofList name.text, .quoted word.text true⟩] := by
  have other : mark ∉ word.text := by
    intro inside
    rcases isMark with rfl | rfl <;> exact word.unmarked _ inside (by decide)
  have enclosed : (MarkedValue.quoted mark word.text).IsEnclosed := ⟨isMark, other⟩
  exact list_value (MarkedValue.isBlank_of_isValueQuote isMark)
    (MarkedValue.readValue_enclosed enclosed [])

theorem read_write (catalog : Catalog) (style : ValueStyle) :
    ScannedProps.read catalog (style.write name word) =
      ⟨⟨[(String.ofList name.text, style.value catalog name word)]⟩, []⟩ := by
  rw [ScannedProps.read, trim_write]
  cases style with
  | bare =>
      rw [write, list_bare]
      rfl
  | double =>
      rw [write, list_quoted (.inl rfl)]
      rfl
  | single =>
      rw [write, list_quoted (.inr rfl)]
      rfl

end ValueStyle

/-- Whether a word under a name means the same with and without quotes: the name makes no binding,
and under a name with a vocabulary the word is a text that the vocabulary has. -/
structure MeansItself (catalog : Catalog) (name : String) (word : List Char) : Prop where
  noBinding : name ≠ "bind"
  keyboard : name = "keyboardType" → PropValue.ofLiteral word = .string (String.ofList word) ∧
    catalog.keyboardType (String.ofList word) = String.ofList word
  capital : name = "autoCapitalize" → PropValue.ofLiteral word = .string (String.ofList word) ∧
    catalog.capitalization (String.ofList word) = String.ofList word

namespace PropValue

theorem ofLiteral_eq_string_iff {text : List Char} {other : String} :
    ofLiteral text = .string other ↔
      ofLiteral text = .string (String.ofList text) ∧ other = String.ofList text := by
  constructor
  · intro isString
    have spelled := spells_ofLiteral text
    rw [isString] at spelled ⊢
    cases spelled with
    | itself noFlag noNumber => exact ⟨rfl, rfl⟩
  · rintro ⟨isString, rfl⟩
    exact isString

/-- Under most names only the literal in the quotes counts. -/
theorem ofQuoted_of_unquoted (catalog : Catalog) {name : String} {word : List Char}
    (noDouble : '"' ∉ word) (noSingle : '\'' ∉ word) (noBinding : name ≠ "bind")
    (noKeyboard : name ≠ "keyboardType") (noCapital : name ≠ "autoCapitalize") :
    ofQuoted catalog name word = ofLiteral word := by
  rw [ofQuoted, navigationTarget?_of_unquoted noDouble noSingle, if_neg noBinding,
    if_neg noKeyboard, if_neg noCapital, ite_self]

theorem ofLiteral_eq_ofQuoted_iff (catalog : Catalog) (name : String) {word : List Char}
    (solid : word ≠ []) (noDouble : '"' ∉ word) (noSingle : '\'' ∉ word) :
    ofLiteral word = ofQuoted catalog name word ↔ MeansItself catalog name word := by
  by_cases binding : name = "bind"
  · subst binding
    have bound : ofQuoted catalog "bind" word = .state (String.ofList word) := by
      simp [ofQuoted, solid]
    constructor
    · intro isState
      have spelled := spells_ofLiteral word
      rw [isState, bound] at spelled
      cases spelled
    · exact fun itself => absurd rfl itself.noBinding
  by_cases isKeyboard : name = "keyboardType"
  · subst isKeyboard
    have checked : ofQuoted catalog "keyboardType" word =
        .string (catalog.keyboardType (String.ofList word)) := by
      simp [ofQuoted]
    rw [checked, ofLiteral_eq_string_iff]
    exact ⟨fun same => ⟨by decide, fun _ => same, fun other => absurd other (by decide)⟩,
      fun itself => itself.keyboard rfl⟩
  by_cases isCapital : name = "autoCapitalize"
  · subst isCapital
    have checked : ofQuoted catalog "autoCapitalize" word =
        .string (catalog.capitalization (String.ofList word)) := by
      simp [ofQuoted]
    rw [checked, ofLiteral_eq_string_iff]
    exact ⟨fun same => ⟨by decide, fun other => absurd other (by decide), fun _ => same⟩,
      fun itself => itself.capital rfl⟩
  · rw [ofQuoted_of_unquoted catalog noDouble noSingle binding isKeyboard isCapital]
    exact ⟨fun _ => ⟨binding, (absurd · isKeyboard), (absurd · isCapital)⟩, fun _ => rfl⟩

end PropValue

/-- A word has one value in quotes of both kinds, and it has the same value without quotes just when
it means itself under its name. -/
theorem props_write_iff (catalog : Catalog) (name : AttributeName) (word : PlainWord) :
    (ScannedProps.read catalog (ValueStyle.double.write name word)).props =
        (ScannedProps.read catalog (ValueStyle.single.write name word)).props ∧
      ((ScannedProps.read catalog (ValueStyle.bare.write name word)).props =
          (ScannedProps.read catalog (ValueStyle.double.write name word)).props ↔
        MeansItself catalog (String.ofList name.text) word.text) := by
  have noDouble : '"' ∉ word.text := fun inside => word.unmarked _ inside (by decide)
  have noSingle : '\'' ∉ word.text := fun inside => word.unmarked _ inside (by decide)
  simp only [ValueStyle.read_write, ValueStyle.value, Props.mk.injEq, List.cons.injEq,
    Prod.mk.injEq, and_true, true_and]
  exact PropValue.ofLiteral_eq_ofQuoted_iff catalog _ word.nonempty noDouble noSingle

/-- Without quotes a binding is a plain text and names no state. -/
theorem props_differ_unquotedBinding :
    (ScannedProps.read .standard "bind=email".toList).props = ⟨[("bind", .string "email")]⟩ ∧
      (ScannedProps.read .standard "bind=\"email\"".toList).props =
        ⟨[("bind", .state "email")]⟩ ∧
      (ScannedProps.read .standard "bind=email".toList).props ≠
        (ScannedProps.read .standard "bind=\"email\"".toList).props := by
  decide +kernel

example : (ScannedProps.read .standard "keyboardType=numeric".toList).props =
    (ScannedProps.read .standard "keyboardType='numeric'".toList).props := by
  decide +kernel

end ScreenCompiler
