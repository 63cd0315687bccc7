import Mathlib.Data.List.TakeDrop
import ScreenCompiler.Json.Raw
import ScreenCompiler.Proofs.Decimal.Numerals

/-!
# JSON numbers

Integers within 64 bits are read back from their text.  Whether a double is depends on
the double: reading rounds twice.
-/

namespace ScreenCompiler.Json

open Text Decimal

theorem isAsciiDigit_of_mem_toDigits {n : Nat} {c : Char} (membership : c ∈ Nat.toDigits 10 n) :
    isAsciiDigit c = true := by
  have digit := Nat.isDigit_of_mem_toDigits (by decide) (by decide) membership
  simpa [isAsciiDigit, Char.isDigit, Char.le_def] using digit

/-- Only zero has a zero in front. -/
theorem head?_toDigits {n : Nat} (positive : n ≠ 0) : (Nat.toDigits 10 n).head? ≠ some '0' := by
  induction n using Nat.strongRecOn with
  | _ n inductionHypothesis =>
      by_cases small : n < 10
      · rw [Nat.toDigits_of_lt_base small]
        have digits : ∀ digit < 10, digit ≠ 0 → digit.digitChar ≠ '0' := by decide
        simpa using digits n small positive
      · rw [Nat.toDigits_of_base_le (by decide) (not_lt.mp small), List.head?_append,
          List.head?_eq_some_head Nat.toDigits_ne_nil, Option.some_or,
          ← List.head?_eq_some_head Nat.toDigits_ne_nil]
        exact inductionHypothesis (n / 10) (by omega) (by omega)

theorem isFront_toDigits (n : Nat) : isFront (Nat.toDigits 10 n) = true := by
  by_cases isZero : n = 0
  · subst isZero
    rfl
  · have noZero := head?_toDigits isZero
    have digits := fun c => isAsciiDigit_of_mem_toDigits (n := n) (c := c)
    cases shape : Nat.toDigits 10 n with
    | nil => exact absurd shape Nat.toDigits_ne_nil
    | cons c rest =>
        rw [shape] at noZero digits
        have first : c ≠ '0' := fun same => noZero (by rw [same]; rfl)
        rw [isFront, Bool.and_eq_true, bne_iff_ne]
        · exact ⟨first, List.all_eq_true.mpr digits⟩
        · exact fun isZero _ => first isZero

theorem span_toDigits (n : Nat) :
    (Nat.toDigits 10 n).span isAsciiDigit = (Nat.toDigits 10 n, []) := by
  have digits := fun c => isAsciiDigit_of_mem_toDigits (n := n) (c := c)
  rw [List.span_eq_takeWhile_dropWhile, List.takeWhile_eq_self_iff.mpr digits,
    List.dropWhile_eq_nil_iff.mpr digits]

theorem le_ofDigitChars (digits : List Char) (value : Nat) :
    value ≤ Nat.ofDigitChars 10 digits value := by
  induction digits generalizing value with
  | nil => rw [Nat.ofDigitChars_nil]
  | cons c digits inductionHypothesis =>
      rw [Nat.ofDigitChars_cons]
      exact le_trans (by omega) (inductionHypothesis _)

/-- Digits whose value fits 64 bits are all gathered. -/
theorem gather_eq {digits : List Char} {value : Nat}
    (fits : Nat.ofDigitChars 10 digits value < wordBound) :
    gather value digits = (Nat.ofDigitChars 10 digits value, []) := by
  induction digits generalizing value with
  | nil => rw [gather, Nat.ofDigitChars_nil]
  | cons c digits inductionHypothesis =>
      rw [Nat.ofDigitChars_cons] at fits ⊢
      have next := lt_of_le_of_lt (le_ofDigitChars digits _) fits
      rw [gather, if_pos next, inductionHypothesis fits]

theorem gather_toDigits {n : Nat} (fits : n < wordBound) :
    gather 0 (Nat.toDigits 10 n) = (n, []) := by
  have value := Nat.ofDigitChars_ten_toDigits (n := n)
  rw [gather_eq (value.symm ▸ fits), value]

theorem read?_toDigits (n : Nat) : NumberText.read? (Nat.toDigits 10 n) =
    some { negative := false, front := Nat.toDigits 10 n, fraction := none, exponent := none } := by
  have noSign : ∀ rest, Nat.toDigits 10 n ≠ '-' :: rest := by
    intro rest shape
    have digit := isAsciiDigit_of_mem_toDigits (shape ▸ List.mem_cons_self)
    exact absurd digit (by decide)
  rw [NumberText.read?]
  · simp only [span_toDigits, isFront_toDigits, readFraction?]
    rfl
  · exact noSign

theorem read?_minus_toDigits (n : Nat) : NumberText.read? ('-' :: Nat.toDigits 10 n) =
    some { negative := true, front := Nat.toDigits 10 n, fraction := none, exponent := none } := by
  simp only [NumberText.read?, span_toDigits, isFront_toDigits, readFraction?]
  rfl

namespace Number

/-- Whether a number is read from its text. -/
def ReadsBack (number : Number) : Prop :=
  (NumberText.read? number.text.toList).bind NumberText.value? = some number

instance (number : Number) : Decidable number.ReadsBack :=
  inferInstanceAs (Decidable (_ = _))

theorem readsBack_integer {value : Int} (low : -signedBound ≤ value) (high : value < wordBound) :
    (integer value).ReadsBack := by
  cases value with
  | ofNat n =>
      have text : (integer (Int.ofNat n)).text.toList = Nat.toDigits 10 n := by
        exact Nat.toList_repr
      rw [ReadsBack, text, read?_toDigits, Option.bind_some, NumberText.value?]
      simp only [gather_toDigits (Int.ofNat_lt.mp high)]
      rfl
  | negSucc n =>
      have text : (integer (Int.negSucc n)).text.toList = '-' :: Nat.toDigits 10 (n + 1) := by
        rw [← Nat.toList_repr]
        exact String.toList_append
      rw [ReadsBack, text, read?_minus_toDigits, Option.bind_some, NumberText.value?]
      have fits : n + 1 < wordBound := by
        unfold signedBound at low
        unfold wordBound
        omega
      have inRange : 0 < n + 1 ∧ n + 1 ≤ signedBound := by omega
      simp only [gather_toDigits fits, if_pos inRange, if_true]
      rfl

theorem gather_lt (digits : List Char) {value : Nat} (fits : value < wordBound) :
    (gather value digits).1 < wordBound := by
  induction digits generalizing value with
  | nil => exact fits
  | cons c digits inductionHypothesis =>
      rw [gather]
      split
      · exact inductionHypothesis ‹_›
      · exact fits

/-- An integer that is read lies within 64 bits. -/
theorem range_of_value? {parts : NumberText} {value : Int}
    (read : parts.value? = some (integer value)) : -signedBound ≤ value ∧ value < wordBound := by
  have fits : (gather 0 parts.front).1 < wordBound := gather_lt parts.front (by decide)
  rw [NumberText.value?] at read
  split at read
  · rename_i magnitude _ _ gathered
    rw [gathered] at fits
    split at read
    · split at read
      · obtain rfl := integer.inj (Option.some.inj read)
        unfold wordBound
        omega
      · simp at read
    · obtain rfl := integer.inj (Option.some.inj read)
      have whole : (magnitude : Int) < (wordBound : Nat) := Int.ofNat_lt.mpr fits
      exact ⟨by omega, whole⟩
  · simp at read

end Number

section Foreign

variable {c : Char} {text : List Char}

theorem mem_of_readFraction? {fraction : Option (List Char)} {after : List Char}
    (foreign : IsForeign c) (membership : c ∈ text)
    (read : readFraction? text = some (fraction, after)) : c ∈ after := by
  unfold readFraction? at read
  split at read
  · simp only [List.span_eq_takeWhile_dropWhile] at read
    split at read
    · simp at read
    · obtain ⟨-, rfl⟩ := Prod.mk.inj (Option.some.inj read)
      refine mem_dropWhile_digits foreign
        ((List.mem_cons.mp membership).resolve_left fun same => ?_)
      exact foreign.2 (same ▸ by decide)
  · obtain ⟨-, rfl⟩ := Prod.mk.inj (Option.some.inj read)
    exact membership

theorem readRest_of_mem (foreign : IsForeign c) (membership : c ∈ text)
    (result : Option (List Char) → Option Int → NumberText) :
    ((readFraction? (text.dropWhile isAsciiDigit)).bind fun (fraction, after) =>
      if after.isEmpty then some (result fraction none)
      else (readExponent? after).map fun exponent => result fraction (some exponent)) = none := by
  refine Option.bind_eq_none_iff.mpr fun ⟨fraction, after⟩ read => ?_
  have inAfter := mem_of_readFraction? foreign (mem_dropWhile_digits foreign membership) read
  have notEmpty : after.isEmpty = false := by
    cases after with
    | nil => exact absurd inAfter List.not_mem_nil
    | cons => rfl
  simp [notEmpty, readExponent?_of_mem foreign inAfter]

/-- A text with a character that no numeral has is no number. -/
theorem read?_of_mem (foreign : IsForeign c) (membership : c ∈ text) :
    NumberText.read? text = none := by
  by_cases signed : ∃ rest, text = '-' :: rest
  · obtain ⟨rest, rfl⟩ := signed
    have behindSign : c ∈ rest := (List.mem_cons.mp membership).resolve_left fun same =>
      foreign.2 (same ▸ by decide)
    simp only [NumberText.read?, List.span_eq_takeWhile_dropWhile]
    split
    · exact readRest_of_mem foreign behindSign (NumberText.mk true _)
    · rfl
  · rw [NumberText.read?]
    · simp only [List.span_eq_takeWhile_dropWhile]
      split
      · exact readRest_of_mem foreign membership (NumberText.mk false _)
      · rfl
    · exact fun rest shape => signed ⟨rest, shape⟩

end Foreign

theorem isForeign_of_isPlain {c : Char} (other : Token.isPlain c = false) : IsForeign c := by
  simp only [Token.isPlain, isAsciiAlphanumeric, Bool.or_eq_false_iff, beq_eq_false_iff_ne] at other
  obtain ⟨⟨⟨⟨letter, digit⟩, plus⟩, minus⟩, point⟩ := other
  refine ⟨digit, fun mark => ?_⟩
  have letters : c ≠ 'e' ∧ c ≠ 'E' := by
    constructor <;> rintro rfl <;> exact absurd letter (by decide)
  simp at mark
  tauto

theorem ofPlain?_of_read? {text : List Char} {parts : NumberText}
    (read : NumberText.read? text = some parts) :
    text ≠ [] ∧ (∀ c ∈ text, Token.isPlain c = true) ∧
      Token.ofPlain? text = some (.number parts) := by
  have noWord : ∀ word, NumberText.read? word = none → text ≠ word := by
    rintro word none rfl
    simp [none] at read
  refine ⟨noWord [] (by decide), ?_, ?_⟩
  · intro c membership
    by_contra other
    rw [read?_of_mem (isForeign_of_isPlain (by simpa using other)) membership] at read
    simp at read
  · rw [Token.ofPlain?, if_neg (noWord _ (by decide)), if_neg (noWord _ (by decide)),
      if_neg (noWord _ (by decide)), read]
    rfl

end ScreenCompiler.Json
