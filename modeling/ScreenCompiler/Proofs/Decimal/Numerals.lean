import Mathlib.Data.List.TakeDrop
import Mathlib.Data.List.TakeWhile
import ScreenCompiler.Decimal.Reading

/-!
# Texts that are no numerals

A numeral is made of digits, signs, a point and an exponent mark.  A text with any
other character between its blanks is no number.
-/

namespace ScreenCompiler.Decimal

open Text

/-- A character that no numeral has. -/
def IsForeign (c : Char) : Prop :=
  isAsciiDigit c = false ∧ c ∉ "+-.eE".toList

variable {c : Char}

theorem mem_readSign {text : List Char} (foreign : IsForeign c) (membership : c ∈ text) :
    c ∈ (readSign text).2 := by
  unfold readSign
  split
  · exact (List.mem_cons.mp membership).resolve_left fun same => foreign.2 (same ▸ by decide)
  · exact (List.mem_cons.mp membership).resolve_left fun same => foreign.2 (same ▸ by decide)
  · exact membership

theorem readDigits?_of_mem {text : List Char} (foreign : IsForeign c) (membership : c ∈ text) :
    readDigits? text = none := by
  rw [readDigits?, if_neg]
  rintro ⟨-, digits⟩
  have digit := List.all_eq_true.mp digits c membership
  rw [foreign.1] at digit
  exact Bool.false_ne_true digit

theorem readExponent?_of_mem {text : List Char} (foreign : IsForeign c) (membership : c ∈ text) :
    readExponent? text = none := by
  cases text with
  | nil => exact absurd membership List.not_mem_nil
  | cons d rest =>
      rw [readExponent?]
      split
      · rename_i mark
        have later : c ∈ rest := by
          refine (List.mem_cons.mp membership).resolve_left fun same => foreign.2 ?_
          rcases mark with rfl | rfl <;> exact same ▸ by decide
        simp [readDigits?_of_mem foreign (mem_readSign foreign later)]
      · rfl

theorem mem_dropWhile_digits {text : List Char} (foreign : IsForeign c) (membership : c ∈ text) :
    c ∈ text.dropWhile isAsciiDigit := by
  rw [← List.takeWhile_append_dropWhile (p := isAsciiDigit) (l := text)] at membership
  refine (List.mem_append.mp membership).resolve_left fun inDigits => ?_
  have digit := List.mem_takeWhile_imp inDigits
  rw [foreign.1] at digit
  exact Bool.false_ne_true digit

theorem readMagnitude?_of_mem {text : List Char} (foreign : IsForeign c) (membership : c ∈ text)
    (negative : Bool) : readMagnitude? negative text = none := by
  have inside := mem_dropWhile_digits foreign membership
  simp only [readMagnitude?, List.span_eq_takeWhile_dropWhile]
  split
  · rename_i rest shape
    rw [shape] at inside
    have behindPoint : c ∈ rest := (List.mem_cons.mp inside).resolve_left fun same =>
      foreign.2 (same ▸ by decide)
    simp only [readExponent?_of_mem foreign (mem_dropWhile_digits foreign behindPoint),
      Option.map_none, ite_self]
  · simp only [readExponent?_of_mem foreign inside, Option.map_none, ite_self]

theorem number?_of_mem {text : List Char} (foreign : IsForeign c) (membership : c ∈ trim text) :
    number? text = none := by
  simp [number?, readNumeral?, readMagnitude?_of_mem foreign (mem_readSign foreign membership)]

end ScreenCompiler.Decimal
