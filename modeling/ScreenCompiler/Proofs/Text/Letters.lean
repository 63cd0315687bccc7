import ScreenCompiler.Text.Blank
import ScreenCompiler.Text.Word

/-!
# Letters and digits

The characters of names are neither blank nor marks of any kind.
-/

namespace ScreenCompiler.Text

/-- A character of a class is none of the characters outside it. -/
theorem ne_of_class {holds : Char → Bool} {c mark : Char} (inside : holds c = true)
    (outside : holds mark = false) : c ≠ mark := by
  rintro rfl
  rw [inside] at outside
  exact Bool.noConfusion outside

theorem toNat_of_isAsciiAlphanumeric {c : Char} (plain : isAsciiAlphanumeric c = true) :
    (48 ≤ c.toNat ∧ c.toNat ≤ 57) ∨ (65 ≤ c.toNat ∧ c.toNat ≤ 90) ∨
      (97 ≤ c.toNat ∧ c.toNat ≤ 122) := by
  simp only [isAsciiAlphanumeric, isAsciiLetter, isAsciiDigit, Bool.or_eq_true, Bool.and_eq_true,
    decide_eq_true_eq, Char.le_def, UInt32.le_iff_toNat_le] at plain
  rcases plain with (small | capital) | digit
  · exact .inr (.inr small)
  · exact .inr (.inl capital)
  · exact .inl digit

theorem isBlank_of_isAsciiAlphanumeric {c : Char} (plain : isAsciiAlphanumeric c = true) :
    isBlank c = false := by
  have range := toNat_of_isAsciiAlphanumeric plain
  rw [← Bool.not_eq_true]
  intro blank
  simp only [isBlank, Bool.or_eq_true, Bool.and_eq_true, decide_eq_true_eq, beq_iff_eq] at blank
  omega

theorem isWord_of_isBlank {c : Char} (blank : isBlank c = true) : isWord c = false := by
  have points : ∀ point ∈ List.range' 0x09 5 ++ List.range' 0x2000 11 ++
      [0x20, 0x85, 0xA0, 0x1680, 0x2028, 0x2029, 0x202F, 0x205F, 0x3000],
      isWord (Char.ofNat point) = false := by
    decide +kernel
  rw [← Char.ofNat_toNat c]
  apply points
  simp only [isBlank, Bool.or_eq_true, Bool.and_eq_true, decide_eq_true_eq, beq_iff_eq] at blank
  simp only [List.mem_append, List.mem_range'_1, List.mem_cons, List.not_mem_nil, or_false]
  omega

end ScreenCompiler.Text
