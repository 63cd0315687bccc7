import ScreenCompiler.Proofs.Text.Letters
import ScreenCompiler.Script.Identifier

/-!
# Reading identifiers

An identifier is read whole when what stands behind it cannot continue it.
-/

namespace ScreenCompiler.Script

open Text

theorem isIdentifierPart_of_isBlank {c : Char} (blank : isBlank c = true) :
    isIdentifierPart c = false := by
  rw [isIdentifierPart, isWord_of_isBlank blank, Bool.false_or, beq_eq_false_iff_ne]
  rintro rfl
  exact absurd blank (by decide)

theorem isBlank_of_isIdentifierPart {c : Char} (part : isIdentifierPart c = true) :
    isBlank c = false := by
  rw [← Bool.not_eq_true]
  intro blank
  rw [isIdentifierPart_of_isBlank blank] at part
  exact Bool.false_ne_true part

theorem isIdentifierPart_of_isIdentifier {name : List Char} (named : isIdentifier name = true) :
    ∀ c ∈ name, isIdentifierPart c = true := by
  cases name with
  | nil => simp
  | cons c more =>
      obtain ⟨start, parts⟩ := Bool.and_eq_true_iff.mp named
      refine List.forall_mem_cons.mpr ⟨?_, List.all_eq_true.mp parts⟩
      simp only [isIdentifierStart, Bool.or_eq_true, beq_iff_eq] at start
      rcases start with (letter | rfl) | rfl
      · simp [isIdentifierPart, isWord, isAsciiAlphanumeric, letter]
      · decide
      · decide

theorem identifier?_of_isIdentifier {name rest : List Char} (named : isIdentifier name = true)
    (ends : ∀ c, rest.head? = some c → isIdentifierPart c = false) :
    identifier? (name ++ rest) = some (name, rest) := by
  cases name with
  | nil => exact absurd named Bool.false_ne_true
  | cons c more =>
      obtain ⟨start, parts⟩ := Bool.and_eq_true_iff.mp named
      have inside := List.all_eq_true.mp parts
      have stops :
          rest.takeWhile isIdentifierPart = [] ∧ rest.dropWhile isIdentifierPart = rest := by
        cases rest with
        | nil => exact ⟨rfl, rfl⟩
        | cons d rest => simp [ends d rfl]
      rw [List.cons_append, identifier?, if_pos start, List.takeWhile_append_of_pos inside,
        List.dropWhile_append_of_pos inside, stops.1, stops.2, List.append_nil]

theorem isIdentifier_of_identifier? {text name rest : List Char}
    (found : identifier? text = some (name, rest)) : isIdentifier name = true := by
  cases text with
  | nil => simp [identifier?] at found
  | cons c text =>
      simp only [identifier?] at found
      split at found
      · rename_i start
        obtain ⟨rfl, -⟩ := Prod.mk.inj (Option.some.inj found)
        rw [isIdentifier, start, List.all_takeWhile, Bool.and_self]
      · simp at found

/-- A text begins with one identifier only. -/
theorem eq_of_identifier?_append {text name rest keyword behind : List Char}
    (found : identifier? text = some (name, rest)) (isName : isIdentifier keyword = true)
    (shape : text = keyword ++ behind)
    (ends : ∀ c, behind.head? = some c → isIdentifierPart c = false) :
    name = keyword ∧ rest = behind := by
  rw [shape, identifier?_of_isIdentifier isName ends] at found
  obtain ⟨same, behindSame⟩ := Prod.mk.inj (Option.some.inj found)
  exact ⟨same.symm, behindSame.symm⟩

end ScreenCompiler.Script
