import Mathlib.Data.List.DropRight
import ScreenCompiler.Proofs.Route.Segments
import ScreenCompiler.Proofs.Script.Identifier
import ScreenCompiler.Proofs.Script.Quoted

/-!
# Names of routes

A component name consists of ASCII letters and digits, so it stands for itself in a
string literal.  A logical path neither starts nor ends with a slash, so a call that
puts one in front of it can be undone.
-/

namespace ScreenCompiler

open Text Script

namespace RoutePath

/-- The capital of a small letter lies 32 code points before it. -/
theorem toNat_asciiUpper_of_small {c : Char} (small : 'a' ≤ c ∧ c ≤ 'z') :
    (asciiUpper c).toNat = c.toNat - 32 ∧ 97 ≤ c.toNat ∧ c.toNat ≤ 122 := by
  have range : 97 ≤ c.toNat ∧ c.toNat ≤ 122 := by
    simp only [Char.le_def, UInt32.le_iff_toNat_le] at small
    exact small
  have valid : (c.toNat - 32).isValidChar := by
    left
    omega
  refine ⟨?_, range⟩
  rw [asciiUpper, if_pos small, Char.ofNat, dif_pos valid]
  rfl

theorem isAsciiAlphanumeric_asciiUpper {c : Char} (plain : isAsciiAlphanumeric c = true) :
    isAsciiAlphanumeric (asciiUpper c) = true := by
  by_cases small : 'a' ≤ c ∧ c ≤ 'z'
  · obtain ⟨shifted, low, high⟩ := toNat_asciiUpper_of_small small
    simp only [isAsciiAlphanumeric, isAsciiLetter, Bool.or_eq_true, Bool.and_eq_true,
      decide_eq_true_eq, Char.le_def, UInt32.le_iff_toNat_le]
    left
    right
    have bounds : 65 ≤ (asciiUpper c).toNat ∧ (asciiUpper c).toNat ≤ 90 := by omega
    exact bounds
  · rw [asciiUpper, if_neg small]
    exact plain

theorem not_small_asciiUpper (c : Char) : ¬('a' ≤ asciiUpper c ∧ asciiUpper c ≤ 'z') := by
  by_cases small : 'a' ≤ c ∧ c ≤ 'z'
  · obtain ⟨shifted, low, high⟩ := toNat_asciiUpper_of_small small
    intro still
    obtain ⟨-, stillLow, -⟩ := toNat_asciiUpper_of_small still
    omega
  · rw [asciiUpper, if_neg small]
    exact small

theorem isAsciiAlphanumeric_of_mem_camelCase {segment : List Char} :
    ∀ c ∈ camelCase segment, isAsciiAlphanumeric c = true := by
  intro c membership
  obtain ⟨part, isPart, inside⟩ := List.mem_flatMap.mp membership
  have plain : ∀ d ∈ part, isAsciiAlphanumeric d = true := by
    intro d inPart
    simpa using not_of_mem_splitOnP isPart d inPart
  cases part with
  | nil => exact absurd inside List.not_mem_nil
  | cons first rest =>
      obtain ⟨firstPlain, restPlain⟩ := List.forall_mem_cons.mp plain
      rcases List.mem_cons.mp inside with rfl | later
      · exact isAsciiAlphanumeric_asciiUpper firstPlain
      · exact restPlain c later

theorem isAsciiAlphanumeric_of_mem_componentName {path : List Char} :
    ∀ c ∈ componentName path, isAsciiAlphanumeric c = true := by
  have letters : ∀ c ∈ (namedSegments path).flatMap camelCase, isAsciiAlphanumeric c = true := by
    intro c membership
    obtain ⟨segment, -, inside⟩ := List.mem_flatMap.mp membership
    exact isAsciiAlphanumeric_of_mem_camelCase c inside
  unfold componentName
  split
  · have index : "Index".toList.all isAsciiAlphanumeric = true := by decide
    exact List.all_eq_true.mp index
  · rename_i first name found
    rw [found] at letters
    split
    · intro c membership
      have mark : "Screen".toList.all isAsciiAlphanumeric = true := by decide
      rcases List.mem_append.mp membership with screen | own
      · exact List.all_eq_true.mp mark c screen
      · exact letters c own
    · exact letters

/-- A component name starts with no small letter. -/
theorem not_small_of_head?_componentName {path : List Char} {c : Char}
    (first : (componentName path).head? = some c) : ¬('a' ≤ c ∧ c ≤ 'z') := by
  have ofSegment : ∀ segment, (camelCase segment).head? = some c → ¬('a' ≤ c ∧ c ≤ 'z') := by
    intro segment starts
    rw [camelCase, List.head?_flatMap] at starts
    obtain ⟨part, -, partStarts⟩ := List.exists_of_findSome?_eq_some starts
    cases part with
    | nil => exact absurd partStarts (by simp [capitalize])
    | cons d rest =>
        obtain rfl : asciiUpper d = c := by simpa [capitalize] using partStarts
        exact not_small_asciiUpper d
  unfold componentName at first
  split at first
  · obtain rfl : 'I' = c := by simpa using first
    decide
  · rename_i d name found
    split at first
    · obtain rfl : 'S' = c := by simpa using first
      decide
    · rw [← found, List.head?_flatMap] at first
      obtain ⟨segment, -, starts⟩ := List.exists_of_findSome?_eq_some first
      exact ofSegment segment starts

theorem exists_letter_componentName (path : List Char) :
    ∃ c rest, componentName path = c :: rest ∧ isAsciiLetter c = true := by
  have plain := @isAsciiAlphanumeric_of_mem_componentName path
  unfold componentName at plain ⊢
  split
  · exact ⟨'I', "ndex".toList, by decide, by decide⟩
  · rename_i c name found
    rw [found] at plain
    split
    · exact ⟨'S', "creen".toList ++ c :: name, by simp, by decide⟩
    · rename_i noDigit
      simp only [noDigit, Bool.false_eq_true, ↓reduceIte] at plain
      refine ⟨c, name, rfl, ?_⟩
      simpa [isAsciiAlphanumeric, noDigit] using plain c List.mem_cons_self

/-- A logical path has no slash at its ends. -/
theorem logicalPath_spec (path : List Char) :
    (logicalPath path).head? ≠ some '/' ∧ (logicalPath path).getLast? ≠ some '/' := by
  have named : ∀ part ∈ namedSegments path, part ≠ [] ∧ '/' ∉ part := by
    intro part membership
    obtain ⟨inside, kept⟩ := List.mem_filter.mp membership
    rw [Bool.and_eq_true] at kept
    exact ⟨by simpa using kept.1, slash_notMem_of_mem_segments inside⟩
  simp only [logicalPath]
  split
  · have front : ∀ part ∈ (namedSegments path).dropLast, part ≠ [] ∧ '/' ∉ part :=
      fun part membership => named part (List.dropLast_subset _ membership)
    exact joinSegments_ends_ne_slash front
  · exact joinSegments_ends_ne_slash named

end RoutePath

namespace Text

theorem stripMark_cons {mark : Char} {text : List Char} (first : text.head? ≠ some mark)
    (last : text.getLast? ≠ some mark) : stripMark mark (mark :: text) = text := by
  have front : (mark :: text).dropWhile (· == mark) = text := by
    rw [List.dropWhile_cons_of_pos (by simp)]
    cases text with
    | nil => rfl
    | cons c rest =>
        apply List.dropWhile_cons_of_neg
        simpa using first
  have back : (text.reverse.dropWhile (· == mark)).reverse = text := by
    apply List.rdropWhile_eq_self_iff.mpr
    intro nonempty
    rw [List.getLast?_eq_some_getLast nonempty] at last
    simpa using last
  rw [stripMark, front, back]

end Text

namespace Script

/-- A plain name that starts with a letter is an identifier. -/
theorem isIdentifier_of_plain {name : List Char}
    (plain : ∀ c ∈ name, isAsciiAlphanumeric c = true)
    (first : ∃ c more, name = c :: more ∧ isAsciiLetter c = true) : isIdentifier name = true := by
  obtain ⟨c, more, rfl, letter⟩ := first
  have parts : ∀ d ∈ more, isIdentifierPart d = true := by
    intro d membership
    rw [isIdentifierPart,
      isWord_of_isAsciiAlphanumeric (plain d (List.mem_cons_of_mem _ membership)), Bool.true_or]
  have start : isIdentifierStart c = true := by rw [isIdentifierStart, letter]; rfl
  rw [isIdentifier, start, Bool.true_and]
  exact List.all_eq_true.mpr parts

/-- Such a name is read up to its end. -/
theorem identifier?_append {name rest : List Char}
    (plain : ∀ c ∈ name, isAsciiAlphanumeric c = true)
    (first : ∃ c more, name = c :: more ∧ isAsciiLetter c = true)
    (ends : ∀ c, rest.head? = some c → isIdentifierPart c = false) :
    identifier? (name ++ rest) = some (name, rest) :=
  identifier?_of_isIdentifier (isIdentifier_of_plain plain first) ends

/-- A plain name needs no escapes. -/
theorem quote_of_plain {name : List Char} (plain : ∀ c ∈ name, isAsciiAlphanumeric c = true) :
    quote (String.ofList name) = "'" ++ String.ofList name ++ "'" := by
  have body : Quoted.body name = name := by
    apply Quoted.body_eq_self
    intro c membership
    have differs : ∀ mark, isAsciiAlphanumeric mark = false → c ≠ mark :=
      fun mark outside => ne_of_class (plain c membership) outside
    exact ⟨differs '\\' (by decide), differs '\'' (by decide), differs '\n' (by decide),
      differs '\r' (by decide)⟩
  apply String.toList_injective
  simp [quote, Quoted.encode, body]

end Script

end ScreenCompiler
