/-!
# Prefixes, suffixes and occurrences

Cutting a known beginning or end off a text, and finding a text inside another.
-/

namespace ScreenCompiler.Text

/-- What follows `start` in a text that begins with it. -/
def afterPrefix? : List Char → List Char → Option (List Char)
  | [], text => some text
  | _ :: _, [] => none
  | s :: start, c :: text => if s = c then afterPrefix? start text else none

theorem afterPrefix?_eq_some_iff {start text rest : List Char} :
    afterPrefix? start text = some rest ↔ text = start ++ rest := by
  induction start generalizing text with
  | nil => simp [afterPrefix?, eq_comm]
  | cons s start inductionHypothesis =>
      cases text with
      | nil => simp [afterPrefix?]
      | cons c text =>
          by_cases same : s = c
          · simp [afterPrefix?, same, inductionHypothesis]
          · simp [afterPrefix?, same, Ne.symm same]

theorem afterPrefix?_eq_none_of_head? {start text : List Char} (solid : start ≠ [])
    (differs : text.head? ≠ start.head?) : afterPrefix? start text = none := by
  obtain ⟨s, rest, rfl⟩ := List.exists_cons_of_ne_nil solid
  apply Option.eq_none_iff_forall_ne_some.mpr
  intro behind found
  apply differs
  rw [afterPrefix?_eq_some_iff.mp found]
  rfl

/-- A word is looked for in front of a character that it does not hold. -/
theorem afterPrefix?_append_cons {c : Char} {word : List Char} (other : c ∉ word)
    (text rest : List Char) :
    afterPrefix? word (text ++ c :: rest) = (afterPrefix? word text).map (· ++ c :: rest) := by
  ext behind
  rw [afterPrefix?_eq_some_iff, Option.map_eq_some_iff]
  constructor
  · intro shape
    rcases List.append_eq_append_iff.mp shape with ⟨front, rfl, tail⟩ | ⟨between, rfl, rfl⟩
    · cases front with
      | nil => exact ⟨[], afterPrefix?_eq_some_iff.mpr (by simp), by simpa using tail⟩
      | cons d front =>
          obtain ⟨rfl, -⟩ := List.cons.inj tail
          exact absurd (by simp) other
    · exact ⟨between, afterPrefix?_eq_some_iff.mpr rfl, rfl⟩
  · rintro ⟨between, found, rfl⟩
    rw [afterPrefix?_eq_some_iff.mp found, List.append_assoc]

/-- What precedes `ending` in a text that ends with it. -/
def beforeSuffix? (ending text : List Char) : Option (List Char) :=
  (afterPrefix? ending.reverse text.reverse).map List.reverse

theorem beforeSuffix?_eq_some_iff {ending text rest : List Char} :
    beforeSuffix? ending text = some rest ↔ text = rest ++ ending := by
  simp only [beforeSuffix?, Option.map_eq_some_iff, afterPrefix?_eq_some_iff]
  constructor
  · rintro ⟨reversed, equality, rfl⟩
    have turned := congrArg List.reverse equality
    simpa using turned
  · rintro rfl
    exact ⟨rest.reverse, by simp, by simp⟩

def startsWith (start text : List Char) : Bool :=
  (afterPrefix? start text).isSome

theorem startsWith_iff {start text : List Char} :
    startsWith start text = true ↔ start <+: text := by
  rw [startsWith, Option.isSome_iff_exists]
  constructor
  · rintro ⟨rest, found⟩
    exact ⟨rest, (afterPrefix?_eq_some_iff.mp found).symm⟩
  · rintro ⟨rest, split⟩
    exact ⟨rest, afterPrefix?_eq_some_iff.mpr split.symm⟩

def endsWith (ending text : List Char) : Bool :=
  (beforeSuffix? ending text).isSome

/-- Whether `needle` occurs somewhere in a text, as consecutive characters. -/
def occursIn (needle : List Char) : List Char → Bool
  | [] => needle.isEmpty
  | c :: text => startsWith needle (c :: text) || occursIn needle text

theorem occursIn_iff {needle text : List Char} :
    occursIn needle text = true ↔ needle <:+: text := by
  induction text with
  | nil => simp [occursIn]
  | cons c text inductionHypothesis =>
      rw [occursIn, Bool.or_eq_true, startsWith_iff, inductionHypothesis, List.infix_cons_iff]

/-- The texts before and after the last occurrence of a character. -/
def splitLast? (mark : Char) (text : List Char) : Option (List Char × List Char) :=
  match text.reverse.dropWhile (· != mark) with
  | [] => none
  | _ :: before => some (before.reverse, (text.reverse.takeWhile (· != mark)).reverse)

/-- A text without the given character at its ends. -/
def stripMark (mark : Char) (text : List Char) : List Char :=
  ((text.dropWhile (· == mark)).reverse.dropWhile (· == mark)).reverse

end ScreenCompiler.Text
