import Mathlib.Data.List.Infix
import ScreenCompiler.Text.Nesting

/-!
# Open pairs

How many pairs are open behind a text is counted on the characters outside its literals.
The scan for a closing delimiter stops at the first place where none is open any more,
and finds no end only if there is no such place.
-/

namespace ScreenCompiler.Text

/-- The characters outside the literals of a text that starts inside the literal of a quote, or
outside of all.  A backslash in a literal hides the character behind it. -/
def outside : Option Char → List Char → List Char
  | _, [] => []
  | none, c :: text => if isQuote c then outside (some c) text else c :: outside none text
  | some _, ['\\'] => []
  | some quote, '\\' :: _ :: text => outside (some quote) text
  | some quote, c :: text => outside (if c = quote then none else some quote) text

theorem outside_of_ne {c : Char} (plain : c ≠ '\\') (quote : Char) (text : List Char) :
    outside (some quote) (c :: text) = outside (if c = quote then none else some quote) text :=
  outside.eq_5 quote c text (fun slash => absurd slash plain) fun _ _ slash => absurd slash plain

/-- How many more pairs the characters outside literals open than close. -/
def excess (delimiters : Delimiters) (quote : Option Char) (text : List Char) : Int :=
  (outside quote text).count delimiters.opening - (outside quote text).count delimiters.closing

/-- How many pairs are open behind a text. -/
def openPairs (delimiters : Delimiters) (text : List Char) : Int :=
  excess delimiters none text

/-- A text that closes what it opens, at its end and nowhere before. -/
structure ClosesAtEnd (delimiters : Delimiters) (text : List Char) : Prop where
  balanced : openPairs delimiters text = 0
  first : ∀ front, front <+: text → front ≠ [] → front ≠ text → openPairs delimiters front ≠ 0

/-- A text that nowhere closes all that it opens. -/
def StaysOpen (delimiters : Delimiters) (text : List Char) : Prop :=
  ∀ front, front <+: text → front ≠ [] → openPairs delimiters front ≠ 0

section

variable {delimiters : Delimiters}

theorem excess_nil (quote : Option Char) : excess delimiters quote [] = 0 := by
  simp [excess, outside]

theorem excess_cons {c : Char} (solid : isQuote c = false) (text : List Char) :
    excess delimiters none (c :: text) =
      excess delimiters none [c] + excess delimiters none text := by
  simp only [excess, outside, solid, Bool.false_eq_true, ↓reduceIte, List.count_cons,
    List.count_nil]
  omega

theorem excess_opening (opens : isQuote delimiters.opening = false)
    (apart : delimiters.opening ≠ delimiters.closing) :
    excess delimiters none [delimiters.opening] = 1 := by
  simp [excess, outside, opens, apart]

theorem excess_closing (closes : isQuote delimiters.closing = false)
    (apart : delimiters.opening ≠ delimiters.closing) :
    excess delimiters none [delimiters.closing] = -1 := by
  simp [excess, outside, closes, apart.symm]

theorem openPairs_opening (opens : isQuote delimiters.opening = false)
    (apart : delimiters.opening ≠ delimiters.closing) (text : List Char) :
    openPairs delimiters (delimiters.opening :: text) = 1 + excess delimiters none text := by
  rw [openPairs, excess_cons opens, excess_opening opens apart]

/-- A pair is open around every front of a text when some inner pairs are open in front of it. -/
def RemainsOpen (delimiters : Delimiters) (depth : Nat) (quote : Option Char)
    (text : List Char) : Prop :=
  ∀ front, front <+: text → 0 < depth + 1 + excess delimiters quote front

theorem remainsOpen_nil (depth : Nat) (quote : Option Char) :
    RemainsOpen delimiters depth quote [] := by
  intro front isFront
  obtain rfl := List.prefix_nil.mp isFront
  rw [excess_nil]
  omega

theorem RemainsOpen.cons {depth next : Nat} {quote behind : Option Char} {c : Char}
    {text : List Char} (remains : RemainsOpen delimiters next behind text)
    (moves : ∀ front, depth + excess delimiters quote (c :: front) =
      next + excess delimiters behind front) :
    RemainsOpen delimiters depth quote (c :: text) := by
  intro front isFront
  rcases List.prefix_cons_iff.mp isFront with rfl | ⟨rest, rfl, isRest⟩
  · exact remainsOpen_nil depth quote [] List.prefix_rfl
  · have more := remains rest isRest
    have moved := moves rest
    omega

theorem RemainsOpen.escape {depth : Nat} {quote : Char} {text : List Char}
    (remains : RemainsOpen delimiters depth (some quote) text) (c : Char) :
    RemainsOpen delimiters depth (some quote) ('\\' :: c :: text) := by
  intro front isFront
  rcases List.prefix_cons_iff.mp isFront with rfl | ⟨rest, rfl, isRest⟩
  · exact remainsOpen_nil depth (some quote) [] List.prefix_rfl
  · rcases List.prefix_cons_iff.mp isRest with rfl | ⟨behind, rfl, isBehind⟩
    · exact remainsOpen_nil depth (some quote) [] List.prefix_rfl
    · exact remains behind isBehind

end

namespace Closing

/-- The part of a scanned text that stands inside the pair. -/
def inside (text : List Char) : Closing → List Char
  | closed before _ => before
  | unclosed _ => text

theorem inside_cons (c : Char) (text : List Char) (closing : Closing) :
    (closing.cons c).inside (c :: text) = c :: closing.inside text := by
  cases closing <;> rfl

variable {delimiters : Delimiters}

theorem find_escape (depth : Nat) (quote c : Char) (text : List Char) :
    find delimiters ⟨depth, some quote, false⟩ ('\\' :: c :: text) =
      ((find delimiters ⟨depth, some quote, false⟩ text).cons c).cons '\\' := by
  simp [find, Nesting.step]

theorem find_quoted {c : Char} (plain : c ≠ '\\') (depth : Nat) (quote : Char) (text : List Char) :
    find delimiters ⟨depth, some quote, false⟩ (c :: text) =
      (find delimiters ⟨depth, if c = quote then none else some quote, false⟩ text).cons c := by
  by_cases same : c = quote
  · subst same
    simp [find, Nesting.step, plain]
  · simp [find, Nesting.step, plain, same]

theorem find_quote {c : Char} (opens : isQuote c = true) (depth : Nat) (text : List Char) :
    find delimiters ⟨depth, none, false⟩ (c :: text) =
      (find delimiters ⟨depth, some c, false⟩ text).cons c := by
  simp [find, Nesting.step, opens]

/-- What a scan has found: the pair is open as far as the text goes inside of it, and what closes
it leaves nothing open. -/
structure IsRightAt (delimiters : Delimiters) (depth : Nat) (quote : Option Char)
    (text : List Char) (closing : Closing) : Prop where
  remains : RemainsOpen delimiters depth quote (closing.inside text)
  balanced : ∀ before after, closing = closed before after →
    depth + 1 + excess delimiters quote (before ++ [delimiters.closing]) = 0

theorem IsRightAt.cons {depth next : Nat} {quote behind : Option Char} {c : Char}
    {text : List Char} {closing : Closing}
    (right : IsRightAt delimiters next behind text closing)
    (moves : ∀ front, depth + excess delimiters quote (c :: front) =
      next + excess delimiters behind front) :
    IsRightAt delimiters depth quote (c :: text) (closing.cons c) where
  remains := by
    rw [inside_cons]
    exact right.remains.cons moves
  balanced before after isClosed := by
    cases closing with
    | unclosed last => simp [Closing.cons] at isClosed
    | closed head tail =>
        obtain ⟨rfl, rfl⟩ := closed.inj isClosed
        have inner := right.balanced head tail rfl
        have moved := moves (head ++ [delimiters.closing])
        rw [List.cons_append]
        omega

theorem IsRightAt.escape {depth : Nat} {quote : Char} {text : List Char} {closing : Closing}
    (right : IsRightAt delimiters depth (some quote) text closing) (c : Char) :
    IsRightAt delimiters depth (some quote) ('\\' :: c :: text) ((closing.cons c).cons '\\') where
  remains := by
    rw [inside_cons, inside_cons]
    exact right.remains.escape c
  balanced before after isClosed := by
    cases closing with
    | unclosed last => simp [Closing.cons] at isClosed
    | closed head tail =>
        obtain ⟨rfl, rfl⟩ := closed.inj isClosed
        exact right.balanced head tail rfl

section

variable (opens : isQuote delimiters.opening = false) (closes : isQuote delimiters.closing = false)
  (apart : delimiters.opening ≠ delimiters.closing)

include opens closes apart

/-- A character outside of literals opens an inner pair, closes a pair, or does neither. -/
theorem isRightAt_cons {c : Char} (solid : isQuote c = false) {depth : Nat} {text : List Char}
    (right : ∀ depth, IsRightAt delimiters depth none text
      (find delimiters ⟨depth, none, false⟩ text)) :
    IsRightAt delimiters depth none (c :: text)
      (find delimiters ⟨depth, none, false⟩ (c :: text)) := by
  have moved : ∀ front, excess delimiters none (c :: front) =
      excess delimiters none [c] + excess delimiters none front := excess_cons solid
  by_cases isOpening : c = delimiters.opening
  · have found : find delimiters ⟨depth, none, false⟩ (c :: text) =
        (find delimiters ⟨depth + 1, none, false⟩ text).cons c := by
      simp [find, Nesting.step, isOpening, opens]
    rw [found]
    refine (right (depth + 1)).cons fun front => ?_
    rw [moved, isOpening, excess_opening opens apart]
    omega
  · by_cases isClosing : c = delimiters.closing
    · subst isClosing
      cases depth with
      | zero =>
          have found : find delimiters ⟨0, none, false⟩ (delimiters.closing :: text) =
              closed [] text := by
            simp [find, Nesting.step, closes, apart.symm]
          rw [found]
          refine ⟨remainsOpen_nil 0 none, fun before after isClosed => ?_⟩
          obtain ⟨rfl, rfl⟩ := closed.inj isClosed
          rw [List.nil_append, excess_closing closes apart]
          rfl
      | succ depth =>
          have found : find delimiters ⟨depth + 1, none, false⟩ (delimiters.closing :: text) =
              (find delimiters ⟨depth, none, false⟩ text).cons delimiters.closing := by
            simp [find, Nesting.step, closes, apart.symm]
          rw [found]
          refine (right depth).cons fun front => ?_
          rw [moved, excess_closing closes apart]
          omega
    · have found : find delimiters ⟨depth, none, false⟩ (c :: text) =
          (find delimiters ⟨depth, none, false⟩ text).cons c := by
        simp [find, Nesting.step, solid, isOpening, isClosing]
      have neither : excess delimiters none [c] = 0 := by
        simp [excess, outside, solid, isOpening, isClosing]
      rw [found]
      refine (right depth).cons fun front => ?_
      rw [moved, neither]
      omega

theorem isRightAt_find (depth : Nat) (quote : Option Char) (text : List Char) :
    IsRightAt delimiters depth quote text (find delimiters ⟨depth, quote, false⟩ text) := by
  induction quote, text using outside.induct generalizing depth with
  | case1 quote =>
      exact ⟨remainsOpen_nil depth quote, fun _ _ isClosed => by simp [find] at isClosed⟩
  | case2 c text isQuote inductionHypothesis =>
      rw [find_quote isQuote]
      exact (inductionHypothesis depth).cons fun front => by simp [excess, outside, isQuote]
  | case3 c text solid inductionHypothesis =>
      exact isRightAt_cons opens closes apart (Bool.not_eq_true _ ▸ solid) inductionHypothesis
  | case4 quote =>
      refine ⟨fun front isFront => ?_, fun _ _ isClosed => by
        simp [find, Nesting.step, Closing.cons] at isClosed⟩
      rcases List.prefix_cons_iff.mp isFront with rfl | ⟨rest, rfl, isRest⟩
      · exact remainsOpen_nil depth (some quote) [] List.prefix_rfl
      · obtain rfl := List.prefix_nil.mp isRest
        exact remainsOpen_nil depth (some quote) [] List.prefix_rfl
  | case5 quote c text inductionHypothesis =>
      rw [find_escape]
      exact (inductionHypothesis depth).escape c
  | case6 quote c text notLast notEscape inductionHypothesis =>
      have plain : c ≠ '\\' := by
        intro slash
        cases text with
        | nil => exact notLast slash rfl
        | cons next rest => exact notEscape next rest slash rfl
      rw [find_quoted plain]
      exact (inductionHypothesis depth).cons fun front => by
        rw [excess, excess, outside_of_ne plain]

/-- The closing delimiter that a scan finds is the first one behind which nothing is open. -/
theorem closesAtEnd_of_find {text before after : List Char}
    (found : find delimiters .start text = closed before after) :
    ClosesAtEnd delimiters (delimiters.opening :: (before ++ [delimiters.closing])) := by
  have right := isRightAt_find opens closes apart 0 none text
  rw [show (⟨0, none, false⟩ : Nesting) = .start from rfl, found] at right
  constructor
  · have balanced := right.balanced before after rfl
    rw [openPairs_opening opens apart]
    omega
  · intro front isFront solid early
    rcases List.prefix_cons_iff.mp isFront with rfl | ⟨rest, rfl, isRest⟩
    · exact absurd rfl solid
    · rcases List.prefix_concat_iff.mp isRest with rfl | inBefore
      · exact absurd rfl early
      · have remains := right.remains rest inBefore
        rw [openPairs_opening opens apart]
        omega

theorem staysOpen_of_find {text : List Char} {last : Nesting}
    (found : find delimiters .start text = unclosed last) :
    StaysOpen delimiters (delimiters.opening :: text) := by
  have right := isRightAt_find opens closes apart 0 none text
  rw [show (⟨0, none, false⟩ : Nesting) = .start from rfl, found] at right
  intro front isFront solid
  rcases List.prefix_cons_iff.mp isFront with rfl | ⟨rest, rfl, isRest⟩
  · exact absurd rfl solid
  · have remains := right.remains rest isRest
    rw [openPairs_opening opens apart]
    omega

end

end Closing

end ScreenCompiler.Text
