/-!
# Nested delimiters

Finding the delimiter that closes an open pair.  Delimiters inside string and
template literals do not count, and a backslash inside a literal hides the
character behind it.
-/

namespace ScreenCompiler.Text

/-- The characters that open and close a literal. -/
def isQuote (c : Char) : Bool :=
  c == '"' || c == '\'' || c == '\x60'

structure Delimiters where
  opening : Char
  closing : Char

/-- Where a scan stands inside an open pair. -/
structure Nesting where
  /-- Inner pairs that are open. -/
  depth : Nat
  /-- The quote of the literal around the position. -/
  quote : Option Char
  /-- Whether a backslash precedes the position inside a literal. -/
  escaped : Bool
  deriving DecidableEq, Repr

namespace Nesting

def start : Nesting := ⟨0, none, false⟩

/-- The place after one character; none when that character closes the pair. -/
def step (delimiters : Delimiters) (nesting : Nesting) (c : Char) : Option Nesting :=
  match nesting.quote with
  | some quote =>
      if nesting.escaped then some { nesting with escaped := false }
      else if c = '\\' then some { nesting with escaped := true }
      else if c = quote then some { nesting with quote := none }
      else some nesting
  | none =>
      if isQuote c then some { nesting with quote := some c }
      else if c = delimiters.opening then some { nesting with depth := nesting.depth + 1 }
      else if c = delimiters.closing then
        match nesting.depth with
        | 0 => none
        | depth + 1 => some { nesting with depth }
      else some nesting

theorem eq_closing_of_step {delimiters : Delimiters} {nesting : Nesting} {c : Char}
    (closes : nesting.step delimiters c = none) : c = delimiters.closing := by
  unfold step at closes
  split at closes
  · split at closes
    · simp at closes
    · split at closes
      · simp at closes
      · split at closes <;> simp at closes
  · split at closes
    · simp at closes
    · split at closes
      · simp at closes
      · split at closes
        · assumption
        · simp at closes

end Nesting

/-- Where the pair around a text ends. -/
inductive Closing where
  /-- The text before and after the closing delimiter. -/
  | closed (before after : List Char)
  /-- The place at the end of a text that does not close the pair. -/
  | unclosed (nesting : Nesting)

namespace Closing

def cons (c : Char) : Closing → Closing
  | closed before after => closed (c :: before) after
  | unclosed nesting => unclosed nesting

def find (delimiters : Delimiters) (nesting : Nesting) : List Char → Closing
  | [] => unclosed nesting
  | c :: text =>
      match nesting.step delimiters c with
      | none => closed [] text
      | some next => (find delimiters next text).cons c

theorem append_of_find_closed {delimiters : Delimiters} {nesting : Nesting}
    {text before after : List Char}
    (found : find delimiters nesting text = closed before after) :
    text = before ++ delimiters.closing :: after := by
  induction text generalizing nesting before with
  | nil => simp [find] at found
  | cons c text inductionHypothesis =>
      simp only [find] at found
      split at found
      · rename_i closes
        simp only [closed.injEq] at found
        rw [← found.1, ← found.2, Nesting.eq_closing_of_step closes, List.nil_append]
      · rename_i next _
        cases inner : find delimiters next text with
        | unclosed _ => simp [inner, cons] at found
        | closed head tail =>
            simp only [inner, cons, closed.injEq] at found
            obtain ⟨rfl, rfl⟩ := found
            rw [inductionHypothesis inner, List.cons_append]

end Closing

end ScreenCompiler.Text
