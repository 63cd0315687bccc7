import ScreenCompiler.Text.Blank
import ScreenCompiler.Text.Lines

/-!
# Source lines

A source is read as its lines that are not blank, each with its number.
-/

namespace ScreenCompiler

structure Line where
  /-- Counted from one, blank lines included. -/
  number : Nat
  /-- The line as written. -/
  raw : List Char
  deriving DecidableEq, Repr

namespace Line

def text (line : Line) : List Char :=
  Text.trim line.raw

/-- The lines of a list that are not blank, numbered from the given number on. -/
def numbered (number : Nat) : List (List Char) → List Line
  | [] => []
  | raw :: more =>
      if (Text.trim raw).isEmpty then numbered (number + 1) more
      else ⟨number, raw⟩ :: numbered (number + 1) more

def ofSource (source : List Char) : List Line :=
  numbered 1 (Text.lines source)

theorem text_ne_nil_of_mem_numbered {line : Line} {number : Nat} {raws : List (List Char)}
    (member : line ∈ numbered number raws) : line.text ≠ [] := by
  induction raws generalizing number with
  | nil => simp [numbered] at member
  | cons raw raws inductionHypothesis =>
      simp only [numbered] at member
      split at member
      · exact inductionHypothesis member
      · rename_i solid
        rcases List.mem_cons.1 member with rfl | later
        · simpa [text] using solid
        · exact inductionHypothesis later

theorem text_ne_nil_of_mem_ofSource {line : Line} {source : List Char}
    (member : line ∈ ofSource source) : line.text ≠ [] :=
  text_ne_nil_of_mem_numbered member

end Line

end ScreenCompiler
