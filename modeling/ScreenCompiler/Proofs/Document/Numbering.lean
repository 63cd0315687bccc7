import ScreenCompiler.Proofs.Document.Joining
import ScreenCompiler.Proofs.Document.SourceLines

/-!
# Lines of joined sources

The lines of two sources joined by a line feed are those of the first and those of
the second, numbered on.  The first may lose a carriage return at its end, which is
part of the line end now; tidying both sides hides the difference.
-/

namespace ScreenCompiler

open Text

namespace Line

/-- A line without the blanks at its end. -/
def tidy (line : Line) : Line :=
  ⟨line.number, trimEnd line.raw⟩

theorem keepsText_tidy : KeepsText id tidy where
  number _ := rfl
  raw _ := trimEnd_eq_self fun _ last => getLast?_trimEnd last

theorem keepsText_tidy_shift (count : Nat) : KeepsText (· + count) fun line =>
    (line.shift count).tidy where
  number _ := rfl
  raw _ := trimEnd_eq_self fun _ last => getLast?_trimEnd last

theorem map_tidy_numbered (number : Nat) (raws : List (List Char)) :
    (numbered number raws).map tidy = numbered number (raws.map trimEnd) := by
  induction raws generalizing number with
  | nil => rfl
  | cons raw raws inductionHypothesis =>
      rw [List.map_cons, numbered, numbered, trim_trimEnd, ← inductionHypothesis]
      split <;> rfl

/-- The blank line behind a final line feed is not read. -/
theorem numbered_lines (number : Nat) (source : List Char) :
    (numbered number ((source.splitOn '\n').map dropReturn)).map tidy =
      (numbered number (lines source)).map tidy := by
  have tidied : ∀ raws : List (List Char),
      (raws.map dropReturn).map trimEnd = raws.map trimEnd := by
    intro raws
    rw [List.map_map]
    exact List.map_congr_left fun raw _ => trimEnd_dropReturn raw
  have split := List.splitOn_ne_nil '\n' source
  have last : (source.splitOn '\n').getLastD [] = (source.splitOn '\n').getLast split := by
    rw [List.getLastD_eq_getLast?, List.getLast?_eq_some_getLast split, Option.getD_some]
  rw [map_tidy_numbered, map_tidy_numbered, tidied, lines, List.map_append, tidied, last]
  conv_lhs => rw [← List.dropLast_append_getLast split, List.map_append]
  cases final : (source.splitOn '\n').getLast split with
  | nil =>
      rw [numbered_append]
      simp [numbered, trimEnd, trim]
  | cons c text => rfl

theorem map_tidy_ofSource_append (first second : List Char) :
    (ofSource (first ++ '\n' :: second)).map tidy =
      (ofSource first).map tidy ++
        (ofSource second).map fun line => (line.shift (lineFeeds first + 1)).tidy := by
  rw [ofSource, lines_append_feed, numbered_append, List.map_append, numbered_lines,
    List.length_map, length_splitOn, numbered_add, List.map_map]
  rfl

end Line

namespace Block

theorem renumber_id (block : Block) : block.renumber id = block := by
  cases block <;> rfl

theorem ofLines_map_tidy (lines : List Line) : ofLines (lines.map Line.tidy) = ofLines lines := by
  rw [ofLines_map Line.keepsText_tidy]
  exact (List.map_congr_left fun block _ => renumber_id block).trans (List.map_id _)

theorem ofSource_append {first second : List Char}
    (complete : ∀ block ∈ ofSource first, block.isComplete = true)
    (apart : Function.Apart (Line.ofSource first) (Line.ofSource second)) :
    ofSource (first ++ '\n' :: second) =
      ofSource first ++ (ofSource second).map (renumber (· + (lineFeeds first + 1))) := by
  have shifted := Line.keepsText_tidy_shift (lineFeeds first + 1)
  rw [ofSource, ← ofLines_map_tidy, Line.map_tidy_ofSource_append,
    ofLines_append (by rwa [ofLines_map_tidy]) (apart.map Line.keepsText_tidy shifted),
    ofLines_map_tidy, ofLines_map shifted, ofSource, ofSource]

end Block

end ScreenCompiler
