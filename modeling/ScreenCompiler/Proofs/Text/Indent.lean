import ScreenCompiler.Proofs.Text.Trim
import ScreenCompiler.Text.Indent

/-!
# Dedenting

Where indentation is written in one-byte characters, its width in bytes is its length,
and dedenting takes the same number of characters off every line.
-/

namespace ScreenCompiler.Text

/-- The blanks in front of a line. -/
def indentation (line : List Char) : List Char :=
  line.takeWhile isBlank

/-- How many characters of indentation all lines share. -/
def commonIndent (lines : List (List Char)) : Nat :=
  (lines.map fun line => (indentation line).length).min?.getD 0

/-- Every character of the indentation takes one byte. -/
def IsNarrow (line : List Char) : Prop :=
  ∀ c ∈ indentation line, c.utf8Size = 1

theorem byteLength_of_narrow {text : List Char} (narrow : ∀ c ∈ text, c.utf8Size = 1) :
    byteLength text = text.length := by
  induction text with
  | nil => rfl
  | cons c text inductionHypothesis =>
      obtain ⟨first, narrow⟩ := List.forall_mem_cons.mp narrow
      rw [byteLength, inductionHypothesis narrow, first, List.length_cons, Nat.add_comm]

theorem dropBytes?_of_narrow {width : Nat} {text rest : List Char}
    (narrow : ∀ c ∈ text, c.utf8Size = 1) (within : width ≤ text.length) :
    dropBytes? width (text ++ rest) = some ((text ++ rest).drop width) := by
  induction text generalizing width with
  | nil =>
      obtain rfl : width = 0 := Nat.le_zero.mp within
      rw [dropBytes?, List.drop_zero]
  | cons c text inductionHypothesis =>
      obtain ⟨first, narrow⟩ := List.forall_mem_cons.mp narrow
      cases width with
      | zero => rw [dropBytes?, List.drop_zero]
      | succ width =>
          have fits : 1 ≤ width + 1 := Nat.le_add_left 1 width
          rw [List.cons_append, dropBytes?, first, if_pos fits, Nat.add_sub_cancel,
            inductionHypothesis narrow (Nat.le_of_succ_le_succ within), List.drop_succ_cons]

theorem commonIndent_le {lines : List (List Char)} {line : List Char} (membership : line ∈ lines) :
    commonIndent lines ≤ (indentation line).length :=
  List.min?_getD_le_of_mem (List.mem_map.mpr ⟨line, membership, rfl⟩)

/-- Lines that are not blank lose the indentation that they share, counted in characters. -/
theorem dedent_of_narrow {lines : List (List Char)}
    (solid : ∀ line ∈ lines, isAllBlank line = false) (narrow : ∀ line ∈ lines, IsNarrow line) :
    dedent lines = lines.map (List.drop (commonIndent lines)) := by
  have all : lines.filter (!isAllBlank ·) = lines :=
    List.filter_eq_self.mpr fun line membership => by simp [solid line membership]
  have widths : lines.map indentOf = lines.map fun line => (indentation line).length :=
    List.map_congr_left fun line membership => byteLength_of_narrow (narrow line membership)
  have shared : sharedIndent lines = commonIndent lines := by
    rw [sharedIndent, all, widths, commonIndent]
  rw [dedent, shared]
  refine List.map_congr_left fun line membership => ?_
  have whole : indentation line ++ trimStart line = line := List.takeWhile_append_dropWhile
  have cut : dropBytes? (commonIndent lines) (indentation line ++ trimStart line) =
      some ((indentation line ++ trimStart line).drop (commonIndent lines)) :=
    dropBytes?_of_narrow (narrow line membership) (commonIndent_le membership)
  rw [whole] at cut
  rw [dropIndent, cut, Option.getD_some]

theorem isAllBlank_trimEnd (text : List Char) : isAllBlank (trimEnd text) = isAllBlank text := by
  obtain ⟨gap, blank, split⟩ := exists_trimEnd_append text
  conv_rhs => rw [split, isAllBlank_append, blank, Bool.and_true]

/-- The end of a line that is not blank has nothing to do with its indentation. -/
theorem indentation_trimEnd {line : List Char} (solid : isAllBlank line = false) :
    indentation (trimEnd line) = indentation line := by
  obtain ⟨gap, -, split⟩ := exists_trimEnd_append line
  have stops : ∃ c ∈ trimEnd line, isBlank c = false := by
    by_contra none
    simp only [not_exists, not_and, Bool.not_eq_false] at none
    rw [← isAllBlank_trimEnd, isAllBlank_iff.mpr none] at solid
    exact absurd solid (by decide)
  conv_rhs => rw [indentation, split]
  rw [List.takeWhile_append, if_neg, indentation]
  intro full
  obtain ⟨c, membership, isSolid⟩ := stops
  have same := (List.takeWhile_prefix (p := isBlank) (l := trimEnd line)).eq_of_length full
  rw [← same] at membership
  exact absurd (List.mem_takeWhile_imp membership) (by simp [isSolid])

theorem commonIndent_map_trimEnd {lines : List (List Char)}
    (solid : ∀ line ∈ lines, isAllBlank line = false) :
    commonIndent (lines.map trimEnd) = commonIndent lines := by
  rw [commonIndent, List.map_map, commonIndent]
  congr 2
  exact List.map_congr_left fun line membership =>
    congrArg List.length (indentation_trimEnd (solid line membership))

end ScreenCompiler.Text
