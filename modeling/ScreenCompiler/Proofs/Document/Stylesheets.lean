import ScreenCompiler.Document.Stylesheet
import ScreenCompiler.Proofs.Text.Lines

/-!
# Lines around a stylesheet

Cutting the stylesheet out of a source keeps its line feeds, so no line of what remains
has a number that the source does not have, and what stands on a line stands on the line of
the same number in the source.  Only a block that is cut out of the middle of a line leaves a
text that its source does not have, put together from the two sides of the block.
-/

namespace ScreenCompiler

open Text

namespace Stylesheet

theorem trimStart_suffix (text : List Char) : trimStart text <:+ text :=
  List.dropWhile_suffix _

theorem afterPrefix?_suffix {start text rest : List Char}
    (found : afterPrefix? start text = some rest) : rest <:+ text := by
  rw [afterPrefix?_eq_some_iff.mp found]
  exact List.suffix_append start rest

/-- What opens a block is not empty. -/
theorem exists_of_afterOpening? {text inside : List Char}
    (found : afterOpening? text = some inside) : ∃ c rest, text = c :: rest ∧ inside <:+ rest := by
  obtain ⟨behindConst, const, found⟩ := Option.bind_eq_some_iff.mp found
  cases behindConst with
  | nil => simp at found
  | cons c rest =>
      simp only [Option.ite_none_right_eq_some] at found
      obtain ⟨behindName, name, found⟩ := Option.bind_eq_some_iff.mp found.2
      obtain ⟨behindSign, sign, found⟩ := Option.bind_eq_some_iff.mp found
      obtain ⟨behindCall, call, found⟩ := Option.bind_eq_some_iff.mp found
      have within : inside <:+ rest :=
        (((((((afterPrefix?_suffix found).trans (trimStart_suffix _)).trans
          (afterPrefix?_suffix call)).trans (trimStart_suffix _)).trans
            (afterPrefix?_suffix sign)).trans (trimStart_suffix _)).trans
              (afterPrefix?_suffix name)).trans (trimStart_suffix _)
      refine ⟨'c', "onst".toList ++ c :: rest, afterPrefix?_eq_some_iff.mp const, ?_⟩
      exact within.trans ((List.suffix_cons c rest).trans (List.suffix_append _ _))

theorem find?_spec {text before opening inside : List Char}
    (found : find? text = some (before, opening, inside)) :
    text = before ++ (opening ++ inside) ∧ opening ≠ [] := by
  induction text generalizing before with
  | nil =>
      have nothing : (find? []).isSome = false := by decide
      rw [found] at nothing
      contradiction
  | cons c text inductionHypothesis =>
      unfold find? at found
      split at found
      · rename_i behind opened
        obtain ⟨first, rest, shape, front, rfl⟩ := exists_of_afterOpening? opened
        have isFront : (c :: text).take ((c :: text).length - behind.length) = first :: front := by
          have count : (first :: (front ++ behind)).length - behind.length =
              (first :: front).length := by
            simp only [List.length_cons, List.length_append]
            omega
          rw [shape, count, ← List.cons_append, List.take_left]
        obtain ⟨rfl, same⟩ := Prod.mk.inj (Option.some.inj found)
        obtain ⟨rfl, rfl⟩ := Prod.mk.inj same
        rw [isFront, shape]
        exact ⟨rfl, List.cons_ne_nil _ _⟩
      · obtain ⟨⟨inner, head, behind⟩, later, same⟩ := Option.map_eq_some_iff.mp found
        simp only [Prod.mk.injEq] at same
        obtain ⟨rfl, rfl, rfl⟩ := same
        obtain ⟨shape, solid⟩ := inductionHypothesis later
        exact ⟨by rw [shape]; rfl, solid⟩

theorem splitEnd_spec {text ending after : List Char} (found : splitEnd text = (ending, after)) :
    text = ending ++ after ∧ (')' :: ending).getLast? ≠ some '\n' := by
  have whole : text.takeWhile (fun c => c == ' ' || c == '\t') ++
      text.dropWhile (fun c => c == ' ' || c == '\t') = text :=
    List.takeWhile_append_dropWhile
  unfold splitEnd at found
  split at found
  · rename_i rest behind
    obtain ⟨rfl, rfl⟩ := Prod.mk.inj found
    rw [behind] at whole
    refine ⟨by simpa using whole.symm, ?_⟩
    rw [← List.cons_append, List.getLast?_append_of_ne_nil _ (List.cons_ne_nil _ _)]
    decide
  · obtain ⟨rfl, rfl⟩ := Prod.mk.inj found
    exact ⟨rfl, by decide⟩

/-- How a source is put together from what is cut out of it and what remains. -/
inductive CutOf (source : List Char) : StylesheetCut → Prop where
  | whole : CutOf source ⟨none, source, none⟩
  | closed {before block after} :
      source = before ++ (block ++ after) → block ≠ [] → block.getLast? ≠ some '\n' →
      CutOf source (assemble before block after none)
  | unclosed {before block} :
      source = before ++ block → block ≠ [] →
      CutOf source (assemble before block [] (some (lineFeeds before + 1)))

theorem cutOf_cut (source : List Char) : CutOf source (cut source) := by
  unfold cut
  split
  · exact .whole
  · rename_i before opening inside found
    obtain ⟨shape, solid⟩ := find?_spec found
    split
    · rename_i body rest ended
      have inner : inside = body ++ ')' :: rest := Closing.append_of_find_closed ended
      cases ends : splitEnd rest with
      | mk ending after =>
      obtain ⟨tail, last⟩ := splitEnd_spec ends
      refine .closed ?_ (by simp) ?_
      · rw [shape, inner, tail]
        simp only [List.append_assoc, List.cons_append]
      · rwa [List.getLast?_append_of_ne_nil _ (List.cons_ne_nil _ _)]
    · exact .unclosed shape (by simp [solid])

/-- A text on the line of some number, put together from the two sides of a block within it. -/
inductive Parts (source : List Char) : StylesheetCut → Nat → List Char → Prop where
  | within {before first block second after} :
      source = before ++ (first ++ (block ++ (second ++ after))) →
      first ≠ [] → second ≠ [] → '\n' ∉ block →
      Parts source (assemble (before ++ first) block (second ++ after) none)
        (lineFeeds before + 1) (first ++ second)

/-- A block with a line feed does not stand within a line. -/
theorem not_parts_of_mem {source block text : List Char} {cut : StylesheetCut} {number : Nat}
    (isBlock : cut.block = some block) (feed : '\n' ∈ block) : ¬Parts source cut number text := by
  rintro ⟨-, -, -, flat⟩
  obtain rfl := Option.some.inj isBlock
  exact flat feed

/-- What occurs in two texts put together occurs in one of them or reaches over from the first to
the second. -/
theorem occurrence_cases {before text after first second : List Char}
    (shape : first ++ second = before ++ (text ++ after)) :
    (∃ tail, first = before ++ (text ++ tail)) ∨
      (∃ gap, before = first ++ gap ∧ second = gap ++ (text ++ after)) ∨
        ∃ left right, text = left ++ right ∧ left ≠ [] ∧ right ≠ [] ∧
          first = before ++ left ∧ second = right ++ after := by
  rcases List.append_eq_append_iff.mp shape with ⟨gap, front, back⟩ | ⟨left, front, back⟩
  · exact .inr (.inl ⟨gap, front, back⟩)
  · rcases List.append_eq_append_iff.mp back with ⟨tail, whole, -⟩ | ⟨right, whole, behind⟩
    · exact .inl ⟨tail, by rw [front, whole]⟩
    · by_cases noLeft : left = []
      · subst noLeft
        refine .inr (.inl ⟨[], by simpa using front.symm, ?_⟩)
        rw [behind, whole, List.nil_append, List.nil_append]
      · by_cases noRight : right = []
        · subst noRight
          exact .inl ⟨[], by rw [front, whole, List.append_nil, List.append_nil]⟩
        · exact .inr (.inr ⟨left, right, whole, noLeft, noRight, front, behind⟩)

/-- What occurs on a line in front of line feeds ends in front of them. -/
theorem exists_tail_of_feeds {before text tail front : List Char} {count : Nat} (solid : text ≠ [])
    (flat : '\n' ∉ text) (shape : front ++ List.replicate count '\n' = before ++ (text ++ tail)) :
    ∃ rest, front = before ++ (text ++ rest) := by
  have noPart : ∀ {part : List Char}, part ≠ [] → part ⊆ text →
      ¬part <:+: List.replicate count '\n' := by
    intro part some within inFeeds
    obtain ⟨c, rest, rfl⟩ := List.exists_cons_of_ne_nil some
    obtain rfl := List.eq_of_mem_replicate (inFeeds.subset List.mem_cons_self)
    exact flat (within List.mem_cons_self)
  rcases occurrence_cases shape with inFront | ⟨gap, -, behind⟩ |
    ⟨left, right, rfl, -, someRight, -, behind⟩
  · exact inFront
  · have inFeeds : text <:+: List.replicate count '\n' :=
      ⟨gap, tail, by rw [behind, List.append_assoc]⟩
    exact absurd inFeeds (noPart solid (List.Subset.refl _))
  · have inFeeds : right <:+: List.replicate count '\n' := ⟨[], tail, behind.symm⟩
    exact absurd inFeeds (noPart someRight (List.subset_append_right _ _))

variable {source : List Char} {cut : StylesheetCut} (cuts : CutOf source cut)

include cuts

theorem CutOf.lineFeeds : lineFeeds cut.remaining = lineFeeds source := by
  cases cuts with
  | whole => rfl
  | closed shape _ _ =>
      rw [shape]
      simp only [assemble, lineFeeds_append, lineFeeds_replicate, Nat.add_assoc]
  | unclosed shape _ =>
      rw [shape]
      simp only [assemble, List.append_nil, lineFeeds_append, lineFeeds_replicate]

/-- What remains ends in a line feed if its source does. -/
theorem CutOf.ends (fed : source = [] ∨ source.getLast? = some '\n') :
    cut.remaining = [] ∨ cut.remaining.getLast? = some '\n' := by
  cases cuts with
  | whole => exact fed
  | @closed before block after shape solid last =>
      have ended : source.getLast? = some '\n' := fed.resolve_left (by simp [shape, solid])
      have more : after ≠ [] := by
        rintro rfl
        rw [shape, List.append_nil, List.getLast?_append_of_ne_nil _ solid] at ended
        exact last ended
      rw [shape, ← List.append_assoc, List.getLast?_append_of_ne_nil _ more] at ended
      exact .inr (by rw [assemble, List.getLast?_append_of_ne_nil _ more, ended])
  | @unclosed before block shape solid =>
      have ended : source.getLast? = some '\n' := fed.resolve_left (by simp [shape, solid])
      rw [shape, List.getLast?_append_of_ne_nil _ solid] at ended
      have some : 0 < Text.lineFeeds block :=
        List.count_pos_iff.mpr (List.mem_of_mem_getLast? ended)
      have feeds : List.replicate (Text.lineFeeds block) '\n' ≠ [] := by
        simp [Nat.ne_of_gt some]
      refine .inr ?_
      rw [assemble, List.append_nil, List.getLast?_append_of_ne_nil _ feeds,
        List.getLast?_replicate, if_neg (Nat.ne_of_gt some)]

/-- What stands on a line of what remains stands on that line of the source, unless the cut has put
it together. -/
theorem CutOf.isOnLine_or_parts {number : Nat} {text : List Char} (solid : text ≠ [])
    (within : IsOnLine cut.remaining number text) :
    IsOnLine source number text ∨ Parts source cut number text := by
  obtain ⟨flat, front, back, shape, rfl⟩ := within.exists_append
  cases cuts with
  | whole => exact .inl within
  | unclosed isSource _ =>
      rw [assemble, List.append_nil] at shape
      obtain ⟨rest, rfl⟩ := exists_tail_of_feeds solid flat shape
      rw [isSource, List.append_assoc, List.append_assoc]
      exact .inl (isOnLine_append front flat _)
  | @closed before block after isSource _ _ =>
      rcases occurrence_cases shape with ⟨tail, inFront⟩ | ⟨gap, rfl, behind⟩ |
        ⟨left, right, rfl, someLeft, someRight, inFront, behind⟩
      · obtain ⟨rest, rfl⟩ := exists_tail_of_feeds solid flat inFront
        rw [isSource, List.append_assoc, List.append_assoc]
        exact .inl (isOnLine_append front flat _)
      · have count : Text.lineFeeds (before ++ List.replicate (Text.lineFeeds block) '\n' ++ gap) =
            Text.lineFeeds (before ++ (block ++ gap)) := by
          simp only [lineFeeds_append, lineFeeds_replicate, Nat.add_assoc]
        have whole : source = before ++ (block ++ gap) ++ (text ++ back) := by
          rw [isSource, behind]
          simp only [List.append_assoc]
        rw [count, whole]
        exact .inl (isOnLine_append _ flat back)
      · have flatLeft : '\n' ∉ left := fun inside => flat (List.mem_append_left _ inside)
        rw [← List.append_nil left] at inFront
        obtain ⟨rest, isBefore⟩ := exists_tail_of_feeds someLeft flatLeft inFront
        subst isBefore
        have none : rest ++ List.replicate (Text.lineFeeds block) '\n' = [] := by
          simpa using inFront
        obtain ⟨rfl, noFeeds⟩ := List.append_eq_nil_iff.mp none
        have flatBlock : '\n' ∉ block :=
          List.count_eq_zero.mp ((List.replicate_eq_nil_iff _).mp noFeeds)
        subst behind
        rw [List.append_nil] at isSource ⊢
        exact .inr (.within (by rw [isSource, List.append_assoc]) someLeft someRight flatBlock)

/-- What remains of a source has no more lines than the source. -/
theorem CutOf.length_lines : (lines cut.remaining).length ≤ (lines source).length := by
  rw [Text.length_lines, Text.length_lines, cuts.lineFeeds]
  by_cases fed : source = [] ∨ source.getLast? = some '\n'
  · rw [if_pos fed, if_pos (cuts.ends fed)]
  · rw [if_neg fed]
    split <;> omega

/-- A block that is never closed starts on a line of its source. -/
theorem CutOf.unterminatedAt_le {line : Nat} (found : cut.unterminatedAt = some line) :
    1 ≤ line ∧ line ≤ (lines source).length := by
  cases cuts with
  | whole => simp at found
  | closed _ _ _ => simp [assemble] at found
  | @unclosed before block shape solid =>
      obtain rfl := Option.some.inj found
      refine ⟨Nat.le_add_left 1 _, ?_⟩
      rw [Text.length_lines]
      split
      · rename_i fed
        have ended : source.getLast? = some '\n' := fed.resolve_left (by simp [shape, solid])
        rw [shape, List.getLast?_append_of_ne_nil _ solid] at ended
        have some : 0 < Text.lineFeeds block :=
          List.count_pos_iff.mpr (List.mem_of_mem_getLast? ended)
        rw [shape, lineFeeds_append]
        omega
      · rw [shape, lineFeeds_append]
        omega

end Stylesheet

end ScreenCompiler
