import ScreenCompiler.Proofs.Text.Trim
import ScreenCompiler.Text.Lines

/-!
# Lines and their texts

Texts put together with line feeds fall into the same lines again, provided none of
them is empty, holds a line feed or ends in a carriage return.  A line end belongs
to the line in front of it, so the lines of two texts joined by a line feed are
those of the first, line ends cut, and those of the second.
-/

namespace ScreenCompiler.Text

theorem exists_dropReturn_append (line : List Char) :
    ∃ ending, isAllBlank ending = true ∧ line = dropReturn line ++ ending := by
  unfold dropReturn
  split
  · rename_i last
    obtain ⟨text, rfl⟩ := List.getLast?_eq_some_iff.mp last
    exact ⟨['\r'], by decide, by simp⟩
  · exact ⟨[], rfl, by simp⟩

theorem trim_dropReturn (line : List Char) : trim (dropReturn line) = trim line := by
  obtain ⟨ending, blank, split⟩ := exists_dropReturn_append line
  conv_rhs => rw [split, trim_append_of_isAllBlank blank]

theorem trimEnd_dropReturn (line : List Char) : trimEnd (dropReturn line) = trimEnd line := by
  obtain ⟨ending, blank, split⟩ := exists_dropReturn_append line
  conv_rhs => rw [split, trimEnd_append_of_isAllBlank blank]

theorem dropReturn_of_getLast?_ne {line : List Char} (last : line.getLast? ≠ some '\r') :
    dropReturn line = line := by
  rw [dropReturn, if_neg last]

/-- A text that may stand on a line of its own and is given back as it is. -/
structure IsLine (line : List Char) : Prop where
  noFeed : '\n' ∉ line
  nonempty : line ≠ []
  noReturn : line.getLast? ≠ some '\r'

theorem lines_unlines {texts : List (List Char)} (plain : ∀ text ∈ texts, IsLine text) :
    lines (unlines texts) = texts := by
  rcases List.eq_nil_or_concat texts with rfl | ⟨before, last, rfl⟩
  · rfl
  · rw [List.concat_eq_append] at plain ⊢
    have split : (unlines (before ++ [last])).splitOn '\n' = before ++ [last] :=
      List.splitOn_intercalate '\n' (fun text membership => (plain text membership).noFeed)
        (by simp)
    have kept : before.map dropReturn = before := by
      apply (List.map_congr_left _).trans (List.map_id before)
      intro text membership
      exact dropReturn_of_getLast?_ne
        (plain text (List.mem_append_left _ membership)).noReturn
    have solid : last ≠ [] := (plain last (by simp)).nonempty
    simp [lines, split, kept, solid]

/-- Line ends and the empty line behind the last of them do not matter to what skips them. -/
theorem flatMap_lines {Out : Type} {read : List Char → List Out}
    (ending : ∀ raw, read (dropReturn raw) = read raw) (empty : read [] = []) (text : List Char) :
    (lines text).flatMap read = (text.splitOn '\n').flatMap read := by
  have nonempty := List.splitOn_ne_nil '\n' text
  have last : (text.splitOn '\n').getLastD [] = (text.splitOn '\n').getLast nonempty := by
    rw [List.getLastD_eq_getLast?, List.getLast?_eq_some_getLast nonempty, Option.getD_some]
  have tidied : ∀ raws : List (List Char),
      (raws.map dropReturn).flatMap read = raws.flatMap read := by
    intro raws
    rw [List.flatMap_map]
    exact congrArg (raws.flatMap ·) (funext ending)
  conv_rhs => rw [← List.dropLast_append_getLast nonempty, List.flatMap_append]
  rw [lines, List.flatMap_append, tidied, last]
  cases final : (text.splitOn '\n').getLast nonempty with
  | nil => simp [empty]
  | cons c line => rfl

theorem cons_unlines {pieces : List (List Char)} (nonempty : pieces ≠ []) :
    '\n' :: unlines pieces = pieces.flatMap ('\n' :: ·) := by
  induction pieces with
  | nil => exact absurd rfl nonempty
  | cons piece pieces inductionHypothesis =>
      cases pieces with
      | nil => simp [unlines]
      | cons next pieces =>
          rw [List.flatMap_cons, ← inductionHypothesis (by simp)]
          simp [unlines, List.intercalate]

theorem unlines_splitOn (text : List Char) : unlines (text.splitOn '\n') = text :=
  List.intercalate_splitOn '\n'

theorem unlines_append (front : List (List Char)) {back : List (List Char)}
    (nonempty : back ≠ []) :
    unlines (front ++ back) = front.flatMap (· ++ ['\n']) ++ unlines back := by
  induction front with
  | nil => rfl
  | cons first front inductionHypothesis =>
      have more : front ++ back ≠ [] := by simp [nonempty]
      obtain ⟨next, rest, shape⟩ := List.exists_cons_of_ne_nil more
      rw [List.flatMap_cons, List.append_assoc, ← inductionHypothesis, List.cons_append, shape]
      simp [unlines, List.intercalate]

theorem unlines_append_cons (front first : List Char) (back : List (List Char)) :
    unlines ((front ++ first) :: back) = front ++ unlines (first :: back) := by
  cases back <;> simp [unlines, List.intercalate]

theorem lineFeeds_append (first second : List Char) :
    lineFeeds (first ++ second) = lineFeeds first + lineFeeds second :=
  List.count_append

theorem lineFeeds_replicate (count : Nat) : lineFeeds (List.replicate count '\n') = count :=
  List.count_replicate_self

theorem lineFeeds_ended {texts : List (List Char)} (flat : ∀ text ∈ texts, '\n' ∉ text) :
    lineFeeds (texts.flatMap (· ++ ['\n'])) = texts.length := by
  induction texts with
  | nil => rfl
  | cons text texts inductionHypothesis =>
      obtain ⟨flatText, flat⟩ := List.forall_mem_cons.mp flat
      have one : lineFeeds (text ++ ['\n']) = 1 := by
        rw [lineFeeds_append, lineFeeds, List.count_eq_zero_of_not_mem flatText]
        rfl
      rw [List.flatMap_cons, lineFeeds_append, inductionHypothesis flat, one, List.length_cons,
        Nat.add_comm]

theorem length_splitOn (text : List Char) :
    (text.splitOn '\n').length = lineFeeds text + 1 := by
  induction text with
  | nil => rfl
  | cons c text inductionHypothesis =>
      rw [List.splitOn_cons_eq_if_modifyHead, lineFeeds, List.count_cons]
      split
      · rw [List.length_cons, inductionHypothesis, lineFeeds]
      · rw [List.length_modifyHead, inductionHypothesis, lineFeeds, Nat.add_zero]

theorem exists_splitOn_eq_concat (text : List Char) :
    ∃ init last, text.splitOn '\n' = init ++ [last] ∧ init.length = lineFeeds text := by
  obtain ⟨init, last, pieces⟩ := (List.eq_nil_or_concat (text.splitOn '\n')).resolve_left
    (List.splitOn_ne_nil '\n' text)
  have length := length_splitOn text
  rw [pieces, List.length_concat] at length
  exact ⟨init, last, pieces.trans (List.concat_eq_append ..), Nat.succ.inj length⟩

theorem lines_append_feed (first second : List Char) :
    lines (first ++ '\n' :: second) = (first.splitOn '\n').map dropReturn ++ lines second := by
  have nonempty := List.splitOn_ne_nil '\n' second
  have last : (first.splitOn '\n' ++ second.splitOn '\n').getLastD [] =
      (second.splitOn '\n').getLastD [] := by
    rw [List.getLastD_eq_getLast?, List.getLastD_eq_getLast?,
      List.getLast?_append_of_ne_nil _ nonempty]
  simp only [lines, List.splitOn_append_cons_self, last,
    List.dropLast_append_of_ne_nil nonempty, List.map_append, List.append_assoc]

theorem splitOn_of_notMem {mark : Char} {text : List Char} (free : mark ∉ text) :
    text.splitOn mark = [text] := by
  have alone : List.intercalate [mark] [text] = text := by simp
  conv_lhs => rw [← alone]
  exact List.splitOn_intercalate mark (by simpa using free) (by simp)

/-- Texts that are each ended by a line feed are the lines again, empty ones included. -/
theorem lines_ended {texts : List (List Char)}
    (flat : ∀ text ∈ texts, '\n' ∉ text ∧ text.getLast? ≠ some '\r') :
    lines (texts.flatMap (· ++ ['\n'])) = texts := by
  induction texts with
  | nil => rfl
  | cons text texts inductionHypothesis =>
      obtain ⟨⟨noFeed, noReturn⟩, flat⟩ := List.forall_mem_cons.mp flat
      rw [List.flatMap_cons, List.append_assoc, List.singleton_append, lines_append_feed,
        splitOn_of_notMem noFeed, inductionHypothesis flat, List.map_singleton,
        dropReturn_of_getLast?_ne noReturn, List.singleton_append]

theorem not_of_mem_splitOnP {splits : Char → Bool} {text part : List Char}
    (membership : part ∈ text.splitOnP splits) : ∀ c ∈ part, splits c = false := by
  induction text generalizing part with
  | nil =>
      obtain rfl : part = [] := by simpa using membership
      simp
  | cons c text inductionHypothesis =>
      rw [List.splitOnP_cons_eq_if_modifyHead] at membership
      split at membership
      · rcases List.mem_cons.mp membership with rfl | later
        · simp
        · exact inductionHypothesis later
      · rename_i other
        cases found : text.splitOnP splits with
        | nil => exact absurd found (List.splitOnP_ne_nil splits text)
        | cons head tail =>
            rw [found] at membership inductionHypothesis
            rcases List.mem_cons.mp membership with rfl | later
            · exact List.forall_mem_cons.mpr
                ⟨by simpa using other, inductionHypothesis List.mem_cons_self⟩
            · exact inductionHypothesis (List.mem_cons_of_mem _ later)

theorem notMem_of_mem_splitOn {mark : Char} {text part : List Char}
    (membership : part ∈ text.splitOn mark) : mark ∉ part := by
  rw [List.splitOn_eq_splitOnP] at membership
  intro inside
  exact absurd (not_of_mem_splitOnP membership mark inside) (by simp)

theorem exists_mem_splitOn {mark c : Char} {text : List Char} (membership : c ∈ text)
    (other : c ≠ mark) : ∃ part ∈ text.splitOn mark, c ∈ part := by
  induction text with
  | nil => exact absurd membership List.not_mem_nil
  | cons d text inductionHypothesis =>
      rw [List.splitOn_cons_eq_if_modifyHead]
      split
      · rename_i isMark
        have later : c ∈ text := (List.mem_cons.mp membership).resolve_left fun same =>
          other (same.trans (eq_of_beq isMark))
        obtain ⟨part, isPart, inside⟩ := inductionHypothesis later
        exact ⟨part, List.mem_cons_of_mem _ isPart, inside⟩
      · cases parts : text.splitOn mark with
        | nil => exact absurd parts (List.splitOn_ne_nil mark text)
        | cons first others =>
            rw [parts] at inductionHypothesis
            rw [List.modifyHead_cons]
            rcases List.mem_cons.mp membership with rfl | later
            · exact ⟨c :: first, List.mem_cons_self, List.mem_cons_self⟩
            · obtain ⟨part, isPart, inside⟩ := inductionHypothesis later
              rcases List.mem_cons.mp isPart with rfl | isOther
              · exact ⟨d :: part, List.mem_cons_self, List.mem_cons_of_mem _ inside⟩
              · exact ⟨part, List.mem_cons_of_mem _ isOther, inside⟩

/-- A line is a text between line feeds without its line end. -/
theorem exists_of_mem_lines {text line : List Char} (membership : line ∈ lines text) :
    ∃ ending, isAllBlank ending = true ∧ line ++ ending ∈ text.splitOn '\n' := by
  rcases List.mem_append.mp membership with ended | last
  · obtain ⟨raw, rawMembership, rfl⟩ := List.mem_map.mp ended
    obtain ⟨ending, blank, split⟩ := exists_dropReturn_append raw
    exact ⟨ending, blank, split ▸ List.dropLast_subset _ rawMembership⟩
  · split at last
    · simp at last
    · rw [List.mem_singleton] at last
      have nonempty := List.splitOn_ne_nil '\n' text
      rw [List.getLastD_eq_getLast?, List.getLast?_eq_some_getLast nonempty,
        Option.getD_some] at last
      refine ⟨[], rfl, ?_⟩
      rw [last, List.append_nil]
      exact List.getLast_mem nonempty

theorem feed_not_mem_of_mem_lines {text line : List Char} (membership : line ∈ lines text) :
    '\n' ∉ line := by
  obtain ⟨ending, -, piece⟩ := exists_of_mem_lines membership
  exact fun inside => notMem_of_mem_splitOn piece (List.mem_append_left _ inside)

/-- A last line without a line feed counts. -/
theorem length_lines (text : List Char) :
    (lines text).length =
      lineFeeds text + if text = [] ∨ text.getLast? = some '\n' then 0 else 1 := by
  obtain ⟨init, last, pieces, count⟩ := exists_splitOn_eq_concat text
  have shape : text = init.flatMap (· ++ ['\n']) ++ last := by
    conv_lhs => rw [← unlines_splitOn text, pieces, unlines_append init (List.cons_ne_nil last [])]
    simp [unlines]
  have noFeed : '\n' ∉ last := @notMem_of_mem_splitOn '\n' text last (by rw [pieces]; simp)
  have length : (lines text).length = init.length + if last.isEmpty then 0 else 1 := by
    rw [lines, pieces]
    cases last <;> simp
  have ends : last.isEmpty = true ↔ text = [] ∨ text.getLast? = some '\n' := by
    constructor
    · intro empty
      rw [List.isEmpty_iff.mp empty, List.append_nil] at shape
      rcases List.eq_nil_or_concat init with rfl | ⟨before, line, rfl⟩
      · exact .inl shape
      · exact .inr (by rw [shape]; simp)
    · rintro (rfl | fed)
      · simpa using (List.append_eq_nil_iff.mp shape.symm).2
      · by_contra solid
        have own : last ≠ [] := by simpa using solid
        rw [shape, List.getLast?_append_of_ne_nil _ own] at fed
        exact noFeed (List.mem_of_mem_getLast? fed)
  rw [length, count]
  simp only [ends]

/-- A line stands under the same number as between line feeds, without its line end. -/
theorem exists_of_getElem?_lines {text line : List Char} {index : Nat}
    (found : (lines text)[index]? = some line) :
    ∃ whole, (text.splitOn '\n')[index]? = some whole ∧ line <+: whole := by
  obtain ⟨init, last, pieces, -⟩ := exists_splitOn_eq_concat text
  simp only [lines, pieces, List.dropLast_concat, List.getLastD_concat] at found ⊢
  by_cases within : index < init.length
  · rw [List.getElem?_append_left (by simpa using within), List.getElem?_map] at found
    obtain ⟨whole, inInit, rfl⟩ := Option.map_eq_some_iff.mp found
    obtain ⟨ending, -, split⟩ := exists_dropReturn_append whole
    exact ⟨whole, by rw [List.getElem?_append_left within, inInit], ending, split.symm⟩
  · rw [List.getElem?_append_right (by simpa using within), List.length_map] at found
    refine ⟨line, ?_, List.prefix_rfl⟩
    rw [List.getElem?_append_right (Nat.le_of_not_lt within)]
    split at found
    · simp at found
    · exact found

/-- Whether the line of some number, counted from one by line feeds, holds a text. -/
def IsOnLine (source : List Char) (number : Nat) (text : List Char) : Prop :=
  0 < number ∧ ∃ line ∈ (source.splitOn '\n')[number - 1]?, text <:+: line

instance (source : List Char) (number : Nat) (text : List Char) :
    Decidable (IsOnLine source number text) :=
  inferInstanceAs (Decidable (0 < number ∧ ∃ line ∈ (source.splitOn '\n')[number - 1]?, _))

theorem isOnLine_of_lines {source line text : List Char} {number : Nat} (positive : 0 < number)
    (found : (lines source)[number - 1]? = some line) (within : text <:+: line) :
    IsOnLine source number text := by
  obtain ⟨whole, isWhole, start⟩ := exists_of_getElem?_lines found
  exact ⟨positive, whole, isWhole, within.trans start.isInfix⟩

theorem IsOnLine.exists_append {source text : List Char} {number : Nat}
    (within : IsOnLine source number text) : '\n' ∉ text ∧
      ∃ before after, source = before ++ (text ++ after) ∧ number = lineFeeds before + 1 := by
  obtain ⟨positive, line, found, left, right, rfl⟩ := within
  obtain ⟨bound, isLine⟩ := List.getElem?_eq_some_iff.mp found
  have flat := notMem_of_mem_splitOn (List.mem_of_getElem? found)
  simp only [List.mem_append, not_or] at flat
  obtain ⟨⟨flatLeft, flatText⟩, -⟩ := flat
  have pieces : source.splitOn '\n' = (source.splitOn '\n').take (number - 1) ++
      (left ++ (text ++ right)) :: (source.splitOn '\n').drop (number - 1 + 1) := by
    rw [← List.append_assoc left, ← isLine, ← List.drop_eq_getElem_cons bound,
      List.take_append_drop]
  refine ⟨flatText, ((source.splitOn '\n').take (number - 1)).flatMap (· ++ ['\n']) ++ left,
    unlines (right :: (source.splitOn '\n').drop (number - 1 + 1)), ?_, ?_⟩
  · conv_lhs => rw [← unlines_splitOn source, pieces, unlines_append _ (List.cons_ne_nil _ _),
      unlines_append_cons, unlines_append_cons]
    rw [List.append_assoc]
  · have front : ∀ line ∈ (source.splitOn '\n').take (number - 1), '\n' ∉ line :=
      fun line inFront => notMem_of_mem_splitOn (List.mem_of_mem_take inFront)
    rw [lineFeeds_append, lineFeeds_ended front, List.length_take,
      Nat.min_eq_left (Nat.le_of_lt bound), lineFeeds, List.count_eq_zero_of_not_mem flatLeft]
    omega

theorem isOnLine_append (before : List Char) {text : List Char} (flat : '\n' ∉ text)
    (after : List Char) : IsOnLine (before ++ (text ++ after)) (lineFeeds before + 1) text := by
  obtain ⟨init, last, front, count⟩ := exists_splitOn_eq_concat before
  obtain ⟨first, rest, back⟩ := List.exists_cons_of_ne_nil (List.splitOn_ne_nil '\n' after)
  have whole : before ++ (text ++ after) = unlines (init ++ (last ++ (text ++ first)) :: rest) := by
    conv_lhs => rw [← unlines_splitOn before, ← unlines_splitOn after, front, back,
      unlines_append init (List.cons_ne_nil last [])]
    rw [unlines_append init (List.cons_ne_nil _ rest), unlines_append_cons, unlines_append_cons]
    simp [unlines]
  have flatFront : ∀ line ∈ init ++ [last], '\n' ∉ line := fun line inFront =>
    notMem_of_mem_splitOn (front ▸ inFront)
  have flatBack : ∀ line ∈ first :: rest, '\n' ∉ line := fun line inBack =>
    notMem_of_mem_splitOn (back ▸ inBack)
  obtain ⟨flatInit, flatLast⟩ := List.forall_mem_append.mp flatFront
  obtain ⟨flatFirst, flatRest⟩ := List.forall_mem_cons.mp flatBack
  have flatLine : '\n' ∉ last ++ (text ++ first) := by
    simp only [List.mem_append, not_or]
    exact ⟨flatLast last List.mem_cons_self, flat, flatFirst⟩
  have pieces := List.splitOn_intercalate '\n'
    (List.forall_mem_append.mpr ⟨flatInit, List.forall_mem_cons.mpr ⟨flatLine, flatRest⟩⟩) (by simp)
  refine ⟨Nat.succ_pos _, last ++ (text ++ first), ?_, last, first, by simp⟩
  rw [whole, unlines, pieces, Nat.add_sub_cancel, ← count,
    List.getElem?_append_right (Nat.le_refl _), Nat.sub_self]
  rfl

end ScreenCompiler.Text
