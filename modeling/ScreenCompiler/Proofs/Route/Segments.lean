import Mathlib.Data.List.TakeWhile
import ScreenCompiler.Proofs.Text.Lines
import ScreenCompiler.Route.Identity

/-!
# Segments of route paths

How the operations on route paths act on the segments between slashes.  A path is
solid when none of its segments is empty; so is every path that leads from a
directory to a file below it.
-/

namespace ScreenCompiler

namespace Text

theorem splitLast?_append {mark : Char} (before : List Char) {after : List Char}
    (free : mark ∉ after) : splitLast? mark (before ++ mark :: after) = some (before, after) := by
  have passed : ∀ c ∈ after.reverse, (c != mark) = true := by
    intro c membership
    rw [bne_iff_ne]
    rintro rfl
    exact free (List.mem_reverse.mp membership)
  have turned : (before ++ mark :: after).reverse = after.reverse ++ mark :: before.reverse := by
    simp
  rw [splitLast?, turned, List.dropWhile_append_of_pos passed, List.takeWhile_append_of_pos passed]
  simp

theorem splitLast?_of_notMem {mark : Char} {text : List Char} (free : mark ∉ text) :
    splitLast? mark text = none := by
  have passed : text.reverse.dropWhile (· != mark) = [] := by
    rw [List.dropWhile_eq_nil_iff]
    intro c membership
    rw [bne_iff_ne]
    rintro rfl
    exact free (List.mem_reverse.mp membership)
  rw [splitLast?, passed]

/-- The last occurrence of a character that occurs. -/
theorem exists_splitLast_of_mem {mark : Char} {text : List Char} (membership : mark ∈ text) :
    ∃ before after, text = before ++ mark :: after ∧ mark ∉ after := by
  obtain ⟨after, before, split, free⟩ :=
    List.eq_append_cons_of_mem (List.mem_reverse.mpr membership)
  refine ⟨before.reverse, after.reverse, ?_, ?_⟩
  · have turned := congrArg List.reverse split
    simpa using turned
  · rwa [List.mem_reverse]

theorem eq_append_of_splitLast? {mark : Char} {text before after : List Char}
    (found : splitLast? mark text = some (before, after)) :
    text = before ++ mark :: after ∧ mark ∉ after := by
  by_cases inside : mark ∈ text
  · obtain ⟨front, last, rfl, free⟩ := exists_splitLast_of_mem inside
    rw [splitLast?_append front free] at found
    obtain ⟨rfl, rfl⟩ : front = before ∧ last = after := by simpa using found
    exact ⟨rfl, free⟩
  · rw [splitLast?_of_notMem inside] at found
    exact absurd found (by simp)

theorem notMem_of_splitLast?_eq_none {mark : Char} {text : List Char}
    (missing : splitLast? mark text = none) : mark ∉ text := by
  intro inside
  obtain ⟨front, last, rfl, free⟩ := exists_splitLast_of_mem inside
  rw [splitLast?_append front free] at missing
  exact absurd missing (by simp)

end Text

open Text

namespace RoutePath

theorem segments_ne_nil (path : List Char) : segments path ≠ [] :=
  List.splitOn_ne_nil '/' path

theorem slash_notMem_of_mem_segments {path part : List Char} (membership : part ∈ segments path) :
    '/' ∉ part :=
  notMem_of_mem_splitOn membership

theorem segments_append_slash (first second : List Char) :
    segments (first ++ '/' :: second) = segments first ++ segments second :=
  List.splitOn_append_cons_self first second

theorem joinSegments_segments (path : List Char) : joinSegments (segments path) = path :=
  List.intercalate_splitOn '/'

theorem segments_joinSegments {parts : List (List Char)} (nonempty : parts ≠ [])
    (free : ∀ part ∈ parts, '/' ∉ part) : segments (joinSegments parts) = parts :=
  List.splitOn_intercalate '/' free nonempty

theorem segments_of_notMem {part : List Char} (free : '/' ∉ part) : segments part = [part] := by
  have alone : joinSegments [part] = part := by simp [joinSegments]
  calc segments part = segments (joinSegments [part]) := by rw [alone]
    _ = [part] := segments_joinSegments (by simp) (by simpa using free)

theorem joinSegments_append {first second : List (List Char)} (firstNonempty : first ≠ [])
    (secondNonempty : second ≠ []) :
    joinSegments (first ++ second) = joinSegments first ++ '/' :: joinSegments second := by
  induction first with
  | nil => exact absurd rfl firstNonempty
  | cons part parts inductionHypothesis =>
      cases parts with
      | nil =>
          obtain ⟨next, rest, rfl⟩ := List.exists_cons_of_ne_nil secondNonempty
          simp [joinSegments]
      | cons next rest =>
          have joined := inductionHypothesis (by simp)
          simp only [joinSegments, List.cons_append, List.intercalate_cons_cons] at joined ⊢
          rw [joined]
          simp

theorem joinSegments_concat_append (parts : List (List Char)) (part ending : List Char) :
    joinSegments (parts ++ [part]) ++ ending = joinSegments (parts ++ [part ++ ending]) := by
  cases parts with
  | nil => simp [joinSegments]
  | cons next rest =>
      rw [joinSegments_append (by simp) (by simp), joinSegments_append (by simp) (by simp)]
      simp [joinSegments]

/-- A path that starts with a slash leaves one in front of each segment. -/
theorem slash_cons_joinSegments {parts : List (List Char)} (nonempty : parts ≠ []) :
    '/' :: joinSegments parts = parts.flatMap ('/' :: ·) := by
  induction parts with
  | nil => exact absurd rfl nonempty
  | cons part parts inductionHypothesis =>
      cases parts with
      | nil => simp [joinSegments]
      | cons next rest =>
          have joined := inductionHypothesis (by simp)
          rw [List.flatMap_cons, ← joined]
          simp [joinSegments]

/-- No segment of the path is empty. -/
def IsSolid (path : List Char) : Prop :=
  ∀ part ∈ segments path, part ≠ []

instance (path : List Char) : Decidable (IsSolid path) :=
  inferInstanceAs (Decidable (∀ part ∈ segments path, part ≠ []))

theorem isSolid_joinSegments {parts : List (List Char)} (nonempty : parts ≠ [])
    (named : ∀ part ∈ parts, part ≠ [] ∧ '/' ∉ part) : IsSolid (joinSegments parts) := by
  intro part membership
  rw [segments_joinSegments nonempty fun part inside => (named part inside).2] at membership
  exact (named part membership).1

/-- A solid path has no slash at its ends. -/
theorem IsSolid.ends_ne_slash {path : List Char} (solid : IsSolid path) :
    path.head? ≠ some '/' ∧ path.getLast? ≠ some '/' := by
  constructor
  · intro starts
    obtain ⟨rest, rfl⟩ := List.head?_eq_some_iff.mp starts
    exact solid [] (by simp [segments, List.splitOn_cons_eq_if_modifyHead]) rfl
  · intro ends
    obtain ⟨front, rfl⟩ := List.getLast?_eq_some_iff.mp ends
    refine solid [] ?_ rfl
    rw [segments_append_slash]
    exact List.mem_append_right _ (by simp [segments])

/-- A path of names has no slash at its ends. -/
theorem joinSegments_ends_ne_slash {parts : List (List Char)}
    (named : ∀ part ∈ parts, part ≠ [] ∧ '/' ∉ part) :
    (joinSegments parts).head? ≠ some '/' ∧ (joinSegments parts).getLast? ≠ some '/' := by
  cases parts with
  | nil => exact ⟨by simp [joinSegments], by simp [joinSegments]⟩
  | cons part parts => exact (isSolid_joinSegments (by simp) named).ends_ne_slash

theorem segments_eq_append_last (path : List Char) :
    segments path = (segments path).dropLast ++ [(segments path).getLastD []] := by
  have nonempty := segments_ne_nil path
  rw [List.getLastD_eq_getLast?, List.getLast?_eq_some_getLast nonempty, Option.getD_some,
    List.dropLast_append_getLast nonempty]

end RoutePath

namespace RouteIdentity

open RoutePath

/-- The segments of a directory are those of the path without the last. -/
theorem segments_of_directory? {path directory : List Char}
    (found : directory? path = some directory) :
    segments directory = (segments path).dropLast := by
  obtain ⟨⟨before, last⟩, cut, rfl⟩ := Option.map_eq_some_iff.mp found
  obtain ⟨rfl, free⟩ := eq_append_of_splitLast? cut
  rw [segments_append_slash, segments_of_notMem free, List.dropLast_concat]

theorem dropLast_segments_of_directory?_eq_none {path : List Char}
    (missing : directory? path = none) : (segments path).dropLast = [] := by
  have free := notMem_of_splitLast?_eq_none (Option.map_eq_none_iff.mp missing)
  rw [segments_of_notMem free]
  rfl

/-- The front of a solid path is solid, unless it is empty or ends with a slash. -/
theorem isSolid_of_append {stem rest : List Char} (solid : IsSolid (stem ++ rest))
    (nonempty : stem ≠ []) (ends : stem.getLast? ≠ some '/') : IsSolid stem := by
  intro part membership
  by_cases inside : '/' ∈ stem
  · obtain ⟨front, last, rfl, free⟩ := exists_splitLast_of_mem inside
    rw [segments_append_slash, segments_of_notMem free] at membership
    rcases List.mem_append.mp membership with earlier | isLast
    · apply solid
      rw [List.append_assoc, List.cons_append, segments_append_slash]
      exact List.mem_append_left _ earlier
    · rw [List.mem_singleton.mp isLast]
      rintro rfl
      exact ends (by simp)
  · rw [segments_of_notMem inside] at membership
    rw [List.mem_singleton.mp membership]
    exact nonempty

/-- Cutting the extension off shortens the last segment but does not empty it. -/
theorem isSolid_withoutExtension {path : List Char} (solid : IsSolid path) :
    IsSolid (withoutExtension path) := by
  unfold withoutExtension
  split
  · rename_i stem ending cut
    split
    · exact solid
    · rename_i kept
      simp only [Bool.or_eq_true, List.isEmpty_iff, beq_iff_eq, not_or] at kept
      rw [(eq_append_of_splitLast? cut).1] at solid
      exact isSolid_of_append solid kept.1 kept.2
  · exact solid

/-- Unless every segment is the tab group, the ungrouped path has the other segments. -/
theorem segments_ungrouped {path : List Char}
    (named : (segments path).filter (· != tabGroup) ≠ []) :
    segments (ungrouped path) = (segments path).filter (· != tabGroup) :=
  segments_joinSegments named fun _ membership =>
    slash_notMem_of_mem_segments (List.mem_of_mem_filter membership)

end RouteIdentity

end ScreenCompiler
