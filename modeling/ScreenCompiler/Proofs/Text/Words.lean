import ScreenCompiler.Proofs.Text.Lines
import ScreenCompiler.Proofs.Text.Trim

/-!
# Words of a text

The words of a text are those of its parts between blanks.  A row of words with single
spaces between them has just these words.
-/

namespace ScreenCompiler.Text

/-- A run of characters that are not blank. -/
structure IsWordRun (word : List Char) : Prop where
  nonempty : word ≠ []
  solid : ∀ c ∈ word, isBlank c = false

theorem isWordRun_of_mem_words {text word : List Char} (membership : word ∈ words text) :
    IsWordRun word := by
  obtain ⟨isPart, kept⟩ := List.mem_filter.mp membership
  exact ⟨by simpa using kept, not_of_mem_splitOnP isPart⟩

theorem words_append_cons {c : Char} (blank : isBlank c = true) (front rest : List Char) :
    words (front ++ c :: rest) = words front ++ words rest := by
  rw [words, List.splitOnP_append_cons _ _ blank, List.filter_append, words, words]

theorem words_of_isAllBlank {gap : List Char} (blank : isAllBlank gap = true) :
    words gap = [] := by
  induction gap with
  | nil => rfl
  | cons c gap inductionHypothesis =>
      obtain ⟨first, others⟩ := isAllBlank_cons.mp blank
      exact (words_append_cons first [] gap).trans (inductionHypothesis others)

theorem words_append_gap (text : List Char) {gap : List Char} (blank : isAllBlank gap = true) :
    words (text ++ gap) = words text := by
  cases gap with
  | nil => rw [List.append_nil]
  | cons c gap =>
      obtain ⟨first, others⟩ := isAllBlank_cons.mp blank
      rw [words_append_cons first, words_of_isAllBlank others, List.append_nil]

theorem words_of_isWordRun {word : List Char} (run : IsWordRun word) : words word = [word] := by
  rw [words, List.splitOnP_eq_singleton run.solid]
  simp [run.nonempty]

theorem words_intercalate {row : List (List Char)} (runs : ∀ word ∈ row, IsWordRun word) :
    words (List.intercalate [' '] row) = row := by
  induction row with
  | nil => rfl
  | cons word row inductionHypothesis =>
      obtain ⟨run, later⟩ := List.forall_mem_cons.mp runs
      cases row with
      | nil => rw [List.intercalate_singleton, words_of_isWordRun run]
      | cons next row =>
          have space : isBlank ' ' = true := by decide
          rw [List.intercalate_cons_cons, List.append_assoc, List.singleton_append,
            words_append_cons space, words_of_isWordRun run, inductionHypothesis later,
            List.singleton_append]

/-- The words of a text with single spaces between them. -/
def respaced (text : List Char) : List Char :=
  List.intercalate [' '] (words text)

theorem words_respaced (text : List Char) : words (respaced text) = words text :=
  words_intercalate fun _ => isWordRun_of_mem_words

theorem respaced_respaced (text : List Char) : respaced (respaced text) = respaced text :=
  congrArg (List.intercalate [' ']) (words_respaced text)

theorem mem_of_mem_splitOnP {splits : Char → Bool} {c : Char} {text part : List Char}
    (isPart : part ∈ text.splitOnP splits) (inside : c ∈ part) : c ∈ text := by
  induction text generalizing part with
  | nil =>
      obtain rfl : part = [] := by simpa using isPart
      exact inside
  | cons d text inductionHypothesis =>
      rw [List.splitOnP_cons_eq_if_modifyHead] at isPart
      split at isPart
      · rcases List.mem_cons.mp isPart with rfl | later
        · exact absurd inside List.not_mem_nil
        · exact List.mem_cons_of_mem _ (inductionHypothesis later inside)
      · obtain ⟨first, others, parts⟩ :=
          List.exists_cons_of_ne_nil (List.splitOnP_ne_nil splits text)
        rw [parts, List.modifyHead_cons] at isPart
        rw [parts] at inductionHypothesis
        rcases List.mem_cons.mp isPart with rfl | later
        · exact (List.mem_cons.mp inside).elim (· ▸ List.mem_cons_self)
            fun behind => List.mem_cons_of_mem _ (inductionHypothesis List.mem_cons_self behind)
        · exact List.mem_cons_of_mem _
            (inductionHypothesis (List.mem_cons_of_mem _ later) inside)

theorem mem_intercalate {c : Char} {gap : List Char} {row : List (List Char)}
    (membership : c ∈ List.intercalate gap row) : c ∈ gap ∨ ∃ part ∈ row, c ∈ part := by
  induction row with
  | nil => exact absurd membership List.not_mem_nil
  | cons part row inductionHypothesis =>
      cases row with
      | nil =>
          rw [List.intercalate_singleton] at membership
          exact .inr ⟨part, List.mem_cons_self, membership⟩
      | cons next row =>
          rw [List.intercalate_cons_cons, List.mem_append, List.mem_append] at membership
          rcases membership with (here | inGap) | later
          · exact .inr ⟨part, List.mem_cons_self, here⟩
          · exact .inl inGap
          · refine (inductionHypothesis later).imp_right ?_
            rintro ⟨found, isPart, inside⟩
            exact ⟨found, List.mem_cons_of_mem _ isPart, inside⟩

/-- Only spaces come in between words. -/
theorem mem_of_mem_respaced {c : Char} {text : List Char} (membership : c ∈ respaced text)
    (other : c ≠ ' ') : c ∈ text := by
  rcases mem_intercalate membership with space | ⟨word, isWord, inside⟩
  · exact absurd (List.mem_singleton.mp space) other
  · exact mem_of_mem_splitOnP (List.mem_of_mem_filter isWord) inside

end ScreenCompiler.Text
