import ScreenCompiler.Markup.Head
import ScreenCompiler.Proofs.Text.Letters

/-!
# Scanning for the end of a tag

The end of a tag is decided by the text up to it.  A chunk in which the tag does not
end only moves the place from which the scan goes on.  The name of a tag is what stands
in front, wherever the tag ends.
-/

namespace ScreenCompiler.Head

open Text

theorem findEnd?_append {place : Place} {chunk : List Char}
    (goesOn : findEnd? place chunk = none) (rest : List Char) :
    findEnd? place (chunk ++ rest) =
      (findEnd? (place.after chunk) rest).map
        fun (inside, behind) => (chunk ++ inside, behind) := by
  induction chunk generalizing place with
  | nil =>
      exact (Option.map_id' ..).symm
  | cons c chunk inductionHypothesis =>
      rw [List.cons_append]
      simp only [findEnd?] at goesOn ⊢
      split at goesOn
      · simp at goesOn
      · rename_i stays
        rw [if_neg stays, inductionHypothesis (Option.map_eq_none_iff.mp goesOn), Option.map_map]
        rfl

/-- What stands behind the end does not move it. -/
theorem findEnd?_inside {place : Place} {text inside rest : List Char}
    (found : findEnd? place text = some (inside, rest)) (more : List Char) :
    findEnd? place (inside ++ '>' :: more) = some (inside, more) := by
  induction text generalizing place inside with
  | nil => simp [findEnd?] at found
  | cons c text inductionHypothesis =>
      simp only [findEnd?] at found
      split at found
      · rename_i closes
        simp only [Option.some.injEq, Prod.mk.injEq] at found
        rw [← found.1, List.nil_append, findEnd?, if_pos]
        simp only [Place.closesAt, Bool.and_eq_true, beq_self_eq_true, true_and] at closes ⊢
        exact ⟨closes.1.2, closes.2⟩
      · rename_i stays
        obtain ⟨⟨inner, behind⟩, reached, equality⟩ := Option.map_eq_some_iff.mp found
        simp only [Prod.mk.injEq] at equality
        obtain ⟨rfl, rfl⟩ := equality
        rw [List.cons_append, findEnd?, if_neg stays, inductionHypothesis reached]
        rfl

theorem after_append (place : Place) (first second : List Char) :
    place.after (first ++ second) = (place.after first).after second :=
  List.foldl_append

/-- A chunk that leaves the scan where it started, outside quotes and braces. -/
structure Quiet (chunk : List Char) : Prop where
  goesOn : findEnd? .start chunk = none
  returns : Place.start.after chunk = .start

theorem Quiet.append {first second : List Char} (quiet : Quiet first) (later : Quiet second) :
    Quiet (first ++ second) := by
  constructor
  · rw [findEnd?_append quiet.goesOn, quiet.returns, later.goesOn, Option.map_none]
  · rw [after_append, quiet.returns, later.returns]

theorem Quiet.flatMap {Entry : Type} {entries : List Entry} {text : Entry → List Char}
    (quiet : ∀ entry ∈ entries, Quiet (text entry)) : Quiet (entries.flatMap text) := by
  induction entries with
  | nil => exact ⟨rfl, rfl⟩
  | cons entry entries inductionHypothesis =>
      obtain ⟨first, later⟩ := List.forall_mem_cons.mp quiet
      exact first.append (inductionHypothesis later)

theorem Quiet.findEnd? {chunk : List Char} (quiet : Quiet chunk) (rest : List Char) :
    findEnd? .start (chunk ++ '>' :: rest) = some (chunk, rest) := by
  have here : Head.findEnd? .start ('>' :: rest) = some ([], rest) := rfl
  rw [findEnd?_append quiet.goesOn, quiet.returns, here]
  simp only [Option.map_some, List.append_nil]

theorem quiet_of_plain {chunk : List Char}
    (plain : ∀ c ∈ chunk, isQuote c = false ∧ c ≠ '{' ∧ c ≠ '}' ∧ c ≠ '>') : Quiet chunk := by
  induction chunk with
  | nil => exact ⟨rfl, rfl⟩
  | cons c chunk inductionHypothesis =>
      obtain ⟨⟨noQuote, noOpening, noClosing, noEnd⟩, plain⟩ := List.forall_mem_cons.mp plain
      have stays : Place.start.step c = .start := by
        simp [Place.step, Place.start, noQuote, noOpening, noClosing]
      have quiet := inductionHypothesis plain
      constructor
      · rw [Head.findEnd?, stays, quiet.goesOn]
        simp [Place.closesAt, noEnd]
      · rw [Place.after, List.foldl_cons, stays]
        exact quiet.returns

/-- A class of characters without the marks that a scan looks for. -/
theorem plain_of_class {holds : Char → Bool}
    (outside : ['"', '\'', '\x60', '{', '}', '>'].any holds = false) {c : Char}
    (inside : holds c = true) : isQuote c = false ∧ c ≠ '{' ∧ c ≠ '}' ∧ c ≠ '>' := by
  simp only [List.any_cons, List.any_nil, Bool.or_false, Bool.or_eq_false_iff] at outside
  obtain ⟨double, single, back, opening, closing, ending⟩ := outside
  refine ⟨?_, ne_of_class inside opening, ne_of_class inside closing, ne_of_class inside ending⟩
  simp [isQuote, ne_of_class inside double, ne_of_class inside single, ne_of_class inside back]

theorem findEnd?_quoted {place : Place} {quote : Char} (inside : place.quote = some quote)
    {chunk : List Char} (other : quote ∉ chunk) :
    findEnd? place chunk = none ∧ place.after chunk = place := by
  induction chunk with
  | nil => exact ⟨rfl, rfl⟩
  | cons c chunk inductionHypothesis =>
      rw [List.mem_cons, not_or] at other
      have stays : place.step c = place := by
        simp [Place.step, inside, Ne.symm other.1]
      obtain ⟨goesOn, returns⟩ := inductionHypothesis other.2
      constructor
      · rw [findEnd?, stays, goesOn]
        simp [Place.closesAt, inside]
      · rw [Place.after, List.foldl_cons, stays]
        exact returns

theorem quiet_quoted {quote : Char} (marks : isQuote quote = true) {value : List Char}
    (other : quote ∉ value) : Quiet (quote :: value ++ [quote]) := by
  have opened : Place.start.step quote = ⟨0, some quote⟩ := by
    simp [Place.step, Place.start, marks]
  have noEnd : Place.start.closesAt quote = false := by
    have differs : quote ≠ '>' := ne_of_class marks (by decide)
    simp [Place.closesAt, differs]
  have inside : findEnd? ⟨0, some quote⟩ value = none ∧
      Place.after ⟨0, some quote⟩ value = ⟨0, some quote⟩ :=
    findEnd?_quoted rfl other
  obtain ⟨goesOn, returns⟩ := inside
  have ended : findEnd? ⟨0, some quote⟩ [quote] = none := by
    simp [findEnd?, Place.closesAt]
  constructor
  · rw [List.cons_append, findEnd?, noEnd, opened, findEnd?_append goesOn, returns, ended]
    rfl
  · rw [List.cons_append, Place.after, List.foldl_cons, opened]
    change Place.after _ (value ++ [quote]) = _
    rw [after_append, returns]
    simp [Place.after, Place.step, Place.start]

/-- The tag of the head at the front of a text. -/
def tagOf (text : List Char) : List Char :=
  (text.drop 1).takeWhile isTagChar

theorem takeWhile_append_cons {holds : Char → Bool} {c : Char} (stops : holds c = false)
    (text more : List Char) : (text ++ c :: more).takeWhile holds = text.takeWhile holds := by
  induction text with
  | nil => simp [stops]
  | cons d text inductionHypothesis =>
      rw [List.cons_append, List.takeWhile_cons, List.takeWhile_cons, inductionHypothesis]

theorem tag_ofInside (inside : List Char) :
    (ofInside inside).tag = inside.takeWhile isTagChar := by
  simp only [ofInside]
  split <;> rfl

theorem tag_of_read? {text rest : List Char} {head : Head}
    (found : read? text = some (head, rest)) : head.tag = tagOf text := by
  unfold read? at found
  split at found
  · rename_i text
    obtain ⟨⟨inside, behind⟩, ended, same⟩ := Option.map_eq_some_iff.mp found
    obtain ⟨rfl, -⟩ := Prod.mk.inj same
    have bracket : isTagChar '>' = false := by decide
    rw [tag_ofInside, tagOf, append_of_findEnd? ended, List.drop_one, List.tail_cons,
      takeWhile_append_cons bracket]
  · simp at found

theorem tag_of_recover? {text : List Char} {head : Head} (found : recover? text = some head) :
    head.tag = tagOf text := by
  cases text with
  | nil => simp [recover?] at found
  | cons c inside =>
      simp only [recover?] at found
      split at found
      · rw [← Option.some.inj found]
        rfl
      · rw [← Option.some.inj found]
        rfl
      · simp at found

theorem opening_prefix (rest : List Char) : '<' :: tagOf ('<' :: rest) <+: '<' :: rest :=
  List.cons_prefix_cons.mpr ⟨rfl, List.takeWhile_prefix _⟩

end ScreenCompiler.Head
