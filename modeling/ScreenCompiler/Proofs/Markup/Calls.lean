import ScreenCompiler.Markup.Value

/-!
# Navigation calls

A text is taken for a navigation call when it starts and ends like one, with a path in
quotes of one kind.  What stands between the quotes is not looked at, so it may hold the
quote itself.
-/

namespace ScreenCompiler

open Text

namespace PropValue

/-- A navigation call with its path in quotes of the given kind. -/
def goCall (quote : Char) (path : List Char) : List Char :=
  "go(".toList ++ quote :: (path ++ [quote, ')'])

/-- A text that starts and ends like a call of a path. -/
def IsFramedCall (path text : List Char) : Prop :=
  ∃ quote ∈ ['\'', '"'], text = goCall quote path

/-- A text that is one call of a path: the quote that opens the path is closed behind it. -/
def IsCall (path text : List Char) : Prop :=
  ∃ quote ∈ ['\'', '"'], quote ∉ path ∧ text = goCall quote path

theorem IsCall.framed {path text : List Char} (call : IsCall path text) :
    IsFramedCall path text := by
  obtain ⟨quote, isQuote, -, shape⟩ := call
  exact ⟨quote, isQuote, shape⟩

theorem between?_eq_some_iff {mark : Char} {text inner : List Char} :
    between? mark text = some inner ↔ text = mark :: (inner ++ [mark]) := by
  rw [between?, Option.bind_eq_some_iff]
  simp only [afterPrefix?_eq_some_iff, beforeSuffix?_eq_some_iff]
  constructor
  · rintro ⟨rest, rfl, rfl⟩
    rfl
  · rintro rfl
    exact ⟨inner ++ [mark], rfl, rfl⟩

/-- A text is between quotes of one kind only. -/
theorem or_between?_eq_some_iff {argument path : List Char} :
    (between? '\'' argument).or (between? '"' argument) = some path ↔
      ∃ quote ∈ ['\'', '"'], argument = quote :: (path ++ [quote]) := by
  rw [Option.or_eq_some_iff, between?_eq_some_iff, between?_eq_some_iff]
  simp only [List.mem_cons, List.not_mem_nil, or_false, exists_eq_or_imp, exists_eq_left]
  refine or_congr_right ⟨And.right, fun double => ⟨?_, double⟩⟩
  rw [Option.eq_none_iff_forall_ne_some]
  intro other single
  rw [between?_eq_some_iff, double] at single
  simp at single

theorem navigationTarget?_eq_some_iff {text path : List Char} :
    navigationTarget? text = some path ↔ IsFramedCall path text := by
  rw [navigationTarget?, Option.bind_eq_some_iff]
  simp only [or_between?_eq_some_iff, Option.bind_eq_some_iff, afterPrefix?_eq_some_iff,
    beforeSuffix?_eq_some_iff]
  constructor
  · rintro ⟨argument, ⟨behind, rfl, rfl⟩, quote, isQuote, rfl⟩
    exact ⟨quote, isQuote, by simp [goCall]⟩
  · rintro ⟨quote, isQuote, rfl⟩
    exact ⟨quote :: (path ++ [quote]), ⟨_, rfl, by simp⟩, quote, isQuote, rfl⟩

/-- A navigation call has quotes. -/
theorem navigationTarget?_of_unquoted {text : List Char} (noDouble : '"' ∉ text)
    (noSingle : '\'' ∉ text) : navigationTarget? text = none := by
  rw [Option.eq_none_iff_forall_ne_some]
  intro path found
  obtain ⟨quote, isQuote, rfl⟩ := navigationTarget?_eq_some_iff.mp found
  have inside : quote ∈ goCall quote path := by simp [goCall]
  simp only [List.mem_cons, List.not_mem_nil, or_false] at isQuote
  rcases isQuote with rfl | rfl
  · exact noSingle inside
  · exact noDouble inside

end PropValue

end ScreenCompiler
