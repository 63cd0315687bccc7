import Mathlib.Data.List.DropRight
import Mathlib.Data.List.TakeWhile
import ScreenCompiler.Text.Blank

/-!
# Trimming

A text is its trimmed part between two gaps of blanks, and the trimmed part is
fixed by trimming.  Gaps at the ends of a text never show in its trimmed form.
-/

namespace ScreenCompiler.Text

theorem isAllBlank_iff {gap : List Char} :
    isAllBlank gap = true ↔ ∀ c ∈ gap, isBlank c = true := by
  simp [isAllBlank]

theorem isAllBlank_cons {c : Char} {gap : List Char} :
    isAllBlank (c :: gap) = true ↔ isBlank c = true ∧ isAllBlank gap = true := by
  simp [isAllBlank]

theorem isAllBlank_append {first second : List Char} :
    isAllBlank (first ++ second) = (isAllBlank first && isAllBlank second) := by
  simp [isAllBlank]

theorem trimStart_append_of_isAllBlank {gap text : List Char} (blank : isAllBlank gap = true) :
    trimStart (gap ++ text) = trimStart text :=
  List.dropWhile_append_of_pos (isAllBlank_iff.mp blank)

theorem trimStart_of_isAllBlank {gap : List Char} (blank : isAllBlank gap = true) :
    trimStart gap = [] := by
  rw [← List.append_nil gap, trimStart_append_of_isAllBlank blank, trimStart_nil]

theorem trimEnd_append_of_isAllBlank {text gap : List Char} (blank : isAllBlank gap = true) :
    trimEnd (text ++ gap) = trimEnd text := by
  have reversed : ∀ c ∈ gap.reverse, isBlank c = true := fun c membership =>
    isAllBlank_iff.mp blank c (List.mem_reverse.mp membership)
  rw [trimEnd, List.reverse_append, List.dropWhile_append_of_pos reversed, trimEnd]

theorem trimEnd_eq_self {text : List Char}
    (solid : ∀ last, text.getLast? = some last → isBlank last = false) : trimEnd text = text := by
  apply List.rdropWhile_eq_self_iff.mpr
  intro nonempty
  simp [solid _ (List.getLast?_eq_some_getLast nonempty)]

theorem trimStart_eq_self {text : List Char}
    (solid : ∀ first, text.head? = some first → isBlank first = false) :
    trimStart text = text := by
  cases text with
  | nil => rfl
  | cons c text => exact trimStart_cons_of_not_blank (solid c rfl)

theorem trim_eq_self {text : List Char}
    (first : ∀ c, text.head? = some c → isBlank c = false)
    (last : ∀ c, text.getLast? = some c → isBlank c = false) : trim text = text := by
  rw [trim, trimStart_eq_self first, trimEnd_eq_self last]

/-- A text is its beginning of blanks and the rest. -/
theorem exists_append_trimStart (text : List Char) :
    ∃ gap, isAllBlank gap = true ∧ text = gap ++ trimStart text :=
  ⟨text.takeWhile isBlank, by simp [isAllBlank], List.takeWhile_append_dropWhile.symm⟩

theorem exists_trimEnd_append (text : List Char) :
    ∃ gap, isAllBlank gap = true ∧ text = trimEnd text ++ gap := by
  refine ⟨text.rtakeWhile isBlank, ?_, (List.rdropWhile_append_rtakeWhile ..).symm⟩
  exact isAllBlank_iff.mpr fun c membership => List.mem_rtakeWhile_imp membership

theorem head?_trimStart {text : List Char} {c : Char} (first : (trimStart text).head? = some c) :
    isBlank c = false := by
  have stopped := List.head?_dropWhile_not isBlank text
  rw [trimStart] at first
  simpa [first] using stopped

theorem getLast?_trimEnd {text : List Char} {c : Char}
    (last : (trimEnd text).getLast? = some c) : isBlank c = false := by
  rw [trimEnd, List.getLast?_reverse] at last
  have reversed : (trimStart text.reverse).head? = some c := last
  exact head?_trimStart reversed

theorem head?_trimEnd {text : List Char} {c : Char} (first : (trimEnd text).head? = some c) :
    text.head? = some c := by
  obtain ⟨gap, _, split⟩ := exists_trimEnd_append text
  cases found : trimEnd text with
  | nil => simp [found] at first
  | cons d rest =>
      rw [found] at first split
      simpa [split] using first

theorem head?_trim {text : List Char} {c : Char} (first : (trim text).head? = some c) :
    isBlank c = false :=
  head?_trimStart (head?_trimEnd first)

theorem getLast?_trim {text : List Char} {c : Char} (last : (trim text).getLast? = some c) :
    isBlank c = false :=
  getLast?_trimEnd last

theorem trim_trim (text : List Char) : trim (trim text) = trim text :=
  trim_eq_self (fun _ first => head?_trim first) (fun _ last => getLast?_trim last)

theorem exists_trim (text : List Char) :
    ∃ before after, isAllBlank before = true ∧ isAllBlank after = true ∧
      text = before ++ trim text ++ after := by
  obtain ⟨before, beforeBlank, beforeSplit⟩ := exists_append_trimStart text
  obtain ⟨after, afterBlank, afterSplit⟩ := exists_trimEnd_append (trimStart text)
  refine ⟨before, after, beforeBlank, afterBlank, ?_⟩
  rw [List.append_assoc, trim, ← afterSplit]
  exact beforeSplit

theorem exists_trim_append (text rest : List Char) :
    ∃ before after, isAllBlank before = true ∧ isAllBlank after = true ∧
      text ++ rest = before ++ (trim text ++ (after ++ rest)) := by
  obtain ⟨before, after, blankBefore, blankAfter, shape⟩ := exists_trim text
  refine ⟨before, after, blankBefore, blankAfter, ?_⟩
  conv_lhs => rw [shape, List.append_assoc, List.append_assoc]

theorem isAllBlank_of_trim_eq_nil {text : List Char} (empty : trim text = []) :
    isAllBlank text = true := by
  obtain ⟨before, after, blankBefore, blankAfter, shape⟩ := exists_trim text
  rw [shape, empty, List.append_nil, isAllBlank_append, blankBefore, blankAfter]
  rfl

theorem trimStart_append_of_ne_nil {text : List Char} (solid : trimStart text ≠ [])
    (more : List Char) : trimStart (text ++ more) = trimStart text ++ more := by
  obtain ⟨gap, blank, split⟩ := exists_append_trimStart text
  obtain ⟨first, others, trimmed⟩ := List.exists_cons_of_ne_nil solid
  have isSolid : isBlank first = false := head?_trimStart (by rw [trimmed]; rfl)
  conv_lhs => rw [split, List.append_assoc, trimStart_append_of_isAllBlank blank]
  rw [trimmed]
  exact trimStart_cons_of_not_blank isSolid

/-- A gap at the end is cut off even when nothing solid stands in front of it. -/
theorem trim_append_of_isAllBlank {text gap : List Char} (blank : isAllBlank gap = true) :
    trim (text ++ gap) = trim text := by
  by_cases solid : trimStart text = []
  · have allBlank : isAllBlank text = true := by
      obtain ⟨before, beforeBlank, split⟩ := exists_append_trimStart text
      rwa [split, solid, List.append_nil]
    have whole : isAllBlank (text ++ gap) = true := by
      rw [isAllBlank_append, allBlank, blank]
      rfl
    rw [trim, trim, trimStart_of_isAllBlank whole, solid]
  · rw [trim, trimStart_append_of_ne_nil solid, trimEnd_append_of_isAllBlank blank, trim]

theorem trim_append_left_of_isAllBlank {gap text : List Char} (blank : isAllBlank gap = true) :
    trim (gap ++ text) = trim text := by
  rw [trim, trimStart_append_of_isAllBlank blank, trim]

/-- What is cut off the end of a line never shows in its trimmed form. -/
theorem trim_trimEnd (text : List Char) : trim (trimEnd text) = trim text := by
  obtain ⟨gap, blank, split⟩ := exists_trimEnd_append text
  conv_rhs => rw [split, trim_append_of_isAllBlank blank]

theorem mem_trimStart {c : Char} {text : List Char} (inside : c ∈ text)
    (solid : isBlank c = false) :
    c ∈ trimStart text := by
  obtain ⟨gap, blank, shape⟩ := exists_append_trimStart text
  rw [shape] at inside
  rcases List.mem_append.mp inside with inGap | behind
  · exact absurd (solid.symm.trans (isAllBlank_iff.mp blank c inGap)) (by decide)
  · exact behind

theorem trimStart_append_of_mem {c : Char} {text : List Char} (inside : c ∈ text)
    (solid : isBlank c = false) (more : List Char) :
    trimStart (text ++ more) = trimStart text ++ more :=
  trimStart_append_of_ne_nil (List.ne_nil_of_mem (mem_trimStart inside solid)) more

/-- In front of a solid character only the start of what precedes is trimmed. -/
theorem trimStart_append_cons {c : Char} (solid : isBlank c = false) (text rest : List Char) :
    trimStart (text ++ c :: rest) = trimStart text ++ c :: rest := by
  by_cases blank : trimStart text = []
  · obtain ⟨gap, isBlank, split⟩ := exists_append_trimStart text
    rw [blank, List.append_nil] at split
    rw [blank, split, trimStart_append_of_isAllBlank isBlank]
    exact trimStart_cons_of_not_blank solid
  · exact trimStart_append_of_ne_nil blank _

/-- Behind a solid character only the end of what follows is trimmed. -/
theorem trimEnd_append_cons {c : Char} (solid : isBlank c = false)
    (front text : List Char) : trimEnd (front ++ c :: text) = front ++ c :: trimEnd text := by
  obtain ⟨gap, blank, split⟩ := exists_trimEnd_append text
  have shape : front ++ c :: text = front ++ c :: trimEnd text ++ gap := by
    conv_lhs => rw [split]
    simp
  rw [shape, trimEnd_append_of_isAllBlank blank]
  apply trimEnd_eq_self
  intro last found
  by_cases empty : trimEnd text = []
  · rw [empty, List.getLast?_concat, Option.some.injEq] at found
    rw [← found]
    exact solid
  · have tail : front ++ c :: trimEnd text = front ++ [c] ++ trimEnd text := by simp
    rw [tail, List.getLast?_append_of_ne_nil _ empty] at found
    exact getLast?_trimEnd found

/-- A text is trimmed from its first solid character on, whatever is put behind it. -/
theorem trim_append_of_trimStart {c : Char} {text rest : List Char}
    (front : trimStart text = c :: rest) (behind : List Char) :
    trim (text ++ behind) = c :: trimEnd (rest ++ behind) := by
  have solid : isBlank c = false := head?_trimStart (congrArg List.head? front)
  have kept : trimStart text ≠ [] := by
    rw [front]
    exact List.cons_ne_nil c rest
  have whole := trimEnd_append_cons solid [] (rest ++ behind)
  rw [trim, trimStart_append_of_ne_nil kept, front]
  exact whole

theorem mem_of_mem_trim {text : List Char} {c : Char} (membership : c ∈ trim text) : c ∈ text := by
  obtain ⟨before, after, -, -, split⟩ := exists_trim text
  rw [split]
  simp [membership]

theorem isBlank_newline : isBlank '\n' = true := by decide

end ScreenCompiler.Text
