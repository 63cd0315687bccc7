import ScreenCompiler.Proofs.Markup.BracedValues
import ScreenCompiler.Proofs.Text.Nesting

/-!
# Characters outside of values

The reading of attributes and the scan for the end of a tag go over the same text.
They part where a quote or a brace stands outside of the values, or within braces in
a literal.  Without such a mark every value that ends brings the scan back to where a
tag may end.
-/

namespace ScreenCompiler

open Text

namespace Head

/-- Marks that open a stretch in which no tag ends. -/
def opensStretch (c : Char) : Bool :=
  isQuote c || c == '{'

theorem opensStretch_of_class {holds : Char → Bool}
    (outside : ['"', '\'', '\x60', '{', '}', '>'].any holds = false) {c : Char}
    (inside : holds c = true) : opensStretch c = false := by
  obtain ⟨noQuote, noBrace, -⟩ := plain_of_class outside inside
  rw [opensStretch, noQuote, Bool.false_or, beq_eq_false_iff_ne]
  exact noBrace

theorem after_of_plain {text : List Char} (plain : ∀ c ∈ text, opensStretch c = false) :
    Place.start.after text = .start := by
  induction text with
  | nil => rfl
  | cons c text inductionHypothesis =>
      obtain ⟨first, plain⟩ := List.forall_mem_cons.mp plain
      obtain ⟨noQuote, noBrace⟩ := Bool.or_eq_false_iff.mp first
      have stays : Place.start.step c = .start := by
        simp [Place.step, Place.start, noQuote, beq_eq_false_iff_ne.mp noBrace]
      rw [Place.after, List.foldl_cons, stays]
      exact inductionHypothesis plain

theorem after_of_isAllBlank {gap : List Char} (blank : isAllBlank gap = true) :
    Place.start.after gap = .start := by
  refine after_of_plain fun c membership => ?_
  have isBlank := isAllBlank_iff.mp blank c membership
  have differs : c ≠ '{' := ne_of_class isBlank (by decide)
  rw [opensStretch, isQuote_of_isBlank isBlank, Bool.false_or, beq_eq_false_iff_ne]
  exact differs

/-- A text behind which a tag may end has its end at the next bracket at the latest. -/
theorem isSome_findEnd?_of_after {text : List Char} (returns : Place.start.after text = .start)
    (rest : List Char) : (findEnd? .start (text ++ '>' :: rest)).isSome = true := by
  cases found : findEnd? .start text with
  | none =>
      have here : findEnd? .start ('>' :: rest) = some ([], rest) := rfl
      rw [findEnd?_append found, returns, here]
      rfl
  | some ended =>
      obtain ⟨inside, behind⟩ := ended
      rw [append_of_findEnd? found, List.append_assoc, List.cons_append, findEnd?_inside found]
      rfl

end Head

namespace Attribute

/-- The text of a value that stands in no marks. -/
def Form.bareText : Form → List Char
  | word text => text
  | _ => []

/-- The characters that are read as part of no name and of no value in marks. -/
def strays (text : List Char) : List Char :=
  match _found : trimStart text with
  | [] => []
  | c :: rest =>
      if isNameChar c then
        let value := readForm (rest.dropWhile isNameChar)
        value.1.bareText ++ strays value.2
      else c :: strays rest
termination_by text.length
decreasing_by
  · have outer : (trimStart text).length ≤ text.length := (List.dropWhile_sublist _).length_le
    have named := (List.dropWhile_sublist isNameChar (l := rest)).length_le
    have bound := length_after_readForm (rest.dropWhile isNameChar)
    rw [_found, List.length_cons] at outer
    omega
  · have outer : (trimStart text).length ≤ text.length := (List.dropWhile_sublist _).length_le
    rw [_found, List.length_cons] at outer
    omega

/-- Whether code in braces closes what it opens. -/
def Form.ClosesCode : Form → Prop
  | braced code true => IsBalancedCode code
  | _ => True

instance : (form : Form) → Decidable form.ClosesCode
  | .braced code true => inferInstanceAs (Decidable (IsBalancedCode code))
  | .braced _ false => .isTrue trivial
  | .quoted .. => .isTrue trivial
  | .word _ => .isTrue trivial
  | .missing => .isTrue trivial
  | .bare => .isTrue trivial

/-- Attributes in which only values open quotes and braces, and braced values close what they
open. -/
structure AreLegible (text : List Char) : Prop where
  noStray : ∀ c ∈ strays text, Head.opensStretch c = false
  closed : ∀ item ∈ list text, item.form.ClosesCode

instance (text : List Char) : Decidable (AreLegible text) :=
  decidable_of_iff ((strays text).any Head.opensStretch = false ∧
      ∀ item ∈ list text, item.form.ClosesCode)
    ⟨fun ⟨noStray, closed⟩ => ⟨by simpa using noStray, closed⟩,
      fun legible => ⟨by simpa using legible.noStray, legible.closed⟩⟩

theorem append_of_braced {depth : Nat} {text rest : List Char}
    (ended : (braced depth text).2 = some rest) : text = (braced depth text).1 ++ '}' :: rest := by
  induction text generalizing depth with
  | nil => simp [braced] at ended
  | cons c text inductionHypothesis =>
      simp only [braced] at ended ⊢
      split at ended
      · rename_i opening
        rw [if_pos opening, List.cons_append, ← inductionHypothesis ended]
      · rename_i opening
        rw [if_neg opening]
        split at ended
        · rename_i closing
          rw [if_pos closing]
          cases depth with
          | zero =>
              rw [← Option.some.inj ended, closing]
              rfl
          | succ depth => rw [List.cons_append, ← inductionHypothesis ended]
        · rename_i closing
          rw [if_neg closing, List.cons_append, ← inductionHypothesis ended]

theorem append_of_quoted {quote : Char} {text rest : List Char}
    (ended : (quoted quote text).2 = some rest) :
    text = (quoted quote text).1 ++ quote :: rest ∧ quote ∉ (quoted quote text).1 := by
  induction text with
  | nil => simp [quoted] at ended
  | cons c text inductionHypothesis =>
      simp only [quoted] at ended ⊢
      split at ended
      · rename_i same
        rw [if_pos same, ← Option.some.inj ended, same]
        exact ⟨rfl, List.not_mem_nil⟩
      · rename_i differs
        obtain ⟨shape, other⟩ := inductionHypothesis ended
        rw [if_neg differs]
        refine ⟨by rw [List.cons_append, ← shape], ?_⟩
        rw [List.mem_cons, not_or]
        exact ⟨Ne.symm differs, other⟩

/-- A value that ends brings the scan back, whatever stands in its quotes or braces. -/
theorem after_readValue {c : Char} {text : List Char}
    (noStray : ∀ d ∈ (readValue c text).1.bareText, Head.opensStretch d = false)
    (closes : (readValue c text).1.ClosesCode)
    (ended : ∀ name, isUnterminated ⟨name, (readValue c text).1⟩ = false) :
    ∃ consumed, c :: text = consumed ++ (readValue c text).2 ∧
      Head.Place.start.after consumed = .start := by
  unfold readValue at noStray closes ended ⊢
  by_cases opening : c = '{'
  · subst opening
    simp only [↓reduceIte] at closes ended ⊢
    cases behind : (braced 0 text).2 with
    | none => simp [isUnterminated, behind] at ended
    | some rest =>
        rw [behind] at closes
        refine ⟨'{' :: (braced 0 text).1 ++ ['}'], ?_, (Head.quiet_braced closes).returns⟩
        conv_lhs => rw [append_of_braced behind]
        simp
  · by_cases quote : c = '"' ∨ c = '\''
    · have marks : isQuote c = true := by
        rcases quote with rfl | rfl <;> decide
      simp only [if_neg opening, if_pos quote] at ended ⊢
      cases behind : (quoted c text).2 with
      | none => simp [isUnterminated, behind] at ended
      | some rest =>
          obtain ⟨shape, other⟩ := append_of_quoted behind
          refine ⟨c :: (quoted c text).1 ++ [c], ?_, (Head.quiet_quoted marks other).returns⟩
          conv_lhs => rw [shape]
          simp
    · simp only [if_neg opening, if_neg quote] at noStray ⊢
      refine ⟨c :: text.takeWhile (!isBlank ·), ?_, Head.after_of_plain noStray⟩
      rw [List.cons_append, List.takeWhile_append_dropWhile]

theorem after_readForm {text : List Char}
    (noStray : ∀ c ∈ (readForm text).1.bareText, Head.opensStretch c = false)
    (closes : (readForm text).1.ClosesCode)
    (ended : ∀ name, isUnterminated ⟨name, (readForm text).1⟩ = false) :
    ∃ consumed, text = consumed ++ (readForm text).2 ∧
      Head.Place.start.after consumed = .start := by
  obtain ⟨gap, gapBlank, split⟩ := exists_append_trimStart text
  unfold readForm at noStray closes ended ⊢
  cases trimmed : trimStart text with
  | nil => exact ⟨[], rfl, rfl⟩
  | cons c rest =>
      rw [trimmed] at split
      simp only [trimmed] at noStray closes ended ⊢
      by_cases equals : c = '='
      · subst equals
        simp only [↓reduceIte] at noStray closes ended ⊢
        obtain ⟨space, spaceBlank, spaceSplit⟩ := exists_append_trimStart rest
        have front : Head.Place.start.after (gap ++ '=' :: space) = .start := by
          rw [Head.after_append, Head.after_of_isAllBlank gapBlank]
          change Head.Place.start.after space = .start
          exact Head.after_of_isAllBlank spaceBlank
        cases opened : trimStart rest with
        | nil =>
            rw [opened, List.append_nil] at spaceSplit
            refine ⟨gap ++ '=' :: space, ?_, front⟩
            rw [List.append_nil, ← spaceSplit]
            exact split
        | cons first inside =>
            rw [opened] at spaceSplit
            simp only [opened] at noStray closes ended ⊢
            obtain ⟨consumed, shape, returns⟩ := after_readValue noStray closes ended
            refine ⟨gap ++ '=' :: space ++ consumed, ?_, ?_⟩
            · rw [split, spaceSplit, shape]
              simp
            · rw [Head.after_append, front, returns]
      · simp only [if_neg equals] at noStray closes ended ⊢
        exact ⟨[], rfl, rfl⟩

/-- The scan is back where a tag may end behind legible attributes that are all terminated. -/
theorem AreLegible.after {text : List Char} (legible : AreLegible text)
    (ended : ∀ item ∈ list text, item.isUnterminated = false) :
    Head.Place.start.after text = .start := by
  obtain ⟨noStray, closed⟩ := legible
  fun_induction strays text with
  | case1 text empty =>
      obtain ⟨gap, blank, split⟩ := exists_append_trimStart text
      rw [split, empty, List.append_nil]
      exact Head.after_of_isAllBlank blank
  | case2 text c rest found isName value inductionHypothesis =>
      obtain ⟨gap, blank, split⟩ := exists_append_trimStart text
      have read : list text =
          ⟨String.ofList (c :: rest.takeWhile isNameChar), value.1⟩ :: list value.2 := by
        rw [list, found]
        simp only [isName, ↓reduceIte]
        rfl
      rw [read] at closed ended
      obtain ⟨closes, closed⟩ := List.forall_mem_cons.mp closed
      obtain ⟨isEnded, ended⟩ := List.forall_mem_cons.mp ended
      obtain ⟨inValue, noStray⟩ := List.forall_mem_append.mp noStray
      obtain ⟨consumed, shape, returns⟩ := after_readForm inValue closes fun _ => isEnded
      have name : ∀ d ∈ c :: rest.takeWhile isNameChar, Head.opensStretch d = false :=
        List.forall_mem_cons.mpr ⟨Head.opensStretch_of_class (by decide) isName, fun d inName =>
          Head.opensStretch_of_class (by decide) (List.mem_takeWhile_imp inName)⟩
      have parts : text = gap ++ ((c :: rest.takeWhile isNameChar) ++ (consumed ++ value.2)) := by
        rw [← shape, List.cons_append, List.takeWhile_append_dropWhile, ← found]
        exact split
      rw [parts, Head.after_append, Head.after_of_isAllBlank blank, Head.after_append,
        Head.after_of_plain name, Head.after_append, returns]
      exact inductionHypothesis ended noStray closed
  | case3 text c rest found noName inductionHypothesis =>
      obtain ⟨gap, blank, split⟩ := exists_append_trimStart text
      have read : list text = list rest := by
        rw [list, found]
        simp only [noName, Bool.false_eq_true, ↓reduceIte]
      rw [read] at closed ended
      obtain ⟨plain, noStray⟩ := List.forall_mem_cons.mp noStray
      have first : Head.Place.start.after [c] = .start :=
        Head.after_of_plain (List.forall_mem_singleton.mpr plain)
      rw [split, found, ← List.singleton_append, Head.after_append,
        Head.after_of_isAllBlank blank, Head.after_append, first]
      exact inductionHypothesis ended noStray closed

end Attribute

end ScreenCompiler
