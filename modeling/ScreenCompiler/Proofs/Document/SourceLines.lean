import ScreenCompiler.Document.Line

/-!
# Numbered lines

Numbering drops blank lines and keeps the order of the others.  What is read off the
texts of the lines alone can be read off the lines before they are numbered.
-/

namespace ScreenCompiler

open Text

namespace Line

def shift (count : Nat) (line : Line) : Line :=
  ⟨line.number + count, line.raw⟩

theorem numbered_append (number : Nat) (first second : List (List Char)) :
    numbered number (first ++ second) =
      numbered number first ++ numbered (number + first.length) second := by
  induction first generalizing number with
  | nil => rfl
  | cons raw first inductionHypothesis =>
      have next : number + (raw :: first).length = number + 1 + first.length := by
        rw [List.length_cons]
        omega
      rw [List.cons_append, next, numbered, numbered, inductionHypothesis]
      split
      · rfl
      · rw [List.cons_append]

theorem numbered_add (number count : Nat) (raws : List (List Char)) :
    numbered (number + count) raws = (numbered number raws).map (shift count) := by
  induction raws generalizing number with
  | nil => rfl
  | cons raw raws inductionHypothesis =>
      have next : number + count + 1 = number + 1 + count := by omega
      rw [numbered, numbered, next, inductionHypothesis]
      split <;> rfl

theorem getElem?_of_mem_numbered {number : Nat} {raws : List (List Char)} {line : Line}
    (membership : line ∈ numbered number raws) :
    number ≤ line.number ∧ raws[line.number - number]? = some line.raw := by
  induction raws generalizing number with
  | nil => simp [numbered] at membership
  | cons raw raws inductionHypothesis =>
      have later : line ∈ numbered (number + 1) raws →
          number ≤ line.number ∧ (raw :: raws)[line.number - number]? = some line.raw := by
        intro below
        obtain ⟨bound, found⟩ := inductionHypothesis below
        have next : line.number - number = line.number - (number + 1) + 1 := by omega
        rw [next, List.getElem?_cons_succ]
        exact ⟨Nat.le_of_succ_le bound, found⟩
      rw [numbered] at membership
      split at membership
      · exact later membership
      · rcases List.mem_cons.mp membership with rfl | below
        · exact ⟨Nat.le_refl _, by rw [Nat.sub_self]; rfl⟩
        · exact later below

theorem mem_numbered {number : Nat} {raws : List (List Char)} {line : Line}
    (membership : line ∈ numbered number raws) : line.raw ∈ raws :=
  List.mem_of_getElem? (getElem?_of_mem_numbered membership).2

theorem number_of_mem_numbered {line : Line} {number : Nat} {raws : List (List Char)}
    (membership : line ∈ numbered number raws) :
    number ≤ line.number ∧ line.number < number + raws.length := by
  obtain ⟨bound, found⟩ := getElem?_of_mem_numbered membership
  obtain ⟨within, -⟩ := List.getElem?_eq_some_iff.mp found
  exact ⟨bound, by omega⟩

theorem exists_mem_numbered {raw : List Char} (solid : trim raw ≠ []) (number : Nat)
    {raws : List (List Char)} (membership : raw ∈ raws) :
    ∃ line ∈ numbered number raws, line.raw = raw := by
  induction raws generalizing number with
  | nil => simp at membership
  | cons first raws inductionHypothesis =>
      rw [numbered]
      rcases List.mem_cons.mp membership with rfl | later
      · rw [if_neg (by simpa using solid)]
        exact ⟨_, List.mem_cons_self, rfl⟩
      · obtain ⟨line, inside, same⟩ := inductionHypothesis (number + 1) later
        split
        · exact ⟨line, inside, same⟩
        · exact ⟨line, List.mem_cons_of_mem _ inside, same⟩

theorem flatMap_text_numbered {Out : Type} {read : List Char → List Out} (empty : read [] = [])
    (number : Nat) (raws : List (List Char)) :
    (numbered number raws).flatMap (fun line => read line.text) =
      raws.flatMap fun raw => read (trim raw) := by
  induction raws generalizing number with
  | nil => rfl
  | cons raw raws inductionHypothesis =>
      rw [numbered, List.flatMap_cons]
      split
      · rename_i blank
        rw [inductionHypothesis, List.isEmpty_iff.mp blank, empty, List.nil_append]
      · rw [List.flatMap_cons, inductionHypothesis]
        rfl

end Line

end ScreenCompiler
