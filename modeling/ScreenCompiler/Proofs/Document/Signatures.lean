import ScreenCompiler.Proofs.Document.FunctionBodies
import ScreenCompiler.Proofs.Document.Writing

/-!
# Signatures with text behind them

A signature that opens its body is read in the same way whatever stands behind the brace,
and a line that is nothing but a signature stays so.
-/

namespace ScreenCompiler

open Text

namespace Text

/-- Where a span of characters has ended, more text behind it changes nothing. -/
theorem span_append {part : Char → Bool} {text : List Char} (ended : text.dropWhile part ≠ [])
    (more : List Char) :
    (text ++ more).takeWhile part = text.takeWhile part ∧
      (text ++ more).dropWhile part = text.dropWhile part ++ more := by
  induction text with
  | nil => exact absurd rfl ended
  | cons c text inductionHypothesis =>
      by_cases inside : part c = true
      · rw [List.dropWhile_cons_of_pos inside] at ended
        obtain ⟨front, behind⟩ := inductionHypothesis ended
        simp [inside, front, behind]
      · simp [inside]

theorem afterPrefix?_append_of_mem {c : Char} {word text : List Char} (inside : c ∈ text)
    (other : c ∉ word) (more : List Char) :
    afterPrefix? word (text ++ more) = (afterPrefix? word text).map (· ++ more) := by
  obtain ⟨front, behind, rfl⟩ := List.append_of_mem inside
  rw [List.append_assoc, List.cons_append, afterPrefix?_append_cons other,
    afterPrefix?_append_cons other, Option.map_map]
  congr 1
  funext before
  simp

end Text

namespace Script

theorem identifier?_append_of_rest {text name rest : List Char}
    (found : identifier? text = some (name, rest)) (ended : rest ≠ []) (more : List Char) :
    identifier? (text ++ more) = some (name, rest ++ more) := by
  cases text with
  | nil => simp [identifier?] at found
  | cons c text =>
      rw [identifier?] at found
      split at found
      · rename_i start
        obtain ⟨rfl, rfl⟩ := Prod.mk.inj (Option.some.inj found)
        obtain ⟨front, behind⟩ := span_append ended more
        rw [List.cons_append, identifier?, if_pos start, front, behind]
      · simp at found

theorem isSome_identifier?_append {text : List Char} (solid : text ≠ []) (more : List Char) :
    (identifier? (text ++ more)).isSome = (identifier? text).isSome := by
  obtain ⟨c, rest, rfl⟩ := List.exists_cons_of_ne_nil solid
  rw [List.cons_append, identifier?, identifier?]
  split <;> rfl

end Script

namespace Function

variable {keyword line : List Char}

/-- A keyword is read in front of a parenthesis, whatever stands behind that. -/
theorem afterKeyword?_append (noCall : '(' ∉ keyword) (call : '(' ∈ line) (more : List Char) :
    afterKeyword? keyword (line ++ more) = (afterKeyword? keyword line).map (· ++ more) := by
  unfold afterKeyword?
  rw [afterPrefix?_append_of_mem call noCall]
  cases found : afterPrefix? keyword line with
  | none => rfl
  | some behind =>
      rw [afterPrefix?_eq_some_iff] at found
      obtain inWord | inside := List.mem_append.mp (found ▸ call)
      · exact absurd inWord noCall
      · cases behind with
        | nil => exact absurd inside List.not_mem_nil
        | cons c rest =>
            simp only [Option.map_some, List.cons_append]
            by_cases blank : isBlank c = true
            · have later : '(' ∈ rest := by
                rcases List.mem_cons.mp inside with rfl | later
                · exact absurd blank (by decide)
                · exact later
              have solid := List.ne_nil_of_mem (mem_trimStart later (by decide))
              rw [trimStart_append_of_mem later (by decide), Script.isSome_identifier?_append solid]
              split <;> rfl
            · simp [blank]

theorem getD_afterKeyword?_append (noCall : '(' ∉ keyword) (call : '(' ∈ line) (more : List Char) :
    (afterKeyword? keyword (line ++ more)).getD (line ++ more) =
      (afterKeyword? keyword line).getD line ++ more := by
  rw [afterKeyword?_append noCall call]
  cases afterKeyword? keyword line <;> rfl

namespace Signature

theorem params?_append {text params : List Char} (found : params? text = some (params, true))
    (more : List Char) : params? (text ++ more) = some (params, true) := by
  unfold params? at found
  split at found
  · simp at found
  · rename_i mark rest dropped
    have ended : text.dropWhile (· != ')') ≠ [] := by
      rw [dropped]
      exact List.cons_ne_nil mark rest
    obtain ⟨front, behind⟩ := span_append ended more
    rw [dropped] at behind
    split at found
    · simp at found
    · rename_i c more trimmed
      have solid : trimStart rest ≠ [] := by
        rw [trimmed]
        exact List.cons_ne_nil c more
      simp only [params?, front, behind, List.cons_append, trimStart_append_of_ne_nil solid,
        trimmed]
      exact found

variable {line : List Char} {signature : Signature}

theorem parenthesis_mem_bare (found : read? line = some signature) : '(' ∈ bare line := by
  obtain ⟨rest, text, named, trimmed, -⟩ := read?_eq_some_iff.mp found
  have parenthesis : '(' :: text <:+ rest := trimmed ▸ List.dropWhile_suffix _
  rw [Script.append_of_identifier? named]
  exact List.mem_append_right _ (parenthesis.subset List.mem_cons_self)

theorem parenthesis_mem (found : read? line = some signature) : '(' ∈ line :=
  (bare_suffix line).subset (parenthesis_mem_bare found)

theorem bare_append (found : read? line = some signature) (more : List Char) :
    bare (line ++ more) = bare line ++ more := by
  have behindAsync : '(' ∈ (afterKeyword? "async".toList line).getD line :=
    (afterKeyword?_suffix "function".toList _).subset (parenthesis_mem_bare found)
  simp only [bare]
  rw [getD_afterKeyword?_append (by decide) (parenthesis_mem found)]
  exact getD_afterKeyword?_append (by decide) behindAsync more

/-- A signature that opens its body is read whatever stands behind its brace. -/
theorem read?_append (found : read? line = some signature) (opens : signature.opens = true)
    (more : List Char) : read? (line ++ more) = some signature := by
  obtain ⟨rest, text, named, trimmed, read, isAsync⟩ := read?_eq_some_iff.mp found
  rw [opens] at read
  have solid : trimStart rest ≠ [] := by
    rw [trimmed]
    exact List.cons_ne_nil '(' text
  have ended : rest ≠ [] := by
    rintro rfl
    exact solid rfl
  refine read?_eq_some_iff.mpr ⟨rest ++ more, text ++ more, ?_, ?_, ?_, ?_⟩
  · rw [bare_append found]
    exact Script.identifier?_append_of_rest named ended more
  · rw [trimStart_append_of_ne_nil solid, trimmed, List.cons_append]
  · rw [opens]
    exact params?_append read more
  · rw [afterKeyword?_append (by decide) (parenthesis_mem found), Option.isSome_map, isAsync]

end Signature

theorem identifier?_of_afterKeyword? {behind : List Char}
    (isKeyword : Script.isIdentifier keyword = true)
    (found : afterKeyword? keyword line = some behind) :
    ∃ rest, Script.identifier? line = some (keyword, rest) ∧ rest ≠ [] := by
  unfold afterKeyword? at found
  split at found
  · rename_i c rest cut
    obtain ⟨both, -⟩ := Option.ite_none_right_eq_some.mp found
    have blank := (Bool.and_eq_true_iff.mp both).1
    refine ⟨c :: rest, ?_, List.cons_ne_nil c rest⟩
    rw [afterPrefix?_eq_some_iff.mp cut]
    refine Script.identifier?_of_isIdentifier isKeyword fun d first => ?_
    obtain rfl : c = d := Option.some.inj first
    exact Script.isIdentifierPart_of_isBlank blank
  · simp at found

/-- A line with a signature begins with a keyword of its own, or with a name that it calls. -/
theorem Signature.exists_identifier? {signature : Signature}
    (found : read? line = some signature) :
    ∃ name rest, Script.identifier? line = some (name, rest) ∧ rest ≠ [] ∧
      (name ∈ Block.openingWords → (trimStart rest).head? = some '(') := by
  cases async : afterKeyword? "async".toList line with
  | some behind =>
      obtain ⟨rest, begins, ended⟩ := identifier?_of_afterKeyword? (by decide) async
      exact ⟨_, rest, begins, ended, fun opens => absurd opens (by decide)⟩
  | none =>
      cases keyword : afterKeyword? "function".toList line with
      | some behind =>
          obtain ⟨rest, begins, ended⟩ := identifier?_of_afterKeyword? (by decide) keyword
          exact ⟨_, rest, begins, ended, fun opens => absurd opens (by decide)⟩
      | none =>
          obtain ⟨rest, text, named, trimmed, -⟩ := read?_eq_some_iff.mp found
          have bareLine : bare line = line := by
            simp only [bare, async, keyword, Option.getD_none]
          refine ⟨signature.name, rest, bareLine ▸ named, ?_, fun _ => ?_⟩
          · rintro rfl
            exact absurd trimmed (List.cons_ne_nil '(' text).symm
          · rw [trimmed, List.head?_cons]

end Function

namespace Screen

/-- A line with a parenthesis in it sets up the screen whatever stands behind it, or does not. -/
theorem isSome_attributes?_append {line : List Char} (call : '(' ∈ line) (more : List Char) :
    (attributes? (line ++ more)).isSome = (attributes? line).isSome := by
  unfold attributes?
  rw [afterPrefix?_append_of_mem call (by decide)]
  cases found : afterPrefix? "screen".toList line with
  | none => rfl
  | some behind =>
      cases behind with
      | nil =>
          rw [afterPrefix?_eq_some_iff.mp found] at call
          exact absurd call (by decide)
      | cons c behind =>
          simp only [Option.map_some, List.cons_append]
          split <;> rfl

end Screen

/-- A line that is nothing but a signature stays so with more text behind it. -/
theorem Block.simple?_append {line : List Char} {signature : Function.Signature}
    (found : Function.Signature.read? line = some signature) (simple : simple? line = none)
    (more : List Char) : simple? (line ++ more) = none := by
  obtain ⟨name, rest, begins, ended, calls⟩ := Function.Signature.exists_identifier? found
  have call := Function.Signature.parenthesis_mem found
  have noScreen : Screen.attributes? line = none := by
    unfold simple? at simple
    split at simple
    · simp at simple
    · split at simple
      · simp at simple
      · split at simple
        · simp at simple
        · assumption
  refine simple?_of_parenthesis (Script.identifier?_append_of_rest begins ended more) ?_ ?_ ?_
  · intro opens
    have parenthesis := calls opens
    have solid : trimStart rest ≠ [] := by
      intro empty
      rw [empty] at parenthesis
      exact absurd parenthesis (by simp)
    rw [trimStart_append_of_ne_nil solid, List.head?_append, parenthesis, Option.some_or]
  · rw [← Option.isNone_iff_eq_none, ← Option.isSome_eq_false_iff,
      Screen.isSome_attributes?_append call, noScreen, Option.isSome_none]
  · exact List.mem_append_left more call

end ScreenCompiler
