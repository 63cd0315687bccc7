import Mathlib.Data.List.Basic
import ScreenCompiler.Proofs.Script.Quoted

/-!
# String literals

A quoted text is one string literal: it stands on one line, none of its inner quotes closes it,
and its value is the text without its carriage returns.
-/

namespace ScreenCompiler.Script

namespace Quoted

/-- A text with every occurrence of a mark replaced. -/
def replace (mark : Char) (code text : List Char) : List Char :=
  text.flatMap fun c => if c = mark then code else [c]

/-- Escaping is four replacements one after the other.  The backslash has to be the first: the
later ones bring in backslashes of their own. -/
theorem body_eq_replace (text : List Char) : body text =
    replace '\r' [] (replace '\n' ['\\', 'n'] (replace '\'' ['\\', '\'']
      (replace '\\' ['\\', '\\'] text))) := by
  simp only [body, replace, List.flatMap_assoc]
  refine List.flatMap_congr fun c _ => ?_
  unfold escape
  split
  · subst c
    decide
  · split
    · subst c
      decide
    · split
      · subst c
        decide
      · split <;> simp [*]

/-- Whether a text escapes the character behind it: it ends in a backslash that is not escaped. -/
def escapesNext (text : List Char) : Bool :=
  text.foldl (fun escaped c => c == '\\' && !escaped) false

/-- A text that can stand between two single quotes: it escapes the quotes that it has, and not the
one behind it. -/
structure IsInside (text : List Char) : Prop where
  escaped : ∀ before after, text = before ++ '\'' :: after → escapesNext before = true
  closes : escapesNext text = false

theorem isInside_nil : IsInside [] :=
  ⟨fun _ _ split => by simp at split, rfl⟩

theorem isInside_singleton {c : Char} (noSlash : c ≠ '\\') (noQuote : c ≠ '\'') : IsInside [c] := by
  constructor
  · intro before after split
    have inside : '\'' ∈ [c] := split ▸ List.mem_append_right before List.mem_cons_self
    exact absurd (List.mem_singleton.mp inside).symm noQuote
  · simp [escapesNext, noSlash]

theorem isInside_pair (c : Char) : IsInside ['\\', c] := by
  constructor
  · intro before after split
    match before with
    | [] => simp at split
    | [_] =>
        obtain ⟨rfl, -⟩ := List.cons.inj split
        rfl
    | _ :: _ :: _ => simp at split
  · simp [escapesNext]

namespace IsInside

variable {first second : List Char}

theorem escapesNext_append (inside : IsInside first) (second : List Char) :
    escapesNext (first ++ second) = escapesNext second := by
  rw [escapesNext, List.foldl_append]
  exact congrArg (fun start => second.foldl _ start) inside.closes

theorem append (inside : IsInside first) (later : IsInside second) :
    IsInside (first ++ second) := by
  constructor
  case escaped =>
    intro before after split
    rcases List.append_eq_append_iff.mp split with ⟨more, rfl, rest⟩ | ⟨more, parts, rest⟩
    · rw [inside.escapesNext_append]
      exact later.escaped more after rest
    · cases more with
      | nil =>
          -- The quote is the first character of the second text, and nothing escapes that.
          exact absurd (later.escaped [] after rest.symm) Bool.false_ne_true
      | cons mark more =>
          obtain ⟨rfl, -⟩ := List.cons.inj rest
          exact inside.escaped before more parts
  case closes =>
    rw [inside.escapesNext_append]
    exact later.closes

end IsInside

theorem isInside_escape (c : Char) : IsInside (escape c) := by
  unfold escape
  split
  · exact isInside_pair '\\'
  · split
    · exact isInside_pair '\''
    · split
      · exact isInside_pair 'n'
      · split
        · exact isInside_nil
        · exact isInside_singleton ‹_› ‹_›

theorem isInside_body (text : List Char) : IsInside (body text) := by
  induction text with
  | nil => exact isInside_nil
  | cons c text inductionHypothesis => exact (isInside_escape c).append inductionHypothesis

/-- The value of a string literal in single quotes: nothing stands behind its closing quote, and no
line ends within it. -/
def value? : List Char → Option (List Char)
  | '\'' :: rest =>
      if '\n' ∈ rest ∨ '\r' ∈ rest then none
      else (read? rest).bind fun (text, behind) => if behind = [] then some text else none
  | _ => none

theorem kept_eq_self {text : List Char} (flat : '\r' ∉ text) : kept text = text :=
  List.filter_eq_self.mpr fun c membership => by
    simpa using fun same : c = '\r' => flat (same ▸ membership)

end Quoted

open Quoted

/-- Code that is a string literal for a text. -/
structure IsLiteral (text literal : String) : Prop where
  enclosed : ∃ inner, literal.toList = '\'' :: (inner ++ ['\'']) ∧ IsInside inner
  flat : '\n' ∉ literal.toList ∧ '\r' ∉ literal.toList
  value : value? literal.toList = some (kept text.toList)

theorem isLiteral_quote (text : String) : IsLiteral text (quote text) := by
  have noFeed := notMem_body (.inl rfl) text.toList
  have noReturn := notMem_body (.inr rfl) text.toList
  constructor
  case enclosed => exact ⟨body text.toList, toList_quote text, isInside_body text.toList⟩
  case flat =>
    rw [toList_quote]
    simp [noFeed, noReturn]
  case value =>
    rw [toList_quote, value?, if_neg (by simp [noFeed, noReturn]), read?_body]
    rfl

example : quote "it's \\n\r\n" = "'it\\'s \\\\n\\n'" := by
  decide +kernel

/-- A literal stands for one text, up to carriage returns. -/
theorem IsLiteral.kept_eq {first second literal : String} (one : IsLiteral first literal)
    (other : IsLiteral second literal) : kept first.toList = kept second.toList :=
  Option.some.inj (one.value.symm.trans other.value)

theorem quote_inj_of_flat {first second : String} (flat : '\r' ∉ first.toList)
    (flatToo : '\r' ∉ second.toList) : quote first = quote second ↔ first = second := by
  constructor
  · intro same
    have kept := (isLiteral_quote first).kept_eq (same ▸ isLiteral_quote second)
    rw [kept_eq_self flat, kept_eq_self flatToo] at kept
    exact String.toList_inj.mp kept
  · exact congrArg quote

end ScreenCompiler.Script
