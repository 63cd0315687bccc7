import ScreenCompiler.Script.Quoted

/-!
# Reading string literals

A string literal is read back up to its closing quote, with its escapes undone.  No
text can end its own literal early; carriage returns are lost in writing.
-/

namespace ScreenCompiler.Script

namespace Quoted

/-- The character that an escape stands for. -/
def unescape? (c : Char) : Option Char :=
  if c = '\\' then some '\\'
  else if c = '\'' then some '\''
  else if c = 'n' then some '\n'
  else none

/-- The text of a literal behind its opening quote, and what stands behind its closing quote. -/
def read? : List Char → Option (List Char × List Char)
  | [] => none
  | '\'' :: rest => some ([], rest)
  | ['\\'] => none
  | '\\' :: escaped :: rest =>
      (unescape? escaped).bind fun character =>
        (read? rest).map fun (text, behind) => (character :: text, behind)
  | c :: rest => (read? rest).map fun (text, behind) => (c :: text, behind)

/-- A text as its literal gives it back. -/
def kept (text : List Char) : List Char :=
  text.filter (· != '\r')

theorem read?_body (text rest : List Char) :
    read? (body text ++ '\'' :: rest) = some (kept text, rest) := by
  induction text with
  | nil => rfl
  | cons c text inductionHypothesis =>
      have split : body (c :: text) ++ '\'' :: rest =
          escape c ++ (body text ++ '\'' :: rest) := by
        simp [body]
      rw [split]
      by_cases slash : c = '\\'
      · subst slash
        simp [escape, read?, unescape?, inductionHypothesis, kept]
      · by_cases single : c = '\''
        · subst single
          simp [escape, read?, unescape?, inductionHypothesis, kept]
        · by_cases feed : c = '\n'
          · subst feed
            simp [escape, read?, unescape?, inductionHypothesis, kept]
          · by_cases carriageReturn : c = '\r'
            · subst carriageReturn
              simp [escape, inductionHypothesis, kept]
            · simp [escape, read?, slash, single, feed, carriageReturn, inductionHypothesis, kept]

theorem body_append (first second : List Char) :
    body (first ++ second) = body first ++ body second :=
  List.flatMap_append

/-- A text without marks needs no escapes. -/
theorem body_eq_self {text : List Char}
    (plain : ∀ c ∈ text, c ≠ '\\' ∧ c ≠ '\'' ∧ c ≠ '\n' ∧ c ≠ '\r') : body text = text := by
  induction text with
  | nil => rfl
  | cons c text inductionHypothesis =>
      obtain ⟨⟨noSlash, noQuote, noFeed, noReturn⟩, later⟩ := List.forall_mem_cons.mp plain
      rw [body, List.flatMap_cons, ← body, inductionHypothesis later, escape, if_neg noSlash,
        if_neg noQuote, if_neg noFeed, if_neg noReturn, List.singleton_append]

/-- A literal stands on one line, whatever its text. -/
theorem notMem_body {mark : Char} (lineEnd : mark = '\n' ∨ mark = '\r') (text : List Char) :
    mark ∉ body text := by
  intro membership
  obtain ⟨c, -, inside⟩ := List.mem_flatMap.mp membership
  unfold escape at inside
  split at inside
  · rcases lineEnd with rfl | rfl <;> simp at inside
  · split at inside
    · rcases lineEnd with rfl | rfl <;> simp at inside
    · split at inside
      · rcases lineEnd with rfl | rfl <;> simp at inside
      · rename_i noFeed
        split at inside
        · exact absurd inside List.not_mem_nil
        · rename_i noReturn
          obtain rfl := List.mem_singleton.mp inside
          exact lineEnd.elim noFeed noReturn

end Quoted

theorem toList_quote (text : String) :
    (quote text).toList = '\'' :: (Quoted.body text.toList ++ ['\'']) := by
  rw [quote, String.toList_ofList, Quoted.encode]
  rfl

end ScreenCompiler.Script
