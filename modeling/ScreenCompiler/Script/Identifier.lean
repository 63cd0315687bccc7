import ScreenCompiler.Text.Word

/-!
# Identifiers

Names of the generated script language as the recognisers of this library accept
them: an ASCII letter, `_` or `$` first, then word characters and `$`.
-/

namespace ScreenCompiler.Script

open Text

def isIdentifierStart (c : Char) : Bool :=
  isAsciiLetter c || c == '_' || c == '$'

def isIdentifierPart (c : Char) : Bool :=
  isWord c || c == '$'

/-- The longest identifier at the front of a text, and what follows it. -/
def identifier? : List Char → Option (List Char × List Char)
  | [] => none
  | c :: text =>
      if isIdentifierStart c then
        some (c :: text.takeWhile isIdentifierPart, text.dropWhile isIdentifierPart)
      else none

def isIdentifier : List Char → Bool
  | [] => false
  | c :: text => isIdentifierStart c && text.all isIdentifierPart

theorem append_of_identifier? {text name rest : List Char}
    (found : identifier? text = some (name, rest)) : text = name ++ rest := by
  cases text with
  | nil => simp [identifier?] at found
  | cons c text =>
      simp only [identifier?] at found
      split at found
      · simp only [Option.some.injEq, Prod.mk.injEq] at found
        rw [← found.1, ← found.2, List.cons_append, List.takeWhile_append_dropWhile]
      · simp at found

end ScreenCompiler.Script
