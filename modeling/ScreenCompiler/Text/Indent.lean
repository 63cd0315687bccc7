import ScreenCompiler.Text.Blank

/-!
# Indentation

Indentation is measured in bytes of UTF-8.  Dedenting takes the width shared by all
lines that are not blank off every line; a line that cannot be cut at that width,
because a character spans it, loses all its leading blanks instead.
-/

namespace ScreenCompiler.Text

def byteLength : List Char → Nat
  | [] => 0
  | c :: text => c.utf8Size + byteLength text

/-- The width of the leading blanks. -/
def indentOf (line : List Char) : Nat :=
  byteLength (line.takeWhile isBlank)

/-- A text without its first bytes, when those bytes are whole characters. -/
def dropBytes? : Nat → List Char → Option (List Char)
  | 0, text => some text
  | _ + 1, [] => none
  | width + 1, c :: text =>
      if c.utf8Size ≤ width + 1 then dropBytes? (width + 1 - c.utf8Size) text else none

/-- The least width among the lines that are not blank. -/
def sharedIndent (lines : List (List Char)) : Nat :=
  ((lines.filter (!isAllBlank ·)).map indentOf).min?.getD 0

/-- A line without its first bytes, or without its leading blanks where those bytes cut a
character. -/
def dropIndent (width : Nat) (line : List Char) : List Char :=
  (dropBytes? width line).getD (trimStart line)

def dedent (lines : List (List Char)) : List (List Char) :=
  let width := sharedIndent lines
  lines.map (dropIndent width)

end ScreenCompiler.Text
