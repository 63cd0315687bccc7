import ScreenCompiler.Text.Affix
import ScreenCompiler.Text.Blank
import ScreenCompiler.Text.Lines
import ScreenCompiler.Text.Nesting

/-!
# Stylesheets

The stylesheet block is cut out of a source before anything else is read.  Its line
feeds stay behind, so that line numbers keep their meaning.
-/

namespace ScreenCompiler

open Text

/-- A source without its stylesheet block. -/
structure StylesheetCut where
  block : Option (List Char)
  remaining : List Char
  /-- The line of a block that is never closed. -/
  unterminatedAt : Option Nat
  deriving DecidableEq, Repr

namespace Stylesheet

/-- The text behind the opening of a block: its declaration up to the parenthesis. -/
def afterOpening? (text : List Char) : Option (List Char) :=
  (afterPrefix? "const".toList text).bind fun rest =>
    match rest with
    | [] => none
    | c :: rest =>
        if isBlank c then
          (afterPrefix? "styles".toList (trimStart rest)).bind fun rest =>
            (afterPrefix? ['='] (trimStart rest)).bind fun rest =>
              (afterPrefix? "StyleSheet.create".toList (trimStart rest)).bind fun rest =>
                afterPrefix? ['('] (trimStart rest)
        else none

/-- The first opening of a block: the text before it, its own text, and the text behind it. -/
def find? (text : List Char) : Option (List Char × List Char × List Char) :=
  match afterOpening? text with
  | some inside => some ([], text.take (text.length - inside.length), inside)
  | none =>
      match text with
      | [] => none
      | c :: rest =>
          (find? rest).map fun (before, opening, inside) => (c :: before, opening, inside)

/-- What belongs to a block behind its closing parenthesis, and the text after it: blanks and a
semicolon, if a semicolon is there. -/
def splitEnd (text : List Char) : List Char × List Char :=
  let gap := text.takeWhile fun c => c == ' ' || c == '\t'
  match text.dropWhile fun c => c == ' ' || c == '\t' with
  | ';' :: rest => (gap ++ [';'], rest)
  | _ => ([], text)

def parentheses : Delimiters := ⟨'(', ')'⟩

/-- A source without a block, given its parts. -/
def assemble (before block after : List Char) (unterminatedAt : Option Nat) : StylesheetCut where
  block := some block
  remaining := before ++ List.replicate (lineFeeds block) '\n' ++ after
  unterminatedAt := unterminatedAt

def cut (source : List Char) : StylesheetCut :=
  match find? source with
  | none => { block := none, remaining := source, unterminatedAt := none }
  | some (before, opening, inside) =>
      match Closing.find parentheses .start inside with
      | .closed body rest =>
          let (ending, after) := splitEnd rest
          assemble before (opening ++ body ++ ')' :: ending) after none
      | .unclosed _ => assemble before (opening ++ inside) [] (some (lineFeeds before + 1))

end Stylesheet

end ScreenCompiler
