import ScreenCompiler.Document.Line
import ScreenCompiler.Script.Identifier
import ScreenCompiler.Text.Affix
import ScreenCompiler.Text.Indent
import ScreenCompiler.Text.Nesting

/-!
# Function declarations

A function is a signature and a body in braces.  The body starts behind the first
brace of the signature line, or of the line after it, and ends at the brace that
closes it; literals do not reach over line ends.
-/

namespace ScreenCompiler

open Text

structure Function where
  name : String
  isAsync : Bool
  params : String
  body : String
  deriving DecidableEq, Repr

namespace Function

/-- Words that read like a call but open something else. -/
def reservedNames : List (List Char) :=
  ["if", "for", "while", "switch", "catch", "return", "function", "with"].map String.toList

structure Signature where
  isAsync : Bool
  name : List Char
  params : List Char
  /-- Whether a brace follows the parameters. -/
  opens : Bool
  deriving DecidableEq, Repr

/-- The text behind a keyword that stands in front of a further name. -/
def afterKeyword? (keyword text : List Char) : Option (List Char) :=
  match afterPrefix? keyword text with
  | some (c :: rest) =>
      if isBlank c && (Script.identifier? (trimStart rest)).isSome then some (trimStart rest)
      else none
  | _ => none

namespace Signature

/-- A parameter list behind its opening parenthesis, closed by the next closing one, with nothing
or a brace behind it. -/
def params? (text : List Char) : Option (List Char × Bool) :=
  match text.dropWhile (· != ')') with
  | [] => none
  | _ :: rest =>
      match trimStart rest with
      | [] => some (text.takeWhile (· != ')'), false)
      | c :: _ => if c = '{' then some (text.takeWhile (· != ')'), true) else none

def read? (line : List Char) : Option Signature :=
  let named := (afterKeyword? "async".toList line).getD line
  let bare := (afterKeyword? "function".toList named).getD named
  (Script.identifier? bare).bind fun (name, rest) =>
    match trimStart rest with
    | '(' :: text =>
        (params? text).map fun (params, opens) =>
          { isAsync := (afterKeyword? "async".toList line).isSome, name, params, opens }
    | _ => none

def isReserved (signature : Signature) : Bool :=
  reservedNames.contains signature.name

end Signature

/-- The text behind the first brace of a line. -/
def afterBrace (text : List Char) : List Char :=
  (text.dropWhile (· != '{')).drop 1

def hasBrace (text : List Char) : Bool :=
  text.contains '{'

/-- A function whose body has been opened: the text behind its brace, and the lines after it. -/
structure Opened where
  signature : Signature
  tail : List Char
  lines : List Line

/-- The function whose signature a line is, when its body opens on this line or the next. -/
def open? (line : Line) (lines : List Line) : Option Opened :=
  match Signature.read? line.text with
  | none => none
  | some signature =>
      if signature.isReserved then none
      else match lines with
        | [] => if signature.opens then some ⟨signature, afterBrace line.text, []⟩ else none
        | next :: rest =>
            if signature.opens || startsWith ['{'] next.text then
              if hasBrace line.text then some ⟨signature, afterBrace line.text, next :: rest⟩
              else some ⟨signature, afterBrace next.text, rest⟩
            else none

def braces : Delimiters := ⟨'{', '}'⟩

/-- The lines of a body, and the lines after it; none when the body is never closed. -/
structure Body where
  lines : List (List Char)
  rest : Option (List Line)

namespace Body

/-- A body read line by line with `depth` inner braces open. -/
def read (depth : Nat) : List Line → Body
  | [] => ⟨[], none⟩
  | line :: lines =>
      match Closing.find braces ⟨depth, none, false⟩ line.raw with
      | .closed before _ => ⟨if isAllBlank before then [] else [trimEnd before], some lines⟩
      | .unclosed nesting =>
          let more := read nesting.depth lines
          ⟨trimEnd line.raw :: more.lines, more.rest⟩

end Body

/-- The text right behind the opening brace, as a line of the body if it is not blank. -/
def inlinePart (text : List Char) : List (List Char) :=
  if isAllBlank text then [] else [trim text]

/-- The body of an opened function. -/
def readBody (opened : Opened) : Body :=
  match Closing.find braces .start opened.tail with
  | .closed before _ => ⟨inlinePart before, some opened.lines⟩
  | .unclosed nesting =>
      let body := Body.read nesting.depth opened.lines
      ⟨inlinePart opened.tail ++ dedent body.lines, body.rest⟩

def ofBody (signature : Signature) (body : Body) : Function where
  name := String.ofList signature.name
  isAsync := signature.isAsync
  params := String.ofList (trim signature.params)
  body := String.ofList (unlines body.lines)

theorem length_rest_read {depth : Nat} {lines rest : List Line}
    (closed : (Body.read depth lines).rest = some rest) : rest.length < lines.length := by
  induction lines generalizing depth with
  | nil => simp [Body.read] at closed
  | cons line lines inductionHypothesis =>
      simp only [Body.read] at closed
      split at closed
      · simp only [Option.some.injEq] at closed
        simp [closed]
      · exact Nat.lt_succ_of_lt (inductionHypothesis closed)

theorem length_rest_readBody {opened : Opened} {rest : List Line}
    (closed : (readBody opened).rest = some rest) : rest.length ≤ opened.lines.length := by
  unfold readBody at closed
  split at closed
  · simp only [Option.some.injEq] at closed
    simp [closed]
  · exact Nat.le_of_lt (length_rest_read closed)

theorem length_lines_open? {line : Line} {lines : List Line} {opened : Opened}
    (found : open? line lines = some opened) : opened.lines.length ≤ lines.length := by
  unfold open? at found
  split at found
  · simp at found
  · split at found
    · simp at found
    · split at found
      · split at found
        · simp only [Option.some.injEq] at found
          simp [← found]
        · simp at found
      · split at found
        · split at found <;>
          · simp only [Option.some.injEq] at found
            simp [← found]
        · simp at found

end Function

end ScreenCompiler
