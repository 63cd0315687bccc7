import ScreenCompiler.Document.Function
import ScreenCompiler.Document.Import
import ScreenCompiler.Document.Line
import ScreenCompiler.Document.Screen
import ScreenCompiler.Document.State
import ScreenCompiler.Markup.Pieces

/-!
# Blocks of a source

A source without its stylesheet falls into blocks: declarations, functions with
their bodies, and the pieces of its markup lines.  Where one block ends and the next
begins does not depend on the catalog.

A declaration takes a line of its own, and a function also the lines of its body.
Any other line falls into pieces.  A tag that its line leaves open goes on over the
lines below; what follows its end is read like a line again.  Every such step
consumes a line, so reading ends.
-/

namespace ScreenCompiler

open Text

inductive Block where
  | imports (imports : List Import)
  /-- A module name alone on its line. -/
  | word (name : List Char)
  | screen (attributes : List Char)
  | state (name literal : List Char)
  /-- A function, and whether its body is closed. -/
  | function (number : Nat) (function : Function) (closed : Bool)
  | piece (number : Nat) (piece : Piece)
  /-- A closing tag whose end is hidden in quotes or braces. -/
  | openClosing (number : Nat) (tag : List Char)
  /-- A head that ends on a line below its first one. -/
  | head (number : Nat) (head : Head)
  /-- The text of a head that ends nowhere. -/
  | unfinished (number : Nat) (text : List Char)
  deriving DecidableEq

/-- Whether a line opens new structure, so that a tag left open above it must end. -/
def startsStructure (line : List Char) : Bool :=
  startsWith ['<'] line || startsWith "import ".toList line ||
    (Screen.attributes? line).isSome || (State.line? line).isSome ||
    match Function.Signature.read? line with
    | some signature => signature.opens && !signature.isReserved
    | none => false

/-- The imports of a line that starts like an import statement. -/
def importStatement? (line : List Char) : Option (List Import) :=
  (afterPrefix? "import ".toList line).bind fun _ => Import.statement? line

/-- A tag head continued over lines: its text so far, and where it ends. -/
inductive Continued where
  /-- The head, what follows it on its last line, and the lines below. -/
  | complete (head : Head) (rest : List Char) (lines : List Line)
  /-- The text of a head that ends nowhere, and the lines below. -/
  | unfinished (text : List Char) (lines : List Line)

namespace Continued

/-- Lines are added with a blank until the head is complete.  A line that opens new structure is
not added, nor any line to a text that ends in an open quote and like a tag. -/
def read (text : List Char) : List Line → Continued
  | [] => unfinished text []
  | next :: lines =>
      if (Head.endsInOpenQuote text && (Head.recover? text).isSome) ||
          startsStructure next.text then
        unfinished text (next :: lines)
      else
        let longer := text ++ ' ' :: next.text
        match Head.read? longer with
        | some (head, rest) => complete head rest lines
        | none => read longer lines

theorem length_lines_of_complete {text rest : List Char} {lines more : List Line} {head : Head}
    (found : read text lines = complete head rest more) : more.length < lines.length := by
  induction lines generalizing text with
  | nil => simp [read] at found
  | cons next lines inductionHypothesis =>
      simp only [read] at found
      split at found
      · simp at found
      · split at found
        · simp only [complete.injEq] at found
          simp [found.2.2]
        · exact Nat.lt_succ_of_lt (inductionHypothesis found)

theorem length_lines_of_unfinished {text last : List Char} {lines more : List Line}
    (found : read text lines = unfinished last more) : more.length ≤ lines.length := by
  induction lines generalizing text with
  | nil =>
      simp only [read, unfinished.injEq] at found
      simp [← found.2]
  | cons next lines inductionHypothesis =>
      simp only [read] at found
      split at found
      · simp only [unfinished.injEq] at found
        simp [← found.2]
      · split at found
        · simp at found
        · exact Nat.le_succ_of_le (inductionHypothesis found)

end Continued

namespace Block

/-- The declaration of a line that takes one line. -/
def simple? (line : List Char) : Option Block :=
  match importStatement? line with
  | some statement => some (imports statement)
  | none =>
      if Import.isModuleName line then some (word line)
      else match Screen.attributes? line with
        | some attributes => some (screen attributes)
        | none => (State.line? line).map fun (name, literal) => state name literal

mutual

/-- The blocks of the lines from the top of a line on. -/
def ofLines : List Line → List Block
  | [] => []
  | line :: lines =>
      match simple? line.text with
      | some block => block :: ofLines lines
      | none =>
          match _found : Function.open? line lines with
          | some opened =>
              let body := Function.readBody opened
              function line.number (Function.ofBody opened.signature body) body.rest.isSome ::
                (match _closed : body.rest with
                  | some rest => ofLines rest
                  | none => [])
          | none => ofText line.number line.text lines
termination_by lines => 2 * lines.length
decreasing_by
  · simp
  · have rest := Function.length_rest_readBody _closed
    have opening := Function.length_lines_open? _found
    simp only [List.length_cons]
    omega
  · simp only [List.length_cons]
    omega

/-- The blocks of a markup text and of the lines below it. -/
def ofText (number : Nat) (text : List Char) (lines : List Line) : List Block :=
  let pieces := Pieces.ofText text
  pieces.whole.map (piece number) ++
    match pieces.unfinished with
    | none => ofLines lines
    | some tag =>
        if startsWith ['<', '/'] tag then openClosing number tag :: ofLines lines
        else match _found : Continued.read tag lines with
          | .complete found rest more => head number found :: ofText number rest more
          | .unfinished last more => unfinished number last :: ofLines more
termination_by 2 * lines.length + 1
decreasing_by
  · omega
  · omega
  · have bound := Continued.length_lines_of_complete _found
    omega
  · have bound := Continued.length_lines_of_unfinished _found
    omega

end

/-- The blocks of a function and of the lines below its body. -/
def ofOpened (number : Nat) (opened : Function.Opened) : List Block :=
  let body := Function.readBody opened
  function number (Function.ofBody opened.signature body) body.rest.isSome ::
    match body.rest with
    | some rest => ofLines rest
    | none => []

@[simp]
theorem ofLines_nil : ofLines [] = [] := by
  rw [ofLines]

theorem ofLines_cons (line : Line) (lines : List Line) :
    ofLines (line :: lines) =
      match simple? line.text, Function.open? line lines with
      | some block, _ => block :: ofLines lines
      | none, some opened => ofOpened line.number opened
      | none, none => ofText line.number line.text lines := by
  rw [ofLines]
  cases simple? line.text with
  | some block => rfl
  | none =>
      simp only
      split
      · rename_i opened found
        simp only [found, ofOpened]
        split <;> simp only [*]
      · rename_i found
        simp only [found]

theorem ofText_eq (number : Nat) (text : List Char) (lines : List Line) :
    ofText number text lines = (Pieces.ofText text).whole.map (piece number) ++
      match (Pieces.ofText text).unfinished with
      | none => ofLines lines
      | some tag =>
          if startsWith ['<', '/'] tag then openClosing number tag :: ofLines lines
          else match Continued.read tag lines with
            | .complete found rest more => head number found :: ofText number rest more
            | .unfinished last more => unfinished number last :: ofLines more := by
  rw [ofText]
  cases (Pieces.ofText text).unfinished with
  | none => rfl
  | some tag =>
      by_cases closes : startsWith ['<', '/'] tag = true
      · simp only [closes, ↓reduceIte]
      · simp only [closes, Bool.false_eq_true, ↓reduceIte]
        split <;> simp only [*]

/-- The blocks of a source without its stylesheet. -/
def ofSource (source : List Char) : List Block :=
  ofLines (Line.ofSource source)

end Block

end ScreenCompiler
