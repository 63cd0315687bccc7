import ScreenCompiler.Markup.Head

/-!
# Pieces of a markup line

A line of markup falls into tag heads, closing tags and runs of text.  Braces in a
run of text hide the tags inside them.  A tag that does not end on the line is its
last piece and stays open.
-/

namespace ScreenCompiler

open Text

inductive Piece where
  | text (run : List Char)
  /-- The text between `</` and `>`. -/
  | closing (inside : List Char)
  /-- The text between `<` and `>`. -/
  | head (inside : List Char)
  deriving DecidableEq, Repr

namespace Piece

/-- A piece as it stands on its line. -/
def written : Piece → List Char
  | text run => run
  | closing inside => '<' :: '/' :: inside ++ ['>']
  | head inside => '<' :: inside ++ ['>']

/-- A tag that ends on its line, given the text between its angle brackets. -/
def ofInside : List Char → Piece
  | '/' :: inside => closing inside
  | inside => head inside

end Piece

/-- The pieces of a line, and the text of a tag that it leaves open. -/
structure Pieces where
  whole : List Piece
  unfinished : Option (List Char)
  deriving DecidableEq, Repr

namespace Pieces

def cons (piece : Piece) (pieces : Pieces) : Pieces :=
  { pieces with whole := piece :: pieces.whole }

/-- The run of text read so far, held in reverse, as a piece; blanks make none. -/
def flush (run : List Char) (pieces : Pieces) : Pieces :=
  match trim run.reverse with
  | [] => pieces
  | c :: text => pieces.cons (.text (c :: text))

def textDepth (depth : Nat) (c : Char) : Nat :=
  if c = '{' then depth + 1 else if c = '}' then depth - 1 else depth

/-- The pieces of a text, with a run of text before it and `depth` braces open. -/
def split (depth : Nat) (run : List Char) (text : List Char) : Pieces :=
  match text with
  | [] => flush run ⟨[], none⟩
  | c :: rest =>
      if depth = 0 ∧ Head.startsTag (c :: rest) then
        match _found : Head.findEnd? .start rest with
        | some (inside, after) => flush run ((split 0 [] after).cons (Piece.ofInside inside))
        | none => flush run ⟨[], some (c :: rest)⟩
      else split (textDepth depth c) (c :: run) rest
termination_by text.length
decreasing_by
  · have shape := congrArg List.length (Head.append_of_findEnd? _found)
    simp only [List.length_append, List.length_cons] at shape ⊢
    omega
  · simp

def ofText (text : List Char) : Pieces :=
  split 0 [] text

/-- The pieces as texts, an open tag last. -/
def segments (pieces : Pieces) : List (List Char) :=
  pieces.whole.map Piece.written ++ pieces.unfinished.toList

end Pieces

end ScreenCompiler
