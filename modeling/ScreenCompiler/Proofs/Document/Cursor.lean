import ScreenCompiler.Proofs.Document.Joining
import ScreenCompiler.Proofs.Document.LineMachine

/-!
# Reading through a cursor

A source can be read in one go, by a cursor over its lines.  A line of markup is replaced
by its segments when it is reached, and what follows a head that has gone on over lines is
put back in segments, so the lines in front of the cursor change while they are read.

A loop reads the children of an element, or what is outside of all elements, round by
round.  A round that meets a tag reads the whole element by a loop of its own.  The rules
say nothing about whether this ends.
-/

namespace ScreenCompiler

open Text

/-- The lines that are still to be read.  Segments come in front of the lines of the source and are
never declarations. -/
structure Cursor where
  segments : List Line
  lines : List Line

/-- How many characters the texts of some lines have. -/
def textSize : List Line → Nat
  | [] => 0
  | line :: lines => line.text.length + textSize lines

namespace Cursor

def ofSource (source : List Char) : Cursor :=
  ⟨[], Line.ofSource source⟩

/-- All lines from the cursor on. -/
def pending (cursor : Cursor) : List Line :=
  cursor.segments ++ cursor.lines

/-- The characters of all lines from the cursor on. -/
def size (cursor : Cursor) : Nat :=
  textSize cursor.pending

def next? : Cursor → Option (Line × Cursor)
  | ⟨segment :: segments, lines⟩ => some (segment, ⟨segments, lines⟩)
  | ⟨[], line :: lines⟩ => some (line, ⟨[], lines⟩)
  | ⟨[], []⟩ => none

/-- Texts that are read next, as lines of the given number. -/
def insert (number : Nat) (texts : List (List Char)) (cursor : Cursor) : Cursor :=
  { cursor with segments := texts.map (⟨number, ·⟩) ++ cursor.segments }

/-- The line at the cursor gives way to its segments when it has more than one. -/
def expand (cursor : Cursor) : Cursor :=
  match cursor.next? with
  | none => cursor
  | some (line, behind) =>
      let texts := (Pieces.ofText line.text).segments
      if 1 < texts.length then behind.insert line.number texts else cursor

theorem pending_of_next? {cursor behind : Cursor} {line : Line}
    (found : cursor.next? = some (line, behind)) : cursor.pending = line :: behind.pending := by
  obtain ⟨segments, lines⟩ := cursor
  cases segments with
  | cons segment segments =>
      obtain ⟨rfl, rfl⟩ := Prod.mk.inj (Option.some.inj found)
      rfl
  | nil =>
      cases lines with
      | nil => exact absurd found.symm (Option.some_ne_none _)
      | cons next lines =>
          obtain ⟨rfl, rfl⟩ := Prod.mk.inj (Option.some.inj found)
          rfl

theorem eq_of_next?_eq_none {cursor : Cursor} (ended : cursor.next? = none) :
    cursor = ⟨[], []⟩ := by
  obtain ⟨segments, lines⟩ := cursor
  cases segments with
  | cons segment segments => exact absurd ended (Option.some_ne_none _)
  | nil =>
      cases lines with
      | cons line lines => exact absurd ended (Option.some_ne_none _)
      | nil => rfl

end Cursor

/-- The declaration of a line on its own.  Inside elements a module name is text. -/
def Declaration.ofLine? (catalog : Catalog) (inside : Bool) (text : List Char) :
    Option Declaration :=
  match importStatement? text with
  | some statement => some (.imports statement)
  | none =>
      if !inside && Import.isModuleName text then some (.imports [Import.ofModuleName text])
      else match Screen.attributes? text with
        | some attributes => some (.screen (Screen.ofAttributes catalog attributes))
        | none => (State.line? text).map fun (name, literal) =>
            .state (State.infer (String.ofList name) literal)

/-- The forest of a function; one whose body is never closed is at fault. -/
def Forest.ofFunction (number : Nat) (function : Function) (closed : Bool) : Forest where
  nodes := []
  declarations := [.function function]
  diagnostics := if closed then [] else [.unterminatedFunction function.name number]

namespace Cursor

/-- The declaration at the cursor, and the cursor behind it. -/
def declaration? (catalog : Catalog) (inside : Bool) : Cursor → Option (Forest × Cursor)
  | ⟨[], line :: lines⟩ =>
      match Declaration.ofLine? catalog inside line.text with
      | some declaration => some (.ofDeclaration declaration, ⟨[], lines⟩)
      | none => (Function.open? line lines).map fun opened =>
          let body := Function.readBody opened
          (.ofFunction line.number (Function.ofBody opened.signature body) body.rest.isSome,
            ⟨[], body.rest.getD []⟩)
  | _ => none

end Cursor

/-- What the text from an angle bracket on is. -/
inductive Opening where
  | text (run : List Char)
  /-- A head, and what follows it on its last line. -/
  | complete (head : Head) (rest : List Char)
  /-- A head that ends nowhere. -/
  | abandoned (text : List Char)

/-- A head without an end ends where its text does, if that looks like a tag. -/
def Opening.ofUnfinished (text : List Char) : Opening :=
  match Head.recover? text with
  | some head => .complete head []
  | none => .abandoned text

namespace Cursor

/-- A tag is read from its text so far, which takes in lines until its head is complete. -/
def readHead (text : List Char) (cursor : Cursor) : Opening × Cursor :=
  if Head.isHead text then
    match Head.read? text with
    | some (head, rest) => (.complete head rest, cursor)
    | none =>
        if Head.endsInOpenQuote text && (Head.recover? text).isSome then
          (.ofUnfinished text, cursor)
        else match _found : cursor.next? with
          | none => (.ofUnfinished text, cursor)
          | some (next, behind) =>
              if startsStructure next.text then (.ofUnfinished text, cursor)
              else behind.readHead (text ++ ' ' :: next.text)
  else (.text text, cursor)
termination_by cursor.pending.length
decreasing_by simp [pending_of_next? _found]

/-- What the tag at the cursor stands for, as far as it can be read without its children. -/
inductive Tag where
  /-- A tag without children, and the cursor behind it. -/
  | alone (forest : Forest) (behind : Cursor)
  /-- An element, what is wrong with its values, and the cursor inside it. -/
  | element (faults : List Diagnostic) (tag : String) (props : Props) (line : Nat) (inside : Cursor)

/-- The tag of a head, with the cursor behind the head. -/
def Tag.ofHead (catalog : Catalog) (number : Nat) (head : Head) (behind : Cursor) : Tag :=
  let scanned := ScannedProps.read catalog head.attributes
  let faults := scanned.unterminated.map (.unterminatedValue · number)
  let tag := String.ofList head.tag
  if head.selfClosing then
    .alone (⟨[], [], faults⟩ ++ .ofNode (.element tag scanned.props [] number)) behind
  else .element faults tag scanned.props number behind

/-- The tag that stands for an abandoned head, reported first. -/
def Tag.ofAbandoned (catalog : Catalog) (number : Nat) (text : List Char) (behind : Cursor) : Tag :=
  let head := Head.abandoned text
  let scanned := ScannedProps.read catalog head.attributes
  let tag := String.ofList head.tag
  .alone (⟨[], [], .unterminatedTag tag number ::
    scanned.unterminated.map (.unterminatedValue · number)⟩ ++
      .ofNode (.element tag scanned.props [] number)) behind

/-- The tag of an opening, with the cursor behind it.  What follows a head on its last line is put
back in segments. -/
def Tag.ofOpening (catalog : Catalog) (number : Nat) (behind : Cursor) : Opening → Tag
  | .text run => .alone (.ofNode (.text (String.ofList run))) behind
  | .complete head rest =>
      .ofHead catalog number head (behind.insert number (Pieces.ofText rest).segments)
  | .abandoned text => .ofAbandoned catalog number text behind

/-- The tag at the cursor. -/
def tag (catalog : Catalog) (cursor : Cursor) : Tag :=
  match cursor.next? with
  | none => .alone (.ofNode (.text "")) cursor
  | some (line, below) =>
      let (opening, behind) := below.readHead line.text
      .ofOpening catalog line.number behind opening

/-- How a round of a loop begins. -/
inductive Turn where
  /-- The loop ends: no line is left, or an element around it is closed. -/
  | stop (rest : Cursor)
  /-- Something that takes no further round. -/
  | alone (forest : Forest) (behind : Cursor)
  /-- A tag is called for, with the cursor at it. -/
  | tag (cursor : Cursor)

/-- The beginning of a round inside the open elements. -/
def turn (catalog : Catalog) (enclosing : List String) (cursor : Cursor) : Turn :=
  match cursor.declaration? catalog (!enclosing.isEmpty) with
  | some (forest, behind) => .alone forest behind
  | none =>
      match cursor.expand.next? with
      | none => .stop cursor.expand
      | some (line, behind) =>
          match closingName? line.text with
          | some name =>
              if String.ofList name ∈ enclosing then .stop cursor.expand
              else .alone (.ofDiagnostic (.unmatchedClosingTag (String.ofList name) line.number))
                behind
          | none =>
              if startsWith ['<'] line.text then .tag cursor.expand
              else .alone (.ofNode (.text (String.ofList line.text))) behind

/-- The ways in which a round can begin. -/
inductive Turns (catalog : Catalog) (enclosing : List String) (cursor : Cursor) : Turn → Prop where
  | declaration {forest behind} :
      cursor.declaration? catalog (!enclosing.isEmpty) = some (forest, behind) →
      Turns catalog enclosing cursor (.alone forest behind)
  | ended :
      cursor.declaration? catalog (!enclosing.isEmpty) = none →
      cursor.expand.next? = none →
      Turns catalog enclosing cursor (.stop cursor.expand)
  | closed {line behind name} :
      cursor.declaration? catalog (!enclosing.isEmpty) = none →
      cursor.expand.next? = some (line, behind) →
      closingName? line.text = some name → String.ofList name ∈ enclosing →
      Turns catalog enclosing cursor (.stop cursor.expand)
  | unmatched {line behind name} :
      cursor.declaration? catalog (!enclosing.isEmpty) = none →
      cursor.expand.next? = some (line, behind) →
      closingName? line.text = some name → String.ofList name ∉ enclosing →
      Turns catalog enclosing cursor
        (.alone (.ofDiagnostic (.unmatchedClosingTag (String.ofList name) line.number)) behind)
  | tag {line behind} :
      cursor.declaration? catalog (!enclosing.isEmpty) = none →
      cursor.expand.next? = some (line, behind) →
      closingName? line.text = none → startsWith ['<'] line.text = true →
      Turns catalog enclosing cursor (.tag cursor.expand)
  | text {line behind} :
      cursor.declaration? catalog (!enclosing.isEmpty) = none →
      cursor.expand.next? = some (line, behind) →
      closingName? line.text = none → startsWith ['<'] line.text = false →
      Turns catalog enclosing cursor (.alone (.ofNode (.text (String.ofList line.text))) behind)

theorem turns_turn (catalog : Catalog) (enclosing : List String) (cursor : Cursor) :
    Turns catalog enclosing cursor (cursor.turn catalog enclosing) := by
  unfold turn
  split
  · rename_i found
    exact .declaration found
  · rename_i undeclared
    split
    · rename_i ended
      exact .ended undeclared ended
    · rename_i found
      split
      · rename_i closing
        split
        · rename_i matched
          exact .closed undeclared found closing matched
        · rename_i unmatched
          exact .unmatched undeclared found closing unmatched
      · rename_i noClosing
        split
        · rename_i bracket
          exact .tag undeclared found noClosing bracket
        · rename_i noBracket
          exact .text undeclared found noClosing (Bool.eq_false_iff.mpr noBracket)

/-- Whether the line at the cursor closes an element, and the cursor behind it if it does. -/
def afterClosing (tag : String) (cursor : Cursor) : Bool × Cursor :=
  match cursor.next? with
  | none => (false, cursor)
  | some (line, behind) =>
      if (closingName? line.text).map String.ofList = some tag then (true, behind)
      else (false, cursor)

mutual

/-- A call that reads the tag at a cursor inside the open elements: what the tag stands for, the
cursor behind it, and how many rounds the loops within have gone. -/
inductive ReadsTag (catalog : Catalog) :
    List String → Cursor → Forest → Cursor → Nat → Prop where
  | alone {enclosing cursor forest behind} :
      cursor.tag catalog = .alone forest behind →
      ReadsTag catalog enclosing cursor forest behind 0
  /-- The round in which the inner loop ends is counted here. -/
  | element {enclosing cursor faults tag props line inside children remaining rounds} :
      cursor.tag catalog = .element faults tag props line inside →
      Loop catalog (tag :: enclosing) inside children remaining rounds →
      ReadsTag catalog enclosing cursor
        (⟨[], [], faults⟩ ++ .wrap tag props line (remaining.afterClosing tag).1 children)
        (remaining.afterClosing tag).2 (rounds + 1)

/-- A round that does not end its loop. -/
inductive Round (catalog : Catalog) :
    List String → Cursor → Forest → Cursor → Nat → Prop where
  | alone {enclosing cursor forest behind} :
      cursor.turn catalog enclosing = .alone forest behind →
      Round catalog enclosing cursor forest behind 1
  | tag {enclosing cursor opened forest behind rounds} :
      cursor.turn catalog enclosing = .tag opened →
      ReadsTag catalog enclosing opened forest behind rounds →
      Round catalog enclosing cursor forest behind (rounds + 1)

/-- A loop inside the open elements up to its end, with the rounds of all loops within. -/
inductive Loop (catalog : Catalog) :
    List String → Cursor → Forest → Cursor → Nat → Prop where
  | stop {enclosing cursor rest} :
      cursor.turn catalog enclosing = .stop rest →
      Loop catalog enclosing cursor .empty rest 0
  | next {enclosing cursor forest behind rounds after final more} :
      Round catalog enclosing cursor forest behind rounds →
      Loop catalog enclosing behind after final more →
      Loop catalog enclosing cursor (forest ++ after) final (rounds + more)

end

end Cursor

end ScreenCompiler
