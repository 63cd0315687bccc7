import ScreenCompiler.Markup.Props
import ScreenCompiler.Text.Blank
import ScreenCompiler.Text.Word

/-!
# Attributes

The attribute text of a tag is a list of names, each alone or with a value in
braces, in quotes, or up to the next blank.  Reading is in two steps: first the
written attributes, then their values.  Characters that can belong to no attribute
are passed over.
-/

namespace ScreenCompiler

open Text

namespace Attribute

def isNameChar (c : Char) : Bool :=
  isAsciiAlphanumeric c || c == '_' || c == '-'

/-- The part of an attribute behind its name. -/
inductive Form where
  /-- A name alone. -/
  | bare
  /-- An equals sign with nothing behind it. -/
  | missing
  | word (text : List Char)
  | quoted (text : List Char) (closed : Bool)
  | braced (code : List Char) (closed : Bool)
  deriving DecidableEq, Repr

/-- The text up to the brace that closes the enclosing pair, with `depth` inner pairs open, and
what follows that brace, if there is one. -/
def braced (depth : Nat) : List Char → List Char × Option (List Char)
  | [] => ([], none)
  | c :: text =>
      if c = '{' then
        let (inner, after) := braced (depth + 1) text
        (c :: inner, after)
      else if c = '}' then
        match depth with
        | 0 => ([], some text)
        | depth + 1 =>
            let (inner, after) := braced depth text
            (c :: inner, after)
      else
        let (inner, after) := braced depth text
        (c :: inner, after)

theorem length_after_braced (depth : Nat) (text : List Char) :
    ((braced depth text).2.getD []).length ≤ text.length := by
  induction text generalizing depth with
  | nil => simp [braced]
  | cons c text inductionHypothesis =>
      simp only [braced, List.length_cons]
      split
      · exact Nat.le_succ_of_le (inductionHypothesis (depth + 1))
      · split
        · cases depth with
          | zero => simp
          | succ depth => exact Nat.le_succ_of_le (inductionHypothesis depth)
        · exact Nat.le_succ_of_le (inductionHypothesis depth)

/-- The text up to the next quote of the given kind, and what follows it, if there is one. -/
def quoted (quote : Char) : List Char → List Char × Option (List Char)
  | [] => ([], none)
  | c :: text =>
      if c = quote then ([], some text)
      else
        let (inner, after) := quoted quote text
        (c :: inner, after)

theorem length_after_quoted (quote : Char) (text : List Char) :
    ((quoted quote text).2.getD []).length ≤ text.length := by
  induction text with
  | nil => simp [quoted]
  | cons c text inductionHypothesis =>
      simp only [quoted, List.length_cons]
      split
      · simp
      · exact Nat.le_succ_of_le inductionHypothesis

/-- A value that starts with its first character, and the text behind it. -/
def readValue (c : Char) (text : List Char) : Form × List Char :=
  if c = '{' then
    let (code, after) := braced 0 text
    (.braced code after.isSome, after.getD [])
  else if c = '"' ∨ c = '\'' then
    let (inner, after) := quoted c text
    (.quoted inner after.isSome, after.getD [])
  else (.word (c :: text.takeWhile (!isBlank ·)), text.dropWhile (!isBlank ·))

theorem length_after_readValue (c : Char) (text : List Char) :
    (readValue c text).2.length ≤ text.length := by
  unfold readValue
  split
  · exact length_after_braced 0 text
  · split
    · exact length_after_quoted c text
    · exact (List.dropWhile_sublist _).length_le

/-- What is written behind a name, and the text after it. -/
def readForm (text : List Char) : Form × List Char :=
  match trimStart text with
  | [] => (.bare, text)
  | c :: rest =>
      if c = '=' then
        match trimStart rest with
        | [] => (.missing, [])
        | first :: inside => readValue first inside
      else (.bare, text)

theorem length_after_readForm (text : List Char) : (readForm text).2.length ≤ text.length := by
  have outer : (trimStart text).length ≤ text.length := (List.dropWhile_sublist _).length_le
  unfold readForm
  split
  · simp
  · rename_i c rest found
    rw [found, List.length_cons] at outer
    split
    · have inner : (trimStart rest).length ≤ rest.length := (List.dropWhile_sublist _).length_le
      split
      · simp
      · rename_i first inside opened
        rw [opened, List.length_cons] at inner
        have bound := length_after_readValue first inside
        omega
    · simp

end Attribute

structure Attribute where
  name : String
  form : Attribute.Form
  deriving DecidableEq, Repr

namespace Attribute

/-- The attributes written in a text. -/
def list (text : List Char) : List Attribute :=
  match _found : trimStart text with
  | [] => []
  | c :: rest =>
      if isNameChar c then
        let name := c :: rest.takeWhile isNameChar
        let value := readForm (rest.dropWhile isNameChar)
        ⟨String.ofList name, value.1⟩ :: list value.2
      else list rest
termination_by text.length
decreasing_by
  · have outer : (trimStart text).length ≤ text.length := (List.dropWhile_sublist _).length_le
    have named := (List.dropWhile_sublist isNameChar (l := rest)).length_le
    have bound := length_after_readForm (rest.dropWhile isNameChar)
    rw [_found, List.length_cons] at outer
    omega
  · have outer : (trimStart text).length ≤ text.length := (List.dropWhile_sublist _).length_le
    rw [_found, List.length_cons] at outer
    omega

/-- The value of an attribute.  A name alone is a flag that is set. -/
def toValue (catalog : Catalog) (item : Attribute) : PropValue :=
  match item.form with
  | .bare => .bool true
  | .missing => .string ""
  | .word text => .ofLiteral text
  | .quoted text _ => .ofQuoted catalog item.name text
  | .braced code _ => .ofBraced code

/-- Whether the value runs to the end of the text without its closing mark. -/
def isUnterminated (item : Attribute) : Bool :=
  match item.form with
  | .quoted _ closed => !closed
  | .braced _ closed => !closed
  | _ => false

end Attribute

/-- The props of an attribute text. -/
structure ScannedProps where
  props : Props
  /-- Names whose value is not terminated. -/
  unterminated : List String
  deriving DecidableEq

namespace ScannedProps

def ofAttributes (catalog : Catalog) (attributes : List Attribute) : ScannedProps where
  props := attributes.foldl (fun props a => props.insert a.name (a.toValue catalog)) .empty
  unterminated := (attributes.filter Attribute.isUnterminated).map Attribute.name

def read (catalog : Catalog) (text : List Char) : ScannedProps :=
  ofAttributes catalog (Attribute.list (trim text))

end ScannedProps

end ScreenCompiler
