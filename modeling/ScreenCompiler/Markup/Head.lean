import ScreenCompiler.Text.Affix
import ScreenCompiler.Text.Blank
import ScreenCompiler.Text.Nesting
import ScreenCompiler.Text.Word

/-!
# Tag heads

A tag head runs from `<` to the first `>` outside quotes and braces.  Quotes have no
escapes here.  A head that is left open by a bad quote can be recovered where its
text ends like a tag.
-/

namespace ScreenCompiler

open Text

structure Head where
  tag : List Char
  attributes : List Char
  selfClosing : Bool
  deriving DecidableEq, Repr

namespace Head

/-- Where a scan stands inside a tag. -/
structure Place where
  /-- Braces that are open. -/
  depth : Nat
  quote : Option Char
  deriving DecidableEq, Repr

namespace Place

def start : Place := ⟨0, none⟩

def step (place : Place) (c : Char) : Place :=
  match place.quote with
  | some quote => if c = quote then { place with quote := none } else place
  | none =>
      if isQuote c then { place with quote := some c }
      else if c = '{' then { place with depth := place.depth + 1 }
      else if c = '}' then { place with depth := place.depth - 1 }
      else place

/-- Whether a tag ends with `c` here. -/
def closesAt (place : Place) (c : Char) : Bool :=
  c == '>' && place.quote.isNone && place.depth == 0

/-- The place at the end of a text. -/
def after (place : Place) (text : List Char) : Place :=
  text.foldl step place

end Place

/-- The text up to the end of the tag, and the text behind it. -/
def findEnd? (place : Place) : List Char → Option (List Char × List Char)
  | [] => none
  | c :: text =>
      if place.closesAt c then some ([], text)
      else (findEnd? (place.step c) text).map fun (inside, rest) => (c :: inside, rest)

theorem append_of_findEnd? {place : Place} {text inside rest : List Char}
    (found : findEnd? place text = some (inside, rest)) : text = inside ++ '>' :: rest := by
  induction text generalizing place inside with
  | nil => simp [findEnd?] at found
  | cons c text inductionHypothesis =>
      simp only [findEnd?] at found
      split at found
      · rename_i closes
        simp only [Option.some.injEq, Prod.mk.injEq] at found
        simp only [Place.closesAt, Bool.and_eq_true, beq_iff_eq] at closes
        simp [← found.1, found.2, closes.1.1]
      · obtain ⟨⟨inner, after⟩, reached, equality⟩ := Option.map_eq_some_iff.1 found
        simp only [Prod.mk.injEq] at equality
        obtain ⟨rfl, rfl⟩ := equality
        rw [inductionHypothesis reached, List.cons_append]

def isTagChar (c : Char) : Bool :=
  isAsciiAlphanumeric c || c == '_' || c == '.' || c == '$'

/-- Whether a tag, opening or closing, starts here. -/
def startsTag : List Char → Bool
  | '<' :: c :: _ => isAsciiLetter c || c == '/'
  | _ => false

/-- The head between its angle brackets. -/
def ofInside (inside : List Char) : Head :=
  let body := trimEnd (inside.dropWhile isTagChar)
  match beforeSuffix? ['/'] body with
  | some attributes => ⟨inside.takeWhile isTagChar, attributes, true⟩
  | none => ⟨inside.takeWhile isTagChar, body, false⟩

/-- The head at the front of a text that starts with a tag, and the text behind it. -/
def read? : List Char → Option (Head × List Char)
  | '<' :: text =>
      (findEnd? .start text).map fun (inside, rest) => (ofInside inside, trim rest)
  | _ => none

/-- Whether a text ends within a quote that no brace is open around. -/
def endsInOpenQuote (text : List Char) : Bool :=
  let place := Place.start.after text
  place.quote.isSome && place.depth == 0

/-- The head of a text without an end of tag, taken to end where the text does. -/
def recover? : List Char → Option Head
  | [] => none
  | _ :: inside =>
      let tag := inside.takeWhile isTagChar
      match (inside.dropWhile isTagChar).reverse with
      | '>' :: '/' :: reversed => some ⟨tag, reversed.reverse, true⟩
      | '>' :: reversed => some ⟨tag, reversed.reverse, false⟩
      | _ => none

/-- The head of a text that is given up: all of it, without the slashes at its end. -/
def abandoned (text : List Char) : Head :=
  let inside := text.drop 1
  { tag := inside.takeWhile isTagChar
    attributes := ((inside.dropWhile isTagChar).reverse.dropWhile (· == '/')).reverse
    selfClosing := true }

end Head

end ScreenCompiler
