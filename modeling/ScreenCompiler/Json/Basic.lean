import ScreenCompiler.Json.Raw

/-!
# JSON values

A value holds the members of an object in the order in which they are written.
Reading sorts them by name and keeps the last of several members of one name, so
two texts that differ only in the order of members read as one value.
-/

namespace ScreenCompiler

inductive Json where
  | null
  | bool (value : Bool)
  | number (value : Json.Number)
  | string (value : String)
  | array (items : List Json)
  | object (members : List (String × Json))

namespace Json

def hexValue (c : Char) : Nat :=
  if c ≤ '9' then c.toNat - '0'.toNat
  else if c ≤ 'F' then c.toNat - 'A'.toNat + 10
  else c.toNat - 'a'.toNat + 10

def hexUnit (digits : List Char) : Nat :=
  digits.foldl (fun unit c => 16 * unit + hexValue c) 0

def simpleEscape (c : Char) : Char :=
  if c = 'b' then '\x08'
  else if c = 'f' then '\x0c'
  else if c = 'n' then '\n'
  else if c = 'r' then '\r'
  else if c = 't' then '\t'
  else c

/-- The character of two units from the ranges that stand for one character together. -/
def surrogatePair? (high low : Nat) : Option Char :=
  if 0xDC00 ≤ low ∧ low ≤ 0xDFFF then
    some (Char.ofNat (0x10000 + (high - 0xD800) * 0x400 + (low - 0xDC00)))
  else none

/-- The text that an escaped string stands for; nothing when one half of a pair stands alone. -/
def unescape? : List Char → Option (List Char)
  | [] => some []
  | '\\' :: 'u' :: a :: b :: c :: d :: rest =>
      let unit := hexUnit [a, b, c, d]
      if 0xD800 ≤ unit ∧ unit ≤ 0xDBFF then
        match rest with
        | '\\' :: 'u' :: e :: f :: g :: h :: rest =>
            (surrogatePair? unit (hexUnit [e, f, g, h])).bind fun character =>
              (unescape? rest).map (character :: ·)
        | _ => none
      else if 0xDC00 ≤ unit ∧ unit ≤ 0xDFFF then none
      else (unescape? rest).map (Char.ofNat unit :: ·)
  | '\\' :: c :: rest => (unescape? rest).map (simpleEscape c :: ·)
  | c :: rest => (unescape? rest).map (c :: ·)

/-- The members with one added, sorted by name; a member of the same name is replaced. -/
def insertMember (name : String) (value : Json) : List (String × Json) → List (String × Json)
  | [] => [(name, value)]
  | (other, previous) :: members =>
      if name < other then (name, value) :: (other, previous) :: members
      else if name = other then (name, value) :: members
      else (other, previous) :: insertMember name value members

mutual

/-- The value of a tree; nothing when a number is past the doubles or an escape is half a pair. -/
def ofRaw? : Raw → Option Json
  | .null => some .null
  | .bool value => some (.bool value)
  | .number parts => parts.value?.map .number
  | .string body => (unescape? body).map fun text => .string (String.ofList text)
  | .array items => (itemsOfRaw? items).map .array
  | .object members => (membersOfRaw? [] members).map .object

def itemsOfRaw? : List Raw → Option (List Json)
  | [] => some []
  | item :: items =>
      (ofRaw? item).bind fun value => (itemsOfRaw? items).map (value :: ·)

def membersOfRaw? (earlier : List (String × Json)) :
    List (List Char × Raw) → Option (List (String × Json))
  | [] => some earlier
  | (name, item) :: members =>
      (unescape? name).bind fun key =>
        (ofRaw? item).bind fun value =>
          membersOfRaw? (insertMember (String.ofList key) value earlier) members

end

/-- How deep containers may lie in one another. -/
def depthLimit : Nat := 127

/-- The value of a JSON text. -/
def read? (text : List Char) : Option Json :=
  (Raw.read? text).bind fun raw => if raw.depth ≤ depthLimit then ofRaw? raw else none

def ofString (text : String) : Json := .string text

def ofInt (value : Int) : Json := .number (.integer value)

def ofNat (value : Nat) : Json := .number (.integer value)

def ofOption (encode : α → Json) : Option α → Json
  | none => .null
  | some value => encode value

def ofList (encode : α → Json) (values : List α) : Json :=
  .array (values.map encode)

def isArray : Json → Bool
  | array _ => true
  | _ => false

def isObject : Json → Bool
  | object _ => true
  | _ => false

end Json

end ScreenCompiler
