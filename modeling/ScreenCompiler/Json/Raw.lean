import ScreenCompiler.Json.Number

/-!
# JSON as written

The tree of a JSON text before any value is computed: strings keep their escapes,
numbers their parts, and objects all their members in order, repeated names
included.  A text has such a tree exactly when its syntax is right; whether its
values can be represented is decided later.
-/

namespace ScreenCompiler.Json

open Text

inductive Token where
  | openArray
  | closeArray
  | openObject
  | closeObject
  | comma
  | colon
  | null
  | bool (value : Bool)
  | number (number : NumberText)
  /-- The text between the quotes, escapes as written. -/
  | string (body : List Char)
  deriving DecidableEq, Repr

namespace Token

def punctuation? (c : Char) : Option Token :=
  if c = '[' then some openArray
  else if c = ']' then some closeArray
  else if c = '\x7b' then some openObject
  else if c = '\x7d' then some closeObject
  else if c = ',' then some comma
  else if c = ':' then some colon
  else none

def isSpace (c : Char) : Bool :=
  c == ' ' || c == '\t' || c == '\n' || c == '\r'

/-- Characters of names and numbers. -/
def isPlain (c : Char) : Bool :=
  isAsciiAlphanumeric c || c == '+' || c == '-' || c == '.'

def ofPlain? (run : List Char) : Option Token :=
  if run = "null".toList then some .null
  else if run = "true".toList then some (.bool true)
  else if run = "false".toList then some (.bool false)
  else (NumberText.read? run).map .number

def isHexDigit (c : Char) : Bool :=
  isAsciiDigit c || ('a' ≤ c && c ≤ 'f') || ('A' ≤ c && c ≤ 'F')

def isSimpleEscape (c : Char) : Bool :=
  c == '"' || c == '\\' || c == '/' || c == 'b' || c == 'f' || c == 'n' || c == 'r' || c == 't'

/-- The body of a string up to its closing quote, and what follows the quote. -/
def stringBody? : List Char → Option (List Char × List Char)
  | [] => none
  | '"' :: rest => some ([], rest)
  | '\\' :: 'u' :: a :: b :: c :: d :: rest =>
      if [a, b, c, d].all isHexDigit then
        (stringBody? rest).map fun (body, after) => ('\\' :: 'u' :: a :: b :: c :: d :: body, after)
      else none
  | '\\' :: c :: rest =>
      if isSimpleEscape c then
        (stringBody? rest).map fun (body, after) => ('\\' :: c :: body, after)
      else none
  | c :: rest =>
      if c.toNat < 0x20 ∨ c = '\\' then none
      else (stringBody? rest).map fun (body, after) => (c :: body, after)

theorem length_lt_of_stringBody? {text body after : List Char}
    (found : stringBody? text = some (body, after)) : after.length < text.length := by
  fun_induction stringBody? text generalizing body after with
  | case1 => simp at found
  | case2 rest =>
      simp only [Option.some.injEq, Prod.mk.injEq] at found
      simp [found.2]
  | case3 a b c d rest digits inductionHypothesis =>
      obtain ⟨⟨inner, more⟩, reached, equality⟩ := Option.map_eq_some_iff.1 found
      simp only [Prod.mk.injEq] at equality
      have shorter := inductionHypothesis reached
      simp only [← equality.2, List.length_cons]
      omega
  | case4 => simp at found
  | case5 c rest _ escape inductionHypothesis =>
      obtain ⟨⟨inner, more⟩, reached, equality⟩ := Option.map_eq_some_iff.1 found
      simp only [Prod.mk.injEq] at equality
      have shorter := inductionHypothesis reached
      simp only [← equality.2, List.length_cons]
      omega
  | case6 => simp at found
  | case7 => simp at found
  | case8 c rest _ _ _ plain inductionHypothesis =>
      obtain ⟨⟨inner, more⟩, reached, equality⟩ := Option.map_eq_some_iff.1 found
      simp only [Prod.mk.injEq] at equality
      have shorter := inductionHypothesis reached
      simp only [← equality.2, List.length_cons]
      omega

/-- The tokens of a text. -/
def list? : List Char → Option (List Token)
  | [] => some []
  | c :: rest =>
      if isSpace c then list? rest
      else match punctuation? c with
        | some token => (list? rest).map (token :: ·)
        | none =>
            if c = '"' then
              match _found : stringBody? rest with
              | some (body, after) => (list? after).map (.string body :: ·)
              | none => none
            else if isPlain c then
              (ofPlain? (c :: rest.takeWhile isPlain)).bind fun token =>
                (list? (rest.dropWhile isPlain)).map (token :: ·)
            else none
termination_by text => text.length
decreasing_by
  · simp
  · simp
  · have shorter := length_lt_of_stringBody? _found
    simp only [List.length_cons]
    omega
  · have shorter := (List.dropWhile_sublist isPlain (l := rest)).length_le
    simp only [List.length_cons]
    omega

end Token

inductive Raw where
  | null
  | bool (value : Bool)
  | number (number : NumberText)
  | string (body : List Char)
  | array (items : List Raw)
  | object (members : List (List Char × Raw))
  deriving Repr

namespace Raw

/-- A container whose reading has begun, with what it holds so far in reverse. -/
inductive Frame where
  | array (items : List Raw)
  /-- The name is that of the member being read. -/
  | object (members : List (List Char × Raw)) (name : List Char)

mutual

/-- A value and all that follows it, inside the open containers. -/
def value? (frames : List Frame) : List Token → Option Raw
  | .null :: tokens => follow? frames .null tokens
  | .bool b :: tokens => follow? frames (.bool b) tokens
  | .number n :: tokens => follow? frames (.number n) tokens
  | .string s :: tokens => follow? frames (.string s) tokens
  | .openArray :: .closeArray :: tokens => follow? frames (.array []) tokens
  | .openArray :: tokens => value? (.array [] :: frames) tokens
  | .openObject :: .closeObject :: tokens => follow? frames (.object []) tokens
  | .openObject :: .string name :: .colon :: tokens => value? (.object [] name :: frames) tokens
  | _ => none

/-- What may follow a value that has been read: the next item, the end of its container, or the
end of the text. -/
def follow? (frames : List Frame) (item : Raw) : List Token → Option Raw
  | [] => if frames.isEmpty then some item else none
  | .comma :: .string name :: .colon :: tokens =>
      match frames with
      | .object members previous :: outer =>
          value? (.object ((previous, item) :: members) name :: outer) tokens
      | _ => none
  | .comma :: tokens =>
      match frames with
      | .array items :: outer => value? (.array (item :: items) :: outer) tokens
      | _ => none
  | .closeArray :: tokens =>
      match frames with
      | .array items :: outer => follow? outer (.array (item :: items).reverse) tokens
      | _ => none
  | .closeObject :: tokens =>
      match frames with
      | .object members name :: outer =>
          follow? outer (.object ((name, item) :: members).reverse) tokens
      | _ => none
  | _ => none

end

/-- The tree of a JSON text. -/
def read? (text : List Char) : Option Raw :=
  (Token.list? text).bind (value? [])

mutual

/-- How many containers lie around the innermost value. -/
def depth : Raw → Nat
  | array items => depthOfItems items + 1
  | object members => depthOfMembers members + 1
  | _ => 0

def depthOfItems : List Raw → Nat
  | [] => 0
  | item :: items => max (depth item) (depthOfItems items)

def depthOfMembers : List (List Char × Raw) → Nat
  | [] => 0
  | (_, item) :: members => max (depth item) (depthOfMembers members)

end

end Raw

end ScreenCompiler.Json
