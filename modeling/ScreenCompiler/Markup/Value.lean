import ScreenCompiler.Catalog.Basic
import ScreenCompiler.Decimal.Layout
import ScreenCompiler.Decimal.Reading
import ScreenCompiler.Text.Affix

/-!
# Prop values

What an attribute stands for.  The written form and the attribute name decide the
kind: braces hold a literal or code, quotes hold a literal, a navigation call, the
name of a state, or a word of the catalog's vocabulary.
-/

namespace ScreenCompiler

open Text

inductive PropValue where
  | string (text : String)
  | number (value : Float)
  | bool (value : Bool)
  /-- Code, kept as written. -/
  | expression (code : String)
  /-- The route path of a navigation call. -/
  | navigation (path : String)
  /-- The name of a bound state. -/
  | state (name : String)
  deriving DecidableEq

namespace PropValue

/-- The flag or number a text spells, or else what `other` makes of it. -/
def literalOr (text : List Char) (other : PropValue) : PropValue :=
  if text = "true".toList then .bool true
  else if text = "false".toList then .bool false
  else match Decimal.number? text with
    | some value => .number value
    | none => other

def ofLiteral (text : List Char) : PropValue :=
  literalOr text (.string (String.ofList text))

/-- Code in braces; blanks around a flag or number do not matter, and other code keeps them. -/
def ofBraced (code : List Char) : PropValue :=
  literalOr (trim code) (.expression (String.ofList code))

/-- What stands between two marks of one kind at the ends of a text. -/
def between? (mark : Char) (text : List Char) : Option (List Char) :=
  (afterPrefix? [mark] text).bind (beforeSuffix? [mark])

/-- The path of a text that reads as one navigation call with a quoted path. -/
def navigationTarget? (text : List Char) : Option (List Char) :=
  ((afterPrefix? "go(".toList text).bind (beforeSuffix? [')'])).bind fun argument =>
    (between? '\'' argument).or (between? '"' argument)

/-- The value of a quoted attribute. -/
def ofQuoted (catalog : Catalog) (name : String) (text : List Char) : PropValue :=
  if name = "onPress" then
    match navigationTarget? text with
    | some path => .navigation (String.ofList path)
    | none => ofLiteral text
  else if name = "bind" then
    (if text.isEmpty then ofLiteral text else .state (String.ofList text))
  else if name = "keyboardType" then .string (catalog.keyboardType (String.ofList text))
  else if name = "autoCapitalize" then .string (catalog.capitalization (String.ofList text))
  else ofLiteral text

/-- A value as plain text. -/
def plainText : PropValue → String
  | string text => text
  | number value => Decimal.numberText value
  | bool value => toString value
  | expression code => code
  | navigation path => path
  | state name => name

/-- Whether a value turns a switch on. -/
def isTruthy : PropValue → Bool
  | bool value => value
  | number value => !Decimal.isZero value
  | string text => text != "" && text != "false"
  | expression code => trim code.toList != "false".toList
  | navigation _ => true
  | state _ => true

/-- The integer at the front of a text, with an optional sign; what follows it is ignored.  The
digits have to fit 64 signed bits. -/
def leadingInteger? (text : List Char) : Option Int :=
  let (negative, rest) := Decimal.readSign (trim text)
  let digits := rest.takeWhile isAsciiDigit
  let magnitude := Decimal.digitsValue digits
  if digits.isEmpty || Decimal.signedBound ≤ magnitude then none
  else some (if negative then -(magnitude : Int) else magnitude)

/-- The integer a value stands for. -/
def toInteger? : PropValue → Option Int
  | number value => some (Decimal.toClampedInt value)
  | string text => leadingInteger? text.toList
  | _ => none

end PropValue

end ScreenCompiler
