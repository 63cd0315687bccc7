import ScreenCompiler.Decimal.Layout
import ScreenCompiler.Decimal.Reading

/-!
# JSON numbers

The text of a number is kept in parts.  A whole number within 64 bits stays an
integer.  Any other becomes a double in two steps, as widespread readers do: the
digits that fit 64 bits are gathered into a significand, which is rounded, and then
one multiplication or division by a power of ten rounds again.
-/

namespace ScreenCompiler.Json

open Decimal Text

/-- A number as written: sign, digits before the point, digits behind it, exponent. -/
structure NumberText where
  negative : Bool
  front : List Char
  fraction : Option (List Char)
  exponent : Option Int
  deriving DecidableEq, Repr

/-- Digits before the point: a single zero, or digits that start with another one. -/
def isFront : List Char → Bool
  | [] => false
  | ['0'] => true
  | c :: rest => c != '0' && (c :: rest).all isAsciiDigit

/-- The part behind the point; absent when there is no point. -/
def readFraction? : List Char → Option (Option (List Char) × List Char)
  | '.' :: rest =>
      let (digits, after) := rest.span isAsciiDigit
      if digits.isEmpty then none else some (some digits, after)
  | rest => some (none, rest)

def NumberText.read? (text : List Char) : Option NumberText :=
  let (negative, unsigned) := match text with
    | '-' :: rest => (true, rest)
    | rest => (false, rest)
  let (front, afterFront) := unsigned.span isAsciiDigit
  if isFront front then
    (readFraction? afterFront).bind fun (fraction, afterFraction) =>
      if afterFraction.isEmpty then some { negative, front, fraction, exponent := none }
      else (readExponent? afterFraction).map fun exponent =>
        { negative, front, fraction, exponent := some exponent }
  else none

/-- A number value: an integer within 64 bits, or a double. -/
inductive Number where
  | integer (value : Int)
  | double (value : Float)
  deriving DecidableEq

/-- Digits gathered while the value fits 64 bits, and the digits left over. -/
def gather (value : Nat) : List Char → Nat × List Char
  | [] => (value, [])
  | c :: digits =>
      let next := 10 * value + (c.toNat - '0'.toNat)
      if next < wordBound then gather next digits else (value, c :: digits)

/-- The greatest power of ten used in one step. -/
def stepPlaces : Nat := 308

def powerOfTen (places : Nat) : Float :=
  Float.ofScientific 1 false places

/-- Division by a power of ten, in steps that stay within the doubles. -/
def shrink (value : Float) (places : Nat) : Float :=
  if places ≤ stepPlaces then value / powerOfTen places
  else if isZero value then value
  else shrink (value / powerOfTen stepPlaces) (places - stepPlaces)
termination_by places
decreasing_by simp [stepPlaces] at *; omega

/-- A significand times a power of ten; nothing when it is past the doubles. -/
def scaled? (significand : Nat) (place : Int) : Option Float :=
  let value := Float.ofScientific significand false 0
  if place < 0 then some (shrink value place.natAbs)
  else if stepPlaces < place.toNat then (if significand = 0 then some value else none)
  else
    let product := value * powerOfTen place.toNat
    if isFinite product then some product else none

def signed (negative : Bool) (value : Float) : Float :=
  if negative then -value else value

namespace NumberText

def toDouble? (number : NumberText) : Option Float :=
  let (front, unread) := gather 0 number.front
  let fraction := number.fraction.getD []
  let (significand, ignored) := gather front fraction
  let place : Int := unread.length - (fraction.length - ignored.length : Nat)
  (scaled? significand (place + number.exponent.getD 0)).map (signed number.negative)

/-- The value of a number; nothing when it is past the doubles.  Minus zero is a double. -/
def value? (number : NumberText) : Option Number :=
  match number.fraction, number.exponent, gather 0 number.front with
  | none, none, (value, []) =>
      if number.negative then
        (if 0 < value ∧ value ≤ signedBound then some (.integer (-value))
          else some (.double (-Float.ofScientific value false 0)))
      else some (.integer value)
  | _, _, _ => number.toDouble?.map .double

end NumberText

/-- The digits of a double as JSON writes them: a whole number keeps `.0`, and an exponent is
used below `1e-5` and from `1e16` up. -/
def doubleLayout : Layout :=
  { positionalFrom := some (-5), positionalBelow := some 16, pointZero := true, tie := .even }

namespace Number

def text : Number → String
  | integer value => toString value
  | double value => doubleLayout.text value

def toFloat : Number → Float
  | integer value =>
      signed (value < 0) (Float.ofScientific value.natAbs false 0)
  | double value => value

/-- The integers that doubles hold without gaps stay integers. -/
def exactBound : Nat := 0x20000000000000

/-- The number value of a double: an integer where no digit can be lost. -/
def ofFloat (x : Float) : Number :=
  match Decimal.whole? x with
  | some n => if n.natAbs < exactBound then .integer n else .double x
  | none => .double x

end Number

end ScreenCompiler.Json
