import ScreenCompiler.Decimal.Dyadic
import ScreenCompiler.Text.Affix
import ScreenCompiler.Text.Blank
import ScreenCompiler.Text.Word

/-!
# Reading decimals

A numeral is a sign, digits with at most one point among or beside them, and an
optional exponent.  It stands for an exact decimal, which is rounded once to the
nearest double.
-/

namespace ScreenCompiler.Decimal

open Text

/-- `digits * 10 ^ place`, negated when `negative`. -/
structure Numeral where
  negative : Bool
  digits : Nat
  place : Int
  deriving DecidableEq, Repr

def digitsValue (digits : List Char) : Nat :=
  digits.foldl (fun value c => 10 * value + (c.toNat - '0'.toNat)) 0

/-- A leading sign and what follows it. -/
def readSign : List Char → Bool × List Char
  | '-' :: rest => (true, rest)
  | '+' :: rest => (false, rest)
  | rest => (false, rest)

/-- Digits and nothing else, at least one. -/
def readDigits? (text : List Char) : Option Nat :=
  if text ≠ [] ∧ text.all isAsciiDigit then some (digitsValue text) else none

/-- The exponent part: nothing, or `e` with a signed integer. -/
def readExponent? : List Char → Option Int
  | [] => some 0
  | c :: rest =>
      if c = 'e' ∨ c = 'E' then
        let (negative, digits) := readSign rest
        (readDigits? digits).map fun value => if negative then -(value : Int) else value
      else none

/-- An unsigned numeral. -/
def readMagnitude? (negative : Bool) (text : List Char) : Option Numeral :=
  let (front, afterFront) := text.span isAsciiDigit
  let (fraction, afterFraction) := match afterFront with
    | '.' :: rest => rest.span isAsciiDigit
    | rest => ([], rest)
  if front.isEmpty && fraction.isEmpty then none
  else
    (readExponent? afterFraction).map fun exponent =>
      { negative, digits := digitsValue (front ++ fraction), place := exponent - fraction.length }

def readNumeral? (text : List Char) : Option Numeral :=
  let (negative, rest) := readSign text
  readMagnitude? negative rest

/-- Decimal exponents from which every numeral is past the greatest double. -/
def hugePlace : Int := 400

/-- The nearest double.  Exponents far outside the range of doubles are settled without
computing the power of ten. -/
def Numeral.toFloat (numeral : Numeral) : Float :=
  let leading := numeral.place + (Nat.toDigits 10 numeral.digits).length
  let magnitude : Float :=
    if numeral.digits = 0 ∨ leading < -hugePlace then 0
    else if hugePlace < leading then 1 / 0
    else Float.ofScientific numeral.digits (numeral.place < 0) numeral.place.natAbs
  if numeral.negative then -magnitude else magnitude

/-- The number a text is, blanks around it aside: a numeral within the finite doubles. -/
def number? (text : List Char) : Option Float :=
  (readNumeral? (trim text)).bind fun numeral =>
    if isFinite numeral.toFloat then some numeral.toFloat else none

def asciiLower (c : Char) : Char :=
  if 'A' ≤ c ∧ c ≤ 'Z' then Char.ofNat (c.toNat + 32) else c

/-- Any double: numerals of every size, and the words for infinity and for no number. -/
def double? (text : List Char) : Option Float :=
  let (negative, rest) := readSign text
  let word := String.ofList (rest.map asciiLower)
  if word = "inf" ∨ word = "infinity" then some (if negative then -1 / 0 else 1 / 0)
  else if word = "nan" then some (0 / 0)
  else (readNumeral? text).map Numeral.toFloat

end ScreenCompiler.Decimal
