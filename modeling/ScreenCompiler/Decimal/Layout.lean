import ScreenCompiler.Decimal.Shortest

/-!
# Layouts of decimal text

How the digits of a number are laid out is a record of choices; each format the
library writes has its own record and shares this writer.
-/

namespace ScreenCompiler.Decimal

structure Layout where
  /-- Leading decimal exponents below this one are written with an exponent. -/
  positionalFrom : Option Int
  /-- Leading decimal exponents from this one up are written with an exponent. -/
  positionalBelow : Option Int
  /-- Whole numbers end in `.0`. -/
  pointZero : Bool
  tie : Tie

namespace Layout

/-- Never an exponent, and no point in whole numbers. -/
def plain : Layout :=
  { positionalFrom := none, positionalBelow := none, pointZero := false, tie := .up }

def isPositional (layout : Layout) (leading : Int) : Bool :=
  (match layout.positionalFrom with | none => true | some least => least ≤ leading) &&
    (match layout.positionalBelow with | none => true | some bound => leading < bound)

/-- Digits without trailing zeros, and the place of the last digit kept. -/
def stripZeros (digits : List Char) (place : Int) : List Char × Int :=
  let kept := (digits.reverse.dropWhile (· == '0')).reverse
  (kept, place + (digits.length - kept.length : Nat))

def zeros (count : Nat) : List Char :=
  List.replicate count '0'

def positional (layout : Layout) (digits : List Char) (place : Int) : List Char :=
  if 0 ≤ place then
    digits ++ zeros place.toNat ++ (if layout.pointZero then ['.', '0'] else [])
  else
    let behind := (-place).toNat
    if behind < digits.length then
      digits.take (digits.length - behind) ++ '.' :: digits.drop (digits.length - behind)
    else '0' :: '.' :: zeros (behind - digits.length) ++ digits

def scientific (digits : List Char) (leading : Int) : List Char :=
  let mantissa := match digits with
    | [] => []
    | [d] => [d]
    | d :: rest => d :: '.' :: rest
  let sign := if 0 ≤ leading then '+' else '-'
  mantissa ++ 'e' :: sign :: Nat.toDigits 10 leading.natAbs

def magnitude (layout : Layout) (significand : Nat) (exponent : Int) : List Char :=
  if significand = 0 then
    '0' :: (if layout.pointZero then ['.', '0'] else [])
  else
    let (d, lastPlace) := (Interval.ofFinite significand exponent).shortest layout.tie
    let (digits, place) := stripZeros (Nat.toDigits 10 d) lastPlace
    let leading := place + digits.length - 1
    if layout.isPositional leading then layout.positional digits place
    else scientific digits leading

/-- The text of a double. -/
def text (layout : Layout) (x : Float) : String :=
  match Exact.ofFloat x with
  | .notANumber => "NaN"
  | .infinite negative => if negative then "-inf" else "inf"
  | .finite negative significand exponent =>
      (if negative then "-" else "") ++ String.ofList (layout.magnitude significand exponent)

end Layout

/-- The largest whole numbers written as integers have fifteen digits. -/
def wholeBound : Nat := 1000000000000000

/-- A number as it stands in generated code: whole numbers without point or sign of zero, all
others with the fewest digits that read back. -/
def numberText (x : Float) : String :=
  match whole? x with
  | some n => if n.natAbs < wholeBound then toString n else Layout.plain.text x
  | none => Layout.plain.text x

end ScreenCompiler.Decimal
