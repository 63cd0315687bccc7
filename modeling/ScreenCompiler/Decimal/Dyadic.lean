import ScreenCompiler.Decimal.Bounds

/-!
# Doubles as exact values

A finite double is a sign and a natural number times a power of two.  Everything
the library decides about a number is decided on that exact value.
-/

namespace ScreenCompiler.Decimal

/-- What a double stands for. -/
inductive Exact where
  /-- `significand * 2 ^ exponent`, negated when `negative`. -/
  | finite (negative : Bool) (significand : Nat) (exponent : Int)
  | infinite (negative : Bool)
  | notANumber
  deriving DecidableEq, Repr

/-- One more than the greatest fraction field, and the hidden bit above it. -/
def fractionBound : Nat := 0x10000000000000

def Exact.ofFloat (x : Float) : Exact :=
  let bits := x.toBits.toNat
  let negative := signedBound ≤ bits
  let field : Nat := bits / fractionBound % 2048
  let fraction : Nat := bits % fractionBound
  if field = 2047 then
    (if fraction = 0 then .infinite negative else .notANumber)
  else if field = 0 then .finite negative fraction (-1074)
  else .finite negative (fractionBound + fraction) (field - 1075)

def isFinite (x : Float) : Bool :=
  match Exact.ofFloat x with
  | .finite .. => true
  | _ => false

/-- The integer that remains when the fraction is cut off. -/
def truncated (negative : Bool) (significand : Nat) (exponent : Int) : Int :=
  let magnitude :=
    if 0 ≤ exponent then significand * Nat.pow 2 exponent.toNat
    else significand / Nat.pow 2 (-exponent).toNat
  if negative then -(magnitude : Int) else magnitude

/-- The integer a double is, when it is one. -/
def whole? (x : Float) : Option Int :=
  match Exact.ofFloat x with
  | .finite negative significand exponent =>
      if 0 ≤ exponent ∨ significand % Nat.pow 2 (-exponent).toNat = 0 then
        some (truncated negative significand exponent)
      else none
  | _ => none

/-- The closest integer toward zero within 64 signed bits. -/
def toClampedInt (x : Float) : Int :=
  match Exact.ofFloat x with
  | .finite negative significand exponent =>
      max (-signedBound) (min (signedBound - 1) (truncated negative significand exponent))
  | .infinite negative => if negative then -signedBound else signedBound - 1
  | .notANumber => 0

/-- Zero of either sign. -/
def isZero (x : Float) : Bool :=
  whole? x == some 0

end ScreenCompiler.Decimal
