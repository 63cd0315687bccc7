/-!
# Stretches of code points

Classes of characters are tables of stretches: a first and a last code point and
the step between neighbours.  A step of two lists the cased alphabets in which
capital and small letters alternate.
-/

namespace ScreenCompiler.Text

structure Stretch where
  first : Nat
  last : Nat
  step : Nat

namespace Stretch

def holds (stretch : Stretch) (point : Nat) : Bool :=
  stretch.first ≤ point && point ≤ stretch.last && (point - stretch.first) % stretch.step == 0

def ofTriple (triple : Nat × Nat × Nat) : Stretch :=
  ⟨triple.1, triple.2.1, triple.2.2⟩

end Stretch

/-- Whether a code point lies on some stretch of a table. -/
def inTable (table : List (Nat × Nat × Nat)) (point : Nat) : Bool :=
  table.any fun triple => (Stretch.ofTriple triple).holds point

end ScreenCompiler.Text
