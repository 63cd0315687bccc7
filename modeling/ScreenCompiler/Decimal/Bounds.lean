/-!
# Bounds of 64 bits
-/

namespace ScreenCompiler.Decimal

/-- The natural numbers of 64 bits lie below. -/
def wordBound : Nat := 0x10000000000000000

/-- The integers of 64 signed bits lie below, and from its negative up. -/
def signedBound : Nat := 0x8000000000000000

end ScreenCompiler.Decimal
