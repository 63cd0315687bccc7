/-!
# Hexadecimal digits
-/

namespace ScreenCompiler.Text

/-- The digit of a value below sixteen, in small letters. -/
def hexDigit (value : Nat) : Char :=
  if value < 10 then Char.ofNat ('0'.toNat + value) else Char.ofNat ('a'.toNat + (value - 10))

end ScreenCompiler.Text
