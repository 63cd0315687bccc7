/-!
# Blank characters

A character is blank when it has the Unicode property `White_Space`: the ASCII
blanks, the next-line and no-break spaces, and the typographic spaces.  The
zero-width characters are not blank.  Every trim in the library cuts exactly
these characters.
-/

namespace ScreenCompiler.Text

/-- The characters with the property `White_Space`. -/
def isBlank (c : Char) : Bool :=
  let point := c.toNat
  (0x09 ≤ point && point ≤ 0x0D) || point == 0x20 || point == 0x85 || point == 0xA0 ||
    point == 0x1680 || (0x2000 ≤ point && point ≤ 0x200A) || point == 0x2028 ||
    point == 0x2029 || point == 0x202F || point == 0x205F || point == 0x3000

def trimStart (text : List Char) : List Char :=
  text.dropWhile isBlank

def trimEnd (text : List Char) : List Char :=
  (text.reverse.dropWhile isBlank).reverse

def trim (text : List Char) : List Char :=
  trimEnd (trimStart text)

def isAllBlank (text : List Char) : Bool :=
  text.all isBlank

/-- The maximal runs of characters that are not blank, in order. -/
def words (text : List Char) : List (List Char) :=
  (text.splitOnP isBlank).filter (!·.isEmpty)

@[simp]
theorem trimStart_nil : trimStart [] = [] := rfl

theorem trimStart_cons_of_blank {c : Char} {text : List Char} (blank : isBlank c = true) :
    trimStart (c :: text) = trimStart text := by
  simp [trimStart, blank]

theorem trimStart_cons_of_not_blank {c : Char} {text : List Char} (solid : isBlank c = false) :
    trimStart (c :: text) = c :: text := by
  simp [trimStart, solid]

end ScreenCompiler.Text
