/-
Blank characters, and texts without blanks at their ends.
-/
import Tern.Text.Ranges

namespace Tern.Text

/-- The code points of blank characters: blanks, tabs, line ends and the wide blanks beyond
ASCII. -/
def blank : Ranges := [
    (0x9, 0xd), (0x20, 0x20), (0x85, 0x85), (0xa0, 0xa0), (0x1680, 0x1680), (0x2000, 0x200a),
    (0x2028, 0x2029), (0x202f, 0x202f), (0x205f, 0x205f), (0x3000, 0x3000)]

/-- Whether a character is blank. -/
def isBlank (c : Char) : Bool := blank.has c

/-- The text without the blanks at its two ends. -/
def trim (cs : List Char) : List Char :=
  ((cs.dropWhile isBlank).reverse.dropWhile isBlank).reverse

end Tern.Text
