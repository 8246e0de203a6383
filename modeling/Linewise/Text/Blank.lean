/-! # Blank characters

The blanks are the Unicode characters with the white-space property together
with the four ASCII separators U+001C to U+001F. Blanks separate tokens, and a
line is read without the blanks at its two ends.
-/

namespace Linewise.Text

/-- The blanks: ASCII controls and separators, NEL, the no-break space and the Unicode spaces. -/
def isBlank (c : Char) : Bool :=
  let n := c.toNat
  (9 ≤ n && n ≤ 13) || (0x1C ≤ n && n ≤ 0x20) || n == 0x85 || n == 0xA0 || n == 0x1680 ||
    (0x2000 ≤ n && n ≤ 0x200A) || n == 0x2028 || n == 0x2029 || n == 0x202F || n == 0x205F ||
    n == 0x3000

def stripRight (cs : List Char) : List Char :=
  (cs.reverse.dropWhile isBlank).reverse

def strip (cs : List Char) : List Char :=
  stripRight (cs.dropWhile isBlank)

end Linewise.Text
