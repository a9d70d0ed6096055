/-!
# Blanks

`isBlank` is the Unicode property `White_Space`; `trimChars` drops the blanks at both ends of a
text.
-/

namespace ObjectFlow.Text

/-- Holds for the 25 characters with the Unicode property `White_Space`. -/
def isBlank (c : Char) : Bool :=
  let n := c.toNat
  (9 ≤ n && n ≤ 13) || n == 0x20 || n == 0x85 || n == 0xA0 || n == 0x1680
    || (0x2000 ≤ n && n ≤ 0x200A) || n == 0x2028 || n == 0x2029 || n == 0x202F || n == 0x205F
    || n == 0x3000

/-- Drops the blanks at the front. -/
def dropBlanks (l : List Char) : List Char :=
  l.dropWhile isBlank

/-- Drops the blanks at both ends. -/
def trimChars (l : List Char) : List Char :=
  (dropBlanks (dropBlanks l).reverse).reverse

end ObjectFlow.Text
