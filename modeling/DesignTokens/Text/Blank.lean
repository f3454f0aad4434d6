/-!
# Blanks

White space in any script, and trimming it from the ends of a text.

## Main definitions

- `isBlank` — the white-space characters
- `strip` — a text without the blanks at its ends
-/

namespace DesignTokens.Text

/-- White space: the line and field separators among the control characters, and every space. -/
def isBlank (c : Char) : Bool :=
  let n := c.toNat
  (9 ≤ n && n ≤ 13) || (28 ≤ n && n ≤ 32) || n == 0x85 || n == 0xA0 || n == 0x1680 ||
    (0x2000 ≤ n && n ≤ 0x200A) || n == 0x2028 || n == 0x2029 || n == 0x202F || n == 0x205F ||
    n == 0x3000

def stripList (cs : List Char) : List Char :=
  ((cs.dropWhile isBlank).reverse.dropWhile isBlank).reverse

def strip (s : String) : String :=
  String.ofList (stripList s.toList)

theorem toList_strip (s : String) : (strip s).toList = stripList s.toList := by
  simp [strip]

end DesignTokens.Text
