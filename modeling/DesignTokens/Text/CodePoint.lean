/-!
# Code points

A text is a sequence of code points. An escape may name a lone surrogate, which is no character and
has no octets in UTF-8. In a text one of the last 2048 private-use characters stands for it, in the
order of the surrogates. Such a character stands for nothing else.

## Main definitions

- `ofCodePoint`, `codePoint` — the character for a code point, and the code point of a character
- `isSurrogate` — whether a character stands for a surrogate
-/

namespace DesignTokens.Text

/-- The number of the first character that stands for a surrogate. -/
def firstStandIn : Nat := 0x10F800

/-- The character for a code point. -/
def ofCodePoint (n : Nat) : Char :=
  if 0xD800 ≤ n && n < 0xE000 then Char.ofNat (firstStandIn + (n - 0xD800)) else Char.ofNat n

/-- Whether a character stands for a surrogate. -/
def isSurrogate (c : Char) : Bool :=
  firstStandIn ≤ c.toNat

/-- The code point of a character. -/
def codePoint (c : Char) : Nat :=
  if isSurrogate c then 0xD800 + (c.toNat - firstStandIn) else c.toNat

theorem toNat_ofNat {n : Nat} (h : n < 55296 ∨ 57343 < n ∧ n < 1114112) :
    (Char.ofNat n).toNat = n := by
  have hvalid : n.isValidChar := h
  rw [Char.ofNat, dif_pos hvalid]
  rfl

/-- The code points before the characters that stand for surrogates are told apart. -/
theorem codePoint_ofCodePoint {n : Nat} (h : n < firstStandIn) : codePoint (ofCodePoint n) = n := by
  have hlimit : n < 0x10F800 := h
  by_cases hsurrogate : 0xD800 ≤ n ∧ n < 0xE000
  · have hn : (ofCodePoint n).toNat = firstStandIn + (n - 0xD800) := by
      rw [ofCodePoint, if_pos (by simpa using hsurrogate)]
      exact toNat_ofNat (by rw [firstStandIn]; omega)
    rw [codePoint, isSurrogate, hn, if_pos (by simp)]
    omega
  · have hn : (ofCodePoint n).toNat = n := by
      rw [ofCodePoint, if_neg (by simpa using hsurrogate)]
      exact toNat_ofNat (by omega)
    rw [codePoint, isSurrogate, hn, if_neg (by simpa using h)]

end DesignTokens.Text
