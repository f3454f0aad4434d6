import DesignTokens.Text.Blank

/-!
# Whole numbers

A whole number is written with an optional sign and decimal digits of any script. Single underscores
may stand between digits, and blanks around the whole.

## Main definitions

- `digit?` — the value of a decimal digit
- `wholeNumber?` — the number that a text stands for
-/

namespace DesignTokens.Text

/-- The digits for zero beyond ASCII. The nine digits that follow each of them are consecutive. -/
def zeroDigits : List Nat :=
  [1632, 1776, 1984, 2406, 2534, 2662, 2790, 2918, 3046, 3174, 3302, 3430, 3558, 3664, 3792, 3872,
   4160, 4240, 6112, 6160, 6470, 6608, 6784, 6800, 6992, 7088, 7232, 7248, 42528, 43216, 43264,
   43472, 43504, 43600, 44016, 65296, 66720, 68912, 69734, 69872, 69942, 70096, 70384, 70736,
   70864, 71248, 71360, 71472, 71904, 72016, 72784, 73040, 73120, 92768, 92864, 93008, 120782,
   120792, 120802, 120812, 120822, 123200, 123632, 125264, 130032]
/-- The value of a character among the ten digits that start at a code point. -/
def digitFrom? (first n : Nat) : Option Nat :=
  if first ≤ n && n < first + 10 then some (n - first) else none

def digit? (c : Char) : Option Nat :=
  (48 :: zeroDigits).findSome? fun first => digitFrom? first c.toNat

/-- The number that digits stand for behind the digits already read. -/
def digitsValue? (value : Nat) : List Char → Option Nat
  | [] => some value
  | '_' :: c :: rest => (digit? c).bind fun d => digitsValue? (10 * value + d) rest
  | c :: rest => (digit? c).bind fun d => digitsValue? (10 * value + d) rest

/-- The number that digits stand for. There is at least one, and a digit comes first. -/
def naturalNumber? : List Char → Option Nat
  | [] => none
  | c :: rest => (digit? c).bind fun d => digitsValue? d rest

/-- The number that characters without blanks around them stand for. -/
def signedNumber? : List Char → Option Int
  | '-' :: rest => (naturalNumber? rest).map fun n => -(n : Int)
  | '+' :: rest => (naturalNumber? rest).map Int.ofNat
  | cs => (naturalNumber? cs).map Int.ofNat

/-- The number that a text stands for. -/
def wholeNumber? (s : String) : Option Int :=
  signedNumber? (stripList s.toList)

end DesignTokens.Text
