import DesignTokens.Decimal.Binary

/-!
# Shortest decimals

The text of a floating-point number is the decimal with the fewest digits that reads back to it; of
several, the nearest. Selection works on the exact interval of reals that round to the number. The
layout is positional for magnitudes from `10 ^ -4` up to `10 ^ 16` and exponential beyond.

## Main definitions

- `Double.readsBack` — whether a decimal lies in the rounding interval of a magnitude
- `Double.shortest` — the selected digits and their exponent
- `Double.render` — the number's text
-/

namespace DesignTokens.Double

/-- The decimal `digits * 10 ^ exponent`. -/
structure Decimal where
  digits : Nat
  exponent : Int
  deriving DecidableEq, Repr

/-- Compares `a * 10 ^ i` with `n * 2 ^ j`, exactly. -/
def compareScaled (a : Nat) (i : Int) (n : Nat) (j : Int) : Ordering :=
  compare (a * pow10 i.toNat * pow2 (-j).toNat) (n * pow2 j.toNat * pow10 (-i).toNat)

/-- Whether a decimal lies among the reals that round to the magnitude `m * 2 ^ q`. The ends of that
interval belong to it when `m` is even, and it is narrow below a power of two. -/
def readsBack (x : Double) (d : Decimal) : Bool :=
  let (m, q) := x.decode
  let narrow := x.fractionBits == 0 && x.exponentBits > 1
  let low := compareScaled d.digits d.exponent (if narrow then 4 * m - 1 else 4 * m - 2) (q - 2)
  let high := compareScaled d.digits d.exponent (4 * m + 2) (q - 2)
  let even := m % 2 == 0
  (low == .gt || (even && low == .eq)) && (high == .lt || (even && high == .eq))

/-- The least `k`, counted up from `start`, with `num < 10 ^ k * den`. -/
def leastPower (num den : Nat) : Nat → Int → Int
  | 0, start => start
  | fuel + 1, start =>
    if num * pow10 (-start).toNat < pow10 start.toNat * den then start
    else leastPower num den fuel (start + 1)

/-- The number of digits before the point of `num / den`; negative when zeros follow the point. -/
def pointPosition (num den : Nat) : Int :=
  let bits : Int := (Nat.log2 num : Int) - (Nat.log2 den : Int) - 1
  let start := bits * 30103 / 100000 - 1
  leastPower num den 8 start

/-- The decimals with `count` digits next to `num / den`, the nearer one first; of two equally near
ones, the even one. -/
def neighbours (num den : Nat) (position : Int) (count : Nat) : List Decimal :=
  let exponent := position - count
  let top := num * pow10 (-exponent).toNat
  let bottom := den * pow10 exponent.toNat
  let below := top / bottom
  let twice := 2 * (top % bottom)
  let lower : Decimal := ⟨below, exponent⟩
  let upper : Decimal := ⟨below + 1, exponent⟩
  if twice < bottom || (twice == bottom && below % 2 == 0) then [lower, upper] else [upper, lower]

/-- Digits without the zeros at their end. -/
def dropZeros : Nat → Decimal → Decimal
  | 0, d => d
  | fuel + 1, d =>
    if d.digits != 0 && d.digits % 10 == 0 then dropZeros fuel ⟨d.digits / 10, d.exponent + 1⟩
    else d

/-- The decimal with the fewest digits that reads back to the magnitude of a finite number other
than zero. Seventeen digits always suffice. -/
def shortest (x : Double) : Decimal :=
  let (m, q) := x.decode
  let num := m * pow2 q.toNat
  let den := pow2 (-q).toNat
  let position := pointPosition num den
  let found := (List.range 17).findSome? fun count =>
    (neighbours num den position (count + 1)).find? x.readsBack
  match found with
  | some d => dropZeros 20 d
  | none => ⟨0, 0⟩

def zeros (n : Nat) : String :=
  String.ofList (List.replicate n '0')

/-- An exponent with its sign and at least two digits. -/
def renderExponent (e : Int) : String :=
  let size := e.natAbs
  (if e < 0 then "e-" else "e+") ++ (if size < 10 then "0" else "") ++ toString size

/-- The layout of a decimal other than zero. -/
def layout (d : Decimal) : String :=
  let digits := toString d.digits
  let count := digits.length
  let leading : Int := d.exponent + count - 1
  if leading < -4 || leading ≥ 16 then
    let head := String.ofList (digits.toList.take 1)
    let tail := String.ofList (digits.toList.drop 1)
    (if tail == "" then head else head ++ "." ++ tail) ++ renderExponent leading
  else if leading < 0 then
    "0." ++ zeros (-leading - 1).toNat ++ digits
  else if d.exponent ≥ 0 then
    digits ++ zeros d.exponent.toNat ++ ".0"
  else
    let whole := (leading + 1).toNat
    String.ofList (digits.toList.take whole) ++ "." ++ String.ofList (digits.toList.drop whole)

/-- The text of a number. -/
def render (x : Double) : String :=
  if x.isNaN then "nan"
  else
    let sign := if x.isNegative then "-" else ""
    if x.isInfinite then sign ++ "inf"
    else if x.isZero then sign ++ "0.0"
    else sign ++ layout x.shortest

end DesignTokens.Double
