/-!
# Binary floating-point numbers

A 64-bit floating-point number is kept by its bits, so equality and case distinctions are those of
integers. A finite number is `m * 2 ^ q` for naturals `m` and integers `q`; a fraction is rounded to
the nearest number, ties to the even one, by exact integer arithmetic.

## Main definitions

- `Double` — a number by its bits
- `Double.decode` — the integers `m` and `q` of a finite number
- `Double.ofFraction` — the number nearest to a fraction
- `Double.ofDecimal` — the number nearest to a decimal
-/

namespace DesignTokens

def pow2 (n : Nat) : Nat := Nat.pow 2 n

def pow10 (n : Nat) : Nat := Nat.pow 10 n

/-- A 64-bit floating-point number, by its bits. -/
structure Double where
  bits : UInt64
  deriving DecidableEq, Repr

namespace Double

def isNegative (x : Double) : Bool :=
  x.bits >>> 63 == 1

def exponentBits (x : Double) : Nat :=
  ((x.bits >>> 52) &&& 0x7FF).toNat

def fractionBits (x : Double) : Nat :=
  (x.bits &&& 0xFFFFFFFFFFFFF).toNat

def isNaN (x : Double) : Bool :=
  x.exponentBits == 0x7FF && x.fractionBits != 0

def isInfinite (x : Double) : Bool :=
  x.exponentBits == 0x7FF && x.fractionBits == 0

def isFinite (x : Double) : Bool :=
  x.exponentBits != 0x7FF

def isZero (x : Double) : Bool :=
  x.exponentBits == 0 && x.fractionBits == 0

/-- The magnitude `m * 2 ^ q` of a finite number. -/
def decode (x : Double) : Nat × Int :=
  if x.exponentBits == 0 then (x.fractionBits, -1074)
  else (pow2 52 + x.fractionBits, (x.exponentBits : Int) - 1075)

/-- Sets the sign of the magnitude with the given bits. -/
def withSign (negative : Bool) (magnitude : Nat) : Double :=
  ⟨UInt64.ofNat (if negative then pow2 63 + magnitude else magnitude)⟩

def infinityBits : Nat := 0x7FF * pow2 52

def infinity : Double := withSign false infinityBits

def nan : Double := ⟨0x7FF8000000000000⟩

/-- A quotient rounded to the nearest integer, ties to the even one. -/
def roundQuotient (num den : Nat) : Nat :=
  let quotient := num / den
  let twice := 2 * (num % den)
  if twice < den then quotient
  else if twice > den then quotient + 1
  else quotient + quotient % 2

/-- The scale `e` for which `num / den` lies in `[2 ^ (e + 52), 2 ^ (e + 53))`, but no smaller than
that of the subnormal numbers. -/
def scaleOf (num den : Nat) : Int :=
  let guess : Int := (Nat.log2 num : Int) - (Nat.log2 den : Int) - 52
  let low := num * pow2 (-guess).toNat < den * pow2 guess.toNat * pow2 52
  let e := if low then guess - 1 else guess
  if e < -1074 then -1074 else e

/-- The number nearest to the fraction `num / den`, ties to the even one. -/
def ofFraction (negative : Bool) (num den : Nat) : Double :=
  if num == 0 || den == 0 then withSign negative 0
  else
    let e := scaleOf num den
    if e > 971 then withSign negative infinityBits
    else
      let m := roundQuotient (num * pow2 (-e).toNat) (den * pow2 e.toNat)
      withSign negative (min infinityBits ((e + 1074).toNat * pow2 52 + m))

def digitCount (n : Nat) : Nat :=
  (Nat.toDigits 10 n).length

/-- The number nearest to `digits * 10 ^ exponent`. Decimals far outside the range of finite numbers
are not expanded. -/
def ofDecimal (negative : Bool) (digits : Nat) (exponent : Int) : Double :=
  let top := (digitCount digits : Int) + exponent
  if digits == 0 || top < -400 then withSign negative 0
  else if top > 400 then withSign negative infinityBits
  else ofFraction negative (digits * pow10 exponent.toNat) (pow10 (-exponent).toNat)

def ofInt (n : Int) : Double :=
  ofFraction (n < 0) n.natAbs 1

/-- A number divided by a positive integer. -/
def divNat (x : Double) (n : Nat) : Double :=
  if x.isNaN || x.isInfinite || n == 0 then x
  else
    let (m, q) := x.decode
    ofFraction x.isNegative (m * pow2 q.toNat) (n * pow2 (-q).toNat)

/-- The integer that a finite number equals, if it is one. -/
def toInt? (x : Double) : Option Int :=
  if x.isNaN || x.isInfinite then none
  else
    let (m, q) := x.decode
    let num := m * pow2 q.toNat
    let den := pow2 (-q).toNat
    if num % den == 0 then
      let n : Int := ((num / den : Nat) : Int)
      some (if x.isNegative then -n else n)
    else none

def scaleNat (x : Double) (n : Nat) : Double :=
  let (m, q) := x.decode
  ofFraction false (m * n * pow2 q.toNat) (pow2 (-q).toNat)

/-- The sum of two non-negative finite numbers. -/
def plus (x y : Double) : Double :=
  let (m, q) := x.decode
  let (n, r) := y.decode
  let low := min q r
  let sum := m * pow2 (q - low).toNat + n * pow2 (r - low).toNat
  ofFraction false (sum * pow2 low.toNat) (pow2 (-low).toNat)

def negate (x : Double) : Double :=
  ⟨x.bits ^^^ 0x8000000000000000⟩

/-- Numeric equality: the two zeros are equal, and not-a-number equals nothing. -/
def same (x y : Double) : Bool :=
  !x.isNaN && !y.isNaN && (x == y || (x.isZero && y.isZero))

end Double

end DesignTokens
