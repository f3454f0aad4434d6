import DesignTokens.Document.Raw
import DesignTokens.Text.Case
import DesignTokens.Text.WholeNumber
import DesignTokens.Yaml.Cursor

/-!
# Types of scalars

A plain scalar has the type that its form shows: null, truth value, integer, floating-point number
or stamp, and text where no form fits. Integers may be binary, octal, hexadecimal or in groups of
base sixty, and digits may be parted by low lines.

## Main definitions

- `ScalarType` — the types of scalars
- `implicitType` — the type that a plain scalar shows
- `scalarValue` — the value of a scalar of a type
-/

namespace DesignTokens.Yaml

/-- The type of a scalar. `merge` and `default` are the types of the two keys with a meaning of their
own. -/
inductive ScalarType where
  | null
  | bool
  | int
  | float
  | stamp
  | text
  | merge
  | default
  deriving DecidableEq, Repr

def boolWords : List (String × Bool) :=
  [("yes", true), ("no", false), ("true", true), ("false", false), ("on", true), ("off", false)]

/-- Whether a word is written in lower case, in upper case or with a capital. -/
def isCased (word : String) (s : String) : Bool :=
  s = word || s = word.toUpper || s = word.capitalize

def isDigit (c : Char) : Bool :=
  '0' ≤ c && c ≤ '9'

/-- A decimal digit, or the low line between digits. -/
def isDigitOrLine (c : Char) : Bool :=
  isDigit c || c = '_'

def afterSign : List Char → List Char
  | '+' :: rest => rest
  | '-' :: rest => rest
  | cs => cs

/-- Whether a list is not empty and all of its items satisfy a condition. -/
def isRun (p : Char → Bool) (cs : List Char) : Bool :=
  !cs.isEmpty && cs.all p

/-- Digits and low lines that start with a digit. -/
def isDigitRun (cs : List Char) : Bool :=
  (cs.head?.map isDigit).getD false && cs.all isDigitOrLine

/-- A group of base sixty: one digit, or two below sixty. -/
def isSixty : List Char → Bool
  | [a] => isDigit a
  | [a, b] => isDigit a && a < '6' && isDigit b
  | _ => false

/-- Whether characters after a sign have the form of an integer. -/
def isWhole : List Char → Bool
  | '0' :: 'b' :: rest => isRun (fun c => c = '0' || c = '1' || c = '_') rest
  | '0' :: 'x' :: rest =>
    isRun (fun c => isDigitOrLine c || ('a' ≤ c && c ≤ 'f') || ('A' ≤ c && c ≤ 'F')) rest
  | '0' :: rest => rest.all fun c => ('0' ≤ c && c ≤ '7') || c = '_'
  | cs =>
    match Text.splitList ':' cs with
    | first :: groups => isDigitRun first && groups.all isSixty
    | [] => false

/-- An exponent with its sign, or nothing. -/
def isExponent : List Char → Bool
  | [] => true
  | e :: sign :: digits =>
    (e = 'e' || e = 'E') && (sign = '+' || sign = '-') && isRun isDigit digits
  | _ => false

/-- Whether characters have the form of a fraction after their point. -/
def isFraction (cs : List Char) : Bool :=
  isExponent (cs.dropWhile isDigitOrLine)

/-- Whether characters have the form of a number with a point. -/
def isPointed (cs : List Char) : Bool :=
  let unsigned := afterSign cs
  let whole := unsigned.takeWhile (· ≠ '.')
  match unsigned.dropWhile (· ≠ '.') with
  | [] => false
  | _ :: decimals =>
    if whole.isEmpty then
      ["inf", "Inf", "INF"].contains (String.ofList decimals) ||
        (cs.head? == some '.' && (["nan", "NaN", "NAN"].contains (String.ofList decimals) ||
          ((decimals.head?.map isDigit).getD false && isFraction decimals)))
    else
      match Text.splitList ':' whole with
      | [digits] => isDigitRun digits && isFraction decimals
      | first :: groups => isDigitRun first && groups.all isSixty && decimals.all isDigitOrLine
      | [] => false

/-- A stamp in digits, with what the time zone says: nothing, Greenwich, or an offset. -/
structure StampText where
  year : Nat
  month : Nat
  day : Nat
  time : Option (Nat × Nat × Nat × List Char)
  offset : Option Int

def decimal (cs : List Char) : Nat :=
  cs.foldl (fun n c => 10 * n + (c.toNat - 48)) 0

/-- One or two digits up to a separator, and what comes after it. -/
def shortNumber? (separator : Char) (cs : List Char) : Option (Nat × List Char) :=
  let digits := cs.takeWhile isDigit
  match cs.dropWhile isDigit with
  | c :: rest =>
    if c = separator && 1 ≤ digits.length && digits.length ≤ 2 then some (decimal digits, rest)
    else none
  | [] => none

def twoDigits? : List Char → Option (Nat × List Char)
  | a :: b :: rest => if isDigit a && isDigit b then some (decimal [a, b], rest) else none
  | _ => none

/-- The offset of a time zone in minutes: nothing, the letter Z, or hours and minutes. -/
def zone? (cs : List Char) : Option (Option Int) :=
  match cs.dropWhile isBlank with
  | [] => if cs.isEmpty then some none else none
  | ['Z'] => some (some 0)
  | sign :: rest =>
    if sign = '+' || sign = '-' then
      let hours := rest.takeWhile isDigit
      let minutes := match rest.dropWhile isDigit with
        | [] => some 0
        | [':', a, b] => (twoDigits? [a, b]).map Prod.fst
        | _ => none
      if 1 ≤ hours.length && hours.length ≤ 2 then
        minutes.map fun m =>
          let total : Int := ((decimal hours * 60 + m : Nat) : Int)
          some (if sign = '-' then -total else total)
      else none
    else none

/-- A time of day with its time zone, from its hour. -/
def time? (cs : List Char) : Option ((Nat × Nat × Nat × List Char) × Option Int) := do
  let (hour, cs) ← shortNumber? ':' cs
  let (minute, cs) ← twoDigits? cs
  match cs with
  | ':' :: cs =>
    let (second, cs) ← twoDigits? cs
    let (fraction, cs) := match cs with
      | '.' :: rest => (rest.takeWhile isDigit, rest.dropWhile isDigit)
      | _ => ([], cs)
    let offset ← zone? cs
    some ((hour, minute, second, fraction), offset)
  | _ => none

/-- The time of day after a day: behind the letter T or behind blanks. -/
def timeAfterDay? (cs : List Char) : Option ((Nat × Nat × Nat × List Char) × Option Int) :=
  match cs with
  | c :: rest =>
    if c = 'T' || c = 't' then time? rest
    else if isBlank c then time? (rest.dropWhile isBlank)
    else none
  | [] => none

/-- The day or the time that a scalar has the form of. A day alone has all of its zeros. -/
def stampText? (cs : List Char) : Option StampText :=
  let year := cs.take 4
  match cs.drop 4 with
  | '-' :: rest =>
    if year.length = 4 && year.all isDigit then do
      let (month, afterMonth) ← shortNumber? '-' rest
      let days := (afterMonth.takeWhile isDigit)
      let left := afterMonth.dropWhile isDigit
      if left.isEmpty then
        if rest.length = 5 && days.length = 2 then
          some ⟨decimal year, month, decimal days, none, none⟩
        else none
      else if 1 ≤ days.length && days.length ≤ 2 then
        let (time, offset) ← timeAfterDay? left
        some ⟨decimal year, month, decimal days, some time, offset⟩
      else none
    else none
  | _ => none

/-- The type that a plain scalar shows. -/
def implicitType (s : String) : ScalarType :=
  let cs := s.toList
  if ["", "~", "null", "Null", "NULL"].contains s then .null
  else if boolWords.any fun word => isCased word.1 s then .bool
  else if isPointed cs then .float
  else if isWhole (afterSign cs) then .int
  else if (stampText? cs).isSome then .stamp
  else if s = "<<" then .merge
  else if s = "=" then .default
  else .text

/-- A value that does not exist. -/
def impossible {α : Type} (fault : ScalarFault) : Except Fault α :=
  .error (.impossible fault)

/-- The value of a digit or a letter in a base. -/
def digitIn? (base : Nat) (c : Char) : Option Nat :=
  let n := if 'a' ≤ c && c ≤ 'z' then some (c.toNat - 87)
    else if 'A' ≤ c && c ≤ 'Z' then some (c.toNat - 55)
    else Text.digit? c
  n.filter (· < base)

/-- The number of digits in a base. There is at least one. -/
def digitsIn? (base : Nat) (cs : List Char) : Option Nat :=
  if cs.isEmpty then none
  else cs.foldlM (fun n c => (digitIn? base c).map (base * n + ·)) 0

/-- The digits after the mark of their base, which may be left out. -/
def afterMark (base : Nat) (cs : List Char) : List Char :=
  match cs with
  | '0' :: mark :: rest =>
    let letters := if base = 2 then ['b', 'B'] else if base = 8 then ['o', 'O']
      else if base = 16 then ['x', 'X'] else []
    if letters.contains mark then rest else cs
  | _ => cs

/-- The integer of digits in a base, between blanks and with a sign, or the fault of another text. -/
def digitsIn (base : Nat) (cs : List Char) : Except Fault Int :=
  let trimmed := Text.stripList cs
  match digitsIn? base (afterMark base (afterSign trimmed)) with
  | some n => .ok (if trimmed.head? == some '-' then -n else n)
  | none => impossible (.noInteger base (String.ofList cs))

/-- A number in groups of base sixty. -/
def sixties (groups : List (List Char)) : Except Fault Int := do
  let numbers ← groups.mapM (digitsIn 10)
  .ok (numbers.foldl (fun n group => 60 * n + group) 0)

/-- The integer of digits without sign and low lines. -/
def wholeValue (cs : List Char) : Except Fault Int :=
  match cs with
  | [] => impossible .noDigits
  | '0' :: 'b' :: rest => digitsIn 2 rest
  | '0' :: 'x' :: rest => digitsIn 16 rest
  | ['0'] => .ok 0
  | '0' :: _ => digitsIn 8 cs
  | _ => if cs.contains ':' then sixties (Text.splitList ':' cs) else digitsIn 10 cs

def intValue (s : String) : Except Fault Scalar := do
  let cs := s.toList.filter (· ≠ '_')
  let n ← wholeValue (afterSign cs)
  .ok (.int (if cs.head? == some '-' then -n else n))

/-- The number of decimal digits of any script. -/
def decimalOf? (cs : List Char) : Option Nat :=
  cs.foldlM (fun n c => (Text.digit? c).map (10 * n + ·)) 0

/-- The power of ten behind the letter of an exponent, or zero where there is no exponent. -/
def exponentOf? : List Char → Option Int
  | [] => some 0
  | _ :: power =>
    if (afterSign power).isEmpty then none
    else (decimalOf? (afterSign power)).map fun n =>
      if power.head? == some '-' then -(n : Int) else (n : Int)

/-- The magnitude of digits with a point or an exponent, or that of a word, without a sign. -/
def magnitude? (cs : List Char) : Option Double :=
  if ["inf", "infinity"].contains (String.ofList cs) then some Double.infinity
  else if cs = "nan".toList then some Double.nan
  else do
    let mantissa := cs.takeWhile (· ≠ 'e')
    let whole := mantissa.takeWhile (· ≠ '.')
    let decimals := (mantissa.dropWhile (· ≠ '.')).drop 1
    let exponent ← exponentOf? (cs.dropWhile (· ≠ 'e'))
    if (whole ++ decimals).isEmpty then none
    else
      let digits ← decimalOf? (whole ++ decimals)
      some (Double.ofDecimal false digits (exponent - decimals.length))

def withSign (negative : Bool) (x : Double) : Double :=
  if negative && !x.isNaN then x.negate else x

/-- The number of a decimal, between blanks and with a sign, or the fault of another text. -/
def decimalValue (cs : List Char) : Except Fault Double :=
  let trimmed := Text.stripList cs
  match magnitude? (afterSign trimmed) with
  | some x => .ok (withSign (trimmed.head? == some '-') x)
  | none => impossible (.noDecimal (String.ofList cs))

/-- The number of groups of base sixty: each group is a number of its own. -/
def sixtiesValue (cs : List Char) : Except Fault Double := do
  let groups ← (Text.splitList ':' cs).mapM decimalValue
  let sum := groups.reverse.foldl (fun (total : Double × Nat) group =>
    (total.1.plus (group.scaleNat total.2), total.2 * 60)) (Double.ofInt 0, 1)
  .ok sum.1

/-- The number of a text without low lines, in lower case and after its sign. -/
def unsignedValue (cs : List Char) : Except Fault Double :=
  match String.ofList cs with
  | ".inf" => .ok Double.infinity
  | ".nan" => .ok Double.nan
  | _ => if cs.contains ':' then sixtiesValue cs else decimalValue cs

/-- The floating-point number of a scalar. -/
def floatValue (s : String) : Except Fault Scalar :=
  let cs := (Text.lower s).toList.filter (· ≠ '_')
  if cs.isEmpty then impossible .noDigits
  else do
    let x ← unsignedValue (afterSign cs)
    .ok (.float (withSign (cs.head? == some '-') x))

/-- The first six digits of a fraction of a second. -/
def microseconds (fraction : List Char) : Nat :=
  decimal ((fraction ++ List.replicate 6 '0').take 6)

/-- The stamp of a scalar, which must be one of the calendar. -/
def stampValue (s : String) : Except Fault Scalar :=
  match stampText? s.toList with
  | none => impossible .noStamp
  | some t =>
    let date : Date := ⟨t.year, t.month, t.day⟩
    match t.time with
    | none =>
      match date.check with
      | some fault => impossible (.noMoment fault)
      | none => .ok (.stamp (.date date))
    | some (hour, minute, second, fraction) =>
      let moment : Moment := ⟨date, hour, minute, second, microseconds fraction, t.offset⟩
      match moment.check with
      | some fault => impossible (.noMoment fault)
      | none => .ok (.stamp (.moment moment))

def boolValue (s : String) : Except Fault Scalar :=
  match Mapping.find? boolWords (Text.lower s) with
  | some b => .ok (.bool b)
  | none => impossible (.noTruthValue (Text.lower s))

/-- The value of a scalar of a type. The two keys with a meaning of their own are no values. -/
def scalarValue (type : ScalarType) (s : String) : Except Fault Scalar :=
  match type with
  | .null => .ok .null
  | .bool => boolValue s
  | .int => intValue s
  | .float => floatValue s
  | .stamp => stampValue s
  | .text => .ok (.text s)
  | .merge | .default => .error .malformed

end DesignTokens.Yaml
