import DesignTokens.Document.Basic
import DesignTokens.Text.CodePoint
import DesignTokens.Text.Word

/-!
# Reading JSON text

A text is read into a document. A number without fraction and exponent is an integer of any size;
of two entries with one key the later value stands in the earlier place. A fault names its cause and
the place where it shows, by line, column and character.

## Main definitions

- `Json.read` — a text's document, or its first fault
- `Json.Fault.message` — the wording of a fault
-/

namespace DesignTokens.Json

/-- What is wrong with a text. -/
inductive Cause where
  | value
  | propertyName
  | colon
  | comma
  | unterminated
  | controlCharacter
  | escape
  | unicodeEscape
  | extraData
  | byteOrderMark
  deriving DecidableEq, Repr

/-- The wording of a cause. -/
def Cause.message : Cause → String
  | .value => "Expecting value"
  | .propertyName => "Expecting property name enclosed in double quotes"
  | .colon => "Expecting ':' delimiter"
  | .comma => "Expecting ',' delimiter"
  | .unterminated => "Unterminated string starting at"
  | .controlCharacter => "Invalid control character at"
  | .escape => "Invalid \\escape"
  | .unicodeEscape => "Invalid \\uXXXX escape"
  | .extraData => "Extra data"
  | .byteOrderMark => "Unexpected UTF-8 BOM (decode using utf-8-sig)"

/-- A cause and the number of characters that were left where it showed. -/
structure Fault where
  cause : Cause
  left : Nat
  deriving DecidableEq, Repr

/-- The line and the column, both from one, after the given characters. -/
def lineAndColumn (before : List Char) : Nat × Nat :=
  (before.count '\n' + 1, (before.reverse.takeWhile (· ≠ '\n')).length + 1)

def Fault.message (text : List Char) (fault : Fault) : String :=
  let position := text.length - fault.left
  let (line, column) := lineAndColumn (text.take position)
  s!"{fault.cause.message}: line {line} column {column} (char {position})"

/-- A reading step: a value and the characters after it, or a fault. -/
abbrev Step (α : Type) := Except Fault (α × List Char)

def fail {α : Type} (cause : Cause) (left : List Char) : Except Fault α :=
  .error ⟨cause, left.length⟩

def isSpace (c : Char) : Bool :=
  c = ' ' || c = '\t' || c = '\n' || c = '\r'

def skipSpace (cs : List Char) : List Char :=
  cs.dropWhile isSpace

/-- The value of a hexadecimal digit. -/
def hexValue? (c : Char) : Option Nat :=
  if '0' ≤ c && c ≤ '9' then some (c.toNat - 48)
  else if 'a' ≤ c && c ≤ 'f' then some (c.toNat - 87)
  else if 'A' ≤ c && c ≤ 'F' then some (c.toNat - 55)
  else none

def hexNumber? (cs : List Char) : Option Nat :=
  cs.foldlM (fun n c => (hexValue? c).map (16 * n + ·)) 0

/-- Four hexadecimal digits that are not the end of the text. -/
def unit? (cs : List Char) : Option (Nat × List Char) :=
  let digits := cs.take 4
  let rest := cs.drop 4
  if digits.length == 4 && !rest.isEmpty then (hexNumber? digits).map (·, rest) else none

/-- The character of a single-letter escape. -/
def escaped? (c : Char) : Option Char :=
  match c with
  | '"' => some '"'
  | '\\' => some '\\'
  | '/' => some '/'
  | 'b' => some '\x08'
  | 'f' => some '\x0c'
  | 'n' => some '\n'
  | 'r' => some '\r'
  | 't' => some '\t'
  | _ => none

/-- A unit escape after its letter, joined with a second one when the two name one character. Half of
such a pair stands alone otherwise. The argument starts with the letter. -/
def readUnits (cs : List Char) : Step Char :=
  match unit? (cs.drop 1) with
  | none => fail .unicodeEscape cs
  | some (high, rest) =>
    if 0xD800 ≤ high && high < 0xDC00 && rest.length > 6 && rest.take 2 == ['\\', 'u'] then
      match unit? (rest.drop 2) with
      | none => fail .unicodeEscape (rest.drop 1)
      | some (low, after) =>
        if 0xDC00 ≤ low && low < 0xE000 then
          .ok (Text.ofCodePoint (0x10000 + (high - 0xD800) * 0x400 + (low - 0xDC00)), after)
        else .ok (Text.ofCodePoint high, rest)
    else .ok (Text.ofCodePoint high, rest)

/-- The characters of a text up to its closing quote. `start` is what was left at the opening quote;
`done` is read already, in reverse order. -/
def readChars (start : List Char) : Nat → List Char → List Char → Step String
  | 0, _, _ => fail .unterminated start
  | _, _, [] => fail .unterminated start
  | fuel + 1, done, c :: rest =>
    if c = '"' then .ok (String.ofList done.reverse, rest)
    else if c = '\\' then
      match rest with
      | [] => fail .unterminated start
      | e :: after =>
        if e = 'u' then
          match readUnits rest with
          | .ok (u, left) => readChars start fuel (u :: done) left
          | .error fault => .error fault
        else match escaped? e with
          | some u => readChars start fuel (u :: done) after
          | none => fail .escape (c :: rest)
    else if c.toNat < 32 then fail .controlCharacter (c :: rest)
    else readChars start fuel (c :: done) rest

/-- A text whose opening quote is the first of the given characters. -/
def readText (cs : List Char) : Step String :=
  readChars cs cs.length [] (cs.drop 1)

def decimalNumber (digits : List Char) : Nat :=
  digits.foldl (fun n c => 10 * n + (c.toNat - 48)) 0

/-- The digits of an exponent with its sign, if the characters start with one. -/
def exponent? : List Char → Option (Int × List Char)
  | e :: rest =>
    if e = 'e' || e = 'E' then
      let negative := rest.head? == some '-'
      let signed := negative || rest.head? == some '+'
      let digits := (if signed then rest.drop 1 else rest)
      let taken := digits.takeWhile Text.isAsciiDigit
      if taken.isEmpty then none
      else
        let n : Int := decimalNumber taken
        some (if negative then -n else n, digits.dropWhile Text.isAsciiDigit)
    else none
  | [] => none

/-- A fraction's digits, if the characters start with one. -/
def fraction? : List Char → Option (List Char × List Char)
  | '.' :: rest =>
    let taken := rest.takeWhile Text.isAsciiDigit
    if taken.isEmpty then none else some (taken, rest.dropWhile Text.isAsciiDigit)
  | _ => none

/-- The digits before the point: a zero alone, or digits that do not start with one. -/
def wholeDigits? : List Char → Option (List Char × List Char)
  | '0' :: rest => some (['0'], rest)
  | cs =>
    let taken := cs.takeWhile Text.isAsciiDigit
    if taken.isEmpty then none else some (taken, cs.dropWhile Text.isAsciiDigit)

/-- A number; `start` is what is left where the value begins. -/
def readNumber (start : List Char) : Step Document :=
  let negative := start.head? == some '-'
  match wholeDigits? (if negative then start.drop 1 else start) with
  | none => fail .value start
  | some (whole, rest) =>
    let (decimals, afterFraction, hasFraction) := match fraction? rest with
      | some (digits, left) => (digits, left, true)
      | none => ([], rest, false)
    let (power, left, hasExponent) := match exponent? afterFraction with
      | some (e, after) => (e, after, true)
      | none => (0, afterFraction, false)
    if hasFraction || hasExponent then
      let digits := decimalNumber (whole ++ decimals)
      .ok (.float (Double.ofDecimal negative digits (power - decimals.length)), left)
    else
      let n : Int := decimalNumber whole
      .ok (.int (if negative then -n else n), left)

/-- The values that have a name. -/
def names : List (String × Document) :=
  [("null", .null), ("true", .bool true), ("false", .bool false), ("NaN", .float .nan),
   ("Infinity", .float .infinity), ("-Infinity", .float (.withSign true Double.infinityBits))]

def name? (cs : List Char) : Option (Document × List Char) :=
  names.findSome? fun (word, value) =>
    if word.toList.isPrefixOf cs then some (value, cs.drop word.length) else none

mutual
/-- A value at the start of the characters. -/
def readValue : Nat → List Char → Except Fault (Document × List Char)
  | 0, cs => fail .value cs
  | fuel + 1, cs =>
    match cs with
    | '"' :: _ => (readText cs).map fun (s, rest) => (.text s, rest)
    | '[' :: rest =>
      match skipSpace rest with
      | ']' :: after => .ok (.list [], after)
      | items => readItems fuel [] items
    | '\x7b' :: rest =>
      match skipSpace rest with
      | '\x7d' :: after => .ok (.mapping [], after)
      | entries => readEntries fuel [] entries
    | _ =>
      match name? cs with
      | some found => .ok found
      | none => readNumber cs

/-- The items of a list up to its closing bracket, after those read already. -/
def readItems : Nat → List Document → List Char → Except Fault (Document × List Char)
  | 0, _, cs => fail .value cs
  | fuel + 1, done, cs => do
    let (item, rest) ← readValue fuel cs
    match skipSpace rest with
    | ']' :: after => .ok (.list (item :: done).reverse, after)
    | ',' :: after => readItems fuel (item :: done) (skipSpace after)
    | left => fail .comma left

/-- The entries of a mapping up to its closing brace, after those read already. -/
def readEntries :
    Nat → List (String × Document) → List Char → Except Fault (Document × List Char)
  | 0, _, cs => fail .value cs
  | fuel + 1, done, cs =>
    match cs with
    | '"' :: _ => do
      let (key, rest) ← readText cs
      match skipSpace rest with
      | ':' :: after =>
        let (value, rest) ← readValue fuel (skipSpace after)
        match skipSpace rest with
        | '\x7d' :: after => .ok (.mapping (Mapping.ofEntries ((key, value) :: done).reverse), after)
        | ',' :: after => readEntries fuel ((key, value) :: done) (skipSpace after)
        | left => fail .comma left
      | left => fail .colon left
    | _ => fail .propertyName cs
end

/-- The document of a text, or its first fault. -/
def read (cs : List Char) : Except Fault Document :=
  if cs.head? == some '\uFEFF' then fail .byteOrderMark cs
  else do
    let (d, rest) ← readValue (cs.length + 1) (skipSpace cs)
    match skipSpace rest with
    | [] => .ok d
    | left => fail .extraData left

end DesignTokens.Json
