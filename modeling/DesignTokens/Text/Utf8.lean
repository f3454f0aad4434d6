import DesignTokens.Text.Quoted

/-!
# UTF-8

Decoding octets into characters. A sequence that is not well formed is reported with its place and
with what is wrong about it: no character starts with its first octet, a continuation octet is
missing, or the input ends in the middle of it. Encoding fails at a lone surrogate; in the path of a
file some of them stand for octets of their own.

## Main definitions

- `Utf8.Fault` — a sequence that is not well formed
- `Utf8.decode` — the characters of a list of octets
- `Utf8.Unencodable` — surrogates that have no octets
- `Utf8.textFault?`, `Utf8.pathFault?` — what keeps a text or a path from being encoded
- `normalizeBreaks` — line breaks in their one-character form
-/

namespace DesignTokens.Text

namespace Utf8

/-- What is wrong with a sequence of octets. -/
inductive Cause where
  | invalidStart
  | invalidContinuation
  | unexpectedEnd
  deriving DecidableEq, Repr

/-- A sequence that is not well formed: its first octet, its place and its length. -/
structure Fault where
  cause : Cause
  octet : UInt8
  position : Nat
  length : Nat
  deriving DecidableEq, Repr

def Cause.message : Cause → String
  | invalidStart => "invalid start byte"
  | invalidContinuation => "invalid continuation byte"
  | unexpectedEnd => "unexpected end of data"

/-- The wording of a sequence that is not well formed. -/
def Fault.message (fault : Fault) : String :=
  let place :=
    if fault.length = 1 then
      "byte 0x" ++ String.ofList (hexDigits 2 fault.octet.toNat) ++ " in position " ++
        toString fault.position
    else
      "bytes in position " ++ toString fault.position ++ "-" ++
        toString (fault.position + fault.length - 1)
  "'utf-8' codec can't decode " ++ place ++ ": " ++ fault.cause.message

def isContinuation (octet : UInt8) : Bool :=
  0x80 ≤ octet && octet ≤ 0xBF

/-- The number of continuation octets after a first octet. -/
def continuations? (first : UInt8) : Option Nat :=
  if first < 0x80 then some 0
  else if first < 0xC2 then none
  else if first < 0xE0 then some 1
  else if first < 0xF0 then some 2
  else if first < 0xF5 then some 3
  else none

/-- Whether an octet may come second: overlong forms, surrogates and numbers beyond the last
character are left out. -/
def isSecond (first second : UInt8) : Bool :=
  isContinuation second &&
    (first ≠ 0xE0 || 0xA0 ≤ second) && (first ≠ 0xED || second < 0xA0) &&
    (first ≠ 0xF0 || 0x90 ≤ second) && (first ≠ 0xF4 || second < 0x90)

/-- The bits of a first octet that belong to the character. -/
def leadBits (first : UInt8) : Nat :=
  if first < 0x80 then first.toNat
  else if first < 0xE0 then first.toNat - 0xC0
  else if first < 0xF0 then first.toNat - 0xE0
  else first.toNat - 0xF0

/-- A sequence that has been started: its first octet and place, the number of octets read and the
number still missing, and the bits so far. -/
structure Pending where
  first : UInt8
  position : Nat
  read : Nat
  missing : Nat
  bits : Nat

def Pending.fault (p : Pending) (cause : Cause) : Fault :=
  ⟨cause, p.first, p.position, p.read⟩

/-- Whether an octet may continue a sequence that has been started. -/
def Pending.accepts (p : Pending) (octet : UInt8) : Bool :=
  if p.read = 1 then isSecond p.first octet else isContinuation octet

/-- Decodes the rest of the octets, given the characters so far in reverse. -/
def decodeFrom : List UInt8 → Nat → Option Pending → List Char → Except Fault (List Char)
  | [], _, some p, _ => .error (p.fault .unexpectedEnd)
  | [], _, none, done => .ok done.reverse
  | octet :: rest, position, some p, done =>
    if p.accepts octet then
      let bits := p.bits * 64 + (octet.toNat - 0x80)
      if p.missing = 1 then decodeFrom rest (position + 1) none (Char.ofNat bits :: done)
      else decodeFrom rest (position + 1)
        (some { p with read := p.read + 1, missing := p.missing - 1, bits := bits }) done
    else .error (p.fault .invalidContinuation)
  | octet :: rest, position, none, done =>
    match continuations? octet with
    | some 0 => decodeFrom rest (position + 1) none (Char.ofNat octet.toNat :: done)
    | some missing =>
      decodeFrom rest (position + 1) (some ⟨octet, position, 1, missing, leadBits octet⟩) done
    | none => .error ⟨.invalidStart, octet, position, 1⟩

/-- The characters of a list of octets. -/
def decode (octets : List UInt8) : Except Fault (List Char) :=
  decodeFrom octets 0 none []

/-- Surrogates in a row that have no octets: the first of them, its place and their number. -/
structure Unencodable where
  first : Char
  position : Nat
  length : Nat
  deriving DecidableEq, Repr

/-- The wording of surrogates that have no octets. -/
def Unencodable.message (fault : Unencodable) : String :=
  let place :=
    if fault.length = 1 then
      "character '\\u" ++ String.ofList (hexDigits 4 (codePoint fault.first)) ++ "' in position " ++
        toString fault.position
    else
      "characters in position " ++ toString fault.position ++ "-" ++
        toString (fault.position + fault.length - 1)
  "'utf-8' codec can't encode " ++ place ++ ": surrogates not allowed"

/-- The first of the characters that is refused, with the surrogates after it. -/
def faultFrom (isRefused : Char → Bool) : Nat → List Char → Option Unencodable
  | _, [] => none
  | position, c :: rest =>
    if isRefused c then some ⟨c, position, (rest.takeWhile isSurrogate).length + 1⟩
    else faultFrom isRefused (position + 1) rest

/-- What keeps a text from being encoded. -/
def textFault? (s : String) : Option Unencodable :=
  faultFrom isSurrogate 0 s.toList

/-- Whether a surrogate stands for an octet of a path that is not in UTF-8. -/
def isEscapedOctet (c : Char) : Bool :=
  0xDC80 ≤ codePoint c && codePoint c < 0xDD00

/-- What keeps the text of a path from being encoded. -/
def pathFault? (s : String) : Option Unencodable :=
  faultFrom (fun c => isSurrogate c && !isEscapedOctet c) 0 s.toList

end Utf8

/-- A line break for every carriage return, alone or with the line break after it. -/
def normalizeBreaks : List Char → List Char
  | [] => []
  | '\r' :: '\n' :: rest => '\n' :: normalizeBreaks rest
  | '\r' :: rest => '\n' :: normalizeBreaks rest
  | c :: rest => c :: normalizeBreaks rest

end DesignTokens.Text
