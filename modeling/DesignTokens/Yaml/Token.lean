import DesignTokens.Yaml.Block
import DesignTokens.Yaml.Plain
import DesignTokens.Yaml.Property

/-!
# Tokens of a YAML text

A text is cut into tokens. Indentation is turned into tokens of its own: the start and the end of
block collections. A key shows itself only by the colon after it, so every place where a key may
start is remembered until its line ends, and the token for the key is put there afterwards.

## Main definitions

- `Token` — the tokens
- `PossibleKey`, `Lexer` — a place where a key may start, and the state between two tokens
- `tokens` — the tokens of a text
-/

namespace DesignTokens.Yaml

/-- A token of a YAML text. -/
inductive Token where
  | directive (d : Directive)
  | documentStart
  | documentEnd
  | blockListStart
  | blockMappingStart
  | blockEnd
  | flowListStart
  | flowListEnd
  | flowMappingStart
  | flowMappingEnd
  | blockEntry
  | flowEntry
  | key
  | value
  | sameAs (anchor : String)
  | anchor (name : String)
  | tag (t : TagText)
  | scalar (text : String) (plain : Bool)
  deriving DecidableEq, Repr

/-- A place where a key may start: the number of tokens before it, whether a key has to start there
because the block mapping around it goes on, and where it is. -/
structure PossibleKey where
  tokenNumber : Nat
  required : Bool
  index : Nat
  line : Nat
  column : Nat

/-- The state between two tokens. `keys` holds the possible key of each open flow collection, the
innermost first, and last the one outside of all. -/
structure Lexer where
  cursor : Cursor
  tokens : Array Token
  indent : Int
  indents : List Int
  allowKey : Bool
  keys : List (Option PossibleKey)

namespace Lexer

def start (cs : List Char) : Lexer :=
  ⟨.start cs, #[], -1, [], true, [none]⟩

def inFlow (s : Lexer) : Bool :=
  1 < s.keys.length

def column (s : Lexer) : Int :=
  s.cursor.column

def push (s : Lexer) (token : Token) : Lexer :=
  { s with tokens := s.tokens.push token }

/-- The state with some characters skipped and one more token. -/
def take (s : Lexer) (n : Nat) (token : Token) : Lexer :=
  { s with cursor := s.cursor.skip n, tokens := s.tokens.push token }

/-- The state in which keys may start or not. -/
def allow (s : Lexer) (allowKey : Bool) : Lexer :=
  { s with allowKey }

/-- The longest key that is recognised by the colon after it. -/
def maxKey : Nat := 1024

/-- Whether a colon can no longer make a key of a place. -/
def isStale (s : Lexer) (key : PossibleKey) : Bool :=
  key.line ≠ s.cursor.line || maxKey < s.cursor.index - key.index

/-- The possible keys without the stale ones, none of which may be required. -/
def dropStale (s : Lexer) : Except Fault Lexer :=
  let stale := s.keys.filter fun key => key.any s.isStale
  if stale.any fun key => key.any PossibleKey.required then .error .malformed
  else .ok { s with keys := s.keys.map fun key => key.filter fun key => !s.isStale key }

/-- The state without the innermost possible key, which must not be required. -/
def dropKey (s : Lexer) : Except Fault Lexer :=
  match s.keys with
  | some key :: outer => if key.required then .error .malformed else .ok { s with keys := none :: outer }
  | _ => .ok s

/-- The state in which a key may start at the cursor. -/
def saveKey (s : Lexer) : Except Fault Lexer := do
  if s.allowKey then
    let s ← s.dropKey
    let c := s.cursor
    let key : PossibleKey :=
      ⟨s.tokens.size, !s.inFlow && s.indent == s.column, c.index, c.line, c.column⟩
    .ok { s with keys := some key :: s.keys.drop 1 }
  else .ok s

/-- Ends the block collections that are deeper than a column. -/
def unwindTo (column : Int) : List Int → Lexer → Lexer
  | [], s => s
  | outer :: rest, s =>
    if s.indent > column then
      unwindTo column rest { s with
        indent := outer, indents := rest, tokens := s.tokens.push .blockEnd }
    else s

/-- Ends the block collections that are deeper than a column, unless a flow collection is open. -/
def unwind (s : Lexer) (column : Int) : Lexer :=
  if s.inFlow then s else unwindTo column s.indents s

/-- Whether a column opens a block collection. -/
def isDeeper (s : Lexer) (column : Int) : Bool :=
  s.indent < column

/-- The state inside a block collection at a column. -/
def enter (s : Lexer) (column : Int) : Lexer :=
  { s with indent := column, indents := s.indent :: s.indents }

/-- Opens a block collection at the cursor if it is deeper than the one around it. -/
def openBlock (s : Lexer) (token : Token) : Lexer :=
  if s.isDeeper s.column then (s.enter s.column).push token else s

/-- The state after blanks, comments and line breaks. -/
def skipBlanks : Nat → Lexer → Lexer
  | 0, s => s
  | fuel + 1, s =>
    let c := s.cursor.skipWhile (· = ' ')
    let c := if c.isAt '#' then c.skipWhile (!isBreak ·) else c
    match c.lineBreak? with
    | some (_, after) =>
      skipBlanks fuel { s with cursor := after, allowKey := s.allowKey || !s.inFlow }
    | none => { s with cursor := c }

/-- The state at the next token, past a byte order mark at the start of the text. -/
def seek (s : Lexer) : Lexer :=
  let c := s.cursor
  let c := if c.index = 0 && c.isAt '\uFEFF' then c.advance else c
  skipBlanks (c.rest.length + 1) { s with cursor := c }

/-- The state outside of all block collections, before a directive or a marker. -/
def leaveBlocks (s : Lexer) : Except Fault Lexer := do
  .ok ((← (s.unwind (-1)).dropKey).allow false)

def directiveToken (s : Lexer) : Except Fault Lexer := do
  let s ← s.leaveBlocks
  let (directive, after) ← readDirective s.cursor
  .ok { s with cursor := after, tokens := s.tokens.push (.directive directive) }

def markerToken (s : Lexer) (token : Token) : Except Fault Lexer := do
  .ok ((← s.leaveBlocks).take 3 token)

def openFlow (s : Lexer) (token : Token) : Except Fault Lexer := do
  let s ← s.saveKey
  .ok (({ s with keys := none :: s.keys }.allow true).take 1 token)

/-- The end of a flow collection. -/
def closeFlow (s : Lexer) (token : Token) : Except Fault Lexer := do
  if s.inFlow then
    let s ← s.dropKey
    .ok (({ s with keys := s.keys.drop 1 }.allow false).take 1 token)
  else .error .malformed

def flowEntryToken (s : Lexer) : Except Fault Lexer := do
  .ok ((← (s.allow true).dropKey).take 1 .flowEntry)

/-- The hyphen before an item of a block list. -/
def blockEntryToken (s : Lexer) : Except Fault Lexer := do
  if !s.inFlow && !s.allowKey then .error .malformed
  else
    let s := if s.inFlow then s else s.openBlock .blockListStart
    .ok ((← (s.allow true).dropKey).take 1 .blockEntry)

/-- The question mark before a key. -/
def keyToken (s : Lexer) : Except Fault Lexer := do
  if !s.inFlow && !s.allowKey then .error .malformed
  else
    let s := if s.inFlow then s else s.openBlock .blockMappingStart
    .ok ((← (s.allow (!s.inFlow)).dropKey).take 1 .key)

/-- Puts the tokens of a key where it started. -/
def insertKey (s : Lexer) (key : PossibleKey) : Lexer :=
  let opens := !s.inFlow && s.isDeeper key.column
  let marks := if opens then [.blockMappingStart, .key] else [Token.key]
  let tokens := s.tokens.toList.take key.tokenNumber ++ marks ++ s.tokens.toList.drop key.tokenNumber
  let s := { s with tokens := tokens.toArray, keys := none :: s.keys.drop 1 }
  (if opens then s.enter key.column else s).allow false

/-- The colon before a value. -/
def valueToken (s : Lexer) : Except Fault Lexer := do
  match s.keys with
  | some key :: _ => .ok ((s.insertKey key).take 1 .value)
  | _ =>
    if !s.inFlow && !s.allowKey then .error .malformed
    else
      let s := if s.inFlow then s else s.openBlock .blockMappingStart
      .ok ((← (s.allow (!s.inFlow)).dropKey).take 1 .value)

/-- A token at which a key may start, and after which none may. -/
def keyable (s : Lexer) (read : Cursor → Except Fault (Token × Cursor)) : Except Fault Lexer := do
  let s ← s.saveKey
  let (token, after) ← read s.cursor
  .ok ({ s with cursor := after, tokens := s.tokens.push token }.allow false)

def blockScalarToken (s : Lexer) (folded : Bool) : Except Fault Lexer := do
  let s ← (s.allow true).dropKey
  let (text, after) ← readBlock folded s.indent s.cursor
  .ok { s with cursor := after, tokens := s.tokens.push (.scalar text false) }

/-- A plain scalar. A key may start after it when a line ended. -/
def plainToken (s : Lexer) : Except Fault Lexer := do
  let s ← s.saveKey
  let (text, brokeLine, after) := readPlain s.inFlow (s.indent + 1) s.cursor
  .ok ({ s with cursor := after, tokens := s.tokens.push (.scalar text true) }.allow brokeLine)

/-- Whether a character is an indicator that no plain scalar starts with. -/
def isIndicator (c : Char) : Bool :=
  "-?:,[]\x7b\x7d#&*!|>'\"%@`".toList.contains c

/-- Whether a plain scalar starts with a character before another one. -/
def startsPlain (s : Lexer) (c : Char) (next : Option Char) : Bool :=
  !(isBlank c || isBreak c || isIndicator c) ||
    (!endsWord next && (c = '-' || (!s.inFlow && (c = '?' || c = ':'))))

/-- Whether an indicator stands for itself before the next character. -/
def isLone (s : Lexer) (next : Option Char) : Bool :=
  s.inFlow || endsWord next

/-- The state after the token that starts with a character. -/
def token (s : Lexer) (c : Char) : Except Fault Lexer :=
  let next := s.cursor.ahead? 1
  let atMargin := s.cursor.column = 0
  if c = '%' && atMargin then s.directiveToken
  else if atMargin && s.cursor.isAtMarker then
    s.markerToken (if c = '-' then .documentStart else .documentEnd)
  else if c = '[' then s.openFlow .flowListStart
  else if c = '\x7b' then s.openFlow .flowMappingStart
  else if c = ']' then s.closeFlow .flowListEnd
  else if c = '\x7d' then s.closeFlow .flowMappingEnd
  else if c = ',' then s.flowEntryToken
  else if c = '-' && endsWord next then s.blockEntryToken
  else if c = '?' && s.isLone next then s.keyToken
  else if c = ':' && s.isLone next then s.valueToken
  else if c = '*' then s.keyable fun c => do
    let (name, after) ← readAnchor c
    .ok (.sameAs name, after)
  else if c = '&' then s.keyable fun c => do
    let (name, after) ← readAnchor c
    .ok (.anchor name, after)
  else if c = '!' then s.keyable fun c => do
    let (tag, after) ← readTag c
    .ok (.tag tag, after)
  else if (c = '|' || c = '>') && !s.inFlow then s.blockScalarToken (c = '>')
  else if c = '\'' || c = '"' then s.keyable fun cursor => do
    let (text, after) ← readQuoted c cursor
    .ok (.scalar text false, after)
  else if s.startsPlain c next then s.plainToken
  else .error .malformed

/-- The tokens of the rest of a text. -/
def run : Nat → Lexer → Except Fault (List Token)
  | 0, _ => .error .malformed
  | fuel + 1, s => do
    let s ← s.seek.dropStale
    let s := s.unwind s.column
    match s.cursor.next? with
    | none => .ok (← (s.unwind (-1)).dropKey).tokens.toList
    | some c => run fuel (← s.token c)

end Lexer

def isAllowed (c : Char) : Bool :=
  let n := c.toNat
  n = 9 || n = 10 || n = 13 || (0x20 ≤ n && n ≤ 0x7E) || n = 0x85 || (0xA0 ≤ n && n ≤ 0xD7FF) ||
    (0xE000 ≤ n && n ≤ 0xFFFD) || 0x10000 ≤ n

/-- The tokens of a text. -/
def tokens (cs : List Char) : Except Fault (List Token) :=
  if cs.all isAllowed then Lexer.run (cs.length + 2) (.start cs) else .error .malformed

end DesignTokens.Yaml
