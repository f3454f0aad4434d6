import DesignTokens.Failure
import DesignTokens.Text.Case

/-!
# Markup in table cells

The cells of a table may hold tags in square brackets: `[name]` starts a style and `[/name]` ends it.
A table shows the text between the tags. A bracket that starts no tag is shown, and a backslash in
front of a tag shows the tag itself.

## Main definitions

- `MarkupPiece`, `markupPieces` — a text as plain pieces and tags
- `shownText` — the text without its tags, every closing one of which has an opening one
-/

namespace DesignTokens

/-- A part of a text with markup. -/
inductive MarkupPiece where
  | plain (cs : List Char)
  | tag (body : List Char)
  deriving DecidableEq, Repr

/-- Whether a character may be the first one of a tag. -/
def startsTag (c : Char) : Bool :=
  c.isLower || c = '#' || c = '/' || c = '@'

/-- The characters up to a closing bracket, if no opening one comes first. -/
def upToBracket? : List Char → Option (List Char)
  | [] => none
  | c :: rest =>
    if c = ']' then some []
    else if c = '[' then none
    else (upToBracket? rest).map (c :: ·)

/-- The body of the tag at the start of a text, between its brackets. -/
def tagAt? : List Char → Option (List Char)
  | '[' :: c :: rest => if startsTag c then (upToBracket? rest).map (c :: ·) else none
  | _ => none

def backslashes (n : Nat) : List Char :=
  List.replicate n '\\'

/-- The pieces of a tag behind some backslashes. Two of them show one, and a single one left over
shows the tag. -/
def tagPieces (slashes : Nat) (body : List Char) : List MarkupPiece :=
  let before := .plain (backslashes (slashes / 2))
  if slashes % 2 = 0 then [before, .tag body]
  else [before, .plain ('[' :: body ++ [']'])]

/-- A character that starts no tag, behind some backslashes. One in front of a bracket is dropped. -/
def plainPiece (slashes : Nat) (c : Char) : MarkupPiece :=
  .plain (backslashes (if c = '[' then slashes - 1 else slashes) ++ [c])

/-- The pieces of a text behind some backslashes, after some of its characters are passed over. -/
def markupPiecesFrom (skipped slashes : Nat) : List Char → List MarkupPiece
  | [] => [.plain (backslashes slashes)]
  | c :: rest =>
    match skipped with
    | more + 1 => markupPiecesFrom more slashes rest
    | 0 =>
      if c = '\\' then markupPiecesFrom 0 (slashes + 1) rest
      else match tagAt? (c :: rest) with
        | some body => tagPieces slashes body ++ markupPiecesFrom (body.length + 1) 0 rest
        | none => plainPiece slashes c :: markupPiecesFrom 0 0 rest

def markupPieces (s : String) : List MarkupPiece :=
  markupPiecesFrom 0 0 s.toList

/-- The name of a tag: what stands before an equals sign, in lower case. -/
def tagName (body : List Char) : String :=
  Text.lower (Text.strip (String.ofList (body.takeWhile (· ≠ '='))))

/-- The open tags after one of them is closed: the one of that name that was opened last, or the
last one where no name is given. -/
def closeTag (name : String) (opened : List String) : Except Failure (List String) :=
  match opened with
  | [] => .error (.unmatchedTag name)
  | last :: more =>
    if name = "" then .ok more
    else if (last :: more).contains name then .ok ((last :: more).erase name)
    else .error (.unmatchedTag name)

def afterTag (opened : List String) (body : List Char) : Except Failure (List String) :=
  match body with
  | '/' :: name => closeTag (tagName name) opened
  | _ => .ok (tagName body :: opened)

/-- The characters of plain pieces. The tags must pair up with the open ones, the last opened
first. -/
def shownPieces (opened : List String) : List MarkupPiece → Except Failure (List Char)
  | [] => .ok []
  | .plain cs :: rest => do .ok (cs ++ (← shownPieces opened rest))
  | .tag body :: rest => do shownPieces (← afterTag opened body) rest

def shownText (s : String) : Except Failure String :=
  (shownPieces [] (markupPieces s)).map String.ofList

end DesignTokens
