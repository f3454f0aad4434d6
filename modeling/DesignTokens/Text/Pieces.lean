/-!
# Pieces of a text

Cutting a text at a separator, and replacing one character throughout.

## Main definitions

- `splitList`, `split` — the pieces between separators; a text without one is its own only piece
- `cut` — a text before and after the first separator
- `substitute` — a text in place of every occurrence of a character
-/

namespace DesignTokens.Text

/-- Adds a character to the front of the first piece. -/
def consPiece (c : Char) : List (List Char) → List (List Char)
  | [] => [[c]]
  | piece :: rest => (c :: piece) :: rest

/-- The pieces between separators. There is always at least one. -/
def splitList (separator : Char) : List Char → List (List Char)
  | [] => [[]]
  | c :: rest =>
    if c = separator then [] :: splitList separator rest
    else consPiece c (splitList separator rest)

def split (separator : Char) (s : String) : List String :=
  (splitList separator s.toList).map String.ofList

/-- The text before the first separator and, when there is one, the text after it. -/
def cut (separator : Char) (s : String) : String × Option String :=
  let cs := s.toList
  let before := cs.takeWhile (· ≠ separator)
  match cs.dropWhile (· ≠ separator) with
  | [] => (s, none)
  | _ :: after => (String.ofList before, some (String.ofList after))

/-- A list in place of every occurrence of a character. -/
def substituteList (old : Char) (new : List Char) (cs : List Char) : List Char :=
  cs.flatMap fun c => if c = old then new else [c]

/-- A text in place of every occurrence of a character. -/
def substitute (old : Char) (new : String) (s : String) : String :=
  String.ofList (substituteList old new.toList s.toList)

def startsWith (s start : String) : Bool :=
  start.toList.isPrefixOf s.toList

def replicate (n : Nat) (c : Char) : String :=
  String.ofList (List.replicate n c)

def join (separator : String) (pieces : List String) : String :=
  separator.intercalate pieces

theorem splitList_ne_nil (separator : Char) (cs : List Char) : splitList separator cs ≠ [] := by
  cases cs with
  | nil => simp [splitList]
  | cons c rest =>
    unfold splitList
    split
    · simp
    · cases splitList separator rest <;> simp [consPiece]

end DesignTokens.Text
