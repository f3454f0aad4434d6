import DesignTokens.Text.Pieces
import DesignTokens.Text.Width

/-!
# Text on a terminal

A message is shown line by line. Characters that would make a terminal ring, step back or feed a page
are left out, and a tab leads to the next column that is a multiple of eight.

## Main definitions

- `displayLines` — the lines in which a text is shown
- `Mark`, `notice` — a message behind a mark that says what kind of message it is
-/

namespace DesignTokens

/-- The characters that are left out: bell, backspace, vertical tab, form feed, carriage return. -/
def isTerminalControl (c : Char) : Bool :=
  [7, 8, 11, 12, 13].contains c.toNat

def withoutControls (s : String) : String :=
  String.ofList (s.toList.filter fun c => !isTerminalControl c)

def tabWidth : Nat := 8

def nextTabStop (column : Nat) : Nat :=
  (column / tabWidth + 1) * tabWidth

/-- The characters from a column on, with spaces in place of tabs. -/
def expandTabsFrom (column : Nat) : List Char → List Char
  | [] => []
  | c :: rest =>
    if c = '\t' then
      List.replicate (nextTabStop column - column) ' ' ++ expandTabsFrom (nextTabStop column) rest
    else c :: expandTabsFrom (column + Text.cellWidth c) rest

def expandTabs (line : String) : String :=
  String.ofList (expandTabsFrom 0 line.toList)

def displayLines (s : String) : List String :=
  (Text.split '\n' (withoutControls s)).map expandTabs

/-- What kind of message is shown. -/
inductive Mark where
  | success
  | failure
  | warning
  | information
  deriving DecidableEq, Repr

/-- The sign in front of a message. -/
def Mark.sign : Mark → String
  | success => "✓"
  | failure => "✗"
  | warning => "⚠"
  | information => "ℹ"

def notice (mark : Mark) (message : String) : List String :=
  displayLines (mark.sign ++ " " ++ message)

/-- The lines of a message with details below it, each behind the mark of a failure. -/
def failureList (message : String) (details : List String) : List String :=
  notice .failure message ++ details.flatMap fun detail => notice .failure ("  " ++ detail)

end DesignTokens
