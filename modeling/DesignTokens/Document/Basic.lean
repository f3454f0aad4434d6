import DesignTokens.Decimal.Shortest
import DesignTokens.Document.Mapping
import DesignTokens.Document.Stamp
import DesignTokens.Text.Pieces
import DesignTokens.Text.Quoted

/-!
# Documents

A document is a tree of ordered mappings and lists over scalars: the shape of a configuration file
before it is given a type. Integers and floating-point numbers stay apart.

## Main definitions

- `Document` — the tree
- `Document.truthy` — whether a value counts as present
- `Document.shown`, `Document.plain` — a value inside a message, and as bare text
- `Document.at?` — the value at a path of keys
- `Document.settle` — the tree with plain text for every stamp and null for every number that is not
  finite
- `Document.same` — equality up to the order of keys
-/

namespace DesignTokens

/-- A tree of ordered mappings and lists over scalars. -/
inductive Document where
  /-- The value that stands for none. -/
  | null
  | bool (b : Bool)
  /-- A whole number of any size. -/
  | int (n : Int)
  | float (x : Double)
  | text (s : String)
  /-- A date, or a date with a time. -/
  | stamp (t : Stamp)
  | list (items : List Document)
  /-- Keys with their values, in order. -/
  | mapping (entries : List (String × Document))
  deriving Inhabited

namespace Document

/-- Whether a value counts as present: everything but null, false, zero and the empty. -/
def truthy : Document → Bool
  | null => false
  | bool b => b
  | int n => n != 0
  | float x => !x.isZero
  | text s => s != ""
  | stamp _ => true
  | list items => !items.isEmpty
  | mapping entries => !entries.isEmpty

def entries? : Document → Option (Mapping Document)
  | mapping entries => some entries
  | _ => none

def isMapping (d : Document) : Bool :=
  d.entries?.isSome

def get? (d : Document) (key : String) : Option Document :=
  d.entries?.bind fun entries => Mapping.find? entries key

/-- The value at a path of keys. -/
def at? : Document → List String → Option Document
  | d, [] => some d
  | d, key :: rest => (d.get? key).bind fun child => at? child rest

mutual
/-- A value as it appears inside a message. -/
def shown : Document → String
  | null => "None"
  | bool b => if b then "True" else "False"
  | int n => toString n
  | float x => x.render
  | text s => Text.quoted s
  | stamp t => t.shown
  | list items => "[" ++ Text.join ", " (shownItems items) ++ "]"
  | mapping entries => "\x7b" ++ Text.join ", " (shownEntries entries) ++ "\x7d"

/-- The items of a list as they appear inside a message. -/
def shownItems : List Document → List String
  | [] => []
  | item :: rest => shown item :: shownItems rest

/-- The entries of a mapping as they appear inside a message. -/
def shownEntries : List (String × Document) → List String
  | [] => []
  | (key, value) :: rest => (Text.quoted key ++ ": " ++ shown value) :: shownEntries rest
end

/-- A value as bare text: a text is itself, anything else is shown. -/
def plain : Document → String
  | text s => s
  | stamp t => t.plain
  | d => d.shown

mutual
/-- The tree as it is written where its values have no type: a stamp as its text, a number that is not
finite as null. -/
def settle : Document → Document
  | stamp t => text t.compact
  | float x => if x.isFinite then float x else null
  | list items => list (settleItems items)
  | mapping entries => mapping (settleEntries entries)
  | d => d

/-- The items of a list as they are written without types. -/
def settleItems : List Document → List Document
  | [] => []
  | item :: rest => settle item :: settleItems rest

/-- The entries of a mapping as they are written without types. -/
def settleEntries : List (String × Document) → List (String × Document)
  | [] => []
  | (key, value) :: rest => (key, settle value) :: settleEntries rest
end

mutual
/-- Equality of values up to the order of keys. Not-a-number equals nothing. -/
def same : Document → Document → Bool
  | null, null => true
  | bool a, bool b => a == b
  | int a, int b => a == b
  | float a, float b => a.same b
  | text a, text b => a == b
  | stamp a, stamp b => a == b
  | list a, list b => sameItems a b
  | mapping a, mapping b => a.length == b.length && sameEntries a b
  | _, _ => false

/-- Equality of lists, item by item. -/
def sameItems : List Document → List Document → Bool
  | [], [] => true
  | a :: rest, b :: others => same a b && sameItems rest others
  | _, _ => false

/-- Whether every entry of the first mapping is an entry of the second. -/
def sameEntries : List (String × Document) → Mapping Document → Bool
  | [], _ => true
  | (key, value) :: rest, others =>
    (match Mapping.find? others key with
      | some other => same value other
      | none => false) && sameEntries rest others
end

@[simp] theorem at?_nil (d : Document) : d.at? [] = some d := by
  cases d <;> rfl

/-- Induction over a document, where a list and a mapping are reached from all that they hold. -/
@[elab_as_elim]
theorem byParts {P : Document → Prop} (null : P null) (bool : ∀ b, P (bool b))
    (int : ∀ n, P (int n)) (float : ∀ x, P (float x)) (text : ∀ s, P (text s))
    (stamp : ∀ t, P (stamp t)) (list : ∀ items, (∀ item ∈ items, P item) → P (list items))
    (mapping : ∀ entries : Mapping Document,
      (∀ entry ∈ entries, P entry.2) → P (mapping entries)) (d : Document) : P d :=
  @Document.rec P (fun items => ∀ item ∈ items, P item) (fun entries => ∀ entry ∈ entries, P entry.2)
    (fun entry => P entry.2) null bool int float text stamp list mapping (by simp)
    (fun _ _ head rest => List.forall_mem_cons.mpr ⟨head, rest⟩) (by simp)
    (fun _ _ head rest => List.forall_mem_cons.mpr ⟨head, rest⟩) (fun _ _ h => h) d

end Document

end DesignTokens
