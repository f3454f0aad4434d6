import DesignTokens.Document.Raw
import DesignTokens.Yaml.Node

/-!
# Reading YAML text

A text is read into a document. The key `<<` merges other mappings below the entries beside it. Keys
are compared by value, so that the number one and true are one key. A key that is a list or a mapping
is refused.

## Main definitions

- `Yaml.readRaw` — the document of a text, with scalars for keys
- `Yaml.read` — the same with texts for keys
-/

namespace DesignTokens.Yaml

/-- An integer that a key counts as, if it is a number without fraction or a truth value. -/
def keyNumber? : Scalar → Option Int
  | .bool b => some (if b then 1 else 0)
  | .int n => some n
  | .float x => x.toInt?
  | _ => none

/-- Whether two values are the same key. -/
def sameKey (a b : Scalar) : Bool :=
  match keyNumber? a, keyNumber? b with
  | some m, some n => m == n
  | none, none => a.toDocument.same b.toDocument
  | _, _ => false

/-- Entries by key: a key keeps its first place and its last value. -/
def setEntry (key : Scalar) (value : RawDocument) :
    List (Scalar × RawDocument) → List (Scalar × RawDocument)
  | [] => [(key, value)]
  | (other, old) :: rest =>
    if sameKey other key then (other, value) :: rest else (other, old) :: setEntry key value rest

def mappingOf (entries : List (Scalar × RawDocument)) : RawDocument :=
  .mapping (entries.foldl (fun done entry => setEntry entry.1 entry.2 done) [])

/-- The entries that are merged from below, and those that stand beside them. -/
structure Entries where
  merged : List (Scalar × RawDocument)
  own : List (Scalar × RawDocument)

/-- All entries, the merged ones first. -/
def Entries.all (entries : Entries) : List (Scalar × RawDocument) :=
  entries.merged ++ entries.own

/-- Whether a node is the key that merges. -/
def isMerge : Node → Bool
  | .scalar type _ => type == some .merge
  | _ => false

mutual
/-- The value of a node. -/
def valueOf : Node → Except Fault RawDocument
  | .scalar (some type) text => do .ok (.scalar (← scalarValue type text))
  | .scalar none _ => .error .malformed
  | .list known items => do
    if known then .ok (.list (← itemsOf items)) else .error .malformed
  | .mapping known entries => do
    if known then .ok (mappingOf (← entriesOf entries).all) else .error .malformed

/-- The values of items. -/
def itemsOf : List Node → Except Fault (List RawDocument)
  | [] => .ok []
  | item :: rest => do
    let value ← valueOf item
    .ok (value :: (← itemsOf rest))

/-- The value of a key, which must be a scalar. The key `=` is a text. -/
def keyOf : Node → Except Fault Scalar
  | .scalar (some .default) text => .ok (.text text)
  | .scalar (some type) text => scalarValue type text
  | _ => .error .malformed

/-- The entries of a mapping with what they merge. -/
def entriesOf : List (Node × Node) → Except Fault Entries
  | [] => .ok ⟨[], []⟩
  | (key, value) :: rest => do
    if isMerge key then
      let merged ← mergedOf value
      let others ← entriesOf rest
      .ok ⟨merged ++ others.merged, others.own⟩
    else
      let key ← keyOf key
      let value ← valueOf value
      let others ← entriesOf rest
      .ok ⟨others.merged, (key, value) :: others.own⟩

/-- The entries that a value merges: those of a mapping, or of several mappings, the first of which
prevails. -/
def mergedOf : Node → Except Fault (List (Scalar × RawDocument))
  | .mapping _ entries => do .ok (← entriesOf entries).all
  | .list _ items => mergedItems items
  | .scalar _ _ => .error .malformed

/-- The entries of several mappings, the last of them first. -/
def mergedItems : List Node → Except Fault (List (Scalar × RawDocument))
  | [] => .ok []
  | .mapping _ entries :: rest => do
    let own ← entriesOf entries
    .ok ((← mergedItems rest) ++ own.all)
  | _ => .error .malformed
end

/-! ## Which of several faults counts -/

mutual
/-- The nodes of the entries of a mapping, those that it merges first. -/
def mergedEntries : List (Node × Node) → Except Fault (List (Node × Node) × List (Node × Node))
  | [] => .ok ([], [])
  | (key, value) :: rest => do
    if isMerge key then
      let merged ← mergedNodes value
      let (others, own) ← mergedEntries rest
      .ok (merged ++ others, own)
    else
      let (others, own) ← mergedEntries rest
      .ok (others, (key, value) :: own)

/-- The entries that a node merges, as nodes. -/
def mergedNodes : Node → Except Fault (List (Node × Node))
  | .mapping _ entries => do
    let (merged, own) ← mergedEntries entries
    .ok (merged ++ own)
  | .list _ items => mergedNodeLists items
  | .scalar _ _ => .error .malformed

/-- The entries of several mappings, the last of them first, as nodes. -/
def mergedNodeLists : List Node → Except Fault (List (Node × Node))
  | [] => .ok []
  | .mapping _ entries :: rest => do
    let (merged, own) ← mergedEntries entries
    .ok ((← mergedNodeLists rest) ++ merged ++ own)
  | _ => .error .malformed
end

/-- The node itself where it is a collection, to be looked into later; a scalar must have a value, and
a collection a tag without a meaning. -/
def laterNode : Node → Except Fault (List Node)
  | .scalar (some type) text => do
    let _ ← scalarValue type text
    .ok []
  | .scalar none _ => .error .malformed
  | .list known items => if known then .ok [.list known items] else .error .malformed
  | .mapping known entries => if known then .ok [.mapping known entries] else .error .malformed

/-- The collections among the items of a list. -/
def laterItems : List Node → Except Fault (List Node)
  | [] => .ok []
  | item :: rest => do
    let now ← laterNode item
    .ok (now ++ (← laterItems rest))

/-- The collections among the values of a mapping, whose keys must be scalars. -/
def laterEntries : List (Node × Node) → Except Fault (List Node)
  | [] => .ok []
  | (key, value) :: rest => do
    let _ ← keyOf key
    let now ← laterNode value
    .ok (now ++ (← laterEntries rest))

/-- The collections right below a node. -/
def laterBelow : Node → Except Fault (List Node)
  | .scalar _ _ => .ok []
  | .list _ items => laterItems items
  | .mapping _ entries => do
    let (merged, own) ← mergedEntries entries
    laterEntries (merged ++ own)

/-- The collections right below some nodes. -/
def laterLevel : List Node → Except Fault (List Node)
  | [] => .ok []
  | node :: rest => do
    let now ← laterBelow node
    .ok (now ++ (← laterLevel rest))

/-- Looks for faults level by level, so that of several faults the one nearest to the root counts. -/
def checkLevels : Nat → List Node → Except Fault Unit
  | 0, _ => .ok ()
  | _, [] => .ok ()
  | fuel + 1, nodes => do checkLevels fuel (← laterLevel nodes)

/-- The document of a text, with scalars for keys; null without one. Every level of its tree takes a
token at least. -/
def readRaw (cs : List Char) : Except Fault RawDocument := do
  let tokens ← tokens cs
  match ← Node.ofTokens? tokens with
  | some node =>
    checkLevels (tokens.length + 1) (← laterNode node)
    valueOf node
  | none => .ok (.scalar .null)

/-- The document of a text. -/
def read (cs : List Char) : Except Fault Document := do
  .ok (← readRaw cs).normalize

end DesignTokens.Yaml
