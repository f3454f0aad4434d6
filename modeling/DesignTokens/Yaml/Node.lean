import DesignTokens.Document.Mapping
import DesignTokens.Yaml.Implicit
import DesignTokens.Yaml.Token

/-!
# Nodes of a YAML text

The tokens of a text make up a tree of scalars, lists and mappings whose keys are nodes themselves.
An alias stands for the node of its anchor. A text holds at most one document.

## Main definitions

- `Node` — the tree
- `Node.ofTokens?` — the tree of the tokens of a text
-/

namespace DesignTokens.Yaml

/-- A tree of scalars, lists and mappings. A scalar has a type unless its tag means nothing; a list or
mapping is known unless its tag means something else. -/
inductive Node where
  | scalar (type : Option ScalarType) (text : String)
  | list (known : Bool) (items : List Node)
  | mapping (known : Bool) (entries : List (Node × Node))
  deriving Inhabited

/-- The start of the tags with a meaning. -/
def coreTag : String := "tag:yaml.org,2002:"

/-- The types of scalars by their tags. -/
def scalarTags : List (String × ScalarType) :=
  [("null", .null), ("bool", .bool), ("int", .int), ("float", .float), ("timestamp", .stamp),
   ("str", .text), ("merge", .merge), ("value", .default)]

/-- Whether a tag says nothing of its own. -/
def isVoidTag : Option String → Bool
  | none => true
  | some tag => tag = "!"

namespace Node

/-- A scalar. Without a tag it is a text when it is quoted, and else of the type that it shows. -/
def ofScalar (tag : Option String) (text : String) (plain : Bool) : Node :=
  match tag with
  | none => scalar (some (if plain then implicitType text else .text)) text
  | some "!" => scalar (some (implicitType text)) text
  | some tag =>
    scalar ((scalarTags.find? fun known => coreTag ++ known.1 = tag).map Prod.snd) text

def absent : Node :=
  scalar (some .null) ""

def ofItems (tag : Option String) (items : List Node) : Node :=
  list (isVoidTag tag || tag == some (coreTag ++ "seq")) items

def ofEntries (tag : Option String) (entries : List (Node × Node)) : Node :=
  mapping (isVoidTag tag || tag == some (coreTag ++ "map")) entries

end Node

/-- The tokens that are left, and the nodes of the anchors so far. -/
structure NodeState where
  tokens : List Token
  anchors : Mapping Node

namespace NodeState

def drop (s : NodeState) (tokens : List Token) : NodeState :=
  { s with tokens }

def isAt (s : NodeState) (tokens : List Token) : Bool :=
  (s.tokens.head?.map tokens.contains).getD false

/-- The state with a node for an anchor, which must be new. -/
def define (s : NodeState) (node : Node) : Option String → Except Fault NodeState
  | none => .ok s
  | some name =>
    if Mapping.has s.anchors name then .error .malformed
    else .ok { s with anchors := (name, node) :: s.anchors }

end NodeState

/-- The handles that tags may use, with what they stand for. -/
def standardHandles : Mapping String :=
  [("!", "!"), ("!!", coreTag)]

/-- A tag in full. -/
def fullTag (handles : Mapping String) (t : TagText) : Except Fault String :=
  match t.handle with
  | none => .ok t.suffix
  | some handle =>
    match Mapping.find? handles handle with
    | some start => .ok (start ++ t.suffix)
    | none => .error .malformed

/-- The anchor and the tag before a node, in either order. -/
def properties : List Token → Option String × Option TagText × List Token
  | .anchor name :: .tag t :: rest => (some name, some t, rest)
  | .tag t :: .anchor name :: rest => (some name, some t, rest)
  | .anchor name :: rest => (some name, none, rest)
  | .tag t :: rest => (none, some t, rest)
  | tokens => (none, none, tokens)

/-- Where a node stands: in a flow collection, in a block collection, or as the key or value of a
block mapping, where a list needs no indentation. -/
inductive NodePlace where
  | flow
  | block
  | entry
  deriving DecidableEq, Repr

/-- The tokens after which the key or value of a block mapping is missing. -/
def entryEnds : List Token := [.key, .value, .blockEnd]

/-- The tokens after which an item of a block list is missing. -/
def itemEnds : List Token := [.blockEntry, .blockEnd]

/-- The tokens after which an item of a list without indentation is missing. -/
def looseItemEnds : List Token := [.blockEntry, .key, .value, .blockEnd]

mutual
/-- The node at the start of the tokens. -/
def readNode (handles : Mapping String) : Nat → NodePlace → NodeState → Except Fault (Node × NodeState)
  | 0, _, _ => .error .malformed
  | fuel + 1, place, s =>
    match s.tokens with
    | .sameAs name :: rest =>
      match Mapping.find? s.anchors name with
      | some node => .ok (node, s.drop rest)
      | none => .error .malformed
    | tokens => do
      let (name, tagText, rest) := properties tokens
      let tag ← tagText.mapM (fullTag handles)
      let (node, s) ← readContent handles fuel place (name.isSome || tag.isSome) tag (s.drop rest)
      .ok (node, ← s.define node name)

/-- The content of a node after its anchor and tag. -/
def readContent (handles : Mapping String) :
    Nat → NodePlace → Bool → Option String → NodeState → Except Fault (Node × NodeState)
  | 0, _, _, _, _ => .error .malformed
  | fuel + 1, place, hasProperties, tag, s =>
    match s.tokens with
    | .scalar text plain :: rest => .ok (.ofScalar tag text plain, s.drop rest)
    | .flowListStart :: rest => do
      let (items, s) ← readFlowItems handles fuel (s.drop rest) []
      .ok (.ofItems tag items, s)
    | .flowMappingStart :: rest => do
      let (entries, s) ← readFlowEntries handles fuel (s.drop rest) []
      .ok (.ofEntries tag entries, s)
    | tokens =>
      match place, tokens with
      | .entry, .blockEntry :: _ => do
        let (items, s) ← readLooseItems handles fuel s []
        .ok (.ofItems tag items, s)
      | .block, .blockListStart :: rest | .entry, .blockListStart :: rest => do
        let (items, s) ← readItems handles fuel (s.drop rest) []
        .ok (.ofItems tag items, s)
      | .block, .blockMappingStart :: rest | .entry, .blockMappingStart :: rest => do
        let (entries, s) ← readEntries handles fuel (s.drop rest) []
        .ok (.ofEntries tag entries, s)
      | _, _ =>
        if hasProperties then .ok (.ofScalar tag "" true, s) else .error .malformed

/-- A node, or a missing value where one of some tokens comes next. -/
def readOptional (handles : Mapping String) :
    Nat → NodePlace → List Token → NodeState → Except Fault (Node × NodeState)
  | 0, _, _, _ => .error .malformed
  | fuel + 1, place, ends, s =>
    if s.isAt ends then .ok (.absent, s) else readNode handles fuel place s

/-- The value after a key, which may be missing together with its mark. -/
def readValue (handles : Mapping String) :
    Nat → NodePlace → List Token → NodeState → Except Fault (Node × NodeState)
  | 0, _, _, _ => .error .malformed
  | fuel + 1, place, ends, s =>
    match s.tokens with
    | .value :: rest => readOptional handles fuel place ends (s.drop rest)
    | _ => .ok (.absent, s)

/-- The items of a block list, after those read already in reverse. -/
def readItems (handles : Mapping String) :
    Nat → NodeState → List Node → Except Fault (List Node × NodeState)
  | 0, _, _ => .error .malformed
  | fuel + 1, s, done =>
    match s.tokens with
    | .blockEntry :: rest => do
      let (item, s) ← readOptional handles fuel .block itemEnds (s.drop rest)
      readItems handles fuel s (item :: done)
    | .blockEnd :: rest => .ok (done.reverse, s.drop rest)
    | _ => .error .malformed

/-- The items of a list that is not indented below its key. -/
def readLooseItems (handles : Mapping String) :
    Nat → NodeState → List Node → Except Fault (List Node × NodeState)
  | 0, _, _ => .error .malformed
  | fuel + 1, s, done =>
    match s.tokens with
    | .blockEntry :: rest => do
      let (item, s) ← readOptional handles fuel .block looseItemEnds (s.drop rest)
      readLooseItems handles fuel s (item :: done)
    | _ => .ok (done.reverse, s)

/-- The entries of a block mapping. -/
def readEntries (handles : Mapping String) :
    Nat → NodeState → List (Node × Node) → Except Fault (List (Node × Node) × NodeState)
  | 0, _, _ => .error .malformed
  | fuel + 1, s, done =>
    match s.tokens with
    | .key :: rest => do
      let (key, s) ← readOptional handles fuel .entry entryEnds (s.drop rest)
      let (value, s) ← readValue handles fuel .entry entryEnds s
      readEntries handles fuel s ((key, value) :: done)
    | .blockEnd :: rest => .ok (done.reverse, s.drop rest)
    | _ => .error .malformed

/-- A key with its value in a flow collection that a token ends. -/
def readFlowPair (handles : Mapping String) :
    Nat → Token → NodeState → Except Fault ((Node × Node) × NodeState)
  | 0, _, _ => .error .malformed
  | fuel + 1, close, s => do
    let (key, s) ← readOptional handles fuel .flow [.value, .flowEntry, close] s
    let (value, s) ← readValue handles fuel .flow [.flowEntry, close] s
    .ok ((key, value), s)

/-- The items of a flow list. A key with its value is a mapping of one entry. -/
def readFlowItems (handles : Mapping String) :
    Nat → NodeState → List Node → Except Fault (List Node × NodeState)
  | 0, _, _ => .error .malformed
  | fuel + 1, s, done =>
    match s.tokens with
    | .flowListEnd :: rest => .ok (done.reverse, s.drop rest)
    | tokens => do
      let (item, s) ← match tokens with
        | .key :: rest => do
          let (entry, s) ← readFlowPair handles fuel .flowListEnd (s.drop rest)
          .ok (Node.ofEntries none [entry], s)
        | _ => readNode handles fuel .flow s
      match s.tokens with
      | .flowEntry :: rest => readFlowItems handles fuel (s.drop rest) (item :: done)
      | .flowListEnd :: rest => .ok ((item :: done).reverse, s.drop rest)
      | _ => .error .malformed

/-- The entries of a flow mapping. A node without a mark is a key without a value. -/
def readFlowEntries (handles : Mapping String) :
    Nat → NodeState → List (Node × Node) → Except Fault (List (Node × Node) × NodeState)
  | 0, _, _ => .error .malformed
  | fuel + 1, s, done =>
    match s.tokens with
    | .flowMappingEnd :: rest => .ok (done.reverse, s.drop rest)
    | tokens => do
      let (entry, s) ← match tokens with
        | .key :: rest => readFlowPair handles fuel .flowMappingEnd (s.drop rest)
        | _ => do
          let (key, s) ← readNode handles fuel .flow s
          .ok ((key, Node.absent), s)
      match s.tokens with
      | .flowEntry :: rest => readFlowEntries handles fuel (s.drop rest) (entry :: done)
      | .flowMappingEnd :: rest => .ok ((entry :: done).reverse, s.drop rest)
      | _ => .error .malformed
end

/-- What the directives before a document say. -/
structure Prologue where
  hasVersion : Bool
  handles : Mapping String

/-- The directives before a document, and the tokens after them. -/
def readPrologue : List Token → Prologue → Except Fault (Prologue × List Token)
  | .directive (.version major _) :: rest, p =>
    if p.hasVersion || major ≠ 1 then .error .malformed
    else readPrologue rest { p with hasVersion := true }
  | .directive (.handle name start) :: rest, p =>
    if Mapping.has p.handles name then .error .malformed
    else readPrologue rest { p with handles := (name, start) :: p.handles }
  | .directive .other :: rest, p => readPrologue rest p
  | tokens, p => .ok (p, tokens)

/-- Whether the tokens after a document hold nothing more. -/
def isTail (tokens : List Token) : Bool :=
  tokens.all (· == .documentEnd)

namespace Node

/-- The only document of the tokens, given its handles and where it starts. -/
def ofDocument? (handles : Mapping String) (tokens : List Token) (mayBeEmpty : Bool) :
    Except Fault Node := do
  let s : NodeState := ⟨tokens, []⟩
  let isEmpty := mayBeEmpty &&
    match tokens with
    | [] | .directive _ :: _ | .documentStart :: _ | .documentEnd :: _ => true
    | _ => false
  let (node, s) ← if isEmpty then .ok (absent, s)
    else readNode handles (4 * tokens.length + 8) .block s
  if isTail s.tokens then .ok node else .error .malformed

/-- The tree of the tokens of a text, if there is a document. -/
def ofTokens? (tokens : List Token) : Except Fault (Option Node) :=
  match tokens with
  | [] => .ok none
  | .directive _ :: _ | .documentStart :: _ => do
    let (p, rest) ← readPrologue tokens ⟨false, []⟩
    match rest with
    | .documentStart :: rest =>
      .ok (some (← ofDocument? (p.handles ++ standardHandles) rest true))
    | _ => .error .malformed
  | _ => do .ok (some (← ofDocument? standardHandles tokens false))

end Node

end DesignTokens.Yaml
