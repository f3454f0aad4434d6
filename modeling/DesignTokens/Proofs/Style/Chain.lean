import DesignTokens.Proofs.Document.Merging
import DesignTokens.Proofs.Document.Regular
import DesignTokens.Proofs.Text.Pieces
import DesignTokens.Style.Component

/-!
# Style objects along chains of states

A style object gives properties to the plain element and, nested under interaction states, to every
chain of states that it mentions. Laying one style object over another works on each chain alone: the
two objects of a chain are merged, or one of them stands for both.

## Main definitions

- `Interaction`, `chainSuffix` — an interaction state, and what a chain of them adds to a selector
- `blockAt` — the style object for a chain of states
- `declared`, `declaredAt` — the properties of a style object, and those for a chain
- `stateEntries` — the states of a style object with their style objects
-/

namespace DesignTokens

/-- An interaction state. -/
inductive Interaction where
  | hover
  | focus
  | active
  deriving DecidableEq, Repr

namespace Interaction

def key : Interaction → String
  | hover => "hover"
  | focus => "focus"
  | active => "active"

/-- The nested selector of a state. -/
def selector (state : Interaction) : String :=
  "&:" ++ state.key

theorem key_injective : Function.Injective key := by
  intro state other h
  cases state <;> cases other <;> first | rfl | exact absurd h (by decide)

theorem selector_injective : Function.Injective selector := by
  intro state other h
  exact key_injective ((String.append_right_inj _).mp h)

theorem stateSelector?_eq_some_iff {name selector : String} : stateSelector? name = some selector ↔
    ∃ state : Interaction, state.key = name ∧ state.selector = selector := by
  constructor
  · intro h
    unfold stateSelector? at h
    split at h
    · exact ⟨hover, rfl, Option.some.inj h⟩
    · exact ⟨focus, rfl, Option.some.inj h⟩
    · exact ⟨active, rfl, Option.some.inj h⟩
    · cases h
  · rintro ⟨state, rfl, rfl⟩
    cases state <;> rfl

theorem stateSelector_key (state : Interaction) : stateSelector state.key = .ok state.selector := by
  cases state <;> rfl

/-- The state of a name. -/
def ofKey? (name : String) : Option Interaction :=
  [hover, focus, active].find? fun state => state.key = name

theorem ofKey?_eq_some_iff {name : String} {state : Interaction} :
    ofKey? name = some state ↔ state.key = name := by
  constructor
  · intro h
    simpa using List.find?_some h
  · rintro rfl
    cases state <;> rfl

theorem isState_iff {name : String} :
    isState name = true ↔ ∃ state : Interaction, state.key = name := by
  rw [isState, Option.isSome_iff_exists]
  simp only [stateSelector?_eq_some_iff]
  constructor
  · rintro ⟨_, state, rfl, -⟩
    exact ⟨state, rfl⟩
  · rintro ⟨state, rfl⟩
    exact ⟨_, state, rfl, rfl⟩

end Interaction

/-- What a chain of states adds to a selector. -/
def chainSuffix : List Interaction → String
  | [] => ""
  | state :: rest => ":" ++ state.key ++ chainSuffix rest

theorem split_append_chainSuffix (s : String) (chain : List Interaction) :
    Text.split ':' (s ++ chainSuffix chain) = Text.split ':' s ++ chain.map Interaction.key := by
  induction chain generalizing s with
  | nil => simp [chainSuffix]
  | cons state rest ih =>
    have hkey : ':' ∉ state.key.toList := by cases state <;> decide
    rw [chainSuffix, String.append_assoc, ← String.append_assoc,
      Text.split_append (show ":".toList = [':'] from rfl), ih, Text.split_of_not_mem hkey]
    rfl

/-- Behind texts without colons, chains of states are told apart. -/
theorem append_chainSuffix_inj {s t : String} (hs : ':' ∉ s.toList) (ht : ':' ∉ t.toList)
    {chain other : List Interaction} :
    s ++ chainSuffix chain = t ++ chainSuffix other ↔ s = t ∧ chain = other := by
  refine ⟨fun heq => ?_, fun ⟨hst, hchain⟩ => hst ▸ hchain ▸ rfl⟩
  have hpieces := congrArg (Text.split ':') heq
  rw [split_append_chainSuffix, split_append_chainSuffix, Text.split_of_not_mem hs,
    Text.split_of_not_mem ht] at hpieces
  obtain ⟨hst, hchain⟩ := List.cons.inj hpieces
  exact ⟨hst, Interaction.key_injective.list_map hchain⟩

theorem chainSuffix_injective : Function.Injective chainSuffix := by
  intro chain other h
  have hempty : ':' ∉ "".toList := by decide
  exact ((append_chainSuffix_inj hempty hempty).mp (congrArg ("" ++ ·) h)).2

/-- The style object for a chain of states, if a style object has one. -/
def blockAt (style : Mapping Document) : List Interaction → Option (Mapping Document)
  | [] => some style
  | state :: rest =>
    ((Mapping.find? style state.key).bind Document.entries?).bind fun inner => blockAt inner rest

/-- The properties that a style object gives to the plain element, in order. -/
def declared (style : Mapping Document) : List StyleEntry :=
  style.filterMap fun entry => (plainNode? entry.2).map (entry.1, ·)

/-- The properties that a style object gives for a chain of states. -/
def declaredAt (style : Mapping Document) (chain : List Interaction) : List StyleEntry :=
  ((blockAt style chain).map declared).getD []

/-- The state of an entry with the style object that the entry gives it. -/
def stateOf? (entry : String × Document) : Option (Interaction × Mapping Document) :=
  entry.2.entries?.bind fun inner => (Interaction.ofKey? entry.1).map (·, inner)

/-- The states of a style object with their style objects, in order. -/
def stateEntries (style : Mapping Document) : List (Interaction × Mapping Document) :=
  style.filterMap stateOf?

/-- What a style object gives to a property of the plain element. -/
def nodeAt (style : Mapping Document) (key : String) : Option StyleNode :=
  (Mapping.find? style key).bind plainNode?

/-- Induction over a style object, which is reached from the style objects that it holds. -/
@[elab_as_elim]
theorem styleInduction {P : Mapping Document → Prop}
    (step : ∀ style : Mapping Document,
      (∀ key inner, (key, Document.mapping inner) ∈ style → P inner) → P style)
    (style : Mapping Document) : P style := by
  have h : ∀ d : Document, ∀ style, d = .mapping style → P style := by
    intro d
    induction d using Document.byParts with
    | mapping entries ih =>
      rintro _ ⟨⟩
      exact step entries fun key inner hmem => ih _ hmem inner rfl
    | _ => rintro _ ⟨⟩
  exact h _ style rfl

@[simp] theorem blockAt_nil (style : Mapping Document) : blockAt style [] = some style := rfl

@[simp] theorem declaredAt_nil (style : Mapping Document) : declaredAt style [] = declared style :=
  rfl

section Declared

variable {style : Mapping Document} {rule : LeafRule}

theorem declaredAt_of_some {chain : List Interaction} {block : Mapping Document}
    (h : blockAt style chain = some block) : declaredAt style chain = declared block := by
  rw [declaredAt, h, Option.map_some, Option.getD_some]

theorem declaredAt_of_none {chain : List Interaction} (h : blockAt style chain = none) :
    declaredAt style chain = [] := by
  rw [declaredAt, h, Option.map_none, Option.getD_none]

theorem blockAt_cons_of_mapping {state : Interaction} {inner : Mapping Document}
    (h : Mapping.find? style state.key = some (.mapping inner)) (rest : List Interaction) :
    blockAt style (state :: rest) = blockAt inner rest := by
  rw [blockAt, h]
  rfl

theorem blockAt_cons_eq_some_iff {state : Interaction} {rest : List Interaction}
    {block : Mapping Document} : blockAt style (state :: rest) = some block ↔
      ∃ inner, Mapping.find? style state.key = some (.mapping inner) ∧
        blockAt inner rest = some block := by
  constructor
  · intro h
    obtain ⟨inner, hinner, hblock⟩ := Option.bind_eq_some_iff.mp h
    obtain ⟨d, hd, hentries⟩ := Option.bind_eq_some_iff.mp hinner
    cases d with
    | mapping entries =>
      cases hentries
      exact ⟨inner, hd, hblock⟩
    | _ => cases hentries
  · rintro ⟨inner, hinner, hblock⟩
    rwa [blockAt_cons_of_mapping hinner]

theorem blockAt_cons_of_ne {state : Interaction}
    (h : ∀ inner, Mapping.find? style state.key ≠ some (.mapping inner)) (rest : List Interaction) :
    blockAt style (state :: rest) = none := by
  refine Option.eq_none_iff_forall_ne_some.mpr fun block hblock => ?_
  obtain ⟨inner, hinner, -⟩ := blockAt_cons_eq_some_iff.mp hblock
  exact h inner hinner

theorem declaredAt_congr {style' : Mapping Document} {chain chain' : List Interaction}
    (h : blockAt style chain = blockAt style' chain') :
    declaredAt style chain = declaredAt style' chain' := by
  rw [declaredAt, h, declaredAt]

theorem declared_eq_filterMap (h : (Mapping.keys style).Nodup) :
    declared style = (Mapping.keys style).filterMap fun key => (nodeAt style key).map (key, ·) := by
  rw [declared, Mapping.keys, List.filterMap_map]
  refine List.filterMap_congr fun entry hmem => ?_
  rw [Function.comp_apply, nodeAt, Mapping.find?_of_mem h hmem, Option.bind_some]

theorem mem_declared (h : (Mapping.keys style).Nodup) {key : String} {node : StyleNode} :
    (key, node) ∈ declared style ↔ nodeAt style key = some node := by
  rw [declared_eq_filterMap h, List.mem_filterMap]
  constructor
  · rintro ⟨other, -, hnode⟩
    obtain ⟨_, hnode, heq⟩ := Option.map_eq_some_iff.mp hnode
    cases heq
    exact hnode
  · intro hnode
    obtain ⟨d, hd, -⟩ := Option.bind_eq_some_iff.mp hnode
    refine ⟨key, ?_, by rw [hnode, Option.map_some]⟩
    exact Mapping.mem_keys_of_mem (Mapping.mem_of_find? hd)

theorem stateOf?_eq_some_iff {entry : String × Document} {state : Interaction}
    {inner : Mapping Document} :
    stateOf? entry = some (state, inner) ↔ entry = (state.key, .mapping inner) := by
  obtain ⟨key, d⟩ := entry
  constructor
  · intro h
    obtain ⟨entries, hentries, hstate⟩ := Option.bind_eq_some_iff.mp h
    obtain ⟨other, hother, heq⟩ := Option.map_eq_some_iff.mp hstate
    cases heq
    cases d with
    | mapping _ =>
      cases hentries
      rw [Interaction.ofKey?_eq_some_iff.mp hother]
    | _ => cases hentries
  · rintro ⟨⟩
    simp [stateOf?, Document.entries?, Interaction.ofKey?_eq_some_iff.mpr rfl]

theorem mem_stateEntries (h : (Mapping.keys style).Nodup) {state : Interaction}
    {inner : Mapping Document} : (state, inner) ∈ stateEntries style ↔
      Mapping.find? style state.key = some (.mapping inner) := by
  rw [stateEntries, List.mem_filterMap]
  simp only [stateOf?_eq_some_iff, exists_eq_right]
  exact ⟨Mapping.find?_of_mem h, Mapping.mem_of_find?⟩

/-- Without repeated keys no state occurs twice. -/
theorem pairwise_stateEntries (h : (Mapping.keys style).Nodup) :
    (stateEntries style).Pairwise fun entry other => entry.1 ≠ other.1 := by
  refine (List.pairwise_map.mp h).filterMap stateOf? ?_
  rintro entry other hne ⟨state, _⟩ hfirst ⟨_, _⟩ hsecond rfl
  rw [stateOf?_eq_some_iff.mp hfirst, stateOf?_eq_some_iff.mp hsecond] at hne
  exact hne rfl

theorem regular_blockAt (h : (Document.mapping style).Regular rule) {chain : List Interaction}
    {block : Mapping Document} (hblock : blockAt style chain = some block) :
    (Document.mapping block).Regular rule := by
  induction chain generalizing style with
  | nil => cases hblock; exact h
  | cons state rest ih =>
    obtain ⟨inner, hinner, hblock⟩ := blockAt_cons_eq_some_iff.mp hblock
    exact ih (h.find? hinner) hblock

end Declared

section Merged

variable {lower upper : Mapping Document} {rule : LeafRule}

@[simp] theorem plainNode?_mapping (entries : Mapping Document) :
    plainNode? (.mapping entries) = none := rfl

theorem plainNode?_overlay (old : Option Document) (value : Document) :
    plainNode? (overlay old value) = plainNode? value := by
  cases value with
  | mapping entries =>
    by_cases hold : ∃ base, old = some (.mapping base)
    · obtain ⟨base, rfl⟩ := hold
      rw [overlay_mapping, plainNode?_mapping, plainNode?_mapping]
    · rw [overlay_over_not_mapping (not_exists.mp hold)]
  | _ => rw [overlay_of_not_mapping _ (by simp)]

/-- A merged style object gives a property what the upper one has under its key, if it has the
key. -/
theorem nodeAt_deepMerge (h : (Mapping.keys upper).Nodup) (key : String) :
    nodeAt (deepMerge lower upper) key =
      if key ∈ Mapping.keys upper then nodeAt upper key else nodeAt lower key := by
  rw [nodeAt, find?_deepMerge h]
  split
  · next hkey =>
    obtain ⟨value, hvalue⟩ := Mapping.exists_find?_of_mem_keys hkey
    simp [nodeAt, hvalue, plainNode?_overlay]
  · next hkey =>
    rw [(Mapping.find?_eq_none_iff upper key).mpr hkey]
    rfl

theorem mem_declared_deepMerge (hlower : (Mapping.keys lower).Nodup)
    (hupper : (Mapping.keys upper).Nodup) {entry : StyleEntry}
    (h : entry ∈ declared (deepMerge lower upper)) :
    entry ∈ declared lower ∨ entry ∈ declared upper := by
  rw [mem_declared (nodup_keys_deepMerge hlower hupper), nodeAt_deepMerge hupper] at h
  split at h
  · exact .inr ((mem_declared hupper).mpr h)
  · exact .inl ((mem_declared hlower).mpr h)

/-- For a chain of states the two style objects are merged, or one of them stands for both; the lower
one is lost where the upper one has no object on the way to the chain. -/
theorem blockAt_deepMerge_cases (h : (Document.mapping upper).Regular rule)
    (chain : List Interaction) :
    (∃ below above, blockAt lower chain = some below ∧ blockAt upper chain = some above ∧
        blockAt (deepMerge lower upper) chain = some (deepMerge below above)) ∨
      (blockAt lower chain = none ∧ blockAt (deepMerge lower upper) chain = blockAt upper chain) ∨
      (blockAt upper chain = none ∧ (blockAt (deepMerge lower upper) chain = blockAt lower chain ∨
        blockAt (deepMerge lower upper) chain = none)) := by
  induction chain generalizing lower upper with
  | nil => exact .inl ⟨lower, upper, rfl, rfl, rfl⟩
  | cons state rest ih =>
    have hnodup := h.nodup_keys
    simp only [blockAt, find?_deepMerge hnodup]
    cases hupper : Mapping.find? upper state.key with
    | none => simp
    | some value =>
      cases value with
      | mapping above =>
        by_cases hlower : ∃ below, Mapping.find? lower state.key = some (.mapping below)
        · obtain ⟨below, hlower⟩ := hlower
          simp only [hlower, Option.map_some, overlay_mapping, Option.some_or, Option.bind_some,
            Document.entries?]
          exact ih (h.find? hupper)
        · rw [Option.map_some, overlay_over_not_mapping (not_exists.mp hlower)]
          refine .inr (.inl ⟨?_, rfl⟩)
          cases hfind : Mapping.find? lower state.key with
          | none => rfl
          | some d =>
            cases d with
            | mapping below => exact absurd ⟨below, hfind⟩ hlower
            | _ => rfl
      | _ =>
        rw [Option.map_some, overlay_of_not_mapping _ (by simp)]
        exact .inr (.inr ⟨rfl, .inr rfl⟩)

/-- A merged style object declares nothing new. -/
theorem mem_declaredAt_deepMerge (hlower : (Document.mapping lower).Regular rule)
    (hupper : (Document.mapping upper).Regular rule) {chain : List Interaction} {entry : StyleEntry}
    (h : entry ∈ declaredAt (deepMerge lower upper) chain) :
    entry ∈ declaredAt lower chain ∨ entry ∈ declaredAt upper chain := by
  rcases blockAt_deepMerge_cases hupper chain with ⟨below, above, hbelow, habove, hmerged⟩ |
    ⟨-, hmerged⟩ | ⟨-, hmerged | hmerged⟩
  · rw [declaredAt_of_some hmerged] at h
    rw [declaredAt_of_some hbelow, declaredAt_of_some habove]
    exact mem_declared_deepMerge (regular_blockAt hlower hbelow).nodup_keys
      (regular_blockAt hupper habove).nodup_keys h
  · exact .inr (declaredAt_congr hmerged ▸ h)
  · exact .inl (declaredAt_congr hmerged ▸ h)
  · rw [declaredAt_of_none hmerged] at h
    cases h

end Merged

end DesignTokens
