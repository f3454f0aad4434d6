import DesignTokens.Proofs.Document.Precedence
import DesignTokens.Proofs.Style.Chain

/-!
# What is left out of a style object

A value of a style object gives a property when it is a text, a number or a truth value, and it gives
the properties of a state when it is an object under the name of the state. Each other value that is
met on the way along the states is left out with one warning, and the warnings come in the order in
which a reader of the style object meets these values.

## Main definitions

- `Document.isLiteral`, `LeftOut` — a value that a property is given, and one that gives nothing
- `StylePlace` — an entry of a style object for a chain of states
- `Document.MetBefore` — which of two values a reader of a document meets first
- `leftOut` — the entries of a style object that give nothing
-/

namespace DesignTokens

namespace Document

/-- A text, a number or a truth value. -/
def isLiteral : Document → Bool
  | text _ | bool _ | int _ | float _ => true
  | _ => false

theorem isLiteral_eq (d : Document) : d.isLiteral = (plainNode? d).isSome := by
  cases d <;> rfl

/-- What stands at one path of keys is met before what stands at another one when a document is read
from its start: the paths part at two keys of a mapping, which come in this order. -/
def MetBefore (d : Document) (path later : List String) : Prop :=
  ∃ (shared : List String) (entries : Mapping Document) (key other : String)
    (rest more : List String), d.at? shared = some (.mapping entries) ∧
      [key, other].Sublist (Mapping.keys entries) ∧
      path = shared ++ key :: rest ∧ later = shared ++ other :: more

namespace MetBefore

variable {entries inner : Mapping Document} {key other : String} {path later : List String}

theorem beside (h : [key, other].Sublist (Mapping.keys entries)) (rest more : List String) :
    (mapping entries).MetBefore (key :: rest) (other :: more) :=
  ⟨[], entries, key, other, rest, more, at?_nil _, h, rfl, rfl⟩

theorem within (hkey : Mapping.find? entries key = some (.mapping inner))
    (h : (mapping inner).MetBefore path later) :
    (mapping entries).MetBefore (key :: path) (key :: later) := by
  obtain ⟨shared, block, first, second, rest, more, hblock, hkeys, rfl, rfl⟩ := h
  refine ⟨key :: shared, block, first, second, rest, more, ?_, hkeys, rfl, rfl⟩
  rwa [at?_cons, get?_mapping, hkey, Option.bind_some]

/-- An entry in front of a mapping changes nothing about the order of the others. -/
theorem cons (hfresh : key ∉ Mapping.keys entries) (value : Document)
    (h : (mapping entries).MetBefore path later) :
    (mapping ((key, value) :: entries)).MetBefore path later := by
  obtain ⟨_ | ⟨head, shared⟩, block, first, second, rest, more, hblock, hkeys, rfl, rfl⟩ := h
  · cases (at?_nil _).symm.trans hblock
    exact beside (hkeys.cons key) rest more
  · refine ⟨head :: shared, block, first, second, rest, more, ?_, hkeys, rfl, rfl⟩
    have hne : key ≠ head := by
      rintro rfl
      rw [at?_cons, get?_mapping, (Mapping.find?_eq_none_iff _ _).mpr hfresh] at hblock
      cases hblock
    rwa [at?_cons, get?_mapping, Mapping.find?_cons, if_neg hne, ← get?_mapping, ← at?_cons]

/-- Without repeated keys nothing is met before itself. -/
theorem irrefl {d : Document} {rule : LeafRule} (hd : d.Regular rule) (path : List String) :
    ¬d.MetBefore path path := by
  rintro ⟨shared, block, first, second, rest, more, hblock, hkeys, rfl, heq⟩
  obtain ⟨rfl, -⟩ := List.cons.inj (List.append_cancel_left heq)
  exact absurd (hkeys.nodup (hd.at? hblock).nodup_keys) (by simp)

end MetBefore

end Document

/-- A value gives neither a property nor the properties of a state under its key. -/
def LeftOut (key : String) (d : Document) : Prop :=
  d.isLiteral = false ∧ ¬(d.isMapping = true ∧ ∃ state : Interaction, state.key = key)

instance (key : String) (d : Document) : Decidable (LeftOut key d) :=
  decidable_of_iff (d.isLiteral = false ∧ ¬(d.isMapping = true ∧ isState key = true))
    (by rw [LeftOut, Interaction.isState_iff])

/-- An entry of a style object for a chain of states. -/
structure StylePlace where
  chain : List Interaction
  key : String
  value : Document

namespace StylePlace

/-- The keys that lead to an entry, and its own. -/
def path (place : StylePlace) : List String :=
  place.chain.map Interaction.key ++ [place.key]

/-- The same entry, seen from outside the object of a state. -/
def under (state : Interaction) (place : StylePlace) : StylePlace :=
  { place with chain := state :: place.chain }

/-- What is said of an entry that is left out: an object stands under no state, and any other value is
no literal. -/
def warning (place : StylePlace) : StyleWarning :=
  if place.value.isMapping then .unknownNesting place.key else .notScalar place.key place.value

end StylePlace

mutual
/-- What is left out at a key of a style object. -/
def leftOutAt (key : String) : Document → List StylePlace
  | .mapping entries =>
    match Interaction.ofKey? key with
    | some state => (leftOut entries).map (StylePlace.under state)
    | none => [⟨[], key, .mapping entries⟩]
  | d => if d.isLiteral then [] else [⟨[], key, d⟩]

/-- What is left out of a style object, in order. -/
def leftOut : List (String × Document) → List StylePlace
  | [] => []
  | (key, value) :: rest => leftOutAt key value ++ leftOut rest
end

section Places

variable {style : Mapping Document} {key : String} {d : Document} {place : StylePlace}
  {leaf : LeafRule}

theorem leftOutAt_state (state : Interaction) (entries : Mapping Document) :
    leftOutAt state.key (.mapping entries) = (leftOut entries).map (StylePlace.under state) := by
  rw [leftOutAt, Interaction.ofKey?_eq_some_iff.mpr rfl]

theorem leftOutAt_of_leftOut (h : LeftOut key d) : leftOutAt key d = [⟨[], key, d⟩] := by
  obtain ⟨hliteral, hstate⟩ := h
  cases d with
  | mapping entries =>
    have hnone : Interaction.ofKey? key = none := by
      refine Option.eq_none_iff_forall_ne_some.mpr fun state hkey => hstate ⟨rfl, state, ?_⟩
      exact Interaction.ofKey?_eq_some_iff.mp hkey
    rw [leftOutAt, hnone]
  | null | stamp _ | list _ => rfl
  | _ => cases hliteral

theorem leftOutAt_of_isLiteral (h : d.isLiteral = true) (key : String) : leftOutAt key d = [] := by
  cases d with
  | text _ | bool _ | int _ | float _ => rfl
  | _ => cases h

/-- An entry gives a property or the properties of a state, or it is left out. -/
theorem literal_or_state_or_leftOut (key : String) (d : Document) :
    d.isLiteral = true ∨ (∃ (state : Interaction) (entries : Mapping Document), state.key = key ∧
      d = .mapping entries) ∨ LeftOut key d := by
  by_cases hliteral : d.isLiteral = true
  · exact .inl hliteral
  by_cases hstate : d.isMapping = true ∧ ∃ state : Interaction, state.key = key
  · obtain ⟨hmapping, state, hkey⟩ := hstate
    cases d with
    | mapping entries => exact .inr (.inl ⟨state, entries, hkey, rfl⟩)
    | _ => cases hmapping
  · exact .inr (.inr ⟨Bool.eq_false_iff.mpr hliteral, hstate⟩)

theorem nodeWarnings_of_leftOut (h : LeftOut key d) :
    nodeWarnings key d = [(⟨[], key, d⟩ : StylePlace).warning] := by
  obtain ⟨hliteral, hstate⟩ := h
  cases d with
  | mapping entries =>
    have hkey : ¬isState key = true := fun hkey => hstate ⟨rfl, Interaction.isState_iff.mp hkey⟩
    rw [nodeWarnings, if_neg hkey]
    rfl
  | null | stamp _ | list _ => rfl
  | _ => cases hliteral

/-- The warnings of a style object are those of the entries that are left out. -/
theorem styleWarnings_eq (style : Mapping Document) :
    styleWarnings style = (leftOut style).map StylePlace.warning := by
  induction style using styleInduction with
  | step style ih =>
    induction style with
    | nil => rfl
    | cons entry rest ihrest =>
      obtain ⟨key, d⟩ := entry
      rw [styleWarnings, leftOut, List.map_append,
        ihrest fun key inner hmem => ih key inner (List.mem_cons_of_mem _ hmem)]
      congr 1
      rcases literal_or_state_or_leftOut key d with hliteral | ⟨state, entries, rfl, rfl⟩ | hleft
      · rw [leftOutAt_of_isLiteral hliteral]
        cases d with
        | text _ | bool _ | int _ | float _ => rfl
        | _ => cases hliteral
      · have hstate : isState state.key = true := Interaction.isState_iff.mpr ⟨state, rfl⟩
        rw [nodeWarnings, if_pos hstate, ih _ entries List.mem_cons_self, leftOutAt_state,
          List.map_map]
        rfl
      · rw [nodeWarnings_of_leftOut hleft, leftOutAt_of_leftOut hleft, List.map_singleton]

theorem mem_leftOut_iff_entry :
    place ∈ leftOut style ↔ ∃ entry ∈ style, place ∈ leftOutAt entry.1 entry.2 := by
  induction style with
  | nil => simp [leftOut]
  | cons entry rest ih => rw [leftOut, List.mem_append, ih, List.exists_mem_cons_iff]

/-- What is left out is each entry for a chain of states that gives nothing. -/
theorem mem_leftOut (hstyle : (Document.mapping style).Regular leaf) : place ∈ leftOut style ↔
    ∃ block, blockAt style place.chain = some block ∧
      Mapping.find? block place.key = some place.value ∧ LeftOut place.key place.value := by
  induction style using styleInduction generalizing place with
  | step style ih =>
    rw [mem_leftOut_iff_entry]
    constructor
    · rintro ⟨⟨key, d⟩, hmem, hplace⟩
      have hfind := Mapping.find?_of_mem hstyle.nodup_keys hmem
      rcases literal_or_state_or_leftOut key d with hliteral | ⟨state, inner, rfl, rfl⟩ | hleft
      · rw [leftOutAt_of_isLiteral hliteral] at hplace
        cases hplace
      · rw [leftOutAt_state] at hplace
        obtain ⟨below, hbelow, rfl⟩ := List.mem_map.mp hplace
        obtain ⟨block, hblock, hkey⟩ := (ih _ _ hmem (hstyle.find? hfind)).mp hbelow
        exact ⟨block, (blockAt_cons_of_mapping hfind _).trans hblock, hkey⟩
      · rw [leftOutAt_of_leftOut hleft] at hplace
        cases List.mem_singleton.mp hplace
        exact ⟨style, rfl, hfind, hleft⟩
    · obtain ⟨_ | ⟨state, chain⟩, key, d⟩ := place
      · rintro ⟨block, hblock, hfind, hleft⟩
        cases hblock
        refine ⟨(key, d), Mapping.mem_of_find? hfind, ?_⟩
        rw [leftOutAt_of_leftOut hleft]
        exact List.mem_singleton_self _
      · rintro ⟨block, hblock, hkey⟩
        obtain ⟨inner, hfind, hblock⟩ := blockAt_cons_eq_some_iff.mp hblock
        have hmem := Mapping.mem_of_find? hfind
        refine ⟨(state.key, .mapping inner), hmem, ?_⟩
        rw [leftOutAt_state]
        have hbelow : (⟨chain, key, d⟩ : StylePlace) ∈ leftOut inner :=
          (ih _ _ hmem (hstyle.find? hfind)).mpr ⟨block, hblock, hkey⟩
        exact List.mem_map_of_mem hbelow

theorem exists_path_of_mem_leftOutAt (h : place ∈ leftOutAt key d) :
    ∃ rest, place.path = key :: rest := by
  rcases literal_or_state_or_leftOut key d with hliteral | ⟨state, inner, rfl, rfl⟩ | hleft
  · rw [leftOutAt_of_isLiteral hliteral] at h
    cases h
  · rw [leftOutAt_state] at h
    obtain ⟨below, -, rfl⟩ := List.mem_map.mp h
    exact ⟨below.path, rfl⟩
  · rw [leftOutAt_of_leftOut hleft] at h
    cases List.mem_singleton.mp h
    exact ⟨[], rfl⟩

/-- What is left out comes in the order in which a reader meets it. -/
theorem pairwise_leftOut (hstyle : (Document.mapping style).Regular leaf) :
    (leftOut style).Pairwise fun place later =>
      (Document.mapping style).MetBefore place.path later.path := by
  -- The outer induction reaches the objects of states, the inner one the later keys.
  induction style using styleInduction with
  | step style ih =>
    induction style with
    | nil => exact .nil
    | cons entry rest ihrest =>
      obtain ⟨key, d⟩ := entry
      obtain ⟨hfresh, hnodup⟩ := List.nodup_cons.mp hstyle.nodup_keys
      obtain ⟨hd, hvalues⟩ := List.forall_mem_cons.mp (Document.regular_mapping.mp hstyle).2
      have hrest := ihrest (fun key inner hmem => ih key inner (List.mem_cons_of_mem _ hmem))
        (Document.regular_mapping.mpr ⟨hnodup, hvalues⟩)
      refine List.pairwise_append.mpr ⟨?_, hrest.imp (Document.MetBefore.cons hfresh d), ?_⟩
      · rcases literal_or_state_or_leftOut key d with hliteral | ⟨state, inner, rfl, rfl⟩ | hleft
        · rw [leftOutAt_of_isLiteral hliteral]
          exact .nil
        · have hfind : Mapping.find? ((state.key, Document.mapping inner) :: rest) state.key =
              some (.mapping inner) := if_pos rfl
          rw [leftOutAt_state, List.pairwise_map]
          exact (ih _ inner List.mem_cons_self hd).imp (Document.MetBefore.within hfind)
        · rw [leftOutAt_of_leftOut hleft]
          exact List.pairwise_singleton _ _
      · intro place hplace later hlater
        obtain ⟨⟨other, value⟩, hmem, hlater⟩ := mem_leftOut_iff_entry.mp hlater
        obtain ⟨below, hpath⟩ := exists_path_of_mem_leftOutAt hplace
        obtain ⟨more, hmore⟩ := exists_path_of_mem_leftOutAt hlater
        rw [hpath, hmore]
        have hother : [other].Sublist (Mapping.keys rest) :=
          List.singleton_sublist.mpr (Mapping.mem_keys_of_mem hmem)
        exact .beside (hother.cons_cons key) below more

/-- Nothing is left out twice. -/
theorem nodup_leftOut (hstyle : (Document.mapping style).Regular leaf) : (leftOut style).Nodup := by
  refine (pairwise_leftOut hstyle).imp ?_
  rintro place _ h rfl
  exact Document.MetBefore.irrefl hstyle _ h

end Places

end DesignTokens
