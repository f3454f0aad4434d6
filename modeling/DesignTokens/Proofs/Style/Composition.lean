import DesignTokens.Config.Standard
import DesignTokens.Proofs.Style.Compiled
import DesignTokens.Proofs.Style.Layering

/-!
# Composed rules

One style object can be laid over another before both are compiled, or the rule of one over the rule
of the other afterwards. Both come to the same rule, with all properties and nested rules in the same
order, as long as nothing is left out of the style objects and no key stands for a property in one of
them and for a state in the other.

## Main definitions

- `Rule.compose` — one rule laid over another, at every depth
- `IsStyle` — a style object of scalars and of style objects under interaction states
- `Compatible` — style objects without a scalar in the place of an object
-/

namespace DesignTokens

namespace Rule

mutual
/-- One rule laid over another. Its properties replace those of their names or follow the others, and
its nested rules are laid over those of their selectors or follow the others. -/
def compose : Rule → Rule → Rule
  | lower, ⟨properties, nested⟩ =>
    ⟨Mapping.setAll lower.properties properties, composeNested lower.nested nested⟩
  termination_by structural _ upper => upper

/-- Nested rules laid over those of their selectors. -/
def composeNested : Mapping Rule → List (String × Rule) → Mapping Rule
  | lower, [] => lower
  | lower, (selector, rule) :: rest =>
    let joined := match Mapping.find? lower selector with
      | some inner => compose inner rule
      | none => rule
    composeNested (Mapping.set lower selector joined) rest
  termination_by structural _ upper => upper
end

@[simp] theorem compose_empty (lower : Rule) : lower.compose empty = lower := by
  cases lower
  simp [compose, composeNested, empty, Mapping.setAll]

theorem compose_property (lower : Rule) (key value : String) (properties : Mapping String)
    (nested : Mapping Rule) : lower.compose ⟨(key, value) :: properties, nested⟩ =
      (lower.put key value).compose ⟨properties, nested⟩ := rfl

theorem compose_nested_of_none {lower : Rule} {selector : String}
    (h : Mapping.find? lower.nested selector = none) (rule : Rule) (properties : Mapping String)
    (nested : Mapping Rule) : lower.compose ⟨properties, (selector, rule) :: nested⟩ =
      compose ⟨lower.properties, Mapping.set lower.nested selector rule⟩ ⟨properties, nested⟩ := by
  simp only [compose, composeNested, h]

theorem compose_nested_of_some {lower : Rule} {selector : String} {inner : Rule}
    (h : Mapping.find? lower.nested selector = some inner) (rule : Rule)
    (properties : Mapping String) (nested : Mapping Rule) :
    lower.compose ⟨properties, (selector, rule) :: nested⟩ =
      compose ⟨lower.properties, Mapping.set lower.nested selector (inner.compose rule)⟩
        ⟨properties, nested⟩ := by
  simp only [compose, composeNested, h]

end Rule

/-- A style object of which nothing is left out: its values are scalars or, under interaction states,
style objects of the same form. -/
inductive IsStyle : Mapping Document → Prop
  | mk {style : Mapping Document} (nodup : (Mapping.keys style).Nodup)
      (scalars : ∀ key d, (key, d) ∈ style → d.isMapping = false → (literal? d).isSome = true)
      (states : ∀ key inner, (key, Document.mapping inner) ∈ style → isState key = true)
      (inner : ∀ key inner, (key, Document.mapping inner) ∈ style → IsStyle inner) : IsStyle style

/-- For no chain of states a key holds an object in one of two style objects and something else in
the other. -/
def Compatible (lower upper : Mapping Document) : Prop :=
  ∀ chain below above, blockAt lower chain = some below → blockAt upper chain = some above →
    ∀ key d e, Mapping.find? below key = some d → Mapping.find? above key = some e →
      d.isMapping = e.isMapping

section Entries

variable {r : Resolver} {style : Mapping Document} {rule : Rule} {key : String} {d : Document}

theorem isMapping_eq_true {d : Document} : d.isMapping = true ↔ ∃ entries, d = .mapping entries := by
  cases d <;> simp [Document.isMapping, Document.entries?]

theorem isSome_plainNode? (d : Document) :
    (plainNode? d).isSome = (!d.isMapping && (literal? d).isSome) := by
  cases d <;> rfl

theorem stateOf?_of_plainNode? (h : (plainNode? d).isSome = true) : stateOf? (key, d) = none := by
  cases d with
  | mapping entries => cases h
  | _ => rfl

theorem overlay_of_plainNode? (h : (plainNode? d).isSome = true) (old : Option Document) :
    overlay old d = d := by
  refine overlay_of_not_mapping old ?_
  rintro _ rfl
  cases h

/-- Writing a value that counts for nothing, in the place of such a value or of none. -/
theorem filterMap_set_of_none {α : Type} {f : String × Document → Option α} (hd : f (key, d) = none)
    (hold : ∀ old, Mapping.find? style key = some old → f (key, old) = none) :
    (Mapping.set style key d).filterMap f = style.filterMap f := by
  induction style with
  | nil => simp [Mapping.set, hd]
  | cons entry rest ih =>
    obtain ⟨k, old⟩ := entry
    rw [Mapping.set]
    simp only [Mapping.find?_cons] at hold
    split
    · next hk =>
      subst hk
      rw [List.filterMap_cons_none hd, List.filterMap_cons_none (hold old (if_pos rfl))]
    · next hk =>
      rw [List.filterMap_cons, List.filterMap_cons, ih (fun old h => hold old (by rwa [if_neg hk]))]

/-- Writing a value that counts, in the place of such a value or of none, writes what belongs to it
among what belongs to the others. -/
theorem forall₂_filterMap_set {α β : Type} {f : String × Document → Option α}
    {R : α → String × β → Prop} {values : Mapping β} {name : String} {a : α} {b : β}
    (hnames : ∀ entry a b, f entry = some a → R a b → (entry.1 = key ↔ b.1 = name))
    (hd : f (key, d) = some a) (hb : R a (name, b))
    (hold : ∀ old, Mapping.find? style key = some old → (f (key, old)).isSome = true)
    (h : List.Forall₂ R (style.filterMap f) values) :
    List.Forall₂ R ((Mapping.set style key d).filterMap f) (Mapping.set values name b) := by
  induction style generalizing values with
  | nil =>
    cases h
    simpa [Mapping.set, hd] using hb
  | cons entry rest ih =>
    obtain ⟨k, old⟩ := entry
    simp only [Mapping.find?_cons] at hold
    by_cases hk : k = key
    · subst hk
      obtain ⟨a', ha'⟩ := Option.isSome_iff_exists.mp (hold old (if_pos rfl))
      rw [List.filterMap_cons_some ha'] at h
      obtain ⟨⟨name', b'⟩, rest', hb', hrest, rfl⟩ := List.forall₂_cons_left_iff.mp h
      obtain rfl : name' = name := (hnames _ _ _ ha' hb').mp rfl
      rw [Mapping.set, if_pos rfl, Mapping.set, if_pos rfl, List.filterMap_cons_some hd]
      exact .cons hb hrest
    · have hrest := fun old h => hold old (by rwa [if_neg hk])
      rw [Mapping.set, if_neg hk]
      cases hf : f (k, old) with
      | none =>
        rw [List.filterMap_cons_none hf] at h ⊢
        exact ih hrest h
      | some a' =>
        rw [List.filterMap_cons_some hf] at h ⊢
        obtain ⟨⟨name', b'⟩, rest', hb', hmore, rfl⟩ := List.forall₂_cons_left_iff.mp h
        rw [Mapping.set, if_neg fun heq => hk ((hnames _ _ _ hf hb').mpr heq)]
        exact .cons hb' (ih hrest hmore)

/-- Writing a property of a style object writes the property of its rule. -/
theorem compile_set_property {node : StyleNode} {value : String} (hnodup : (Mapping.keys style).Nodup)
    (hnode : plainNode? d = some node) (hvalue : r.valueOf node = .ok value)
    (hold : ∀ old, Mapping.find? style key = some old → (plainNode? old).isSome = true)
    (h : compileEntries r (styleEntries style) = .ok rule) :
    compileEntries r (styleEntries (Mapping.set style key d)) = .ok (rule.put key value) := by
  rw [compileEntries_eq_ok_iff hnodup] at h
  rw [compileEntries_eq_ok_iff (Mapping.nodup_keys_set hnodup key d)]
  constructor
  · refine forall₂_filterMap_set ?_ (by rw [hnode, Option.map_some]) ⟨rfl, hvalue⟩ ?_ h.1
    · rintro entry a b ha ⟨hname, -⟩
      obtain ⟨_, -, rfl⟩ := Option.map_eq_some_iff.mp ha
      rw [← hname]
    · intro old hfind
      rw [Option.isSome_map]
      exact hold old hfind
  · have hstates : stateEntries (Mapping.set style key d) = stateEntries style := by
      exact filterMap_set_of_none (stateOf?_of_plainNode? (by rw [hnode, Option.isSome_some]))
        fun old hfind => stateOf?_of_plainNode? (hold old hfind)
    rw [hstates]
    exact h.2

/-- Writing the style object of a state writes the rule under the selector of the state. -/
theorem compile_set_state {state : Interaction} {entries : Mapping Document} {inner : Rule}
    (hnodup : (Mapping.keys style).Nodup)
    (hinner : compileEntries r (styleEntries entries) = .ok inner)
    (hold : ∀ old, Mapping.find? style state.key = some old → old.isMapping = true)
    (h : compileEntries r (styleEntries style) = .ok rule) :
    compileEntries r (styleEntries (Mapping.set style state.key (.mapping entries))) =
      .ok ⟨rule.properties, Mapping.set rule.nested state.selector inner⟩ := by
  have hstateOf : ∀ entries, stateOf? (state.key, .mapping entries) = some (state, entries) :=
    fun _ => stateOf?_eq_some_iff.mpr rfl
  rw [compileEntries_eq_ok_iff hnodup] at h
  rw [compileEntries_eq_ok_iff (Mapping.nodup_keys_set hnodup _ _)]
  constructor
  · have hdeclared : declared (Mapping.set style state.key (.mapping entries)) = declared style := by
      refine filterMap_set_of_none rfl fun old hfind => ?_
      obtain ⟨entries, rfl⟩ := isMapping_eq_true.mp (hold old hfind)
      rfl
    rw [hdeclared]
    exact h.1
  · refine forall₂_filterMap_set ?_ (hstateOf entries) ⟨rfl, hinner⟩ ?_ h.2
    · rintro entry ⟨other, _⟩ ⟨_, _⟩ ha ⟨rfl, -⟩
      rw [stateOf?_eq_some_iff.mp ha]
      exact ⟨fun heq => congrArg Interaction.selector (Interaction.key_injective heq),
        fun heq => congrArg Interaction.key (Interaction.selector_injective heq)⟩
    · intro old hfind
      obtain ⟨entries, rfl⟩ := isMapping_eq_true.mp (hold old hfind)
      rw [hstateOf, Option.isSome_some]

/-- A style object that starts with a property has a rule that starts with its value. -/
theorem compile_cons_property {node : StyleNode} {rest : Mapping Document}
    (hnodup : (Mapping.keys ((key, d) :: rest)).Nodup) (hnode : plainNode? d = some node)
    (h : compileEntries r (styleEntries ((key, d) :: rest)) = .ok rule) :
    ∃ value properties, r.valueOf node = .ok value ∧
      rule.properties = (key, value) :: properties ∧
        compileEntries r (styleEntries rest) = .ok ⟨properties, rule.nested⟩ := by
  obtain ⟨hgives, hcompiles⟩ := (compileEntries_eq_ok_iff hnodup).mp h
  rw [declared, List.filterMap_cons_some (by rw [hnode, Option.map_some])] at hgives
  rw [stateEntries, List.filterMap_cons_none (stateOf?_of_plainNode? (by simp [hnode]))] at hcompiles
  obtain ⟨⟨_, value⟩, properties, ⟨rfl, hvalue⟩, hmore, hproperties⟩ :=
    List.forall₂_cons_left_iff.mp hgives
  exact ⟨value, properties, hvalue, hproperties,
    (compileEntries_eq_ok_iff (List.nodup_cons.mp hnodup).2).mpr ⟨hmore, hcompiles⟩⟩

/-- A style object that starts with a state has a rule that starts with the rule of the state. -/
theorem compile_cons_state {state : Interaction} {entries rest : Mapping Document}
    (hnodup : (Mapping.keys ((state.key, .mapping entries) :: rest)).Nodup)
    (h : compileEntries r (styleEntries ((state.key, .mapping entries) :: rest)) = .ok rule) :
    ∃ inner nested, compileEntries r (styleEntries entries) = .ok inner ∧
      rule.nested = (state.selector, inner) :: nested ∧
        compileEntries r (styleEntries rest) = .ok ⟨rule.properties, nested⟩ := by
  obtain ⟨hgives, hcompiles⟩ := (compileEntries_eq_ok_iff hnodup).mp h
  rw [declared, List.filterMap_cons_none rfl] at hgives
  rw [stateEntries, List.filterMap_cons_some (stateOf?_eq_some_iff.mpr rfl)] at hcompiles
  obtain ⟨⟨_, inner⟩, nested, ⟨rfl, hinner⟩, hmore, hnested⟩ :=
    List.forall₂_cons_left_iff.mp hcompiles
  exact ⟨inner, nested, hinner, hnested,
    (compileEntries_eq_ok_iff (List.nodup_cons.mp hnodup).2).mpr ⟨hgives, hmore⟩⟩

end Entries

section Merge

variable {r : Resolver} {lower upper : Mapping Document}

/-- The rules of two style objects compose to the rule of the merged one. -/
def Composes (r : Resolver) (lower upper : Mapping Document) : Prop :=
  ∀ below above, compileEntries r (styleEntries lower) = .ok below →
    compileEntries r (styleEntries upper) = .ok above →
      compileEntries r (styleEntries (deepMerge lower upper)) = .ok (below.compose above)

section Step

variable {rest : Mapping Document}

/-- Merging a property first and the rest of a style object afterwards. -/
theorem Composes.property {key : String} {d : Document} (hlower : (Mapping.keys lower).Nodup)
    (hupper : (Mapping.keys ((key, d) :: rest)).Nodup) (hplain : (plainNode? d).isSome = true)
    (hold : ∀ old, Mapping.find? lower key = some old → (plainNode? old).isSome = true)
    (h : Composes r (Mapping.set lower key d) rest) : Composes r lower ((key, d) :: rest) := by
  rintro below ⟨properties, nested⟩ hbelow habove
  obtain ⟨node, hnode⟩ := Option.isSome_iff_exists.mp hplain
  obtain ⟨value, more, hvalue, rfl, hmore⟩ := compile_cons_property hupper hnode habove
  rw [deepMerge_cons, overlay_of_plainNode? hplain, Rule.compose_property]
  exact h _ _ (compile_set_property hlower hnode hvalue hold hbelow) hmore

/-- Merging a state that the lower style object does not have. -/
theorem Composes.new_state {state : Interaction} {entries : Mapping Document}
    (hlower : (Mapping.keys lower).Nodup)
    (hupper : (Mapping.keys ((state.key, .mapping entries) :: rest)).Nodup)
    (hnone : Mapping.find? lower state.key = none)
    (h : Composes r (Mapping.set lower state.key (.mapping entries)) rest) :
    Composes r lower ((state.key, .mapping entries) :: rest) := by
  rintro below ⟨properties, nested⟩ hbelow habove
  obtain ⟨inner, more, hinner, rfl, hmore⟩ := compile_cons_state hupper habove
  have hcompiles := ((compileEntries_eq_ok_iff hlower).mp hbelow).2
  have hne : ∀ entries, Mapping.find? lower state.key ≠ some (.mapping entries) := by
    simp [hnone]
  rw [deepMerge_cons, overlay_over_not_mapping hne,
    Rule.compose_nested_of_none (find?_nested_of_ne hlower hcompiles hne)]
  exact h _ _ (compile_set_state hlower hinner (by simp [hnone]) hbelow) hmore

/-- Merging a state of both, whose own style objects are merged. -/
theorem Composes.shared_state {state : Interaction} {lowerEntries entries : Mapping Document}
    (hlower : (Mapping.keys lower).Nodup)
    (hupper : (Mapping.keys ((state.key, .mapping entries) :: rest)).Nodup)
    (hfind : Mapping.find? lower state.key = some (.mapping lowerEntries))
    (hentries : Composes r lowerEntries entries)
    (h : Composes r (Mapping.set lower state.key (.mapping (deepMerge lowerEntries entries))) rest) :
    Composes r lower ((state.key, .mapping entries) :: rest) := by
  rintro below ⟨properties, nested⟩ hbelow habove
  obtain ⟨inner, more, hinner, rfl, hmore⟩ := compile_cons_state hupper habove
  have hcompiles := ((compileEntries_eq_ok_iff hlower).mp hbelow).2
  obtain ⟨lowerInner, hnested, hlowerInner⟩ := find?_nested_of_some hlower hcompiles hfind
  have hmerged := hentries lowerInner inner hlowerInner hinner
  rw [deepMerge_cons, hfind, overlay_mapping, Rule.compose_nested_of_some hnested]
  refine h _ _ (compile_set_state hlower hmerged (fun old hold => ?_) hbelow) hmore
  cases hfind.symm.trans hold
  rfl

end Step

/-- A value stands in the place of another of its kind: a scalar in that of a scalar, a style object
in that of one whose rule composes with its own. -/
inductive Meets (r : Resolver) : Document → Document → Prop
  | scalars {d e : Document} (hd : (plainNode? d).isSome = true)
      (he : (plainNode? e).isSome = true) : Meets r d e
  | states {below above : Mapping Document} (h : Composes r below above) :
      Meets r (.mapping below) (.mapping above)

/-- The rules of two style objects compose if the upper one is a style object whose values stand in
the place of their kind. -/
theorem composes_of_meets (hlower : (Mapping.keys lower).Nodup) (hupper : (Mapping.keys upper).Nodup)
    (hkinds : ∀ entry ∈ upper, (plainNode? entry.2).isSome = true ∨
      ∃ (state : Interaction) (inner : Mapping Document), entry = (state.key, .mapping inner))
    (hmeets : ∀ entry ∈ upper, ∀ old, Mapping.find? lower entry.1 = some old →
      Meets r old entry.2) :
    Composes r lower upper := by
  induction upper generalizing lower with
  | nil =>
    intro below above hbelow habove
    cases habove
    rw [deepMerge_nil, hbelow, Rule.compose_empty]
  | cons entry rest ih =>
    obtain ⟨fresh, hrest⟩ := List.nodup_cons.mp hupper
    obtain ⟨hkind, hkinds⟩ := List.forall_mem_cons.mp hkinds
    obtain ⟨hmeet, hmeets⟩ := List.forall_mem_cons.mp hmeets
    -- What stands in the places of the later entries is not touched by merging the first one.
    have hstep : ∀ d, Composes r (Mapping.set lower entry.1 d) rest := by
      intro d
      refine ih (Mapping.nodup_keys_set hlower entry.1 d) hrest hkinds fun other hmem old hfind => ?_
      have hkey := Mapping.mem_keys_of_mem hmem
      have hne : entry.1 ≠ other.1 := fun heq => fresh (heq ▸ hkey)
      rw [Mapping.find?_set_of_ne _ _ hne] at hfind
      exact hmeets other hmem old hfind
    rcases hkind with hplain | ⟨state, entries, rfl⟩
    · obtain ⟨key, d⟩ := entry
      refine .property hlower hupper hplain (fun old hfind => ?_) (hstep d)
      cases hmeet old hfind with
      | scalars hold _ => exact hold
      | states => cases hplain
    · cases hfind : Mapping.find? lower state.key with
      | none => exact .new_state hlower hupper hfind (hstep _)
      | some old =>
        cases hmeet old hfind with
        | scalars _ hplain => cases hplain
        | states hentries => exact .shared_state hlower hupper hfind hentries (hstep _)

end Merge

theorem styleWarnings_eq_nil_iff {style : Mapping Document} :
    styleWarnings style = [] ↔ ∀ entry ∈ style, nodeWarnings entry.1 entry.2 = [] := by
  induction style with
  | nil => simp [styleWarnings]
  | cons entry rest ih => simp [styleWarnings, ih]

namespace IsStyle

variable {style lower upper : Mapping Document}

theorem nodup_keys (h : IsStyle style) : (Mapping.keys style).Nodup := by
  cases h
  assumption

/-- A value of a style object is a scalar or, under a state, a style object. -/
theorem value_cases (h : IsStyle style) {entry : String × Document} (hmem : entry ∈ style) :
    (plainNode? entry.2).isSome = true ∨
      ∃ (state : Interaction) (inner : Mapping Document), entry = (state.key, .mapping inner) ∧
        IsStyle inner := by
  obtain ⟨key, d⟩ := entry
  obtain ⟨-, scalars, states, inner⟩ := h
  cases hd : d.isMapping with
  | false => exact .inl (by rw [isSome_plainNode?, hd, scalars key d hmem hd]; rfl)
  | true =>
    obtain ⟨entries, rfl⟩ := isMapping_eq_true.mp hd
    obtain ⟨state, rfl⟩ := Interaction.isState_iff.mp (states key entries hmem)
    exact .inr ⟨state, entries, rfl, inner _ entries hmem⟩

theorem of_values (nodup : (Mapping.keys style).Nodup)
    (values : ∀ entry ∈ style, (plainNode? entry.2).isSome = true ∨
      ∃ (state : Interaction) (inner : Mapping Document), entry = (state.key, .mapping inner) ∧
        IsStyle inner) : IsStyle style := by
  refine .mk nodup ?_ ?_ ?_
  · intro key d hmem hd
    rcases values _ hmem with hplain | ⟨state, inner, ⟨⟩, -⟩
    · rw [isSome_plainNode?, Bool.and_eq_true] at hplain
      exact hplain.2
    · cases hd
  · intro key inner hmem
    obtain ⟨state, _, ⟨⟩, -⟩ := (values _ hmem).resolve_left (by simp)
    exact Interaction.isState_iff.mpr ⟨state, rfl⟩
  · intro key inner hmem
    obtain ⟨state, _, ⟨⟩, hinner⟩ := (values _ hmem).resolve_left (by simp)
    exact hinner

theorem find? (h : IsStyle style) {key : String} {inner : Mapping Document}
    (hfind : Mapping.find? style key = some (.mapping inner)) : IsStyle inner := by
  obtain ⟨-, -, -, hinner⟩ := h
  exact hinner key inner (Mapping.mem_of_find? hfind)

theorem regular (h : IsStyle style) : (Document.mapping style).Regular .any := by
  induction h with
  | @mk style nodup scalars _ _ ih =>
    refine Document.regular_mapping.mpr ⟨nodup, fun ⟨key, d⟩ hmem => ?_⟩
    cases d with
    | mapping entries => exact ih key entries hmem
    | list items => cases scalars key _ hmem rfl
    | _ => simp [Document.Regular, LeafRule.any]

/-- A mapping without repeated keys of which nothing is left out is a style object. -/
theorem of_warnings (hstyle : (Document.mapping style).Regular .any)
    (hwarnings : styleWarnings style = []) : IsStyle style := by
  induction style using styleInduction with
  | step style ih =>
    have hnode : ∀ key d, (key, d) ∈ style → nodeWarnings key d = [] :=
      fun key d => styleWarnings_eq_nil_iff.mp hwarnings (key, d)
    have hstates : ∀ key inner, (key, Document.mapping inner) ∈ style → isState key = true := by
      intro key inner hmem
      by_contra hstate
      have hwarning := hnode key _ hmem
      rw [nodeWarnings, if_neg hstate] at hwarning
      cases hwarning
    refine .mk hstyle.nodup_keys ?_ hstates ?_
    · intro key d hmem hd
      cases d with
      | mapping inner => cases hd
      | _ => cases hnode key _ hmem <;> rfl
    · intro key inner hmem
      have hwarning := hnode key _ hmem
      rw [nodeWarnings, if_pos (hstates key inner hmem)] at hwarning
      exact ih key inner hmem ((Document.regular_mapping.mp hstyle).2 _ hmem) hwarning

/-- Style objects laid over each other are a style object. -/
theorem deepMerge (hlower : IsStyle lower) (hupper : IsStyle upper) :
    IsStyle (deepMerge lower upper) := by
  induction hupper generalizing lower with
  | @mk upper nodup scalars states inner ih =>
    refine of_values (nodup_keys_deepMerge hlower.nodup_keys nodup) fun ⟨key, d⟩ hmem => ?_
    rcases mem_deepMerge hlower.nodup_keys nodup hmem with hmem | ⟨value, hvalue, rfl⟩
    · exact hlower.value_cases hmem
    · rcases (IsStyle.mk nodup scalars states inner).value_cases hvalue with
        hplain | ⟨state, entries, ⟨⟩, hentries⟩
      · exact .inl (by rwa [overlay_of_plainNode? hplain])
      · by_cases hold : ∃ below, Mapping.find? lower state.key = some (.mapping below)
        · obtain ⟨below, hold⟩ := hold
          rw [hold, overlay_mapping]
          exact .inr ⟨state, _, rfl, ih _ entries hvalue (hlower.find? hold)⟩
        · rw [overlay_over_not_mapping (not_exists.mp hold)]
          exact .inr ⟨state, entries, rfl, hentries⟩

end IsStyle

namespace Compatible

variable {lower upper more : Mapping Document}

/-- Under a state of both the style objects are compatible. -/
theorem inner (h : Compatible lower upper) {state : Interaction} {below above : Mapping Document}
    (hbelow : Mapping.find? lower state.key = some (.mapping below))
    (habove : Mapping.find? upper state.key = some (.mapping above)) : Compatible below above := by
  intro chain block block' hblock hblock'
  rw [← blockAt_cons_of_mapping hbelow] at hblock
  rw [← blockAt_cons_of_mapping habove] at hblock'
  exact h _ block block' hblock hblock'

/-- It is enough to look at the plain element and at the objects of each state. -/
theorem of_states (plain : ∀ entry ∈ lower, ∀ other ∈ upper, entry.1 = other.1 →
      entry.2.isMapping = other.2.isMapping)
    (states : ∀ (state : Interaction) (below above : Mapping Document),
      Mapping.find? lower state.key = some (.mapping below) →
        Mapping.find? upper state.key = some (.mapping above) → Compatible below above) :
    Compatible lower upper := by
  intro chain block block' hblock hblock'
  cases chain with
  | nil =>
    cases hblock
    cases hblock'
    intro key d e hd he
    exact plain _ (Mapping.mem_of_find? hd) _ (Mapping.mem_of_find? he) rfl
  | cons state rest =>
    obtain ⟨below, hbelow, hblock⟩ := blockAt_cons_eq_some_iff.mp hblock
    obtain ⟨above, habove, hblock'⟩ := blockAt_cons_eq_some_iff.mp hblock'
    exact states state below above hbelow habove rest block block' hblock hblock'

/-- What is compatible with two style objects is compatible with the merged one. -/
theorem deepMerge (hlower : Compatible lower more) (hupper : Compatible upper more)
    (h : IsStyle upper) : Compatible (deepMerge lower upper) more := by
  intro chain block other hblock hother key d e hd he
  obtain ⟨below, above, hbelow, habove, hmerged⟩ | ⟨-, hmerged⟩ | ⟨-, hmerged | hmerged⟩ :=
    @blockAt_deepMerge_cases lower upper _ h.regular chain
  · rw [hmerged] at hblock
    cases hblock
    have hnodup := (regular_blockAt h.regular habove).nodup_keys
    rw [find?_deepMerge hnodup, Option.or_eq_some_iff] at hd
    rcases hd with hd | ⟨-, hd⟩
    · obtain ⟨value, hvalue, rfl⟩ := Option.map_eq_some_iff.mp hd
      rw [isMapping_overlay]
      exact hupper chain above other habove hother key value e hvalue he
    · exact hlower chain below other hbelow hother key d e hd he
  · exact hupper chain block other (hmerged ▸ hblock) hother key d e hd he
  · exact hlower chain block other (hmerged ▸ hblock) hother key d e hd he
  · cases hmerged ▸ hblock

end Compatible

/-- The rule of a merged style object is that of the lower one with that of the upper one laid over
it. -/
theorem composes_of_compatible {r : Resolver} {lower upper : Mapping Document} (hlower : IsStyle lower)
    (hupper : IsStyle upper) (h : Compatible lower upper) : Composes r lower upper := by
  induction hupper generalizing lower with
  | @mk upper nodup scalars states inner ih =>
    have hupper := IsStyle.mk nodup scalars states inner
    refine composes_of_meets hlower.nodup_keys nodup (fun entry hmem => ?_) ?_
    · exact (hupper.value_cases hmem).imp_right fun ⟨state, entries, heq, _⟩ => ⟨state, entries, heq⟩
    · intro entry hmem old hold
      have hfind := Mapping.find?_of_mem nodup hmem
      have hkind : old.isMapping = entry.2.isMapping :=
        h [] lower upper rfl rfl entry.1 old entry.2 hold hfind
      rcases hupper.value_cases hmem with hplain | ⟨state, entries, rfl, hentries⟩
      · refine .scalars ?_ hplain
        rcases hlower.value_cases (Mapping.mem_of_find? hold) with hold | ⟨_, inner, heq, -⟩
        · exact hold
        · obtain rfl : old = .mapping inner := congrArg Prod.snd heq
          rw [isSome_plainNode?, ← hkind] at hplain
          cases hplain
      · obtain ⟨below, rfl⟩ := isMapping_eq_true.mp hkind
        exact .states (ih _ entries hmem (hlower.find? hold) (h.inner hold hfind))

section Layers

variable {r : Resolver} {base : Mapping Document} {uppers : List (Mapping Document)} {rule : Rule}
  {rules : List Rule}

/-- The rule of merged layers is that of the lowest one with those of the others laid over it, one
after another. -/
theorem compile_deepMergeAll (hbase : IsStyle base) (huppers : ∀ upper ∈ uppers, IsStyle upper)
    (hcompatible : (base :: uppers).Pairwise Compatible)
    (hrule : compileEntries r (styleEntries base) = .ok rule)
    (hrules : List.Forall₂ (fun style rule => compileEntries r (styleEntries style) = .ok rule) uppers
      rules) :
    compileEntries r (styleEntries (deepMergeAll base uppers)) =
      .ok (rules.foldl Rule.compose rule) := by
  induction hrules generalizing base rule with
  | nil => exact hrule
  | @cons upper above uppers rules habove _ ih =>
    obtain ⟨hupper, huppers⟩ := List.forall_mem_cons.mp huppers
    obtain ⟨hfirst, hrest⟩ := List.pairwise_cons.mp hcompatible
    obtain ⟨hover, hmore⟩ := List.forall_mem_cons.mp hfirst
    obtain ⟨hnext, hpairs⟩ := List.pairwise_cons.mp hrest
    refine ih (hbase.deepMerge hupper) huppers (List.pairwise_cons.mpr ⟨fun style hstyle => ?_, hpairs⟩)
      (composes_of_compatible hbase hupper hover rule above hrule habove)
    exact (hmore style hstyle).deepMerge (hnext style hstyle) hupper

end Layers

theorem compileStyle_eq_ok_iff {config : Config} {mode : String} {policy : Document}
    {style : Mapping Document} {rule : Rule} : compileStyle config mode policy style = .ok rule ↔
      ∃ r, Resolver.make config mode policy = .ok r ∧
        compileEntries r (styleEntries style) = .ok rule :=
  bind_eq_ok_iff

/-- Composing rules is merging style objects: where two style objects are compatible and have rules,
the rule of the merged one is the composed rule; and the rule of a component's selection is composed
of those of its base, variant, size and state in this order. -/
theorem compile_composes :
    (∀ (r : Resolver) (lower upper : Mapping Document) (below above : Rule),
      IsStyle lower → IsStyle upper → Compatible lower upper →
        compileEntries r (styleEntries lower) = .ok below →
          compileEntries r (styleEntries upper) = .ok above →
            compileEntries r (styleEntries (deepMerge lower upper)) = .ok (below.compose above)) ∧
    ∀ (config : Config) (mode : String) (policy : Document) (style : ComponentStyle)
      (selection : Selection) (base variant size state : Rule),
      (∀ layer ∈ style.layers selection, IsStyle layer) →
        (style.layers selection).Pairwise Compatible →
          List.Forall₂ (fun layer rule => compileStyle config mode policy layer = .ok rule)
              (style.layers selection) [base, variant, size, state] →
            compileComponent style config mode policy selection =
              .ok (((base.compose variant).compose size).compose state) := by
  constructor
  · intro r lower upper below above hlower hupper hcompatible
    exact composes_of_compatible hlower hupper hcompatible below above
  · intro config mode policy style selection base variant size state hlayers hcompatible hrules
    obtain ⟨hbase, hrules⟩ := List.forall₂_cons.mp hrules
    obtain ⟨hstyle, huppers⟩ := List.forall_mem_cons.mp hlayers
    obtain ⟨r, hmake, hrule⟩ := compileStyle_eq_ok_iff.mp hbase
    refine compileStyle_eq_ok_iff.mpr ⟨r, hmake, ?_⟩
    refine compile_deepMergeAll hstyle huppers hcompatible hrule (hrules.imp fun layer rule h => ?_)
    -- All layers are compiled with the one resolver of the mode and the policy.
    obtain ⟨other, hother, hlayer⟩ := compileStyle_eq_ok_iff.mp h
    cases hmake.symm.trans hother
    exact hlayer

/-- The button with a pointer while it is hovered over. -/
def pointerButton : ComponentStyle :=
  { Config.standardButton with
    base := Config.standardButton.base ++ [("hover", .mapping (Config.texts [("cursor", "pointer")]))] }

def disabledSelection : Selection :=
  ⟨none, some "sm", some "disabled"⟩

theorem compatible_pointerButton :
    (pointerButton.layers disabledSelection).Pairwise Compatible := by
  have hflat : ∀ lower upper : Mapping Document, (∀ entry ∈ upper, entry.2.isMapping = false) →
      (∀ entry ∈ lower, ∀ other ∈ upper, entry.1 = other.1 →
        entry.2.isMapping = other.2.isMapping) → Compatible lower upper := by
    refine fun lower upper hupper plain => .of_states plain fun state below above _ habove => ?_
    cases hupper _ (Mapping.mem_of_find? habove)
  have hhover : Compatible pointerButton.base (selectStyle pointerButton.variants none) := by
    refine .of_states (by decide) fun state below above hbelow habove => ?_
    cases state with
    | hover =>
      cases hbelow
      cases habove
      exact hflat _ _ (by decide) (by decide)
    | _ => cases hbelow
  simp only [ComponentStyle.layers, List.pairwise_cons, List.forall_mem_cons]
  refine ⟨⟨hhover, hflat _ _ ?_ ?_, hflat _ _ ?_ ?_, by simp⟩, ⟨hflat _ _ ?_ ?_, hflat _ _ ?_ ?_, by simp⟩,
    ⟨hflat _ _ ?_ ?_, by simp⟩, by simp, .nil⟩ <;> decide

/-- The base of the pointer button and its default variant both have a rule for the pointer over it:
the two rules compose as the style objects do, and so do all four of the selection. -/
theorem pointerButton_composes :
    (∀ layer ∈ pointerButton.layers disabledSelection, IsStyle layer) ∧
      (pointerButton.layers disabledSelection).Pairwise Compatible ∧
      ∃ (r : Resolver) (base variant size state : Rule),
        Resolver.make Config.standard "light" (.text "strict") = .ok r ∧
        compileEntries r
            (styleEntries (deepMerge pointerButton.base (selectStyle pointerButton.variants none))) =
          .ok (base.compose variant) ∧
        List.Forall₂
          (fun layer rule => compileStyle Config.standard "light" (.text "strict") layer = .ok rule)
          (pointerButton.layers disabledSelection) [base, variant, size, state] ∧
        compileComponent pointerButton Config.standard "light" (.text "strict") disabledSelection =
          .ok (((base.compose variant).compose size).compose state) ∧
        ((base.compose variant).compose size).compose state =
          ⟨[("display", "inline-flex"), ("alignItems", "center"), ("borderRadius", "0.375rem"),
              ("fontWeight", "500"), ("backgroundColor", "#2563eb"), ("color", "#ffffff"),
              ("paddingBlock", "0.25rem"), ("paddingInline", "0.75rem"), ("opacity", "0.5"),
              ("cursor", "not-allowed")],
            [("&:hover", ⟨[("cursor", "pointer"), ("backgroundColor", "#1d4ed8")], []⟩)]⟩ := by
  have hlayers : ∀ layer ∈ pointerButton.layers disabledSelection, IsStyle layer := by
    simp only [ComponentStyle.layers, List.forall_mem_cons]
    refine ⟨.of_warnings ?_ rfl, .of_warnings ?_ rfl, .of_warnings ?_ rfl, .of_warnings ?_ rfl,
      by simp⟩ <;> decide
  have hrules : List.Forall₂
      (fun layer rule => compileStyle Config.standard "light" (.text "strict") layer = .ok rule)
      (pointerButton.layers disabledSelection)
      [⟨[("display", "inline-flex"), ("alignItems", "center"), ("borderRadius", "0.375rem"),
          ("fontWeight", "500")], [("&:hover", ⟨[("cursor", "pointer")], []⟩)]⟩,
        ⟨[("backgroundColor", "#2563eb"), ("color", "#ffffff")],
          [("&:hover", ⟨[("backgroundColor", "#1d4ed8")], []⟩)]⟩,
        ⟨[("paddingBlock", "0.25rem"), ("paddingInline", "0.75rem")], []⟩,
        ⟨[("opacity", "0.5"), ("cursor", "not-allowed")], []⟩] :=
    .cons rfl (.cons rfl (.cons rfl (.cons rfl .nil)))
  have hhover := (List.pairwise_cons.mp compatible_pointerButton).1 _ List.mem_cons_self
  exact ⟨hlayers, compatible_pointerButton, _, _, _, _, _, rfl,
    compile_composes.1 _ _ _ _ _ (hlayers _ List.mem_cons_self)
      (hlayers _ (List.mem_cons_of_mem _ List.mem_cons_self)) hhover rfl rfl,
    hrules, compile_composes.2 _ _ _ _ _ _ _ _ _ hlayers compatible_pointerButton hrules, rfl⟩

end DesignTokens
