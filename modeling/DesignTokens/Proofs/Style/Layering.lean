import DesignTokens.Proofs.Style.Chain

/-!
# Layers of a style

In a stylesheet the last declaration of a property counts, so one style object is laid over another
by writing its declarations behind those of the other. Merging the two objects comes to the same as
long as the upper one hides no declaration without one of its own, and no property is spelled in two
ways where order decides.

## Main definitions

- `lastFor` — what is given last to a property of a stylesheet
- `Overlays`, `Layered` — a style object that can be laid over another in either way, and several
- `ComponentStyle.layers` — the style objects of a selection
-/

namespace DesignTokens

/-- What a list of style entries gives last to a property of a stylesheet. -/
def lastFor {α : Type} (property : String) (entries : List (String × α)) : Option α :=
  (entries.filter fun entry => propertyName entry.1 = property).getLast?.map Prod.snd

section LastFor

variable {α β : Type} {property : String} {entries more : List (String × α)}

@[simp] theorem lastFor_nil (property : String) :
    lastFor property ([] : List (String × α)) = none := rfl

theorem lastFor_append (property : String) (entries more : List (String × α)) :
    lastFor property (entries ++ more) = (lastFor property more).or (lastFor property entries) := by
  rw [lastFor, List.filter_append, List.getLast?_append, lastFor, lastFor]
  cases (more.filter fun entry => propertyName entry.1 = property).getLast? <;> rfl

theorem lastFor_eq_none_iff : lastFor property entries = none ↔
    ∀ entry ∈ entries, propertyName entry.1 ≠ property := by
  rw [lastFor, Option.map_eq_none_iff, List.getLast?_eq_none_iff, List.filter_eq_nil_iff]
  simp

/-- What is given last is given under some name, with nothing for the property behind it. -/
theorem lastFor_eq_some_iff {a : α} : lastFor property entries = some a ↔
    ∃ before name after, entries = before ++ (name, a) :: after ∧ propertyName name = property ∧
      lastFor property after = none := by
  constructor
  · intro h
    induction entries with
    | nil => simp [lastFor] at h
    | cons entry rest ih =>
      rw [← List.singleton_append, lastFor_append] at h
      cases hrest : lastFor property rest with
      | some b =>
        rw [hrest, Option.some_or] at h
        obtain ⟨before, name, after, heq, hname, hafter⟩ := ih (hrest.trans h)
        exact ⟨entry :: before, name, after, by rw [heq, List.cons_append], hname, hafter⟩
      | none =>
        rw [hrest, Option.none_or] at h
        by_cases hname : propertyName entry.1 = property
        · refine ⟨[], entry.1, rest, ?_, hname, hrest⟩
          simp only [lastFor, hname, List.filter_cons_of_pos, List.filter_nil, decide_true,
            List.getLast?_singleton, Option.map_some, Option.some.injEq] at h
          rw [← h, List.nil_append]
        · simp [lastFor, hname] at h
  · rintro ⟨before, name, after, rfl, hname, hafter⟩
    rw [lastFor_append, ← List.singleton_append, lastFor_append, hafter]
    simp [lastFor, hname]

/-- Where every entry for a property gives the same, that is what is given last. -/
theorem lastFor_of_forall {a : α} {name : String} (hmem : (name, a) ∈ entries)
    (hname : propertyName name = property)
    (h : ∀ entry ∈ entries, propertyName entry.1 = property → entry.2 = a) :
    lastFor property entries = some a := by
  cases hlast : lastFor property entries with
  | none => exact absurd hname (lastFor_eq_none_iff.mp hlast _ hmem)
  | some b =>
    obtain ⟨before, other, after, rfl, hother, -⟩ := lastFor_eq_some_iff.mp hlast
    rw [← h (other, b) (by simp) hother]

theorem lastFor_map (f : α → β) (property : String) (entries : List (String × α)) :
    lastFor property (entries.map fun entry => (entry.1, f entry.2)) =
      (lastFor property entries).map f := by
  rw [lastFor, List.filter_map, List.getLast?_map, lastFor, Option.map_map, Option.map_map]
  rfl

theorem lastFor_congr (h : entries.filter (fun entry => propertyName entry.1 = property) =
    more.filter fun entry => propertyName entry.1 = property) :
    lastFor property entries = lastFor property more := by
  rw [lastFor, h, lastFor]

end LastFor

/-- A style object that can be laid over another by merging or by writing it behind the other: for
every chain of states nothing that the lower one declares is lost, and a key of both is the only
spelling of its property. -/
structure Overlays (lower upper : Mapping Document) : Prop where
  kept : ∀ chain, Mapping.keys (declaredAt lower chain) ⊆
    Mapping.keys (declaredAt (deepMerge lower upper) chain)
  spelled : ∀ chain below, blockAt lower chain = some below →
    ∀ key ∈ Mapping.keys (declaredAt upper chain), key ∈ Mapping.keys below →
      ∀ other ∈ Mapping.keys (declaredAt (deepMerge lower upper) chain),
        propertyName other = propertyName key → other = key

/-- Style objects that can be laid over a base one after another. -/
def Layered (base : Mapping Document) : List (Mapping Document) → Prop
  | [] => True
  | upper :: rest => Overlays base upper ∧ Layered (deepMerge base upper) rest

section Merge

variable {lower upper : Mapping Document} {rule : LeafRule} {property : String}

/-- The properties of a merged style object: those under keys of the lower one, then those that only
the upper one has. -/
theorem declared_deepMerge (hlower : (Mapping.keys lower).Nodup)
    (hupper : (Mapping.keys upper).Nodup) :
    declared (deepMerge lower upper) =
      ((Mapping.keys lower).filterMap fun key =>
        (nodeAt (deepMerge lower upper) key).map (key, ·)) ++
      (declared upper).filter fun entry => entry.1 ∉ Mapping.keys lower := by
  rw [declared_eq_filterMap (nodup_keys_deepMerge hlower hupper), keys_deepMerge hupper,
    List.filterMap_append, declared_eq_filterMap hupper, List.filter_filterMap,
    List.filterMap_filter]
  congr 1
  refine List.filterMap_congr fun key hkey => ?_
  rw [nodeAt_deepMerge hupper, if_pos hkey]
  by_cases hlow : key ∈ Mapping.keys lower <;> cases nodeAt upper key <;>
    simp [hlow, Option.filter_some]

/-- A key of both keeps the place of the lower one, but as the only spelling of its property it is
the last one too. -/
theorem lastFor_of_spelled (hlower : (Mapping.keys lower).Nodup)
    (hupper : (Mapping.keys upper).Nodup) {name : String} {node : StyleNode}
    (hmem : (name, node) ∈ declared upper)
    (spelled : ∀ other ∈ Mapping.keys (declared (deepMerge lower upper)),
      propertyName other = propertyName name → other = name) :
    lastFor (propertyName name) (declared (deepMerge lower upper)) = some node := by
  have hmerged := nodup_keys_deepMerge hlower hupper
  have hnode := (mem_declared hupper).mp hmem
  have hkey : name ∈ Mapping.keys upper :=
    Mapping.mem_keys_of_find? (Option.bind_eq_some_iff.mp hnode).choose_spec.1
  have hmergedNode : nodeAt (deepMerge lower upper) name = some node := by
    rw [nodeAt_deepMerge hupper, if_pos hkey, hnode]
  refine lastFor_of_forall ((mem_declared hmerged).mpr hmergedNode) rfl ?_
  rintro ⟨other, value⟩ hother hname
  obtain rfl : other = name := spelled _ (Mapping.mem_keys_of_mem hother) hname
  have hvalue := (mem_declared hmerged).mp hother
  exact Option.some.inj (hvalue.symm.trans hmergedNode)

/-- Where the upper style object gives a property nothing, a key of the lower one for it keeps what
the lower one gives. -/
theorem nodeAt_of_kept (hlower : (Mapping.keys lower).Nodup) (hupper : (Mapping.keys upper).Nodup)
    (kept : Mapping.keys (declared lower) ⊆ Mapping.keys (declared (deepMerge lower upper)))
    {key : String} (hnone : ∀ entry ∈ declared upper, entry.1 ≠ key) :
    nodeAt (deepMerge lower upper) key = nodeAt lower key := by
  have hmerged := nodup_keys_deepMerge hlower hupper
  rw [nodeAt_deepMerge hupper]
  split
  · next hkey =>
    have habove : nodeAt upper key = none := by
      cases hnode : nodeAt upper key with
      | none => rfl
      | some node => exact absurd rfl (hnone _ ((mem_declared hupper).mpr hnode))
    rw [habove]
    -- A declaration of the lower object would have been lost.
    cases hbelow : nodeAt lower key with
    | none => rfl
    | some node =>
      have hkept := kept (Mapping.mem_keys_of_mem ((mem_declared hlower).mpr hbelow))
      obtain ⟨⟨_, other⟩, hother, rfl⟩ := List.mem_map.mp hkept
      have hlost := (mem_declared hmerged).mp hother
      rw [nodeAt_deepMerge hupper, if_pos hkey, habove] at hlost
      cases hlost
  · rfl

/-- Laying a style object over another by merging them and by writing it behind the other gives the
last declaration of a property the same value. -/
theorem lastFor_declared_deepMerge (hlower : (Mapping.keys lower).Nodup)
    (hupper : (Mapping.keys upper).Nodup)
    (kept : Mapping.keys (declared lower) ⊆ Mapping.keys (declared (deepMerge lower upper)))
    (spelled : ∀ key ∈ Mapping.keys (declared upper), key ∈ Mapping.keys lower →
      ∀ other ∈ Mapping.keys (declared (deepMerge lower upper)),
        propertyName other = propertyName key → other = key) :
    lastFor property (declared (deepMerge lower upper)) =
      (lastFor property (declared upper)).or (lastFor property (declared lower)) := by
  have hsplit := declared_deepMerge hlower hupper
  cases hlast : lastFor property (declared upper) with
  | some node =>
    obtain ⟨before, name, after, hentries, rfl, hafter⟩ := lastFor_eq_some_iff.mp hlast
    have hmem : (name, node) ∈ declared upper := by simp [hentries]
    rw [Option.some_or]
    by_cases hkey : name ∈ Mapping.keys lower
    · exact lastFor_of_spelled hlower hupper hmem
        (spelled _ (Mapping.mem_keys_of_mem hmem) hkey)
    -- A new key stands behind those of the lower one, in the order of the upper one.
    · have hnone : lastFor (propertyName name)
          (after.filter fun entry => entry.1 ∉ Mapping.keys lower) = none :=
        lastFor_eq_none_iff.mpr fun entry hentry =>
          lastFor_eq_none_iff.mp hafter entry (List.mem_filter.mp hentry).1
      rw [hsplit, lastFor_append, hentries, List.filter_append, List.filter_cons_of_pos (by simpa),
        lastFor_eq_some_iff.mpr ⟨_, name, _, rfl, rfl, hnone⟩, Option.some_or]
  | none =>
    have hnone := lastFor_eq_none_iff.mp hlast
    have hfilter : lastFor property
        ((declared upper).filter fun entry => entry.1 ∉ Mapping.keys lower) = none :=
      lastFor_eq_none_iff.mpr fun entry hentry => hnone entry (List.mem_filter.mp hentry).1
    rw [hsplit, lastFor_append, hfilter, Option.none_or, Option.none_or,
      declared_eq_filterMap hlower]
    refine lastFor_congr ?_
    rw [List.filter_filterMap, List.filter_filterMap]
    refine List.filterMap_congr fun key _ => ?_
    by_cases hname : propertyName key = property
    · have hkey : ∀ entry ∈ declared upper, entry.1 ≠ key :=
        fun entry hentry heq => hnone entry hentry (heq ▸ hname)
      rw [nodeAt_of_kept hlower hupper kept hkey]
    · cases nodeAt (deepMerge lower upper) key <;> cases nodeAt lower key <;>
        simp [hname, Option.filter_some]

/-- For every chain of states the same holds of the style objects there. -/
theorem Overlays.lastFor (h : Overlays lower upper) (hlower : (Document.mapping lower).Regular rule)
    (hupper : (Document.mapping upper).Regular rule) (property : String) (chain : List Interaction) :
    DesignTokens.lastFor property (declaredAt (deepMerge lower upper) chain) =
      (DesignTokens.lastFor property (declaredAt upper chain)).or
        (DesignTokens.lastFor property (declaredAt lower chain)) := by
  rcases blockAt_deepMerge_cases hupper chain with ⟨below, above, hbelow, habove, hmerged⟩ |
    ⟨hbelow, hmerged⟩ | ⟨habove, hmerged | hmerged⟩
  · have kept := h.kept chain
    have spelled := h.spelled chain below hbelow
    rw [declaredAt_of_some hbelow, declaredAt_of_some hmerged] at kept
    rw [declaredAt_of_some habove, declaredAt_of_some hmerged] at spelled
    rw [declaredAt_of_some hbelow, declaredAt_of_some habove, declaredAt_of_some hmerged]
    exact lastFor_declared_deepMerge (regular_blockAt hlower hbelow).nodup_keys
      (regular_blockAt hupper habove).nodup_keys kept spelled
  · rw [declaredAt_congr hmerged, declaredAt_of_none hbelow, lastFor_nil, Option.or_none]
  · rw [declaredAt_congr hmerged, declaredAt_of_none habove, lastFor_nil, Option.none_or]
  -- Without an object for the chain nothing can have been declared below.
  · have hempty : declaredAt lower chain = [] := by
      refine List.eq_nil_iff_forall_not_mem.mpr fun entry hentry => ?_
      have hkept := h.kept chain (Mapping.mem_keys_of_mem hentry)
      rw [declaredAt_of_none hmerged] at hkept
      exact List.not_mem_nil hkept
    rw [hempty, declaredAt_of_none habove, declaredAt_of_none hmerged, lastFor_nil, Option.or_none]

theorem blockAt_deepMerge_of_none (hupper : (Mapping.keys upper).Nodup) {state : Interaction}
    (h : Mapping.find? upper state.key = none) (rest : List Interaction) :
    blockAt (deepMerge lower upper) (state :: rest) = blockAt lower (state :: rest) := by
  rw [blockAt, find?_deepMerge hupper, h, blockAt]
  rfl

theorem blockAt_deepMerge_of_mappings (hupper : (Mapping.keys upper).Nodup) {state : Interaction}
    {below above : Mapping Document} (hbelow : Mapping.find? lower state.key = some (.mapping below))
    (habove : Mapping.find? upper state.key = some (.mapping above)) (rest : List Interaction) :
    blockAt (deepMerge lower upper) (state :: rest) = blockAt (deepMerge below above) rest := by
  refine blockAt_cons_of_mapping ?_ rest
  rw [find?_deepMerge hupper, habove, hbelow, Option.map_some, overlay_mapping, Option.some_or]

/-- It is enough to look at the plain element and, for each state that both style objects hold
something for, at the objects of the state. -/
theorem Overlays.of_states (hupper : (Mapping.keys upper).Nodup)
    (kept : Mapping.keys (declared lower) ⊆ Mapping.keys (declared (deepMerge lower upper)))
    (spelled : ∀ key ∈ Mapping.keys (declared upper), key ∈ Mapping.keys lower →
      ∀ other ∈ Mapping.keys (declared (deepMerge lower upper)),
        propertyName other = propertyName key → other = key)
    (states : ∀ state : Interaction, Mapping.find? upper state.key = none ∨
      (∀ below, Mapping.find? lower state.key ≠ some (.mapping below)) ∨
      ∃ below above, Mapping.find? lower state.key = some (.mapping below) ∧
        Mapping.find? upper state.key = some (.mapping above) ∧ Overlays below above) :
    Overlays lower upper := by
  constructor
  · intro chain
    cases chain with
    | nil => exact kept
    | cons state rest =>
      rcases states state with hnone | hlower | ⟨below, above, hbelow, habove, h⟩
      · rw [declaredAt_congr (blockAt_deepMerge_of_none hupper hnone rest)]
        exact List.Subset.refl _
      · rw [declaredAt_of_none (blockAt_cons_of_ne hlower rest)]
        exact List.nil_subset _
      · rw [declaredAt_congr (blockAt_cons_of_mapping hbelow rest),
          declaredAt_congr (blockAt_deepMerge_of_mappings hupper hbelow habove rest)]
        exact h.kept rest
  · intro chain block hblock
    cases chain with
    | nil =>
      cases hblock
      exact spelled
    | cons state rest =>
      rcases states state with hnone | hlower | ⟨below, above, hbelow, habove, h⟩
      · rw [declaredAt_of_none (blockAt_cons_of_ne (by simp [hnone]) rest)]
        exact fun key hkey => absurd hkey List.not_mem_nil
      · rw [blockAt_cons_of_ne hlower rest] at hblock
        cases hblock
      · rw [blockAt_cons_of_mapping hbelow] at hblock
        rw [declaredAt_congr (blockAt_cons_of_mapping habove rest),
          declaredAt_congr (blockAt_deepMerge_of_mappings hupper hbelow habove rest)]
        exact h.spelled rest block hblock

end Merge

section Layers

variable {base : Mapping Document} {uppers : List (Mapping Document)} {rule : LeafRule}

theorem Document.Regular.deepMergeAll (hbase : (Document.mapping base).Regular rule)
    (huppers : ∀ upper ∈ uppers, (Document.mapping upper).Regular rule) :
    (Document.mapping (DesignTokens.deepMergeAll base uppers)).Regular rule := by
  induction uppers generalizing base with
  | nil => exact hbase
  | cons upper rest ih =>
    obtain ⟨hupper, hrest⟩ := List.forall_mem_cons.mp huppers
    exact ih (hbase.deepMerge hupper) hrest

/-- What is declared by merged layers is declared by one of them. -/
theorem mem_declaredAt_deepMergeAll (hbase : (Document.mapping base).Regular rule)
    (huppers : ∀ upper ∈ uppers, (Document.mapping upper).Regular rule) {chain : List Interaction}
    {entry : StyleEntry} (h : entry ∈ declaredAt (deepMergeAll base uppers) chain) :
    ∃ layer ∈ base :: uppers, entry ∈ declaredAt layer chain := by
  induction uppers generalizing base with
  | nil => exact ⟨base, List.mem_cons_self, h⟩
  | cons upper rest ih =>
    obtain ⟨hupper, hrest⟩ := List.forall_mem_cons.mp huppers
    obtain ⟨layer, hlayer, hentry⟩ := ih (hbase.deepMerge hupper) hrest h
    rcases List.mem_cons.mp hlayer with rfl | hlayer
    · rcases mem_declaredAt_deepMerge hbase hupper hentry with hentry | hentry
      · exact ⟨base, by simp, hentry⟩
      · exact ⟨upper, by simp, hentry⟩
    · exact ⟨layer, by simp [hlayer], hentry⟩

/-- Merging layers and writing them one behind the other give the last declaration of a property the
same value. -/
theorem Layered.lastFor (h : Layered base uppers) (hbase : (Document.mapping base).Regular rule)
    (huppers : ∀ upper ∈ uppers, (Document.mapping upper).Regular rule) (property : String)
    (chain : List Interaction) :
    DesignTokens.lastFor property (declaredAt (deepMergeAll base uppers) chain) =
      DesignTokens.lastFor property
        ((base :: uppers).flatMap fun layer => declaredAt layer chain) := by
  induction uppers generalizing base with
  | nil => simp [deepMergeAll]
  | cons upper rest ih =>
    obtain ⟨hoverlays, hlayered⟩ := h
    obtain ⟨hupper, hrest⟩ := List.forall_mem_cons.mp huppers
    have hmerged := ih hlayered (hbase.deepMerge hupper) hrest
    rw [List.flatMap_cons, lastFor_append] at hmerged
    rw [show deepMergeAll base (upper :: rest) = deepMergeAll (deepMerge base upper) rest from rfl,
      hmerged, hoverlays.lastFor hbase hupper, List.flatMap_cons, List.flatMap_cons, lastFor_append,
      lastFor_append, Option.or_assoc]

end Layers

/-- The style objects of a selection: the base and what is laid over it, in order. -/
def ComponentStyle.layers (style : ComponentStyle) (selection : Selection) :
    List (Mapping Document) :=
  [style.base, selectStyle style.variants selection.variant,
    selectStyle style.sizes selection.size, selectStyle style.states selection.state]

/-- The style that is selected by a name is one of those declared, or none. -/
theorem selectStyle_eq_nil_or_mem (styles : Mapping (Mapping Document)) (name : Option String) :
    selectStyle styles name = [] ∨ ∃ key, (key, selectStyle styles name) ∈ styles := by
  unfold selectStyle
  split
  · next style h =>
    obtain ⟨key, -, hstyle⟩ := Option.bind_eq_some_iff.mp h
    exact .inr ⟨key, Mapping.mem_of_find? hstyle⟩
  · cases h : Mapping.find? styles "default" with
    | none => exact .inl rfl
    | some style => exact .inr ⟨"default", Mapping.mem_of_find? h⟩

end DesignTokens
