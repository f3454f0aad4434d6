import DesignTokens.Proofs.Document.Ordering
import DesignTokens.Proofs.Document.Precedence

/-!
# Reordering and nothing else

In the order of a reference a document is the same up to the order of its keys, and at every path of
keys their sequence is settled by the reference and the document's own sequence there. Where a
reference declares all keys of a document, their sequences depend on the reference alone: documents
with the same keys come out with the same sequences, and documents that differ in nothing but their
order come out equal.

## Main definitions

- `Document.SameUnordered` — equality up to the order of keys
- `Document.keysAt?` — the keys of the mapping at a path, in their order
- `Document.SameKeysThroughout` — the same keys, in any order, wherever there are mappings
- `orderAt`, `Document.DeclaredThroughout` — the keys that a reference declares at a path, and a
  document that has no others
-/

namespace DesignTokens

/-- The same value without keys, or mappings that declare the same keys equally often. -/
inductive SameLevel : Document → Document → Prop
  | leaf {d : Document} (h : d.isMapping = false) : SameLevel d d
  | mapping {entries others : Mapping Document}
      (h : (Mapping.keys entries).Perm (Mapping.keys others)) :
      SameLevel (.mapping entries) (.mapping others)

/-- The keys that a reference declares at a path of keys. -/
def orderAt (reference : Option Document) (path : List String) : List String :=
  Mapping.keys (referenceEntries (reference.bind fun r => r.at? path))

namespace Document

/-- At every path of keys both documents hold nothing, or the same value without keys, or mappings
that declare the same keys. -/
def SameUnordered (d other : Document) : Prop :=
  ∀ path, Option.Rel SameLevel (d.at? path) (other.at? path)

/-- The keys of the mapping at a path of keys, in their order. -/
def keysAt? (d : Document) (path : List String) : Option (List String) :=
  (d.at? path).bind fun inner => inner.entries?.map Mapping.keys

/-- Both documents hold mappings at the same paths, with the same keys in any order. -/
def SameKeysThroughout (d other : Document) : Prop :=
  ∀ path, Option.Rel SameKeys (d.keysAt? path) (other.keysAt? path)

/-- A reference declares all keys of a document, each at its own path. -/
def DeclaredThroughout (d : Document) (reference : Option Document) : Prop :=
  ∀ path own, d.keysAt? path = some own → own ⊆ orderAt reference path

variable {rule : LeafRule} {d other : Document} {reference : Option Document}

/-- Values that are no mappings have no keys anywhere. -/
theorem keysAt?_of_not_mapping (h : d.isMapping = false) (path : List String) :
    d.keysAt? path = none := by
  rw [keysAt?]
  cases hvalue : d.at? path with
  | none => rfl
  | some value =>
    obtain rfl := at?_eq_some_of_not_mapping h hvalue
    cases value with
    | mapping entries => cases h
    | _ => rfl

@[simp] theorem keysAt?_nil_mapping (entries : Mapping Document) :
    (mapping entries).keysAt? [] = some (Mapping.keys entries) := by
  rw [keysAt?, at?_nil]
  rfl

@[simp] theorem keysAt?_cons_mapping (entries : Mapping Document) (key : String)
    (rest : List String) : (mapping entries).keysAt? (key :: rest) =
      (Mapping.find? entries key).bind fun child => child.keysAt? rest := by
  rw [keysAt?, at?_cons, Option.bind_assoc]
  rfl

theorem sameKeysThroughout_of_not_mapping (h : d.isMapping = false) (h' : other.isMapping = false) :
    d.SameKeysThroughout other := by
  intro path
  rw [keysAt?_of_not_mapping h, keysAt?_of_not_mapping h']
  exact .none

theorem sameKeysThroughout_mapping {entries others : Mapping Document}
    (hkeys : Mapping.keys others ⊆ Mapping.keys entries)
    (h : ∀ entry ∈ entries, ∃ inner, Mapping.find? others entry.1 = some inner ∧
      entry.2.SameKeysThroughout inner) :
    (mapping entries).SameKeysThroughout (mapping others) := by
  have hvalues : ∀ key d, Mapping.find? entries key = some d → ∃ inner,
      Mapping.find? others key = some inner ∧ d.SameKeysThroughout inner :=
    fun key d hd => h (key, d) (Mapping.mem_of_find? hd)
  intro path
  cases path with
  | nil =>
    rw [keysAt?_nil_mapping, keysAt?_nil_mapping]
    refine .some fun key => ⟨fun hkey => ?_, fun hkey => hkeys hkey⟩
    obtain ⟨d, hd⟩ := Mapping.exists_find?_of_mem_keys hkey
    obtain ⟨inner, hinner, -⟩ := hvalues key d hd
    exact Mapping.mem_keys_of_find? hinner
  | cons key rest =>
    rw [keysAt?_cons_mapping, keysAt?_cons_mapping]
    cases hd : Mapping.find? entries key with
    | none =>
      have hnone := (Mapping.find?_eq_none_iff entries key).mp hd
      rw [(Mapping.find?_eq_none_iff others key).mpr fun hkey => hnone (hkeys hkey)]
      exact .none
    | some d =>
      obtain ⟨inner, hinner, hsame⟩ := hvalues key d hd
      rw [hinner]
      exact hsame rest

theorem declaredThroughout_of_not_mapping (h : d.isMapping = false) :
    d.DeclaredThroughout reference := by
  intro path own hown
  rw [keysAt?_of_not_mapping h] at hown
  cases hown

theorem declaredThroughout_mapping {entries others : Mapping Document}
    (hkeys : Mapping.keys entries ⊆ Mapping.keys others)
    (h : ∀ entry ∈ entries, entry.2.DeclaredThroughout (Mapping.find? others entry.1)) :
    (mapping entries).DeclaredThroughout (some (mapping others)) := by
  intro path own hown
  cases path with
  | nil =>
    rw [keysAt?_nil_mapping] at hown
    cases hown
    exact hkeys
  | cons key rest =>
    rw [keysAt?_cons_mapping, Option.bind_eq_some_iff] at hown
    obtain ⟨child, hchild, hown⟩ := hown
    exact h _ (Mapping.mem_of_find? hchild) rest own hown

section SameUnordered

variable {more : Document}

theorem SameUnordered.symm (h : d.SameUnordered other) : other.SameUnordered d := by
  intro path
  have hpath := h path
  generalize d.at? path = inner at hpath ⊢
  generalize other.at? path = inner' at hpath ⊢
  cases hpath with
  | none => exact .none
  | some hlevel =>
    cases hlevel with
    | leaf hplain => exact .some (.leaf hplain)
    | mapping hkeys => exact .some (.mapping hkeys.symm)

theorem SameUnordered.trans (h : d.SameUnordered other) (h' : other.SameUnordered more) :
    d.SameUnordered more := by
  intro path
  have hpath := h path
  have hpath' := h' path
  generalize d.at? path = inner at hpath ⊢
  generalize other.at? path = inner' at hpath hpath'
  generalize more.at? path = inner'' at hpath' ⊢
  cases hpath with
  | none => exact hpath'
  | some hlevel =>
    cases hlevel with
    | leaf hplain => exact hpath'
    | mapping hkeys =>
      cases hpath' with
      | some hlevel' =>
        cases hlevel' with
        | leaf hplain => cases hplain
        | mapping hkeys' => exact .some (.mapping (hkeys.trans hkeys'))

theorem SameUnordered.sameKeysThroughout (h : d.SameUnordered other) :
    d.SameKeysThroughout other := by
  intro path
  have hpath := h path
  rw [keysAt?, keysAt?]
  generalize d.at? path = inner at hpath ⊢
  generalize other.at? path = inner' at hpath ⊢
  cases hpath with
  | none => exact .none
  | @some value _ hlevel =>
    cases hlevel with
    | leaf hplain =>
      cases value with
      | mapping _ => cases hplain
      | _ => exact .none
    | mapping hkeys => exact .some fun key => hkeys.mem_iff

/-- Nothing but the order of keys is left open: with the same sequences of keys as well, documents
without repeated keys are equal. -/
theorem SameUnordered.eq_of_keysAt? (hd : d.Regular rule) (h : d.SameUnordered other)
    (hkeys : ∀ path, d.keysAt? path = other.keysAt? path) : d = other := by
  have hroot := h []
  rw [at?_nil, at?_nil] at hroot
  induction d using byParts generalizing other with
  | mapping entries ih =>
    cases hroot with
    | some hlevel =>
      cases hlevel with
      | leaf hplain => cases hplain
      | @mapping _ others hperm =>
        have hsame := hkeys []
        rw [keysAt?_nil_mapping, keysAt?_nil_mapping, Option.some.injEq] at hsame
        refine congrArg mapping (Mapping.Along.of_find? hsame hd.nodup_keys ?_).eq
        intro key a b ha hb
        have hinner : a.SameUnordered b := fun path => by
          simpa [ha, hb] using h (key :: path)
        refine ih _ (Mapping.mem_of_find? ha) (hd.find? ha) hinner (fun path => ?_) ?_
        · simpa [ha, hb] using hkeys (key :: path)
        · simpa using hinner []
  | _ =>
    cases hroot with
    | some hlevel => cases hlevel with | leaf => rfl

end SameUnordered

theorem sameLevel_orderedLike (hd : d.Regular rule) (href : ∀ r ∈ reference, Regular rule r) :
    SameLevel (orderedLike d reference) d := by
  cases d with
  | mapping entries =>
    have hentries := keys_orderedEntries entries (referenceEntries reference)
    rw [orderedLike]
    refine .mapping (hentries ▸ keys_arrange_perm ?_ (regular_referenceEntries href).nodup_keys)
    rw [hentries]
    exact hd.nodup_keys
  | _ =>
    rw [orderedLike]
    · exact .leaf rfl
    · simp

theorem sameUnordered_orderedLike (hd : d.Regular rule) (href : ∀ r ∈ reference, Regular rule r) :
    (orderedLike d reference).SameUnordered d := by
  intro path
  rw [at?_orderedLike]
  cases hinner : d.at? path with
  | none => exact .none
  | some inner =>
    refine .some (sameLevel_orderedLike (hd.at? hinner) fun r hr => ?_)
    obtain ⟨r', hr', hr⟩ := Option.bind_eq_some_iff.mp hr
    exact (href r' hr').at? hr

/-- The order of the keys at every path: those that the reference declares, as it has them, then the
others as they stood. -/
theorem keysAt?_orderedLike (d : Document) (reference : Option Document) (path : List String) :
    (orderedLike d reference).keysAt? path = (d.keysAt? path).map fun own =>
      (orderAt reference path).filter (· ∈ own) ++
        own.filter (· ∉ orderAt reference path) := by
  rw [keysAt?, keysAt?, at?_orderedLike]
  cases d.at? path with
  | none => rfl
  | some inner =>
    cases inner with
    | mapping entries =>
      rw [Option.map_some, Option.bind_some, orderedLike]
      refine congrArg some ?_
      rw [keys_arrange, keys_orderedEntries]
      rfl
    | _ =>
      rw [Option.map_some, Option.bind_some, orderedLike]
      · rfl
      · simp

/-- Where a reference declares all keys, their order is settled by which keys there are. -/
theorem keysAt?_orderedLike_of_declared (hsame : d.SameKeysThroughout other)
    (hdeclared : d.DeclaredThroughout reference) (path : List String) :
    (orderedLike d reference).keysAt? path = (orderedLike other reference).keysAt? path := by
  rw [keysAt?_orderedLike, keysAt?_orderedLike]
  have hkeys := hsame path
  have hown := hdeclared path
  generalize d.keysAt? path = own at hkeys hown ⊢
  generalize other.keysAt? path = own' at hkeys ⊢
  cases hkeys with
  | none => rfl
  | @some own own' hkeys =>
    have hown := hown own rfl
    have hothers : own.filter (· ∉ orderAt reference path) = [] :=
      List.filter_eq_nil_iff.mpr fun key hkey => by simpa using hown hkey
    have hothers' : own'.filter (· ∉ orderAt reference path) = [] :=
      List.filter_eq_nil_iff.mpr fun key hkey => by simpa using hown ((hkeys key).mpr hkey)
    rw [Option.map_some, Option.map_some, hothers, hothers']
    simp only [hkeys _]

/-- Documents that differ in the order of their keys come out equal, where a reference declares all
keys. -/
theorem orderedLike_eq_of_sameUnordered (hd : d.Regular rule) (hother : other.Regular rule)
    (href : ∀ r ∈ reference, Regular rule r) (h : d.SameUnordered other)
    (hdeclared : d.DeclaredThroughout reference) :
    orderedLike d reference = orderedLike other reference := by
  have hmoved := sameUnordered_orderedLike hd href
  have hmoved' := sameUnordered_orderedLike hother href
  exact ((hmoved.trans h).trans hmoved'.symm).eq_of_keysAt? (hd.orderedLike href)
    (keysAt?_orderedLike_of_declared h.sameKeysThroughout hdeclared)

end Document

open Document in
/-- Where no mapping declares a key twice, putting a document in the order of a reference moves its keys
and does nothing else. The declared keys stand where the reference has them, a second time changes
nothing, and documents with the same keys, all of them declared, come out with the same sequences of
keys. -/
theorem orderedLike_reorders {rule : LeafRule} {d : Document} {reference : Option Document}
    (hd : d.Regular rule) (href : ∀ r ∈ reference, r.Regular rule) :
    (orderedLike d reference).SameUnordered d ∧
      (∀ path, (orderedLike d reference).keysAt? path = (d.keysAt? path).map fun own =>
        (orderAt reference path).filter (· ∈ own) ++
          own.filter (· ∉ orderAt reference path)) ∧
      orderedLike (orderedLike d reference) reference = orderedLike d reference ∧
      ∀ other : Document, d.SameKeysThroughout other → d.DeclaredThroughout reference →
        ∀ path, (orderedLike d reference).keysAt? path =
          (orderedLike other reference).keysAt? path := by
  refine ⟨sameUnordered_orderedLike hd href, keysAt?_orderedLike d reference,
    orderedLike_orderedLike d reference, ?_⟩
  intro other hsame hdeclared
  exact keysAt?_orderedLike_of_declared hsame hdeclared

/-- Three themes with the same keys, each in an order of its own. -/
def dayOrder : Document :=
  .mapping [("colors", .mapping [("ink", .text "#000"), ("paper", .text "#fff")]),
    ("semantic", .mapping [("text", .text "ink")])]

def nightOrder : Document :=
  .mapping [("semantic", .mapping [("text", .text "paper")]),
    ("colors", .mapping [("paper", .text "#111"), ("ink", .text "#eee")])]

def duskOrder : Document :=
  .mapping [("colors", .mapping [("paper", .text "#555"), ("ink", .text "#ccc")]),
    ("semantic", .mapping [("text", .text "ink")])]

open Document in
theorem sample_orderedLike_reorders :
    nightOrder.Regular .any ∧ dayOrder.Regular .any ∧ nightOrder.SameKeysThroughout duskOrder ∧
      nightOrder.DeclaredThroughout (some dayOrder) ∧
      (orderedLike nightOrder (some dayOrder)).SameUnordered nightOrder ∧
      ∀ path, (orderedLike nightOrder (some dayOrder)).keysAt? path =
        (orderedLike duskOrder (some dayOrder)).keysAt? path := by
  have hnight : nightOrder.Regular .any := by decide
  have hday : dayOrder.Regular .any := by decide
  have hleaf : ∀ s t, (text s).SameKeysThroughout (text t) := fun _ _ =>
    sameKeysThroughout_of_not_mapping rfl rfl
  have hsame : nightOrder.SameKeysThroughout duskOrder := by
    refine sameKeysThroughout_mapping (by decide) (List.forall_mem_cons.mpr
      ⟨⟨_, rfl, sameKeysThroughout_mapping (by decide) ?_⟩, List.forall_mem_singleton.mpr
        ⟨_, rfl, sameKeysThroughout_mapping (by decide) ?_⟩⟩)
    · exact List.forall_mem_singleton.mpr ⟨_, rfl, hleaf _ _⟩
    · exact List.forall_mem_cons.mpr
        ⟨⟨_, rfl, hleaf _ _⟩, List.forall_mem_singleton.mpr ⟨_, rfl, hleaf _ _⟩⟩
  have hdeclared : nightOrder.DeclaredThroughout (some dayOrder) := by
    refine declaredThroughout_mapping (by decide) ?_
    refine List.forall_mem_cons.mpr ⟨declaredThroughout_mapping (by decide) ?_,
      List.forall_mem_singleton.mpr (declaredThroughout_mapping (by decide) ?_)⟩
    · simpa using declaredThroughout_of_not_mapping rfl
    · simpa using ⟨declaredThroughout_of_not_mapping rfl, declaredThroughout_of_not_mapping rfl⟩
  obtain ⟨hmoved, -, -, halike⟩ :=
    orderedLike_reorders hnight fun r hr => Option.mem_some_iff.mp hr ▸ hday
  exact ⟨hnight, hday, hsame, hdeclared, hmoved, halike duskOrder hsame hdeclared⟩

/-- A key that the reference lacks stands behind those that it declares. -/
example : (orderedLike (.mapping [("notes", .null), ("semantic", .null), ("colors", .null)])
    (some dayOrder)).keysAt? [] = some ["colors", "semantic", "notes"] := by
  decide

end DesignTokens
