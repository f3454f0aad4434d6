import DesignTokens.Document.Flatten
import DesignTokens.Proofs.Document.Regular
import DesignTokens.Proofs.Text.Pieces
import Mathlib.Data.List.Nodup

/-!
# Leaves and their addresses

A scalar leaf of a document is found by the keys on the way to it. Flattening writes these keys into
one path with dots between them, which may be taken apart in more ways than one.

## Main definitions

- `Document.leaves` — the keys on the way to each leaf, with its text
- `Document.leaf?` — the text of the leaf at a path of keys
- `dotted` — a path with more keys behind it
- `Spelled` — keys that a path spells as they are
-/

namespace DesignTokens

namespace Document

mutual
/-- The keys on the way to each scalar leaf, with its text. -/
def leaves : Document → List (List String × String)
  | mapping entries => leavesOfEntries entries
  | d => (literal? d).toList.map ([], ·)

/-- The leaves of a mapping's values, below their keys. -/
def leavesOfEntries : List (String × Document) → List (List String × String)
  | [] => []
  | (key, value) :: rest =>
    (leaves value).map (fun leaf => (key :: leaf.1, leaf.2)) ++ leavesOfEntries rest
end

/-- The text of the scalar leaf at a path of keys. -/
def leaf? (d : Document) (keys : List String) : Option String :=
  (d.at? keys).bind literal?

@[simp] theorem at?_cons (d : Document) (key : String) (rest : List String) :
    d.at? (key :: rest) = (d.get? key).bind fun child => child.at? rest := by
  rw [at?]

@[simp] theorem get?_mapping (entries : Mapping Document) (key : String) :
    (mapping entries).get? key = Mapping.find? entries key := rfl

@[simp] theorem leaf?_nil (d : Document) : d.leaf? [] = literal? d := by
  rw [leaf?, at?_nil, Option.bind_some]

@[simp] theorem leaf?_cons (d : Document) (key : String) (rest : List String) :
    d.leaf? (key :: rest) = (d.get? key).bind fun child => child.leaf? rest := by
  rw [leaf?, at?_cons, Option.bind_assoc]
  rfl

theorem mem_leavesOfEntries {entries : Mapping Document} {keys : List String} {value : String} :
    (keys, value) ∈ leavesOfEntries entries ↔
      ∃ key d rest, (key, d) ∈ entries ∧ keys = key :: rest ∧ (rest, value) ∈ d.leaves := by
  induction entries with
  | nil => simp [leavesOfEntries]
  | cons entry more ih =>
    obtain ⟨key, d⟩ := entry
    rw [leavesOfEntries, List.mem_append, ih, List.mem_map]
    constructor
    · rintro (⟨⟨rest, _⟩, hleaf, heq⟩ | ⟨key', d', rest, hmem, hkeys, hleaf⟩)
      · cases heq
        exact ⟨key, d, rest, List.mem_cons_self, rfl, hleaf⟩
      · exact ⟨key', d', rest, List.mem_cons_of_mem _ hmem, hkeys, hleaf⟩
    · rintro ⟨key', d', rest, hmem, rfl, hleaf⟩
      rcases List.mem_cons.mp hmem with heq | hmem
      · cases heq
        exact .inl ⟨(rest, value), hleaf, rfl⟩
      · exact .inr ⟨key', d', rest, hmem, rfl, hleaf⟩

/-- The leaves of a document without repeated keys are those that are found at their keys. -/
theorem mem_leaves_iff {rule : LeafRule} {d : Document} (h : d.Regular rule) {keys : List String}
    {value : String} : (keys, value) ∈ d.leaves ↔ d.leaf? keys = some value := by
  induction d using byParts generalizing keys with
  | mapping entries ih =>
    rw [regular_mapping] at h
    rw [leaves, mem_leavesOfEntries]
    constructor
    · rintro ⟨key, d, rest, hmem, rfl, hleaf⟩
      simpa [Mapping.find?_of_mem h.1 hmem] using (ih _ hmem (h.2 _ hmem)).mp hleaf
    · intro hleaf
      cases keys with
      | nil => simp [literal?] at hleaf
      | cons key rest =>
        rw [leaf?_cons, get?_mapping] at hleaf
        obtain ⟨d, hfind, hleaf⟩ := Option.bind_eq_some_iff.mp hleaf
        have hmem := Mapping.mem_of_find? hfind
        exact ⟨key, d, rest, hmem, rfl, (ih _ hmem (h.2 _ hmem)).mpr hleaf⟩
  | _ => cases keys <;> simp [leaves, literal?, get?, entries?, eq_comm]

theorem nodup_leavesOfEntries {entries : Mapping Document} (hkeys : (Mapping.keys entries).Nodup)
    (h : ∀ entry ∈ entries, (entry.2.leaves.map Prod.fst).Nodup) :
    ((leavesOfEntries entries).map Prod.fst).Nodup := by
  induction entries with
  | nil => exact .nil
  | cons entry rest ih =>
    obtain ⟨key, d⟩ := entry
    obtain ⟨fresh, hkeys⟩ := List.nodup_cons.mp hkeys
    obtain ⟨hd, hrest⟩ := List.forall_mem_cons.mp h
    rw [leavesOfEntries, List.map_append, List.map_map]
    refine List.nodup_append.mpr ⟨?_, ih hkeys hrest, ?_⟩
    · rw [show (Prod.fst ∘ fun leaf : List String × String => (key :: leaf.1, leaf.2)) =
          List.cons key ∘ Prod.fst from rfl, ← List.map_map]
      exact List.Nodup.map List.cons_injective hd
    -- A leaf further on is below another key.
    · rintro keys hleft _ hright rfl
      obtain ⟨leaf, -, rfl⟩ := List.mem_map.mp hleft
      obtain ⟨⟨_, value⟩, hright, hkey⟩ := List.mem_map.mp hright
      obtain ⟨key', d', _, hmem, heq, -⟩ := mem_leavesOfEntries.mp hright
      cases hkey.symm.trans heq
      have hkey := Mapping.mem_keys_of_mem hmem
      exact fresh hkey

/-- No two leaves have the same address. -/
theorem nodup_leaves {rule : LeafRule} {d : Document} (h : d.Regular rule) :
    (d.leaves.map Prod.fst).Nodup := by
  induction d using byParts with
  | mapping entries ih =>
    rw [regular_mapping] at h
    rw [leaves]
    exact nodup_leavesOfEntries h.1 fun entry hmem => ih entry hmem (h.2 entry hmem)
  | _ => simp [leaves, literal?]

end Document

/-- A path with more keys behind it, each after a dot. -/
def dotted (path : String) : List String → String
  | [] => path
  | key :: rest => dotted (path ++ "." ++ key) rest

theorem dotted_append (path : String) (keys more : List String) :
    dotted path (keys ++ more) = dotted (dotted path keys) more := by
  induction keys generalizing path with
  | nil => rfl
  | cons key rest ih => exact ih _

theorem dotted_eq_join (path : String) {keys : List String} (h : keys ≠ []) :
    dotted path keys = path ++ "." ++ Text.join "." keys := by
  induction keys generalizing path with
  | nil => exact absurd rfl h
  | cons key rest ih =>
    cases rest with
    | nil => rw [dotted, dotted, Text.join, String.intercalate_singleton]
    | cons next more =>
      rw [dotted, ih _ (List.cons_ne_nil _ _), Text.join, Text.join,
        String.intercalate_cons_of_ne_nil (List.cons_ne_nil _ _)]
      simp only [String.append_assoc]

mutual
/-- Flattening writes the address of each leaf behind the path of the document. -/
theorem flatten_eq_map (path : String) (d : Document) :
    flatten path d = d.leaves.map fun leaf => (dotted path leaf.1, leaf.2) := by
  match d with
  | .mapping entries =>
    rw [flatten, Document.leaves]
    exact flattenEntries_eq_map path entries
  | .null | .bool _ | .int _ | .float _ | .text _ | .stamp _ | .list _ => rfl

theorem flattenEntries_eq_map (path : String) (entries : List (String × Document)) :
    flattenEntries path entries =
      (Document.leavesOfEntries entries).map fun leaf => (dotted path leaf.1, leaf.2) := by
  match entries with
  | [] => rfl
  | (key, value) :: rest =>
    rw [flattenEntries, Document.leavesOfEntries, List.map_append, List.map_map,
      flatten_eq_map _ value, flattenEntries_eq_map path rest]
    rfl
end

/-- Keys that a path spells as they are: none is empty or holds a dot. -/
def Spelled (keys : List String) : Prop :=
  ∀ key ∈ keys, key ≠ "" ∧ '.' ∉ key.toList

instance (keys : List String) : Decidable (Spelled keys) :=
  inferInstanceAs (Decidable (∀ key ∈ keys, key ≠ "" ∧ '.' ∉ key.toList))

/-- The keys into which a path falls behind its beginning. -/
def pieces (keys : List String) : List String :=
  keys.flatMap (Text.split '.')

theorem split_dotted (path : String) (keys : List String) :
    Text.split '.' (dotted path keys) = Text.split '.' path ++ pieces keys := by
  induction keys generalizing path with
  | nil => simp [dotted, pieces]
  | cons key rest ih =>
    rw [dotted, ih, Text.split_dot, List.append_assoc]
    rfl

/-- Keys and what their path falls into make the same path. -/
theorem dotted_pieces (path : String) (keys : List String) :
    dotted path (pieces keys) = dotted path keys := by
  induction keys generalizing path with
  | nil => rfl
  | cons key rest ih =>
    rw [show pieces (key :: rest) = Text.split '.' key ++ pieces rest from rfl, dotted_append, ih,
      dotted_eq_join path (Text.split_ne_nil _ _), Text.join_split_dot, dotted]

theorem Spelled.pieces_eq {keys : List String} (h : Spelled keys) : pieces keys = keys := by
  induction keys with
  | nil => rfl
  | cons key rest ih =>
    obtain ⟨hkey, hrest⟩ := List.forall_mem_cons.mp h
    rw [show pieces (key :: rest) = Text.split '.' key ++ pieces rest from rfl,
      Text.split_of_not_mem hkey.2, ih hrest]
    rfl

theorem spelled_pieces {keys : List String} (h : ∀ key ∈ pieces keys, key ≠ "") :
    Spelled (pieces keys) := by
  intro key hkey
  refine ⟨h key hkey, ?_⟩
  obtain ⟨_, -, hpiece⟩ := List.mem_flatMap.mp hkey
  exact Text.not_mem_of_mem_split hpiece

end DesignTokens
