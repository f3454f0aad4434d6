import DesignTokens.Document.Merge
import DesignTokens.Proofs.Document.Alike

/-!
# What a merged mapping holds

Laying one mapping over another is described by what is found under each key and by the order of the
keys: those of the lower mapping, then those that only the upper one has.
-/

namespace DesignTokens

variable {base upper : Mapping Document}

/-- Under each key of the upper mapping its value is laid over what stands there; other keys keep
theirs. -/
theorem find?_deepMerge (h : (Mapping.keys upper).Nodup) (key : String) :
    Mapping.find? (deepMerge base upper) key =
      ((Mapping.find? upper key).map (overlay (Mapping.find? base key))).or
        (Mapping.find? base key) := by
  induction upper generalizing base with
  | nil => rw [deepMerge_nil]; rfl
  | cons entry rest ih =>
    obtain ⟨k, value⟩ := entry
    obtain ⟨fresh, hrest⟩ := List.nodup_cons.mp h
    rw [deepMerge_cons, ih hrest, Mapping.find?_cons]
    by_cases hkey : k = key
    · subst hkey
      rw [(Mapping.find?_eq_none_iff rest k).mpr fresh, Mapping.find?_set_self, if_pos rfl]
      rfl
    · rw [Mapping.find?_set_of_ne _ _ hkey, if_neg hkey]

theorem keys_deepMerge (h : (Mapping.keys upper).Nodup) :
    Mapping.keys (deepMerge base upper) =
      Mapping.keys base ++ (Mapping.keys upper).filter (· ∉ Mapping.keys base) := by
  induction upper generalizing base with
  | nil => simp
  | cons entry rest ih =>
    obtain ⟨k, value⟩ := entry
    obtain ⟨fresh, hrest⟩ := List.nodup_cons.mp h
    rw [deepMerge_cons, ih hrest, Mapping.keys_set, Mapping.keys_cons, List.filter_cons]
    by_cases hk : k ∈ Mapping.keys base
    · simp [hk]
    · -- The new key stands behind the others, and none of the rest repeats it.
      have hfilter : (Mapping.keys rest).filter (· ∉ Mapping.keys base ++ [k]) =
          (Mapping.keys rest).filter (· ∉ Mapping.keys base) := by
        refine List.filter_congr fun key hkey => ?_
        have hne : key ≠ k := fun heq => fresh (heq ▸ hkey)
        simp [hne]
      rw [if_neg hk, hfilter, List.append_assoc]
      simp [hk]

theorem nodup_keys_deepMerge (hbase : (Mapping.keys base).Nodup)
    (hupper : (Mapping.keys upper).Nodup) : (Mapping.keys (deepMerge base upper)).Nodup := by
  rw [keys_deepMerge hupper]
  refine List.nodup_append.mpr ⟨hbase, hupper.filter _, ?_⟩
  rintro key hkey _ hfilter rfl
  simp [hkey] at hfilter

/-- Anything laid over nothing is itself. -/
theorem overlay_none (value : Document) : overlay none value = value :=
  overlay_over_not_mapping (by simp) value

theorem deepMerge_nil_left (h : (Mapping.keys upper).Nodup) : deepMerge [] upper = upper := by
  have hkeys : Mapping.keys (deepMerge [] upper) = Mapping.keys upper := by
    rw [keys_deepMerge h]
    simp
  refine Mapping.eq_of_find? hkeys (hkeys ▸ h) fun key => ?_
  rw [find?_deepMerge h, Mapping.find?_nil, Option.or_none]
  cases Mapping.find? upper key with
  | none => rfl
  | some value => rw [Option.map_some, overlay_none]

/-- An entry of a merged mapping stands in the lower mapping, or is an entry of the upper one laid over
what stands there. -/
theorem mem_deepMerge (hbase : (Mapping.keys base).Nodup) (hupper : (Mapping.keys upper).Nodup)
    {key : String} {d : Document} (h : (key, d) ∈ deepMerge base upper) :
    (key, d) ∈ base ∨
      ∃ value, (key, value) ∈ upper ∧ overlay (Mapping.find? base key) value = d := by
  have hfind := Mapping.find?_of_mem (nodup_keys_deepMerge hbase hupper) h
  rw [find?_deepMerge hupper, Option.or_eq_some_iff] at hfind
  rcases hfind with hfind | ⟨-, hfind⟩
  · obtain ⟨value, hvalue, hd⟩ := Option.map_eq_some_iff.mp hfind
    exact .inr ⟨value, Mapping.mem_of_find? hvalue, hd⟩
  · exact .inl (Mapping.mem_of_find? hfind)

/-- A value laid over anything is an object if it was one. -/
theorem isMapping_overlay (old : Option Document) (value : Document) :
    (overlay old value).isMapping = value.isMapping := by
  cases value with
  | mapping entries =>
    by_cases hold : ∃ base, old = some (.mapping base)
    · obtain ⟨base, rfl⟩ := hold
      rw [overlay_mapping]
      rfl
    · rw [overlay_over_not_mapping (not_exists.mp hold)]
  | _ => rw [overlay_of_not_mapping _ (by simp)]

end DesignTokens
