import DesignTokens.Proofs.Extension.Reached

/-!
# What a session leaves behind

A step that examines a whole document leaves a valid configuration. Laying a document over one
checks the types of its values only, so what it leaves is valid exactly when it is still well
formed.
-/

namespace DesignTokens

variable {rule : LeafRule} {config : Config}

open Read

theorem field_congr {α : Type} {entries others : Mapping Document} {key : String} {default : α}
    {check : Document → Checked α} (h : Mapping.find? entries key = Mapping.find? others key) :
    field entries (.only key) default check = field others (.only key) default check := by
  simp only [field, FieldKey.find?, FieldKey.only, h]

/-- A document that leaves the version, the themes and the output settings alone takes no
well-formedness away and gives none. -/
theorem wellFormed_merge_iff (hsource : HasSource rule config) {merged : Config}
    {upper : Mapping Document} (hversion : "version" ∉ Mapping.keys upper)
    (htheme : "theme" ∉ Mapping.keys upper) (htokens : "tokens" ∉ Mapping.keys upper)
    (h : config.merge upper = .ok merged) : merged.WellFormed ↔ config.WellFormed := by
  obtain ⟨hv, ht, ho⟩ := Config.fields_of_read ((merge_eq_ok_iff _ _ _).mp h)
  obtain ⟨hv', ht', ho'⟩ := Config.fields_of_read hsource.read_toDocument
  -- What stands under these keys is what the old document holds, which is read to the old values.
  rw [Config.versionKey, field_congr (find?_deepMerge_of_not_mem hversion)] at hv
  rw [Config.themeKey, field_congr (find?_deepMerge_of_not_mem htheme)] at ht
  rw [Config.tokensKey, field_congr (find?_deepMerge_of_not_mem htokens)] at ho
  have hversion : merged.version = config.reread.version := Checked.valid.inj (hv.symm.trans hv')
  have htheme : merged.theme = config.reread.theme := Checked.valid.inj (ht.symm.trans ht')
  have htokens : merged.tokens = config.reread.tokens := Checked.valid.inj (ho.symm.trans ho')
  rw [← config.wellFormed_reread_iff]
  constructor
  · rintro ⟨hv, ht, hp, ho⟩
    exact ⟨hversion ▸ hv, htheme ▸ ht, htokens ▸ hp, htokens ▸ ho⟩
  · rintro ⟨hv, ht, hp, ho⟩
    exact ⟨hversion ▸ hv, htheme ▸ ht, htokens ▸ hp, htokens ▸ ho⟩

end DesignTokens
