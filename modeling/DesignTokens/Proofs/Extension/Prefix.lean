import DesignTokens.Export.Placement
import DesignTokens.Proofs.Extension.Reached

/-!
# Another prefix

Overriding the prefix of variable names lays a document with nothing but the prefix over that of the
configuration. The configuration comes back as it is read again from its own document, with the other
prefix in its output settings.

## Main definitions

- `Config.renamed` — a configuration with another prefix and no other change
-/

namespace DesignTokens

variable {rule : LeafRule} {config : Config}

/-- Output settings with another prefix. -/
def OutputSettings.renamed (settings : OutputSettings) (first : String) : OutputSettings :=
  { settings with variablePrefix := first }

/-- A configuration with another prefix and no other change. -/
def Config.renamed (config : Config) (first : String) : Config :=
  { config with tokens := config.tokens.renamed first }

theorem OutputSettings.read_renamed {settings : OutputSettings} {d : Document}
    (h : OutputSettings.read d = .valid settings) (first : String) :
    OutputSettings.read (settings.renamed first).toDocument =
      .valid (settings.renamed first).reread := by
  have hslots := OutputSettings.slotted.returns h
  refine OutputSettings.slotted.read_write ?_ (OutputSettings.slotted.sources h).2
  simp only [OutputSettings.slots, List.forall_mem_cons, List.not_mem_nil, false_imp_iff,
    implies_true, and_true] at hslots ⊢
  obtain ⟨-, houtput, hformats, hincluded, hexcluded⟩ := hslots
  exact ⟨rfl, houtput, hformats, hincluded, hexcluded⟩

theorem Config.read_renamed {d : Document} (h : Config.read d = .valid config) (first : String) :
    Config.read (config.renamed first).toDocument = .valid (config.renamed first).reread := by
  obtain ⟨hsources, hextras⟩ := Config.slotted.sources h
  have hslots := Config.slotted.returns h
  refine Config.slotted.read_write ?_ hextras
  simp only [Config.slots, List.forall_mem_cons, List.not_mem_nil, false_imp_iff, implies_true,
    and_true] at hsources hslots ⊢
  obtain ⟨-, -, -, -, -, -, -, -, ⟨_, htokens⟩, -⟩ := hsources
  obtain ⟨hversion, hname, hdescription, htheme, htypography, hspacing, heffects, hresponsive, -,
    hcomponents⟩ := hslots
  exact ⟨hversion, hname, hdescription, htheme, htypography, hspacing, heffects, hresponsive,
    OutputSettings.read_renamed htokens first, hcomponents⟩

/-- A document with nothing but a prefix replaces that of the configuration it is laid over. -/
theorem deepMerge_prefix (config : Config) (first : String) :
    deepMerge config.entries [("tokens", .mapping [("prefix", .text first)])] =
      (config.renamed first).entries := by
  have htokens : Mapping.find? config.entries "tokens" = some config.tokens.toDocument := rfl
  have hprefix : overlay (some config.tokens.toDocument) (.mapping [("prefix", .text first)]) =
      (config.tokens.renamed first).toDocument := by
    rw [OutputSettings.toDocument, overlay_mapping, deepMerge_cons, deepMerge_nil,
      overlay_of_not_mapping _ (by simp)]
    rfl
  rw [deepMerge_cons, deepMerge_nil, htokens, hprefix]
  rfl

/-- Overriding the prefix gives the configuration as it is read again, with the other prefix. -/
theorem withPrefix_eq (h : HasSource rule config) (first : String) :
    config.withPrefix first = .ok (config.reread.renamed first) := by
  obtain ⟨d, -, hread⟩ := h
  rw [Config.withPrefix, merge_eq_ok_iff, deepMerge_prefix]
  exact Config.read_renamed hread first

end DesignTokens
