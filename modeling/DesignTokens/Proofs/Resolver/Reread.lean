import DesignTokens.Proofs.Config.Reread
import DesignTokens.Proofs.Resolver.Policies

/-!
# References in a configuration that is read again

A reference leads to a colour, a role, a spacing, a typographic or an effect value. What is declared of
these has a type and comes back as it is, and the sections are looked up in the form in which they are
written, so every reference has the same value, or fails with the same error, in a configuration that is
read again from its own document.
-/

namespace DesignTokens

variable (config : Config)

theorem theme?_reread (mode : String) :
    config.reread.theme? mode = (config.theme? mode).map Theme.reread :=
  Mapping.find?_mapValues _ _ _

theorem modes_reread : config.reread.modes = config.modes :=
  Mapping.keys_mapValues _ _

theorem themeFor_reread (mode : String) :
    config.reread.themeFor mode = (config.themeFor mode).map Theme.reread := by
  rw [Config.themeFor, Config.themeFor, theme?_reread, Config.unknownMode, Config.unknownMode,
    modes_reread]
  cases config.theme? mode <;> rfl

/-- The resolver of a configuration as it is read again. -/
def Resolver.reread (r : Resolver) : Resolver :=
  { r with config := r.config.reread, theme := r.theme.reread }

theorem make_reread (mode : String) (policy : Document) :
    Resolver.make config.reread mode policy =
      (Resolver.make config mode policy).map Resolver.reread := by
  rw [Resolver.make, Resolver.make, themeFor_reread]
  cases config.themeFor mode with
  | error failure => rfl
  | ok declared => cases Policy.ofWord policy <;> rfl

theorem lookUp_reread (r : Resolver) (path : String) : r.reread.lookUp path = r.lookUp path := by
  have hroot (space : String) : r.reread.root? space = r.root? space := by
    have htypography := Typography.faithful.rewritten r.config.typography
    have heffects := Effects.faithful.rewritten r.config.effects
    unfold Resolver.root?
    split
    · rfl
    · rfl
    · rfl
    · exact congrArg some htypography
    · exact congrArg some heffects
    · rfl
  have hstored : r.reread.stored path = r.stored path := by
    unfold Resolver.stored
    simp only [hroot]
    rfl
  rw [Resolver.lookUp, Resolver.lookUp, hstored]
  rfl

theorem resolve_reread (r : Resolver) (path : String) : r.reread.resolve path = r.resolve path := by
  rw [Resolver.resolve, Resolver.resolve, lookUp_reread]
  rfl

theorem resolveRole_reread (r : Resolver) (path : String) :
    r.reread.resolveRole path = r.resolveRole path := by
  rw [Resolver.resolveRole, Resolver.resolveRole, lookUp_reread]
  rfl

theorem resolveReference_reread (mode : String) (policy : Document) (path : String) :
    resolveReference config.reread mode policy path = resolveReference config mode policy path := by
  rw [resolveReference, resolveReference, make_reread]
  cases Resolver.make config mode policy with
  | error failure => rfl
  | ok r => exact resolve_reread r path

theorem resolveTheme_reread (mode : String) (policy : Document) :
    resolveTheme config.reread mode policy = resolveTheme config mode policy := by
  rw [resolveTheme, resolveTheme, make_reread]
  cases Resolver.make config mode policy with
  | error failure => rfl
  | ok r =>
    simp only [Except.map, bind, Except.bind, resolveRole_reread]
    rfl

theorem resolveThemes_reread (policy : Document) (modes : List String) :
    resolveThemes config.reread policy modes = resolveThemes config policy modes := by
  induction modes with
  | nil => rfl
  | cons mode rest ih => rw [resolveThemes, resolveThemes, resolveTheme_reread, ih]

end DesignTokens
