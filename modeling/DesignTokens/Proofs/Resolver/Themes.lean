import DesignTokens.Proofs.Document.Alike
import DesignTokens.Resolver

/-!
# What a resolved theme is made of

A theme that was resolved says what was looked up on the way: its mode is declared, its colours are
those of the mode, and each of its roles is what the role's own path resolves to.
-/

namespace DesignTokens

variable {config : Config} {mode : String} {policy : Document}

namespace Mapping

variable {α β ε : Type} {f : String → α → Except ε β} {m : Mapping α} {n : Mapping β}

/-- Where a mapping was traversed, every value is the outcome for the entry in its place. -/
theorem forall₂_of_traverse (h : traverse f m = .ok n) :
    List.Forall₂ (fun a b => a.1 = b.1 ∧ f a.1 a.2 = .ok b.2) m n := by
  induction m generalizing n with
  | nil =>
    cases h
    exact .nil
  | cons entry rest ih =>
    obtain ⟨key, a⟩ := entry
    obtain ⟨b, hb, h⟩ := bind_eq_ok_iff.mp h
    obtain ⟨more, hmore, h⟩ := bind_eq_ok_iff.mp h
    cases h
    exact .cons ⟨rfl, hb⟩ (ih hmore)

theorem along_of_traverse (h : traverse f m = .ok n) :
    Along (fun a b => ∃ key, f key a = .ok b) m n :=
  (forall₂_of_traverse h).imp fun entry _ hentry => ⟨hentry.1, entry.1, hentry.2⟩

/-- Under every key a traversed mapping has the outcome for what stood there. -/
theorem find?_of_traverse (h : traverse f m = .ok n) (key : String) (b : β) :
    find? n key = some b ↔ ∃ a, find? m key = some a ∧ f key a = .ok b := by
  have hentries := forall₂_of_traverse h
  clear h
  induction hentries with
  | nil => simp
  | @cons first second _ _ head _ ih =>
    obtain ⟨k, a⟩ := first
    obtain ⟨k', b'⟩ := second
    obtain ⟨rfl, hb⟩ := head
    rw [find?_cons, find?_cons]
    split
    · next hk =>
      subst hk
      simp [show f k a = .ok b' from hb]
    · exact ih

end Mapping

theorem exists_of_make {r : Resolver} (h : Resolver.make config mode policy = .ok r) :
    ∃ declared p, config.theme? mode = some declared ∧ Policy.ofWord policy = .ok p ∧
      r = ⟨config, mode, declared, p⟩ := by
  obtain ⟨declared, hdeclared, h⟩ := bind_eq_ok_iff.mp h
  obtain ⟨p, hp, h⟩ := bind_eq_ok_iff.mp h
  cases h
  unfold Config.themeFor at hdeclared
  split at hdeclared
  · next htheme =>
    cases hdeclared
    exact ⟨declared, p, htheme, hp, rfl⟩
  · cases hdeclared

/-- A resolved theme has the colours of its mode's theme, and its roles with the values that they
resolve to. -/
theorem exists_of_resolveTheme {theme : ResolvedTheme}
    (h : resolveTheme config mode policy = .ok theme) :
    ∃ r, Resolver.make config mode policy = .ok r ∧ theme.mode = mode ∧
      theme.colors = r.theme.colors ∧
      Mapping.traverse (fun category => Mapping.traverse fun role _ =>
        r.resolveRole (rolePath category role)) r.theme.semantic = .ok theme.semantic := by
  obtain ⟨r, hr, h⟩ := bind_eq_ok_iff.mp h
  obtain ⟨semantic, hsemantic, h⟩ := bind_eq_ok_iff.mp h
  cases h
  exact ⟨r, hr, rfl, rfl, hsemantic⟩

theorem mode_of_resolveTheme {theme : ResolvedTheme}
    (h : resolveTheme config mode policy = .ok theme) : theme.mode = mode := by
  obtain ⟨_, -, hmode, -⟩ := exists_of_resolveTheme h
  exact hmode

/-- The themes of a list of modes are the theme of each. -/
theorem forall₂_of_resolveThemes {modes : List String} {themes : List ResolvedTheme}
    (h : resolveThemes config policy modes = .ok themes) :
    List.Forall₂ (fun mode theme => resolveTheme config mode policy = .ok theme) modes themes := by
  induction modes generalizing themes with
  | nil =>
    cases h
    exact .nil
  | cons mode rest ih =>
    obtain ⟨theme, htheme, h⟩ := bind_eq_ok_iff.mp h
    obtain ⟨more, hmore, h⟩ := bind_eq_ok_iff.mp h
    cases h
    exact .cons htheme (ih hmore)

theorem modes_of_resolveThemes {modes : List String} {themes : List ResolvedTheme}
    (h : resolveThemes config policy modes = .ok themes) :
    themes.map ResolvedTheme.mode = modes := by
  have hthemes := forall₂_of_resolveThemes h
  clear h
  induction hthemes with
  | nil => rfl
  | cons head _ ih => rw [List.map_cons, mode_of_resolveTheme head, ih]

theorem resolveTheme_of_mem {modes : List String} {themes : List ResolvedTheme}
    (h : resolveThemes config policy modes = .ok themes) {theme : ResolvedTheme}
    (hmem : theme ∈ themes) : resolveTheme config theme.mode policy = .ok theme := by
  have hthemes := forall₂_of_resolveThemes h
  clear h
  induction hthemes with
  | nil => simp at hmem
  | cons head _ ih =>
    rcases List.mem_cons.mp hmem with rfl | hmem
    · rwa [mode_of_resolveTheme head]
    · exact ih hmem

end DesignTokens
