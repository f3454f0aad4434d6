import DesignTokens.Artifact.ComponentSheet
import DesignTokens.Proofs.Resolver.Themes

/-!
# The two policies

Everything that looks up references does so under one of two policies. Under the lenient one it
always comes to an end; under the strict one it comes to the same end, or it stops at a reference
without a value. Sequences, traversals and the recursion over nested styles preserve this.

## Main definitions

- `Conservative` — an outcome for each policy, of which the lenient one extends the strict one
- `Resolver.under` — a resolver with another policy
-/

namespace DesignTokens

variable {α β : Type} {config : Config} {mode : String} {theme : Theme}

/-- There is an outcome under the lenient policy. Under the strict policy there is the same one, or a
reference has no value. -/
def Conservative (outcome : Policy → Except Failure α) : Prop :=
  ∃ a, outcome .lenient = .ok a ∧
    (outcome .strict = .ok a ∨ ∃ u, outcome .strict = .error (.unresolved u))

namespace Conservative

theorem ok (a : α) : Conservative fun _ => .ok a :=
  ⟨a, rfl, .inl rfl⟩

/-- What follows may rely on what the lenient policy gave. -/
theorem bind {outcome : Policy → Except Failure α} {next : Policy → α → Except Failure β}
    (h : Conservative outcome)
    (hnext : ∀ a, outcome .lenient = .ok a → Conservative fun policy => next policy a) :
    Conservative fun policy => outcome policy >>= next policy := by
  obtain ⟨a, hlenient, hstrict⟩ := h
  obtain ⟨b, hb, hb'⟩ := hnext a hlenient
  refine ⟨b, by simpa [hlenient, Bind.bind, Except.bind] using hb, ?_⟩
  obtain hstrict | ⟨u, hstrict⟩ := hstrict
  · simpa [hstrict, Bind.bind, Except.bind] using hb'
  · exact .inr ⟨u, by simp [hstrict, Bind.bind, Except.bind]⟩

theorem traverse {f : Policy → String → α → Except Failure β} {m : Mapping α}
    (h : ∀ key a, (key, a) ∈ m → Conservative fun policy => f policy key a) :
    Conservative fun policy => Mapping.traverse (f policy) m := by
  induction m with
  | nil => exact ok []
  | cons entry rest ih =>
    obtain ⟨key, a⟩ := entry
    have hrest := ih fun key a hmem => h key a (List.mem_cons_of_mem _ hmem)
    exact (h key a List.mem_cons_self).bind fun b _ => hrest.bind fun more _ => ok ((key, b) :: more)

end Conservative

theorem Policy.ofWord_name (policy : Policy) : Policy.ofWord (.text policy.name) = .ok policy := by
  cases policy <;> rfl

/-- A word is the name of a policy, or there is no policy for it. -/
theorem Policy.name_or_invalid (word : Document) :
    (∃ policy : Policy, word = .text policy.name) ∨
      Policy.ofWord word = .error (.invalidPolicy word) := by
  unfold Policy.ofWord
  split
  · exact .inl ⟨.strict, rfl⟩
  · exact .inl ⟨.lenient, rfl⟩
  · exact .inr rfl

theorem Config.themeFor_of_find (h : config.theme? mode = some theme) :
    config.themeFor mode = .ok theme := by
  rw [themeFor, h]

theorem Config.exists_theme (h : mode ∈ config.modes) : ∃ theme, config.theme? mode = some theme :=
  Option.isSome_iff_exists.mp ((Mapping.find?_isSome_iff _ _).mpr h)

namespace Resolver

/-- A resolver with another policy. -/
def under (r : Resolver) (policy : Policy) : Resolver :=
  { r with policy := policy }

theorem make_of_find (h : config.theme? mode = some theme) (policy : Policy) :
    make config mode (.text policy.name) = .ok ⟨config, mode, theme, policy⟩ := by
  rw [make, Config.themeFor_of_find h, Policy.ofWord_name]
  rfl

theorem make_of_missing (h : config.theme? mode = none) (policy : Document) :
    make config mode policy = .error (config.unknownMode mode) := by
  rw [make, Config.themeFor, h]
  rfl

theorem ofMode_of_missing (h : config.theme? mode = none) (policy : Policy) :
    ofMode config mode policy = .error (config.unknownMode mode) := by
  rw [ofMode, Config.themeFor, h]
  rfl

theorem ofMode_of_find (h : config.theme? mode = some theme) (policy : Policy) :
    ofMode config mode policy = .ok ⟨config, mode, theme, policy⟩ := by
  rw [ofMode, Config.themeFor_of_find h]
  rfl

section Lookup

variable (r : Resolver) (path : String)

@[simp] theorem lookUp_under (policy : Policy) : (r.under policy).lookUp path = r.lookUp path := rfl

@[simp] theorem fallback_under (policy : Policy) :
    (r.under policy).fallback path = r.fallback path := rfl

@[simp] theorem policy_under (policy : Policy) : (r.under policy).policy = policy := rfl

/-- A reference is looked up in the same way under either policy. -/
theorem conservative_resolve : Conservative fun policy => (r.under policy).resolve path := by
  cases hvalue : r.lookUp path with
  | ok value => exact ⟨value, by simp [resolve, hvalue], .inl (by simp [resolve, hvalue])⟩
  | error u =>
    exact ⟨r.fallback path, by simp [resolve, hvalue], .inr ⟨u, by simp [resolve, hvalue]⟩⟩

/-- The role of a theme differs from other references in its fallback only. -/
theorem conservative_resolveRole : Conservative fun policy => (r.under policy).resolveRole path := by
  cases hvalue : r.lookUp path with
  | ok value => exact ⟨value, by simp [resolveRole, hvalue], .inl (by simp [resolveRole, hvalue])⟩
  | error u =>
    exact ⟨r.fallback u.path, by simp [resolveRole, hvalue],
      .inr ⟨u, by simp [resolveRole, hvalue]⟩⟩

end Lookup

end Resolver

section Themes

theorem resolveTheme_of_find (h : config.theme? mode = some theme) (policy : Policy) :
    resolveTheme config mode (.text policy.name) =
      Mapping.traverse (fun category => Mapping.traverse fun role _ =>
        ((Resolver.mk config mode theme .strict).under policy).resolveRole (rolePath category role))
          theme.semantic >>= fun semantic => .ok ⟨mode, theme.colors, semantic⟩ := by
  rw [resolveTheme, Resolver.make_of_find h]
  rfl

theorem conservative_resolveTheme (h : mode ∈ config.modes) :
    Conservative fun policy => resolveTheme config mode (.text policy.name) := by
  obtain ⟨theme, htheme⟩ := Config.exists_theme h
  simp only [resolveTheme_of_find htheme]
  refine Conservative.bind ?_ fun semantic _ => .ok (ResolvedTheme.mk mode theme.colors semantic)
  refine .traverse fun category roles _ => .traverse fun role _ _ => ?_
  exact Resolver.conservative_resolveRole _ (rolePath category role)

variable {modes : List String}

theorem conservative_resolveThemes (h : ∀ mode ∈ modes, mode ∈ config.modes) :
    Conservative fun policy => resolveThemes config (.text policy.name) modes := by
  induction modes with
  | nil => exact .ok []
  | cons mode rest ih =>
    rw [List.forall_mem_cons] at h
    exact (conservative_resolveTheme h.1).bind fun theme _ =>
      (ih h.2).bind fun more _ => .ok (theme :: more)

end Themes

section Styles

variable (r : Resolver)

theorem conservative_addEntries {entries : List (String × Document)}
    (h : ∀ entry ∈ entries, ∀ rule node, styleNode? entry.1 entry.2 = some node →
      Conservative fun policy => addEntry (r.under policy) rule entry.1 node) (rule : Rule) :
    Conservative fun policy => addEntries (r.under policy) rule (styleEntries entries) := by
  induction entries generalizing rule with
  | nil =>
    simp only [styleEntries, addEntries]
    exact .ok rule
  | cons entry rest ih =>
    obtain ⟨key, value⟩ := entry
    rw [List.forall_mem_cons] at h
    cases hnode : styleNode? key value with
    | none => simpa [styleEntries, hnode] using ih h.2 rule
    | some node =>
      simp only [styleEntries, hnode, Option.toList_some, List.map_cons, List.map_nil,
        List.cons_append, List.nil_append, addEntries]
      exact (h.1 rule node hnode).bind fun next _ => ih h.2 next

/-- Every value of a style object, at any depth of states, is compiled conservatively. -/
theorem conservative_addEntry (d : Document) : ∀ key rule node, styleNode? key d = some node →
    Conservative fun policy => addEntry (r.under policy) rule key node := by
  induction d using Document.byParts with
  | mapping entries ih =>
    intro key rule node hnode
    rw [styleNode?] at hnode
    split at hnode
    · next hstate =>
      cases hnode
      obtain ⟨selector, hselector⟩ := Option.isSome_iff_exists.mp hstate
      simp only [addEntry, stateSelector, hselector]
      refine Conservative.bind (conservative_addEntries r ?_ .empty) fun inner _ => .ok _
      exact fun entry hentry rule node => ih entry hentry entry.1 rule node
    · cases hnode
  | text s =>
    intro key rule node hnode
    cases hnode
    unfold scalarNode
    split
    · simp only [addEntry]
      exact (r.conservative_resolve s).bind fun value _ => .ok _
    · simp only [addEntry]
      exact .ok _
  | _ =>
    intro key rule node hnode
    simp only [styleNode?, plainNode?] at hnode
    obtain ⟨value, -, rfl⟩ := Option.map_eq_some_iff.mp hnode
    simp only [addEntry]
    exact .ok _

theorem conservative_compileEntries (style : Mapping Document) :
    Conservative fun policy => compileEntries (r.under policy) (styleEntries style) :=
  conservative_addEntries r
    (fun entry _ rule node => conservative_addEntry r entry.2 entry.1 rule node) .empty

theorem conservative_compileStyle (h : mode ∈ config.modes) (style : Mapping Document) :
    Conservative fun policy => compileStyle config mode (.text policy.name) style := by
  obtain ⟨theme, htheme⟩ := Config.exists_theme h
  simp only [compileStyle, Resolver.make_of_find htheme]
  exact conservative_compileEntries ⟨config, mode, theme, .strict⟩ style

theorem conservative_compileBlocks (styles : List (String × Mapping Document)) :
    Conservative fun policy => Config.compileBlocks (r.under policy) styles := by
  induction styles with
  | nil => exact .ok []
  | cons part rest ih =>
    exact (conservative_compileEntries r part.2).bind fun rule _ => ih.bind fun more _ => .ok _

theorem conservative_componentSheet :
    Conservative fun policy => Config.componentSheet (r.under policy) :=
  (conservative_compileBlocks r r.config.componentStyles).bind fun _ _ => .ok _

end Styles

end DesignTokens
