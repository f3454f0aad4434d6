import DesignTokens.Artifact.Emit
import DesignTokens.Proofs.Document.Settling
import DesignTokens.Proofs.Extension.Reached
import DesignTokens.Proofs.Resolver.Themes
import DesignTokens.Proofs.Style.Blocks

/-!
# The classes of a component and its composed style

The stylesheet of the component library holds the base style, the variants, the sizes and the states
of a component under classes of their own. An element with the classes of a selection gets from the
sheet what the composed style of the selection gives, if nothing else is in the sheet under these
classes and the four style objects can be laid over each other.

## Main definitions

- `Config.componentBlocks` — the blocks of the stylesheet of the library
- `Config.Choice` — a component with a declared variant, size and state
- `Apart` — a style object that declares nothing under some selectors
- `Config.Choice.Unmixed` — the classes of a choice hold its own styles only
-/

namespace DesignTokens

/-- The rule of a style object, empty if it has none. -/
def Resolver.ruleOf (r : Resolver) (style : Mapping Document) : Rule :=
  match compileEntries r (styleEntries style) with
  | .ok rule => rule
  | .error _ => .empty

/-- The blocks of a list of style objects with their selectors. -/
def Resolver.partBlocks (r : Resolver) (parts : List (String × Mapping Document)) :
    List StyleBlock :=
  parts.flatMap fun part => (r.ruleOf part.2).styleBlocks part.1

/-- The blocks of the stylesheet of the library. -/
def Config.componentBlocks (r : Resolver) : List StyleBlock :=
  r.partBlocks r.config.componentStyles

section Sheet

variable {config : Config} {r : Resolver}

theorem ruleOf_of_ok {style : Mapping Document} {rule : Rule}
    (h : compileEntries r (styleEntries style) = .ok rule) : r.ruleOf style = rule := by
  rw [Resolver.ruleOf, h]

/-- Where the parts of a sheet are written, each of them has a rule, and what is written are the
blocks of the rules. -/
theorem compileBlocks_eq_ok {parts : List (String × Mapping Document)} {written : List String}
    (h : Config.compileBlocks r parts = .ok written) :
    (∀ part ∈ parts, compileEntries r (styleEntries part.2) = .ok (r.ruleOf part.2)) ∧
      ∀ head, Text.join "\n\n" (head :: written) =
        Text.join "\n\n" (head :: (r.partBlocks parts).map StyleBlock.text) := by
  induction parts generalizing written with
  | nil =>
    cases h
    exact ⟨by simp, fun _ => rfl⟩
  | cons part rest ih =>
    obtain ⟨selector, style⟩ := part
    obtain ⟨rule, hrule, h⟩ := bind_eq_ok_iff.mp h
    obtain ⟨more, hmore, h⟩ := bind_eq_ok_iff.mp h
    obtain ⟨hcompiled, hjoin⟩ := ih hmore
    have hof := ruleOf_of_ok hrule
    refine ⟨List.forall_mem_cons.mpr ⟨by rw [hrule, hof], hcompiled⟩, fun head => ?_⟩
    rw [Resolver.partBlocks, List.flatMap_cons, List.map_append, hof, ← Resolver.partBlocks]
    cases h
    split
    · next hempty =>
      rw [(rule.isEmpty_iff selector).mp hempty]
      exact hjoin head
    -- The written rule is itself joined from the blocks, of which there is one at least.
    · next hempty =>
      have hblocks : (rule.styleBlocks selector).map StyleBlock.text ≠ [] := by
        simpa [← rule.isEmpty_iff selector] using hempty
      rw [Text.join, String.intercalate_cons_cons, ← Text.join, hjoin, Rule.render_eq,
        Text.join_join_cons _ hblocks, Text.join,
        ← String.intercalate_cons_of_ne_nil (List.append_ne_nil_of_left_ne_nil hblocks _), Text.join]

/-- The stylesheet of the library, where it is produced. -/
theorem exists_of_emit_components {policy : Policy} {theme : ResolvedTheme} {content : String}
    (h : config.emit policy [theme] .components = .ok content) :
    ∃ r, Resolver.make config theme.mode (.text policy.name) = .ok r ∧
      (∀ part ∈ config.componentStyles,
        compileEntries r (styleEntries part.2) = .ok (r.ruleOf part.2)) ∧
      r.config = config ∧
      content = Text.join "\n\n" (config.componentHeader theme.mode ::
        (Config.componentBlocks r).map StyleBlock.text) ++ "\n" := by
  obtain ⟨_, htheme, h⟩ := bind_eq_ok_iff.mp h
  cases htheme
  obtain ⟨r, hr, h⟩ := bind_eq_ok_iff.mp h
  obtain ⟨written, hwritten, h⟩ := bind_eq_ok_iff.mp h
  obtain ⟨declared, hdeclared, hr⟩ := bind_eq_ok_iff.mp hr
  cases hr
  cases h
  obtain ⟨hcompiled, hjoin⟩ := compileBlocks_eq_ok hwritten
  refine ⟨_, ?_, hcompiled, rfl, by rw [hjoin]; rfl⟩
  rw [Resolver.make, hdeclared]
  cases policy <;> rfl

end Sheet

section Source

variable {config : Config} {name : String} {style : ComponentStyle}

theorem HasSource.regular_library (h : HasSource .any config) :
    (mappingDocument ComponentStyle.toDocument config.components.library).Regular .any :=
  (h.regular.find? (show Mapping.find? _ "components" = some _ from rfl)).find?
    (show Mapping.find? _ "library" = some _ from rfl)

theorem HasSource.regular_component (h : HasSource .any config)
    (hstyle : (name, style) ∈ config.components.library) : style.toDocument.Regular .any :=
  (regular_mappingDocument.mp h.regular_library).2 _ _ hstyle

theorem regular_of_styleDocument {style : Mapping Document}
    (h : (styleDocument style).Regular .any) : (Document.mapping style).Regular .any :=
  Document.regular_of_settle h

theorem regular_of_mem_section {styles : Mapping (Mapping Document)}
    (h : (mappingDocument styleDocument styles).Regular .any) {name : String}
    {style : Mapping Document} (hstyle : (name, style) ∈ styles) :
    (Document.mapping style).Regular .any :=
  regular_of_styleDocument ((regular_mappingDocument.mp h).2 _ _ hstyle)

/-- The three sections of a regular component are regular, and so is its base. -/
theorem regular_sections (h : style.toDocument.Regular .any) :
    (Document.mapping style.base).Regular .any ∧
      ∀ styles ∈ [style.variants, style.sizes, style.states],
        (mappingDocument styleDocument styles).Regular .any := by
  refine ⟨regular_of_styleDocument (h.find? (show Mapping.find? _ "base" = some _ from rfl)), ?_⟩
  simp only [List.forall_mem_cons]
  exact ⟨h.find? (show Mapping.find? _ "variants" = some _ from rfl),
    h.find? (show Mapping.find? _ "sizes" = some _ from rfl),
    h.find? (show Mapping.find? _ "states" = some _ from rfl), by simp⟩

/-- Every style object of the library is regular. -/
theorem HasSource.regular_part (h : HasSource .any config) {part : String × Mapping Document}
    (hpart : part ∈ config.componentStyles) : (Document.mapping part.2).Regular .any := by
  obtain ⟨⟨name, style⟩, hstyle, hpart⟩ := List.mem_flatMap.mp hpart
  obtain ⟨hbase, hsections⟩ := regular_sections (h.regular_component hstyle)
  simp only [List.forall_mem_cons] at hsections
  obtain ⟨hvariants, hsizes, hstates, -⟩ := hsections
  rw [ComponentStyle.selectors, List.mem_cons, List.mem_map] at hpart
  rcases hpart with rfl | ⟨entry, hentry, rfl⟩
  · exact hbase
  · simp only [List.mem_append] at hentry
    rcases hentry with (hentry | hentry) | hentry
    · exact regular_of_mem_section hvariants hentry
    · exact regular_of_mem_section hsizes hentry
    · exact regular_of_mem_section hstates hentry

end Source

/-- A component of a library with one of its variants, sizes and states. -/
structure Config.Choice (config : Config) where
  name : String
  style : ComponentStyle
  variant : String × Mapping Document
  size : String × Mapping Document
  state : String × Mapping Document
  declared : Mapping.find? config.components.library name = some style
  variant_declared : Mapping.find? style.variants variant.1 = some variant.2
  size_declared : Mapping.find? style.sizes size.1 = some size.2
  state_declared : Mapping.find? style.states state.1 = some state.2

/-- A style object declares nothing under any of some selectors, for no chain of states. -/
def Apart (selectors : List String) (part : String × Mapping Document) : Prop :=
  ∀ chain, declaredAt part.2 chain ≠ [] → ∀ selector ∈ selectors, ∀ other,
    part.1 ++ chainSuffix chain ≠ selector ++ chainSuffix other

theorem Apart.of_empty (selectors : List String) (selector : String) :
    Apart selectors (selector, []) := by
  intro chain hne
  cases chain <;> exact absurd rfl hne

/-- Without colons in them, different selectors are enough. -/
theorem Apart.of_not_mem {selectors : List String} {part : String × Mapping Document}
    (plain : ':' ∉ part.1.toList) (selectors_plain : ∀ selector ∈ selectors, ':' ∉ selector.toList)
    (h : part.1 ∉ selectors) : Apart selectors part := by
  intro chain _ selector hselector other heq
  obtain ⟨rfl, -⟩ := (append_chainSuffix_inj plain (selectors_plain selector hselector)).mp heq
  exact h hselector

namespace Config.Choice

variable {config : Config} (choice : config.Choice)

def selection : Selection :=
  ⟨some choice.variant.1, some choice.size.1, some choice.state.1⟩

/-- The class of the component. -/
def selector : String :=
  "." ++ choice.name

/-- The class of a variant, a size or a state of the component, with its style object. -/
def part (entry : String × Mapping Document) : String × Mapping Document :=
  (choice.selector ++ "-" ++ entry.1, entry.2)

/-- The style objects of the choice under their classes. -/
def parts : List (String × Mapping Document) :=
  [(choice.selector, choice.style.base), choice.part choice.variant, choice.part choice.size,
    choice.part choice.state]

def selectors : List String :=
  choice.parts.map Prod.fst

/-- The classes of the choice for a chain of states. -/
def selectorsAt (chain : List Interaction) : List String :=
  choice.selectors.map fun selector => selector ++ chainSuffix chain

theorem selectorsAt_nil : choice.selectorsAt [] = choice.selectors := by
  simp [selectorsAt, chainSuffix]

/-- What holds of all style objects of the library but those of the choice. -/
structure Others (P : String × Mapping Document → Prop) : Prop where
  components : ∀ component ∈ config.components.library, component.1 ≠ choice.name →
    ∀ part ∈ component.2.selectors component.1, P part
  variants : ∀ entry ∈ choice.style.variants, entry.1 ≠ choice.variant.1 → P (choice.part entry)
  sizes : ∀ entry ∈ choice.style.sizes, entry.1 ≠ choice.size.1 → P (choice.part entry)
  states : ∀ entry ∈ choice.style.states, entry.1 ≠ choice.state.1 → P (choice.part entry)

/-- The classes of a choice hold its own styles only: no other style object declares something under
them, and its own do so for the chain of states they declare it for. -/
structure Unmixed : Prop where
  others : choice.Others (Apart choice.selectors)
  chains : ∀ part ∈ choice.parts, ∀ chain, declaredAt part.2 chain ≠ [] →
    ∀ selector ∈ choice.selectors, ∀ other,
      part.1 ++ chainSuffix chain = selector ++ chainSuffix other → chain = other

/-- The style objects that the composed style is merged from, above the base. -/
def uppers : List (Mapping Document) :=
  [choice.variant.2, choice.size.2, choice.state.2]

theorem compose_eq : choice.style.compose choice.selection =
    deepMergeAll choice.style.base choice.uppers := by
  simp only [ComponentStyle.compose, selection, selectStyle, Option.bind_some,
    choice.variant_declared, choice.size_declared, choice.state_declared, uppers]

theorem part_mem {entry : String × Mapping Document}
    (h : entry ∈ choice.style.variants ++ choice.style.sizes ++ choice.style.states) :
    choice.part entry ∈ config.componentStyles :=
  List.mem_flatMap.mpr ⟨_, Mapping.mem_of_find? choice.declared,
    List.mem_cons_of_mem _ (List.mem_map_of_mem h)⟩

theorem mem_componentStyles : ∀ part ∈ choice.parts, part ∈ config.componentStyles := by
  have hbase : (choice.selector, choice.style.base) ∈ config.componentStyles :=
    List.mem_flatMap.mpr ⟨_, Mapping.mem_of_find? choice.declared, List.mem_cons_self⟩
  simp only [parts, List.forall_mem_cons]
  refine ⟨hbase, choice.part_mem ?_, choice.part_mem ?_, choice.part_mem ?_, by simp⟩
  · simp [Mapping.mem_of_find? choice.variant_declared]
  · simp [Mapping.mem_of_find? choice.size_declared]
  · simp [Mapping.mem_of_find? choice.state_declared]

theorem Others.imp {choice : config.Choice} {P Q : String × Mapping Document → Prop}
    (h : choice.Others P) (himp : ∀ part ∈ config.componentStyles, P part → Q part) :
    choice.Others Q := by
  refine ⟨fun component hmem hne part hpart => ?_, fun entry hmem hne => ?_,
    fun entry hmem hne => ?_, fun entry hmem hne => ?_⟩
  · exact himp part (List.mem_flatMap.mpr ⟨component, hmem, hpart⟩)
      (h.components component hmem hne part hpart)
  · exact himp _ (choice.part_mem (by simp [hmem])) (h.variants entry hmem hne)
  · exact himp _ (choice.part_mem (by simp [hmem])) (h.sizes entry hmem hne)
  · exact himp _ (choice.part_mem (by simp [hmem])) (h.states entry hmem hne)

/-- In a library without colons in its names it is enough that no other style object that is not empty
has one of the classes. -/
theorem Unmixed.of_plain {choice : config.Choice}
    (plain : ∀ part ∈ config.componentStyles, ':' ∉ part.1.toList)
    (others : choice.Others fun part => part.1 ∉ choice.selectors ∨ part.2 = []) :
    choice.Unmixed := by
  have hselectors : ∀ selector ∈ choice.selectors, ':' ∉ selector.toList :=
    List.forall_mem_map.mpr fun part hpart => plain part (choice.mem_componentStyles part hpart)
  constructor
  · refine others.imp fun part hpart h => ?_
    obtain ⟨selector, style⟩ := part
    rcases h with h | rfl
    · exact .of_not_mem (plain _ hpart) hselectors h
    · exact .of_empty _ selector
  · intro part hpart chain _ selector hselector other heq
    have hpart := plain part (choice.mem_componentStyles part hpart)
    exact ((append_chainSuffix_inj hpart (hselectors selector hselector)).mp heq).2

theorem map_parts : choice.parts.map Prod.snd = choice.style.base :: choice.uppers := rfl

theorem regular_layers (hsource : HasSource .any config) :
    (Document.mapping choice.style.base).Regular .any ∧
      ∀ upper ∈ choice.uppers, (Document.mapping upper).Regular .any := by
  have hlayers : ∀ layer ∈ choice.parts.map Prod.snd, (Document.mapping layer).Regular .any :=
    List.forall_mem_map.mpr fun part hpart =>
      hsource.regular_part (choice.mem_componentStyles part hpart)
  exact List.forall_mem_cons.mp (choice.map_parts ▸ hlayers)

section Rules

variable {r : Resolver} {choice : config.Choice}

/-- A choice of a library whose sheet is produced has a rule: what its style declares is declared by
a style object of the sheet. -/
theorem exists_rule (hsource : HasSource .any config) (choice : config.Choice)
    (hcompiled : ∀ part ∈ config.componentStyles,
      compileEntries r (styleEntries part.2) = .ok (r.ruleOf part.2)) :
    ∃ rule, compileEntries r (styleEntries (choice.style.compose choice.selection)) = .ok rule := by
  obtain ⟨hbase, huppers⟩ := choice.regular_layers hsource
  rw [choice.compose_eq]
  refine exists_compiled (hbase.deepMergeAll huppers) fun chain entry hentry => ?_
  obtain ⟨layer, hlayer, hentry⟩ := mem_declaredAt_deepMergeAll hbase huppers hentry
  rw [← choice.map_parts] at hlayer
  obtain ⟨part, hpart, rfl⟩ := List.mem_map.mp hlayer
  have hmem := choice.mem_componentStyles part hpart
  exact (exists_compiled_iff (hsource.regular_part hmem)).mp ⟨_, hcompiled part hmem⟩ chain entry
    hentry

/-- Where the other style objects of the library contribute nothing, its contributions are those of
the choice. -/
theorem flatMap_componentStyles (hsource : HasSource .any config) (choice : config.Choice)
    {β : Type} {f : String × Mapping Document → List β}
    (others : choice.Others fun part => f part = []) :
    config.componentStyles.flatMap f = choice.parts.flatMap f := by
  have hlibrary := (regular_mappingDocument.mp hsource.regular_library).1
  obtain ⟨-, hsections⟩ :=
    regular_sections (hsource.regular_component (Mapping.mem_of_find? choice.declared))
  simp only [List.forall_mem_cons, regular_mappingDocument] at hsections
  obtain ⟨⟨hvariants, -⟩, ⟨hsizes, -⟩, ⟨hstates, -⟩, -⟩ := hsections
  have hcomponent : config.componentStyles.flatMap f =
      (choice.style.selectors choice.name).flatMap f := by
    rw [componentStyles, List.flatMap_assoc]
    exact Mapping.flatMap_of_find? hlibrary choice.declared fun component hmem hne =>
      List.flatMap_eq_nil_iff.mpr (others.components component hmem hne)
  have hselectors : choice.style.selectors choice.name = (choice.selector, choice.style.base) ::
      (choice.style.variants ++ choice.style.sizes ++ choice.style.states).map choice.part := rfl
  rw [hcomponent, hselectors, List.flatMap_cons, List.flatMap_map, List.flatMap_append,
    List.flatMap_append,
    Mapping.flatMap_of_find? hvariants choice.variant_declared others.variants,
    Mapping.flatMap_of_find? hsizes choice.size_declared others.sizes,
    Mapping.flatMap_of_find? hstates choice.state_declared others.states]
  simp [parts]

/-- Under the classes of an unmixed choice the sheet has the properties of its style objects. -/
theorem applied_componentBlocks (hsource : HasSource .any config) (unmixed : choice.Unmixed)
    (hcompiled : ∀ part ∈ config.componentStyles,
      compileEntries r (styleEntries part.2) = .ok (r.ruleOf part.2))
    (hconfig : r.config = config) (chain : List Interaction) :
    applied (componentBlocks r) (choice.selectorsAt chain) =
      declarations (choice.parts.flatMap fun part => (r.ruleOf part.2).propertiesAt chain) := by
  have hdeclared : ∀ part ∈ config.componentStyles, ∀ other,
      (r.ruleOf part.2).propertiesAt other ≠ [] → declaredAt part.2 other ≠ [] := by
    intro part hpart other hne hempty
    have hgives := gives_propertiesAt (hsource.regular_part hpart) (hcompiled part hpart) other
    rw [hempty, List.forall₂_nil_left_iff] at hgives
    exact hne hgives
  have htidy : ∀ part ∈ config.componentStyles, (r.ruleOf part.2).Tidy := fun part hpart =>
    tidy_of_compiled (hsource.regular_part hpart) (hcompiled part hpart)
  have hapart : ∀ part ∈ config.componentStyles, Apart choice.selectors part →
      applied ((r.ruleOf part.2).styleBlocks part.1) (choice.selectorsAt chain) = [] := by
    intro part hpart hapart
    refine applied_of_not_mem (htidy part hpart) fun other hne hmem => ?_
    obtain ⟨selector, hselector, heq⟩ := List.mem_map.mp hmem
    exact hapart other (hdeclared part hpart other hne) selector hselector chain heq.symm
  have hown : ∀ part ∈ choice.parts,
      applied ((r.ruleOf part.2).styleBlocks part.1) (choice.selectorsAt chain) =
        declarations ((r.ruleOf part.2).propertiesAt chain) := by
    intro part hpart
    have hmem := choice.mem_componentStyles part hpart
    refine applied_of_iff (htidy part hmem) fun other hne => ⟨fun hselector => ?_, ?_⟩
    · obtain ⟨selector, hselector, heq⟩ := List.mem_map.mp hselector
      exact unmixed.chains part hpart other (hdeclared part hmem other hne) selector hselector
        chain heq.symm
    · rintro rfl
      exact List.mem_map.mpr ⟨part.1, List.mem_map_of_mem hpart, rfl⟩
  rw [componentBlocks, Resolver.partBlocks, applied_flatMap, hconfig,
    choice.flatMap_componentStyles hsource (unmixed.others.imp hapart), declarations,
    List.map_flatMap]
  exact List.flatMap_congr hown

end Rules

end Config.Choice

/-- Where the stylesheet of a library is produced, each choice of a component with a variant, a size
and a state has a rule. If the classes of the choice hold its own styles only and its style objects
can be laid over each other, then for every chain of states the last declaration of a property under
the classes in the sheet has the value of the last one in the rendering of the rule, and a property
is declared in both or in neither. -/
theorem sheet_agrees_with_composed {config : Config} (hsource : HasSource .any config)
    (choice : config.Choice) (unmixed : choice.Unmixed)
    (layered : Layered choice.style.base choice.uppers) {policy : Policy} {theme : ResolvedTheme}
    {content : String} (hemit : config.emit policy [theme] .components = .ok content) :
    ∃ r rule, Resolver.make config theme.mode (.text policy.name) = .ok r ∧
      content = Text.join "\n\n" (config.componentHeader theme.mode ::
        (Config.componentBlocks r).map StyleBlock.text) ++ "\n" ∧
      compileComponent choice.style config theme.mode (.text policy.name) choice.selection =
        .ok rule ∧
      rule.render choice.selector 0 =
        Text.join "\n\n" ((rule.styleBlocks choice.selector).map StyleBlock.text) ∧
      ∀ chain property,
        cascade (Config.componentBlocks r) (choice.selectorsAt chain) property =
          cascade (rule.styleBlocks choice.selector) [choice.selector ++ chainSuffix chain]
            property := by
  obtain ⟨r, hmake, hcompiled, hconfig, hcontent⟩ := exists_of_emit_components hemit
  obtain ⟨rule, hrule⟩ := choice.exists_rule hsource hcompiled
  obtain ⟨hbase, huppers⟩ := choice.regular_layers hsource
  have hregular : (Document.mapping (choice.style.compose choice.selection)).Regular .any := by
    rw [choice.compose_eq]
    exact hbase.deepMergeAll huppers
  refine ⟨r, rule, hmake, hcontent, ?_, rule.render_eq _, fun chain property => ?_⟩
  · rw [compileComponent, compileStyle, hmake]
    exact hrule
  -- Both sides are the value of the last entry among the layers, in their order.
  have hsheet : List.Forall₂ r.Gives
      (choice.parts.flatMap fun part => declaredAt part.2 chain)
      (choice.parts.flatMap fun part => (r.ruleOf part.2).propertiesAt chain) := by
    have hparts : List.Forall₂ (fun part other => part = other ∧ part ∈ choice.parts)
        choice.parts choice.parts := List.forall₂_same.mpr fun part hpart => ⟨rfl, hpart⟩
    refine List.rel_flatMap hparts ?_
    rintro part _ ⟨rfl, hpart⟩
    have hmem := choice.mem_componentStyles part hpart
    exact gives_propertiesAt (hsource.regular_part hmem) (hcompiled part hmem) chain
  have hcomposed := gives_propertiesAt hregular hrule chain
  rw [cascade_of_applied (choice.applied_componentBlocks hsource unmixed hcompiled hconfig chain),
    cascade_styleBlocks (tidy_of_compiled hregular hrule), lastFor_of_gives hsheet,
    lastFor_of_gives hcomposed, choice.compose_eq, layered.lastFor hbase huppers,
    ← choice.map_parts, List.flatMap_map]

/-- A small document whose library holds one component. -/
def buttonDocument (style : ComponentStyle) : Mapping Document :=
  [("version", .text "1.0"),
    ("theme", .mapping [("default", .text "light"), ("themes", .mapping [("light",
      .mapping [("colors", .mapping []), ("semantic", .mapping [])])])]),
    ("tokens", .mapping [("prefix", .text "tc"), ("output", .text "./tokens"),
      ("formats", .list [.text "css"])]),
    ("components", .mapping [("library", .mapping [("btn", style.toDocument)])])]

/-- Every class of the choice has a style object, and the variant replaces properties of the base. -/
def sampleButton : ComponentStyle where
  base := [("display", .text "block"), ("color", .text "red"),
    ("hover", .mapping [("color", .text "black"), ("outline", .text "none")])]
  variants := [("default", []),
    ("solid", [("color", .text "blue"), ("hover", .mapping [("color", .text "white")])])]
  sizes := [("default", [("paddingInline", .text "4px")])]
  states := [("off", [("opacity", .text "0.5")])]
  extras := []

/-- The solid button of default size that is off. -/
def sampleChoice {config : Config} (h : config.components.library = [("btn", sampleButton)]) :
    config.Choice where
  name := "btn"
  style := sampleButton
  variant := ("solid", [("color", .text "blue"), ("hover", .mapping [("color", .text "white")])])
  size := ("default", [("paddingInline", .text "4px")])
  state := ("off", [("opacity", .text "0.5")])
  declared := by rw [h]; rfl
  variant_declared := rfl
  size_declared := rfl
  state_declared := rfl

theorem unmixed_sampleChoice {config : Config}
    (h : config.components.library = [("btn", sampleButton)]) : (sampleChoice h).Unmixed := by
  refine .of_plain ?_ ⟨?_, ?_, ?_, ?_⟩
  · rw [Config.componentStyles, h]
    decide
  · rw [h]
    rintro _ (_ | ⟨_, ⟨⟩⟩) hne
    exact absurd rfl hne
  · change ∀ entry ∈ sampleButton.variants, entry.1 ≠ "solid" →
      ".btn-" ++ entry.1 ∉ [".btn", ".btn-solid", ".btn-default", ".btn-off"] ∨ entry.2 = []
    decide
  all_goals
    rintro _ (_ | ⟨_, ⟨⟩⟩) hne
    exact absurd rfl hne

theorem layered_sampleChoice : Layered sampleButton.base
    [[("color", .text "blue"), ("hover", .mapping [("color", .text "white")])],
      [("paddingInline", .text "4px")], [("opacity", .text "0.5")]] := by
  refine ⟨.of_states (by decide) (by decide) (by decide) ?_,
    .of_states (by decide) (by decide) (by decide) ?_,
    .of_states (by decide) (by decide) (by decide) ?_, trivial⟩
  · rintro (_ | _ | _)
    · refine .inr (.inr ⟨_, _, rfl, rfl, .of_states (by decide) (by decide) (by decide) ?_⟩)
      rintro (_ | _ | _) <;> exact .inl rfl
    · exact .inl rfl
    · exact .inl rfl
  all_goals
    rintro (_ | _ | _) <;> exact .inl rfl

theorem sample_sheet_agrees : ∃ config theme content r rule, ∃ choice : Config.Choice config,
    Config.read (.mapping (buttonDocument sampleButton)) = .valid config ∧
      config.emit .strict [theme] .components = .ok content ∧
      choice.selection = ⟨some "solid", some "default", some "off"⟩ ∧
      choice.selectorsAt [.hover] =
        [".btn:hover", ".btn-solid:hover", ".btn-default:hover", ".btn-off:hover"] ∧
      compileComponent choice.style config theme.mode (.text "strict") choice.selection = .ok rule ∧
      cascade (Config.componentBlocks r) (choice.selectorsAt [.hover]) "color" = some "white" ∧
      cascade (rule.styleBlocks ".btn") [".btn:hover"] "color" = some "white" := by
  obtain ⟨config, theme, content, r, hread, hlibrary, hemit, hmake, hwhite⟩ :
      ∃ config theme content r,
        Config.read (.mapping (buttonDocument sampleButton)) = .valid config ∧
          config.components.library = [("btn", sampleButton)] ∧
          config.emit .strict [theme] .components = .ok content ∧
          Resolver.make config theme.mode (.text "strict") = .ok r ∧
          cascade (Config.componentBlocks r)
            [".btn:hover", ".btn-solid:hover", ".btn-default:hover", ".btn-off:hover"] "color" =
              some "white" :=
    ⟨_, ⟨"light", [], []⟩, _, _, rfl, rfl, rfl, rfl, by decide⟩
  obtain ⟨_, rule, hmake', -, hrule, -, hagree⟩ := sheet_agrees_with_composed ⟨_, by decide, hread⟩
    (sampleChoice hlibrary) (unmixed_sampleChoice hlibrary) layered_sampleChoice hemit
  obtain rfl := Except.ok.inj (hmake.symm.trans hmake')
  exact ⟨config, theme, content, r, rule, sampleChoice hlibrary, hread, hemit, rfl, rfl, hrule,
    hwhite, (hagree [.hover] "color").symm.trans hwhite⟩

/-- In a valid document whose component has this style, for one choice of its variant, size and state
the sheet and the composed style give a property of the plain element different values. -/
def SheetDiffers (style : ComponentStyle) : Prop :=
  ∃ config warnings theme content r rule, ∃ choice : Config.Choice config, ∃ property,
    parse (.mapping (buttonDocument style)) = .ok (config, warnings) ∧
      resolveTheme config "light" (.text "strict") = .ok theme ∧
      config.emit .strict [theme] .components = .ok content ∧
      Resolver.make config "light" (.text "strict") = .ok r ∧
      choice.style = style ∧
      compileComponent style config "light" (.text "strict") choice.selection = .ok rule ∧
      cascade (Config.componentBlocks r) (choice.selectorsAt []) property ≠
        cascade (rule.styleBlocks choice.selector) [choice.selector] property

theorem SheetDiffers.of_computed {style : ComponentStyle} (sizeName : String)
    (h : ∃ config theme content r rule variant size state property,
      Config.read (.mapping (buttonDocument style)) = .valid config ∧
        config.components.library = [("btn", style)] ∧
        Mapping.find? style.variants "a" = some variant ∧
        Mapping.find? style.sizes sizeName = some size ∧
        Mapping.find? style.states "c" = some state ∧
        resolveTheme config "light" (.text "strict") = .ok theme ∧
        config.emit .strict [theme] .components = .ok content ∧
        Resolver.make config "light" (.text "strict") = .ok r ∧
        compileComponent style config "light" (.text "strict")
          ⟨some "a", some sizeName, some "c"⟩ = .ok rule ∧
        cascade (Config.componentBlocks r) [".btn", ".btn-a", ".btn-" ++ sizeName, ".btn-c"] property ≠
          cascade (rule.styleBlocks ".btn") [".btn"] property) : SheetDiffers style := by
  obtain ⟨config, theme, content, r, rule, variant, size, state, property, hread, hlibrary,
    hvariant, hsize, hstate, htheme, hemit, hmake, hrule, hne⟩ := h
  have hfaults : structureFaults (buttonDocument style) = .ok [] := by cbv
  obtain ⟨warnings, hparse⟩ := exists_parse hfaults hread
  let choice : config.Choice := ⟨"btn", style, ("a", variant), (sizeName, size), ("c", state),
    by rw [hlibrary]; rfl, hvariant, hsize, hstate⟩
  refine ⟨config, warnings, theme, content, r, rule, choice, property, hparse, htheme, hemit, hmake,
    rfl, hrule, ?_⟩
  rw [choice.selectorsAt_nil]
  exact hne

/-- Two sections give their styles the same class. -/
def sharedClass : ComponentStyle where
  base := []
  variants := [("a", [("color", .text "red")])]
  sizes := [("a", [("color", .text "blue")]), ("b", [])]
  states := [("c", [])]
  extras := []

/-- A property of the base is merged with an object. -/
def lostProperty : ComponentStyle where
  base := [("color", .text "red")]
  variants := [("a", [("color", .mapping [])])]
  sizes := [("b", [])]
  states := [("c", [])]
  extras := []

/-- A property is spelled in two ways, and the first one is replaced. -/
def respelledProperty : ComponentStyle where
  base := [("fontSize", .text "1px"), ("font-size", .text "2px")]
  variants := [("a", [("fontSize", .text "3px")])]
  sizes := [("b", [])]
  states := [("c", [])]
  extras := []

/-- The name of a size reads as the class of a variant in a state. -/
def imitatedState : ComponentStyle where
  base := []
  variants := [("a", [("hover", .mapping [("color", .text "red")])])]
  sizes := [("a:hover", [])]
  states := [("c", [])]
  extras := []

/-- The sheet and the composed style differ where a class is shared or imitates a state, where a
property is lost in merging and where a property is spelled in two ways. -/
theorem exists_sheet_differs : SheetDiffers sharedClass ∧ SheetDiffers imitatedState ∧
    SheetDiffers lostProperty ∧ SheetDiffers respelledProperty := by
  refine ⟨.of_computed "b" ?_, .of_computed "a:hover" ?_, .of_computed "b" ?_, .of_computed "b" ?_⟩
  · exact ⟨_, _, _, _, _, _, _, _, "color", rfl, rfl, rfl, rfl, rfl, rfl, rfl, rfl, rfl, by decide⟩
  · exact ⟨_, _, _, _, _, _, _, _, "color", rfl, rfl, rfl, rfl, rfl, rfl, rfl, rfl, rfl, by decide⟩
  · exact ⟨_, _, _, _, _, _, _, _, "color", rfl, rfl, rfl, rfl, rfl, rfl, rfl, rfl, rfl, by decide⟩
  · exact ⟨_, _, _, _, _, _, _, _, "font-size", rfl, rfl, rfl, rfl, rfl, rfl, rfl, rfl, rfl,
      by decide⟩

end DesignTokens
