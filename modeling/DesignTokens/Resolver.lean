import DesignTokens.Config.Writing
import DesignTokens.Failure
import DesignTokens.Reference

/-!
# Resolving references

A reference is looked up in one mode of a configuration. Colours and semantic roles are looked up in
the mode's theme, all else in sections that no mode changes. A role that holds a reference to a
colour stands for that colour; nothing else is followed further.

Under the strict policy a reference without a value is a failure. Under the lenient policy it is left
to a custom property.

## Main definitions

- `Policy` — what to do with a reference that has no value
- `Resolver` — a configuration, one of its modes and a policy
- `Resolver.lookUp`, `Resolver.resolve` — the value of a reference, without and with the policy
- `resolveTheme` — a theme with every role replaced by its value
-/

namespace DesignTokens

/-- What to do with a reference that has no value. -/
inductive Policy where
  | strict
  | lenient
  deriving DecidableEq, Repr

def Policy.name : Policy → String
  | strict => "strict"
  | lenient => "lenient"

def Policy.ofName? (name : String) : Option Policy :=
  [strict, lenient].find? fun policy => policy.name = name

/-- The policy that a word names. -/
def Policy.ofWord : Document → Except Failure Policy
  | .text "strict" => .ok .strict
  | .text "lenient" => .ok .lenient
  | word => .error (.invalidPolicy word)

/-- A configuration, one of its modes and a policy. -/
structure Resolver where
  config : Config
  mode : String
  theme : Theme
  policy : Policy

/-- The failure for a mode that a configuration does not declare. -/
def Config.unknownMode (config : Config) (mode : String) : Failure :=
  .unknownMode ⟨mode, config.modes, ""⟩

/-- The theme of a mode, which must be declared. -/
def Config.themeFor (config : Config) (mode : String) : Except Failure Theme :=
  match config.theme? mode with
  | some theme => .ok theme
  | none => .error (config.unknownMode mode)

namespace Resolver

def ofMode (config : Config) (mode : String) (policy : Policy) : Except Failure Resolver := do
  let theme ← config.themeFor mode
  .ok ⟨config, mode, theme, policy⟩

/-- The resolver of a mode. The mode is looked at before the policy's name. -/
def make (config : Config) (mode : String) (policy : Document) : Except Failure Resolver := do
  let theme ← config.themeFor mode
  let policy ← Policy.ofWord policy
  .ok ⟨config, mode, theme, policy⟩

def colors (r : Resolver) : Document :=
  mappingDocument ValueOrGroup.toDocument r.theme.colors

/-- The document below a namespace. -/
def root? (r : Resolver) : String → Option Document
  | "colors" => some r.colors
  | "semantic" => some (mappingDocument textsDocument r.theme.semantic)
  | "spacing" => some (textsDocument r.config.spacing.scale)
  | "typography" => some r.config.typography.toDocument
  | "effects" => some r.config.effects.toDocument
  | _ => none

def failure (r : Resolver) (path : String) (space : Option String) (reason : Reason) :
    Unresolved :=
  ⟨path, space, some r.mode, reason⟩

/-- The text of a literal. -/
def literal (r : Resolver) (path space : String) : Document → Except Unresolved String
  | .mapping _ => .error (r.failure path space .group)
  | .text s => .ok s
  | .int n => .ok (toString n)
  | .float x => .ok x.render
  | _ => .error (r.failure path space .notLiteral)

/-- The literal at the end of a walk through a document. -/
def walk (r : Resolver) (path space : String) (d : Document) (segments : List String) :
    Except Unresolved String :=
  match d.at? segments with
  | some leaf => r.literal path space leaf
  | none => .error (r.failure path space .missing)

/-- The literal that a path leads to, before a role's colour is looked up. -/
def stored (r : Resolver) (path : String) : Except Unresolved String :=
  match Text.split '.' path with
  | [] => .error (r.failure path none .malformed)
  | space :: segments =>
    if (space :: segments).contains "" then .error (r.failure path none .malformed)
    else match r.root? space with
      | none => .error (r.failure path space .unknownNamespace)
      | some d => r.walk path space d segments

/-- Whether a path starts in the namespace of semantic roles. -/
def isRole (path : String) : Bool :=
  (Text.split '.' path).head? == some "semantic"

def isColorReference (value : String) : Bool :=
  isReference value && Text.startsWith value "colors."

/-- The value of a reference. A role that holds a reference to a colour stands for that colour. -/
def lookUp (r : Resolver) (path : String) : Except Unresolved String := do
  let value ← r.stored path
  if isRole path && isColorReference value then
    r.walk value "colors" r.colors ((Text.split '.' value).drop 1)
  else .ok value

/-- The custom property that stands in for a path. -/
def fallback (r : Resolver) (path : String) : String :=
  variableFallback r.config.variablePrefix path

/-- The value of a reference under the resolver's policy. -/
def resolve (r : Resolver) (path : String) : Except Failure String :=
  match r.lookUp path, r.policy with
  | .ok value, _ => .ok value
  | .error u, .strict => .error (.unresolved u)
  | .error _, .lenient => .ok (r.fallback path)

/-- The value of a role as the value of its own custom property. A role whose lookup fails is left
to the property of the path that failed, since leaving it to its own would define it by itself. -/
def resolveRole (r : Resolver) (path : String) : Except Failure String :=
  match r.lookUp path, r.policy with
  | .ok value, _ => .ok value
  | .error u, .strict => .error (.unresolved u)
  | .error u, .lenient => .ok (r.fallback u.path)

end Resolver

/-- The value of one reference. -/
def resolveReference (config : Config) (mode : String) (policy : Document) (path : String) :
    Except Failure String := do
  (← Resolver.make config mode policy).resolve path

/-- A mode's colours, and its roles with their values. -/
structure ResolvedTheme where
  mode : String
  colors : Mapping ValueOrGroup
  semantic : Mapping (Mapping String)

namespace ResolvedTheme

def colorsDocument (theme : ResolvedTheme) : Document :=
  mappingDocument ValueOrGroup.toDocument theme.colors

def semanticDocument (theme : ResolvedTheme) : Document :=
  mappingDocument textsDocument theme.semantic

def toDocument (theme : ResolvedTheme) : Document :=
  .mapping [("colors", theme.colorsDocument), ("semantic", theme.semanticDocument)]

end ResolvedTheme

/-- Replaces every value of a mapping, up to the first failure. -/
def Mapping.traverse {α β ε : Type} (f : String → α → Except ε β) :
    Mapping α → Except ε (Mapping β)
  | [] => .ok []
  | (key, a) :: rest => do
    let b ← f key a
    let more ← traverse f rest
    .ok ((key, b) :: more)

def rolePath (category role : String) : String :=
  "semantic." ++ category ++ "." ++ role

/-- A mode's theme with every role replaced by its value. -/
def resolveTheme (config : Config) (mode : String) (policy : Document) :
    Except Failure ResolvedTheme := do
  let r ← Resolver.make config mode policy
  let semantic ← Mapping.traverse (fun category roles =>
    Mapping.traverse (fun role _ => r.resolveRole (rolePath category role)) roles) r.theme.semantic
  .ok ⟨mode, r.theme.colors, semantic⟩

/-- The resolved themes of several modes, up to the first failure. -/
def resolveThemes (config : Config) (policy : Document) : List String →
    Except Failure (List ResolvedTheme)
  | [] => .ok []
  | mode :: rest => do
    let theme ← resolveTheme config mode policy
    let more ← resolveThemes config policy rest
    .ok (theme :: more)

end DesignTokens
