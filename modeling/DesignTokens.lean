import DesignTokens.Artifact.ComponentSheet
import DesignTokens.Artifact.DataModule
import DesignTokens.Artifact.Emit
import DesignTokens.Artifact.Notice
import DesignTokens.Artifact.Stylesheet
import DesignTokens.Artifact.Tailwind
import DesignTokens.Artifact.TokenSpace
import DesignTokens.Artifact.Tokens
import DesignTokens.CommandLine.Assignment
import DesignTokens.CommandLine.Command
import DesignTokens.CommandLine.Display
import DesignTokens.CommandLine.Markup
import DesignTokens.CommandLine.Options
import DesignTokens.CommandLine.Run
import DesignTokens.CommandLine.Table
import DesignTokens.Config.Basic
import DesignTokens.Config.Issue
import DesignTokens.Config.Reading
import DesignTokens.Config.Standard
import DesignTokens.Config.Writing
import DesignTokens.ConfigFile
import DesignTokens.Decimal.Binary
import DesignTokens.Decimal.Shortest
import DesignTokens.Document.Basic
import DesignTokens.Document.Flatten
import DesignTokens.Document.Mapping
import DesignTokens.Document.Merge
import DesignTokens.Document.Order
import DesignTokens.Document.Raw
import DesignTokens.Document.ScalarFault
import DesignTokens.Document.Stamp
import DesignTokens.Export.Job
import DesignTokens.Export.Placement
import DesignTokens.Extension
import DesignTokens.Failure
import DesignTokens.Files.Access
import DesignTokens.Files.Fault
import DesignTokens.Files.FileSystem
import DesignTokens.Files.Path
import DesignTokens.Files.Tree
import DesignTokens.Format
import DesignTokens.Json.Reader
import DesignTokens.Json.Writer
import DesignTokens.Main
import DesignTokens.Mode.Page
import DesignTokens.Mode.Registry
import DesignTokens.Mode.Sheet
import DesignTokens.Mode.Switch
import DesignTokens.Reference
import DesignTokens.Resolver
import DesignTokens.Style.Compile
import DesignTokens.Style.Component
import DesignTokens.Style.Entry
import DesignTokens.Style.Property
import DesignTokens.Style.Rule
import DesignTokens.Text.Blank
import DesignTokens.Text.Case
import DesignTokens.Text.CodePoint
import DesignTokens.Text.CodeRanges
import DesignTokens.Text.Pieces
import DesignTokens.Text.Printable
import DesignTokens.Text.Quoted
import DesignTokens.Text.Utf8
import DesignTokens.Text.WholeNumber
import DesignTokens.Text.Width
import DesignTokens.Text.Word
import DesignTokens.Validation
import DesignTokens.Yaml.Block
import DesignTokens.Yaml.Cursor
import DesignTokens.Yaml.Implicit
import DesignTokens.Yaml.Node
import DesignTokens.Yaml.Plain
import DesignTokens.Yaml.Property
import DesignTokens.Yaml.Quoted
import DesignTokens.Yaml.Reader
import DesignTokens.Yaml.Style
import DesignTokens.Yaml.Token
import DesignTokens.Yaml.Writer
import DesignTokens.Proofs.Document.Regular
import DesignTokens.Proofs.Document.Settling
import DesignTokens.Proofs.Config.Faithful
import DesignTokens.Proofs.Config.Section
import DesignTokens.Proofs.Config.Reread
import DesignTokens.Proofs.Document.Alike
import DesignTokens.Proofs.Validation.Shape
import DesignTokens.Proofs.Validation.Structure
import DesignTokens.Proofs.Validation.Verdict
import DesignTokens.Proofs.Validation.WellFormed
import DesignTokens.Proofs.Extension.Reached
import DesignTokens.Proofs.Extension.Validity
import DesignTokens.Proofs.Document.Outline
import DesignTokens.Proofs.Artifact.Modes
import DesignTokens.Proofs.Mode.Switching
import DesignTokens.Proofs.Resolver.Policies
import DesignTokens.Proofs.Export.Planning
import DesignTokens.Proofs.Text.Case
import DesignTokens.Proofs.Export.Coverage
import DesignTokens.Proofs.Export.Outcome
import DesignTokens.Export.Pool
import DesignTokens.Proofs.Export.Schedule
import DesignTokens.Proofs.Text.Encoding
import DesignTokens.Proofs.Files.Path
import DesignTokens.Proofs.Files.Tree
import DesignTokens.Proofs.Files.Writing
import DesignTokens.Proofs.Export.FileNames
import DesignTokens.Proofs.Export.Places
import DesignTokens.Proofs.Export.Writing
import DesignTokens.Proofs.Export.Steadiness
import DesignTokens.Proofs.Text.Pieces
import DesignTokens.Proofs.Document.Leaves
import DesignTokens.Proofs.Document.Ordering
import DesignTokens.Proofs.Artifact.Addresses
import DesignTokens.Proofs.Resolver.References
import DesignTokens.Proofs.Artifact.Names
import DesignTokens.Proofs.Artifact.Data
import DesignTokens.Proofs.Document.Merging
import DesignTokens.Proofs.Style.Chain
import DesignTokens.Proofs.Style.Layering
import DesignTokens.Proofs.Style.Compiled
import DesignTokens.Proofs.Style.Blocks
import DesignTokens.Proofs.Artifact.ComponentClasses
import DesignTokens.Proofs.Artifact.ThemeExtension
import DesignTokens.Proofs.Document.Layout
import DesignTokens.Proofs.Export.Isolation
import DesignTokens.Proofs.Resolver.Uniform
import DesignTokens.Proofs.Style.Composition
import DesignTokens.Proofs.Extension.Prefix
import DesignTokens.Proofs.Export.Prefix
import DesignTokens.Proofs.Extension.Addition
import DesignTokens.Proofs.Json.Regular
import DesignTokens.Proofs.Json.Scalars
import DesignTokens.Proofs.Json.RoundTrip
import DesignTokens.Proofs.Json.Characters
import DesignTokens.Proofs.Files.Access
import DesignTokens.Proofs.Files.Loading
import DesignTokens.Proofs.CommandLine.Display
import DesignTokens.Proofs.CommandLine.Extension
import DesignTokens.Proofs.Document.Precedence
import DesignTokens.Proofs.Document.Reassociation
import DesignTokens.Proofs.Resolver.Reread
import DesignTokens.Proofs.Resolver.SelfReference
import DesignTokens.Proofs.Document.Overwriting
import DesignTokens.Proofs.Extension.Acceptance
import DesignTokens.Proofs.Style.StateBlocks
import DesignTokens.Proofs.Mode.Disposal
import DesignTokens.Proofs.CommandLine.Validation
import DesignTokens.Proofs.Artifact.ThemeSections
import DesignTokens.Proofs.Resolver.Grammar
import DesignTokens.Proofs.CommandLine.Assignments
import DesignTokens.Proofs.Style.LeftOut
import DesignTokens.Proofs.Style.Recognised
import DesignTokens.Proofs.Style.Rendering
import DesignTokens.Proofs.Document.Reordering
import DesignTokens.Proofs.Style.PropertyNames
