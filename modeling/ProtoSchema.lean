import ProtoSchema.Command
import ProtoSchema.Config.Basic
import ProtoSchema.Config.Parameters
import ProtoSchema.Decimal.Shortest
import ProtoSchema.Descriptor.Basic
import ProtoSchema.Descriptor.Decode
import ProtoSchema.Descriptor.Encode
import ProtoSchema.Descriptor.FieldType
import ProtoSchema.Descriptor.Shape
import ProtoSchema.Error
import ProtoSchema.Extension.ClassDeclaration
import ProtoSchema.Extension.Grammar.Basic
import ProtoSchema.Extension.Grammar.Rules
import ProtoSchema.Extension.Identifier
import ProtoSchema.Extension.Interpolation
import ProtoSchema.Extension.Lexer
import ProtoSchema.Extension.Node
import ProtoSchema.Extension.Numeral
import ProtoSchema.Extension.Parse
import ProtoSchema.Extension.Token
import ProtoSchema.FileTree
import ProtoSchema.Generate
import ProtoSchema.Json.Fault
import ProtoSchema.Json.Number
import ProtoSchema.Json.Reader
import ProtoSchema.Json.Record
import ProtoSchema.Json.Scan
import ProtoSchema.Json.Skip
import ProtoSchema.Json.Value
import ProtoSchema.Main
import ProtoSchema.Naming
import ProtoSchema.Overrides
import ProtoSchema.Plugin
import ProtoSchema.Pool.Basic
import ProtoSchema.Pool.Fault
import ProtoSchema.Pool.Item
import ProtoSchema.Pool.Link
import ProtoSchema.Pool.Literal
import ProtoSchema.Pool.Names
import ProtoSchema.Pool.Resolve
import ProtoSchema.Proofs.Build
import ProtoSchema.Proofs.CaseRoundTrip
import ProtoSchema.Proofs.ClassForest
import ProtoSchema.Proofs.ClassNames
import ProtoSchema.Proofs.Closure
import ProtoSchema.Proofs.ConfigRoundTrip
import ProtoSchema.Proofs.Correspondence
import ProtoSchema.Proofs.Cutting
import ProtoSchema.Proofs.DefinitionOrder
import ProtoSchema.Proofs.EmittedNames
import ProtoSchema.Proofs.FieldNames
import ProtoSchema.Proofs.FileWrites
import ProtoSchema.Proofs.FirstFailure
import ProtoSchema.Proofs.FirstFault
import ProtoSchema.Proofs.FrontEnds
import ProtoSchema.Proofs.HandlerPaths
import ProtoSchema.Proofs.HeaderImports
import ProtoSchema.Proofs.Identifiers
import ProtoSchema.Proofs.Independence
import ProtoSchema.Proofs.Insertion
import ProtoSchema.Proofs.Interleavings
import ProtoSchema.Proofs.JsonReading
import ProtoSchema.Proofs.JsonSpelling
import ProtoSchema.Proofs.LastEntryWins
import ProtoSchema.Proofs.LaterMutations
import ProtoSchema.Proofs.Layers
import ProtoSchema.Proofs.LetterCase
import ProtoSchema.Proofs.LineEnds
import ProtoSchema.Proofs.LinkedNames
import ProtoSchema.Proofs.Linking
import ProtoSchema.Proofs.MethodLookup
import ProtoSchema.Proofs.Outcome
import ProtoSchema.Proofs.OutputOption
import ProtoSchema.Proofs.OverrideEntries
import ProtoSchema.Proofs.ParameterStrings
import ProtoSchema.Proofs.PascalCase
import ProtoSchema.Proofs.ReadingOrder
import ProtoSchema.Proofs.References
import ProtoSchema.Proofs.RequestClasses
import ProtoSchema.Proofs.RootAttributes
import ProtoSchema.Proofs.SnakeCase
import ProtoSchema.Proofs.Substitution
import ProtoSchema.Proofs.TokenOrder
import ProtoSchema.Proofs.TwoRoles
import ProtoSchema.Proofs.Unambiguous
import ProtoSchema.Proofs.UniqueLines
import ProtoSchema.Proofs.UnsupportedFields
import ProtoSchema.Proofs.Validation
import ProtoSchema.Proofs.WireRoundTrip
import ProtoSchema.Schema.Document
import ProtoSchema.Schema.Type
import ProtoSchema.Selection
import ProtoSchema.Synthesis
import ProtoSchema.Text.Blank
import ProtoSchema.Text.Hidden
import ProtoSchema.Text.LineEnd
import ProtoSchema.Text.Ranges
import ProtoSchema.Text.Split
import ProtoSchema.Wire.Field
import ProtoSchema.Wire.Message
import ProtoSchema.Wire.Varint
