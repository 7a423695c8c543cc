import SchemaTypes.Unicode.Ranges
import SchemaTypes.Unicode.Alphanumeric
import SchemaTypes.Unicode.Printable
import SchemaTypes.Unicode.Case
import SchemaTypes.Unicode.Whitespace
import SchemaTypes.Number.Binary
import SchemaTypes.Number.Shortest
import SchemaTypes.Number.Layout
import SchemaTypes.Number.Read
import SchemaTypes.Text.Debug
import SchemaTypes.Json.Basic
import SchemaTypes.Json.Writer
import SchemaTypes.Json.Shape
import SchemaTypes.Json.Lexical
import SchemaTypes.Json.Reader
import SchemaTypes.Naming
import SchemaTypes.Time.Timestamp
import SchemaTypes.Time.Parse
import SchemaTypes.Uuid
import SchemaTypes.Error
import SchemaTypes.Value.Basic
import SchemaTypes.Value.Text
import SchemaTypes.Value.Encode
import SchemaTypes.Schema.Definition
import SchemaTypes.Schema.Category
import SchemaTypes.Schema.Document
import SchemaTypes.Types.Handle
import SchemaTypes.Types.Caster
import SchemaTypes.Types.Conversion
import SchemaTypes.Types.Composite
import SchemaTypes.Registry.Basic
import SchemaTypes.Registry.Cast
import SchemaTypes.Registry.Compile
import SchemaTypes.Registry.Instance
import SchemaTypes.Files.Path
import SchemaTypes.Files.Tree
import SchemaTypes.Files.Glob
import SchemaTypes.CommandLine.Similarity
import SchemaTypes.CommandLine.Grammar
import SchemaTypes.CommandLine.Parse
import SchemaTypes.CommandLine.Run
import SchemaTypes.Main
import SchemaTypes.Proofs.Compiling
import SchemaTypes.Proofs.Mentions
import SchemaTypes.Proofs.Agreement
import SchemaTypes.Proofs.RegistrySound
import SchemaTypes.Proofs.CompilerState
import SchemaTypes.Proofs.Registration
import SchemaTypes.Proofs.Passes
import SchemaTypes.Proofs.Compilation
import SchemaTypes.Proofs.Loading
import SchemaTypes.Proofs.CastSafety
import SchemaTypes.Proofs.CompiledRegistry
import SchemaTypes.Proofs.CastSoundness
import SchemaTypes.Proofs.Scalars
import SchemaTypes.Proofs.FlatRecords
import SchemaTypes.Proofs.Reloading
import SchemaTypes.Proofs.LoadHistory
import SchemaTypes.Proofs.CastIdempotence
import SchemaTypes.Proofs.Stubs
import SchemaTypes.Proofs.Placements
import SchemaTypes.Proofs.Binding
import SchemaTypes.Proofs.PropertyTables
import SchemaTypes.Proofs.ArgumentBinding
import SchemaTypes.Proofs.NamingRoundTrip
import SchemaTypes.Proofs.SteadyLoads
import SchemaTypes.Proofs.CombinedInitializer
import SchemaTypes.Proofs.TimestampText
import SchemaTypes.Proofs.EnumMembers
import SchemaTypes.Proofs.JsonRoutes
import SchemaTypes.Proofs.FailurePaths
import SchemaTypes.Proofs.Subtyping
import SchemaTypes.Proofs.ReferenceNames
import SchemaTypes.Proofs.FileWrites
import SchemaTypes.Proofs.CommandRuns
import SchemaTypes.Proofs.Adoptions
import SchemaTypes.Proofs.Saturation
import SchemaTypes.Proofs.Termination
import SchemaTypes.Proofs.Eventually
import SchemaTypes.Proofs.Records
import SchemaTypes.Proofs.Replay
import SchemaTypes.Proofs.PassRecords
import SchemaTypes.Proofs.PassReplay
import SchemaTypes.Proofs.Finishing
import SchemaTypes.Proofs.Reordering
import SchemaTypes.Proofs.OrderIndependence
