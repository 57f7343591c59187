import ProviderTypes.CommandLine.Basic
import ProviderTypes.Export
import ProviderTypes.Generation
import ProviderTypes.Main
import ProviderTypes.Proofs.Export.Success
import ProviderTypes.Proofs.Registry.Admission
import ProviderTypes.Render
import ProviderTypes.Settings.Loader
import ProviderTypes.Settings.Template
import ProviderTypes.Proofs.Export.Independence
import ProviderTypes.Proofs.Registry.References
import ProviderTypes.Proofs.Flatten.References
import ProviderTypes.Proofs.Export.Closure
import ProviderTypes.Proofs.Export.NestedKeys
import ProviderTypes.Proofs.Export.Categories
import ProviderTypes.Proofs.Registry.History
import ProviderTypes.Proofs.Flatten.Reordering
import ProviderTypes.Proofs.Export.Reordering
import ProviderTypes.Proofs.Schema.Grammar
import ProviderTypes.Proofs.Schema.FirstViolation
import ProviderTypes.Proofs.Json.Distinct
import ProviderTypes.Proofs.Schema.Distinct
import ProviderTypes.Proofs.Rust.Outline
import ProviderTypes.Proofs.Rust.FiniteSize
import ProviderTypes.Proofs.Rust.WireName
import ProviderTypes.Proofs.Flatten.SchemaNames
import ProviderTypes.Proofs.Yaml.Lossless
import ProviderTypes.Proofs.Rust.Metadata
import ProviderTypes.Proofs.Registry.Merge
import ProviderTypes.Proofs.Flatten.Replay
import ProviderTypes.Proofs.Generation.Output
import ProviderTypes.Proofs.Generation.Interruption
import ProviderTypes.Proofs.CommandLine.OutputOption
import ProviderTypes.Proofs.CommandLine.Printing
import ProviderTypes.Proofs.Registry.Memory
import ProviderTypes.Proofs.Registry.Validation
import ProviderTypes.Proofs.Rust.Comments
import ProviderTypes.Proofs.Rust.TypeReading
import ProviderTypes.Proofs.Rust.Blocks
import ProviderTypes.Proofs.RootIndex.Discovery
import ProviderTypes.Proofs.Export.RootSafety
import ProviderTypes.Proofs.Schema.Editing
import ProviderTypes.Proofs.Flatten.Injection
import ProviderTypes.Proofs.Settings.Canonical
import ProviderTypes.Proofs.Settings.Listed
import ProviderTypes.Proofs.Container.FirstFault
import ProviderTypes.Proofs.Settings.Escaping
import ProviderTypes.Proofs.Rust.DerivedMacros
