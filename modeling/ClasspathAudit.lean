import ClasspathAudit.Analysis.Archives
import ClasspathAudit.Analysis.Basic
import ClasspathAudit.Analysis.Classes
import ClasspathAudit.Analysis.Dependencies
import ClasspathAudit.Analysis.Packages
import ClasspathAudit.Analysis.Pipeline
import ClasspathAudit.Analysis.ReleaseLayers
import ClasspathAudit.Archive.EntryName
import ClasspathAudit.Archive.Inflate
import ClasspathAudit.Archive.Manifest
import ClasspathAudit.Archive.Pom
import ClasspathAudit.Archive.Zip
import ClasspathAudit.Archive.ZipWriter
import ClasspathAudit.Assembly.ClassSpec
import ClasspathAudit.Assembly.JarSpec
import ClasspathAudit.Assembly.ModuleSpec
import ClasspathAudit.Assembly.Pool
import ClasspathAudit.Audit.Basic
import ClasspathAudit.Bytecode.Attribute
import ClasspathAudit.Bytecode.ClassFile
import ClasspathAudit.Bytecode.ConstantPool
import ClasspathAudit.Bytecode.Cursor
import ClasspathAudit.Bytecode.Descriptor
import ClasspathAudit.Bytecode.Fault
import ClasspathAudit.Bytecode.Scan
import ClasspathAudit.Bytecode.Signature
import ClasspathAudit.Bytecode.Version
import ClasspathAudit.Classpath.Basic
import ClasspathAudit.CommandLine.Command
import ClasspathAudit.CommandLine.Flag
import ClasspathAudit.CommandLine.Input
import ClasspathAudit.CommandLine.Run
import ClasspathAudit.Configuration.Basic
import ClasspathAudit.Configuration.Dotenv
import ClasspathAudit.Configuration.Load
import ClasspathAudit.Configuration.Setting
import ClasspathAudit.Configuration.Sources
import ClasspathAudit.Configuration.VariableFile
import ClasspathAudit.Diff.Basic
import ClasspathAudit.Diff.Document
import ClasspathAudit.Diff.Filling
import ClasspathAudit.Diff.Lines
import ClasspathAudit.Digest.Checksum
import ClasspathAudit.Digest.Highway
import ClasspathAudit.Document.Basic
import ClasspathAudit.Document.Filling
import ClasspathAudit.Error
import ClasspathAudit.Graph.Access
import ClasspathAudit.Graph.Basic
import ClasspathAudit.Graph.MemberLookup
import ClasspathAudit.Graph.Snapshot
import ClasspathAudit.Json.Filling
import ClasspathAudit.Json.Reader
import ClasspathAudit.Json.Value
import ClasspathAudit.Json.Writer
import ClasspathAudit.Loading.Artifact
import ClasspathAudit.Loading.FileSystem
import ClasspathAudit.Loading.Inspector
import ClasspathAudit.Loading.Loader
import ClasspathAudit.Loading.Log
import ClasspathAudit.Loading.ParseCache
import ClasspathAudit.Loading.Settings
import ClasspathAudit.Logging.Record
import ClasspathAudit.Main
import ClasspathAudit.Model.Access
import ClasspathAudit.Model.Class
import ClasspathAudit.Model.ClassName
import ClasspathAudit.Model.Coordinate
import ClasspathAudit.Model.Jar
import ClasspathAudit.Model.Module
import ClasspathAudit.Number.Binary64
import ClasspathAudit.Platform.BuiltIn
import ClasspathAudit.Platform.Decoding
import ClasspathAudit.Platform.List
import ClasspathAudit.Proofs.Analysis.LayerChanges
import ClasspathAudit.Proofs.Analysis.RowIdentity
import ClasspathAudit.Proofs.Archive.ManifestFolding
import ClasspathAudit.Proofs.Assembly.Attributes
import ClasspathAudit.Proofs.Assembly.Members
import ClasspathAudit.Proofs.Assembly.ModuleRoundTrip
import ClasspathAudit.Proofs.Assembly.Pool
import ClasspathAudit.Proofs.Assembly.References
import ClasspathAudit.Proofs.Assembly.RoundTrip
import ClasspathAudit.Proofs.Assembly.Writing
import ClasspathAudit.Proofs.Bytecode.ClassNames
import ClasspathAudit.Proofs.Bytecode.ConstantPool
import ClasspathAudit.Proofs.Bytecode.Layout
import ClasspathAudit.Proofs.Bytecode.MethodDescriptors
import ClasspathAudit.Proofs.Bytecode.NameSet
import ClasspathAudit.Proofs.Bytecode.Noninterference
import ClasspathAudit.Proofs.Bytecode.Reading
import ClasspathAudit.Proofs.Bytecode.SignatureSentences
import ClasspathAudit.Proofs.Bytecode.SymbolSet
import ClasspathAudit.Proofs.Classpath.Indices
import ClasspathAudit.Proofs.Classpath.Providers
import ClasspathAudit.Proofs.Concurrency.TaskGroup
import ClasspathAudit.Proofs.Diff.Antisymmetry
import ClasspathAudit.Proofs.Diff.Changes
import ClasspathAudit.Proofs.Diff.Exchange
import ClasspathAudit.Proofs.Diff.LineScripts
import ClasspathAudit.Proofs.Diff.Origins
import ClasspathAudit.Proofs.Diff.Pairing
import ClasspathAudit.Proofs.Diff.Rows
import ClasspathAudit.Proofs.Diff.Sections
import ClasspathAudit.Proofs.Graph.Ancestry
import ClasspathAudit.Proofs.Graph.Appending
import ClasspathAudit.Proofs.Graph.JarUsage
import ClasspathAudit.Proofs.Graph.MemberSearch
import ClasspathAudit.Proofs.Graph.NestedClasses
import ClasspathAudit.Proofs.Graph.ProtectedMembers
import ClasspathAudit.Proofs.Graph.ResolutionPolicy
import ClasspathAudit.Proofs.Graph.Snapshots
import ClasspathAudit.Proofs.Graph.SupertypeSearch
import ClasspathAudit.Proofs.Loading.BaseClasses
import ClasspathAudit.Proofs.Loading.ClasspathOrder
import ClasspathAudit.Proofs.Loading.EntryRoles
import ClasspathAudit.Proofs.Loading.LoadedRecords
import ClasspathAudit.Proofs.Loading.MultiRelease
import ClasspathAudit.Proofs.Loading.SharedParsing
import ClasspathAudit.Proofs.Model.EffectiveClasses
import ClasspathAudit.Proofs.Model.FileNames
import ClasspathAudit.Proofs.Model.LayerCalls
import ClasspathAudit.Proofs.Model.MemberCalls
import ClasspathAudit.Proofs.Model.ReleaseLayers
import ClasspathAudit.Proofs.Report.Instants
import ClasspathAudit.Proofs.Report.StoredReports
import ClasspathAudit.Proofs.Text.Bytes
import ClasspathAudit.Proofs.Text.CanonicalText
import ClasspathAudit.Proofs.Text.ModifiedUtf8
import ClasspathAudit.Proofs.Text.Split
import ClasspathAudit.Proofs.Text.Utf8
import ClasspathAudit.Proofs.Version.Highest
import ClasspathAudit.Report.Basic
import ClasspathAudit.Report.Cell
import ClasspathAudit.Report.Codec
import ClasspathAudit.Report.Document
import ClasspathAudit.Report.Filling
import ClasspathAudit.Report.Format
import ClasspathAudit.Report.History
import ClasspathAudit.Report.Sink
import ClasspathAudit.Report.Store
import ClasspathAudit.Report.Timestamp
import ClasspathAudit.Text.Bytes
import ClasspathAudit.Text.Decimal
import ClasspathAudit.Text.Hex
import ClasspathAudit.Text.Integer
import ClasspathAudit.Text.Letter
import ClasspathAudit.Text.ModifiedUtf8
import ClasspathAudit.Text.Path
import ClasspathAudit.Text.Printable
import ClasspathAudit.Text.Quote
import ClasspathAudit.Text.Split
import ClasspathAudit.Text.Utf8
import ClasspathAudit.Toml.Filling
import ClasspathAudit.Toml.Reader
import ClasspathAudit.Toml.Scalar
import ClasspathAudit.Version.Semantic
import ClasspathAudit.Xml.Name
import ClasspathAudit.Xml.Reader
import ClasspathAudit.Yaml.Cursor
import ClasspathAudit.Yaml.Filling
import ClasspathAudit.Yaml.Node
import ClasspathAudit.Yaml.Scalar
import ClasspathAudit.Yaml.Token
import ClasspathAudit.Yaml.Value
import ClasspathAudit.Yaml.Writer
