import FlatSchema.Catalog.Backend
import FlatSchema.Catalog.Error
import FlatSchema.Catalog.FileSystem
import FlatSchema.Catalog.Identifier
import FlatSchema.Catalog.Memory
import FlatSchema.Catalog.Warehouse
import FlatSchema.ChangeRecord
import FlatSchema.Column
import FlatSchema.CommandLine.Arguments
import FlatSchema.CommandLine.Outcome
import FlatSchema.DataType
import FlatSchema.DataType.Parser
import FlatSchema.Error
import FlatSchema.Form.Column
import FlatSchema.Form.Table
import FlatSchema.Json.Numeral
import FlatSchema.Json.Position
import FlatSchema.Json.Printer
import FlatSchema.Json.Reader
import FlatSchema.Json.Token
import FlatSchema.Json.Tree
import FlatSchema.Key
import FlatSchema.Main
import FlatSchema.Options
import FlatSchema.Proofs.Acceptance
import FlatSchema.Proofs.ByteOrder
import FlatSchema.Proofs.Catalog.Durability
import FlatSchema.Proofs.Catalog.Failure
import FlatSchema.Proofs.Catalog.FileSystem
import FlatSchema.Proofs.Catalog.Identifier
import FlatSchema.Proofs.Catalog.Isolation
import FlatSchema.Proofs.Catalog.Listing
import FlatSchema.Proofs.Catalog.Removal
import FlatSchema.Proofs.Catalog.Simulation
import FlatSchema.Proofs.Catalog.Warehouse
import FlatSchema.Proofs.ChangeRecord
import FlatSchema.Proofs.ColumnIndex
import FlatSchema.Proofs.CommandLine.Counting
import FlatSchema.Proofs.CommandLine.RoundTrip
import FlatSchema.Proofs.Encoding
import FlatSchema.Proofs.Form.Alternatives
import FlatSchema.Proofs.Form.Column
import FlatSchema.Proofs.Form.Flattening
import FlatSchema.Proofs.Form.Parts
import FlatSchema.Proofs.Form.Table
import FlatSchema.Proofs.Json.LastMembers
import FlatSchema.Proofs.Json.Parsing
import FlatSchema.Proofs.Json.Parts
import FlatSchema.Proofs.Json.Reading
import FlatSchema.Proofs.Json.Scanning
import FlatSchema.Proofs.Keys
import FlatSchema.Proofs.Layout
import FlatSchema.Proofs.MetadataColumn
import FlatSchema.Proofs.Normalization
import FlatSchema.Proofs.Outcomes
import FlatSchema.Proofs.Overlap
import FlatSchema.Proofs.Records
import FlatSchema.Proofs.Relevance
import FlatSchema.Proofs.Reordering
import FlatSchema.Proofs.Restoration
import FlatSchema.Proofs.SchemaEntries
import FlatSchema.Proofs.SchemaOptions
import FlatSchema.Proofs.Spelling
import FlatSchema.Proofs.Trimming
import FlatSchema.Proofs.TypeText
import FlatSchema.Proofs.Validation
import FlatSchema.Record
import FlatSchema.Schema
import FlatSchema.SortedMap
import FlatSchema.Table
import FlatSchema.Text.Blank
import FlatSchema.Text.Hidden
import FlatSchema.Text.Quoted
import FlatSchema.Watermark
