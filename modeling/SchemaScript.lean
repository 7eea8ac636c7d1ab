import SchemaScript.Main
import SchemaScript.Proofs.Script.Addition
import SchemaScript.Proofs.Script.KeyPlacement
import SchemaScript.Proofs.Script.Partition
import SchemaScript.Proofs.Script.Redump
import SchemaScript.Service
import SchemaScript.Workspace
import SchemaScript.Proofs.Script.WalkOrder
import SchemaScript.Proofs.Catalog.Reordering
import SchemaScript.Proofs.Ddl.Reordering
import SchemaScript.Proofs.Script.Reordering
import SchemaScript.Proofs.Json.Normal
import SchemaScript.Proofs.Json.NumberText
import SchemaScript.Proofs.Json.QuotedText
import SchemaScript.Proofs.Json.RoundTrip
import SchemaScript.Proofs.Catalog.Normal
import SchemaScript.Proofs.Catalog.Decoding
import SchemaScript.Proofs.Catalog.Storing
import SchemaScript.Proofs.Number.Rounding
import SchemaScript.Proofs.Json.Soundness
import SchemaScript.Proofs.Script.Heading
import SchemaScript.Proofs.Script.Keys
import SchemaScript.Proofs.Script.Coverage
import SchemaScript.Proofs.Effect.Answers
import SchemaScript.Proofs.Catalog.Filing
import SchemaScript.Proofs.Catalog.Contents
import SchemaScript.Proofs.Ddl.Addressing
import SchemaScript.Proofs.Effect.Edits
import SchemaScript.Proofs.Effect.Filing
import SchemaScript.Proofs.Effect.Additions
import SchemaScript.Proofs.Effect.Inheritance
import SchemaScript.Proofs.Effect.Ordering
import SchemaScript.Proofs.Sql.TypeName
import SchemaScript.Proofs.Source.ColumnType
import SchemaScript.Proofs.Source.ScriptColumn
import SchemaScript.Proofs.Source.ReportedColumn
import SchemaScript.Proofs.Source.Agreement
import SchemaScript.Proofs.Source.TypeReference
import SchemaScript.Proofs.Script.Target
import SchemaScript.Proofs.Effect.Origin
import SchemaScript.Proofs.Effect.Supply
import SchemaScript.Proofs.Script.Serial
import SchemaScript.Proofs.Sql.Writing
import SchemaScript.Proofs.Script.Commenting
import SchemaScript.Proofs.Effect.Naming
import SchemaScript.Proofs.Script.Naming
import SchemaScript.Proofs.Script.Passes
import SchemaScript.Proofs.Ddl.Needs
import SchemaScript.Proofs.Script.Precedence
import SchemaScript.Proofs.Script.TypeOrder
import SchemaScript.Proofs.Script.ViewOrder
import SchemaScript.Proofs.Ignore.Keeping
import SchemaScript.Proofs.Order.Topological
import SchemaScript.Proofs.Inspect.Part
import SchemaScript.Proofs.Inspect.Change
import SchemaScript.Proofs.Inspect.Rows
import SchemaScript.Proofs.Inspect.AnyOrder
import SchemaScript.Proofs.Effect.Qualifying
import SchemaScript.Proofs.Catalog.Renaming
import SchemaScript.Proofs.Effect.Renaming
import SchemaScript.Proofs.Sql.Unqualified
import SchemaScript.Proofs.Ddl.Renaming
import SchemaScript.Proofs.Effect.Neutrality
import SchemaScript.Proofs.Script.Relocation
import SchemaScript.Proofs.Order.Dependencies
import SchemaScript.Proofs.Sql.DollarQuote
import SchemaScript.Proofs.Script.KeyOrder
import SchemaScript.Proofs.Effect.Lineage
import SchemaScript.Proofs.Source.ReportedSequence
import SchemaScript.Proofs.Sql.NumberText
import SchemaScript.Proofs.Sql.SequenceText
import SchemaScript.Proofs.Source.SequenceStart
import SchemaScript.Proofs.Sql.KeyText
import SchemaScript.Proofs.Effect.FreeName
import SchemaScript.Proofs.Effect.KeyPlaces
import SchemaScript.Proofs.Effect.BoundRoutes
import SchemaScript.Proofs.Text.Basic
import SchemaScript.Proofs.Sql.NameToken
import SchemaScript.Proofs.Ddl.Parentheses
import SchemaScript.Proofs.Script.CheckClause
import SchemaScript.Proofs.Inspect.Overloads
import SchemaScript.Proofs.Source.Overloads
import SchemaScript.Proofs.Source.ReportedTrigger
import SchemaScript.Proofs.Source.ObjectReading
import SchemaScript.Proofs.Source.KeyReading
import SchemaScript.Proofs.Effect.IndexNames
import SchemaScript.Proofs.Ddl.Literals
import SchemaScript.Proofs.Ddl.StoredIndex
import SchemaScript.Proofs.Ddl.IndexLiterals
import SchemaScript.Proofs.Sql.IndexText
import SchemaScript.Proofs.Sql.CallText
import SchemaScript.Proofs.Effect.IndexColumns
import SchemaScript.Proofs.Ignore.OpenBracket
import SchemaScript.Proofs.Script.LiteralEnds
import SchemaScript.Proofs.Effect.OwnEntries
