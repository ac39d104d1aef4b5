import ModelCatalog.Text.Alphanumeric
import ModelCatalog.Text.Blank
import ModelCatalog.Text.Search
import ModelCatalog.Text.Percent
import ModelCatalog.Number.Decimal
import ModelCatalog.Time.Instant
import ModelCatalog.Time.Rfc3339
import ModelCatalog.Json.Reader
import ModelCatalog.Json.Printer
import ModelCatalog.Entry.Wire
import ModelCatalog.CatalogError
import ModelCatalog.Database.Models
import ModelCatalog.Database.Versions
import ModelCatalog.Database.Tags
import ModelCatalog.Database.Schema
import ModelCatalog.Catalog.Session
import ModelCatalog.Settings.Basic
import ModelCatalog.Settings.ConnectionText
import ModelCatalog.Settings.Connection
import ModelCatalog.Settings.EnvFile
import ModelCatalog.Settings.Environment
import ModelCatalog.CommandLine.Run
import ModelCatalog.Main
import ModelCatalog.Proofs.RowLookup
import ModelCatalog.Proofs.StatementRun
import ModelCatalog.Proofs.StatementChecks
import ModelCatalog.Proofs.OperationRun
import ModelCatalog.Proofs.Integrity
import ModelCatalog.Proofs.CallEdits
import ModelCatalog.Proofs.FirstStatements
import ModelCatalog.Proofs.DatabaseRun
import ModelCatalog.Proofs.SessionRun
import ModelCatalog.Proofs.TagOrder
import ModelCatalog.Proofs.Consistency
import ModelCatalog.Proofs.Atomicity
import ModelCatalog.Proofs.Numbering
import ModelCatalog.Proofs.OperationChecks
import ModelCatalog.Proofs.RenamedRows
import ModelCatalog.Proofs.Agreement
import ModelCatalog.Proofs.Locality
import ModelCatalog.Proofs.AlikeSessions
import ModelCatalog.Proofs.Independence
import ModelCatalog.Proofs.Creation
import ModelCatalog.Proofs.Renaming
import ModelCatalog.Proofs.MissingModels
import ModelCatalog.Proofs.Deletion
import ModelCatalog.Proofs.StorageFaults
import ModelCatalog.Proofs.ArgumentChecks
import ModelCatalog.Proofs.SchemaLife
import ModelCatalog.Proofs.Chronicle
import ModelCatalog.Proofs.TimeOrder
import ModelCatalog.Proofs.TimeHistory
import ModelCatalog.Proofs.ReadBack
import ModelCatalog.Proofs.TextSearch
import ModelCatalog.Proofs.PercentTriples
import ModelCatalog.Proofs.PasswordMasking
import ModelCatalog.Proofs.RedactedUrl
import ModelCatalog.Proofs.Listing
import ModelCatalog.Proofs.DecimalDigits
import ModelCatalog.Proofs.JsonText
import ModelCatalog.Proofs.JsonLayout
import ModelCatalog.Proofs.TimeText
import ModelCatalog.Proofs.WireRecords
import ModelCatalog.Proofs.WrittenArguments
import ModelCatalog.Proofs.CommandMeanings
import ModelCatalog.Proofs.PrintedRecords
import ModelCatalog.Proofs.FrontEnd
import ModelCatalog.Proofs.VersionListing
import ModelCatalog.Proofs.RefusalOrder
import ModelCatalog.Proofs.TagHistory
import ModelCatalog.Proofs.CreationGrounds
import ModelCatalog.Proofs.RenameGrounds
import ModelCatalog.Proofs.ArtifactUris
import ModelCatalog.Proofs.StageTexts
import ModelCatalog.Proofs.FieldUpdates
import ModelCatalog.Proofs.SchemaGrammar
import ModelCatalog.Proofs.SchemaNames
import ModelCatalog.Proofs.Numerals
import ModelCatalog.Proofs.NumericSettings
import ModelCatalog.Proofs.TagReduction
