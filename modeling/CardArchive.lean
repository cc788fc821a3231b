import CardArchive.Text.Blank
import CardArchive.Text.Case
import CardArchive.Text.Search
import CardArchive.Text.Quoted
import CardArchive.Text.Lines
import CardArchive.Number.Decimal
import CardArchive.Number.Shortest
import CardArchive.Json.Document
import CardArchive.Card.Row
import CardArchive.Xml.Document
import CardArchive.Dump.Card
import CardArchive.Dataset.Config
import CardArchive.Dataset.Selection
import CardArchive.Database.Statement
import CardArchive.Run.Progress
import CardArchive.Run.Stats
import CardArchive.Gzip.Member
import CardArchive.Database.Connection
import CardArchive.Run.Load
import CardArchive.Storage.Readings
import CardArchive.Run.LoadReadings
import CardArchive.Run.Convert
import CardArchive.Screen.Dashboard
import CardArchive.Command.Program
import CardArchive.Main
import CardArchive.Proofs.Execution
import CardArchive.Proofs.ImportRows
import CardArchive.Proofs.Tables
import CardArchive.Proofs.Import
import CardArchive.Proofs.DatabaseFile
import CardArchive.Proofs.LoadDataset
import CardArchive.Proofs.ValidConfig
import CardArchive.Proofs.LoadRun
import CardArchive.Proofs.FailedLoad
import CardArchive.Proofs.HeldRows
import CardArchive.Proofs.Reload
import CardArchive.Proofs.LoadAnywhere
import CardArchive.Proofs.LoadOrder
import CardArchive.Proofs.AppendOnly
import CardArchive.Proofs.History
import CardArchive.Proofs.ConvertRun
import CardArchive.Proofs.StatementText
import CardArchive.Proofs.RowCells
import CardArchive.Proofs.JsonText
import CardArchive.Proofs.JsonToken
import CardArchive.Proofs.JsonNumber
import CardArchive.Proofs.JsonMembers
import CardArchive.Proofs.JsonDocument
import CardArchive.Proofs.Awards
import CardArchive.Proofs.DataLines
import CardArchive.Proofs.DumpFormat
import CardArchive.Proofs.Announcements
import CardArchive.Proofs.DecimalLiteral
import CardArchive.Proofs.PopulationWords
import CardArchive.Proofs.PopulationExact
import CardArchive.Proofs.JsonGrammar
import CardArchive.Proofs.RecordErrors
import CardArchive.Proofs.ElementText
import CardArchive.Proofs.DumpCards
import CardArchive.Proofs.IrrelevantMarkup
import CardArchive.Proofs.AwardMaps
import CardArchive.Proofs.WrittenAwards
import CardArchive.Proofs.LeadingInteger
import CardArchive.Proofs.CarriedText
import CardArchive.Proofs.StoredJson
import CardArchive.Proofs.IntegerText
import CardArchive.Proofs.ShortestDecimal
import CardArchive.Proofs.FloatText
import CardArchive.Proofs.FloatReading
import CardArchive.Proofs.StoredBadges
import CardArchive.Proofs.ReadLines
import CardArchive.Proofs.LoadReadings
import CardArchive.Proofs.ProgressReports
import CardArchive.Proofs.TableNames
import CardArchive.Proofs.ConfigFaults
import CardArchive.Proofs.StatementNames
import CardArchive.Proofs.AddedRows
import CardArchive.Proofs.Selections
import CardArchive.Proofs.Panels
import CardArchive.Proofs.PathNames
import CardArchive.Proofs.Ways
import CardArchive.Proofs.DumpSources
