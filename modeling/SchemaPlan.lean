import SchemaPlan.Text.Blank
import SchemaPlan.Sql.Scan
import SchemaPlan.Sql.Split
import SchemaPlan.Sql.Literal
import SchemaPlan.Sql.Clause
import SchemaPlan.Sql.Arguments
import SchemaPlan.Engine.Render
import SchemaPlan.Engine.Parse
import SchemaPlan.Plan.Diff
import SchemaPlan.Plan.Report
import SchemaPlan.Plan.Execution
import SchemaPlan.Document.Engine
import SchemaPlan.Document.Catalog
import SchemaPlan.Catalog.Statistics
import SchemaPlan.Catalog.Filter
import SchemaPlan.Catalog.Source
import SchemaPlan.Catalog.Introspect
import SchemaPlan.Yaml.Format
import SchemaPlan.Files.Load
import SchemaPlan.Files.Dump
import SchemaPlan.Cases.Verdict
import SchemaPlan.Cases.Load
import SchemaPlan.Command.Run
import SchemaPlan.Main
import SchemaPlan.Proofs.Exposure
import SchemaPlan.Proofs.Pieces
import SchemaPlan.Proofs.ClauseSearch
import SchemaPlan.Proofs.EngineRoundTrip
import SchemaPlan.Proofs.Ink
import SchemaPlan.Proofs.ArgumentLists
import SchemaPlan.Proofs.BareArguments
import SchemaPlan.Proofs.DeclarationShape
import SchemaPlan.Proofs.Convergence
import SchemaPlan.Proofs.ByteOrder
import SchemaPlan.Proofs.OrderedDifference
import SchemaPlan.Proofs.ExecutionProgress
import SchemaPlan.Proofs.ClauseRoundTrip
import SchemaPlan.Proofs.StatementRoundTrip
import SchemaPlan.Proofs.CollectionLaws
import SchemaPlan.Proofs.IntrospectionRun
import SchemaPlan.Proofs.IntrospectionSteps
import SchemaPlan.Proofs.IntrospectedTables
import SchemaPlan.Proofs.PlanTargets
import SchemaPlan.Proofs.PlannedCreations
import SchemaPlan.Proofs.StatisticsLaws
import SchemaPlan.Proofs.IntrospectionRoundTrip
import SchemaPlan.Proofs.EntityKinds
import SchemaPlan.Proofs.SnapshotRuns
import SchemaPlan.Proofs.RowOutcomes
import SchemaPlan.Proofs.IntrospectionAccount
import SchemaPlan.Proofs.RowRemoval
import SchemaPlan.Proofs.RepeatedNames
import SchemaPlan.Proofs.DocumentMeaning
import SchemaPlan.Proofs.EntityDocuments
import SchemaPlan.Proofs.DocumentRoundTrip
import SchemaPlan.Proofs.FileTreeLaws
import SchemaPlan.Proofs.SchemaPaths
import SchemaPlan.Proofs.SchemaDump
import SchemaPlan.Proofs.SchemaFilesRoundTrip
import SchemaPlan.Proofs.DumpSuccess
import SchemaPlan.Proofs.UpToDate
import SchemaPlan.Proofs.MirroredPlans
import SchemaPlan.Proofs.CatalogOrder
import SchemaPlan.Proofs.FilteredIntrospection
import SchemaPlan.Proofs.SettingLists
import SchemaPlan.Proofs.ClauseArrangement
import SchemaPlan.Proofs.DeclarationOutcome
import SchemaPlan.Proofs.KafkaSettings
import SchemaPlan.Proofs.HeldEntities
import SchemaPlan.Proofs.DumpOverwrite
import SchemaPlan.Proofs.WrittenArguments
import SchemaPlan.Proofs.SplitLists
import SchemaPlan.Proofs.EarlyEnds
import SchemaPlan.Proofs.AskedQueries
import SchemaPlan.Proofs.SchemaLoading
import SchemaPlan.Proofs.DumpAdditions
import SchemaPlan.Proofs.ColumnChecks
import SchemaPlan.Proofs.FirstPlaces
import SchemaPlan.Proofs.ViewDestinations
import SchemaPlan.Proofs.CaseVerdicts
import SchemaPlan.Proofs.ResolvedDatabases
import SchemaPlan.Proofs.RecordedHistories
import SchemaPlan.Proofs.DeclarationNormalForm
import SchemaPlan.Proofs.OpaqueLiterals
