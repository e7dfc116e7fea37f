import Advisor.Relational.Table
import Advisor.Relational.Newest
import Advisor.Relational.Queries
import Advisor.Python.Json
import Advisor.Python.Uuid
import Advisor.Python.Raise
import Advisor.Django.Columns
import Advisor.Models
import Advisor.Inventory.Parse
import Advisor.Inventory.Store
import Advisor.Inventory.Event
import Advisor.Inventory.Handler
import Advisor.Inventory.View
import Advisor.Inventory.Run
import Advisor.Inventory.OneByOne
import Advisor.Inventory.NewestWins
import Advisor.Inventory.Agreement
import Advisor.Inventory.Replay
import Advisor.Inventory.Poison
import Advisor.Access.Kessel
import Advisor.Access.HostGroups
import Advisor.Access.MalformedRoles
import Advisor.Access.Grants
import Advisor.Python.Grouping
import Advisor.Streaming.Reading
import Advisor.Kafka.Dispatcher
import Advisor.Kafka.BatchOffsets
import Advisor.Python.Procedure
import Advisor.Tasks.Model
import Advisor.Tasks.Results
import Advisor.Tasks.Service
import Advisor.Tasks.Effects
import Advisor.Tasks.Updates
import Advisor.Tasks.Sweeps
import Advisor.Tasks.Aggregate
import Advisor.Tasks.Completion
import Advisor.Tasks.Order
import Advisor.Tasks.Systems
import Advisor.Pathways.Aggregates
import Advisor.Python.Url
import Advisor.Service.Call
import Advisor.Service.Continuity
import Advisor.Service.Failure
import Advisor.Service.Isolation
import Advisor.Service.Sources
import Advisor.Tasks.Create
import Advisor.Tasks.LostUpdates
import Advisor.Tasks.Playbook
import Advisor.Kafka.SingleMode
import Advisor.Python.JsonText
import Advisor.Kafka.RoundTrip
import Advisor.Relational.Truth
import Advisor.Reports.Variants
import Advisor.Reports.Systems
import Advisor.Reports.Pagination
import Advisor.Reports.SystemList
import Advisor.Reports.SystemPages
import Advisor.Importer.Relations
import Advisor.Importer.History
import Advisor.Importer.Agreement
import Advisor.Importer.ApiRuns
import Advisor.Importer.Notices
import Advisor.Importer.Risk
import Advisor.Importer.TaggedRules
import Advisor.Importer.UpdateModel
import Advisor.Kafka.Readable
import Advisor.Tasks.LogLines
import Advisor.Tasks.SourceEvents
import Advisor.Tasks.Execute
import Advisor.Tasks.OneJobEach
import Advisor.Tasks.Untracked
import Advisor.Tasks.Timeouts
import Advisor.Tasks.Recovered
import Advisor.Tasks.UnknownUpdates
import Advisor.WeeklyReports.Expired
import Advisor.Satellite.ActionSet
import Advisor.Satellite.ClassicPlans
import Advisor.Satellite.ClassicRuns
import Advisor.Service.Notifications
import Advisor.Service.IndependentHooks
import Advisor.Service.Autoacks
import Advisor.Service.LegacyDelete
import Advisor.Service.EngineResults
import Advisor.Acks.History
import Advisor.HostAcks.OneAck
import Advisor.Tasks.Eligible
import Advisor.Reports.ExportRuns
import Advisor.Filters.Complement
import Advisor.Filters.Params
import Advisor.Inventory.PurgeNil
import Advisor.Reports.Stats
import Advisor.Satellite.SystemReports
import Advisor.Tasks.OperatingSystems
import Advisor.Tasks.ExecutedParameters
import Advisor.Service.Counts
import Advisor.Importer.Inherits
import Advisor.Importer.Imported
import Advisor.Python.Block
import Advisor.Relational.Rebase
import Advisor.Service.Statements
import Advisor.Service.Concurrent
import Advisor.Service.Serial
import Advisor.Service.Serialised
import Advisor.Service.Executor
import Advisor.Access.Decision
import Advisor.Access.Visible
import Advisor.Reports.Integrity
import Advisor.Reports.StaleHosts
import Advisor.Tasks.StatusCommand
import Advisor.Ratings.RuleRatings
import Advisor.Python.Threads
import Advisor.Service.PayloadTracker
