import Ceasefire.Lib.Keyed
import Ceasefire.Lib.Prefix
import Ceasefire.Lib.Bytes
import Ceasefire.Base.Net
import Ceasefire.Lib.FirstMatch
import Ceasefire.Models
import Ceasefire.Driver.Rules
import Ceasefire.Driver.AleAuth
import Ceasefire.Driver.RuleTable
import Ceasefire.Service.Validator
import Ceasefire.Service.Converter
import Ceasefire.Service.Matcher
import Ceasefire.Matching.Entry
import Ceasefire.Matching.Agreement
import Ceasefire.Matching.Dropped
import Ceasefire.Matching.Subsumption
import Ceasefire.Driver.Throttle
import Ceasefire.Lib.Window
import Ceasefire.Driver.ThrottleWindow
import Ceasefire.Lib.Transition
import Ceasefire.Service.History
import Ceasefire.Service.HistoryTotals
import Ceasefire.Service.Shadow
import Ceasefire.Service.ShadowRace
import Ceasefire.Driver.Pacing
import Ceasefire.Driver.PacingFifo
import Ceasefire.Lib.Program
import Ceasefire.Service.Database
import Ceasefire.Service.RuleManager
import Ceasefire.Service.RuleRuns
import Ceasefire.Matching.Merge
import Ceasefire.Service.Projection
import Ceasefire.Service.RuleSync
import Ceasefire.Driver.ThrottleTable
import Ceasefire.Service.KernelSync
import Ceasefire.Service.LimitHistory
import Ceasefire.Service.LimitRace
import Ceasefire.Service.GlobalTotal
import Ceasefire.Driver.RefillPolling
import Ceasefire.Service.BandwidthSettings
import Ceasefire.Service.BandwidthRestart
import Ceasefire.Service.ReloadWindow
import Ceasefire.Service.Decision
import Ceasefire.Matching.MergeOrder
import Ceasefire.Service.FailedRequests
import Ceasefire.Lib.Pool
import Ceasefire.Service.RuleTasks
import Ceasefire.Lib.Slots
import Ceasefire.Driver.ThrottleRuns
import Ceasefire.Driver.Admission
import Ceasefire.Driver.PacingMoves
import Ceasefire.Driver.PacingAccounts
import Ceasefire.Driver.PacingSlots
import Ceasefire.Driver.PacingCharges
import Ceasefire.Driver.FlowRegistry
import Ceasefire.Service.HistoryRuns
import Ceasefire.Service.HistoryLedger
import Ceasefire.Base.NetDisplay
import Ceasefire.Matching.ShadowScope
import Ceasefire.Service.AppGroups
import Ceasefire.Service.GroupSync
import Ceasefire.Driver.PathSuffix
import Ceasefire.Matching.AddressCover
import Ceasefire.Service.DriverIds
import Ceasefire.Lib.Effects
import Ceasefire.Service.ImportExport
import Ceasefire.Service.TableWrites
import Ceasefire.Service.SystemRows
import Ceasefire.Service.ImportStages
import Ceasefire.Service.ImportAtomic
import Ceasefire.Service.ImportTwice
import Ceasefire.Service.Duplicates
import Ceasefire.Matching.ExportImport
import Ceasefire.Ipc.Pipe
import Ceasefire.Ipc.InStep
import Ceasefire.Ipc.Delivery
import Ceasefire.Lib.DnsMessage
import Ceasefire.Service.DnsCache
import Ceasefire.Service.DnsAnswers
import Ceasefire.Service.DnsChecked
import Ceasefire.Service.DnsClip
import Ceasefire.Lib.DnsEncoding
import Ceasefire.Service.DnsDecoding
import Ceasefire.Base.Utf16
import Ceasefire.Service.DriverEvents
import Ceasefire.Matching.EventRule
import Ceasefire.Service.PathConversion
import Ceasefire.Matching.PathBuffer
import Ceasefire.Driver.RefillExact
import Ceasefire.Driver.RuleList
import Ceasefire.Driver.RuleHeap
import Ceasefire.Lib.Checked
import Ceasefire.Service.RuleRace
import Ceasefire.Driver.Events
import Ceasefire.Driver.FlowTuples
import Ceasefire.Service.ShadowLedger
import Ceasefire.Lib.Labels
import Ceasefire.Service.DomainLabels
import Ceasefire.Service.LimitReadback
import Ceasefire.Lib.Paging
import Ceasefire.Service.Columns
import Ceasefire.Service.HistoryPages
import Ceasefire.Lib.Wildcard
import Ceasefire.Service.RuleSearch
import Ceasefire.Lib.Buckets
import Ceasefire.Service.TrafficTrend
import Ceasefire.Service.RuleColumns
import Ceasefire.Lib.ZeroPadded
import Ceasefire.Lib.Calendar
import Ceasefire.Base.Utf8
import Ceasefire.Service.Rfc3339
import Ceasefire.Service.DecisionLookup
import Ceasefire.Service.TimeOrder
import Ceasefire.Lib.NewestWins
import Ceasefire.Service.PathMigration
import Ceasefire.Lib.Cooldown
import Ceasefire.Service.Notifier
import Ceasefire.Lib.Csv
import Ceasefire.Service.HistoryExport
import Ceasefire.Lib.OrderedMap
import Ceasefire.Gui.Date
import Ceasefire.Gui.Dashboard
import Ceasefire.Lib.Reconcile
import Ceasefire.Service.PredefinedPaths
import Ceasefire.Service.PredefinedSync
import Ceasefire.Lib.Layout
import Ceasefire.Driver.Diags
import Ceasefire.Driver.Layouts
import Ceasefire.Driver.Device
import Ceasefire.Service.DeviceCalls
import Ceasefire.Service.DeviceEvents
import Ceasefire.Driver.Callouts
import Ceasefire.Service.SystemRules
import Ceasefire.Driver.FlowBytes
import Ceasefire.Lib.Batches
import Ceasefire.Service.EventLog
import Ceasefire.Lib.Transaction
import Ceasefire.Service.WfpFilters
import Ceasefire.Service.WfpOperations
import Ceasefire.Service.WfpRuns
