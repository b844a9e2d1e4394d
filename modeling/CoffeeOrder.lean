import CoffeeOrder.Harness.ApiContract
import CoffeeOrder.Harness.ApiDocumentation
import CoffeeOrder.Harness.ApiRoutes
import CoffeeOrder.Harness.Architecture
import CoffeeOrder.Harness.CommandLine
import CoffeeOrder.Harness.ControllerSource
import CoffeeOrder.Harness.CycleSearch
import CoffeeOrder.Harness.DiffHash
import CoffeeOrder.Harness.Disk
import CoffeeOrder.Harness.Evaluate
import CoffeeOrder.Harness.EvaluationFile
import CoffeeOrder.Harness.Evidence
import CoffeeOrder.Harness.EvidenceTree
import CoffeeOrder.Harness.FailClosed
import CoffeeOrder.Harness.Gate
import CoffeeOrder.Harness.Git
import CoffeeOrder.Harness.JavaSource
import CoffeeOrder.Harness.Loaders
import CoffeeOrder.Harness.LockWrites
import CoffeeOrder.Harness.Migrations
import CoffeeOrder.Harness.MultiInstance
import CoffeeOrder.Harness.NameStatus
import CoffeeOrder.Harness.PatternLanguage
import CoffeeOrder.Harness.Patterns
import CoffeeOrder.Harness.Plan
import CoffeeOrder.Harness.PlanLock
import CoffeeOrder.Harness.Policy
import CoffeeOrder.Harness.PassedRuns
import CoffeeOrder.Harness.Prepare
import CoffeeOrder.Harness.Records
import CoffeeOrder.Harness.RequiredChecks
import CoffeeOrder.Harness.Runner
import CoffeeOrder.Harness.SecondRun
import CoffeeOrder.Harness.Sessions
import CoffeeOrder.Harness.State
import CoffeeOrder.Harness.System
import CoffeeOrder.Harness.Toolchain
import CoffeeOrder.Harness.WorkingDisk
import CoffeeOrder.Harness.World
import CoffeeOrder.Kit.Acyclic
import CoffeeOrder.Kit.Atomicity
import CoffeeOrder.Kit.Call
import CoffeeOrder.Kit.Checked
import CoffeeOrder.Kit.Delivery
import CoffeeOrder.Kit.Effects
import CoffeeOrder.Kit.FreshIds
import CoffeeOrder.Kit.Handlers
import CoffeeOrder.Kit.History
import CoffeeOrder.Kit.Interruption
import CoffeeOrder.Kit.KeyedFold
import CoffeeOrder.Kit.LineScan
import CoffeeOrder.Kit.Machine
import CoffeeOrder.Kit.Once
import CoffeeOrder.Kit.Ranking
import CoffeeOrder.Kit.Repetition
import CoffeeOrder.Kit.RowLock
import CoffeeOrder.Kit.Script
import CoffeeOrder.Kit.Segments
import CoffeeOrder.Kit.SerialHistory
import CoffeeOrder.Kit.TextSearch
import CoffeeOrder.Publish.Diagnosis
import CoffeeOrder.Publish.Finalize
import CoffeeOrder.Publish.IssueLink
import CoffeeOrder.Publish.Pipeline
import CoffeeOrder.Publish.Races
import CoffeeOrder.Publish.Retries
import CoffeeOrder.Publish.TraceSafety
import CoffeeOrder.Python.Bytes
import CoffeeOrder.Python.Json
import CoffeeOrder.Python.JsonPayload
import CoffeeOrder.Python.JsonText
import CoffeeOrder.Python.Path
import CoffeeOrder.Python.Text
import CoffeeOrder.Shop.AfterCommit
import CoffeeOrder.Shop.Cluster
import CoffeeOrder.Shop.DataPlatform
import CoffeeOrder.Shop.Deliveries
import CoffeeOrder.Shop.Domain
import CoffeeOrder.Shop.Ledger
import CoffeeOrder.Shop.MessageOrder
import CoffeeOrder.Shop.PaidOrders
import CoffeeOrder.Shop.ReadAgreement
import CoffeeOrder.Shop.ReadModel
import CoffeeOrder.Shop.Reading
import CoffeeOrder.Shop.SerialOrder
import CoffeeOrder.Shop.Services
import CoffeeOrder.Shop.StaleLatch
