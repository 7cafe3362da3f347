import Notification.Interaction.Program
import Notification.Interaction.Rules
import Notification.Interaction.Series
import Notification.Interaction.Pool
import Notification.Interaction.Reaches
import Notification.Interaction.Cost
import Notification.Interaction.Link
import Notification.Lookup.Glued
import Notification.Lookup.FirstCome
import Notification.Lookup.TimedQueue
import Notification.Lookup.Separated
import Notification.Lookup.Offsets
import Notification.Lookup.Since
import Notification.Lookup.Grouped
import Notification.Js.Json
import Notification.Js.Text
import Notification.Aggregator.Delivery
import Notification.Infra.MySql
import Notification.Infra.Redis
import Notification.Infra.Keyspace
import Notification.Infra.World
import Notification.Infra.Connections
import Notification.Infra.Rows
import Notification.Aggregator.DeliveryRepository
import Notification.Aggregator.Services
import Notification.Aggregator.DeliveryProcessorService
import Notification.Aggregator.ProcessDeliveryUseCase
import Notification.Aggregator.DeliveryCalls
import Notification.Aggregator.BatchIdempotencyService
import Notification.Aggregator.Partition
import Notification.Aggregator.Worker
import Notification.Aggregator.Consumption
import Notification.Aggregator.Preparation
import Notification.Aggregator.Insertion
import Notification.Aggregator.BulkInsert
import Notification.Aggregator.BatchRun
import Notification.Aggregator.Handling
import Notification.Aggregator.ConsumerGroup
import Notification.Aggregator.Replay
import Notification.Aggregator.Attempts
import Notification.Aggregator.Terminal
import Notification.Aggregator.AuditTrail
import Notification.Aggregator.DeadLetters
import Notification.Aggregator.DeliveredCache
import Notification.Aggregator.RetryBudget
import Notification.Aggregator.TimedRetries
import Notification.Aggregator.RetryStats
import Notification.Aggregator.CancelRetry
import Notification.Aggregator.TwoPipelines
import Notification.Aggregator.RetryLoop
import Notification.Aggregator.RetryQueue
import Notification.Aggregator.Schema
import Notification.Aggregator.Effects
import Notification.Aggregator.Authority
import Notification.Aggregator.Outcome
import Notification.Aggregator.DeliveryLoop
import Notification.Aggregator.AtLeastOnce
import Notification.Aggregator.Accounting
import Notification.Aggregator.NoneLost
import Notification.Aggregator.EffectivelyOnce
import Notification.Aggregator.FreshBatch
import Notification.Aggregator.Reach
import Notification.Aggregator.Agreement
import Notification.Aggregator.DatabaseFirst
import Notification.Aggregator.Trail
import Notification.Aggregator.Poison
import Notification.Aggregator.UseCaseSuccess
import Notification.Aggregator.Writers
import Notification.Aggregator.StatusTally
import Notification.Aggregator.IdempotencyMetricsService
import Notification.Aggregator.AttemptMetrics
import Notification.Aggregator.MetricsReport
import Notification.Aggregator.ProviderSuccessRates
import Notification.Aggregator.Footprint
import Notification.Aggregator.WorkerCalls
import Notification.Router.Message
import Notification.Router.Services
import Notification.Router.Validation
import Notification.Router.RequestGrammar
import Notification.Router.AcceptMessageUseCase
import Notification.Router.LosesNothing
import Notification.Router.MessageController
import Notification.Router.Identity
import Notification.Router.Admission
import Notification.Router.Isolation
import Notification.Router.Truthfulness
import Notification.Router.MySQLMessageRepository
import Notification.Router.RequestCalls
import Notification.Pipeline.CacheWindows
import Notification.Pipeline.Handover
import Notification.Pipeline.Fidelity
import Notification.Pipeline.ContentKey
import Notification.System.Services
import Notification.System.Genuine
import Notification.System.Provenance
import Notification.System.Deployed
import Notification.System.Spoiled
import Notification.System.Correlation
import Notification.System.Replies
import Notification.System.Handings
import Notification.System.Delivered
import Notification.System.ReportedRates
import Notification.System.Alone
import Notification.System.Progress
import Notification.System.Simulated
import Notification.Logger.LogPersistence
import Notification.Logger.Consumption
import Notification.Logger.CatchingUp
import Notification.System.Logged
import Notification.System.Found
import Notification.System.UseCases
