import SpendingLedger.Accounting
import SpendingLedger.Amount
import SpendingLedger.Announcement
import SpendingLedger.Binary64
import SpendingLedger.Book
import SpendingLedger.Broker
import SpendingLedger.Database.Book
import SpendingLedger.Database.Client
import SpendingLedger.Database.Connection
import SpendingLedger.Database.Maintenance
import SpendingLedger.Database.Queue
import SpendingLedger.Database.Statement
import SpendingLedger.Decimal.Basic
import SpendingLedger.Decimal.Printer
import SpendingLedger.Decimal.Reader
import SpendingLedger.Delivery
import SpendingLedger.Deployment.Basic
import SpendingLedger.Deployment.Consumption
import SpendingLedger.Digest.Blake3
import SpendingLedger.Event
import SpendingLedger.Handler
import SpendingLedger.Json.Basic
import SpendingLedger.Json.Printer
import SpendingLedger.Json.Reader
import SpendingLedger.Json.Record
import SpendingLedger.Json.Token
import SpendingLedger.LedgerError
import SpendingLedger.Notice
import SpendingLedger.Overflow
import SpendingLedger.Proofs.Book.Balance
import SpendingLedger.Proofs.Decimal.Value
import SpendingLedger.RetryPolicy
import SpendingLedger.Rounding
import SpendingLedger.Settings
import SpendingLedger.Span
import SpendingLedger.Statistics
import SpendingLedger.Table
import SpendingLedger.Text.Blank
import SpendingLedger.Text.Integer
import SpendingLedger.Text.Percent
import SpendingLedger.Timestamp.Basic
import SpendingLedger.Timestamp.Json
import SpendingLedger.Timestamp.Printer
import SpendingLedger.Timestamp.Reader
import SpendingLedger.Transaction
import SpendingLedger.UserId
import SpendingLedger.Waiting
import SpendingLedger.Web.LedgerService
import SpendingLedger.Web.MediaType
import SpendingLedger.Web.Message
import SpendingLedger.Web.Problem
import SpendingLedger.Web.StatisticsService
import SpendingLedger.Worker
import SpendingLedger.WorkerPool
import SpendingLedger.Proofs.Accounting.Program
import SpendingLedger.Proofs.Accounting.Traffic
import SpendingLedger.Proofs.Accounting.Acts
import SpendingLedger.Proofs.Accounting.Cap
import SpendingLedger.Proofs.Broker.Contents
import SpendingLedger.Proofs.Broker.History
import SpendingLedger.Proofs.Broker.Conservation
import SpendingLedger.Proofs.Broker.LaneOrder
import SpendingLedger.Proofs.Broker.Soundness
import SpendingLedger.Proofs.Broker.Resettlement
import SpendingLedger.Proofs.Broker.Service
import SpendingLedger.Proofs.Broker.Cases
import SpendingLedger.Proofs.Broker.Redelivery
import SpendingLedger.Proofs.Text.Digits
import SpendingLedger.Proofs.Text.Integer
import SpendingLedger.Proofs.Timestamp.RoundTrip
import SpendingLedger.Proofs.Decimal.RoundTrip
import SpendingLedger.Proofs.Json.RoundTrip
import SpendingLedger.Proofs.Event.RoundTrip
import SpendingLedger.Proofs.Event.Tally
import SpendingLedger.Proofs.Statistics.Fold
import SpendingLedger.Proofs.Book.Announced
import SpendingLedger.Proofs.Broker.Holding
import SpendingLedger.Proofs.Broker.Progress
import SpendingLedger.Proofs.Broker.Custody
import SpendingLedger.Proofs.Broker.WakeUp
import SpendingLedger.Proofs.Deployment.Operations
import SpendingLedger.Proofs.Deployment.Messages
import SpendingLedger.Proofs.Deployment.Processing
import SpendingLedger.Proofs.Deployment.Failure
import SpendingLedger.Proofs.Deployment.Draining
import SpendingLedger.Proofs.Deployment.Confinement
import SpendingLedger.Proofs.Deployment.Separation
import SpendingLedger.Proofs.Web.Disclosure
import SpendingLedger.Proofs.Web.Identity
import SpendingLedger.Proofs.Deployment.Pipeline
import SpendingLedger.Proofs.Deployment.Mirror
import SpendingLedger.Proofs.Deployment.Dispatch
import SpendingLedger.Proofs.Deployment.Succession
import SpendingLedger.Proofs.Book.Chronicle
import SpendingLedger.Proofs.Book.LifeCycle
import SpendingLedger.Proofs.Database.Dialogue
import SpendingLedger.Proofs.Database.Insertion
import SpendingLedger.Proofs.Database.Guard
import SpendingLedger.Proofs.Database.SettingAside
import SpendingLedger.Proofs.Statistics.Acceptance
import SpendingLedger.Proofs.Statistics.Order
import SpendingLedger.Proofs.Deployment.Census
import SpendingLedger.Proofs.Json.Fields
import SpendingLedger.Proofs.Timestamp.Standard
import SpendingLedger.Proofs.Event.Grammar
import SpendingLedger.Proofs.Decimal.Normal
import SpendingLedger.Proofs.Amount.Canonical
import SpendingLedger.Proofs.Broker.Settling
import SpendingLedger.Proofs.Broker.Rotation
import SpendingLedger.Proofs.Event.Untagged
import SpendingLedger.Proofs.Decimal.Rounding
import SpendingLedger.Proofs.Decimal.Sum
import SpendingLedger.Proofs.Amount.Fitting
import SpendingLedger.Proofs.Decimal.Literal
import SpendingLedger.Proofs.Amount.Reading
import SpendingLedger.Proofs.Decimal.Denotation
import SpendingLedger.Proofs.Accounting.Refusal
import SpendingLedger.Proofs.Statistics.Overflow
import SpendingLedger.Proofs.Json.Streaming
import SpendingLedger.Proofs.Transaction.RoundTrip
import SpendingLedger.Proofs.Settings.Variables
import SpendingLedger.Proofs.Database.Lane
import SpendingLedger.Proofs.Broker.Counting
