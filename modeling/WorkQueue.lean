import WorkQueue.Accounts.Record
import WorkQueue.Accounts.Service
import WorkQueue.Accounts.Store
import WorkQueue.Binary64.Basic
import WorkQueue.Binary64.Decimal
import WorkQueue.Broker.Basic
import WorkQueue.Broker.Operation
import WorkQueue.Config.Basic
import WorkQueue.Config.Environment
import WorkQueue.Config.Load
import WorkQueue.Config.Problem
import WorkQueue.Config.Record
import WorkQueue.Error
import WorkQueue.Json.Access
import WorkQueue.Json.Basic
import WorkQueue.Json.Document
import WorkQueue.Json.Reader
import WorkQueue.Json.Shape
import WorkQueue.Json.Time
import WorkQueue.Mail.Outbox
import WorkQueue.Mail.Record
import WorkQueue.Main
import WorkQueue.Pool.Basic
import WorkQueue.Pool.Report
import WorkQueue.Procedure
import WorkQueue.Queue.Weights
import WorkQueue.Random.Generator
import WorkQueue.Registry
import WorkQueue.Retry
import WorkQueue.Settings.Basic
import WorkQueue.Settings.File
import WorkQueue.Settings.Json
import WorkQueue.Settings.Merge
import WorkQueue.Settings.Toml.Document
import WorkQueue.Settings.Toml.Scalar
import WorkQueue.Settings.Toml.Tree
import WorkQueue.Settings.Yaml.Document
import WorkQueue.Settings.Yaml.Scalar
import WorkQueue.Simulation.Observer
import WorkQueue.Simulation.Run
import WorkQueue.Simulation.Script
import WorkQueue.Simulation.Worker
import WorkQueue.Simulation.World
import WorkQueue.Submission
import WorkQueue.Table
import WorkQueue.Task.Basic
import WorkQueue.Task.Options
import WorkQueue.Task.Record
import WorkQueue.Text.Blank
import WorkQueue.Text.Lowercase
import WorkQueue.Text.Numeral
import WorkQueue.Text.Printable
import WorkQueue.Text.Quoted
import WorkQueue.Text.Split
import WorkQueue.Text.Utf8
import WorkQueue.Text.Uuid
import WorkQueue.Time.Calendar
import WorkQueue.Time.Duration
import WorkQueue.Time.Instant
import WorkQueue.Time.Timestamp
import WorkQueue.Verification.Handler
import WorkQueue.Verification.Payload
import WorkQueue.Proofs.Queue.Weights
import WorkQueue.Proofs.Broker.Moves
import WorkQueue.Proofs.Broker.WellFormed
import WorkQueue.Proofs.Broker.Run
import WorkQueue.Proofs.Broker.Claims
import WorkQueue.Proofs.Broker.Reports
import WorkQueue.Proofs.Broker.Conservation
import WorkQueue.Proofs.Broker.Records
import WorkQueue.Proofs.Broker.Order
import WorkQueue.Proofs.Fleet.Basic
import WorkQueue.Proofs.Fleet.RetryBudget
import WorkQueue.Proofs.Fleet.Shift
import WorkQueue.Proofs.Fleet.Deployment
import WorkQueue.Proofs.Fleet.OneWorker
import WorkQueue.Proofs.Broker.Representation
import WorkQueue.Proofs.Broker.Drain
import WorkQueue.Proofs.Broker.Readiness
import WorkQueue.Proofs.Broker.Exclusion
import WorkQueue.Proofs.Broker.Precedence
import WorkQueue.Proofs.Broker.Envelope
import WorkQueue.Proofs.Fleet.Events
import WorkQueue.Proofs.Fleet.LifeCycle
import WorkQueue.Proofs.Fleet.Turns
import WorkQueue.Proofs.Fleet.Alert
import WorkQueue.Proofs.Fleet.Countdown
import WorkQueue.Proofs.Fleet.Custody
import WorkQueue.Proofs.Fleet.Course
import WorkQueue.Proofs.Fleet.Shutdown
import WorkQueue.Proofs.Fleet.Duty
import WorkQueue.Proofs.Fleet.Errand
import WorkQueue.Proofs.Fleet.OneReport
import WorkQueue.Proofs.Queue.Shares
import WorkQueue.Proofs.Accounts.Store
import WorkQueue.Proofs.Verification.Handler
import WorkQueue.Proofs.Site
import WorkQueue.Proofs.Accounts.Links
import WorkQueue.Proofs.Verification.Payload
import WorkQueue.Proofs.Json.Reading
import WorkQueue.Proofs.Text.Utf8
import WorkQueue.Proofs.Verification.Message
import WorkQueue.Proofs.Verification.Execution
import WorkQueue.Proofs.Accounts.Visits
import WorkQueue.Proofs.Accounts.Signup
import WorkQueue.Proofs.Simulation.Site
import WorkQueue.Proofs.Accounts.Consumption
import WorkQueue.Proofs.Broker.Backlog
import WorkQueue.Proofs.Broker.Lookup
import WorkQueue.Proofs.Text.Numeral
import WorkQueue.Proofs.Time.Calendar
import WorkQueue.Proofs.Time.Timestamp
import WorkQueue.Proofs.Json.Values
import WorkQueue.Proofs.Json.Shape
import WorkQueue.Proofs.Task.Record
import WorkQueue.Proofs.Broker.Intake
import WorkQueue.Proofs.Simulation.Calls
import WorkQueue.Proofs.Submission
import WorkQueue.Proofs.Accounts.Enrolment
import WorkQueue.Proofs.Accounts.Arguments
import WorkQueue.Proofs.Config.Validity
import WorkQueue.Proofs.Config.Loading
import WorkQueue.Proofs.Text.Split
import WorkQueue.Proofs.Text.Markup
import WorkQueue.Proofs.Text.Lowercase
import WorkQueue.Proofs.Settings.Merge
import WorkQueue.Proofs.Json.Document
import WorkQueue.Proofs.Config.QueueList
import WorkQueue.Proofs.Config.Environment
import WorkQueue.Proofs.Config.Variables
import WorkQueue.Proofs.Config.File
import WorkQueue.Proofs.Config.Agreement
import WorkQueue.Proofs.Time.Duration
import WorkQueue.Proofs.Retry
import WorkQueue.Proofs.Fleet.Counters
