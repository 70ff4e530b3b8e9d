import PeerFleet.Agent.Address
import PeerFleet.Agent.Channel
import PeerFleet.Agent.Error
import PeerFleet.Agent.Peer
import PeerFleet.Agent.Pem
import PeerFleet.Command.EnvFile
import PeerFleet.Command.Line
import PeerFleet.Command.Run
import PeerFleet.Config.Basic
import PeerFleet.Config.Load
import PeerFleet.Config.Validation
import PeerFleet.Fleet.Effect
import PeerFleet.Fleet.Error
import PeerFleet.Fleet.Lifecycle
import PeerFleet.Fleet.Pool
import PeerFleet.Fleet.Selection
import PeerFleet.Health.Monitor
import PeerFleet.Health.Record
import PeerFleet.Http
import PeerFleet.Jobs.Expiration
import PeerFleet.Jobs.Job
import PeerFleet.Jobs.PeerCount
import PeerFleet.Jobs.Provisioning
import PeerFleet.Jobs.Reminder
import PeerFleet.Json.Basic
import PeerFleet.Json.Parser
import PeerFleet.Json.Printer
import PeerFleet.Json.Range
import PeerFleet.Log
import PeerFleet.Main
import PeerFleet.Messaging.ChatLog
import PeerFleet.Messaging.Error
import PeerFleet.Messaging.Telegram
import PeerFleet.Node
import PeerFleet.Program
import PeerFleet.Proofs.Agent.Address
import PeerFleet.Proofs.Agent.Exchange
import PeerFleet.Proofs.Agent.Resources
import PeerFleet.Proofs.Config.Acceptance
import PeerFleet.Proofs.Config.Startup
import PeerFleet.Proofs.Config.Verdict
import PeerFleet.Proofs.Fleet.Accounting
import PeerFleet.Proofs.Fleet.Atomicity
import PeerFleet.Proofs.Fleet.Authority
import PeerFleet.Proofs.Fleet.Capacity
import PeerFleet.Proofs.Fleet.Chronicle
import PeerFleet.Proofs.Fleet.Conservation
import PeerFleet.Proofs.Fleet.Custody
import PeerFleet.Proofs.Fleet.Failure
import PeerFleet.Proofs.Fleet.Ledger
import PeerFleet.Proofs.Fleet.Omission
import PeerFleet.Proofs.Fleet.Operations
import PeerFleet.Proofs.Fleet.Overshoot
import PeerFleet.Proofs.Fleet.Release
import PeerFleet.Proofs.Fleet.Retry
import PeerFleet.Proofs.Fleet.Selection
import PeerFleet.Proofs.Fleet.Shape
import PeerFleet.Proofs.Fleet.Sharing
import PeerFleet.Proofs.Fleet.Shortfall
import PeerFleet.Proofs.Fleet.Stages
import PeerFleet.Proofs.Fleet.State
import PeerFleet.Proofs.Fleet.Steps
import PeerFleet.Proofs.Fleet.Turns
import PeerFleet.Proofs.Health.Concurrency
import PeerFleet.Proofs.Health.Observation
import PeerFleet.Proofs.Health.Outage
import PeerFleet.Proofs.Health.Reading
import PeerFleet.Proofs.Health.Sweep
import PeerFleet.Proofs.Health.Tracking
import PeerFleet.Proofs.Jobs.Allotment
import PeerFleet.Proofs.Jobs.Brink
import PeerFleet.Proofs.Jobs.Daily
import PeerFleet.Proofs.Jobs.Delivery
import PeerFleet.Proofs.Jobs.Ending
import PeerFleet.Proofs.Jobs.Horizon
import PeerFleet.Proofs.Jobs.Lapse
import PeerFleet.Proofs.Jobs.Leveling
import PeerFleet.Proofs.Jobs.Mailing
import PeerFleet.Proofs.Jobs.Overlap
import PeerFleet.Proofs.Jobs.Prolongation
import PeerFleet.Proofs.Jobs.Recount
import PeerFleet.Proofs.Jobs.Reminder
import PeerFleet.Proofs.Jobs.Renewal
import PeerFleet.Proofs.Jobs.Rivalry
import PeerFleet.Proofs.Jobs.Shape
import PeerFleet.Proofs.Jobs.Tally
import PeerFleet.Proofs.Json.Fields
import PeerFleet.Proofs.Json.Lossless
import PeerFleet.Proofs.Json.Text
import PeerFleet.Proofs.Messaging.Replies
import PeerFleet.Proofs.Program.Interleaving
import PeerFleet.Proofs.Program.Parts
import PeerFleet.Proofs.Program.Run
import PeerFleet.Proofs.Program.Weakest
import PeerFleet.Proofs.Report.Alignment
import PeerFleet.Proofs.Service.Disclosure
import PeerFleet.Proofs.Service.Teardown
import PeerFleet.Proofs.Store.Records
import PeerFleet.Proofs.Store.Table
import PeerFleet.Proofs.Text.Blank
import PeerFleet.Proofs.Text.Digits
import PeerFleet.Proofs.Text.Split
import PeerFleet.Proofs.Text.Utf8
import PeerFleet.Proofs.Time.Calendar
import PeerFleet.Proofs.Time.Instant
import PeerFleet.Proofs.Time.Timestamp
import PeerFleet.Proofs.Url.Path
import PeerFleet.Proofs.Url.PercentEncoding
import PeerFleet.Proofs.Url.Reading
import PeerFleet.Proofs.Worker.Balance
import PeerFleet.Proofs.Worker.Callers
import PeerFleet.Proofs.Worker.Coverage
import PeerFleet.Proofs.Worker.Loops
import PeerFleet.Proofs.Worker.Schedule
import PeerFleet.Proofs.Worker.TimeOfDay
import PeerFleet.Record
import PeerFleet.Report.Summary
import PeerFleet.Report.Table
import PeerFleet.Schedule
import PeerFleet.Service.Serve
import PeerFleet.Service.Standalone
import PeerFleet.Service.Status
import PeerFleet.Simulation.Agent
import PeerFleet.Simulation.Domain
import PeerFleet.Simulation.Fault
import PeerFleet.Simulation.Fold
import PeerFleet.Simulation.Machine
import PeerFleet.Simulation.Punycode
import PeerFleet.Simulation.Runtime
import PeerFleet.Simulation.Worker
import PeerFleet.Simulation.World
import PeerFleet.Store.Basic
import PeerFleet.Store.Error
import PeerFleet.Subscription
import PeerFleet.Table
import PeerFleet.Text.Blank
import PeerFleet.Text.CaseMap
import PeerFleet.Text.Digits
import PeerFleet.Text.Escaped
import PeerFleet.Text.Mark
import PeerFleet.Text.Split
import PeerFleet.Text.Upper
import PeerFleet.Text.Utf8
import PeerFleet.Time.Calendar
import PeerFleet.Time.Instant
import PeerFleet.Time.Span
import PeerFleet.Time.Timestamp
import PeerFleet.Url.Basic
import PeerFleet.Url.Host
import PeerFleet.Url.Ipv4
import PeerFleet.Url.Ipv6
import PeerFleet.Url.PercentEncoding
import PeerFleet.Worker.Error
import PeerFleet.Worker.Loop
import PeerFleet.Worker.Manager
import PeerFleet.Worker.Ticker
import PeerFleet.Yaml.Cursor
import PeerFleet.Yaml.Datum
import PeerFleet.Yaml.Node
import PeerFleet.Yaml.Scalar
import PeerFleet.Yaml.Tag
import PeerFleet.Yaml.Token
