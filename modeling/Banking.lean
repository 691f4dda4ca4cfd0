import Banking.Properties.Balance
import Banking.Properties.Pipeline
import Banking.Properties.Ledger
import Banking.Properties.FraudGate
import Banking.Properties.Idempotency
import Banking.Properties.Replay
import Banking.Properties.Outbox
import Banking.Properties.Fencing
import Banking.Properties.Ordering
import Banking.Properties.Drain
import Banking.Properties.Positivity
import Banking.Properties.Journal
import Banking.Properties.Authority
import Banking.Properties.EventStream
import Banking.Properties.Consumer
import Banking.Refinement.Outbox
import Banking.Properties.RefreshTokens
import Banking.Properties.Analytics
import Banking.Properties.FraudFlags
import Banking.Properties.FraudCompleteness
import Banking.Relational.Writes
import Banking.Properties.EventFormat
import Banking.Properties.Rebuild
import Banking.Properties.Retry
import Banking.Properties.DeadLetters
import Banking.Properties.Subscriptions
import Banking.Properties.Realtime
import Banking.Properties.LiveStream
import Banking.Properties.Reprocessing
import Banking.Properties.Deadlock
import Banking.Properties.Commutation
import Banking.Properties.Range
import Banking.Properties.Serializability
import Banking.Properties.Progress
import Banking.Properties.Reconciliation
import Banking.Properties.Trail
import Banking.Properties.Books
import Banking.Properties.Metrics
import Banking.Analytics.Routes
import Banking.Properties.Report
import Banking.Properties.Tokens
import Banking.Auth.Schemas
import Banking.Auth.Middleware
import Banking.System.Api
import Banking.Refinement.Api
import Banking.Properties.Gate
import Banking.Accounts.Service
import Banking.System.Accounts
import Banking.Refinement.Unseen
import Banking.Refinement.Openings
import Banking.Properties.Openings
import Banking.Refinement.AuthLocks
import Banking.Properties.Termination
