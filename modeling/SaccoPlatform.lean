import SaccoPlatform.Lib.Session
import SaccoPlatform.Lib.Frames
import SaccoPlatform.Lib.Runs
import SaccoPlatform.Lib.Numeric
import SaccoPlatform.Lib.Calendar
import SaccoPlatform.Lib.DecimalContext
import SaccoPlatform.Lib.DecimalError
import SaccoPlatform.Lib.Returns
import SaccoPlatform.Lib.Tables
import SaccoPlatform.Database
import SaccoPlatform.Ledger.Journal
import SaccoPlatform.Savings.Transactions
import SaccoPlatform.Credit.Balances
import SaccoPlatform.Credit.Schedule
import SaccoPlatform.Credit.Guarantor
import SaccoPlatform.Credit.Repayment
import SaccoPlatform.Credit.WriteOff
import SaccoPlatform.Credit.Disbursement
import SaccoPlatform.Credit.Restructuring
import SaccoPlatform.Credit.Beat
import SaccoPlatform.Credit.Consumer
import SaccoPlatform.Credit.Query
import SaccoPlatform.Credit.Movements
import SaccoPlatform.Credit.Operations
import SaccoPlatform.Credit.Principal
import SaccoPlatform.Credit.Interest
import SaccoPlatform.Credit.Closure
import SaccoPlatform.Credit.Liens
import SaccoPlatform.Credit.Cover
import SaccoPlatform.Credit.Superseded
import SaccoPlatform.Credit.Concurrency
import SaccoPlatform.MakerChecker.Approvals
import SaccoPlatform.MakerChecker.Interleaving
import SaccoPlatform.Savings.Service
import SaccoPlatform.Shares.Service
import SaccoPlatform.Platform.Executors
import SaccoPlatform.MakerChecker.Registry
import SaccoPlatform.MakerChecker.Executors
import SaccoPlatform.MakerChecker.Footprints
import SaccoPlatform.MakerChecker.DualControl
import SaccoPlatform.Credit.Applications
import SaccoPlatform.Fees.Scheduled
import SaccoPlatform.Fees.Service
import SaccoPlatform.Ledger.Balance
import SaccoPlatform.Savings.Withdrawals
import SaccoPlatform.Savings.Reconciliation
import SaccoPlatform.Shares.Holdings
import SaccoPlatform.Fees.Collections
import SaccoPlatform.Credit.ExactlyOnce
import SaccoPlatform.Outbox.Retention
import SaccoPlatform.Idempotency
import SaccoPlatform.Lib.Keyed
import SaccoPlatform.Platform.Schema
import SaccoPlatform.Platform.Offboarding
import SaccoPlatform.Lib.ChangeLog
import SaccoPlatform.Platform.Lifecycle
import SaccoPlatform.Platform.Retention
import SaccoPlatform.Platform.Directory
import SaccoPlatform.Platform.Access
import SaccoPlatform.Platform.Cache
import SaccoPlatform.Platform.Drift
import SaccoPlatform.Platform.Repeats
import SaccoPlatform.Platform.Payments
import SaccoPlatform.Platform.Settlement
import SaccoPlatform.Lib.LostUpdates
import SaccoPlatform.Lib.Connection
import SaccoPlatform.MakerChecker.SearchPath
import SaccoPlatform.Platform.Confirmations
import SaccoPlatform.Platform.Beat
import SaccoPlatform.Platform.Scheduled
import SaccoPlatform.Platform.Periods
import SaccoPlatform.Lib.Expiring
import SaccoPlatform.Lib.Feed
import SaccoPlatform.Lib.Json
import SaccoPlatform.Lib.Uuid
import SaccoPlatform.Lib.Retries
import SaccoPlatform.Lib.Clamped
import SaccoPlatform.Lib.Polling
import SaccoPlatform.Lib.DecimalText
import SaccoPlatform.Lib.CalendarFields
import SaccoPlatform.Iam.Realms
import SaccoPlatform.Iam.Lockout
import SaccoPlatform.Iam.Interference
import SaccoPlatform.Iam.Tokens
import SaccoPlatform.Iam.Keys
import SaccoPlatform.Iam.Rotation
import SaccoPlatform.Iam.Sessions
import SaccoPlatform.Iam.Isolation
import SaccoPlatform.Iam.Survival
import SaccoPlatform.Iam.Impersonations
import SaccoPlatform.Iam.PasswordReset
import SaccoPlatform.Platform.Provisioning
import SaccoPlatform.Platform.PaymentApprovals
import SaccoPlatform.Members.Status
import SaccoPlatform.Members.Kyc
import SaccoPlatform.RateLimit.Bucket
import SaccoPlatform.RateLimit.Expiry
import SaccoPlatform.RateLimit.Overrides
import SaccoPlatform.ApiClient.Refresh
import SaccoPlatform.Credit.Posting
import SaccoPlatform.Credit.Penalties
import SaccoPlatform.Credit.Amortisation
import SaccoPlatform.Credit.Overshoot
import SaccoPlatform.Credit.Replacement
import SaccoPlatform.Credit.Annuity
import SaccoPlatform.Search.Documents
import SaccoPlatform.Search.Reconcile
import SaccoPlatform.Search.Convergence
import SaccoPlatform.Notifications.Dispatch
import SaccoPlatform.Notifications.Discipline
import SaccoPlatform.Outbox.Progress
import SaccoPlatform.Outbox.Attempts
import SaccoPlatform.Ledger.ManualEntry
import SaccoPlatform.Credit.DueDates
import SaccoPlatform.Lib.Pouring
import SaccoPlatform.Credit.PartPayments
import SaccoPlatform.Credit.Filling
import SaccoPlatform.Credit.Statement
import SaccoPlatform.Credit.Accruals
import SaccoPlatform.Credit.Charges
import SaccoPlatform.Credit.Holidays
import SaccoPlatform.Credit.Arrears
import SaccoPlatform.Lib.Charges
import SaccoPlatform.Lib.Instants
import SaccoPlatform.Lib.Grouping
import SaccoPlatform.Reporting.Books
import SaccoPlatform.Reporting.Schema
import SaccoPlatform.Reporting.Materialize
import SaccoPlatform.Reporting.Ledger
import SaccoPlatform.Reporting.Coherence
import SaccoPlatform.Reporting.LoanPortfolio
import SaccoPlatform.Reporting.SavingsStatement
import SaccoPlatform.Reporting.Latest
import SaccoPlatform.Reporting.Agreement
import SaccoPlatform.Reporting.Ranges
import SaccoPlatform.Reporting.Ageing
import SaccoPlatform.Iam.LoginAudit
import SaccoPlatform.MonthSeries
import SaccoPlatform.Lib.JsStrings
import SaccoPlatform.Lib.JsNumbers
import SaccoPlatform.Ui.FormatHelpers
import SaccoPlatform.Ui.MoneyInput
import SaccoPlatform.Lib.Csv
import SaccoPlatform.Ui.Csv
import SaccoPlatform.Lib.PyText
import SaccoPlatform.Lib.PyCsv
import SaccoPlatform.Credit.Payroll
import SaccoPlatform.Credit.PayrollBatches
import SaccoPlatform.Credit.PayrollUploads
import SaccoPlatform.Lib.History
import SaccoPlatform.Lib.Joins
import SaccoPlatform.Lib.Paging
import SaccoPlatform.Reporting.FeeCollection
import SaccoPlatform.Search.Queries
import SaccoPlatform.Audit.Query
import SaccoPlatform.Notifications.Bridges
import SaccoPlatform.Notifications.BridgeRuns
import SaccoPlatform.Lib.Cells
import SaccoPlatform.RateLimit.Identity
import SaccoPlatform.RateLimit.Metering
import SaccoPlatform.Lib.Tracked
import SaccoPlatform.Audit.Trail
import SaccoPlatform.Lib.Recovery
import SaccoPlatform.Ops.Drills
