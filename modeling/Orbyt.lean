import Orbyt.Lib.Program
import Orbyt.Lib.Interleave
import Orbyt.Lib.ValidatedLedger
import Orbyt.Lib.Trail
import Orbyt.Lib.Tables
import Orbyt.Platform.Rows
import Orbyt.Platform.World
import Orbyt.Platform.Exec
import Orbyt.Platform.XrplService
import Orbyt.Platform.SettlementWorker
import Orbyt.Platform.CashinService
import Orbyt.Platform.CashoutWorker
import Orbyt.Platform.CashoutService
import Orbyt.Platform.Platform
import Orbyt.Rules.Calls
import Orbyt.Rules.Statements
import Orbyt.Rules.Footprints
import Orbyt.Invariants.Lifecycle
import Orbyt.Invariants.Books
import Orbyt.Guarantees.Balances
import Orbyt.Rules.Writes
import Orbyt.Rules.Evidence
import Orbyt.Rules.Submission
import Orbyt.Invariants.Settlement
import Orbyt.Invariants.Settling
import Orbyt.Invariants.Retrying
import Orbyt.Guarantees.Payments
import Orbyt.Invariants.Burning
import Orbyt.Invariants.BurnJobs
import Orbyt.Invariants.Resolving
import Orbyt.Guarantees.Burns
import Orbyt.Guarantees.Records
import Orbyt.Guarantees.Consultations
import Orbyt.Guarantees.Cards
import Orbyt.Guarantees.MoneyFields
import Orbyt.Guarantees.Kyc
import Orbyt.Guarantees.Limits
import Orbyt.Invariants.LostClaims
import Orbyt.Guarantees.Workers
import Orbyt.Lib.Typestate
import Orbyt.Guarantees.Pricing
import Orbyt.Guarantees.Configuration
import Orbyt.Guarantees.PriceLock
import Orbyt.Invariants.Posted
import Orbyt.Lib.TwoRuns
import Orbyt.Platform.Monitor
import Orbyt.Rules.Unnoticed
import Orbyt.Guarantees.Monitor
import Orbyt.Guarantees.Review
import Orbyt.Invariants.Provisioned
import Orbyt.Guarantees.Provisioning
import Orbyt.Guarantees.Accounts
import Orbyt.Guarantees.LedgerRange
import Orbyt.Guarantees.Recipients
import Orbyt.Guarantees.Status
import Orbyt.Lib.RetryLoop
import Orbyt.Invariants.Attempts
import Orbyt.Invariants.BurnAttempts
import Orbyt.Guarantees.Retries
import Orbyt.Guarantees.Coverage
import Orbyt.Guarantees.Errands
import Orbyt.Guarantees.Recovery
import Orbyt.Guarantees.Holdings
