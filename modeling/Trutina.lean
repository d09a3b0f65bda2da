import Trutina.Interaction
import Trutina.Interference
import Trutina.Decimal
import Trutina.Regex
import Trutina.Text
import Trutina.Errors
import Trutina.Rule
import Trutina.Account
import Trutina.Journal
import Trutina.Posting
import Trutina.Database
import Trutina.Repository
import Trutina.Service
import Trutina.Reasoning
import Trutina.AccountStore
import Trutina.Uniqueness
import Trutina.Readability
import Trutina.PartialUpdate
import Trutina.AuditTrail
import Trutina.Ledger
import Trutina.LedgerRuns
import Trutina.ExactlyOnce
import Trutina.Books
import Trutina.JournalRoundTrip
import Trutina.Sequential
import Trutina.History
import Trutina.Identity
import Trutina.Balance
import Trutina.ErrorContract
import Trutina.Atomicity
import Trutina.Tickets
import Trutina.Numbering
import Trutina.Usability
import Trutina.Folding
import Trutina.FailureLog
import Trutina.Credentials
import Trutina.Traces
import Trutina.AuthStore
import Trutina.Authentication
import Trutina.Throttling
import Trutina.Overshoot
import Trutina.Twins
import Trutina.Enumeration
import Trutina.Registration
import Trutina.LoginRuns
import Trutina.Completion
import Trutina.Renaming
import Trutina.Spelling
import Trutina.Refusals
import Trutina.Snapshots
import Trutina.Partition
import Trutina.Calendar
import Trutina.AsOf
import Trutina.RetryHint
import Trutina.Secret
import Trutina.LogRedaction
import Trutina.ExceptionRecords
import Trutina.LoggedAmounts
import Trutina.ConnectionStrings
import Trutina.Middleware
import Trutina.ErrorResponses
import Trutina.Lookups
import Trutina.Outcomes
import Trutina.Readers
import Trutina.Reconciliation
import Trutina.Logins
import Trutina.Handlers
import Trutina.Routes
import Trutina.Requests
import Trutina.Stateful
import Trutina.Connections
import Trutina.Shlex
import Trutina.Shell
import Trutina.Completer
import Trutina.Prompts
import Trutina.InputModes
import Trutina.Commands
import Trutina.Identifiers
