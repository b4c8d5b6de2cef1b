import LoanDesk.Account.Book
import LoanDesk.Annuity
import LoanDesk.Desk.Accounts
import LoanDesk.Desk.Lending
import LoanDesk.Desk.Opening
import LoanDesk.Journal.Basic
import LoanDesk.Json.Parser
import LoanDesk.Json.Printer
import LoanDesk.Loan.Book
import LoanDesk.Settings
import LoanDesk.Store.Basic
import LoanDesk.Web.Site
import LoanDesk.Proofs.Decimal.Amount
import LoanDesk.Proofs.Decimal.Rounding
import LoanDesk.Proofs.Decimal.Arith
import LoanDesk.Proofs.Annuity.Exact
import LoanDesk.Proofs.Loan.Limits
import LoanDesk.Proofs.Annuity.Payment
import LoanDesk.Proofs.Annuity.Schedule
import LoanDesk.Proofs.Json.Strings
import LoanDesk.Proofs.Text.Digits
import LoanDesk.Proofs.Json.RoundTrip
import LoanDesk.Proofs.Decimal.Text
import LoanDesk.Proofs.Time.Iso
import LoanDesk.Proofs.Store.Documents
import LoanDesk.Proofs.Store.Filters
import LoanDesk.Proofs.Desk.Work
import LoanDesk.Proofs.Json.Printable
import LoanDesk.Proofs.Loan.Record
import LoanDesk.Proofs.Account.Record
import LoanDesk.Proofs.Desk.Book
import LoanDesk.Proofs.Desk.Lending
import LoanDesk.Proofs.Desk.Accounts
import LoanDesk.Proofs.Annuity.Reach
import LoanDesk.Proofs.Review.Run
import LoanDesk.Proofs.Review.Once
import LoanDesk.Proofs.Web.Replies
import LoanDesk.Proofs.Desk.Reads
import LoanDesk.Proofs.Web.Access
import LoanDesk.Proofs.Web.Handlers
import LoanDesk.Proofs.Web.Ownership
import LoanDesk.Proofs.Annuity.Quote
import LoanDesk.Proofs.Store.Refinement
import LoanDesk.Proofs.Service.Run
import LoanDesk.Proofs.Service.History
import LoanDesk.Proofs.Desk.Lists
import LoanDesk.Proofs.Service.Reads
import LoanDesk.Proofs.Annuity.Closing
import LoanDesk.Proofs.Store.RoundTrip
import LoanDesk.Proofs.Desk.Failures
import LoanDesk.Proofs.Service.Calls
import LoanDesk.Proofs.Text.Case
import LoanDesk.Proofs.Account.Email
import LoanDesk.Proofs.Account.Password
import LoanDesk.Proofs.Account.Lookup
import LoanDesk.Proofs.Desk.Roll
import LoanDesk.Proofs.Service.Accounts
import LoanDesk.Proofs.Decimal.Nearest
import LoanDesk.Proofs.Annuity.Rounded
import LoanDesk.Proofs.Annuity.Faint
import LoanDesk.Proofs.Annuity.Monotone
import LoanDesk.Proofs.Annuity.Shape
import LoanDesk.Proofs.Annuity.Totals
import LoanDesk.Proofs.Annuity.Negligible
import LoanDesk.Proofs.Money.Cents
import LoanDesk.Proofs.Money.Shown
import LoanDesk.Proofs.Desk.Registration
import LoanDesk.Proofs.Text.Bytes
import LoanDesk.Proofs.Json.Bytes
import LoanDesk.Proofs.Time.Calendar
import LoanDesk.Proofs.Time.Measured
import LoanDesk.Proofs.Account.Token
import LoanDesk.Proofs.Journal.Entry
import LoanDesk.Proofs.Journal.Blocks
import LoanDesk.Proofs.Decimal.Numeral
import LoanDesk.Proofs.Money.Numeral
