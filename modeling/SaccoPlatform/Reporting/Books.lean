import SaccoPlatform.Database
import SaccoPlatform.Lib.Instants

/-!
# What the reports read

The reporting services read the tables of the other modules. `Books` is one state of these tables:
the rows that the other modules write, and the columns of these rows that only a report reads. Its
fields state the keys that the schema enforces and the queries join on.
-/

namespace SaccoPlatform.Reporting

open Lib

inductive AccountType where
  | asset | liability | equity | income | expense
deriving DecidableEq, Repr

/-- The columns that only the reports read, by the primary key of their row. -/
structure ReportColumns where
  /-- `chart_of_accounts.name`. -/
  accountName : Uuid → String
  /-- `chart_of_accounts.account_type`. -/
  accountType : Uuid → AccountType
  /-- `journal_entries.posted_at`. -/
  entryPostedAt : Uuid → Instant
  /-- `loan_products.name`. -/
  productName : Uuid → String
  /-- The day of `loans.disbursed_at`. -/
  disbursedAt : Uuid → Option Date
  /-- `savings_transactions.posted_at`. -/
  postedAt : Uuid → Instant
  /-- `savings_transactions.narration`. -/
  narration : Uuid → Option String

/-- The tables behind the reports. -/
structure Books where
  tables : Tables
  columns : ReportColumns
  accounts_pkey : (tables.accounts.map (·.id)).Nodup
  fk_jl_account : ∀ e ∈ tables.entries, ∀ l ∈ e.lines, l.accountId ∈ tables.accounts.map (·.id)
  loans_pkey : (tables.loans.map (·.id)).Nodup
  loan_products_pkey : (tables.products.map (·.id)).Nodup
  fk_ln_product : ∀ l ∈ tables.loans, l.loanProductId ∈ tables.products.map (·.id)
  savings_accounts_pkey : (tables.savingsAccounts.map (·.id)).Nodup
  savings_transactions_pkey : (tables.savingsTransactions.map (·.id)).Nodup
  fk_savtx_account : ∀ tx ∈ tables.savingsTransactions,
    tx.savingsAccountId ∈ tables.savingsAccounts.map (·.id)

/-- Columns of a database without rows. -/
def ReportColumns.blank : ReportColumns where
  accountName _ := ""
  accountType _ := .asset
  entryPostedAt _ := 0
  productName _ := ""
  disbursedAt _ := none
  postedAt _ := 0
  narration _ := none

end SaccoPlatform.Reporting
