import SaccoPlatform.Lib.Frames
import SaccoPlatform.Lib.Numeric
import SaccoPlatform.Lib.Calendar

/-!
# Rows and tables

The rows that the modelled services read and write, under the column names of the
SQLAlchemy models and with the types of the migrations: `NUMERIC(19,4)` columns are `Money`,
`CHECK ... IN` columns are enumerations. Columns that no modelled service reads (timestamps,
free texts, descriptions of products) are left out.

`Tables` is everything a session of one tenant can reach, the `platform` schema included:
`SET LOCAL search_path TO <tenant>, platform` puts both in scope.
-/

namespace SaccoPlatform

open Lib

/-- Primary keys. `uuid4` never repeats: new rows draw theirs from `Tables.nextId`. -/
abbrev Uuid := ℕ

/-- A `NUMERIC(19,4)` column. -/
abbrev Money := Numeric 19 4

/-- The exceptions the services raise and the refusals of the database. -/
inductive Err where
  | valueError (message : String)
  | keyError (key : String)
  | indexError
  | overflowError
  | decimalError
  | billingError (message : String)
  | integrityError (name : String)
  | numericOverflow
  | undefinedTable
  | dataError
  | csvError
  | attributeError
deriving DecidableEq, Repr

/-! ## Ledger -/

/-- `chart_of_accounts`. -/
structure ChartOfAccount where
  id : Uuid
  code : String
deriving DecidableEq, Repr

/-- `journal_lines`. -/
structure JournalLine where
  accountId : Uuid
  debitAmount : Money
  creditAmount : Money
  description : Option String
  subLedgerType : Option String
  subLedgerId : Option Uuid
deriving DecidableEq, Repr

/-- `journal_entries`, each with its lines. -/
structure JournalEntry where
  id : Uuid
  reference : String
  description : String
  postedBy : Uuid
  idempotencyKey : String
  lines : List JournalLine
deriving DecidableEq, Repr

/-! ## Credit -/

inductive InterestMethod where
  | flat | reducingBalance
deriving DecidableEq, Repr

inductive RepaymentFrequency where
  | weekly | biweekly | monthly | quarterly | lumpSum
deriving DecidableEq, Repr

inductive ApplicationStatus where
  | draft | submitted | underReview | approved | rejected | withdrawn | cancelled | disbursed
deriving DecidableEq, Repr

inductive Destination where
  | memberSavings | cash | internalGl
deriving DecidableEq, Repr

inductive LoanStatus where
  | disbursing | disbursed | inArrears | closed | writtenOff
deriving DecidableEq, Repr

inductive InstallmentStatus where
  | pending | partiallyPaid | paid | overdue
deriving DecidableEq, Repr

inductive GuarantorStatus where
  | nominated | accepted | declined | released
deriving DecidableEq, Repr

/-- `loan_products`. -/
structure LoanProduct where
  id : Uuid
  interestMethod : InterestMethod
  annualInterestRate : Money
  repaymentFrequency : RepaymentFrequency
  glPrincipalReceivableCode : String
  glInterestReceivableCode : String
  glInterestIncomeCode : String
  glLoanLossExpenseCode : Option String
  writeOffThreshold : Money
  isActive : Bool
  minAmount : Money
  maxAmount : Money
  maxTermPeriods : ℤ
  requiredApprovals : ℤ
  disbursementDestinations : List Destination
deriving DecidableEq, Repr

/-- `loan_applications`. -/
structure LoanApplication where
  id : Uuid
  loanProductId : Uuid
  memberId : Uuid
  status : ApplicationStatus
  disbursementDestination : Destination
  disbursementAccountId : Option Uuid
  approvedAmount : Option Money
  approvedTermPeriods : Option ℤ
  approvalRequestId : Option Uuid
  idempotencyKey : String
deriving DecidableEq, Repr

/-- `loans`. -/
structure Loan where
  id : Uuid
  loanReference : String
  loanApplicationId : Uuid
  loanProductId : Uuid
  memberId : Uuid
  status : LoanStatus
  principalAmount : Money
  interestMethod : InterestMethod
  annualInterestRate : Money
  repaymentFrequency : RepaymentFrequency
  termPeriods : ℤ
  glPrincipalReceivableId : Uuid
  glInterestReceivableId : Uuid
  glInterestIncomeId : Uuid
  glLoanLossExpenseId : Option Uuid
  outstandingPrincipal : Money
  accruedInterest : Money
  accruedPenalties : Money
  totalPaidPrincipal : Money
  totalPaidInterest : Money
  totalPaidPenalties : Money
  totalWrittenOff : Money
  maturityDate : Option Date
  idempotencyKey : String
deriving DecidableEq

/-- `loan_installments`. -/
structure LoanInstallment where
  id : Uuid
  loanId : Uuid
  periodNumber : ℤ
  dueDate : Date
  principalDue : Money
  interestDue : Money
  totalDue : Money
  principalPaid : Money
  interestPaid : Money
  status : InstallmentStatus
  restructuringId : Option Uuid
  isSuperseded : Bool
deriving DecidableEq

/-- `loan_repayments`. -/
structure LoanRepayment where
  id : Uuid
  loanId : Uuid
  amount : Money
  principalApplied : Money
  interestApplied : Money
  penaltiesApplied : Money
  overpayment : Money
  paymentAccountId : Uuid
  journalEntryId : Uuid
  idempotencyKey : String
deriving DecidableEq, Repr

/-- `loan_guarantors`. -/
structure LoanGuarantor where
  id : Uuid
  loanApplicationId : Uuid
  loanId : Option Uuid
  guarantorMemberId : Uuid
  status : GuarantorStatus
deriving DecidableEq, Repr

/-- `loan_guarantor_liens`. The two lien columns hold what the rounding passed to the
guarantor service makes of a share: the grid of `NUMERIC(19,4)`, or the exact share. -/
structure LoanGuarantorLien where
  id : Uuid
  loanGuarantorId : Uuid
  savingsAccountId : Uuid
  originalLien : ℚ
  currentLien : ℚ
  isActive : Bool
deriving DecidableEq, Repr

inductive RestructuringType where
  | termExtension | paymentHoliday
deriving DecidableEq, Repr

/-- `loan_restructurings`. -/
structure LoanRestructuring where
  id : Uuid
  loanId : Uuid
  restructuringType : RestructuringType
  periodsAdded : ℤ
  newTermPeriods : ℤ
  newMaturityDate : Date
  approvalRequestId : Option Uuid
  idempotencyKey : String
deriving DecidableEq

inductive BatchStatus where
  | pendingReview | approved | rejected | applied
deriving DecidableEq, Repr

inductive BatchLineStatus where
  | matched | unmatched | applied | error
deriving DecidableEq, Repr

/-- `payroll_batches`. -/
structure PayrollBatch where
  id : Uuid
  reference : String
  status : BatchStatus
deriving DecidableEq, Repr

/-- `payroll_batch_lines`. -/
structure PayrollBatchLine where
  id : Uuid
  payrollBatchId : Uuid
  amount : Money
  loanId : Option Uuid
  status : BatchLineStatus
  repaymentId : Option Uuid
deriving DecidableEq, Repr

/-! ## Savings, shares, fees, members, notifications -/

/-- `savings_accounts`, oldest first. -/
structure SavingsAccount where
  id : Uuid
  memberId : Uuid
  minimumBalance : Money
  liabilityAccountId : Uuid
deriving DecidableEq, Repr

inductive SavingsTransactionType where
  | deposit | withdrawal | systemDebit | systemCredit | externalCredit | externalDebit
deriving DecidableEq, Repr

/-- `savings_transactions`. -/
structure SavingsTransaction where
  id : Uuid
  savingsAccountId : Uuid
  transactionType : SavingsTransactionType
  amount : Money
  journalEntryId : Uuid
  idempotencyKey : String
deriving DecidableEq, Repr

/-- `share_products`. -/
structure ShareProduct where
  id : Uuid
  parValue : Money
  minimumShares : ℤ
  maximumShares : Option ℤ
  shareCapitalAccountId : Uuid
  isActive : Bool
deriving DecidableEq, Repr

/-- `member_share_accounts`. -/
structure MemberShareAccount where
  id : Uuid
  memberId : Uuid
  shareProductId : Uuid
deriving DecidableEq, Repr

inductive ShareTransactionType where
  | purchase | redemption
deriving DecidableEq, Repr

/-- `share_transactions`. -/
structure ShareTransaction where
  id : Uuid
  shareAccountId : Uuid
  transactionType : ShareTransactionType
  quantity : ℤ
  amount : Money
  journalEntryId : Uuid
  idempotencyKey : String
deriving DecidableEq, Repr

inductive MemberStatus where
  | pending | active | suspended | exited
deriving DecidableEq, Repr

/-- `members`. -/
structure Member where
  id : Uuid
  status : MemberStatus
  joinedAt : Option Date
deriving DecidableEq

/-- `fee_types`. -/
structure FeeType where
  id : Uuid
  code : String
  name : String
  amount : Money
  glIncomeAccountCode : String
  glReceivableAccountCode : String
  requiresCollection : Bool
deriving DecidableEq, Repr

inductive AssessmentStatus where
  | assessed | partiallyPaid | paid | waived | cancelled
deriving DecidableEq, Repr

/-- `fee_assessments`. -/
structure FeeAssessment where
  id : Uuid
  feeTypeId : Uuid
  targetType : String
  targetId : Uuid
  periodStart : Date
  amount : Money
  status : AssessmentStatus
  journalEntryId : Uuid
deriving DecidableEq

inductive CollectionMethod where
  | savingsDeduction | cash | journalVoucher
deriving DecidableEq, Repr

/-- `fee_collections`. -/
structure FeeCollection where
  id : Uuid
  feeAssessmentId : Uuid
  amount : Money
  method : CollectionMethod
  journalEntryId : Uuid
  idempotencyKey : String
deriving DecidableEq, Repr

/-- `notification_templates`: the variables a template allows. -/
structure NotificationTemplate where
  code : String
  isActive : Bool
  variableNames : List String
deriving DecidableEq, Repr

/-- The payload of a fee event, as far as the credit consumer reads it. `none` is a key
that is missing or does not parse. -/
structure FeePayload where
  targetType : Option String
  targetId : Option Uuid
  amount : Option ℚ
deriving DecidableEq, Repr

/-- `outbox_events`, by event type and the payload keys that are read. -/
inductive EventBody where
  | feeAssessmentCreated (payload : FeePayload)
  | feeCollectionCreated (payload : FeePayload)
  | loanRepaymentPosted (loanId : Uuid) (amount : ℚ)
  | loanClosed (loanId : Uuid)
  | loanWrittenOff (loanId : Uuid) (amount : ℚ)
  | loanRecoveryPosted (loanId : Uuid) (amount : ℚ)
  | loanRestructured (loanId : Uuid)
  | memberActivated (memberId : Uuid)
deriving DecidableEq, Repr

structure OutboxEvent where
  id : Uuid
  body : EventBody
deriving DecidableEq, Repr

/-! ## The platform schema -/

inductive TenantStatus where
  | pending | provisioning | active | suspended | failed | deprovisioning | archived
deriving DecidableEq, Repr

inductive LifecycleState where
  | active | cancelled | readOnly | archived | hardDeleted
deriving DecidableEq, Repr

inductive SubscriptionStatus where
  | pending | trialing | active | pastDue | suspended | cancelled
deriving DecidableEq, Repr

/-- `platform.tenants`. -/
structure Tenant where
  id : Uuid
  isActive : Bool
  status : TenantStatus
  subscriptionStatus : SubscriptionStatus
  currentSubscriptionId : Option Uuid
  lifecycleState : LifecycleState
deriving DecidableEq, Repr

/-- `platform.tenant_lifecycle_events`. -/
structure TenantLifecycleEvent where
  tenantId : Uuid
  fromState : LifecycleState
  toState : LifecycleState
deriving DecidableEq, Repr

/-- `platform.subscriptions`. -/
structure Subscription where
  id : Uuid
  tenantId : Uuid
  status : SubscriptionStatus
  cancellationReason : Option String
deriving DecidableEq, Repr

inductive InvoiceStatus where
  | draft | issued | partiallyPaid | paid | overdue | void
deriving DecidableEq, Repr

/-- `platform.invoices`. -/
structure Invoice where
  id : Uuid
  status : InvoiceStatus
  amountTotal : Money
  amountPaid : Money
  voidReason : Option String
deriving DecidableEq, Repr

inductive PaymentStatus where
  | pending | confirmed | rejected
deriving DecidableEq, Repr

/-- `platform.payments`. -/
structure Payment where
  id : Uuid
  invoiceId : Uuid
  amount : Money
  status : PaymentStatus
deriving DecidableEq, Repr

/-- `platform.users`. -/
structure PlatformUser where
  id : Uuid
  isActive : Bool
  isSuperuser : Bool
  role : String
deriving DecidableEq, Repr

/-- `platform.support_impersonations`. -/
structure SupportImpersonation where
  id : Uuid
  platformUserId : Uuid
  tenantId : Uuid
  approvalRequestId : Option Uuid
deriving DecidableEq, Repr

/-- The tables of the `platform` schema. -/
structure PlatformTables where
  tenants : List Tenant
  lifecycleEvents : List TenantLifecycleEvent
  subscriptions : List Subscription
  invoices : List Invoice
  payments : List Payment
  users : List PlatformUser
  impersonations : List SupportImpersonation
deriving DecidableEq, Repr

/-! ## The tables -/

/-- Every table a tenant session reaches, except the maker-checker tables. -/
structure Tables where
  nextId : ℕ
  loanNumberSeq : ℕ
  accounts : List ChartOfAccount
  entries : List JournalEntry
  products : List LoanProduct
  applications : List LoanApplication
  loans : List Loan
  installments : List LoanInstallment
  repayments : List LoanRepayment
  guarantors : List LoanGuarantor
  liens : List LoanGuarantorLien
  restructurings : List LoanRestructuring
  batches : List PayrollBatch
  batchLines : List PayrollBatchLine
  savingsAccounts : List SavingsAccount
  savingsTransactions : List SavingsTransaction
  shareProducts : List ShareProduct
  shareAccounts : List MemberShareAccount
  shareTransactions : List ShareTransaction
  feeTypes : List FeeType
  feeAssessments : List FeeAssessment
  feeCollections : List FeeCollection
  members : List Member
  templates : List NotificationTemplate
  outbox : List OutboxEvent
  processedEvents : List Uuid
  platform : PlatformTables
deriving DecidableEq

/-- A call inside a tenant session. -/
abbrev Call := Session Tables Err

/-- A database without rows. -/
def Tables.empty : Tables where
  nextId := 0
  loanNumberSeq := 0
  accounts := []
  entries := []
  products := []
  applications := []
  loans := []
  installments := []
  repayments := []
  guarantors := []
  liens := []
  restructurings := []
  batches := []
  batchLines := []
  savingsAccounts := []
  savingsTransactions := []
  shareProducts := []
  shareAccounts := []
  shareTransactions := []
  feeTypes := []
  feeAssessments := []
  feeCollections := []
  members := []
  templates := []
  outbox := []
  processedEvents := []
  platform := ⟨[], [], [], [], [], [], []⟩

namespace Tables

def loan? (t : Tables) (id : Uuid) : Option Loan := t.loans.find? (·.id = id)

/-- Write a loan row back under its primary key. -/
def putLoan (t : Tables) (l : Loan) : Tables :=
  { t with loans := t.loans.map fun r => if r.id = l.id then l else r }

/-- Write an instalment row back under its primary key. -/
def putInstallment (t : Tables) (row : LoanInstallment) : Tables :=
  { t with installments := t.installments.map fun r => if r.id = row.id then row else r }

def account? (t : Tables) (code : String) : Option ChartOfAccount :=
  t.accounts.find? (·.code = code)

def entry? (t : Tables) (key : String) : Option JournalEntry :=
  t.entries.find? (·.idempotencyKey = key)

end Tables

/-- A new primary key. -/
def freshId : Call Uuid := fun t => .ok t.nextId { t with nextId := t.nextId + 1 }

/-- Write a value to a `NUMERIC(19,4)` column. -/
def writeMoney (q : ℚ) : Call Money := fun t =>
  match Numeric.ofRat? q with
  | some m => .ok m t
  | none => .aborted .numericOverflow

/-- Write a value to an `INTEGER` column. -/
def writeInteger (n : ℤ) : Call ℤ := do
  Session.constraint (-2 ^ 31 ≤ n ∧ n < 2 ^ 31) .numericOverflow
  pure n

/-- `EventPublisher.publish`: the outbox row is part of the caller's transaction. -/
def publish (body : EventBody) : Call Unit := do
  let id ← freshId
  Session.modify fun t => { t with outbox := t.outbox ++ [⟨id, body⟩] }

theorem freshId_eq_ok {t t' : Tables} {id : Uuid} :
    freshId t = .ok id t' ↔ id = t.nextId ∧ t' = { t with nextId := t.nextId + 1 } := by
  simp [freshId, eq_comm]

theorem writeMoney_eq_ok {q : ℚ} {t t' : Tables} {m : Money} :
    writeMoney q t = .ok m t' ↔ Numeric.ofRat? q = some m ∧ t' = t := by
  unfold writeMoney
  cases (Numeric.ofRat? q : Option Money) <;> simp [eq_comm]

@[simp] theorem freshId_bind_eq_ok {β : Type} {f : Uuid → Call β} {t t' : Tables} {b : β} :
    (freshId >>= f) t = .ok b t' ↔ f t.nextId { t with nextId := t.nextId + 1 } = .ok b t' :=
  Iff.rfl

@[simp] theorem writeMoney_bind_eq_ok {β : Type} {q : ℚ} {f : Money → Call β} {t t' : Tables}
    {b : β} :
    (writeMoney q >>= f) t = .ok b t' ↔ ∃ m, Numeric.ofRat? q = some m ∧ f m t = .ok b t' := by
  rw [Session.bind_eq_ok]
  constructor
  · rintro ⟨m, t₁, h, hf⟩
    obtain ⟨hm, rfl⟩ := writeMoney_eq_ok.mp h
    exact ⟨m, hm, hf⟩
  · rintro ⟨m, hm, hf⟩
    exact ⟨m, t, writeMoney_eq_ok.mpr ⟨hm, rfl⟩, hf⟩

theorem neverRaises_writeMoney (q : ℚ) : Session.NeverRaises (writeMoney q) := by
  intro t e t'
  unfold writeMoney
  split <;> simp

theorem writeMoney_bind_eq_raised {β : Type} {q : ℚ} {f : Money → Call β} {t t' : Tables} {e : Err} :
    (writeMoney q >>= f) t = .raised e t' ↔
      ∃ m, Numeric.ofRat? q = some m ∧ f m t = .raised e t' := by
  rw [Session.bind_apply]
  unfold writeMoney
  cases (Numeric.ofRat? q : Option Money) <;> simp

theorem writeInteger_bind_eq_ok {β : Type} {n : ℤ} {f : ℤ → Call β} {t t' : Tables} {b : β} :
    (writeInteger n >>= f) t = .ok b t' ↔ (-2 ^ 31 ≤ n ∧ n < 2 ^ 31) ∧ f n t = .ok b t' := by
  rw [Session.bind_apply]
  unfold writeInteger Session.constraint
  by_cases h : -2 ^ 31 ≤ n ∧ n < 2 ^ 31
  · rw [if_pos h]
    exact ⟨fun hf => ⟨h, hf⟩, fun hf => hf.2⟩
  · rw [if_neg h]
    exact ⟨nofun, fun hf => absurd hf.1 h⟩

theorem writeInteger_bind_eq_raised {β : Type} {n : ℤ} {f : ℤ → Call β} {t t' : Tables} {e : Err} :
    (writeInteger n >>= f) t = .raised e t' ↔
      (-2 ^ 31 ≤ n ∧ n < 2 ^ 31) ∧ f n t = .raised e t' := by
  rw [Session.bind_apply]
  unfold writeInteger Session.constraint
  by_cases h : -2 ^ 31 ≤ n ∧ n < 2 ^ 31
  · rw [if_pos h]
    exact ⟨fun hf => ⟨h, hf⟩, fun hf => hf.2⟩
  · rw [if_neg h]
    exact ⟨nofun, fun hf => absurd hf.1 h⟩

theorem neverRaises_freshId : Session.NeverRaises freshId := by
  intro t e t' h
  unfold freshId at h
  cases h

theorem neverRaises_writeInteger (n : ℤ) : Session.NeverRaises (writeInteger n) :=
  Session.neverRaises_bind (Session.neverRaises_constraint _ _) fun _ =>
    Session.neverRaises_pure _

theorem neverRaises_publish (body : EventBody) : Session.NeverRaises (publish body) :=
  Session.neverRaises_bind neverRaises_freshId fun _ => Session.neverRaises_modify _

theorem moves_writeMoney {R : Tables → Tables → Prop} [Std.Refl R] (q : ℚ) :
    Session.Moves R (writeMoney q) := by
  intro t
  refine ⟨?_, ?_⟩
  · intro m t' h
    obtain ⟨-, rfl⟩ := writeMoney_eq_ok.mp h
    exact refl_of R t'
  · intro e t' h
    exact absurd h (neverRaises_writeMoney q t e t')

theorem moves_freshId {R : Tables → Tables → Prop}
    (h : ∀ t : Tables, R t { t with nextId := t.nextId + 1 }) : Session.Moves R freshId := by
  intro t
  refine ⟨?_, ?_⟩
  · intro id t' hx
    obtain ⟨-, rfl⟩ := freshId_eq_ok.mp hx
    exact h t
  · intro e t' hx
    exact absurd hx (neverRaises_freshId t e t')

@[simp] theorem publish_eq_ok {body : EventBody} {t t' : Tables} {u : Unit} :
    publish body t = .ok u t' ↔
      t' = { t with nextId := t.nextId + 1, outbox := t.outbox ++ [⟨t.nextId, body⟩] } := by
  rw [publish, freshId_bind_eq_ok, Session.modify_eq_ok]

@[simp] theorem publish_bind_eq_ok {β : Type} {body : EventBody} {f : Unit → Call β}
    {t t' : Tables} {b : β} :
    (publish body >>= f) t = .ok b t' ↔
      f () { t with nextId := t.nextId + 1, outbox := t.outbox ++ [⟨t.nextId, body⟩] }
        = .ok b t' := Iff.rfl

end SaccoPlatform
