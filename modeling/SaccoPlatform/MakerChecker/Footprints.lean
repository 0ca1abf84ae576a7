import SaccoPlatform.Fees.Service
import SaccoPlatform.MakerChecker.Registry

/-!
# What the operations leave alone

For every operation that can be approved, the tables it may write: a relation `R` that allows
these writes holds between the tables before and after, whether the executor returns or raises.
The hypotheses name the tables, so that a relation which says that other tables are unchanged
meets them by `rfl`.
-/

namespace SaccoPlatform

open Lib Session

variable {R : Tables → Tables → Prop} [IsPreorder Tables R]

/-! ## Building blocks -/

theorem moves_writeInteger (n : ℤ) :
    Moves R (writeInteger n) := by
  unfold writeInteger
  apply moves_bind (moves_constraint _ _)
  intro _
  exact moves_pure n

theorem storeLine_unchanged (l : LineIn) :
    Moves R (storeLine l) := by
  unfold storeLine
  apply moves_bind moves_get
  intro t
  apply moves_bind (moves_constraint _ _)
  intro _
  apply moves_bind (moves_writeMoney _)
  intro debit
  apply moves_bind (moves_writeMoney _)
  intro credit
  apply moves_bind (moves_constraint _ _)
  intro _
  exact moves_pure _

theorem storeLines_unchanged (ls : List LineIn) : Moves R (storeLines ls) := by
  induction ls with
  | nil => exact moves_pure _
  | cons l ls ih =>
    apply moves_bind (storeLine_unchanged l)
    intro row
    apply moves_bind ih
    intro rows
    exact moves_pure _

theorem postJournalEntry_writes
    (h : ∀ (t : Tables) n es, t.nextId ≤ n → R t { t with nextId := n, entries := es })
    (reference description : String) (postedBy : Uuid) (key : String) (lines : List LineIn) :
    Moves R (postJournalEntry reference description postedBy key lines) := by
  unfold postJournalEntry
  apply moves_bind moves_get
  intro t
  split
  · exact moves_pure _
  · apply moves_bind (moves_require _ _)
    intro _
    apply moves_bind (moves_require _ _)
    intro _
    apply moves_bind (moves_freshId fun t => h t (t.nextId + 1) t.entries (Nat.le_succ _))
    intro id
    apply moves_bind (storeLines_unchanged lines)
    intro rows
    apply moves_bind
    · exact moves_modify fun t => h t t.nextId _ le_rfl
    · intro _
      exact moves_pure _

theorem publish_writes (body : EventBody)
    (h : ∀ (t : Tables) n id, t.nextId ≤ n → R t { t with nextId := n, outbox := t.outbox ++ [⟨id, body⟩] })
    (hid : ∀ (t : Tables) n, t.nextId ≤ n → R t { t with nextId := n }) :
    Moves R (publish body) := by
  unfold publish
  apply moves_bind (moves_freshId fun t => hid t (t.nextId + 1) (Nat.le_succ _))
  intro id
  exact moves_modify fun t => h t t.nextId id le_rfl

theorem insertSavingsTransaction_writes {type : SavingsTransactionType}
    (h : ∀ (t : Tables) (tx : SavingsTransaction), tx.transactionType = type →
      R t { t with savingsTransactions := t.savingsTransactions ++ [tx] })
    (hid : ∀ (t : Tables) n, t.nextId ≤ n → R t { t with nextId := n })
    (accountId : Uuid) (amount : ℚ) (entryId : Uuid) (key : String) :
    Moves R (insertSavingsTransaction accountId type amount entryId key) := by
  unfold insertSavingsTransaction
  apply moves_bind (moves_writeMoney _)
  intro amount
  apply moves_bind (moves_constraint _ _)
  intro _
  apply moves_bind moves_get
  intro t
  apply moves_bind (moves_constraint _ _)
  intro _
  apply moves_bind (moves_freshId fun t => hid t (t.nextId + 1) (Nat.le_succ _))
  intro id
  apply moves_bind
  · exact moves_modify fun t => h t _ rfl
  · intro _
    exact moves_pure _

theorem insertShareTransaction_writes
    (h : ∀ (t : Tables) n txs, t.nextId ≤ n → R t { t with nextId := n, shareTransactions := txs })
    (accountId : Uuid) (type : ShareTransactionType) (quantity : ℤ) (amount : ℚ)
    (entryId : Uuid) (key : String) :
    Moves R (insertShareTransaction accountId type quantity amount entryId key) := by
  unfold insertShareTransaction
  apply moves_bind moves_get
  intro t
  iterate 2
    apply moves_bind (moves_constraint _ _)
    intro _
  apply moves_bind (moves_writeInteger _)
  intro quantity
  apply moves_bind (moves_constraint _ _)
  intro _
  apply moves_bind (moves_writeMoney _)
  intro amount
  apply moves_bind (moves_constraint _ _)
  intro _
  apply moves_bind (moves_freshId fun t => h t (t.nextId + 1) t.shareTransactions (Nat.le_succ _))
  intro id
  apply moves_bind
  · exact moves_modify fun t => h t t.nextId _ le_rfl
  · intro _
    exact moves_pure _

theorem saveLoan_writes (h : ∀ (t : Tables) loans, R t { t with loans := loans })
    (l : Loan) (b : Balances) (status : LoanStatus) : Moves R (saveLoan l b status) := by
  unfold saveLoan
  iterate 7
    apply moves_bind (moves_writeMoney _)
    intro _
  iterate 3
    apply moves_bind (moves_constraint _ _)
    intro _
  apply moves_bind
  · exact moves_modify fun t => h t _
  · intro _
    exact moves_pure _

theorem publishNotification_unchanged (eventCode : String) (context : List String) :
    Moves R (publishNotification eventCode context) := by
  unfold publishNotification
  apply moves_bind moves_get
  intro t
  split
  · exact moves_raise _
  · exact moves_pure _

/-! ## Savings and fees -/

theorem getSavingsAccount_unchanged (accountId : Uuid) : Moves R (getSavingsAccount accountId) := by
  unfold getSavingsAccount
  apply moves_bind moves_get
  intro t
  exact moves_orRaise _ _

theorem deposit_writes
    (h : ∀ (t : Tables) n es, t.nextId ≤ n → R t { t with nextId := n, entries := es })
    (htx : ∀ (t : Tables) (tx : SavingsTransaction), tx.transactionType = .deposit →
      R t { t with savingsTransactions := t.savingsTransactions ++ [tx] })
    (d : DepositIn) : Moves R (deposit d) := by
  unfold deposit
  apply moves_bind moves_get
  intro t
  split
  · exact moves_pure _
  · apply moves_bind (getSavingsAccount_unchanged _)
    intro account
    apply moves_bind (postJournalEntry_writes h _ _ _ _ _)
    intro entryId
    exact insertSavingsTransaction_writes htx (fun t n hn => h t n t.entries hn) _ _ _ _

theorem systemDebit_writes
    (h : ∀ (t : Tables) n es, t.nextId ≤ n → R t { t with nextId := n, entries := es })
    (htx : ∀ (t : Tables) (tx : SavingsTransaction), tx.transactionType = .systemDebit →
      R t { t with savingsTransactions := t.savingsTransactions ++ [tx] })
    (m : SystemMovementIn) (mode : OnInsufficientFunds) : Moves R (systemDebit m mode) := by
  unfold systemDebit
  apply moves_bind (moves_require _ _)
  intro _
  apply moves_bind moves_get
  intro t
  split
  · exact moves_pure _
  · apply moves_bind (getSavingsAccount_unchanged _)
    intro account
    apply moves_bind
    · unfold getSavingsBalance
      apply moves_bind (getSavingsAccount_unchanged _)
      intro _
      apply moves_bind moves_get
      intro t
      exact moves_pure _
    intro balance
    apply moves_bind (moves_require _ _)
    intro _
    split
    · exact moves_pure _
    · apply moves_bind (postJournalEntry_writes h _ _ _ _ _)
      intro entryId
      apply moves_bind
      · exact insertSavingsTransaction_writes htx (fun t n hn => h t n t.entries hn) _ _ _ _
      · intro _
        exact moves_pure _

/-- What assessing and collecting a fee writes moves the tables by `R`. -/
structure FeeFrame (R : Tables → Tables → Prop) : Prop where
  rows : ∀ (t : Tables) n es as cs, t.nextId ≤ n → R t { t with
    nextId := n, entries := es, feeAssessments := as, feeCollections := cs }
  debits : ∀ (t : Tables) (tx : SavingsTransaction), tx.transactionType = .systemDebit →
    R t { t with savingsTransactions := t.savingsTransactions ++ [tx] }

omit [IsPreorder Tables R] in
theorem FeeFrame.entries (h : FeeFrame R) (t : Tables) (n : ℕ) (es : List JournalEntry)
    (hn : t.nextId ≤ n) : R t { t with nextId := n, entries := es } :=
  h.rows t n es t.feeAssessments t.feeCollections hn

theorem autoCollect_writes (h : FeeFrame R) (assessment : FeeAssessment) (feeType : FeeType)
    (receivableAccountId : Uuid) (key : String) :
    Moves R (autoCollect assessment feeType receivableAccountId key) := by
  unfold autoCollect
  apply moves_bind moves_get
  intro t
  split
  · exact moves_pure _
  · apply moves_bind (systemDebit_writes h.entries h.debits _ _)
    intro result
    split
    · exact moves_pure _
    · apply moves_bind
      · unfold insertFeeCollection
        apply moves_bind (moves_writeMoney _)
        intro amount
        apply moves_bind (moves_constraint _ _)
        intro _
        apply moves_bind moves_get
        intro t
        apply moves_bind (moves_constraint _ _)
        intro _
        apply moves_bind
        · exact moves_freshId fun t => h.entries t (t.nextId + 1) t.entries (Nat.le_succ _)
        intro id
        apply moves_bind
        · exact moves_modify fun t => h.rows t t.nextId t.entries t.feeAssessments _ le_rfl
        · intro _
          exact moves_pure _
      intro id
      apply moves_bind
      · exact moves_modify fun t => h.rows t t.nextId t.entries _ t.feeCollections le_rfl
      · intro _
        exact moves_pure _

theorem assess_writes (h : FeeFrame R) (a : AssessIn) : Moves R (assess a) := by
  unfold assess
  apply moves_bind moves_get
  intro t
  split
  · exact moves_pure _
  · iterate 2
      apply moves_bind (moves_orRaise _ _)
      intro _
    apply moves_bind
    · unfold insertAssessment
      apply moves_bind (postJournalEntry_writes h.entries _ _ _ _ _)
      intro entryId
      apply moves_bind (moves_constraint _ _)
      intro _
      apply moves_bind
      · exact moves_freshId fun t => h.entries t (t.nextId + 1) t.entries (Nat.le_succ _)
      intro id
      apply moves_bind
      · exact moves_modify fun t => h.rows t t.nextId t.entries _ t.feeCollections le_rfl
      · intro _
        exact moves_pure _
    intro row
    apply moves_bind
    · apply moves_when
      apply moves_bind (autoCollect_writes h _ _ _ _)
      intro _
      exact moves_pure _
    · intro _
      exact moves_pure _

theorem retryPartial_writes (h : FeeFrame R) (today : Date) : Moves R (retryPartial today) := by
  unfold retryPartial
  apply moves_bind moves_get
  intro t
  apply moves_forEach
  intro a _
  apply moves_bind _ fun _ => moves_pure _
  apply moves_savepoint
  unfold retryAssessment
  apply moves_bind moves_get
  intro t
  split
  · exact moves_pure _
  · split
    · exact moves_pure _
    · apply moves_bind (autoCollect_writes h _ _ _ _)
      intro _
      exact moves_pure _

/-! ## Executors of the tenant modules -/

theorem executeApproveApplication_writes
    (h : ∀ (t : Tables) rows, R t { t with applications := rows })
    (payload : ApproveApplicationPayload) :
    Moves R (executeApproveApplication payload) := by
  unfold executeApproveApplication
  iterate 3
    apply moves_bind (moves_orRaise _ _)
    intro _
  apply moves_bind moves_get
  intro t
  apply moves_bind (moves_orRaise _ _)
  intro application
  split
  · exact moves_pure _
  · apply moves_bind (moves_writeMoney _)
    intro amount
    apply moves_bind (moves_writeInteger _)
    intro termPeriods
    apply moves_bind
    · exact moves_modify fun t => h t _
    · intro _
      exact publishNotification_unchanged _ _

theorem executePostJournalEntry_writes
    (h : ∀ (t : Tables) n es, t.nextId ≤ n → R t { t with nextId := n, entries := es })
    (payload : JournalEntryPayload) : Moves R (executePostJournalEntry payload) := by
  unfold executePostJournalEntry
  iterate 5
    apply moves_bind (moves_orRaise _ _)
    intro _
  apply moves_bind (postJournalEntry_writes h _ _ _ _ _)
  intro _
  exact moves_pure _

theorem executeChangeStatus_writes
    (h : ∀ (t : Tables) n rows, t.nextId ≤ n → R t { t with nextId := n, members := rows })
    (hout : ∀ (t : Tables) n id member,
      t.nextId ≤ n → R t { t with nextId := n, outbox := t.outbox ++ [⟨id, .memberActivated member⟩] })
    (today : Date) (payload : ChangeStatusPayload) :
    Moves R (executeChangeStatus today payload) := by
  unfold executeChangeStatus
  iterate 2
    apply moves_bind (moves_orRaise _ _)
    intro _
  apply moves_bind moves_get
  intro t
  apply moves_bind (moves_orRaise _ _)
  intro member
  split
  · exact moves_abort
  · apply moves_bind
    · exact moves_modify fun t => h t t.nextId _ le_rfl
    · intro _
      exact moves_when (publish_writes _ (fun t n id hn => hout t n id _ hn) fun t n hn => h t n t.members hn)

theorem executeRedeemShares_writes
    (h : ∀ (t : Tables) n es txs,
      t.nextId ≤ n → R t { t with nextId := n, entries := es, shareTransactions := txs })
    (payload : RedeemPayload) : Moves R (executeRedeemShares payload) := by
  unfold executeRedeemShares
  iterate 7
    apply moves_bind (moves_orRaise _ _)
    intro _
  apply moves_bind
  · exact postJournalEntry_writes (fun t n es hn => h t n es t.shareTransactions hn) _ _ _ _ _
  · intro entryId
    apply moves_bind
    · exact insertShareTransaction_writes (fun t n txs hn => h t n t.entries txs hn) _ _ _ _ _ _
    · intro _
      exact moves_pure _

theorem executeWithdraw_writes
    (h : ∀ (t : Tables) n es, t.nextId ≤ n → R t { t with nextId := n, entries := es })
    (htx : ∀ (t : Tables) (tx : SavingsTransaction), tx.transactionType = .withdrawal →
      R t { t with savingsTransactions := t.savingsTransactions ++ [tx] })
    (payload : WithdrawPayload) : Moves R (executeWithdraw payload) := by
  unfold executeWithdraw
  iterate 6
    apply moves_bind (moves_orRaise _ _)
    intro _
  apply moves_bind moves_get
  intro t
  split
  · exact moves_pure _
  · apply moves_bind
    · exact postJournalEntry_writes h _ _ _ _ _
    · intro entryId
      apply moves_bind (moves_constraint _ _)
      intro _
      apply moves_bind
      · exact insertSavingsTransaction_writes htx (fun t n hn => h t n t.entries hn) _ _ _ _
      · intro _
        exact moves_pure _

theorem executeWriteOff_writes
    (h : ∀ (t : Tables) n es loans gs ls,
      t.nextId ≤ n → R t { t with nextId := n, entries := es, loans := loans, guarantors := gs, liens := ls })
    (hout : ∀ (t : Tables) n id loan amount,
      t.nextId ≤ n → R t { t with nextId := n, outbox := t.outbox ++ [⟨id, .loanWrittenOff loan amount⟩] })
    (payload : WriteOffPayload) : Moves R (executeWriteOff payload) := by
  unfold executeWriteOff
  iterate 4
    apply moves_bind (moves_orRaise _ _)
    intro _
  apply moves_bind moves_get
  intro t
  split
  · exact moves_pure _
  · apply moves_bind (moves_orRaise _ _)
    intro loan
    apply moves_bind _ fun _ => moves_pure _
    unfold executeWriteOffOn
    apply moves_bind moves_get
    intro t
    apply moves_bind (moves_orRaise _ _)
    intro loanLoss
    apply moves_bind
    · exact postJournalEntry_writes
        (fun t n es hn => h t n es t.loans t.guarantors t.liens hn) _ _ _ _ _
    · intro entryId
      apply moves_bind
      · exact saveLoan_writes (fun t loans => h t t.nextId t.entries loans t.guarantors t.liens le_rfl) _ _ _
      · intro _
        apply moves_bind
        · exact moves_modify fun t => h t t.nextId t.entries t.loans _ _ le_rfl
        · intro _
          apply moves_bind
          · exact publish_writes _ (fun t n id hn => hout t n id _ _ hn)
              fun t n hn => h t n t.entries t.loans t.guarantors t.liens hn
          · intro _
            exact moves_pure _

theorem recordExternalDebit_writes
    (h : ∀ (t : Tables) (tx : SavingsTransaction), tx.transactionType = .externalDebit →
      R t { t with savingsTransactions := t.savingsTransactions ++ [tx] })
    (hid : ∀ (t : Tables) n, t.nextId ≤ n → R t { t with nextId := n })
    (accountId : Uuid) (amount : ℚ) (entryId : Uuid) (key : String) :
    Moves R (recordExternalDebit accountId amount entryId key) := by
  unfold recordExternalDebit
  apply moves_bind moves_get
  intro t
  split
  · exact moves_pure _
  · apply moves_bind (moves_orRaise _ _)
    intro _
    exact insertSavingsTransaction_writes h hid _ _ _ _

theorem insertRepayment_writes
    (h : ∀ (t : Tables) n rows, t.nextId ≤ n → R t { t with nextId := n, repayments := rows })
    (loanId : Uuid) (amount : ℚ) (a : Allocation) (accountId entryId : Uuid) (key : String) :
    Moves R (insertRepayment loanId amount a accountId entryId key) := by
  unfold insertRepayment
  iterate 5
    apply moves_bind (moves_writeMoney _)
    intro _
  iterate 5
    apply moves_bind (moves_constraint _ _)
    intro _
  apply moves_bind (moves_freshId fun t => h t (t.nextId + 1) t.repayments (Nat.le_succ _))
  intro id
  apply moves_bind
  · exact moves_modify fun t => h t t.nextId _ le_rfl
  · intro _
    exact moves_pure _

/-- The events that a repayment may publish. -/
def EventBody.IsRepayment : EventBody → Prop
  | loanRepaymentPosted _ _ | loanClosed _ => True
  | _ => False

/-- What a repayment writes moves the tables by `R`. -/
structure RepaymentFrame (R : Tables → Tables → Prop) : Prop where
  rows : ∀ (t : Tables) n es loans gs ls reps insts,
    t.nextId ≤ n → R t { t with
      nextId := n, entries := es, loans := loans, guarantors := gs, liens := ls
      repayments := reps, installments := insts }
  debits : ∀ (t : Tables) (tx : SavingsTransaction), tx.transactionType = .externalDebit →
    R t { t with savingsTransactions := t.savingsTransactions ++ [tx] }
  events : ∀ (t : Tables) n id body, body.IsRepayment → t.nextId ≤ n →
    R t { t with nextId := n, outbox := t.outbox ++ [⟨id, body⟩] }

omit [IsPreorder Tables R] in
theorem RepaymentFrame.ids (h : RepaymentFrame R) (t : Tables) (n : ℕ) (hn : t.nextId ≤ n) :
    R t { t with nextId := n } :=
  h.rows t n t.entries t.loans t.guarantors t.liens t.repayments t.installments hn

theorem recordRepayment_writes (h : RepaymentFrame R) (ar : LienArithmetic) (r : RepaymentIn)
    (loan : Loan) (a : Allocation) (entryId : Uuid) :
    Moves R (recordRepayment ar r loan a entryId) := by
  have hpublish : ∀ body : EventBody, body.IsRepayment → Moves R (publish body) :=
    fun body hbody => publish_writes body (fun t n id hn => h.events t n id body hbody hn) h.ids
  unfold recordRepayment
  apply moves_bind
  · exact saveLoan_writes (fun t loans => h.rows t t.nextId t.entries loans t.guarantors t.liens
      t.repayments t.installments le_rfl) _ _ _
  intro _
  apply moves_bind
  · exact moves_modify fun t => h.rows t t.nextId t.entries t.loans _ _ t.repayments
      t.installments le_rfl
  intro _
  apply moves_bind
  · exact insertRepayment_writes (fun t n reps hn => h.rows t n t.entries t.loans t.guarantors
      t.liens reps t.installments hn) _ _ _ _ _ _
  intro id
  apply moves_bind
  · apply (updateInstallments_moves _ _ _).mono
    rintro t t' ⟨rows, rfl⟩
    exact h.rows t t.nextId t.entries t.loans t.guarantors t.liens t.repayments rows le_rfl
  intro _
  apply moves_bind
  · unfold debitSavings
    split
    · exact moves_pure _
    · apply moves_bind (recordExternalDebit_writes h.debits h.ids _ _ _ _)
      intro _
      exact moves_pure _
  intro _
  apply moves_bind (hpublish (.loanRepaymentPosted loan.id r.amount) trivial)
  intro _
  apply moves_bind (moves_when (hpublish (.loanClosed loan.id) trivial))
  intro _
  exact moves_pure _

theorem applyRepayment_writes (h : RepaymentFrame R) (ar : LienArithmetic) (r : RepaymentIn) :
    Moves R (applyRepayment ar r) := by
  unfold applyRepayment
  apply moves_bind moves_get
  intro t
  split
  · exact moves_pure _
  · apply moves_bind (moves_orRaise _ _)
    intro loan
    iterate 2
      apply moves_bind (moves_require _ _)
      intro _
    apply moves_bind
    · exact postJournalEntry_writes (fun t n es hn => h.rows t n es t.loans t.guarantors t.liens
        t.repayments t.installments hn) _ _ _ _ _
    · intro entryId
      exact recordRepayment_writes h ar r loan _ entryId

/-- A payroll batch writes its own rows and what repayments write. -/
theorem startPayrollBatch_writes (h : RepaymentFrame R)
    (hrows : ∀ (t : Tables) bs ls, R t { t with batches := bs, batchLines := ls })
    (ar : LienArithmetic) (payload : PayrollPayload) :
    Moves R (startPayrollBatch ar payload) := by
  have hbatch : ∀ row, Moves R (modify (·.putBatch row) : Call Unit) :=
    fun row => moves_modify fun t => hrows t _ t.batchLines
  have hline : ∀ row, Moves R (modify (·.putBatchLine row) : Call Unit) :=
    fun row => moves_modify fun t => hrows t t.batches _
  unfold startPayrollBatch
  iterate 2
    apply moves_bind (moves_orRaise _ _)
    intro _
  apply moves_bind moves_get
  intro t
  apply moves_bind (moves_orRaise _ _)
  intro batch
  split
  · exact moves_pure _
  · apply moves_bind (moves_when (hbatch _))
    intro _
    unfold applyBatch
    apply moves_bind moves_get
    intro t
    apply moves_bind (moves_orRaise _ _)
    intro batch
    apply moves_bind (moves_require _ _)
    intro _
    split
    · apply moves_bind
      · unfold applyBatchLine
        split
        · exact hline _
        · apply moves_bind (moves_attempt (applyRepayment_writes h ar _))
          intro result
          cases result with
          | ok id => exact hline _
          | error e => exact hline _
      · intro _
        exact moves_pure _
    · apply moves_bind (hbatch _)
      intro _
      exact moves_pure _

theorem executeApplyPayrollBatch_writes (h : RepaymentFrame R)
    (hrows : ∀ (t : Tables) bs ls, R t { t with batches := bs, batchLines := ls })
    (ar : LienArithmetic) (payload : PayrollPayload) :
    Moves R (executeApplyPayrollBatch ar payload) := by
  unfold executeApplyPayrollBatch
  apply moves_bind (startPayrollBatch_writes h hrows ar payload)
  intro progress
  exact moves_when moves_abort

theorem payrollOwnCommit_writes (h : RepaymentFrame R)
    (hrows : ∀ (t : Tables) bs ls, R t { t with batches := bs, batchLines := ls })
    {ar : LienArithmetic} {payload : PayrollPayload} {t t' : Tables}
    (hcommit : payrollOwnCommit ar payload t = some t') : R t t' := by
  unfold payrollOwnCommit at hcommit
  split at hcommit
  · cases hcommit
  · rename_i hok
    cases hcommit
    exact (startPayrollBatch_writes h hrows ar payload).ok hok
  · cases hcommit

section Restructuring

variable (h : ∀ (t : Tables) n loans insts rows,
  t.nextId ≤ n → R t { t with nextId := n, loans := loans, installments := insts, restructurings := rows })
include h

theorem insertRestructuring_writes (loanId : Uuid) (type : String) (periodsAdded : ℤ)
    (schedule : NewSchedule) (approvalRequestId : Option Uuid) (idempotencyKey : String) :
    Moves R (insertRestructuring loanId type periodsAdded schedule approvalRequestId
      idempotencyKey) := by
  unfold insertRestructuring
  split
  · exact moves_abort
  · apply moves_bind (moves_writeInteger _)
    intro periods
    apply moves_bind (moves_constraint _ _)
    intro _
    apply moves_bind
    · exact moves_freshId fun t =>
        h t (t.nextId + 1) t.loans t.installments t.restructurings (Nat.le_succ _)
    intro id
    apply moves_bind
    · exact moves_modify fun t => h t t.nextId t.loans t.installments _ le_rfl
    · intro _
      exact moves_pure _

variable (hout : ∀ (t : Tables) n id loan,
  t.nextId ≤ n → R t { t with nextId := n, outbox := t.outbox ++ [⟨id, .loanRestructured loan⟩] })
include hout

theorem recordRestructuring_writes (loan : Loan) (type : String) (periodsAdded : ℤ)
    (schedule : NewSchedule) (approvalRequestId : Option Uuid) (idempotencyKey : String) :
    Moves R (recordRestructuring loan type periodsAdded schedule approvalRequestId
      idempotencyKey) := by
  unfold recordRestructuring
  apply moves_bind (moves_writeInteger _)
  intro termPeriods
  apply moves_bind
  · exact saveLoan_writes (fun t loans =>
      h t t.nextId loans t.installments t.restructurings le_rfl) _ _ _
  intro _
  apply moves_bind (insertRestructuring_writes h _ _ _ _ _ _)
  intro id
  -- the new instalments get the id of the restructuring
  apply moves_bind
  · exact moves_modify fun t => h t t.nextId t.loans _ t.restructurings le_rfl
  intro _
  apply moves_bind
  · exact publish_writes _ (fun t n id hn => hout t n id _ hn)
      fun t n hn => h t n t.loans t.installments t.restructurings hn
  · intro _
    exact moves_pure _

theorem executeRestructureSchedule_writes (today : Date) (payload : RestructurePayload) :
    Moves R (executeRestructureSchedule today payload) := by
  unfold executeRestructureSchedule
  iterate 6
    apply moves_bind (moves_orRaise _ _)
    intro _
  apply moves_bind _ fun _ => moves_pure _
  unfold executeRestructuringOn
  apply moves_bind moves_get
  intro t
  split
  · -- the idempotency key names an earlier restructuring
    exact moves_pure _
  · apply moves_bind (moves_orRaise _ _)
    intro loan
    apply moves_bind
    · apply (replaceSchedule_moves _ _ _ _).mono
      rintro t t' ⟨n, rows, hn, rfl⟩
      exact h t n t.loans rows t.restructurings hn
    intro schedule
    exact recordRestructuring_writes h hout _ _ _ _ _ _

end Restructuring

/-! ## Executors of the platform -/

/-- The executors of the platform write the tables of its schema. -/
def Operation.OnPlatform : Operation → Prop
  | updateSensitive _ | startImpersonation _ | confirmPayment _ | voidInvoice _ _
  | cancelSubscription _ _ | tenantSuspend _ | tenantCancel _ | retryProvisioning _ => True
  | _ => False

section Platform

variable (h : ∀ (t : Tables) n p, t.nextId ≤ n → R t { t with nextId := n, platform := p })
include h

omit [IsPreorder Tables R] in
theorem modifyPlatform_writes (g : PlatformTables → PlatformTables) :
    Moves R (modifyPlatform g) :=
  moves_modify fun t => h t t.nextId _ le_rfl

theorem executeUpdateSensitive_writes (payload : UpdateSensitivePayload) :
    Moves R (executeUpdateSensitive payload) := by
  unfold executeUpdateSensitive
  apply moves_bind (moves_orRaise _ _)
  intro userId
  apply moves_bind moves_get
  intro t
  apply moves_bind (moves_orRaise _ _)
  intro user
  apply moves_bind (moves_constraint _ _)
  intro _
  exact modifyPlatform_writes h _

theorem executeStartImpersonation_writes (payload : ImpersonationPayload) (requestId : Uuid) :
    Moves R (executeStartImpersonation payload requestId) := by
  unfold executeStartImpersonation
  iterate 3
    apply moves_bind (moves_orRaise _ _)
    intro _
  apply moves_bind moves_get
  intro t
  split
  · -- the session of this request is there already
    exact moves_pure _
  · iterate 2
      apply moves_bind (moves_constraint _ _)
      intro _
    apply moves_bind (moves_freshId fun t => h t (t.nextId + 1) t.platform (Nat.le_succ _))
    intro id
    exact modifyPlatform_writes h _

theorem confirmPayment_writes (paymentId : Uuid) : Moves R (confirmPayment paymentId) := by
  unfold confirmPayment
  apply moves_bind moves_get
  intro t
  apply moves_bind (moves_orRaise _ _)
  intro payment
  apply moves_bind (moves_require _ _)
  intro _
  apply moves_bind (moves_orRaise _ _)
  intro invoice
  apply moves_bind (moves_require _ _)
  intro _
  apply moves_bind (moves_writeMoney _)
  intro amountPaid
  exact modifyPlatform_writes h _

theorem executeConfirmPayment_writes (paymentId : Option Uuid) :
    Moves R (executeConfirmPayment paymentId) := by
  unfold executeConfirmPayment
  apply moves_bind (moves_orRaise _ _)
  intro paymentId
  apply moves_bind moves_get
  intro t
  split
  · -- the payment is confirmed already
    exact moves_pure _
  · exact confirmPayment_writes h _

theorem voidInvoice_writes (invoiceId : Uuid) (reason : String) :
    Moves R (voidInvoice invoiceId reason) := by
  unfold voidInvoice
  apply moves_bind moves_get
  intro t
  apply moves_bind (moves_orRaise _ _)
  intro invoice
  iterate 2
    apply moves_bind (moves_require _ _)
    intro _
  exact modifyPlatform_writes h _

theorem executeVoidInvoice_writes (invoiceId : Option Uuid) (reason : Option String) :
    Moves R (executeVoidInvoice invoiceId reason) := by
  unfold executeVoidInvoice
  iterate 2
    apply moves_bind (moves_orRaise _ _)
    intro _
  apply moves_bind moves_get
  intro t
  split
  · exact moves_pure _
  · exact voidInvoice_writes h _ _

theorem cancelSubscription_writes (subscriptionId : Uuid) (reason : String) :
    Moves R (cancelSubscription subscriptionId reason) := by
  unfold cancelSubscription
  apply moves_bind moves_get
  intro t
  apply moves_bind (moves_orRaise _ _)
  intro sub
  apply moves_bind (moves_require _ _)
  intro _
  apply moves_bind (modifyPlatform_writes h _)
  intro _
  apply moves_bind (moves_orRaise _ _)
  intro tenant
  exact modifyPlatform_writes h _

theorem executeCancelSubscription_writes (subscriptionId : Option Uuid) (reason : Option String) :
    Moves R (executeCancelSubscription subscriptionId reason) := by
  unfold executeCancelSubscription
  iterate 2
    apply moves_bind (moves_orRaise _ _)
    intro _
  apply moves_bind moves_get
  intro t
  split
  · exact moves_pure _
  · exact cancelSubscription_writes h _ _

theorem executeTenantSuspend_writes (tenantId : Option Uuid) :
    Moves R (executeTenantSuspend tenantId) := by
  unfold executeTenantSuspend
  apply moves_bind (moves_orRaise _ _)
  intro tenantId
  apply moves_bind moves_get
  intro t
  apply moves_bind (moves_orRaise _ _)
  intro tenant
  exact moves_when (modifyPlatform_writes h _)

theorem transitionTenant_writes (tenant : Tenant) (toState : LifecycleState) (actorId : Uuid) :
    Moves R (transitionTenant tenant toState actorId) := by
  unfold transitionTenant
  apply moves_bind moves_get
  intro t
  apply moves_bind (moves_constraint _ _)
  intro _
  exact modifyPlatform_writes h _

theorem executeTenantCancel_writes (payload : TenantCancelPayload) :
    Moves R (executeTenantCancel payload) := by
  unfold executeTenantCancel
  iterate 3
    apply moves_bind (moves_orRaise _ _)
    intro _
  apply moves_bind moves_get
  intro t
  apply moves_bind (moves_orRaise _ _)
  intro tenant
  apply moves_bind (moves_require _ _)
  intro _
  apply moves_bind (transitionTenant_writes h _ _ _)
  intro _
  -- the current subscription of the tenant, if there is one, goes with it
  split
  · exact cancelSubscription_writes h _ _
  · exact moves_pure _

theorem executePlatform_writes (env : Surroundings) (requestId : Uuid) {op : Operation}
    (hop : op.OnPlatform) : Moves R (op.execute env requestId) := by
  cases op <;> unfold Operation.execute
  case updateSensitive payload => exact executeUpdateSensitive_writes h payload
  case startImpersonation payload => exact executeStartImpersonation_writes h payload requestId
  case confirmPayment paymentId => exact executeConfirmPayment_writes h paymentId
  case voidInvoice invoiceId reason => exact executeVoidInvoice_writes h invoiceId reason
  case cancelSubscription subscriptionId reason =>
    exact executeCancelSubscription_writes h subscriptionId reason
  case tenantSuspend tenantId => exact executeTenantSuspend_writes h tenantId
  case tenantCancel payload => exact executeTenantCancel_writes h payload
  case retryProvisioning tenantId =>
    -- the executor only hands the tenant to the worker
    apply moves_bind (moves_orRaise _ _)
    intro _
    exact moves_pure _
  all_goals exact hop.elim

end Platform

/-! ## All executors -/

/-- What the operation may write moves the tables by `R`. -/
def Operation.Writes (R : Tables → Tables → Prop) : Operation → Prop
  | approveApplication _ => ∀ (t : Tables) rows, R t { t with applications := rows }
  | writeOff _ =>
    (∀ (t : Tables) n es loans gs ls,
      t.nextId ≤ n → R t { t with nextId := n, entries := es, loans := loans, guarantors := gs, liens := ls }) ∧
    ∀ (t : Tables) n id loan amount,
      t.nextId ≤ n → R t { t with nextId := n, outbox := t.outbox ++ [⟨id, .loanWrittenOff loan amount⟩] }
  | restructureSchedule _ =>
    (∀ (t : Tables) n loans insts rows,
      t.nextId ≤ n → R t { t with nextId := n, loans := loans, installments := insts, restructurings := rows }) ∧
    ∀ (t : Tables) n id loan,
      t.nextId ≤ n → R t { t with nextId := n, outbox := t.outbox ++ [⟨id, .loanRestructured loan⟩] }
  | applyPayrollBatch _ =>
    RepaymentFrame R ∧ ∀ (t : Tables) bs ls, R t { t with batches := bs, batchLines := ls }
  | postJournalEntry _ => ∀ (t : Tables) n es, t.nextId ≤ n → R t { t with nextId := n, entries := es }
  | changeStatus _ =>
    (∀ (t : Tables) n rows, t.nextId ≤ n → R t { t with nextId := n, members := rows }) ∧
    ∀ (t : Tables) n id member,
      t.nextId ≤ n → R t { t with nextId := n, outbox := t.outbox ++ [⟨id, .memberActivated member⟩] }
  | redeemShares _ => ∀ (t : Tables) n es txs,
      t.nextId ≤ n → R t { t with nextId := n, entries := es, shareTransactions := txs }
  | withdraw _ =>
    (∀ (t : Tables) n es, t.nextId ≤ n → R t { t with nextId := n, entries := es }) ∧
    ∀ (t : Tables) (tx : SavingsTransaction), tx.transactionType = .withdrawal →
      R t { t with savingsTransactions := t.savingsTransactions ++ [tx] }
  | _ => ∀ (t : Tables) n p, t.nextId ≤ n → R t { t with nextId := n, platform := p }

theorem execute_writes {op : Operation} (h : op.Writes R) (env : Surroundings) (requestId : Uuid) :
    Moves R (op.execute env requestId) := by
  cases op with
  | approveApplication payload => exact executeApproveApplication_writes h payload
  | writeOff payload => exact executeWriteOff_writes h.1 h.2 payload
  | restructureSchedule payload => exact executeRestructureSchedule_writes h.1 h.2 _ _
  | applyPayrollBatch payload => exact executeApplyPayrollBatch_writes h.1 h.2 _ _
  | postJournalEntry payload => exact executePostJournalEntry_writes h payload
  | changeStatus payload => exact executeChangeStatus_writes h.1 h.2 _ _
  | redeemShares payload => exact executeRedeemShares_writes h payload
  | withdraw payload => exact executeWithdraw_writes h.1 h.2 payload
  | _ => exact executePlatform_writes h env requestId trivial

theorem ownCommit_writes {op : Operation} (h : op.Writes R) {env : Surroundings} {t t' : Tables}
    (hcommit : op.ownCommit env t = some t') : R t t' := by
  cases op with
  | applyPayrollBatch payload => exact payrollOwnCommit_writes h.1 h.2 hcommit
  | _ => cases hcommit

/-- However the execution of the request ends, the tables moved by `R`. -/
theorem executorOutcome_writes {env : Surroundings} {r : ApprovalRequest Operation}
    {t t' : Tables} {status : RequestStatus} (h : r.operation.Writes R)
    (houtcome : ExecutorOutcome (tenantHooks env) r t t' status) : R t t' := by
  rcases houtcome with ⟨hown, -⟩ | ⟨-, t₁, hleft, hnotify⟩
  · exact ownCommit_writes h hown
  · obtain rfl := notifyDecided_ok hnotify
    rcases hleft with ⟨hok, -⟩ | ⟨e, hraised, -⟩
    · exact (execute_writes h env r.id).ok hok
    · exact (execute_writes h env r.id).raised hraised

end SaccoPlatform
