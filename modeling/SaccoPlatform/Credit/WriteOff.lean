import SaccoPlatform.Credit.Balances
import SaccoPlatform.Credit.Guarantor

/-!
# Write-offs and recoveries

`LoanWriteOffService` (`app/modules/credit/services/write_off.py`) and the executor of
approved write-offs (`execute_write_off` in `app/modules/credit/executors.py`). A write-off
up to the product's threshold runs in the request; a larger one is submitted for approval
and executed later from the stored payload. Both end in `_execute_write_off`, which itself
checks neither the amount nor the status.
-/

namespace SaccoPlatform

open Lib Session

def Tables.product? (t : Tables) (id : Uuid) : Option LoanProduct :=
  t.products.find? (·.id = id)

/-- The actor of executors and beat tasks. -/
def systemActor : Uuid := 0

def Balances.writeOff (b : Balances) (amount : ℚ) : Balances :=
  { b with
    outstandingPrincipal := decimal (b.outstandingPrincipal - amount)
    totalWrittenOff := decimal (b.totalWrittenOff + amount) }

def Balances.recover (b : Balances) (amount : ℚ) : Balances :=
  { b with
    outstandingPrincipal := decimal (b.outstandingPrincipal + amount)
    totalWrittenOff := decimal (b.totalWrittenOff - amount) }

/-- `written_off` once nothing is outstanding. -/
def Loan.statusAfterWriteOff (loan : Loan) (amount : ℚ) : LoanStatus :=
  if (loan.balances.writeOff amount).outstandingPrincipal = 0 then .writtenOff else loan.status

/-- Dr loan loss expense / Cr principal receivable. -/
def writeOffLines (loan : Loan) (loanLossId : Uuid) (amount : ℚ) : List LineIn :=
  [.loanDebit loanLossId amount loan.id, .loanCredit loan.glPrincipalReceivableId amount loan.id]

/-- Dr principal receivable / Cr loan loss expense. -/
def recoveryLines (loan : Loan) (loanLossId : Uuid) (amount : ℚ) : List LineIn :=
  [.loanDebit loan.glPrincipalReceivableId amount loan.id, .loanCredit loanLossId amount loan.id]

/-- `_execute_write_off`; returns the journal entry. -/
def executeWriteOffOn (loan : Loan) (amount : ℚ) (reason : String) (actorId : Uuid)
    (idemKey loanLossAccountCode : String) : Call Uuid := do
  let t ← get
  let loanLoss ← orRaise (t.account? loanLossAccountCode)
    (.valueError s!"GL account '{loanLossAccountCode}' not found for loan loss expense")
  let entryId ← postJournalEntry s!"LOAN-WO-{loan.id}" s!"Write-off: {reason}" actorId idemKey
    (writeOffLines loan loanLoss.id amount)
  let _ ← saveLoan loan (loan.balances.writeOff amount) (loan.statusAfterWriteOff amount)
  modifyGuarantees (·.releaseLiens loan.id)
  publish (.loanWrittenOff loan.id amount)
  pure entryId

/-- The arguments of `write_off`. -/
structure WriteOffIn where
  loanId : Uuid
  amount : ℚ
  reason : String
  actorId : Uuid
  idempotencyKey : String
  loanLossAccountCode : String
deriving DecidableEq, Repr

/-- The payload of a `credit.write_off` request. `none` is a key that is missing or does not
parse. -/
structure WriteOffPayload where
  loanId : Option Uuid
  amount : Option ℚ
  reason : Option String
  idempotencyKey : Option String
  loanLossAccountCode : Option String
deriving DecidableEq, Repr

/-- How `write_off` ends: executed at once, or with a payload to submit for approval by two
users. -/
inductive WriteOffResult where
  | direct (journalEntryId : Uuid)
  | submit (payload : WriteOffPayload)
deriving DecidableEq, Repr

/-- `LoanWriteOffService.write_off`. -/
def writeOff (w : WriteOffIn) : Call WriteOffResult := do
  let t ← get
  match t.entry? (creditKey .writeOff w.idempotencyKey) with
  | some existing => pure (.direct existing.id)
  | none =>
    let loan ← orRaise (t.loan? w.loanId) (.valueError s!"Loan '{w.loanId}' not found")
    require (loan.status ≠ .writtenOff)
      (.valueError s!"Loan '{w.loanId}' is already written_off — cannot write off again")
    require (w.amount ≤ loan.outstandingPrincipal.val)
      (.valueError (s!"Write-off amount {w.amount} exceeds outstanding_principal " ++
        s!"{loan.outstandingPrincipal.val} for loan '{w.loanId}'"))
    let product ← orRaise (t.product? loan.loanProductId)
      (.valueError s!"LoanProduct '{loan.loanProductId}' not found")
    if product.writeOffThreshold.val < w.amount then
      pure (.submit ⟨w.loanId, w.amount, w.reason, w.idempotencyKey, w.loanLossAccountCode⟩)
    else
      let entryId ← executeWriteOffOn loan w.amount w.reason w.actorId
        (creditKey .writeOff w.idempotencyKey) w.loanLossAccountCode
      pure (.direct entryId)

/-- `execute_write_off`, the executor of an approved write-off. -/
def executeWriteOff (payload : WriteOffPayload) : Call Unit := do
  let loanId ← orRaise payload.loanId (.keyError "loan_id")
  let amount ← orRaise payload.amount (.keyError "amount")
  let reason ← orRaise payload.reason (.keyError "reason")
  let idempotencyKey ← orRaise payload.idempotencyKey (.keyError "idempotency_key")
  let t ← get
  match t.entry? (creditKey .writeOff idempotencyKey) with
  | some _ => pure ()
  | none =>
    let loan ← orRaise (t.loan? loanId)
      (.valueError s!"Loan {loanId} not found in write_off executor")
    let _ ← executeWriteOffOn loan amount reason systemActor (creditKey .writeOff idempotencyKey)
      (payload.loanLossAccountCode.getD "5100")

/-- The arguments of `recover`. -/
structure RecoverIn where
  loanId : Uuid
  amount : ℚ
  reason : String
  actorId : Uuid
  idempotencyKey : String
deriving DecidableEq, Repr

/-- `LoanWriteOffService.recover`; returns the journal entry. -/
def recover (ar : LienArithmetic) (w : RecoverIn) : Call Uuid := do
  let t ← get
  match t.entry? (creditKey .recovery w.idempotencyKey) with
  | some existing => pure existing.id
  | none =>
    let loan ← orRaise (t.loan? w.loanId) (.valueError s!"Loan '{w.loanId}' not found")
    require (loan.status = .writtenOff)
      (.valueError (s!"Loan '{w.loanId}' is not written_off (status='{loan.status.text}'). " ++
        "Only written_off loans can be recovered."))
    require (0 < w.amount)
      (.valueError s!"Recovery amount must be greater than 0, got {w.amount}")
    require (w.amount ≤ loan.totalWrittenOff.val)
      (.valueError (s!"Recovery amount {w.amount} exceeds total_written_off " ++
        s!"{loan.totalWrittenOff.val} for loan '{w.loanId}'"))
    let loanLossId ← orRaise loan.glLoanLossExpenseId
      (.valueError s!"Loan '{w.loanId}' has no gl_loan_loss_expense_id — cannot post recovery")
    let entryId ← postJournalEntry s!"LOAN-REC-{loan.id}" s!"Write-off recovery: {w.reason}"
      w.actorId (creditKey .recovery w.idempotencyKey) (recoveryLines loan loanLossId w.amount)
    let _ ← saveLoan loan (loan.balances.recover w.amount) .inArrears
    modifyGuarantees (·.reactivateLiens ar loan.id w.amount)
    publish (.loanRecoveryPosted loan.id w.amount)
    pure entryId

/-! ## What write-offs and recoveries do -/

/-- The tables after the balances of a loan were saved and its guarantees set. -/
structure SnapshotRecorded (loan : Loan) (b : Balances) (status : LoanStatus) (gs : Guarantees)
    (row : Loan) (t t' : Tables) : Prop where
  saved : Saved loan b status row
  nextId : t.nextId ≤ t'.nextId
  loans : t'.loans = (t.putLoan row).loans
  entries : t'.entries = t.entries
  repayments : t'.repayments = t.repayments
  guarantees : t'.guarantees = gs

/-- The common end of a write-off and a recovery. -/
theorem saveAndPublish_ok {loan : Loan} {b : Balances} {status : LoanStatus}
    {f : Guarantees → Guarantees} {body : EventBody} {entryId id : Uuid} {t t' : Tables}
    (h : (do
      let _ ← saveLoan loan b status
      modifyGuarantees f
      publish body
      pure entryId : Call Uuid) t = .ok id t') :
    ∃ row, SnapshotRecorded loan b status (f t.guarantees) row t t' ∧
      t'.outbox = t.outbox ++ [⟨t.nextId, body⟩] := by
  obtain ⟨row, t₁, h₁, h⟩ := bind_eq_ok.mp h
  obtain ⟨rfl, hsaved⟩ := saveLoan_ok h₁
  simp only [modifyGuarantees, modify_bind_eq_ok, publish_bind_eq_ok, pure_eq_ok] at h
  obtain ⟨-, rfl⟩ := h
  exact ⟨row, ⟨hsaved, Nat.le_succ _, rfl, rfl, rfl, rfl⟩, rfl⟩

/-- A write-off under a new key posts its entry, takes the amount off the outstanding
principal and releases every lien of the loan. -/
theorem executeWriteOffOn_ok {loan : Loan} {amount : ℚ} {reason key code : String}
    {actorId id : Uuid} {t t' : Tables} (hkey : ∀ e ∈ t.entries, e.idempotencyKey ≠ key)
    (h : executeWriteOffOn loan amount reason actorId key code t = .ok id t') :
    ∃ loanLoss t₁ row, t.account? code = some loanLoss ∧
      Posted key (writeOffLines loan loanLoss.id amount) t t₁ ∧
      SnapshotRecorded loan (loan.balances.writeOff amount) (loan.statusAfterWriteOff amount)
        (t.guarantees.releaseLiens loan.id) row t₁ t' ∧
      t'.outbox = t.outbox ++ [⟨t₁.nextId, .loanWrittenOff loan.id amount⟩] := by
  simp only [executeWriteOffOn, get_bind_eq_ok, orRaise_bind_eq_ok] at h
  obtain ⟨loanLoss, hcode, h⟩ := h
  obtain ⟨entryId, t₁, hpost, h⟩ := bind_eq_ok.mp h
  have hposted := postJournalEntry_new hkey hpost
  obtain ⟨row, hrec, hout⟩ := saveAndPublish_ok h
  obtain ⟨e, -, -, ht₁⟩ := hposted.entry
  have hgs : t₁.guarantees = t.guarantees := by rw [ht₁]; rfl
  have hob : t₁.outbox = t.outbox := by rw [ht₁]
  rw [hgs] at hrec
  rw [hob] at hout
  exact ⟨loanLoss, t₁, row, hcode, hposted, hrec, hout⟩

/-- A write-off request is answered from an earlier entry, submitted for approval when it is
above the threshold, or executed, for at most the outstanding principal. -/
theorem writeOff_cases {w : WriteOffIn} {t t' : Tables} {res : WriteOffResult}
    (h : writeOff w t = .ok res t') :
    (∃ id, res = .direct id ∧ t' = t) ∨
    (∃ loan product, t.loan? w.loanId = some loan ∧
      t.product? loan.loanProductId = some product ∧
      product.writeOffThreshold.val < w.amount ∧ t' = t ∧
      res = .submit ⟨w.loanId, w.amount, w.reason, w.idempotencyKey, w.loanLossAccountCode⟩) ∨
    ∃ loan product id, t.loan? w.loanId = some loan ∧
      t.product? loan.loanProductId = some product ∧
      w.amount ≤ loan.outstandingPrincipal.val ∧ w.amount ≤ product.writeOffThreshold.val ∧
      (∀ e ∈ t.entries, e.idempotencyKey ≠ creditKey .writeOff w.idempotencyKey) ∧
      res = .direct id ∧
      executeWriteOffOn loan w.amount w.reason w.actorId (creditKey .writeOff w.idempotencyKey)
        w.loanLossAccountCode t = .ok id t' := by
  simp only [writeOff, get_bind_eq_ok] at h
  cases hk : t.entry? (creditKey .writeOff w.idempotencyKey) with
  | some existing =>
    rw [hk] at h
    obtain ⟨rfl, rfl⟩ := pure_eq_ok.mp h
    exact .inl ⟨_, rfl, rfl⟩
  | none =>
    simp only [hk, orRaise_bind_eq_ok, require_bind_eq_ok] at h
    obtain ⟨loan, hloan, -, hle, product, hproduct, h⟩ := h
    by_cases hlarge : product.writeOffThreshold.val < w.amount
    · rw [if_pos hlarge] at h
      obtain ⟨rfl, rfl⟩ := pure_eq_ok.mp h
      exact .inr (.inl ⟨loan, product, hloan, hproduct, hlarge, rfl, rfl⟩)
    · rw [if_neg hlarge] at h
      obtain ⟨id, t₁, hexec, h⟩ := bind_eq_ok.mp h
      obtain ⟨rfl, rfl⟩ := pure_eq_ok.mp h
      exact .inr (.inr ⟨loan, product, id, hloan, hproduct, hle, not_lt.mp hlarge,
        entry?_eq_none.mp hk, rfl, hexec⟩)

/-- A write-off request changes nothing, or is executed for at most its threshold. -/
theorem writeOff_ok {w : WriteOffIn} {t t' : Tables} {res : WriteOffResult}
    (h : writeOff w t = .ok res t') :
    t' = t ∨ ∃ loan product id, t.loan? w.loanId = some loan ∧
      t.product? loan.loanProductId = some product ∧
      w.amount ≤ product.writeOffThreshold.val ∧
      (∀ e ∈ t.entries, e.idempotencyKey ≠ creditKey .writeOff w.idempotencyKey) ∧
      executeWriteOffOn loan w.amount w.reason w.actorId (creditKey .writeOff w.idempotencyKey)
        w.loanLossAccountCode t = .ok id t' := by
  rcases writeOff_cases h with ⟨-, -, rfl⟩ | ⟨-, -, -, -, -, rfl, -⟩ |
    ⟨loan, product, id, hloan, hproduct, -, hsmall, hkey, -, hexec⟩
  · exact .inl rfl
  · exact .inl rfl
  · exact .inr ⟨loan, product, id, hloan, hproduct, hsmall, hkey, hexec⟩

/-- The executor finds the entry of the payload's key, or writes off the payload's amount. -/
theorem executeWriteOff_ok {payload : WriteOffPayload} {t t' : Tables} {u : Unit}
    (h : executeWriteOff payload t = .ok u t') :
    t' = t ∨ ∃ loanId amount reason key loan id, payload.loanId = some loanId ∧
      payload.amount = some amount ∧ t.loan? loanId = some loan ∧
      (∀ e ∈ t.entries, e.idempotencyKey ≠ creditKey .writeOff key) ∧
      executeWriteOffOn loan amount reason systemActor (creditKey .writeOff key)
        (payload.loanLossAccountCode.getD "5100") t = .ok id t' := by
  simp only [executeWriteOff, orRaise_bind_eq_ok, get_bind_eq_ok] at h
  obtain ⟨loanId, hloanId, amount, hamount, reason, -, key, -, h⟩ := h
  cases hk : t.entry? (creditKey .writeOff key) with
  | some existing =>
    rw [hk] at h
    exact .inl (pure_eq_ok.mp h).2.symm
  | none =>
    simp only [hk, orRaise_bind_eq_ok] at h
    obtain ⟨loan, hloan, h⟩ := h
    obtain ⟨id, t₁, hexec, h⟩ := bind_eq_ok.mp h
    obtain ⟨-, rfl⟩ := pure_eq_ok.mp h
    exact .inr ⟨loanId, amount, reason, key, loan, id, hloanId, hamount, hloan,
      entry?_eq_none.mp hk, hexec⟩

/-- A recovery is answered from an earlier entry, or puts back a positive part of what was
written off and reactivates the liens. -/
theorem recover_ok {ar : LienArithmetic} {w : RecoverIn} {t t' : Tables} {id : Uuid}
    (h : recover ar w t = .ok id t') :
    t' = t ∨ ∃ loan loanLossId t₁ row, t.loan? w.loanId = some loan ∧
      loan.status = .writtenOff ∧ 0 < w.amount ∧ w.amount ≤ loan.totalWrittenOff.val ∧
      loan.glLoanLossExpenseId = some loanLossId ∧
      Posted (creditKey .recovery w.idempotencyKey) (recoveryLines loan loanLossId w.amount)
        t t₁ ∧
      SnapshotRecorded loan (loan.balances.recover w.amount) .inArrears
        (t.guarantees.reactivateLiens ar loan.id w.amount) row t₁ t' := by
  simp only [recover, get_bind_eq_ok] at h
  cases hk : t.entry? (creditKey .recovery w.idempotencyKey) with
  | some existing =>
    rw [hk] at h
    exact .inl (pure_eq_ok.mp h).2.symm
  | none =>
    simp only [hk, orRaise_bind_eq_ok, require_bind_eq_ok] at h
    obtain ⟨loan, hloan, hstatus, hpos, hle, loanLossId, hloss, h⟩ := h
    obtain ⟨entryId, t₁, hpost, h⟩ := bind_eq_ok.mp h
    have hposted := postJournalEntry_new (entry?_eq_none.mp hk) hpost
    obtain ⟨row, hrec, -⟩ := saveAndPublish_ok h
    obtain ⟨e, -, -, ht₁⟩ := hposted.entry
    have hgs : t₁.guarantees = t.guarantees := by rw [ht₁]; rfl
    rw [hgs] at hrec
    exact .inr ⟨loan, loanLossId, t₁, row, hloan, hstatus, hpos, hle, hloss, hposted, hrec⟩

/-- The executor validates before it writes. -/
theorem raisesClean_executeWriteOff (payload : WriteOffPayload) :
    RaisesClean (executeWriteOff payload) := by
  unfold executeWriteOff
  iterate 4
    apply raisesClean_orRaise_bind
    intro _ _
  apply raisesClean_get_bind
  intro t
  cases t.entry? _ with
  | some existing => exact raisesClean_pure _
  | none =>
    apply raisesClean_orRaise_bind
    intro loan _
    apply raisesClean_bind_neverRaises _ fun _ => neverRaises_pure _
    unfold executeWriteOffOn
    apply raisesClean_get_bind
    intro t
    apply raisesClean_orRaise_bind
    intro loanLoss _
    apply raisesClean_bind_neverRaises (raisesClean_postJournalEntry _ _ _ _ _)
    intro entryId
    apply neverRaises_bind (neverRaises_saveLoan _ _ _)
    intro _
    apply neverRaises_bind (neverRaises_modify _)
    intro _
    apply neverRaises_bind (neverRaises_publish _)
    intro _
    exact neverRaises_pure _

end SaccoPlatform
