import SaccoPlatform.Credit.Movements
import SaccoPlatform.Credit.Query
import SaccoPlatform.Lib.Runs

/-!
# Runs of the credit module

The operations on a tenant's loans, each a committed transaction: the endpoints, the two
approval executors, the beat tasks and the event consumer; and next to them what other
modules do in between (fee events, journal entries of their own, reference data). An
endpoint commits only when its call returns. An executor runs inside `approve`, which
swallows its exceptions and commits, so it keeps the changes made before it raised.

`step_moves` says what one operation does to the books; every invariant of runs goes
through it.
-/

namespace SaccoPlatform

open Lib Session

/-- An untagged line of a journal entry that another module posts: account, debit, credit. -/
structure ForeignLine where
  accountId : Uuid
  debitAmount : ℚ
  creditAmount : ℚ
deriving DecidableEq, Repr

def ForeignLine.line (l : ForeignLine) : LineIn :=
  ⟨l.accountId, l.debitAmount, l.creditAmount, none, none, none⟩

/-- A journal entry that another module posts. Only the credit module tags lines with a
loan. -/
structure ForeignEntry where
  reference : String
  description : String
  postedBy : Uuid
  idempotencyKey : String
  lines : List ForeignLine
deriving DecidableEq, Repr

/-- The tables that the credit module only reads. -/
structure ReferenceData where
  accounts : List ChartOfAccount
  products : List LoanProduct
  applications : List LoanApplication
  savingsAccounts : List SavingsAccount
deriving DecidableEq

/-- One committed transaction. -/
inductive CreditOp where
  | disburse (today : Date) (d : DisburseIn)
  | repay (r : RepaymentIn)
  | writeOff (w : WriteOffIn)
  | executeWriteOff (payload : WriteOffPayload)
  | recover (w : RecoverIn)
  | accrueInterest (today : Date)
  | markArrears (today : Date)
  | restructure (today : Date) (payload : RestructurePayload)
  | consumeEvents
  | feeEvent (body : EventBody)
  | foreignEntry (e : ForeignEntry)
  | reference (data : ReferenceData)

def Tables.setReference (t : Tables) (data : ReferenceData) : Tables :=
  { t with
    accounts := data.accounts
    products := data.products
    applications := data.applications
    savingsAccounts := data.savingsAccounts }

/-- The durable tables after the operation. -/
def CreditOp.step (ar : LienArithmetic) (t : Tables) : CreditOp → Tables
  | disburse today d => commit (SaccoPlatform.disburse ar today d) t
  | repay r => commit (applyRepayment ar r) t
  | writeOff w => commit (SaccoPlatform.writeOff w) t
  | executeWriteOff payload => commit (attempt (SaccoPlatform.executeWriteOff payload)) t
  | recover w => commit (SaccoPlatform.recover ar w) t
  | accrueInterest today => commit (accrueForTenant today) t
  | markArrears today => commit (markArrearsForTenant today) t
  | restructure today payload => commit (attempt (executeRestructureSchedule today payload)) t
  | consumeEvents => commit processTenantEvents t
  | feeEvent body => commit (publish body) t
  | foreignEntry e =>
    commit (postJournalEntry e.reference e.description e.postedBy e.idempotencyKey
      (e.lines.map ForeignLine.line)) t
  | reference data => t.setReference data

/-- The movements that the operation may make. -/
def CreditOp.Allows (t : Tables) (op : CreditOp) (l : Loan) (m : Movement) : Prop :=
  match op with
  | repay r => t.loan? r.loanId = some l ∧ m = .repay r.paymentAccountId r.amount
  | writeOff w => t.loan? w.loanId = some l ∧ ∃ loanLoss,
      t.account? w.loanLossAccountCode = some loanLoss ∧ m = .writeOff loanLoss.id w.amount
  | executeWriteOff payload => payload.loanId.bind t.loan? = some l ∧ ∃ loanLoss amount,
      t.account? (payload.loanLossAccountCode.getD "5100") = some loanLoss ∧
      payload.amount = some amount ∧ m = .writeOff loanLoss.id amount
  | recover w => t.loan? w.loanId = some l ∧ ∃ loanLossId,
      l.glLoanLossExpenseId = some loanLossId ∧ m = .recover loanLossId w.amount
  | accrueInterest _ => ∃ interest, m = .accrue interest
  | markArrears _ => ∃ status, m = .mark status
  | restructure _ _ => m = .reschedule
  | consumeEvents => ∃ done event rest, t.pendingEvents = done ++ event :: rest ∧
      (run consumeEvent t done).loan? l.id = some l ∧ event.body.movement? = some (l.id, m)
  | _ => False

/-- The loans that the operation may open. -/
def CreditOp.Opens (t : Tables) (op : CreditOp) (l : Loan) (account : Uuid) (booked : ℚ) : Prop :=
  match op with
  | disburse today d => DisbursedFrom t today d l account booked
  | _ => False

theorem CreditOp.Opens.disburse {t : Tables} {op : CreditOp} {l : Loan} {account : Uuid}
    {booked : ℚ} (h : op.Opens t l account booked) :
    ∃ today d, op = .disburse today d ∧ DisbursedFrom t today d l account booked := by
  cases op with
  | disburse today d => exact ⟨today, d, rfl, h⟩
  | _ => exact h.elim

theorem CreditOp.Allows.repay {t : Tables} {op : CreditOp} {l : Loan} {account : Uuid} {amount : ℚ}
    (h : op.Allows t l (.repay account amount)) :
    ∃ r, op = .repay r ∧ t.loan? r.loanId = some l ∧ amount = r.amount := by
  cases op <;> simp [CreditOp.Allows] at h
  case repay r => exact ⟨r, rfl, h.1, h.2.2⟩
  case consumeEvents =>
    obtain ⟨_, _, -, -, hm⟩ := h
    obtain ⟨_, h | h⟩ := EventBody.movement?_eq_some hm <;> cases h

/-- Journal entries of other modules stay away from the keys of the credit module. -/
def CreditOp.ForeignKeys : CreditOp → Prop
  | foreignEntry e => ¬ IsCreditKey e.idempotencyKey
  | _ => True

instance (op : CreditOp) : Decidable op.ForeignKeys := by
  induction op using CreditOp.casesOn <;> unfold CreditOp.ForeignKeys <;> infer_instance

/-- The amounts paid, written off or recovered have four decimals. -/
def CreditOp.FourDecimals : CreditOp → Prop
  | repay r => r.amount ∈ grid 4
  | writeOff w => w.amount ∈ grid 4
  | executeWriteOff payload => ∀ amount ∈ payload.amount, amount ∈ grid 4
  | recover w => w.amount ∈ grid 4
  | _ => True

instance (op : CreditOp) : Decidable op.FourDecimals := by
  induction op using CreditOp.casesOn <;> unfold CreditOp.FourDecimals <;> infer_instance

/-- The payment or loan-loss account that the operation uses is not the account in this column
of its loan. -/
def CreditOp.CounterApart (column : Loan → Uuid) (t : Tables) : CreditOp → Prop
  | repay r => ∀ l ∈ t.loan? r.loanId, r.paymentAccountId ≠ column l
  | writeOff w => ∀ l ∈ t.loan? w.loanId, ∀ a ∈ t.account? w.loanLossAccountCode, a.id ≠ column l
  | executeWriteOff payload => ∀ l ∈ payload.loanId.bind t.loan?,
      ∀ a ∈ t.account? (payload.loanLossAccountCode.getD "5100"), a.id ≠ column l
  | _ => True

instance (column : Loan → Uuid) (t : Tables) (op : CreditOp) :
    Decidable (op.CounterApart column t) := by
  cases op <;> unfold CreditOp.CounterApart <;> infer_instance

/-- The disbursement account, and the accounts of the product under the codes `others`, differ
from the account under the code `own`. -/
def CreditOp.DisbursesApart (own : LoanProduct → String) (others : LoanProduct → List String)
    (t : Tables) : CreditOp → Prop
  | disburse _ d => ∀ a ∈ t.application? d.loanApplicationId, ∀ p ∈ t.product? a.loanProductId,
      ∀ account ∈ t.account? (own p),
        (∀ disbursement ∈ a.disbursementAccountId, disbursement ≠ account.id) ∧
        ∀ code ∈ others p, ∀ other ∈ t.account? code, other.id ≠ account.id
  | _ => True

instance (own : LoanProduct → String) (others : LoanProduct → List String) (t : Tables)
    (op : CreditOp) : Decidable (op.DisbursesApart own others t) := by
  cases op <;> unfold CreditOp.DisbursesApart <;> infer_instance

/-- A tenant before its first loan: other modules may have posted entries of their own. -/
structure Tables.Genesis (t : Tables) : Prop where
  loans : t.loans = []
  installments : t.installments = []
  repayments : t.repayments = []
  liens : t.liens = []
  keys : ∀ e ∈ t.entries, ¬ IsCreditKey e.idempotencyKey
  untagged : ∀ e ∈ t.entries, ∀ line ∈ e.lines, line.subLedgerType ≠ some "loan"
  guarantorIds : (t.guarantors.map (·.id)).Nodup
  guarantors : ∀ g ∈ t.guarantors, g.loanId = none

/-! ## What one operation does to the books -/

variable {P : Loan → Movement → Prop} {D : Loan → Uuid → ℚ → Prop} {ar : LienArithmetic}

theorem SnapshotRecorded.move {l row : Loan} {m : Movement} {gs : Guarantees} {key : String}
    {t t₁ t' : Tables} (hfound : t.loan? l.id = some l) (hP : P l m) (henabled : m.Enabled l)
    (hentries : Appends (m.entries l key) t t₁) (hkey : AllIssued (m.entries l key) t')
    (hloans : t₁.loans = t.loans) (hreps : t₁.repayments = t.repayments)
    (hnext : t.nextId ≤ t₁.nextId)
    (hgs : gs = m.guarantees ar l t.guarantees)
    (h : SnapshotRecorded l (m.balances l) (m.status l) gs row t₁ t') : Move ar P D t t' := by
  refine .change l row m key hfound hP henabled h.saved (hnext.trans h.nextId) ?_ ?_ hkey ?_
    (h.guarantees.trans hgs)
  · rw [h.loans]
    unfold Tables.putLoan
    rw [hloans]
  · obtain ⟨es, hes, heq⟩ := hentries
    exact ⟨es, hes, by rw [h.entries, heq]⟩
  · rw [h.repayments, hreps]
    exact List.Subset.refl _

/-- Entries of a kind that leaves no row of its own are issued at any time. -/
theorem allIssued_of_kind {kind : EntryKind} {k : String} {lines : List LineIn} {t : Tables}
    (h : ∀ k, t.Issued k kind) : AllIssued [⟨creditKey kind k, lines⟩] t := by
  intro p hp kind' k' hk
  rw [List.mem_singleton.mp hp] at hk
  obtain ⟨rfl, rfl⟩ := creditKey_inj hk
  exact h _

theorem Posted.frame {key : String} {lines : List LineIn} {t t₁ : Tables}
    (h : Posted key lines t t₁) :
    t₁.loans = t.loans ∧ t₁.repayments = t.repayments ∧ t.nextId ≤ t₁.nextId := by
  obtain ⟨e, -, -, rfl⟩ := h.entry
  exact ⟨rfl, rfl, Nat.le_succ _⟩

theorem executeWriteOffOn_move {loan : Loan} {amount : ℚ} {reason k code : String}
    {actorId id : Uuid} {t t' : Tables} (hfound : t.loan? loan.id = some loan)
    (hP : ∀ loanLoss, t.account? code = some loanLoss → P loan (.writeOff loanLoss.id amount))
    (hkey : ∀ e ∈ t.entries, e.idempotencyKey ≠ creditKey .writeOff k)
    (h : executeWriteOffOn loan amount reason actorId (creditKey .writeOff k) code t
      = .ok id t') : Move ar P D t t' := by
  obtain ⟨loanLoss, t₁, row, hcode, hposted, hrec, -⟩ := executeWriteOffOn_ok hkey h
  obtain ⟨hloans, hreps, hnext⟩ := hposted.frame
  exact SnapshotRecorded.move (m := .writeOff loanLoss.id amount) hfound (hP loanLoss hcode)
    trivial hposted.appends (allIssued_of_kind fun _ => trivial) hloans hreps hnext rfl hrec

theorem writeOff_move {w : WriteOffIn} {t t' : Tables} {res : WriteOffResult}
    (hP : ∀ l loanLoss, t.loan? w.loanId = some l → t.account? w.loanLossAccountCode = some loanLoss →
      P l (.writeOff loanLoss.id w.amount))
    (h : SaccoPlatform.writeOff w t = .ok res t') : MovesBooks ar P D t t' := by
  rcases writeOff_ok h with rfl | ⟨loan, product, id, hloan, -, -, hkey, hexec⟩
  · exact .refl
  · obtain ⟨-, hid⟩ := loan?_eq_some hloan
    have hfound : t.loan? loan.id = some loan := by rw [hid, hloan]
    exact .single (executeWriteOffOn_move hfound (fun a ha => hP loan a hloan ha) hkey hexec)

theorem executeWriteOff_move {payload : WriteOffPayload} {t t' : Tables} {u : Unit}
    (hP : ∀ l loanLoss amount, payload.loanId.bind t.loan? = some l → payload.amount = some amount →
      t.account? (payload.loanLossAccountCode.getD "5100") = some loanLoss →
      P l (.writeOff loanLoss.id amount))
    (h : SaccoPlatform.executeWriteOff payload t = .ok u t') : MovesBooks ar P D t t' := by
  rcases executeWriteOff_ok h with
    rfl | ⟨loanId, amount, reason, key, loan, id, hloanId, hamount, hloan, hkey, hexec⟩
  · exact .refl
  · obtain ⟨-, hid⟩ := loan?_eq_some hloan
    have hfound : t.loan? loan.id = some loan := by rw [hid, hloan]
    have hpayload : payload.loanId.bind t.loan? = some loan := by
      rw [hloanId, Option.bind_some, hloan]
    exact .single (executeWriteOffOn_move hfound
      (fun a ha => hP loan a amount hpayload hamount ha) hkey hexec)

theorem recover_move {w : RecoverIn} {t t' : Tables} {id : Uuid}
    (hP : ∀ l loanLossId, t.loan? w.loanId = some l → l.glLoanLossExpenseId = some loanLossId →
      P l (.recover loanLossId w.amount))
    (h : SaccoPlatform.recover ar w t = .ok id t') : MovesBooks ar P D t t' := by
  rcases recover_ok h with
    rfl | ⟨loan, loanLossId, t₁, row, hloan, hstatus, hpos, hle, hloss, hposted, hrec⟩
  · exact .refl
  · obtain ⟨-, hid⟩ := loan?_eq_some hloan
    have hfound : t.loan? loan.id = some loan := by rw [hid, hloan]
    obtain ⟨hloans, hreps, hnext⟩ := hposted.frame
    exact .single (SnapshotRecorded.move (m := .recover loanLossId w.amount) hfound
      (hP loan loanLossId hloan hloss) ⟨hstatus, hpos, hle⟩ hposted.appends
      (allIssued_of_kind fun _ => trivial) hloans hreps hnext rfl hrec)

theorem applyRepayment_move {r : RepaymentIn} {t t' : Tables} {id : Uuid} (hbooks : BooksOk t)
    (hP : ∀ l, t.loan? r.loanId = some l → P l (.repay r.paymentAccountId r.amount))
    (h : applyRepayment ar r t = .ok id t') : MovesBooks ar P D t t' := by
  rcases applyRepayment_ok h with
    rfl | ⟨loan, row, entryId, t₁, hnew, hloan, hactive, hpost, hrec⟩
  · exact .refl
  · obtain ⟨-, hid⟩ := loan?_eq_some hloan
    have hfound : t.loan? loan.id = some loan := by rw [hid, hloan]
    -- The key is new to the ledger, because it is new to the repayments.
    have hkey : ∀ e ∈ t.entries, e.idempotencyKey ≠ creditKey .repayment r.idempotencyKey := by
      intro e he heq
      obtain ⟨rp, hrp, hk⟩ := hbooks.issued e he .repayment r.idempotencyKey heq
      exact hnew rp hrp hk
    have hposted := postJournalEntry_new hkey hpost
    obtain ⟨hloans, hreps, hnext⟩ := hposted.frame
    obtain ⟨rp, hrp, hreps'⟩ := hrec.repayments
    refine .single (.change loan row (.repay r.paymentAccountId r.amount)
      (creditKey .repayment r.idempotencyKey) hfound (hP loan hloan)
      ⟨hactive, hrec.amount_pos⟩ hrec.saved (hnext.trans hrec.nextId) ?_ ?_ ?_ ?_ ?_)
    · rw [hrec.loans]
      unfold Tables.putLoan
      rw [hloans]
    · obtain ⟨es, hes, heq⟩ := hposted.appends
      exact ⟨es, hes, by rw [hrec.entries, heq]⟩
    · intro p hp kind k hk
      rw [List.mem_singleton.mp hp] at hk
      obtain ⟨rfl, rfl⟩ := creditKey_inj hk
      exact ⟨rp, by rw [hreps']; simp, hrp.idempotencyKey⟩
    · rw [hreps', hreps]
      exact List.subset_append_left _ _
    · obtain ⟨e, -, -, ht₁⟩ := hposted.entry
      have hgs : t₁.guarantees = t.guarantees := by rw [ht₁]; rfl
      rw [hrec.guarantees, hgs]
      rfl

theorem disburse_move {today : Date} {d : DisburseIn} {t t' : Tables} {id : Uuid}
    (hbooks : BooksOk t)
    (hD : ∀ l account booked, DisbursedFrom t today d l account booked → D l account booked)
    (h : SaccoPlatform.disburse ar today d t = .ok id t') : MovesBooks ar P D t t' := by
  have hkeys : (∀ l ∈ t.loans, l.idempotencyKey ≠ d.idempotencyKey) → ∀ e ∈ t.entries,
      e.idempotencyKey ≠ creditKey .disbursement d.idempotencyKey ∧
      e.idempotencyKey ≠ creditKey .interestBooking d.idempotencyKey := by
    intro hnew e he
    refine ⟨?_, ?_⟩
    · intro heq
      obtain ⟨l, hl, hk⟩ := hbooks.issued e he .disbursement d.idempotencyKey heq
      exact hnew l hl hk
    · intro heq
      obtain ⟨l, hl, hk⟩ := hbooks.issued e he .interestBooking d.idempotencyKey heq
      exact hnew l hl hk
  rcases disburse_ok hbooks.ids hkeys h with
    rfl | ⟨loan, account, schedule, row, t₁, hid, rfl, hfrom, hopened⟩
  · exact .refl
  · obtain ⟨maturity, rfl⟩ := hopened.disbursed
    obtain ⟨_, _, _, _, _, -, -, -, -, -, -, -, _, _, _, hrow⟩ := hfrom.source
    have hstart : Opened (loan.disbursed maturity) := by
      refine ⟨rfl, hopened.principal_pos, ?_⟩
      rw [hrow]
      rfl
    obtain ⟨t₁, t₂, hn₁, hgs₁, hplace, hgs₂, hn₂⟩ := hopened.guarantees
    have hliens : LiensPlaced ar (loan.disbursed maturity) t t' :=
      ⟨hopened.fresh, t₁, t₂, (Nat.le_succ _).trans hn₁, hgs₁, hplace, hgs₂, hn₂⟩
    exact .single (.opened _ account _ (hD _ _ _ hfrom) hstart hid
      ((Nat.lt_succ_self _).trans_le hopened.nextId) hopened.loans hopened.entries
      hopened.repayments hliens)

/-! ### Beat tasks -/

theorem postAccrual_ok {loan : Loan} {inst : LoanInstallment} {t t' : Tables} {u : Unit}
    (hkey : ∀ e ∈ t.entries, e.idempotencyKey ≠ accrualKey loan.id inst.dueDate)
    (h : postAccrual loan inst t = .ok u t') :
    ∃ row t₁, Posted (accrualKey loan.id inst.dueDate)
        (interestLines loan inst.interestDue.val) t t₁ ∧
      Saved loan (loan.balances.accrue inst.interestDue.val) loan.status row ∧
      t' = t₁.putLoan row := by
  unfold postAccrual at h
  obtain ⟨_, t₁, hpost, h⟩ := bind_eq_ok.mp h
  obtain ⟨row, t₂, hsave, h⟩ := bind_eq_ok.mp h
  obtain ⟨-, rfl⟩ := pure_eq_ok.mp h
  obtain ⟨rfl, hsaved⟩ := saveLoan_ok hsave
  exact ⟨row, t₁, postJournalEntry_new hkey hpost, hsaved, rfl⟩

/-- Writing a loan back with its status leaves every status as it was. -/
theorem status_putLoan {t : Tables} {loan row : Loan} (hloan : t.loan? loan.id = some loan)
    (hid : row.id = loan.id) (hstatus : row.status = loan.status) (id : Uuid) :
    ((t.putLoan row).loan? id).map Loan.status = (t.loan? id).map Loan.status := by
  rw [loan?_putLoan]
  cases hr : t.loan? id with
  | none => rfl
  | some r =>
    obtain ⟨-, hrid⟩ := loan?_eq_some hr
    by_cases h : r.id = row.id
    · have heq : some loan = some r := by rw [← hloan, ← hr, ← hrid, h, hid]
      cases heq
      simp [hid, hstatus]
    · simp [h]

/-- What accrual does while the loans with these ids are active: it moves the books and
leaves every status as it was. -/
def Accrues (ar : LienArithmetic) (P : Loan → Movement → Prop) (D : Loan → Uuid → ℚ → Prop)
    (ids : List Uuid) (t t' : Tables) : Prop :=
  (∀ id, (t'.loan? id).map Loan.status = (t.loan? id).map Loan.status) ∧
    ((∀ id ∈ ids, ∀ l, t.loan? id = some l → l.Active) → MovesBooks ar P D t t')

instance (ids : List Uuid) : IsPreorder Tables (Accrues ar P D ids) where
  refl t := ⟨fun _ => rfl, fun _ => .refl⟩
  trans t t₁ t₂ h h' := by
    refine ⟨fun id => (h'.1 id).trans (h.1 id), ?_⟩
    intro hactive
    refine (h.2 hactive).trans (h'.2 ?_)
    intro id hid l hl
    have hstatus := h.1 id
    rw [hl, Option.map_some, eq_comm, Option.map_eq_some_iff] at hstatus
    obtain ⟨l₀, hl₀, heq⟩ := hstatus
    have hl₀' := hactive id hid l₀ hl₀
    unfold Loan.Active at hl₀' ⊢
    rwa [← heq]

theorem accrueInstallment_moves {ids : List Uuid} {loanId : Uuid} (hid : loanId ∈ ids)
    (hP : ∀ l i, P l (.accrue i)) (count : ℕ) (inst : LoanInstallment) :
    Moves (Accrues ar P D ids) (accrueInstallment loanId count inst) := by
  apply (neverRaises_accrueInstallment loanId count inst).moves
  intro t n t' h
  rcases accrueInstallment_ok h with ⟨-, rfl⟩ | ⟨-, loan, hloan, hkey, hpos, hpost⟩
  · exact refl_of _ _
  · obtain ⟨-, rfl⟩ := loan?_eq_some hloan
    obtain ⟨row, t₁, hposted, hsaved, rfl⟩ := postAccrual_ok hkey hpost
    have happ := hposted.appends
    obtain ⟨e, -, -, rfl⟩ := hposted.entry
    refine ⟨status_putLoan hloan hsaved.terms.id hsaved.status, ?_⟩
    intro hactive
    exact .single (.change loan row (.accrue inst.interestDue.val) _ hloan (hP _ _)
      ⟨hactive _ hid loan hloan, inst.interestDue.onGrid, hpos⟩ hsaved (Nat.le_succ _) rfl happ
      (allIssued_of_kind fun _ => trivial) (List.Subset.refl _) rfl)

theorem accrueForTenant_moves (hP : ∀ l i, P l (.accrue i)) {today : Date} {t t' : Tables}
    {n : ℕ} (hbooks : BooksOk t) (h : accrueForTenant today t = .ok n t') :
    MovesBooks ar P D t t' := by
  rw [accrueForTenant, get_bind_eq_ok] at h
  set loans := t.loans.filter fun l => l.interestMethod = .reducingBalance ∧ l.Active with hloans
  have hmoves : Moves (Accrues ar P D (loans.map (·.id)))
      (foldEach (accrueLoan today) loans 0) := by
    apply moves_foldEach
    intro count loan hloan
    apply moves_bind moves_get
    intro t
    apply moves_foldEach
    intro count inst _
    exact accrueInstallment_moves (List.mem_map_of_mem hloan) hP count inst
  apply (hmoves.ok h).2
  -- The loans of the first query are active, and ids are unique.
  intro id hid l hl
  obtain ⟨loan, hloan, rfl⟩ := List.mem_map.mp hid
  rw [hloans, List.mem_filter] at hloan
  obtain ⟨hmem, hprop⟩ := hloan
  obtain ⟨hmem', hid'⟩ := loan?_eq_some hl
  rw [hbooks.loan_unique hmem hmem' hid']
  simp only [decide_eq_true_eq] at hprop
  exact hprop.2

theorem markArrearsForTenant_moves (hP : ∀ l st, P l (.mark st)) (today : Date) :
    Moves (MovesBooks ar P D) (markArrearsForTenant today) := by
  unfold markArrearsForTenant
  apply moves_bind moves_get
  intro t
  apply moves_foldEach
  intro count loan _
  refine moves_bind ?_ fun _ => moves_pure _
  apply (neverRaises_savepoint _).moves
  intro t changed t' h
  rcases savepoint_eq_ok h with rfl | ⟨b, -, hmark⟩
  · exact .refl
  · rcases markLoan_ok hmark with
      rfl | ⟨l, row, status, hl, hstatus, hsaved, hloans, hentries, hreps, hnext, hgs⟩
    · exact .refl
    · obtain ⟨-, hid⟩ := loan?_eq_some hl
      have hfound : t.loan? l.id = some l := by rw [hid, hl]
      refine .single (.change l row (.mark status) "" hfound (hP l status) hstatus hsaved
        hnext.ge hloans (appends_nil hentries) ?_ ?_ hgs)
      · intro p hp
        cases hp
      · rw [hreps]
        exact List.Subset.refl _

/-! ### The consumer -/

theorem consumeEvent_move {event : OutboxEvent} {t : Tables}
    (hP : ∀ l m, t.loan? l.id = some l → event.body.movement? = some (l.id, m) → P l m) :
    MovesBooks ar P D t (consumeEvent t event) := by
  rcases commit_cases (processEvent event) t with ⟨done, t', hok, heq⟩ | heq
  · rw [consumeEvent, heq]
    rcases processEvent_ok hok with rfl | ⟨t₁, events, hhandle, rfl⟩
    · exact .refl
    · rcases handleEvent_ok hhandle with rfl | ⟨loanId, f, loan, row, hchange, hl, hsaved, rfl⟩
      · exact .single (.same le_rfl rfl rfl rfl rfl)
      · obtain ⟨-, rfl⟩ := loan?_eq_some hl
        have hnone : ∀ t : Tables, AllIssued [] t := by
          intro t p hp
          cases hp
        generalize hbody : event.body = body at hchange hP
        cases hchange with
        | assess payload amount hkind htarget hparsed =>
          have hm : (EventBody.feeAssessmentCreated payload).movement?
              = some (loan.id, .assess amount) := by
            simp [EventBody.movement?, hkind, htarget, hparsed]
          exact .single (.change loan row (.assess amount) "" hl (hP loan _ hl hm) trivial hsaved
            le_rfl rfl (appends_nil rfl) (hnone _) (List.Subset.refl _) rfl)
        | collect payload amount hkind htarget hparsed =>
          have hm : (EventBody.feeCollectionCreated payload).movement?
              = some (loan.id, .collect amount) := by
            simp [EventBody.movement?, hkind, htarget, hparsed]
          exact .single (.change loan row (.collect amount) "" hl (hP loan _ hl hm) trivial hsaved
            le_rfl rfl (appends_nil rfl) (hnone _) (List.Subset.refl _) rfl)
  · rw [consumeEvent, heq]

/-- A batch of events moves the books by what each event asks for when its turn comes. -/
theorem consumeEvents_moves {t : Tables} {events : List OutboxEvent}
    (hP : ∀ done event rest l m, events = done ++ event :: rest →
      (run consumeEvent t done).loan? l.id = some l →
      event.body.movement? = some (l.id, m) → P l m) :
    MovesBooks ar P D t (run consumeEvent t events) := by
  induction events generalizing t with
  | nil => exact .refl
  | cons event events ih =>
    have hfirst : MovesBooks ar P D t (consumeEvent t event) :=
      consumeEvent_move fun l m hl hm => hP [] event events l m rfl hl hm
    refine hfirst.trans (ih ?_)
    intro done e rest l m heq hl hm
    exact hP (event :: done) e rest l m (by rw [heq, List.cons_append]) hl hm

/-! ### All operations -/

theorem Rescheduled.move {t t' : Tables} (hP : ∀ l, P l .reschedule) (h : Rescheduled t t') :
    Move ar P D t t' := by
  rcases h with h | ⟨loan, row, hfound, hsaved, hnext, hloans, hentries, hreps, hgs⟩
  · obtain ⟨hnext, hloans, hentries, hreps, hgs⟩ := h.frame
    exact .same hnext hloans hentries hreps hgs
  · refine .change loan row .reschedule "" hfound (hP loan) trivial hsaved hnext hloans
      (appends_nil hentries) ?_ ?_ hgs
    · intro p hp
      cases hp
    · rw [hreps]
      exact List.Subset.refl _

theorem foreignEntry_move {e : ForeignEntry} {t t' : Tables} {id : Uuid}
    (hkey : ¬ IsCreditKey e.idempotencyKey)
    (h : postJournalEntry e.reference e.description e.postedBy e.idempotencyKey
      (e.lines.map ForeignLine.line) t = .ok id t') : MovesBooks ar P D t t' := by
  rcases postJournalEntry_ok h with ⟨rfl, -⟩ | hposted
  · exact .refl
  · obtain ⟨entry, hek, hlines, rfl⟩ := hposted.entry
    refine .single (.foreign entry (hek ▸ hkey) ?_ (Nat.le_succ _) rfl rfl rfl rfl)
    intro line hline
    obtain ⟨l, hl, hstored⟩ := forall₂_exists_left hlines hline
    obtain ⟨fl, -, rfl⟩ := List.mem_map.mp hl
    exact hstored.subLedgerType

/-- A transaction moves the books as its call does, or not at all. -/
theorem movesBooks_commit {α : Type} {x : Call α} {t : Tables}
    (hx : ∀ a t', x t = .ok a t' → MovesBooks ar P D t t') : MovesBooks ar P D t (commit x t) :=
  commit_keeps (P := MovesBooks ar P D t) .refl hx

/-- An executor leaves what it wrote also when it raised. -/
theorem movesBooks_commit_attempt {α : Type} {x : Call α} {t : Tables}
    (hx : ∀ a t', x t = .ok a t' → MovesBooks ar P D t t')
    (hraised : ∀ e t', x t = .raised e t' → MovesBooks ar P D t t') :
    MovesBooks ar P D t (commit (attempt x) t) := by
  rcases commit_attempt_cases x t with ⟨a, t', hok, heq⟩ | ⟨e, t', hr, heq⟩ | heq
  · rw [heq]
    exact hx a t' hok
  · rw [heq]
    exact hraised e t' hr
  · rw [heq]

/-- Every operation moves the books by movements it allows. -/
theorem step_moves (ar : LienArithmetic) {t : Tables} (hbooks : BooksOk t) {op : CreditOp}
    (hforeign : op.ForeignKeys) : MovesBooks ar (op.Allows t) (op.Opens t) t (op.step ar t) := by
  cases op with
  | disburse today d =>
    apply movesBooks_commit
    intro id t' hok
    exact disburse_move hbooks (fun l account booked h => h) hok
  | repay r =>
    apply movesBooks_commit
    intro id t' hok
    exact applyRepayment_move hbooks (fun l hl => ⟨hl, rfl⟩) hok
  | writeOff w =>
    apply movesBooks_commit
    intro res t' hok
    exact writeOff_move (fun l a hl ha => ⟨hl, a, ha, rfl⟩) hok
  | executeWriteOff payload =>
    apply movesBooks_commit_attempt
    · intro u t' hok
      exact executeWriteOff_move (fun l a amount hl ha hc => ⟨hl, a, amount, hc, ha, rfl⟩) hok
    · intro e t' hraised
      rw [raisesClean_executeWriteOff payload t e t' hraised]
  | recover w =>
    apply movesBooks_commit
    intro id t' hok
    exact recover_move (fun l a hl ha => ⟨hl, a, ha, rfl⟩) hok
  | accrueInterest today =>
    apply movesBooks_commit
    intro n t' hok
    exact accrueForTenant_moves (fun l i => ⟨i, rfl⟩) hbooks hok
  | markArrears today =>
    exact moves_commit (markArrearsForTenant_moves (fun l st => ⟨st, rfl⟩) today) t
  | restructure today payload =>
    have hmoves := executeRestructureSchedule_moves today payload
    apply movesBooks_commit_attempt
    · intro u t' hok
      exact .single ((hmoves.ok hok).move fun _ => rfl)
    · intro e t' hraised
      exact .single ((hmoves.raised hraised).move fun _ => rfl)
  | consumeEvents =>
    apply movesBooks_commit
    intro n t' hok
    rw [processTenantEvents_ok hok]
    exact consumeEvents_moves fun done event rest l m hpending hl hm =>
      ⟨done, event, rest, hpending, hl, hm⟩
  | feeEvent body =>
    exact .single (moves_commit (publish_sameCredit body) t).move
  | foreignEntry e =>
    apply movesBooks_commit
    intro id t' hok
    exact foreignEntry_move hforeign hok
  | reference data => exact .single (.same le_rfl rfl rfl rfl rfl)

/-! ## Invariants of runs -/

theorem Move.mono {P' : Loan → Movement → Prop} {D' : Loan → Uuid → ℚ → Prop}
    (hP : ∀ l m, P l m → P' l m) (hD : ∀ l account booked, D l account booked → D' l account booked)
    {t t' : Tables} (h : Move ar P D t t') : Move ar P' D' t t' := by
  cases h with
  | change l row m key found allowed enabled saved nextId loans entries issued repayments gs =>
    exact .change l row m key found (hP l m allowed) enabled saved nextId loans entries issued
      repayments gs
  | opened l account booked allowed opened id nextId loans entries repayments liens =>
    exact .opened l account booked (hD l account booked allowed) opened id nextId loans entries
      repayments liens
  | foreign e key untagged nextId loans entries repayments gs =>
    exact .foreign e key untagged nextId loans entries repayments gs
  | same nextId loans entries repayments gs => exact .same nextId loans entries repayments gs

/-- What every move of an operation keeps, the operation keeps. -/
theorem step_keeps (ar : LienArithmetic) {Inv : Tables → Prop} {t : Tables} {op : CreditOp}
    (hmove : ∀ t t', Inv t → Move ar P D t t' → Inv t')
    (hP : ∀ l m, op.Allows t l m → P l m)
    (hD : ∀ l account booked, op.Opens t l account booked → D l account booked)
    (hbooks : BooksOk t) (hforeign : op.ForeignKeys) (h : Inv t) : Inv (op.step ar t) := by
  have hmoves := step_moves ar hbooks hforeign
  generalize op.step ar t = t' at hmoves
  induction hmoves with
  | refl => exact h
  | tail _ hm ih => exact hmove _ _ ih (hm.mono hP hD)

/-- Every operation keeps the books in order. -/
theorem BooksOk.step (ar : LienArithmetic) {t : Tables} (h : BooksOk t) {op : CreditOp}
    (hforeign : op.ForeignKeys) : BooksOk (op.step ar t) :=
  step_keeps ar (fun _ _ hb hm => hb.move hm) (fun _ _ h => h) (fun _ _ _ h => h) h hforeign h

theorem Tables.Genesis.booksOk {t : Tables} (h : t.Genesis) : BooksOk t where
  unique := by
    rw [h.loans]
    exact List.nodup_nil
  ids := by
    rw [h.loans]
    intro l hl
    cases hl
  tags := by
    intro e he line hline htype
    exact absurd htype (h.untagged e he line hline)
  issued := by
    intro e he kind k hk
    exact absurd (hk ▸ isCreditKey_creditKey kind k) (h.keys e he)

/-- The movements of an operation that stays apart from a column stay apart from it. -/
theorem CreditOp.CounterApart.movement {column : Loan → Uuid} {t : Tables} {op : CreditOp}
    (h : op.CounterApart column t) {l : Loan} {m : Movement} (hm : op.Allows t l m)
    (hl : ∀ a, l.glLoanLossExpenseId = some a → a ≠ column l) :
    ∀ a ∈ m.counterAccount, a ≠ column l := by
  intro a ha
  cases op with
  | repay r =>
    obtain ⟨hloan, rfl⟩ := hm
    cases ha
    exact h l hloan
  | writeOff w =>
    obtain ⟨hloan, x, hx, rfl⟩ := hm
    cases ha
    exact h l hloan x hx
  | executeWriteOff payload =>
    obtain ⟨hloan, x, amount, hx, -, rfl⟩ := hm
    cases ha
    exact h l hloan x hx
  | recover w =>
    obtain ⟨-, x, hx, rfl⟩ := hm
    cases ha
    exact hl a hx
  | accrueInterest today =>
    obtain ⟨interest, rfl⟩ := hm
    cases ha
  | markArrears today =>
    obtain ⟨status, rfl⟩ := hm
    cases ha
  | restructure today payload =>
    have hres : m = .reschedule := hm
    rw [hres] at ha
    cases ha
  | consumeEvents =>
    obtain ⟨_, _, _, -, -, hm⟩ := hm
    obtain ⟨_, rfl | rfl⟩ := EventBody.movement?_eq_some hm <;> cases ha
  | disburse today d => exact hm.elim
  | feeEvent body => exact hm.elim
  | foreignEntry e => exact hm.elim
  | reference data => exact hm.elim

/-- An operation makes only these movements and opens only these loans. -/
structure CreditOp.Within (P : Loan → Movement → Prop) (D : Loan → Uuid → ℚ → Prop) (t : Tables)
    (op : CreditOp) : Prop where
  foreign : op.ForeignKeys
  moves : ∀ l m, op.Allows t l m → P l m
  opens : ∀ l account booked, op.Opens t l account booked → D l account booked

/-- The books are in order and every loan is as `Ok` says. -/
structure Loanwise (Ok : Tables → Loan → Prop) (t : Tables) : Prop where
  books : BooksOk t
  loans : ∀ l ∈ t.loans, Ok t l

theorem Kept.step {Ok : Tables → Loan → Prop} (hkept : Kept P D Ok) {t : Tables} {op : CreditOp}
    (h : Loanwise Ok t) (hop : op.Within P D t) : Loanwise Ok (op.step ar t) := by
  refine step_keeps ar ?_ hop.moves hop.opens h.books hop.foreign h
  intro t t' hi hm
  exact ⟨hi.books.move hm, hkept.move hi.books hi.loans hm⟩

/-- From a tenant without loans, every run within `P` and `D` keeps what its moves keep. -/
theorem Kept.run {Ok : Tables → Loan → Prop} (hkept : Kept P D Ok) {t : Tables}
    (hgenesis : t.Genesis) {ops : List CreditOp}
    (hops : Along (CreditOp.step ar) (CreditOp.Within P D) t ops) :
    Loanwise Ok (run (CreditOp.step ar) t ops) := by
  have hstart : Loanwise Ok t := by
    refine ⟨hgenesis.booksOk, ?_⟩
    rw [hgenesis.loans]
    intro l hl
    cases hl
  exact run_invariant (fun t op h hop => hkept.step h hop) hstart hops

/-! ## A tenant to run on -/

/-- A column value; zero when it does not fit. -/
def money (q : ℚ) : Money := (Numeric.ofRat? q).getD 0

/-- Loans receivable `1100`, interest receivable `1110`, interest income `4100`, loan loss
`5100` and cash `1000`; one product at 12% with a write-off threshold of 100; one approved
application for 1000 over two months, with one accepted guarantor. The loan it becomes has
the id 11. -/
def sampleTenant (method : InterestMethod) : Tables :=
  { Tables.empty with
    nextId := 11
    accounts := [⟨1, "1100"⟩, ⟨2, "1110"⟩, ⟨3, "4100"⟩, ⟨4, "5100"⟩, ⟨5, "1000"⟩]
    products := [⟨6, method, money 12, .monthly, "1100", "1110", "4100", some "5100", money 100,
      true, money 1, money 10000, 12, 1, [.cash]⟩]
    applications := [⟨7, 6, 20, .approved, .cash, some 5, some (money 1000), some 2, none, "a"⟩]
    guarantors := [⟨8, 7, none, 9, .accepted⟩]
    savingsAccounts := [⟨10, 9, money 0, 40⟩] }

/-- The day the sample loan is disbursed: 31 January 2026. -/
def sampleDay : Date := ⟨739647, by decide⟩

/-- 28 February 2026, when the first instalment of the sample loan is due. -/
def firstDueDay : Date := ⟨739675, by decide⟩

/-- A cash repayment of the sample loan. -/
def sampleRepayment (amount : ℚ) (key : String) : RepaymentIn :=
  ⟨11, amount, 5, 30, none, key, none⟩

/-- The disbursement of the sample loan. -/
def sampleDisbursement : CreditOp := .disburse sampleDay ⟨7, 30, "d"⟩

theorem genesis_sampleTenant (method : InterestMethod) : (sampleTenant method).Genesis where
  loans := rfl
  installments := rfl
  repayments := rfl
  liens := rfl
  keys := by
    intro e he
    cases he
  untagged := by
    intro e he
    cases he
  guarantorIds := List.nodup_singleton _
  guarantors := by
    intro g hg
    rw [List.mem_singleton.mp hg]

end SaccoPlatform
