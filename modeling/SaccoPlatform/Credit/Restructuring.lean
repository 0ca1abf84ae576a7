import SaccoPlatform.Credit.Disbursement
import Mathlib.Data.List.Sort

/-!
# Restructuring

`LoanRestructuringService._execute_restructuring`
(`app/modules/credit/services/restructuring.py`) and its executor: the unpaid instalments of
a loan are marked superseded, and a term extension writes a new schedule for the outstanding
principal while a payment holiday moves every unpaid instalment by whole periods. The
instalments are marked before the new dates are computed.
-/

namespace SaccoPlatform

open Lib Session

/-- The payload of a `credit.restructure_schedule` request. `none` is a key that is missing
or does not parse; `approvalRequestId` may be absent. -/
structure RestructurePayload where
  loanId : Option Uuid
  restructuringType : Option String
  periodsAdded : Option ℤ
  reason : Option String
  idempotencyKey : Option String
  approvalRequestId : Option (Option Uuid)
deriving DecidableEq, Repr

/-- `_shift_date`: weeks for weekly frequencies, months otherwise. -/
def shiftDate (d : Date) (frequency : RepaymentFrequency) (periods : ℤ) : Except Err Date :=
  match frequency with
  | .weekly => addWeeks d periods
  | .biweekly => addWeeks d (2 * periods)
  | .monthly => addMonths d periods
  | .quarterly => addMonths d (3 * periods)
  | .lumpSum => addMonths d periods

/-- The instalments of the loan that are not superseded, by period. -/
def Tables.activeInstallments (t : Tables) (loanId : Uuid) : List LoanInstallment :=
  (t.installments.filter fun inst => inst.loanId = loanId ∧ inst.isSuperseded = false)
    |>.insertionSort fun a b => a.periodNumber ≤ b.periodNumber

/-- Mark the unpaid active instalments of the loan as superseded. -/
def Tables.supersede (t : Tables) (loanId : Uuid) : Tables :=
  { t with installments := t.installments.map fun inst =>
      if inst.loanId = loanId ∧ inst.isSuperseded = false ∧ inst.status ≠ .paid then
        { inst with isSuperseded := true }
      else inst }

/-- `max((i.period_number for i in paid), default=0)`. -/
def lastPaidPeriod (paid : List LoanInstallment) : ℤ :=
  match paid.map (·.periodNumber) with
  | [] => 0
  | n :: rest => rest.foldl max n

/-- The new instalments of a restructuring: their ids, the new term and the new maturity. -/
structure NewSchedule where
  ids : List Uuid
  termPeriods : ℤ
  maturityDate : Date

/-- Term extension: a new schedule of the outstanding principal over the remaining and the
added periods. -/
def extendTerm (today : Date) (loan : Loan) (lastPaid : ℤ) (unpaid : List LoanInstallment)
    (periodsAdded : ℤ) : Call NewSchedule := do
  let remainingPeriods := unpaid.length + periodsAdded
  let schedule ← ofExcept (computeSchedule loan.outstandingPrincipal.val
    loan.annualInterestRate.val loan.interestMethod loan.repaymentFrequency remainingPeriods
    today)
  let ids ← foldEach (fun ids row => do
      let id ← insertInstallment loan.id none
        { row with periodNumber := lastPaid + row.periodNumber }
      pure (ids ++ [id])) schedule []
  pure ⟨ids, lastPaid + remainingPeriods, (schedule.getLast?.map (·.dueDate)).getD today⟩

/-- Payment holiday: every unpaid instalment again, `periodsAdded` periods later. -/
def shiftUnpaid (today : Date) (loan : Loan) (unpaid : List LoanInstallment)
    (periodsAdded : ℤ) : Call NewSchedule := do
  let start : List Uuid × Date := ([], loan.maturityDate.getD today)
  let (ids, maturityDate) ← foldEach (fun acc orig => do
      let dueDate ← ofExcept (shiftDate orig.dueDate loan.repaymentFrequency periodsAdded)
      let id ← insertInstallment loan.id none
        ⟨orig.periodNumber + periodsAdded, dueDate, orig.principalDue.val, orig.interestDue.val,
          orig.totalDue.val⟩
      pure (acc.1 ++ [id], dueDate)) unpaid start
  pure ⟨ids, loan.termPeriods + periodsAdded, maturityDate⟩

/-- `ck_lrs_type`. -/
def restructuringType? (text : String) : Option RestructuringType :=
  if text = "term_extension" then some .termExtension
  else if text = "payment_holiday" then some .paymentHoliday
  else none

/-- Insert a `loan_restructurings` row. -/
def insertRestructuring (loanId : Uuid) (type : String) (periodsAdded : ℤ)
    (schedule : NewSchedule) (approvalRequestId : Option Uuid) (idempotencyKey : String) :
    Call Uuid := do
  match restructuringType? type with
  | none => abort (.integrityError "ck_lrs_type")
  | some type =>
    let periodsAdded ← writeInteger periodsAdded
    constraint (1 ≤ periodsAdded) (.integrityError "ck_lrs_periods_added")
    let id ← freshId
    modify fun t => { t with
      restructurings := t.restructurings ++ [⟨id, loanId, type, periodsAdded,
        schedule.termPeriods, schedule.maturityDate, approvalRequestId, idempotencyKey⟩] }
    pure id

/-- The rest of a restructuring, once the new instalments are in the session: the loan's
term, the restructuring row, its id on the new instalments, the event. -/
def recordRestructuring (loan : Loan) (type : String) (periodsAdded : ℤ)
    (schedule : NewSchedule) (approvalRequestId : Option Uuid) (idempotencyKey : String) :
    Call Uuid := do
  let termPeriods ← writeInteger schedule.termPeriods
  let _ ← saveLoan { loan with termPeriods, maturityDate := some schedule.maturityDate }
    loan.balances loan.status
  let id ← insertRestructuring loan.id type periodsAdded schedule approvalRequestId idempotencyKey
  modify fun t => { t with installments := t.installments.map fun inst =>
    if inst.id ∈ schedule.ids then { inst with restructuringId := some id } else inst }
  publish (.loanRestructured loan.id)
  pure id

/-- The instalments of a restructuring: supersede the unpaid ones, write the new ones. -/
def replaceSchedule (today : Date) (loan : Loan) (type : String) (periodsAdded : ℤ) :
    Call NewSchedule := do
  let t ← get
  let active := t.activeInstallments loan.id
  let paid := active.filter (·.status = .paid)
  let unpaid := active.filter (·.status ≠ .paid)
  modify (·.supersede loan.id)
  if type = "term_extension" then
    extendTerm today loan (lastPaidPeriod paid) unpaid periodsAdded
  else shiftUnpaid today loan unpaid periodsAdded

def Tables.restructuring? (t : Tables) (key : String) : Option LoanRestructuring :=
  t.restructurings.find? (·.idempotencyKey = key)

/-- `_execute_restructuring`; returns the restructuring. -/
def executeRestructuringOn (today : Date) (loanId : Uuid) (type : String) (periodsAdded : ℤ)
    (idempotencyKey : String) (approvalRequestId : Option Uuid) : Call Uuid := do
  let t ← get
  match t.restructuring? idempotencyKey with
  | some existing => pure existing.id
  | none =>
    let loan ← orRaise (t.loan? loanId) (.valueError s!"Loan '{loanId}' not found")
    let schedule ← replaceSchedule today loan type periodsAdded
    recordRestructuring loan type periodsAdded schedule approvalRequestId idempotencyKey

/-- `execute_restructure_schedule`, the executor of an approved restructuring. -/
def executeRestructureSchedule (today : Date) (payload : RestructurePayload) : Call Unit := do
  let loanId ← orRaise payload.loanId (.keyError "loan_id")
  let type ← orRaise payload.restructuringType (.keyError "restructuring_type")
  let periodsAdded ← orRaise payload.periodsAdded (.keyError "periods_added")
  let _ ← orRaise payload.reason (.keyError "reason")
  let idempotencyKey ← orRaise payload.idempotencyKey (.keyError "idempotency_key")
  let approvalRequestId ← orRaise payload.approvalRequestId
    (.valueError "badly formed hexadecimal UUID string")
  let _ ← executeRestructuringOn today loanId type periodsAdded idempotencyKey approvalRequestId

/-! ## What a restructuring does to the books -/

theorem extendTerm_moves (today : Date) (loan : Loan) (lastPaid : ℤ)
    (unpaid : List LoanInstallment) (periodsAdded : ℤ) :
    Moves OnlyNewInstallments (extendTerm today loan lastPaid unpaid periodsAdded) := by
  unfold extendTerm
  apply moves_bind (moves_ofExcept _)
  intro schedule
  apply moves_bind
  · apply moves_foldEach
    intro ids row _
    apply moves_bind (insertInstallment_moves _ _ _)
    intro id
    exact moves_pure _
  · intro ids
    exact moves_pure _

theorem shiftUnpaid_moves (today : Date) (loan : Loan) (unpaid : List LoanInstallment)
    (periodsAdded : ℤ) :
    Moves OnlyNewInstallments (shiftUnpaid today loan unpaid periodsAdded) := by
  unfold shiftUnpaid
  apply moves_bind
  · apply moves_foldEach
    intro acc orig _
    apply moves_bind (moves_ofExcept _)
    intro dueDate
    apply moves_bind (insertInstallment_moves _ _ _)
    intro id
    exact moves_pure _
  · intro acc
    exact moves_pure _

theorem neverRaises_recordRestructuring (loan : Loan) (type : String) (periodsAdded : ℤ)
    (schedule : NewSchedule) (approvalRequestId : Option Uuid) (key : String) :
    NeverRaises (recordRestructuring loan type periodsAdded schedule approvalRequestId key) := by
  unfold recordRestructuring
  apply neverRaises_bind (neverRaises_writeInteger _)
  intro termPeriods
  apply neverRaises_bind (neverRaises_saveLoan _ _ _)
  intro row
  apply neverRaises_bind
  · unfold insertRestructuring
    cases restructuringType? type with
    | none => exact neverRaises_abort _
    | some type =>
      apply neverRaises_bind (neverRaises_writeInteger _)
      intro n
      apply neverRaises_bind (neverRaises_constraint _ _)
      intro _
      apply neverRaises_bind neverRaises_freshId
      intro id
      apply neverRaises_bind (neverRaises_modify _)
      intro _
      exact neverRaises_pure _
  · intro id
    apply neverRaises_bind (neverRaises_modify _)
    intro _
    apply neverRaises_bind (neverRaises_publish _)
    intro _
    exact neverRaises_pure _

/-- Of the books, a restructuring writes the loan row back with its balances and status as
they were, if it gets that far. -/
def Rescheduled (t t' : Tables) : Prop :=
  OnlyNewInstallments t t' ∨ ∃ loan row, t.loan? loan.id = some loan ∧
    Saved loan loan.balances loan.status row ∧ t.nextId ≤ t'.nextId ∧
    t'.loans = (t.putLoan row).loans ∧ t'.entries = t.entries ∧
    t'.repayments = t.repayments ∧ t'.guarantees = t.guarantees

theorem insertRestructuring_ok {loanId id : Uuid} {type key : String} {periodsAdded : ℤ}
    {schedule : NewSchedule} {approvalRequestId : Option Uuid} {t t' : Tables}
    (h : insertRestructuring loanId type periodsAdded schedule approvalRequestId key t
      = .ok id t') :
    ∃ rows, t' = { t with nextId := t.nextId + 1, restructurings := rows } := by
  unfold insertRestructuring at h
  cases htype : restructuringType? type with
  | none =>
    simp only [htype, abort_apply] at h
    cases h
  | some type' =>
    simp only [htype] at h
    obtain ⟨n, t₁, hn, h⟩ := bind_eq_ok.mp h
    simp only [writeInteger, constraint_bind_eq_ok, pure_eq_ok] at hn
    obtain ⟨-, -, rfl⟩ := hn
    simp only [constraint_bind_eq_ok, freshId_bind_eq_ok, modify_bind_eq_ok, pure_eq_ok] at h
    exact ⟨_, h.2.2.symm⟩

theorem saveLoan_termPeriods {l row : Loan} {b : Balances} {status : LoanStatus} {t t' : Tables}
    (h : saveLoan l b status t = .ok row t') : row.termPeriods = l.termPeriods := by
  simp only [saveLoan, writeMoney_bind_eq_ok, constraint_bind_eq_ok, modify_bind_eq_ok,
    pure_eq_ok] at h
  obtain ⟨_, -, _, -, _, -, _, -, _, -, _, -, _, -, -, -, -, rfl, -⟩ := h
  rfl

/-- Recording a restructuring writes the loan's term and tags the new instalments. -/
theorem recordRestructuring_rows {loan : Loan} {type key : String} {periodsAdded : ℤ}
    {schedule : NewSchedule} {approvalRequestId : Option Uuid} {id : Uuid} {t t' : Tables}
    (h : recordRestructuring loan type periodsAdded schedule approvalRequestId key t = .ok id t') :
    ∃ row n rows events, Saved loan loan.balances loan.status row ∧
      row.termPeriods = schedule.termPeriods ∧ t.nextId ≤ n ∧
      t' = { t.putLoan row with
        nextId := n
        restructurings := rows
        outbox := events
        installments := t.installments.map fun inst =>
          if inst.id ∈ schedule.ids then { inst with restructuringId := some id } else inst } := by
  unfold recordRestructuring at h
  rw [writeInteger_bind_eq_ok] at h
  obtain ⟨-, h⟩ := h
  obtain ⟨row, t₂, hsave, h⟩ := bind_eq_ok.mp h
  have hterm := saveLoan_termPeriods hsave
  obtain ⟨rfl, hsaved⟩ := saveLoan_ok hsave
  obtain ⟨id', t₃, hinsert, h⟩ := bind_eq_ok.mp h
  obtain ⟨rows, rfl⟩ := insertRestructuring_ok hinsert
  simp only [modify_bind_eq_ok, publish_bind_eq_ok, pure_eq_ok] at h
  obtain ⟨rfl, rfl⟩ := h
  have hterms : SameTerms loan row :=
    ⟨hsaved.terms.id, hsaved.terms.principalAmount, hsaved.terms.interestMethod,
      hsaved.terms.loanApplicationId, hsaved.terms.loanProductId, hsaved.terms.glPrincipalReceivableId,
      hsaved.terms.glInterestReceivableId, hsaved.terms.glInterestIncomeId,
      hsaved.terms.glLoanLossExpenseId, hsaved.terms.idempotencyKey⟩
  exact ⟨row, _, _, _, ⟨hterms, hsaved.status, hsaved.balances, hsaved.outstanding_nonneg,
    hsaved.interest_nonneg, hsaved.penalties_nonneg⟩, hterm,
    (Nat.le_succ _).trans (Nat.le_succ _), rfl⟩

theorem recordRestructuring_ok {loan : Loan} {type key : String} {periodsAdded : ℤ}
    {schedule : NewSchedule} {approvalRequestId : Option Uuid} {id : Uuid} {t t' : Tables}
    (h : recordRestructuring loan type periodsAdded schedule approvalRequestId key t
      = .ok id t') :
    ∃ row, Saved loan loan.balances loan.status row ∧ t.nextId ≤ t'.nextId ∧
      t'.loans = (t.putLoan row).loans ∧ t'.entries = t.entries ∧
      t'.repayments = t.repayments ∧ t'.guarantees = t.guarantees := by
  obtain ⟨row, n, rows, events, hsaved, -, hnext, rfl⟩ := recordRestructuring_rows h
  exact ⟨row, hsaved, hnext, rfl, rfl, rfl, rfl⟩

theorem OnlyNewInstallments.frame {t t' : Tables} (h : OnlyNewInstallments t t') :
    t.nextId ≤ t'.nextId ∧ t'.loans = t.loans ∧ t'.entries = t.entries ∧
      t'.repayments = t.repayments ∧ t'.guarantees = t.guarantees := by
  obtain ⟨n, rows, hn, rfl⟩ := h
  exact ⟨hn, rfl, rfl, rfl, rfl⟩

theorem replaceSchedule_moves (today : Date) (loan : Loan) (type : String) (periodsAdded : ℤ) :
    Moves OnlyNewInstallments (replaceSchedule today loan type periodsAdded) := by
  unfold replaceSchedule
  apply moves_bind moves_get
  intro t
  apply moves_bind (moves_modify fun t => ⟨t.nextId, _, le_rfl, rfl⟩)
  intro _
  split
  · exact extendTerm_moves _ _ _ _ _
  · exact shiftUnpaid_moves _ _ _ _

instance : Std.Refl Rescheduled := ⟨fun t => .inl (refl_of OnlyNewInstallments t)⟩

theorem executeRestructuringOn_moves (today : Date) (loanId : Uuid) (type : String)
    (periodsAdded : ℤ) (key : String) (approvalRequestId : Option Uuid) :
    Moves Rescheduled
      (executeRestructuringOn today loanId type periodsAdded key approvalRequestId) := by
  intro t
  unfold executeRestructuringOn
  apply movesFrom_get_bind
  cases t.restructuring? key with
  | some existing => exact moves_pure _ t
  | none =>
    apply movesFrom_orRaise_bind
    intro loan hloan
    obtain ⟨-, hid⟩ := loan?_eq_some hloan
    have hfound : t.loan? loan.id = some loan := by rw [hid, hloan]
    have hreplace := replaceSchedule_moves today loan type periodsAdded
    apply movesFrom_bind_of_neverRaises
    · intro e t' h
      exact .inl (hreplace.raised h)
    · intro schedule
      exact neverRaises_recordRestructuring _ _ _ _ _ _
    · intro schedule t₁ id t' h₁ h₂
      obtain ⟨hnext, hloans, hentries, hreps, hgs⟩ := (hreplace.ok h₁).frame
      obtain ⟨row, hsaved, hnext', hloans', hentries', hreps', hgs'⟩ := recordRestructuring_ok h₂
      refine .inr ⟨loan, row, hfound, hsaved, hnext.trans hnext', ?_, hentries'.trans hentries,
        hreps'.trans hreps, hgs'.trans hgs⟩
      rw [hloans', Tables.putLoan, hloans]
      rfl

theorem executeRestructureSchedule_moves (today : Date) (payload : RestructurePayload) :
    Moves Rescheduled (executeRestructureSchedule today payload) := by
  intro t
  unfold executeRestructureSchedule
  iterate 6
    apply movesFrom_orRaise_bind
    intro _ _
  exact MovesFrom.map (executeRestructuringOn_moves _ _ _ _ _ _ t) fun _ => ()

end SaccoPlatform
