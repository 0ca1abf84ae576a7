import SaccoPlatform.Credit.Balances

/-!
# Fee events

The event consumer of the credit module (`app/modules/credit/consumer.py`): fee assessments
raise a loan's accrued penalties, fee collections lower them, never below zero. The updates
are raw SQL on the loan row; nothing else of the loan is looked at.
-/

namespace SaccoPlatform

open Lib Session

def Balances.assess (b : Balances) (amount : ℚ) : Balances :=
  { b with accruedPenalties := b.accruedPenalties + amount }

def Balances.collect (b : Balances) (amount : ℚ) : Balances :=
  { b with
    accruedPenalties := max (b.accruedPenalties - amount) 0
    totalPaidPenalties := b.totalPaidPenalties + amount }

/-- `UPDATE loans SET ... WHERE id = :loan_id`: no row is no error. -/
def updatePenalties (loanId : Uuid) (f : Balances → Balances) : Call Unit := do
  let t ← get
  match t.loan? loanId with
  | none => pure ()
  | some loan =>
    let _ ← saveLoan loan (f loan.balances) loan.status

/-- `_handle_event`. -/
def handleEvent : EventBody → Call Unit
  | .feeAssessmentCreated payload =>
    if payload.targetType ≠ some "loan" then pure ()
    else do
      let loanId ← orRaise payload.targetId (.keyError "target_id")
      let amount ← orRaise payload.amount (.keyError "amount")
      updatePenalties loanId (·.assess amount)
  | .feeCollectionCreated payload =>
    if payload.targetType ≠ some "loan" then pure ()
    else do
      let loanId ← orRaise payload.targetId (.keyError "target_id")
      let amount ← orRaise payload.amount (.keyError "amount_collected")
      updatePenalties loanId (·.collect amount)
  | _ => pure ()

/-- `event_type IN ('FeeAssessmentCreated', 'FeeCollectionCreated')`. -/
def EventBody.handled : EventBody → Bool
  | .feeAssessmentCreated _ => true
  | .feeCollectionCreated _ => true
  | _ => false

/-- The body of the savepoint of one event: returns whether it was handled now. -/
def processEvent (event : OutboxEvent) : Call Bool := do
  let t ← get
  if event.id ∈ t.processedEvents then pure false
  else
    handleEvent event.body
    modify fun t => { t with processedEvents := t.processedEvents ++ [event.id] }
    pure true

/-- The oldest fifty events that are not processed yet. -/
def Tables.pendingEvents (t : Tables) : List OutboxEvent :=
  (t.outbox.filter fun event => event.body.handled ∧ event.id ∉ t.processedEvents).take 50

/-- `_process_tenant_events`: each event in a savepoint of its own; returns how many were
processed. -/
def processTenantEvents : Call ℕ := do
  let t ← get
  foldEach (fun count event => do
      let done ← savepoint (processEvent event)
      pure (if done = some true then count + 1 else count)) t.pendingEvents 0

/-- One event of the batch. -/
def consumeEvent (t : Tables) (event : OutboxEvent) : Tables := commit (processEvent event) t

/-! ## What one event does -/

/-- The penalties of a loan change by an assessment or a collection of the payload. -/
inductive PenaltyChange (loanId : Uuid) : EventBody → (Balances → Balances) → Prop
  | assess (payload : FeePayload) (amount : ℚ) (kind : payload.targetType = some "loan")
      (target : payload.targetId = some loanId) (parsed : payload.amount = some amount) :
      PenaltyChange loanId (.feeAssessmentCreated payload) (·.assess amount)
  | collect (payload : FeePayload) (amount : ℚ) (kind : payload.targetType = some "loan")
      (target : payload.targetId = some loanId) (parsed : payload.amount = some amount) :
      PenaltyChange loanId (.feeCollectionCreated payload) (·.collect amount)

theorem updatePenalties_ok {loanId : Uuid} {f : Balances → Balances} {t t' : Tables} {u : Unit}
    (h : updatePenalties loanId f t = .ok u t') :
    t' = t ∨ ∃ loan row, t.loan? loanId = some loan ∧
      Saved loan (f loan.balances) loan.status row ∧ t' = t.putLoan row := by
  unfold updatePenalties at h
  rw [get_bind_eq_ok] at h
  cases hl : t.loan? loanId with
  | none =>
    simp only [hl, pure_eq_ok] at h
    exact .inl h.2.symm
  | some loan =>
    simp only [hl] at h
    obtain ⟨row, t₁, hsave, h⟩ := bind_eq_ok.mp h
    obtain ⟨-, rfl⟩ := pure_eq_ok.mp h
    obtain ⟨rfl, hsaved⟩ := saveLoan_ok hsave
    exact .inr ⟨loan, row, rfl, hsaved, rfl⟩

theorem handleEvent_ok {body : EventBody} {t t' : Tables} {u : Unit}
    (h : handleEvent body t = .ok u t') :
    t' = t ∨ ∃ loanId f loan row, PenaltyChange loanId body f ∧ t.loan? loanId = some loan ∧
      Saved loan (f loan.balances) loan.status row ∧ t' = t.putLoan row := by
  cases body
  case feeAssessmentCreated payload =>
    simp only [handleEvent] at h
    split_ifs at h with htype
    · exact .inl (pure_eq_ok.mp h).2.symm
    · simp only [orRaise_bind_eq_ok] at h
      obtain ⟨loanId, htarget, amount, hamount, h⟩ := h
      refine (updatePenalties_ok h).imp id ?_
      rintro ⟨loan, row, hl, hsaved, rfl⟩
      exact ⟨loanId, _, loan, row, .assess payload amount (not_not.mp htype) htarget hamount, hl, hsaved, rfl⟩
  case feeCollectionCreated payload =>
    simp only [handleEvent] at h
    split_ifs at h with htype
    · exact .inl (pure_eq_ok.mp h).2.symm
    · simp only [orRaise_bind_eq_ok] at h
      obtain ⟨loanId, htarget, amount, hamount, h⟩ := h
      refine (updatePenalties_ok h).imp id ?_
      rintro ⟨loan, row, hl, hsaved, rfl⟩
      exact ⟨loanId, _, loan, row, .collect payload amount (not_not.mp htype) htarget hamount, hl, hsaved, rfl⟩
  all_goals exact .inl (pure_eq_ok.mp h).2.symm

/-- Processing an event leaves the loans as handling it does, and nothing else of the books
changes. -/
theorem processEvent_ok {event : OutboxEvent} {done : Bool} {t t' : Tables}
    (h : processEvent event t = .ok done t') :
    t' = t ∨ ∃ t₁ events, handleEvent event.body t = .ok () t₁ ∧
      t' = { t₁ with processedEvents := events } := by
  unfold processEvent at h
  rw [get_bind_eq_ok] at h
  split at h
  · exact .inl (pure_eq_ok.mp h).2.symm
  · obtain ⟨_, t₁, hhandle, h⟩ := bind_eq_ok.mp h
    simp only [modify_bind_eq_ok, pure_eq_ok] at h
    exact .inr ⟨t₁, _, hhandle, h.2.symm⟩

/-- The batch is a run of its events. -/
theorem processTenantEvents_ok {t t' : Tables} {n : ℕ} (h : processTenantEvents t = .ok n t') :
    t' = run consumeEvent t t.pendingEvents := by
  rw [processTenantEvents, get_bind_eq_ok] at h
  exact foldEach_savepoint h

end SaccoPlatform
