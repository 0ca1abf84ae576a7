import SaccoPlatform.MakerChecker.Executors
import SaccoPlatform.MakerChecker.Footprints

/-!
# Dual control of write-offs

A write-off above the threshold of its product is submitted by `LoanWriteOffService.write_off`
for two approvals. But the quorum belongs to the request and not to the operation, and
`POST /approvals` takes both from its caller: a request for `credit.write_off` with a quorum of
one is executed after one approval. The executor checks neither threshold nor balance; what
bounds the amount is the constraint on `outstanding_principal`, up to the rounding of the
column.

`_execute_write_off` publishes `LoanWrittenOff` in its transaction, so the write-offs of a run
are read off the outbox.
-/

namespace SaccoPlatform

open Lib Session

/-- The loan and the amount, when the event reports a write-off. -/
def EventBody.writtenOff? : EventBody → Option (Uuid × ℚ)
  | loanWrittenOff loanId amount => some (loanId, amount)
  | _ => none

/-- The write-offs executed so far. -/
def Tables.writtenOff (t : Tables) : List (Uuid × ℚ) :=
  t.outbox.filterMap (·.body.writtenOff?)

/-- `POST /loans/{loan_id}/write-off`. -/
def writeOffLoan (env : Surroundings) (w : WriteOffIn) :
    Session (ApprovalDb Tables Operation) Err Unit := do
  let result ← onData (writeOff w)
  match result with
  | .direct _ => pure ()
  | .submit payload =>
    let _ ← submit (tenantHooks env) ⟨.ok (.writeOff payload), w.actorId, 2, none⟩

/-- A committed transaction of a tenant: a write-off by its endpoint, or a call of the approval
endpoints; `elsewhere` stands for every other endpoint and task. -/
inductive WriteOffOp where
  | writeOff (w : WriteOffIn)
  | approval (op : ApprovalOp Tables Operation)

def WriteOffOp.step (db : ApprovalDb Tables Operation) :
    Surroundings × WriteOffOp → ApprovalDb Tables Operation
  | (env, .writeOff w) => commit (writeOffLoan env w) db
  | (env, .approval op) => op.step (tenantHooks env) db

/-! ## Which executors write off -/

theorem publishes_no_writeOff (t : Tables) (n : ℕ) (id : Uuid) {body : EventBody}
    (h : body.writtenOff? = none) :
    ({ t with nextId := n, outbox := t.outbox ++ [⟨id, body⟩] } : Tables).writtenOff
      = t.writtenOff := by
  simp [Tables.writtenOff, h]

theorem repaymentFrame_writtenOff : RepaymentFrame (Keeps Tables.writtenOff) where
  rows _ _ _ _ _ _ _ _ _ := rfl
  debits _ _ _ := rfl
  events t n id body hbody _ := by
    apply publishes_no_writeOff
    cases body <;> first | rfl | exact hbody.elim

/-- Only the executor of write-offs writes off. -/
theorem writes_writtenOff {op : Operation} (hop : ∀ payload, op ≠ .writeOff payload) :
    op.Writes (Keeps Tables.writtenOff) := by
  have hquiet := publishes_no_writeOff
  cases op with
  | writeOff payload => exact absurd rfl (hop payload)
  | restructureSchedule payload =>
    exact ⟨fun _ _ _ _ _ _ => rfl, fun t n id _ _ => hquiet t n id rfl⟩
  | applyPayrollBatch payload => exact ⟨repaymentFrame_writtenOff, fun _ _ _ => rfl⟩
  | changeStatus payload => exact ⟨fun _ _ _ _ => rfl, fun t n id _ _ => hquiet t n id rfl⟩
  | approveApplication payload => exact fun _ _ => rfl
  | redeemShares payload => exact fun _ _ _ _ _ => rfl
  | withdraw payload => exact ⟨fun _ _ _ _ => rfl, fun _ _ _ => rfl⟩
  | _ => exact fun _ _ _ _ => rfl

/-- One write-off of the loan was executed. -/
structure WrittenOff (t t' : Tables) (loan : Loan) (amount : ℚ) : Prop where
  found : t.loan? loan.id = some loan
  event : t'.writtenOff = t.writtenOff ++ [(loan.id, amount)]
  column : 0 ≤ roundAt 4 (decimal (loan.outstandingPrincipal.val - amount))

theorem executeWriteOffOn_writtenOff {loan : Loan} {amount : ℚ} {reason key code : String}
    {actorId id : Uuid} {t t' : Tables} (hfound : t.loan? loan.id = some loan)
    (hkey : ∀ e ∈ t.entries, e.idempotencyKey ≠ key)
    (h : executeWriteOffOn loan amount reason actorId key code t = .ok id t') :
    WrittenOff t t' loan amount := by
  obtain ⟨loanLoss, t₁, row, -, -, hrec, hout⟩ := executeWriteOffOn_ok hkey h
  refine ⟨hfound, ?_, ?_⟩
  · simp [Tables.writtenOff, hout, EventBody.writtenOff?]
  · have hcolumn : row.outstandingPrincipal.val
        = roundAt 4 (decimal (loan.outstandingPrincipal.val - amount)) :=
      congrArg Balances.outstandingPrincipal hrec.saved.balances
    rw [← hcolumn]
    exact hrec.saved.outstanding_nonneg

/-- An amount with four decimals is within the balance. -/
theorem WrittenOff.amount_le {t t' : Tables} {loan : Loan} {amount : ℚ}
    (h : WrittenOff t t' loan amount) (hgrid : amount ∈ grid 4) :
    amount ≤ loan.outstandingPrincipal.val := le_of_column_nonneg hgrid h.column

theorem executeWriteOff_writtenOff {payload : WriteOffPayload} {t t' : Tables} {u : Unit}
    (h : executeWriteOff payload t = .ok u t') :
    t' = t ∨ ∃ loan amount, payload.loanId = some loan.id ∧ payload.amount = some amount ∧
      WrittenOff t t' loan amount := by
  rcases executeWriteOff_ok h with
    rfl | ⟨loanId, amount, reason, key, loan, id, hloanId, hamount, hloan, hkey, hexec⟩
  · exact .inl rfl
  · obtain ⟨-, rfl⟩ := loan?_eq_some hloan
    exact .inr ⟨loan, amount, hloanId, hamount, executeWriteOffOn_writtenOff hloan hkey hexec⟩

/-- What the execution of a request writes off. -/
theorem executorOutcome_writtenOff {env : Surroundings} {r : ApprovalRequest Operation}
    {t t' : Tables} {status : RequestStatus}
    (h : ExecutorOutcome (tenantHooks env) r t t' status) :
    t'.writtenOff = t.writtenOff ∨ ∃ payload loan amount, r.operation = .writeOff payload ∧
      payload.loanId = some loan.id ∧ payload.amount = some amount ∧
      WrittenOff t t' loan amount := by
  by_cases hop : ∃ payload, r.operation = .writeOff payload
  · obtain ⟨payload, hop⟩ := hop
    rcases h with ⟨hown, -⟩ | ⟨-, t₁, hleft, hnotify⟩
    · simp only [tenantHooks, hop, Operation.ownCommit] at hown
      cases hown
    · obtain rfl := notifyDecided_ok hnotify
      simp only [ExecutorLeft, tenantHooks, hop, Operation.execute] at hleft
      rcases hleft with ⟨hok, -⟩ | ⟨e, hraised, -⟩
      · rcases executeWriteOff_writtenOff hok with rfl | ⟨loan, amount, hloanId, hamount, hwritten⟩
        · exact .inl rfl
        · exact .inr ⟨payload, loan, amount, hop, hloanId, hamount, hwritten⟩
      · rw [raisesClean_executeWriteOff payload _ _ _ hraised]
        exact .inl rfl
  · have hother : ∀ payload, r.operation ≠ .writeOff payload := fun p hp => hop ⟨p, hp⟩
    exact .inl (executorOutcome_writes (writes_writtenOff hother) h)

/-! ## Requests with two checkers -/

/-- A request to write off asks for two approvals of an amount with four decimals. -/
def ApprovalRequest.TwoCheckers (r : ApprovalRequest Operation) : Prop :=
  ∀ payload, r.operation = .writeOff payload →
    2 ≤ r.requiredApprovals ∧ ∀ amount ∈ payload.amount, amount ∈ grid 4

/-- The submission respects dual control: through `POST /approvals` a write-off is submitted for
two approvals at least, and amounts that go to approval have four decimals. -/
def WriteOffOp.DualControlled (db : ApprovalDb Tables Operation) :
    Surroundings × WriteOffOp → Prop
  | (_, .writeOff w) =>
    ∀ loan ∈ db.data.loan? w.loanId, ∀ product ∈ db.data.product? loan.loanProductId,
      product.writeOffThreshold.val < w.amount → w.amount ∈ grid 4
  | (_, .approval (.submit s)) =>
    match s.operation with
    | .ok (.writeOff payload) =>
      2 ≤ s.requiredApprovals ∧ ∀ amount ∈ payload.amount, amount ∈ grid 4
    | _ => True
  | _ => True

instance (db : ApprovalDb Tables Operation) (op : Surroundings × WriteOffOp) :
    Decidable (WriteOffOp.DualControlled db op) := by
  unfold WriteOffOp.DualControlled
  split
  · infer_instance
  · rename_i s
    cases s
    dsimp only
    split <;> infer_instance
  · infer_instance

/-- Every request to write off has two checkers. -/
structure DualControlOk (db : ApprovalDb Tables Operation) : Prop where
  sound : db.Sound
  requests : ∀ r ∈ db.requests, r.TwoCheckers

/-- What the endpoint for write-offs does: nothing new, a write-off within the threshold and the
balance, or a request for two approvals. -/
theorem writeOffLoan_ok {env : Surroundings} {w : WriteOffIn} {db db' : ApprovalDb Tables Operation}
    {u : Unit} (h : writeOffLoan env w db = .ok u db') :
    db' = db ∨
    (∃ loan product data, db.data.product? loan.loanProductId = some product ∧
      w.amount ≤ loan.outstandingPrincipal.val ∧ w.amount ≤ product.writeOffThreshold.val ∧
      WrittenOff db.data data loan w.amount ∧ db' = { db with data }) ∨
    ∃ loan product payload, db.data.loan? w.loanId = some loan ∧
      db.data.product? loan.loanProductId = some product ∧
      product.writeOffThreshold.val < w.amount ∧ payload.amount = some w.amount ∧
      db' = { db with
        nextRequestId := db.nextRequestId + 1
        requests := db.requests ++
          [⟨db.nextRequestId, .writeOff payload, w.actorId, 2, .pending, none⟩] } := by
  obtain ⟨result, db₁, hresult, h⟩ := bind_eq_ok.mp h
  unfold onData at hresult
  cases hwrite : writeOff w db.data with
  | ok res data =>
    rw [hwrite] at hresult
    cases hresult
    rcases writeOff_cases hwrite with ⟨id, rfl, rfl⟩ |
      ⟨loan, product, hloan, hproduct, hlarge, rfl, rfl⟩ |
      ⟨loan, product, id, hloan, hproduct, hle, hsmall, hkey, rfl, hexec⟩
    · exact .inl (pure_eq_ok.mp h).2.symm
    · obtain ⟨requestId, db₂, hsubmit, h⟩ := bind_eq_ok.mp h
      obtain ⟨-, rfl⟩ := pure_eq_ok.mp h
      obtain ⟨operation, data, hoperation, -, hnotify, rfl⟩ := submit_ok hsubmit
      cases hoperation
      obtain rfl := notifyPending_ok hnotify
      exact .inr (.inr ⟨loan, product, _, hloan, hproduct, hlarge, rfl, rfl⟩)
    · obtain ⟨-, rfl⟩ := pure_eq_ok.mp h
      obtain ⟨-, hid⟩ := loan?_eq_some hloan
      have hfound : db.data.loan? loan.id = some loan := by rw [hid, hloan]
      exact .inr (.inl ⟨loan, product, data, hproduct, hle, hsmall,
        executeWriteOffOn_writtenOff hfound hkey hexec, rfl⟩)
  | raised e data =>
    rw [hwrite] at hresult
    cases hresult
  | aborted e =>
    rw [hwrite] at hresult
    cases hresult

/-- Dual control of the submissions gives every request its two checkers. -/
theorem step_dualControlOk {db : ApprovalDb Tables Operation} {op : Surroundings × WriteOffOp}
    (h : DualControlOk db) (hop : WriteOffOp.DualControlled db op) :
    DualControlOk (WriteOffOp.step db op) := by
  obtain ⟨env, op⟩ := op
  cases op with
  | writeOff w =>
    change DualControlOk (commit (writeOffLoan env w) db)
    rcases commit_cases (writeOffLoan env w) db with ⟨u, db', hok, heq⟩ | heq
    · rw [heq]
      rcases writeOffLoan_ok hok with rfl | ⟨loan, product, data, -, -, -, -, rfl⟩ |
        ⟨loan, product, payload, hloan, hproduct, hlarge, hamount, rfl⟩
      · exact h
      · exact ⟨h.sound.data data, h.requests⟩
      · refine ⟨h.sound.submitted rfl, ?_⟩
        intro r hr
        rcases List.mem_append.mp hr with hr | hr
        · exact h.requests r hr
        · rw [List.mem_singleton.mp hr]
          intro payload' hpayload
          cases hpayload
          refine ⟨le_rfl, ?_⟩
          rw [hamount]
          rintro amount ⟨⟩
          exact hop loan hloan product hproduct hlarge
    · rw [heq]
      exact h
  | approval op =>
    refine ⟨step_sound (tenantHooks env) h.sound op, ?_⟩
    refine step_requests (P := ApprovalRequest.TwoCheckers) (fun r status hr => hr) ?_ h.requests
    intro s operation hs hoperation id payload hpayload
    subst hs
    obtain rfl : operation = .writeOff payload := hpayload
    simp only [WriteOffOp.DualControlled, hoperation] at hop
    exact hop

/-- Two users other than the maker have approved the request. -/
def ApprovalDb.ApprovedByTwo (db : ApprovalDb Tables Operation) (r : ApprovalRequest Operation) :
    Prop :=
  ∃ a ∈ db.approvers r.id, ∃ b ∈ db.approvers r.id,
    a ≠ b ∧ a ≠ r.requestedBy ∧ b ≠ r.requestedBy

theorem ApprovalDb.Granted.approvedByTwo {db : ApprovalDb Tables Operation}
    {r : ApprovalRequest Operation} (h : db.Granted r) (htwo : 2 ≤ r.requiredApprovals) :
    db.ApprovedByTwo r := by
  have hlength : 2 ≤ (db.approvers r.id).length := by
    have hquorum := h.quorum
    have hmax := le_max_right 1 r.requiredApprovals
    omega
  have hdistinct := h.distinct
  have hothers := h.others
  unfold ApprovalDb.ApprovedByTwo
  match hlist : db.approvers r.id, hlength with
  | a :: b :: rest, _ =>
    rw [hlist] at hdistinct hothers
    have hne : a ≠ b := by
      rintro rfl
      simp at hdistinct
    exact ⟨a, by simp, b, by simp, hne, hothers a (by simp), hothers b (by simp)⟩

/-- A write-off of the step is within the balance of its loan. Above the threshold, it is the request
for this loan and amount that the step has executed, and two users other than its maker approved
it. -/
def Controlled (db db' : ApprovalDb Tables Operation) : Prop :=
  db'.data.writtenOff = db.data.writtenOff ∨
  ∃ loan amount, db'.data.writtenOff = db.data.writtenOff ++ [(loan.id, amount)] ∧
    db.data.loan? loan.id = some loan ∧ amount ≤ loan.outstandingPrincipal.val ∧
    ∀ product ∈ db.data.product? loan.loanProductId, product.writeOffThreshold.val < amount →
      ∃ r payload, db'.executions = db.executions ++ [r.id] ∧ db.request? r.id = some r ∧
        r.operation = .writeOff payload ∧ payload.loanId = some loan.id ∧
        payload.amount = some amount ∧ db'.ApprovedByTwo r

theorem step_controlled {db : ApprovalDb Tables Operation} (h : DualControlOk db)
    (env : Surroundings) {op : WriteOffOp} (hop : ∀ data, op ≠ .approval (.elsewhere data)) :
    Controlled db (WriteOffOp.step db (env, op)) := by
  have hsame : ∀ {db' : ApprovalDb Tables Operation}, db'.data = db.data → Controlled db db' := by
    intro db' hdata
    exact .inl (congrArg Tables.writtenOff hdata)
  cases op with
  | writeOff w =>
    change Controlled db (commit (writeOffLoan env w) db)
    rcases commit_cases (writeOffLoan env w) db with ⟨u, db', hok, heq⟩ | heq
    · rw [heq]
      rcases writeOffLoan_ok hok with rfl |
        ⟨loan, product, data, hproduct, hle, hsmall, hwritten, rfl⟩ | ⟨_, _, _, -, -, -, -, rfl⟩
      · exact hsame rfl
      · refine .inr ⟨loan, w.amount, hwritten.event, hwritten.found, hle, ?_⟩
        intro product' hproduct' hlarge
        rw [Option.mem_def, hproduct] at hproduct'
        cases hproduct'
        exact absurd hlarge (not_lt.mpr hsmall)
      · exact hsame rfl
    · rw [heq]
      exact hsame rfl
  | approval op =>
    show Controlled db (op.step (tenantHooks env) db)
    rcases ApprovalOp.step_data env db fun data heq => hop data (congrArg WriteOffOp.approval heq)
      with hdata | ⟨r, actor, data, status, rfl, hvote, hquorum, houtcome, heq⟩
    · exact hsame hdata
    · rw [heq]
      rcases executorOutcome_writtenOff houtcome with hnone |
        ⟨payload, loan, amount, hoperation, hloanId, hamount, hwritten⟩
      · exact .inl hnone
      · -- the executor ran on a request with two checkers, and its quorum is complete
        obtain ⟨htwo, hgrid⟩ := h.requests r hvote.mem payload hoperation
        refine .inr ⟨loan, amount, hwritten.event, hwritten.found,
          hwritten.amount_le (hgrid amount hamount), ?_⟩
        intro product _ _
        exact ⟨r, payload, rfl, hvote.found, hoperation, hloanId, hamount,
          (h.sound.granted_vote hvote hquorum).approvedByTwo htwo⟩

/-! ## Runs -/

/-- In every run whose submissions respect dual control, every write-off is within the balance of
its loan when it is executed, and one above the threshold of the product was approved by two users
other than its maker. -/
theorem writeOff_dualControl {db : ApprovalDb Tables Operation} (hfresh : db.Fresh)
    {ops : List (Surroundings × WriteOffOp)}
    (hops : Along WriteOffOp.step WriteOffOp.DualControlled db ops)
    {before after : List (Surroundings × WriteOffOp)} {env : Surroundings} {op : WriteOffOp}
    (hsplit : ops = before ++ (env, op) :: after)
    (hop : ∀ data, op ≠ .approval (.elsewhere data)) :
    Controlled (run WriteOffOp.step db before)
      (WriteOffOp.step (run WriteOffOp.step db before) (env, op)) := by
  rw [hsplit] at hops
  have hbefore := (along_append.mp hops).1
  have hstart : DualControlOk db := by
    refine ⟨hfresh.sound, ?_⟩
    intro r hr
    rw [hfresh.requests] at hr
    cases hr
  have hstep : ∀ s op, DualControlOk s → WriteOffOp.DualControlled s op →
      DualControlOk (WriteOffOp.step s op) := fun _ _ hs hop => step_dualControlOk hs hop
  have hok : DualControlOk (run WriteOffOp.step db before) := run_invariant hstep hstart hbefore
  exact step_controlled hok env hop

/-- The sample tenant with its loan of 1000, before the first request. -/
def writeOffTenant : ApprovalDb Tables Operation := ⟨disbursedTenant, 0, [], [], []⟩

/-- User 1 asks to write off 500, users 2 and 3 approve. -/
def writeOffRun : List (Surroundings × WriteOffOp) :=
  [(sampleSurroundings, .writeOff ⟨11, 500, "fled", 1, "w", "5100"⟩),
    (sampleSurroundings, .approval (.approve 0 2))]

theorem writeOff_dualControl_twoCheckers :
    (WriteOffOp.step (run WriteOffOp.step writeOffTenant writeOffRun)
      (sampleSurroundings, .approval (.approve 0 3))).data.writtenOff = [(11, 500)] ∧
    Controlled (run WriteOffOp.step writeOffTenant writeOffRun)
      (WriteOffOp.step (run WriteOffOp.step writeOffTenant writeOffRun)
        (sampleSurroundings, .approval (.approve 0 3))) := by
  have hops : Along WriteOffOp.step WriteOffOp.DualControlled writeOffTenant
      (writeOffRun ++ [(sampleSurroundings, .approval (.approve 0 3))]) := by decide +kernel
  exact ⟨by decide +kernel, writeOff_dualControl ⟨rfl, rfl, rfl⟩ hops rfl nofun⟩

/-- User 1 submits the same write-off through `POST /approvals`, with the default quorum. -/
def genericSubmission : List (Surroundings × WriteOffOp) :=
  [(sampleSurroundings, .approval (.submit ⟨.ok (.writeOff
    ⟨some 11, some 500, some "fled", some "w", some "5100"⟩), 1, 1, none⟩))]

/-- Then one approval is enough: 500 are written off, above the threshold of 100, with a single
checker. -/
theorem writeOff_one_checker :
    writeOffTenant.Fresh ∧
    (WriteOffOp.step (run WriteOffOp.step writeOffTenant genericSubmission)
      (sampleSurroundings, .approval (.approve 0 2))).data.writtenOff = [(11, 500)] ∧
    (WriteOffOp.step (run WriteOffOp.step writeOffTenant genericSubmission)
      (sampleSurroundings, .approval (.approve 0 2))).approvers 0 = [2] ∧
    ¬ Controlled (run WriteOffOp.step writeOffTenant genericSubmission)
      (WriteOffOp.step (run WriteOffOp.step writeOffTenant genericSubmission)
        (sampleSurroundings, .approval (.approve 0 2))) := by
  have hbefore : (run WriteOffOp.step writeOffTenant genericSubmission).data.writtenOff = [] := by
    decide +kernel
  have hafter : (WriteOffOp.step (run WriteOffOp.step writeOffTenant genericSubmission)
      (sampleSurroundings, .approval (.approve 0 2))).data.writtenOff = [(11, 500)] := by
    decide +kernel
  have happrovers : (WriteOffOp.step (run WriteOffOp.step writeOffTenant genericSubmission)
      (sampleSurroundings, .approval (.approve 0 2))).approvers 0 = [2] := by
    decide +kernel
  have hrequests : (run WriteOffOp.step writeOffTenant genericSubmission).requests.map (·.id)
      = [0] := by decide +kernel
  have hloan : ((run WriteOffOp.step writeOffTenant genericSubmission).data.loan? 11).map
      (·.loanProductId) = some 6 := by decide +kernel
  have hproduct : ((run WriteOffOp.step writeOffTenant genericSubmission).data.product? 6).map
      (·.writeOffThreshold.val) = some 100 := by decide +kernel
  refine ⟨⟨rfl, rfl, rfl⟩, hafter, happrovers, ?_⟩
  rintro (hnone | ⟨loan, amount, hevent, hfound, -, htwo⟩)
  · rw [hafter, hbefore] at hnone
    cases hnone
  · rw [hafter, hbefore] at hevent
    obtain ⟨hid, rfl⟩ : 11 = loan.id ∧ 500 = amount := by simpa using hevent
    rw [← hid] at hfound
    rw [hfound] at hloan
    obtain ⟨product, hp, hthreshold⟩ := Option.map_eq_some_iff.mp hproduct
    rw [← Option.some.inj hloan] at hp
    have hlarge : product.writeOffThreshold.val < 500 := by
      rw [hthreshold]
      norm_num
    obtain ⟨r, -, -, hr, -, -, -, a, ha, b, hb, hne, -⟩ := htwo product hp hlarge
    have hmem : r.id ∈ [0] := by
      rw [← hrequests]
      exact List.mem_map_of_mem (request?_eq_some hr).1
    rw [List.mem_singleton.mp hmem, happrovers] at ha hb
    exact hne ((List.mem_singleton.mp ha).trans (List.mem_singleton.mp hb).symm)

end SaccoPlatform
