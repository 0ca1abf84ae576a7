import SaccoPlatform.Lib.Tables
import SaccoPlatform.MakerChecker.Approvals
import SaccoPlatform.Platform.Executors
import SaccoPlatform.Shares.Service
import SaccoPlatform.Credit.Repayment
import SaccoPlatform.Credit.WriteOff
import SaccoPlatform.Credit.Restructuring

/-!
# The registered operations

`approval_registry` (`app/modules/maker_checker/registry.py`): the operations that can be
submitted for approval, each with its payload, and their executors. `tenantHooks` is what
`ApprovalService` calls in the session of a tenant, whose search path ends in `platform`, so
that the executors of both schemas find their tables.

In a payload `none` is a key that is missing or does not parse. The rows of
`notification_events` are left out: nothing modelled reads them.
-/

namespace SaccoPlatform

open Lib Session

/-! ## Notifications -/

/-- The first key of the context that no active template of the event allows. Without an active
template every key is allowed. -/
def Tables.disallowedKey? (t : Tables) (eventCode : String) (context : List String) :
    Option String :=
  let active := t.templates.filter fun m => m.code = eventCode ∧ m.isActive = true
  if active = [] then none else context.find? fun key => ∀ m ∈ active, key ∉ m.variableNames

/-- `NotificationService.publish`, as far as it can fail. -/
def publishNotification (eventCode : String) (context : List String) : Call Unit := do
  let t ← get
  match t.disallowedKey? eventCode context with
  | some key => raise (.valueError
      s!"context key '{key}' is not in the template allow-list for '{eventCode}'")
  | none => pure ()

/-! ## Executors of the tenant modules -/

/-- The payload of a `credit.approve_application` request. -/
structure ApproveApplicationPayload where
  applicationId : Option Uuid
  approvedAmount : Option ℚ
  approvedTermPeriods : Option ℤ
deriving DecidableEq, Repr

/-- Write an application row back under its primary key. -/
def Tables.putApplication (t : Tables) (row : LoanApplication) : Tables :=
  { t with applications := t.applications.map fun r => if r.id = row.id then row else r }

/-- `execute_approve_application`: the notice to the member goes out after the row is
written. -/
def executeApproveApplication (payload : ApproveApplicationPayload) : Call Unit := do
  let applicationId ← orRaise payload.applicationId (.keyError "application_id")
  let approvedAmount ← orRaise payload.approvedAmount (.keyError "approved_amount")
  let approvedTermPeriods ← orRaise payload.approvedTermPeriods
    (.keyError "approved_term_periods")
  let t ← get
  let application ← orRaise (t.application? applicationId)
    (.valueError s!"LoanApplication '{applicationId}' not found in executor")
  if application.status = .approved then pure ()
  else
    let amount ← writeMoney approvedAmount
    let termPeriods ← writeInteger approvedTermPeriods
    modify (·.putApplication { application with
      status := .approved
      approvedAmount := some amount
      approvedTermPeriods := some termPeriods })
    publishNotification "loan_application_approved" ["amount"]

/-- A line of a `ledger.post_journal_entry` payload. -/
structure PayloadLine where
  accountId : Uuid
  debitAmount : ℚ
  creditAmount : ℚ
  description : Option String
deriving DecidableEq, Repr

def PayloadLine.line (l : PayloadLine) : LineIn :=
  ⟨l.accountId, l.debitAmount, l.creditAmount, l.description, none, none⟩

/-- The payload of a `ledger.post_journal_entry` request. -/
structure JournalEntryPayload where
  lines : Option (List PayloadLine)
  reference : Option String
  description : Option String
  postedBy : Option Uuid
  idempotencyKey : Option String
deriving DecidableEq, Repr

/-- `execute_post_journal_entry`. -/
def executePostJournalEntry (payload : JournalEntryPayload) : Call Unit := do
  let lines ← orRaise payload.lines (.keyError "lines")
  let reference ← orRaise payload.reference (.keyError "reference")
  let description ← orRaise payload.description (.keyError "description")
  let postedBy ← orRaise payload.postedBy (.keyError "posted_by")
  let idempotencyKey ← orRaise payload.idempotencyKey (.keyError "idempotency_key")
  let _ ← postJournalEntry reference description postedBy idempotencyKey
    (lines.map PayloadLine.line)

/-- The payload of a `members.change_status` request. -/
structure ChangeStatusPayload where
  memberId : Option Uuid
  newStatus : Option String
deriving DecidableEq, Repr

/-- `ck_members_status`. -/
def memberStatus? (text : String) : Option MemberStatus :=
  if text = "pending" then some .pending
  else if text = "active" then some .active
  else if text = "suspended" then some .suspended
  else if text = "exited" then some .exited
  else none

/-- `execute_change_status`. -/
def executeChangeStatus (today : Date) (payload : ChangeStatusPayload) : Call Unit := do
  let memberId ← orRaise payload.memberId (.keyError "member_id")
  let newStatus ← orRaise payload.newStatus (.keyError "new_status")
  let t ← get
  let member ← orRaise (t.members.find? (·.id = memberId))
    (.valueError s!"Member '{memberId}' not found")
  match memberStatus? newStatus with
  | none => abort (.integrityError "ck_members_status")
  | some status =>
    let joinedAt := if status = .active then some (member.joinedAt.getD today)
      else member.joinedAt
    modify fun t => { t with members := t.members.map fun m =>
      if m.id = memberId then { member with status, joinedAt } else m }
    when (status = .active) (publish (.memberActivated memberId))

/-! ### Payroll batches -/

/-- The payload of a `credit.apply_payroll_batch` request. -/
structure PayrollPayload where
  batchId : Option Uuid
  clearingAccountId : Option Uuid
deriving DecidableEq, Repr

def Tables.batch? (t : Tables) (id : Uuid) : Option PayrollBatch := t.batches.find? (·.id = id)

def Tables.putBatch (t : Tables) (row : PayrollBatch) : Tables :=
  { t with batches := t.batches.map fun r => if r.id = row.id then row else r }

def Tables.putBatchLine (t : Tables) (row : PayrollBatchLine) : Tables :=
  { t with batchLines := t.batchLines.map fun r => if r.id = row.id then row else r }

/-- The lines of the batch that `apply_batch` goes through. -/
def Tables.matchedLines (t : Tables) (batchId : Uuid) : List PayrollBatchLine :=
  t.batchLines.filter fun l => l.payrollBatchId = batchId ∧ l.status = .matched

/-- One round of the loop of `apply_batch`, up to its commit. -/
def applyBatchLine (ar : LienArithmetic) (batch : PayrollBatch) (clearingAccountId : Uuid)
    (line : PayrollBatchLine) : Call Unit :=
  match line.loanId with
  | none => modify (·.putBatchLine { line with status := .error })
  | some loanId => do
    let result ← attempt (applyRepayment ar ⟨loanId, line.amount.val, clearingAccountId,
      systemActor, some s!"Payroll deduction batch {batch.reference}",
      s!"payroll-{batch.id}-{line.id}", none⟩)
    match result with
    | .ok id =>
      modify (·.putBatchLine { line with status := .applied, repaymentId := some id })
    | .error _ => modify (·.putBatchLine { line with status := .error })

/-- How far the payroll executor gets with its first commit. -/
inductive PayrollProgress where
  | alreadyApplied | lineCommitted | batchCommitted
deriving DecidableEq, Repr

/-- `apply_batch` up to its first commit: after the first matched line, or after the batch when
no line is matched. -/
def applyBatch (ar : LienArithmetic) (batchId clearingAccountId : Uuid) : Call PayrollProgress := do
  let t ← get
  let batch ← orRaise (t.batch? batchId) (.valueError s!"PayrollBatch '{batchId}' not found")
  require (batch.status = .approved) (.valueError s!"Batch '{batchId}' is not approved")
  match t.matchedLines batchId with
  | line :: _ => do
    applyBatchLine ar batch clearingAccountId line
    pure .lineCommitted
  | [] => do
    modify (·.putBatch { batch with status := .applied })
    pure .batchCommitted

/-- `execute_apply_payroll_batch` up to its first commit. -/
def startPayrollBatch (ar : LienArithmetic) (payload : PayrollPayload) :
    Call PayrollProgress := do
  let batchId ← orRaise payload.batchId (.keyError "batch_id")
  let clearingAccountId ← orRaise payload.clearingAccountId (.keyError "clearing_account_id")
  let t ← get
  let batch ← orRaise (t.batch? batchId) (.valueError s!"PayrollBatch '{batchId}' not found")
  if batch.status = .applied then pure .alreadyApplied
  else
    when (batch.status = .pendingReview) (modify (·.putBatch { batch with status := .approved }))
    applyBatch ar batchId clearingAccountId

/-- `execute_apply_payroll_batch`. The commit after the first line ends `SET LOCAL search_path`,
so the next statement finds no table: the update of the next line, or of the batch. Without a
matched line only the outbox row of the batch is still to be written. -/
def executeApplyPayrollBatch (ar : LienArithmetic) (payload : PayrollPayload) : Call Unit := do
  let progress ← startPayrollBatch ar payload
  when (progress = .lineCommitted) (abort .undefinedTable)

/-- What `execute_apply_payroll_batch` commits itself. -/
def payrollOwnCommit (ar : LienArithmetic) (payload : PayrollPayload) (t : Tables) :
    Option Tables :=
  match startPayrollBatch ar payload t with
  | .ok .alreadyApplied _ => none
  | .ok _ t' => some t'
  | _ => none

/-! ## The registry -/

/-- The registered operations with their payloads. -/
inductive Operation where
  | approveApplication (payload : ApproveApplicationPayload)
  | writeOff (payload : WriteOffPayload)
  | restructureSchedule (payload : RestructurePayload)
  | applyPayrollBatch (payload : PayrollPayload)
  | postJournalEntry (payload : JournalEntryPayload)
  | changeStatus (payload : ChangeStatusPayload)
  | redeemShares (payload : RedeemPayload)
  | withdraw (payload : WithdrawPayload)
  | updateSensitive (payload : UpdateSensitivePayload)
  | startImpersonation (payload : ImpersonationPayload)
  | confirmPayment (paymentId : Option Uuid)
  | voidInvoice (invoiceId : Option Uuid) (reason : Option String)
  | cancelSubscription (subscriptionId : Option Uuid) (reason : Option String)
  | tenantSuspend (tenantId : Option Uuid)
  | tenantCancel (payload : TenantCancelPayload)
  | retryProvisioning (tenantId : Option Uuid)
deriving DecidableEq, Repr

def Operation.type : Operation → String
  | approveApplication _ => "credit.approve_application"
  | writeOff _ => "credit.write_off"
  | restructureSchedule _ => "credit.restructure_schedule"
  | applyPayrollBatch _ => "credit.apply_payroll_batch"
  | postJournalEntry _ => "ledger.post_journal_entry"
  | changeStatus _ => "members.change_status"
  | redeemShares _ => "shares.redeem_shares"
  | withdraw _ => "savings.withdraw"
  | updateSensitive _ => "platform_user.update_sensitive"
  | startImpersonation _ => "platform.start_impersonation"
  | confirmPayment _ => "billing.confirm_payment"
  | voidInvoice _ _ => "billing.void_invoice"
  | cancelSubscription _ _ => "billing.cancel_subscription"
  | tenantSuspend _ => "tenant.suspend"
  | tenantCancel _ => "tenant.cancel"
  | retryProvisioning _ => "tenant.retry_provisioning"

/-- What a call sees besides the tables: the arithmetic of liens, the date, and the active
staff. -/
structure Surroundings where
  ar : LienArithmetic
  today : Date
  staff : List Uuid

/-- The executor of the operation. The id of the request goes into the payload under
`approval_request_id`, over whatever stands there. -/
def Operation.execute (env : Surroundings) (requestId : Uuid) : Operation → Call Unit
  | approveApplication payload => executeApproveApplication payload
  | writeOff payload => executeWriteOff payload
  | restructureSchedule payload =>
    executeRestructureSchedule env.today
      { payload with approvalRequestId := some (some requestId) }
  | applyPayrollBatch payload => executeApplyPayrollBatch env.ar payload
  | postJournalEntry payload => executePostJournalEntry payload
  | changeStatus payload => executeChangeStatus env.today payload
  | redeemShares payload => executeRedeemShares payload
  | withdraw payload => executeWithdraw payload
  | updateSensitive payload => executeUpdateSensitive payload
  | startImpersonation payload => executeStartImpersonation payload requestId
  | confirmPayment paymentId => executeConfirmPayment paymentId
  | voidInvoice invoiceId reason => executeVoidInvoice invoiceId reason
  | cancelSubscription subscriptionId reason => executeCancelSubscription subscriptionId reason
  | tenantSuspend tenantId => executeTenantSuspend tenantId
  | tenantCancel payload => executeTenantCancel payload
  | retryProvisioning tenantId => executeRetryProvisioning tenantId

/-- Only the payroll executor commits. -/
def Operation.ownCommit (env : Surroundings) (t : Tables) : Operation → Option Tables
  | applyPayrollBatch payload => payrollOwnCommit env.ar payload t
  | _ => none

/-- What `ApprovalService` calls in the session of a tenant: `notify_pending` writes to all
staff but the maker, `notify_decided` to a maker who is staff. -/
def tenantHooks (env : Surroundings) : ApprovalHooks Tables Operation where
  execute op requestId := op.execute env requestId
  ownCommit op _ t := op.ownCommit env t
  notifyPending request :=
    forEach (fun _ => publishNotification "maker_checker_pending"
      ["operation_type", "requested_by_label"]) (env.staff.filter (· ≠ request.requestedBy))
  notifyDecided request approved :=
    when (request.requestedBy ∈ env.staff)
      (if approved then publishNotification "maker_checker_approved" ["operation_type"]
      else publishNotification "maker_checker_rejected" ["operation_type", "reason"])

/-- A call on the approval tables and the tables of the tenant. -/
abbrev ApprovalCall := Session (ApprovalDb Tables Operation) Err

/-- Notifications change no modelled row. -/
theorem publishNotification_ok {eventCode : String} {context : List String} {t t' : Tables}
    {u : Unit} (h : publishNotification eventCode context t = .ok u t') :
    t' = t ∧ t.disallowedKey? eventCode context = none := by
  unfold publishNotification at h
  rw [get_bind_eq_ok] at h
  cases hkey : t.disallowedKey? eventCode context with
  | none =>
    rw [hkey] at h
    exact ⟨(pure_eq_ok.mp h).2.symm, rfl⟩
  | some key =>
    rw [hkey] at h
    cases h

theorem raisesClean_publishNotification (eventCode : String) (context : List String) :
    RaisesClean (publishNotification eventCode context) := by
  unfold publishNotification
  apply raisesClean_get_bind
  intro t
  split
  · exact raisesClean_raise _
  · exact raisesClean_pure _

theorem notifyDecided_ok {env : Surroundings} {request : ApprovalRequest Operation}
    {approved : Bool} {t t' : Tables} {u : Unit}
    (h : (tenantHooks env).notifyDecided request approved t = .ok u t') : t' = t := by
  simp only [tenantHooks, Session.when] at h
  split at h
  · split at h
    · exact (publishNotification_ok h).1
    · exact (publishNotification_ok h).1
  · exact (pure_eq_ok.mp h).2.symm

theorem notifyPending_ok {env : Surroundings} {request : ApprovalRequest Operation}
    {t t' : Tables} {u : Unit} (h : (tenantHooks env).notifyPending request t = .ok u t') :
    t' = t := by
  simp only [tenantHooks] at h
  generalize env.staff.filter (· ≠ request.requestedBy) = staff at h
  induction staff with
  | nil => exact (pure_eq_ok.mp h).2.symm
  | cons user staff ih =>
    obtain ⟨_, t₁, hone, hrest⟩ := bind_eq_ok.mp h
    obtain ⟨rfl, -⟩ := publishNotification_ok hone
    exact ih hrest

/-- A rejection changes the approval tables only. -/
theorem reject_data {env : Surroundings} {requestId actor : Uuid}
    {db db' : ApprovalDb Tables Operation} {u : Unit}
    (h : reject (tenantHooks env) requestId actor db = .ok u db') : db'.data = db.data := by
  obtain ⟨r, data, -, -, hnotify, rfl⟩ := rejectRequest_ok h
  exact notifyDecided_ok hnotify

theorem cancel_data {requestId maker : Uuid} {db db' : ApprovalDb Tables Operation} {u : Unit}
    (h : cancel requestId maker db = .ok u db') : db'.data = db.data := by
  obtain ⟨r, -, -, -, -, rfl⟩ := cancelRequest_ok h
  rfl

theorem submit_data {env : Surroundings} {s : SubmitIn Operation}
    {db db' : ApprovalDb Tables Operation} {id : Uuid}
    (h : submit (tenantHooks env) s db = .ok id db') : db'.data = db.data := by
  obtain ⟨_, data, -, -, hnotify, rfl⟩ := submit_ok h
  exact notifyPending_ok hnotify

theorem commit_data {α : Type} {x : ApprovalCall α} {db : ApprovalDb Tables Operation}
    (hx : ∀ a db', x db = .ok a db' → db'.data = db.data) : (commit x db).data = db.data :=
  commit_keeps (P := fun db' : ApprovalDb Tables Operation => db'.data = db.data) rfl hx

/-- A step of the service leaves the tables of the tenant alone, or runs the executor of a request
whose quorum is complete. -/
theorem ApprovalOp.step_data (env : Surroundings) (db : ApprovalDb Tables Operation)
    {op : ApprovalOp Tables Operation} (hop : ∀ data, op ≠ .elsewhere data) :
    (op.step (tenantHooks env) db).data = db.data ∨
    ∃ r actor data status, op = .approve r.id actor ∧ db.MayVote r actor ∧
      r.requiredApprovals ≤ (db.vote r.id actor .approve).approvalCount r.id ∧
      ExecutorOutcome (tenantHooks env) r db.data data status ∧
      op.step (tenantHooks env) db = { (db.vote r.id actor .approve).setStatus r.id status with
        data, executions := db.executions ++ [r.id] } := by
  cases op with
  | submit s => exact .inl (commit_data fun _ _ => submit_data)
  | approve requestId actor =>
    show (commitApprove (tenantHooks env) requestId actor db).data = db.data ∨ _
    rcases commitApprove_cases (tenantHooks env) requestId actor db with heq | ⟨r, -, -, heq⟩ |
      ⟨r, data, status, rfl, hvote, hquorum, houtcome, heq⟩
    · rw [heq]
      exact .inl rfl
    · -- a vote short of the quorum
      rw [heq]
      exact .inl rfl
    · exact .inr ⟨r, actor, data, status, rfl, hvote, hquorum, houtcome, heq⟩
  | reject requestId actor => exact .inl (commit_data fun _ _ => reject_data)
  | cancel requestId maker => exact .inl (commit_data fun _ _ => cancel_data)
  | expire now => exact .inl rfl
  | elsewhere data => exact absurd rfl (hop data)

end SaccoPlatform
