import SaccoPlatform.Lib.Connection
import SaccoPlatform.MakerChecker.Executors

/-!
# The search path of an approval

`get_tenant_session` (`app/core/db.py`) sets the search path of a request with `SET LOCAL`, which
lasts until the first `COMMIT`. `approve` leaves the commit to the owner of the session, and so do
the executors, except for the payroll batch: `PayrollBatchService.apply_batch` commits after every
line. Here the approval is written statement by statement over a `Connection`, and
`durable_approveIn` connects it to `commitApprove`, which the rest of the development uses.

What the ORM keeps back is issued with the next statement at the latest: the status of the request
with the query of `notify_decided`. The sessions do not expire their rows on commit, so the batch is
taken from memory after the loop, without a statement.
-/

namespace SaccoPlatform

open Lib Session

/-- A program on the connection of a tenant session. -/
abbrev TenantConn := Conn (ApprovalDb Tables Operation) Err

/-! ## The programs -/

/-- What one round of the loop of `apply_batch` writes. -/
def writeLineIn (ar : LienArithmetic) (batch : PayrollBatch) (clearingAccountId : Uuid)
    (line : PayrollBatchLine) : TenantConn Unit :=
  match line.loanId with
  | none => Conn.issue (onData (modify (·.putBatchLine { line with status := .error })))
  | some loanId => do
    let result ← Conn.attempt (Conn.issue (onData (applyRepayment ar ⟨loanId, line.amount.val,
      clearingAccountId, systemActor, some s!"Payroll deduction batch {batch.reference}",
      s!"payroll-{batch.id}-{line.id}", none⟩)))
    match result with
    | .ok id => Conn.issue (onData (modify (·.putBatchLine
        { line with status := .applied, repaymentId := some id })))
    | .error _ => Conn.issue (onData (modify (·.putBatchLine { line with status := .error })))

/-- One round of the loop of `apply_batch`. -/
def applyLineIn (ar : LienArithmetic) (batch : PayrollBatch) (clearingAccountId : Uuid)
    (line : PayrollBatchLine) : TenantConn Unit := do
  writeLineIn ar batch clearingAccountId line
  Conn.commit

/-- `PayrollBatchService.apply_batch`. The outbox row is added to the session after the last
commit. -/
def applyBatchIn (ar : LienArithmetic) (batchId clearingAccountId : Uuid) : TenantConn Unit := do
  let t ← Conn.issue (onData get)
  let batch ← Conn.orRaise (t.batch? batchId) (.valueError s!"PayrollBatch '{batchId}' not found")
  Conn.require (batch.status = .approved) (.valueError s!"Batch '{batchId}' is not approved")
  Conn.forEach (applyLineIn ar batch clearingAccountId) (t.matchedLines batchId)
  Conn.issue (onData (modify (·.putBatch { batch with status := .applied })))
  Conn.commit

/-- `execute_apply_payroll_batch`. -/
def executeApplyPayrollBatchIn (ar : LienArithmetic) (payload : PayrollPayload) :
    TenantConn Unit := do
  let batchId ← Conn.orRaise payload.batchId (.keyError "batch_id")
  let clearingAccountId ← Conn.orRaise payload.clearingAccountId (.keyError "clearing_account_id")
  let t ← Conn.issue (onData get)
  let batch ← Conn.orRaise (t.batch? batchId) (.valueError s!"PayrollBatch '{batchId}' not found")
  if batch.status = .applied then pure ()
  else
    Conn.when (batch.status = .pendingReview)
      (Conn.issue (onData (modify (·.putBatch { batch with status := .approved }))))
    applyBatchIn ar batchId clearingAccountId

/-- The executor of the operation. The others commit nothing. -/
def Operation.executeIn (env : Surroundings) (requestId : Uuid) : Operation → TenantConn Unit
  | applyPayrollBatch payload => executeApplyPayrollBatchIn env.ar payload
  | op => Conn.issue (onData (op.execute env requestId))

/-- `_execute`. -/
def executeRequestIn (env : Surroundings) (request : ApprovalRequest Operation) :
    TenantConn Unit := do
  let result ← Conn.attempt (request.operation.executeIn env request.id)
  match result with
  | .ok _ => Conn.issue (modify (·.setStatus request.id .executed))
  | .error _ => Conn.issue (modify (·.setStatus request.id .executionFailed))

/-- The status of a request whose quorum is complete, with the history variable. -/
def ApprovalDb.beginRun (db : ApprovalDb Tables Operation) (requestId : Uuid) :
    ApprovalDb Tables Operation :=
  { db.setStatus requestId .approved with executions := db.executions ++ [requestId] }

/-- The second half of `approve`, once the quorum is complete. -/
def settleIn (env : Surroundings) (request : ApprovalRequest Operation) : TenantConn Unit := do
  Conn.issue (modify (·.beginRun request.id))
  executeRequestIn env request
  Conn.issue (onData ((tenantHooks env).notifyDecided request true))

/-- `ApprovalService.approve`. -/
def approveIn (env : Surroundings) (requestId actorUserId : Uuid) : TenantConn Unit := do
  let (request, complete) ← Conn.issue (grant requestId actorUserId)
  if complete then settleIn env request else pure ()

/-! ## The payroll executor up to its first commit -/

section OnData

variable {σ κ α β : Type}

theorem onData_pure (a : α) : (onData (pure a) : Session (ApprovalDb σ κ) Err α) = pure a := rfl

theorem onData_bind (x : Session σ Err α) (f : α → Session σ Err β) :
    (onData (x >>= f) : Session (ApprovalDb σ κ) Err β) = onData x >>= fun a => onData (f a) := by
  funext db
  rw [bind_apply]
  unfold onData
  rw [bind_apply]
  cases x db.data <;> rfl

theorem onData_orRaise (o : Option α) (e : Err) :
    (onData (orRaise o e) : Session (ApprovalDb σ κ) Err α) = orRaise o e := by
  cases o <;> rfl

theorem onData_require (p : Prop) [Decidable p] (e : Err) :
    (onData (require p e) : Session (ApprovalDb σ κ) Err Unit) = require p e := by
  unfold require
  split <;> rfl

theorem onData_when (p : Prop) [Decidable p] (x : Session σ Err Unit) :
    (onData (when p x) : Session (ApprovalDb σ κ) Err Unit) = when p (onData x) := by
  unfold Session.when
  split <;> rfl

theorem onData_attempt (x : Session σ Err α) :
    (onData (attempt x) : Session (ApprovalDb σ κ) Err (Except Err α)) = attempt (onData x) := by
  funext db
  simp only [onData, attempt]
  cases x db.data <;> rfl

end OnData

theorem follows_writeLineIn (ar : LienArithmetic) (batch : PayrollBatch) (clearing : Uuid)
    (line : PayrollBatchLine) :
    Conn.Follows (writeLineIn ar batch clearing line)
      (onData (applyBatchLine ar batch clearing line)) := by
  unfold writeLineIn applyBatchLine
  cases line.loanId with
  | none => exact Conn.follows_issue _
  | some loanId =>
    intro c hc
    simp only [onData_bind, onData_attempt]
    apply Conn.FollowsAt.attempt_bind hc (Conn.follows_issue _ c hc)
    · intro id
      exact Conn.follows_issue _
    · intro e
      exact Conn.follows_issue _
    · intro e
      exact Conn.issues_issue _

/-- Without the search path a round raises: if not in the repayment, whose exception is caught, then
in the update of the line. -/
theorem issues_applyLineIn (ar : LienArithmetic) (batch : PayrollBatch) (clearing : Uuid)
    (line : PayrollBatchLine) : Conn.Issues (applyLineIn ar batch clearing line) := by
  apply Conn.Issues.bind
  unfold writeLineIn
  cases line.loanId with
  | none => exact Conn.issues_issue _
  | some loanId =>
    apply Conn.Issues.attempt_bind (Conn.issues_issue _)
    intro e
    exact Conn.issues_issue _

/-- What the executor returns when it made no commit. -/
def PayrollProgress.returned : PayrollProgress → Option Unit
  | alreadyApplied => some ()
  | lineCommitted => none
  | batchCommitted => none

theorem commits_applyBatchIn (ar : LienArithmetic) (batchId clearing : Uuid) :
    Conn.Commits PayrollProgress.returned (applyBatchIn ar batchId clearing)
      (onData (applyBatch ar batchId clearing)) := by
  unfold applyBatchIn applyBatch
  simp only [onData_bind, onData_orRaise, onData_require]
  apply Conn.Follows.bind_commits (Conn.follows_issue _)
  intro t
  apply Conn.Follows.bind_commits (Conn.follows_orRaise _ _)
  intro batch
  apply Conn.Follows.bind_commits (Conn.follows_require _ _)
  intro _
  cases t.matchedLines batchId with
  | nil =>
    show Conn.Commits _ (Conn.issue _ >>= fun _ => Conn.commit) _
    simp only [onData_bind, onData_pure]
    apply Conn.Follows.bind_commits (Conn.follows_issue _)
    intro _
    exact Conn.commits_last rfl
  | cons line lines =>
    show Conn.Commits _ (((writeLineIn ar batch clearing line >>= fun _ => Conn.commit) >>= fun _ =>
      Conn.forEach (applyLineIn ar batch clearing) lines) >>= _) _
    simp only [onData_bind, onData_pure, Conn.bind_assoc]
    apply Conn.Follows.bind_commits (follows_writeLineIn ar batch clearing line)
    intro _
    apply Conn.commits_commit rfl
    -- the next line, or without one the batch, is written without the search path
    apply Conn.Issues.idle
    apply Conn.issues_forEach_bind
    · intro next
      exact issues_applyLineIn ar batch clearing next
    · exact (Conn.issues_issue _).bind _

theorem commits_executeApplyPayrollBatchIn (ar : LienArithmetic) (payload : PayrollPayload) :
    Conn.Commits PayrollProgress.returned (executeApplyPayrollBatchIn ar payload)
      (onData (startPayrollBatch ar payload)) := by
  unfold executeApplyPayrollBatchIn startPayrollBatch
  simp only [onData_bind, onData_orRaise]
  apply Conn.Follows.bind_commits (Conn.follows_orRaise _ _)
  intro batchId
  apply Conn.Follows.bind_commits (Conn.follows_orRaise _ _)
  intro clearing
  apply Conn.Follows.bind_commits (Conn.follows_issue _)
  intro t
  apply Conn.Follows.bind_commits (Conn.follows_orRaise _ _)
  intro batch
  by_cases happlied : batch.status = .applied
  · simp only [if_pos happlied, onData_pure]
    exact Conn.commits_pure rfl
  · simp only [if_neg happlied, onData_bind, onData_when]
    apply Conn.Follows.bind_commits (Conn.follows_when (Conn.follows_issue _))
    intro _
    exact commits_applyBatchIn ar batchId clearing

/-! ## The approval -/

section Approval

variable {env : Surroundings} {requestId actor : Uuid} {op : Operation}
  {request : ApprovalRequest Operation} {c : Connection (ApprovalDb Tables Operation)}
  {db db' : ApprovalDb Tables Operation} {data : Tables}

/-- The payroll executor commits what it wrote so far, and is without the search path from there
on. -/
theorem executeIn_ownCommit (requestId : Uuid) (hc : c.Accepts)
    (h : op.ownCommit env c.tables.data = some data) :
    (op.executeIn env requestId c).2.durable = { c.tables with data } ∧
      (op.executeIn env requestId c).2.inForce = false := by
  cases op with
  | applyPayrollBatch payload =>
    have hshows := commits_executeApplyPayrollBatchIn env.ar payload c hc
    cases hstart : startPayrollBatch env.ar payload c.tables.data with
    | ok progress t =>
      simp only [onData, hstart] at hshows
      cases progress <;> simp [Operation.ownCommit, payrollOwnCommit, hstart] at h
      -- a line or the batch is committed
      all_goals
        rw [← h]
        exact hshows.2 rfl
    | raised e t => simp [Operation.ownCommit, payrollOwnCommit, hstart] at h
    | aborted e => simp [Operation.ownCommit, payrollOwnCommit, hstart] at h
  | _ => cases h

/-- Every other run of an executor is the call that `commitApprove` runs. -/
theorem followsAt_executeIn (hc : c.Accepts) (h : op.ownCommit env c.tables.data = none) :
    Conn.FollowsAt (op.executeIn env requestId) (onData (op.execute env requestId)) c := by
  cases op with
  | applyPayrollBatch payload =>
    have hshows := commits_executeApplyPayrollBatchIn env.ar payload c hc
    show Conn.Shows c _ (onData (executeApplyPayrollBatch env.ar payload) c.tables)
    simp only [executeApplyPayrollBatch, onData, bind_apply]
    cases hstart : startPayrollBatch env.ar payload c.tables.data with
    | ok progress t =>
      simp only [onData, hstart] at hshows
      cases progress <;> simp [Operation.ownCommit, payrollOwnCommit, hstart] at h
      exact hshows.1 () rfl
    | raised e t =>
      simp only [onData, hstart] at hshows
      exact hshows
    | aborted e =>
      simp only [onData, hstart] at hshows
      exact hshows
  | _ => exact Conn.follows_issue _ c hc

theorem issue_beginRun (hc : c.Accepts) :
    (Conn.issue (modify (·.beginRun request.id)) : TenantConn Unit) c
      = (.ok (), c.wrote (c.tables.beginRun request.id) 1) := by
  unfold Conn.issue
  rw [hc.failed, hc.inForce]
  rfl

/-- When the executor has committed, the rest of the approval is refused and on record. -/
theorem finish_settleIn (hc : c.Accepts)
    (h : request.operation.ownCommit env c.tables.data = some data) :
    (Conn.finish (settleIn env request c)).durable =
      { c.tables.beginRun request.id with data } ∧
      ¬ (Conn.finish (settleIn env request c)).InScope := by
  have hrest : ∀ result : Except (Fault Err) Unit, Conn.Issues
      ((match result with
        | .ok _ => Conn.issue (modify (·.setStatus request.id .executed))
        | .error _ => Conn.issue (modify (·.setStatus request.id .executionFailed))) >>= fun _ =>
      Conn.issue (onData ((tenantHooks env).notifyDecided request true)) : TenantConn Unit) := by
    intro result
    cases result with
    | ok _ => exact (Conn.issues_issue _).bind _
    | error _ => exact (Conn.issues_issue _).bind _
  have hc₁ := hc.wrote (c.tables.beginRun request.id) 1
  obtain ⟨hdurable, hforce⟩ : _ ∧ _ := executeIn_ownCommit request.id hc₁ h
  unfold settleIn executeRequestIn
  rw [Conn.bind_ok (issue_beginRun hc), Conn.bind_assoc,
    Conn.bind_ok (Conn.attempt_apply Prod.mk.eta.symm)]
  obtain ⟨hkept, hrecord⟩ := (hrest _).finish hforce
  exact ⟨hkept.trans hdurable, hrecord⟩

/-- What is written once the executor has ended. -/
def recordResult (requestId : Uuid) : Except Err Unit → ApprovalCall Unit
  | .ok _ => modify (·.setStatus requestId .executed)
  | .error _ => modify (·.setStatus requestId .executionFailed)

/-- When the executor leaves the commit to its caller, so does the approval. -/
theorem followsAt_settleIn (hc : c.Accepts)
    (h : request.operation.ownCommit env c.tables.data = none) :
    Conn.FollowsAt (settleIn env request) (settle (tenantHooks env) request true) c := by
  have hc₁ := hc.wrote (c.tables.beginRun request.id) 1
  have hexecutor : Conn.FollowsAt (executeRequestIn env request)
      (attempt (onData (request.operation.execute env request.id)) >>= recordResult request.id)
      (c.wrote (c.tables.beginRun request.id) 1) := by
    apply Conn.FollowsAt.attempt_bind hc₁ (followsAt_executeIn hc₁ h)
    · intro _
      exact Conn.follows_issue _
    · intro e
      exact Conn.follows_issue _
    · intro e
      exact Conn.issues_issue _
  unfold Conn.FollowsAt settleIn
  rw [Conn.bind_ok (issue_beginRun hc)]
  exact Conn.Shows.after (hexecutor.bind hc₁ fun _ => Conn.follows_issue _)

/-- An executor that the database refuses takes the approval with it. -/
theorem settle_aborted {e : Err}
    (h : request.operation.execute env request.id db.data = .aborted e) :
    settle (tenantHooks env) request true db = .aborted e := by
  have hcaught : attempt (onData (request.operation.execute env request.id))
      (db.beginRun request.id) = .aborted e := by
    have hread : request.operation.execute env request.id (db.beginRun request.id).data
        = .aborted e := h
    simp only [attempt, onData, hread]
  have hexecutor : executeRequest (tenantHooks env) request (db.setStatus request.id .approved)
      = .aborted e := by
    show (attempt (onData (request.operation.execute env request.id)) >>= _)
      (db.beginRun request.id) = _
    rw [bind_apply, hcaught]
  show (executeRequest (tenantHooks env) request >>= _) (db.setStatus request.id .approved) = _
  rw [bind_apply, hexecutor]

theorem serve_approveIn (env : Surroundings)
    (hgrant : grant requestId actor db = .ok (request, true) db') :
    ∃ n, Conn.serve (approveIn env requestId actor) db
      = Conn.finish (settleIn env request ((Connection.start db).wrote db' n)) := by
  have hshows : Conn.Shows (.start db) (Conn.issue (grant requestId actor) (.start db))
      (grant requestId actor db) := Conn.follows_issue _ _ (Connection.accepts_start db)
  rw [hgrant] at hshows
  obtain ⟨n, hissue⟩ := hshows
  refine ⟨n, ?_⟩
  unfold Conn.serve approveIn
  rw [Conn.bind_ok hissue]
  rfl

/-- The approval statement by statement makes durable what `commitApprove` says. -/
theorem durable_approveIn (env : Surroundings) (requestId actor : Uuid)
    (db : ApprovalDb Tables Operation) :
    (Conn.serve (approveIn env requestId actor) db).durable
      = commitApprove (tenantHooks env) requestId actor db := by
  have hstart : (Connection.start db).Accepts := Connection.accepts_start db
  have hgrant := Conn.follows_issue (grant requestId actor) _ hstart
  unfold Conn.FollowsAt at hgrant
  unfold commitApprove Conn.serve approveIn
  change Conn.Shows _ _ (grant requestId actor db) at hgrant
  cases hg : grant requestId actor db with
  | raised e db' =>
    rw [hg] at hgrant
    obtain ⟨n, hissue⟩ := hgrant
    rw [Conn.bind_error hissue]
    rfl
  | aborted e =>
    rw [hg] at hgrant
    obtain ⟨e', s, n, hissue⟩ := hgrant
    rw [Conn.bind_error hissue]
    rfl
  | ok result db' =>
    obtain ⟨request, complete⟩ := result
    rw [hg] at hgrant
    obtain ⟨n, hissue⟩ := hgrant
    have hc := hstart.wrote db' n
    rw [Conn.bind_ok hissue]
    cases complete with
    | false =>
      have hreturned : Conn.Follows (pure () : TenantConn Unit) (pure ()) := Conn.follows_pure ()
      exact (hreturned _ hc).durable_finish hc
    | true =>
      show (Conn.finish (settleIn env request _)).durable = _
      -- an executor that commits by itself ends the transaction of the approval
      cases hown : request.operation.ownCommit env db'.data with
      | some data =>
        rw [(finish_settleIn hc hown).1]
        simp only [commitSettle, settleOwnCommit, tenantHooks, hown]
        rfl
      | none =>
        rw [(followsAt_settleIn hc hown).durable_finish hc]
        have hnone : settleOwnCommit (tenantHooks env) request true db' = none := by
          simp only [settleOwnCommit, tenantHooks, hown]
          rfl
        have htables : ((Connection.start db).wrote db' n).tables = db' := rfl
        rw [htables]
        simp only [commitSettle, hnone]
        cases settle (tenantHooks env) request true db' <;> rfl

/-! ## A payroll batch -/

/-- The key under which the repayment of a line is filed. -/
def PayrollBatchLine.repaymentKey (batch : PayrollBatch) (line : PayrollBatchLine) : String :=
  s!"payroll-{batch.id}-{line.id}"

/-- What is on file of a loan. -/
def Tables.loanFile (t : Tables) (loanId : Uuid) :
    Option Loan × List LoanInstallment × List LoanRepayment :=
  (t.loan? loanId, t.installments.filter (·.loanId = loanId),
    t.repayments.filter (·.loanId = loanId))

/-- What an approved batch is to end in when the repayments of the lines in `failed` raise: the
batch and the other lines applied, with one repayment each, and the failed lines marked, with no
effect on a loan that has no other line. -/
structure BatchSettled (t t' : Tables) (batch : PayrollBatch) (failed : PayrollBatchLine → Prop) :
    Prop where
  done : ∃ row, t'.batch? batch.id = some row ∧ row.status = .applied
  applied : ∀ line ∈ t.matchedLines batch.id, ¬ failed line →
    (∃ row ∈ t'.batchLines, row.id = line.id ∧ row.status = .applied) ∧
      (t'.repayments.filter (·.idempotencyKey = line.repaymentKey batch)).length = 1
  error : ∀ line ∈ t.matchedLines batch.id, failed line →
    (∃ row ∈ t'.batchLines, row.id = line.id ∧ row.status = .error) ∧
      t'.repayments.filter (·.idempotencyKey = line.repaymentKey batch)
        = t.repayments.filter (·.idempotencyKey = line.repaymentKey batch) ∧
      ∀ loanId, line.loanId = some loanId →
        (∀ other ∈ t.matchedLines batch.id, other.loanId = some loanId → failed other) →
          t'.loanFile loanId = t.loanFile loanId

/-- The executor takes up a batch that is not rejected or applied, and it commits unless the
database refuses the first line. -/
theorem startPayrollBatch_open (ar : LienArithmetic) {p : PayrollPayload} {batch : PayrollBatch}
    {batchId clearing : Uuid} {t : Tables} (hid : p.batchId = some batchId)
    (hclearing : p.clearingAccountId = some clearing) (hbatch : t.batch? batchId = some batch)
    (hstatus : batch.status = .pendingReview ∨ batch.status = .approved) :
    (payrollOwnCommit ar p t).isSome ∨ ∃ e, startPayrollBatch ar p t = .aborted e := by
  have hnotApplied : batch.status ≠ .applied := by
    rcases hstatus with h | h <;> rw [h] <;> decide
  obtain ⟨t₁, batch₁, hbatch₁, heq, hcase⟩ :=
    startPayrollBatch_found ar hid hclearing hbatch hnotApplied
  have happroved : batch₁.status = .approved := by
    rcases hcase with ⟨-, happroved⟩ | ⟨hpending, rfl, -⟩
    · exact happroved
    · exact hstatus.resolve_left hpending
  unfold payrollOwnCommit
  rw [heq]
  cases hend : applyBatch ar batchId clearing t₁ with
  | ok progress t' =>
    left
    cases progress with
    | alreadyApplied =>
      -- `apply_batch` itself always commits something
      simp only [applyBatch, get_bind_eq_ok, orRaise_bind_eq_ok, require_bind_eq_ok] at hend
      obtain ⟨row, -, -, hend⟩ := hend
      cases hlines : t₁.matchedLines batchId with
      | nil =>
        rw [hlines] at hend
        obtain ⟨_, _, -, hpure⟩ := bind_eq_ok.mp hend
        cases (pure_eq_ok.mp hpure).1
      | cons line lines =>
        rw [hlines] at hend
        obtain ⟨_, _, -, hpure⟩ := bind_eq_ok.mp hend
        cases (pure_eq_ok.mp hpure).1
    | lineCommitted => rfl
    | batchCommitted => rfl
  | raised e t' => exact absurd happroved (applyBatch_raised hbatch₁ hend).1
  | aborted e => exact .inr ⟨e, rfl⟩

/-- No approved batch is carried through as its design says. As soon as anything of it is committed
the next statement runs without the search path, and when the database refuses the first line the
whole approval is rolled back. -/
theorem payroll_batch_not_carried_through (env : Surroundings) {payload : PayrollPayload}
    {batch : PayrollBatch} {batchId clearing : Uuid}
    (hgrant : grant requestId actor db = .ok (request, true) db')
    (hop : request.operation = .applyPayrollBatch payload) (hid : payload.batchId = some batchId)
    (hclearing : payload.clearingAccountId = some clearing)
    (hbatch : db.data.batch? batchId = some batch)
    (hstatus : batch.status = .pendingReview ∨ batch.status = .approved)
    (failed : PayrollBatchLine → Prop) :
    ¬ ((Conn.serve (approveIn env requestId actor) db).InScope ∧
      BatchSettled db.data (Conn.serve (approveIn env requestId actor) db).durable.data batch
        failed) := by
  obtain ⟨-, -, hvote, -⟩ := grant_ok hgrant
  have hdata : db'.data = db.data := by rw [hvote]; rfl
  rintro ⟨hscope, hsettled⟩
  obtain ⟨n, hserve⟩ := serve_approveIn env hgrant
  have hc := (Connection.accepts_start db).wrote db' n
  rcases startPayrollBatch_open env.ar hid hclearing hbatch hstatus with hcommits | ⟨e, haborted⟩
  · -- the executor committed, so that the status of the request is on record out of scope
    obtain ⟨data, hown⟩ := Option.isSome_iff_exists.mp hcommits
    have hown' : request.operation.ownCommit env db'.data = some data := by
      rw [hop, hdata]
      exact hown
    rw [hserve] at hscope
    exact (finish_settleIn hc hown').2 hscope
  · -- nothing is durable, and the batch is where it was
    have hown : request.operation.ownCommit env db'.data = none := by
      rw [hop, hdata]
      simp only [Operation.ownCommit, payrollOwnCommit, haborted]
    have hrefused : settle (tenantHooks env) request true db' = .aborted e := by
      have hexecute : request.operation.execute env request.id db'.data = .aborted e := by
        rw [hop, hdata]
        simp only [Operation.execute, executeApplyPayrollBatch, bind_apply, haborted]
      exact settle_aborted hexecute
    have hkept : (Conn.serve (approveIn env requestId actor) db).durable = db := by
      have hread : settle (tenantHooks env) request true
          ((Connection.start db).wrote db' n).tables = .aborted e := hrefused
      rw [hserve, (followsAt_settleIn hc hown).durable_finish hc, hread]
      rfl
    obtain ⟨row, hrow, happlied⟩ := hsettled.done
    have hbid : batch.id = batchId := by simpa using List.find?_some hbatch
    rw [hkept, hbid, hbatch] at hrow
    rw [← Option.some.inj hrow] at happlied
    rcases hstatus with h | h <;> rw [h] at happlied <;> cases happlied

end Approval

/-- The sample loan with a payroll batch of two deductions of 100, waiting for review. -/
def payrollTenant : Tables :=
  { disbursedTenant with
    batches := [⟨50, "2026-02", .pendingReview⟩]
    batchLines := [⟨51, 50, money 100, some 11, .matched, none⟩,
      ⟨52, 50, money 100, some 11, .matched, none⟩] }

/-- The request to apply the batch, with account 5 for clearing. -/
def payrollRequest : Operation := .applyPayrollBatch ⟨some 50, some 5⟩

theorem grant_payrollRequest :
    grant 0 2 (pendingOn payrollTenant payrollRequest)
      = .ok (⟨0, payrollRequest, 1, 1, .pending, none⟩, true)
        ((pendingOn payrollTenant payrollRequest).vote 0 2 .approve) := by decide +kernel

/-- The connection of user 2's approval. -/
def payrollServed : Connection (ApprovalDb Tables Operation) :=
  Conn.serve (approveIn sampleSurroundings 0 2) (pendingOn payrollTenant payrollRequest)

theorem payroll_batch_not_carried_through_sample :
    ¬ (payrollServed.InScope ∧ BatchSettled payrollTenant payrollServed.durable.data
      ⟨50, "2026-02", .pendingReview⟩ fun _ => False) :=
  payroll_batch_not_carried_through sampleSurroundings grant_payrollRequest rfl rfl rfl rfl
    (.inl rfl) _

/-- The first deduction is repaid and committed. The second one and the batch are then written
without the search path: the line stays `matched` and the batch and the request stay `approved`. -/
theorem payroll_batch_stops_after_first_line :
    payrollServed.issued
      = [true, true, true, true, true, true, true, false, false, false] ∧
    payrollServed.durable.data.batchLines.map (·.status) = [.applied, .matched] ∧
    payrollServed.durable.data.batches.map (·.status) = [.approved] ∧
    payrollServed.durable.requests.map (·.status) = [.approved] ∧
    ¬ payrollServed.InScope ∧
    ∀ failed, ¬ BatchSettled payrollTenant payrollServed.durable.data
      ⟨50, "2026-02", .pendingReview⟩ failed := by
  have hbatch : payrollServed.durable.data.batch? 50 = some ⟨50, "2026-02", .approved⟩ := by
    decide +kernel
  refine ⟨by decide +kernel, by decide +kernel, by decide +kernel, by decide +kernel,
    by decide +kernel, ?_⟩
  intro failed hsettled
  obtain ⟨row, hrow, happlied⟩ := hsettled.done
  rw [hbatch] at hrow
  rw [← Option.some.inj hrow] at happlied
  cases happlied

end SaccoPlatform
