import SaccoPlatform.Database
import SaccoPlatform.Lib.Runs

/-!
# Maker-checker

`ApprovalService` (`app/modules/maker_checker/service.py`): a maker submits an operation,
checkers approve or reject it, and the approval that completes the quorum runs the operation's
executor inside its own transaction. The service is the same for the tenant and the platform
schema and knows nothing of the operations, so the model is generic in them: `κ` is the type of
registered operations with their payloads, `σ` everything the executors work on.

`Transition` says once what a committed call can do to the approval tables; what holds of every
run is derived from it. The audit rows and outbox events of the service are left out.
-/

namespace SaccoPlatform

open Lib Session

inductive RequestStatus where
  | pending | approved | executed | executionFailed | rejected | cancelled | expired
deriving DecidableEq, Repr

def RequestStatus.text : RequestStatus → String
  | pending => "pending"
  | approved => "approved"
  | executed => "executed"
  | executionFailed => "execution_failed"
  | rejected => "rejected"
  | cancelled => "cancelled"
  | expired => "expired"

inductive Decision where
  | approve | reject
deriving DecidableEq, Repr

/-- `approval_requests`. -/
structure ApprovalRequest (κ : Type) where
  id : Uuid
  operation : κ
  requestedBy : Uuid
  requiredApprovals : ℤ
  status : RequestStatus
  expiresAt : Option ℤ
deriving DecidableEq, Repr

/-- `approval_actions`. -/
structure ApprovalAction where
  approvalRequestId : Uuid
  actorUserId : Uuid
  action : Decision
deriving DecidableEq, Repr

/-- The approval tables next to the rest of the database. `executions` is a history variable:
the requests whose executor ran in a committed transaction, in order. -/
structure ApprovalDb (σ κ : Type) where
  data : σ
  nextRequestId : ℕ
  requests : List (ApprovalRequest κ)
  actions : List ApprovalAction
  executions : List Uuid
deriving DecidableEq

/-- What the service calls: the executor of an operation, which also gets the id of the
request, and the notifications. `ownCommit` is the data as the executor itself committed it,
and `none` when it leaves the commit to its caller, as all but `credit.apply_payroll_batch`
do. A commit ends `SET LOCAL search_path`, so that every later statement of the call is
refused and nothing else becomes durable. -/
structure ApprovalHooks (σ κ : Type) where
  execute : κ → Uuid → Session σ Err Unit
  ownCommit : κ → Uuid → σ → Option σ
  notifyPending : ApprovalRequest κ → Session σ Err Unit
  notifyDecided : ApprovalRequest κ → Bool → Session σ Err Unit

variable {σ κ α : Type}

namespace ApprovalDb

def request? (db : ApprovalDb σ κ) (id : Uuid) : Option (ApprovalRequest κ) :=
  db.requests.find? (·.id = id)

def actionsOn (db : ApprovalDb σ κ) (id : Uuid) : List ApprovalAction :=
  db.actions.filter (·.approvalRequestId = id)

/-- The users who approved the request. -/
def approvers (db : ApprovalDb σ κ) (id : Uuid) : List Uuid :=
  ((db.actionsOn id).filter (·.action = .approve)).map (·.actorUserId)

/-- `approval_count`. -/
def approvalCount (db : ApprovalDb σ κ) (id : Uuid) : ℕ := (db.approvers id).length

/-- `UPDATE approval_requests SET status = ... WHERE p`. -/
def setStatuses (db : ApprovalDb σ κ) (p : ApprovalRequest κ → Prop) [DecidablePred p]
    (status : RequestStatus) : ApprovalDb σ κ :=
  { db with requests := db.requests.map fun r => if p r then { r with status } else r }

def setStatus (db : ApprovalDb σ κ) (id : Uuid) (status : RequestStatus) : ApprovalDb σ κ :=
  db.setStatuses (·.id = id) status

end ApprovalDb

/-- A call on the rest of the database, in the same session. -/
def onData (x : Session σ Err α) : Session (ApprovalDb σ κ) Err α := fun db =>
  match x db.data with
  | .ok a data => .ok a { db with data }
  | .raised e data => .raised e { db with data }
  | .aborted e => .aborted e

/-! ## The service -/

/-- The arguments of `submit`. The operation is an error with the name of its type when no
executor is registered for it. -/
structure SubmitIn (κ : Type) where
  operation : Except String κ
  requestedBy : Uuid
  requiredApprovals : ℤ
  expiresAt : Option ℤ

/-- `ApprovalService.submit`; returns the request. -/
def submit (hooks : ApprovalHooks σ κ) (s : SubmitIn κ) : Session (ApprovalDb σ κ) Err Uuid := do
  let operation ← ofExcept (s.operation.mapError fun type =>
    .valueError s!"No executor registered for operation_type '{type}'")
  constraint (-2 ^ 31 ≤ s.requiredApprovals ∧ s.requiredApprovals < 2 ^ 31) .numericOverflow
  let db ← get
  let request : ApprovalRequest κ :=
    ⟨db.nextRequestId, operation, s.requestedBy, s.requiredApprovals, .pending, s.expiresAt⟩
  modify fun db => { db with
    nextRequestId := db.nextRequestId + 1
    requests := db.requests ++ [request] }
  onData (hooks.notifyPending request)
  pure request.id

/-- `_get_pending`. -/
def getPending (requestId : Uuid) : Session (ApprovalDb σ κ) Err (ApprovalRequest κ) := do
  let db ← get
  let request ← orRaise (db.request? requestId)
    (.valueError s!"Approval request {requestId} not found")
  require (request.status = .pending)
    (.valueError s!"Request is in status '{request.status.text}', not 'pending'")
  pure request

/-- Insert an `approval_actions` row: `uq_tenant_approval_actions_no_double_vote`. The trigger
against actions of the maker repeats a check that every caller has made. -/
def insertAction (requestId actorUserId : Uuid) (action : Decision) :
    Session (ApprovalDb σ κ) Err Unit := do
  let db ← get
  constraint (∀ a ∈ db.actionsOn requestId, a.actorUserId ≠ actorUserId)
    (.integrityError "uq_tenant_approval_actions_no_double_vote")
  modify fun db => { db with actions := db.actions ++ [⟨requestId, actorUserId, action⟩] }

/-- `_execute`: an exception of the executor is swallowed in the same session. -/
def executeRequest (hooks : ApprovalHooks σ κ) (request : ApprovalRequest κ) :
    Session (ApprovalDb σ κ) Err Unit := do
  modify fun db => { db with executions := db.executions ++ [request.id] }
  let result ← attempt (onData (hooks.execute request.operation request.id))
  match result with
  | .ok _ => modify (·.setStatus request.id .executed)
  | .error _ => modify (·.setStatus request.id .executionFailed)

/-- The first half of `approve`: the action of the checker, and whether it completes the
quorum. -/
def grant (requestId actorUserId : Uuid) :
    Session (ApprovalDb σ κ) Err (ApprovalRequest κ × Bool) := do
  let request ← getPending requestId
  require (actorUserId ≠ request.requestedBy) (.valueError "Self-approval is forbidden")
  insertAction request.id actorUserId .approve
  let db ← get
  pure (request, request.requiredApprovals ≤ db.approvalCount request.id)

/-- The second half of `approve`, with the request as it was read. -/
def settle (hooks : ApprovalHooks σ κ) (request : ApprovalRequest κ) (complete : Bool) :
    Session (ApprovalDb σ κ) Err Unit :=
  when complete do
    modify (·.setStatus request.id .approved)
    executeRequest hooks request
    onData (hooks.notifyDecided request true)

/-- `ApprovalService.approve`. -/
def approve (hooks : ApprovalHooks σ κ) (requestId actorUserId : Uuid) :
    Session (ApprovalDb σ κ) Err Unit := do
  let (request, complete) ← grant requestId actorUserId
  settle hooks request complete

/-- What the second half has made durable when the executor committed: the request stays
`approved`. -/
def settleOwnCommit (hooks : ApprovalHooks σ κ) (request : ApprovalRequest κ) (complete : Bool)
    (db : ApprovalDb σ κ) : Option (ApprovalDb σ κ) :=
  if complete then
    (hooks.ownCommit request.operation request.id db.data).map fun data =>
      { db.setStatus request.id .approved with
        data
        executions := db.executions ++ [request.id] }
  else none

/-- What is durable of the second half; `none` when it is rolled back. -/
def commitSettle (hooks : ApprovalHooks σ κ) (request : ApprovalRequest κ) (complete : Bool)
    (db : ApprovalDb σ κ) : Option (ApprovalDb σ κ) :=
  match settleOwnCommit hooks request complete db with
  | some db' => some db'
  | none =>
    match settle hooks request complete db with
    | .ok _ db' => some db'
    | _ => none

/-- What is durable once `approve` is over. -/
def commitApprove (hooks : ApprovalHooks σ κ) (requestId actorUserId : Uuid)
    (db : ApprovalDb σ κ) : ApprovalDb σ κ :=
  match grant requestId actorUserId db with
  | .ok (request, complete) db' => (commitSettle hooks request complete db').getD db
  | _ => db

/-- `ApprovalService.reject`. -/
def reject (hooks : ApprovalHooks σ κ) (requestId actorUserId : Uuid) :
    Session (ApprovalDb σ κ) Err Unit := do
  let request ← getPending requestId
  require (actorUserId ≠ request.requestedBy) (.valueError "Self-rejection is forbidden")
  insertAction request.id actorUserId .reject
  modify (·.setStatus request.id .rejected)
  onData (hooks.notifyDecided request false)

/-- `ApprovalService.cancel`. -/
def cancel (requestId requestedBy : Uuid) : Session (ApprovalDb σ κ) Err Unit := do
  let request ← getPending requestId
  require (request.requestedBy = requestedBy)
    (.valueError "Only the maker can cancel their own request")
  let db ← get
  require (db.actionsOn request.id = [])
    (.valueError "Cannot cancel after a checker has acted — use reject instead")
  modify (·.setStatus request.id .cancelled)

/-- The request is pending and past its deadline. -/
def ApprovalRequest.Overdue (now : ℤ) (r : ApprovalRequest κ) : Prop :=
  r.status = .pending ∧ ∃ t ∈ r.expiresAt, t < now

instance (now : ℤ) (r : ApprovalRequest κ) : Decidable (r.Overdue now) :=
  inferInstanceAs (Decidable (_ ∧ ∃ t ∈ r.expiresAt, t < now))

/-- The `UPDATE` of `_run_expiry`. -/
def ApprovalDb.expire (db : ApprovalDb σ κ) (now : ℤ) : ApprovalDb σ κ :=
  db.setStatuses (·.Overdue now) .expired

/-- One committed transaction; `elsewhere` is any other one, which leaves the approval tables
alone. -/
inductive ApprovalOp (σ κ : Type) where
  | submit (s : SubmitIn κ)
  | approve (requestId actorUserId : Uuid)
  | reject (requestId actorUserId : Uuid)
  | cancel (requestId requestedBy : Uuid)
  | expire (now : ℤ)
  | elsewhere (data : σ)

def ApprovalOp.step (hooks : ApprovalHooks σ κ) (db : ApprovalDb σ κ) :
    ApprovalOp σ κ → ApprovalDb σ κ
  | submit s => commit (SaccoPlatform.submit hooks s) db
  | approve requestId actor => commitApprove hooks requestId actor db
  | reject requestId actor => commit (SaccoPlatform.reject hooks requestId actor) db
  | cancel requestId maker => commit (SaccoPlatform.cancel requestId maker) db
  | expire now => db.expire now
  | elsewhere data => { db with data }

/-! ## What a committed call can do -/

def ApprovalDb.vote (db : ApprovalDb σ κ) (requestId actorUserId : Uuid) (action : Decision) :
    ApprovalDb σ κ := { db with actions := db.actions ++ [⟨requestId, actorUserId, action⟩] }

/-- A user other than the maker acts on a pending request for the first time. -/
structure ApprovalDb.MayVote (db : ApprovalDb σ κ) (r : ApprovalRequest κ) (actor : Uuid) :
    Prop where
  found : db.request? r.id = some r
  pending : r.status = .pending
  other : actor ≠ r.requestedBy
  first : ∀ a ∈ db.actionsOn r.id, a.actorUserId ≠ actor

instance [DecidableEq κ] (db : ApprovalDb σ κ) (r : ApprovalRequest κ) (actor : Uuid) :
    Decidable (db.MayVote r actor) :=
  decidable_of_iff (db.request? r.id = some r ∧ r.status = .pending ∧ actor ≠ r.requestedBy ∧
      ∀ a ∈ db.actionsOn r.id, a.actorUserId ≠ actor)
    ⟨fun h => ⟨h.1, h.2.1, h.2.2.1, h.2.2.2⟩, fun h => ⟨h.found, h.pending, h.other, h.first⟩⟩

theorem ApprovalDb.MayVote.mem {db : ApprovalDb σ κ} {r : ApprovalRequest κ} {actor : Uuid}
    (h : db.MayVote r actor) : r ∈ db.requests := List.mem_of_find?_eq_some h.found

/-- The request's executor ran. -/
def RequestStatus.Ran (status : RequestStatus) : Prop :=
  status = .executed ∨ status = .executionFailed ∨ status = .approved

/-- What a committed call does to the approval tables. -/
inductive Transition (db : ApprovalDb σ κ) : ApprovalDb σ κ → Prop
  | data (data : σ) : Transition db { db with data }
  | submitted (data : σ) (r : ApprovalRequest κ) (id : r.id = db.nextRequestId)
      (status : r.status = .pending) :
      Transition db { db with
        data
        nextRequestId := db.nextRequestId + 1
        requests := db.requests ++ [r] }
  | approved (r : ApprovalRequest κ) (actor : Uuid) (vote : db.MayVote r actor)
      (short : (db.vote r.id actor .approve).approvalCount r.id < r.requiredApprovals) :
      Transition db (db.vote r.id actor .approve)
  | ran (data : σ) (r : ApprovalRequest κ) (actor : Uuid) (status : RequestStatus)
      (vote : db.MayVote r actor)
      (quorum : r.requiredApprovals ≤ (db.vote r.id actor .approve).approvalCount r.id)
      (ran : status.Ran) :
      Transition db { (db.vote r.id actor .approve).setStatus r.id status with
        data
        executions := db.executions ++ [r.id] }
  | rejected (data : σ) (r : ApprovalRequest κ) (actor : Uuid) (vote : db.MayVote r actor) :
      Transition db { (db.vote r.id actor .reject).setStatus r.id .rejected with data }
  | withdrawn (p : ApprovalRequest κ → Prop) [DecidablePred p] (status : RequestStatus)
      (pending : ∀ r ∈ db.requests, p r → r.status = .pending)
      (left : status = .cancelled ∨ status = .expired) :
      Transition db (db.setStatuses p status)

/-- Where executors leave the commit to their caller, an approval is all or nothing. -/
theorem commitApprove_eq_commit {hooks : ApprovalHooks σ κ}
    (hown : ∀ k id data, hooks.ownCommit k id data = none) (requestId actorUserId : Uuid)
    (db : ApprovalDb σ κ) :
    commitApprove hooks requestId actorUserId db
      = commit (approve hooks requestId actorUserId) db := by
  have hnone : ∀ r complete (db' : ApprovalDb σ κ),
      settleOwnCommit hooks r complete db' = none := by
    intro r complete db'
    unfold settleOwnCommit
    rw [hown]
    split <;> rfl
  unfold commitApprove commit approve
  rw [bind_apply]
  cases grant requestId actorUserId db with
  | ok result db' =>
    obtain ⟨r, complete⟩ := result
    simp only [commitSettle, hnone]
    cases settle hooks r complete db' <;> rfl
  | raised e db' => rfl
  | aborted e => rfl

theorem setStatus_setStatus (db : ApprovalDb σ κ) (id : Uuid) (a b : RequestStatus) :
    (db.setStatus id a).setStatus id b = db.setStatus id b := by
  unfold ApprovalDb.setStatus ApprovalDb.setStatuses
  congr 1
  rw [List.map_map]
  apply List.map_congr_left
  intro r _
  by_cases h : r.id = id
  · simp [h]
  · simp [h]

theorem request?_setStatus (db : ApprovalDb σ κ) (id : Uuid) (status : RequestStatus) :
    (db.setStatus id status).request? id = (db.request? id).map ({ · with status }) := by
  unfold ApprovalDb.request? ApprovalDb.setStatus ApprovalDb.setStatuses
  induction db.requests with
  | nil => rfl
  | cons r rest ih =>
    by_cases hid : r.id = id
    · simp [hid]
    · simp [hid, ih]

theorem request?_setStatus_of_ne (db : ApprovalDb σ κ) {id id' : Uuid} (h : id' ≠ id)
    (status : RequestStatus) : (db.setStatus id status).request? id' = db.request? id' := by
  unfold ApprovalDb.request? ApprovalDb.setStatus ApprovalDb.setStatuses
  induction db.requests with
  | nil => rfl
  | cons r rest ih =>
    by_cases hid : r.id = id
    · have hne : id ≠ id' := h.symm
      simpa [hid, hne] using ih
    · simp [hid, List.find?_cons, ih]

theorem onData_eq_ok {x : Session σ Err α} {db db' : ApprovalDb σ κ} {a : α} :
    onData x db = .ok a db' ↔ ∃ data, x db.data = .ok a data ∧ db' = { db with data } := by
  unfold onData
  cases x db.data <;> simp [eq_comm]

theorem onData_bind_eq_ok {β : Type} {x : Session σ Err α}
    {f : α → Session (ApprovalDb σ κ) Err β} {db db' : ApprovalDb σ κ} {b : β} :
    (onData x >>= f) db = .ok b db' ↔
      ∃ a data, x db.data = .ok a data ∧ f a { db with data } = .ok b db' := by
  rw [bind_apply]
  unfold onData
  cases x db.data <;> simp

theorem onData_ok {x : Session σ Err α} {db db' : ApprovalDb σ κ} {a : α}
    (h : onData x db = .ok a db') : ∃ data, db' = { db with data } := by
  obtain ⟨data, -, heq⟩ := onData_eq_ok.mp h
  exact ⟨data, heq⟩

theorem attempt_onData_ok {x : Session σ Err α} {db db' : ApprovalDb σ κ} {a : Except Err α}
    (h : attempt (onData x) db = .ok a db') : ∃ data, db' = { db with data } := by
  unfold attempt onData at h
  cases hx : x db.data with
  | ok b data =>
    rw [hx] at h
    cases h
    exact ⟨data, rfl⟩
  | raised e data =>
    rw [hx] at h
    cases h
    exact ⟨data, rfl⟩
  | aborted e =>
    rw [hx] at h
    cases h

theorem getPending_bind_eq_ok {f : ApprovalRequest κ → Session (ApprovalDb σ κ) Err α}
    {requestId : Uuid} {db db' : ApprovalDb σ κ} {a : α} :
    (getPending requestId >>= f) db = .ok a db' ↔
      ∃ r, db.request? requestId = some r ∧ r.status = .pending ∧ f r db = .ok a db' := by
  rw [bind_eq_ok]
  constructor
  · rintro ⟨r, db₁, hget, hf⟩
    simp only [getPending, get_bind_eq_ok, orRaise_bind_eq_ok, require_bind_eq_ok, pure_eq_ok]
      at hget
    obtain ⟨r', hr', hpending, rfl, rfl⟩ := hget
    exact ⟨r', hr', hpending, hf⟩
  · rintro ⟨r, hr, hpending, hf⟩
    refine ⟨r, db, ?_, hf⟩
    simp only [getPending, get_bind_eq_ok, orRaise_bind_eq_ok, require_bind_eq_ok, pure_eq_ok]
    exact ⟨r, hr, hpending, rfl, trivial⟩

theorem insertAction_bind_eq_ok {f : Unit → Session (ApprovalDb σ κ) Err α}
    {requestId actor : Uuid} {action : Decision} {db db' : ApprovalDb σ κ} {a : α} :
    (insertAction requestId actor action >>= f) db = .ok a db' ↔
      (∀ v ∈ db.actionsOn requestId, v.actorUserId ≠ actor) ∧
        f () (db.vote requestId actor action) = .ok a db' := by
  rw [bind_eq_ok]
  constructor
  · rintro ⟨_, db₁, hins, hf⟩
    simp only [insertAction, get_bind_eq_ok, constraint_bind_eq_ok, modify_eq_ok] at hins
    obtain ⟨hfirst, rfl⟩ := hins
    exact ⟨hfirst, hf⟩
  · rintro ⟨hfirst, hf⟩
    refine ⟨(), _, ?_, hf⟩
    simp only [insertAction, get_bind_eq_ok, constraint_bind_eq_ok, modify_eq_ok]
    exact ⟨hfirst, rfl⟩

theorem request?_eq_some {db : ApprovalDb σ κ} {id : Uuid} {r : ApprovalRequest κ}
    (h : db.request? id = some r) : r ∈ db.requests ∧ r.id = id :=
  ⟨List.mem_of_find?_eq_some h, by simpa using List.find?_some h⟩

/-- Running the executor leaves its changes to the data and its outcome as the status. -/
theorem executeRequest_ok {hooks : ApprovalHooks σ κ} {r : ApprovalRequest κ}
    {db db' : ApprovalDb σ κ} {u : Unit} (h : executeRequest hooks r db = .ok u db') :
    ∃ data status, status.Ran ∧
      db' = { db.setStatus r.id status with data, executions := db.executions ++ [r.id] } := by
  unfold executeRequest at h
  rw [modify_bind_eq_ok] at h
  obtain ⟨result, db₁, hexec, h⟩ := bind_eq_ok.mp h
  obtain ⟨data, rfl⟩ := attempt_onData_ok hexec
  cases result with
  | ok _ =>
    obtain rfl := modify_eq_ok.mp h
    exact ⟨data, .executed, .inl rfl, rfl⟩
  | error _ =>
    obtain rfl := modify_eq_ok.mp h
    exact ⟨data, .executionFailed, .inr (.inl rfl), rfl⟩

theorem submit_transition {hooks : ApprovalHooks σ κ} {s : SubmitIn κ} {db db' : ApprovalDb σ κ}
    {id : Uuid} (h : submit hooks s db = .ok id db') : Transition db db' := by
  simp only [submit, ofExcept_bind_eq_ok, constraint_bind_eq_ok, get_bind_eq_ok,
    modify_bind_eq_ok] at h
  obtain ⟨operation, -, -, h⟩ := h
  obtain ⟨_, db₁, hnotify, h⟩ := bind_eq_ok.mp h
  obtain ⟨data, rfl⟩ := onData_ok hnotify
  obtain ⟨-, rfl⟩ := pure_eq_ok.mp h
  exact .submitted data _ rfl rfl

/-- The action of a checker, and when it completes the quorum. -/
theorem grant_ok {requestId actor : Uuid} {db db' : ApprovalDb σ κ} {r : ApprovalRequest κ}
    {complete : Bool} (h : grant requestId actor db = .ok (r, complete) db') :
    r.id = requestId ∧ db.MayVote r actor ∧ db' = db.vote r.id actor .approve ∧
      (complete = true ↔
        r.requiredApprovals ≤ (db.vote r.id actor .approve).approvalCount r.id) := by
  simp only [grant, getPending_bind_eq_ok, require_bind_eq_ok, insertAction_bind_eq_ok,
    get_bind_eq_ok, pure_eq_ok] at h
  obtain ⟨r', hr, hpending, hother, hfirst, heq, rfl⟩ := h
  obtain ⟨rfl, rfl⟩ := Prod.mk.inj heq
  obtain ⟨-, rfl⟩ := request?_eq_some hr
  exact ⟨rfl, ⟨hr, hpending, hother, hfirst⟩, rfl, decide_eq_true_iff⟩

/-- The second half leaves the tables alone, or leaves the outcome of the executor. -/
theorem commitSettle_eq_some {hooks : ApprovalHooks σ κ} {r : ApprovalRequest κ} {complete : Bool}
    {db db' : ApprovalDb σ κ} (h : commitSettle hooks r complete db = some db') :
    (complete = false ∧ db' = db) ∨ (complete = true ∧ ∃ data status, status.Ran ∧
      db' = { db.setStatus r.id status with data, executions := db.executions ++ [r.id] }) := by
  unfold commitSettle at h
  cases complete with
  | false =>
    cases h
    exact .inl ⟨rfl, rfl⟩
  | true =>
    refine .inr ⟨rfl, ?_⟩
    cases hown : settleOwnCommit hooks r true db with
    | some db₁ =>
      rw [hown] at h
      cases h
      obtain ⟨data, -, rfl⟩ := Option.map_eq_some_iff.mp hown
      exact ⟨data, .approved, .inr (.inr rfl), rfl⟩
    | none =>
      rw [hown] at h
      dsimp only at h
      split at h
      · rename_i hok
        cases h
        have hrun := modify_bind_eq_ok.mp hok
        obtain ⟨_, db₂, hexec, h⟩ := bind_eq_ok.mp hrun
        obtain ⟨data, status, hran, rfl⟩ := executeRequest_ok hexec
        obtain ⟨data', rfl⟩ := onData_ok h
        rw [setStatus_setStatus]
        exact ⟨data', status, hran, rfl⟩
      · cases h

/-- What an executor leaves in the session, and the status that its request then gets. -/
def ExecutorLeft (hooks : ApprovalHooks σ κ) (r : ApprovalRequest κ) (data data' : σ)
    (status : RequestStatus) : Prop :=
  (hooks.execute r.operation r.id data = .ok () data' ∧ status = .executed) ∨
  (∃ e, hooks.execute r.operation r.id data = .raised e data' ∧ status = .executionFailed)

theorem executeRequest_left {hooks : ApprovalHooks σ κ} {r : ApprovalRequest κ}
    {db db' : ApprovalDb σ κ} {u : Unit} (h : executeRequest hooks r db = .ok u db') :
    ∃ data status, ExecutorLeft hooks r db.data data status ∧
      db' = { db.setStatus r.id status with data, executions := db.executions ++ [r.id] } := by
  unfold executeRequest at h
  rw [modify_bind_eq_ok] at h
  obtain ⟨result, db₁, hexec, h⟩ := bind_eq_ok.mp h
  unfold attempt onData at hexec
  cases hx : hooks.execute r.operation r.id db.data with
  | ok a data =>
    simp only [hx] at hexec
    cases hexec
    obtain rfl := modify_eq_ok.mp h
    exact ⟨data, .executed, .inl ⟨hx, rfl⟩, rfl⟩
  | raised e data =>
    simp only [hx] at hexec
    cases hexec
    obtain rfl := modify_eq_ok.mp h
    exact ⟨data, .executionFailed, .inr ⟨e, hx, rfl⟩, rfl⟩
  | aborted e =>
    simp only [hx] at hexec
    cases hexec

/-- The second half of a complete approval, when it is not rolled back: the executor committed
itself, or it left the commit to its caller and the notification went through. -/
theorem commitSettle_complete {hooks : ApprovalHooks σ κ} {r : ApprovalRequest κ}
    {db db' : ApprovalDb σ κ} (h : commitSettle hooks r true db = some db') :
    (∃ data, hooks.ownCommit r.operation r.id db.data = some data ∧
      db' = { db.setStatus r.id .approved with
        data, executions := db.executions ++ [r.id] }) ∨
    (hooks.ownCommit r.operation r.id db.data = none ∧ ∃ data₁ data status,
      ExecutorLeft hooks r db.data data₁ status ∧
      hooks.notifyDecided r true data₁ = .ok () data ∧
      db' = { db.setStatus r.id status with
        data, executions := db.executions ++ [r.id] }) := by
  unfold commitSettle settleOwnCommit at h
  cases hown : hooks.ownCommit r.operation r.id db.data with
  | some data =>
    simp only [hown, if_true, Option.map_some] at h
    cases h
    exact .inl ⟨data, rfl, rfl⟩
  | none =>
    simp only [hown, if_true, Option.map_none] at h
    refine .inr ⟨rfl, ?_⟩
    cases hsettle : settle hooks r true db with
    | ok u db₁ =>
      rw [hsettle] at h
      cases h
      have hrun := modify_bind_eq_ok.mp hsettle
      obtain ⟨_, db₂, hexec, h⟩ := bind_eq_ok.mp hrun
      obtain ⟨data₁, status, hleft, rfl⟩ := executeRequest_left hexec
      unfold onData at h
      cases hnotify : hooks.notifyDecided r true data₁ with
      | ok a data =>
        simp only [hnotify] at h
        cases h
        rw [setStatus_setStatus]
        exact ⟨data₁, data, status, hleft, hnotify, rfl⟩
      | raised e data =>
        simp only [hnotify] at h
        cases h
      | aborted e =>
        simp only [hnotify] at h
        cases h
    | raised e db₁ =>
      rw [hsettle] at h
      cases h
    | aborted e =>
      rw [hsettle] at h
      cases h

/-- What a complete approval makes durable of the data, with the status that the request
gets. -/
def ExecutorOutcome (hooks : ApprovalHooks σ κ) (r : ApprovalRequest κ) (data data' : σ)
    (status : RequestStatus) : Prop :=
  (hooks.ownCommit r.operation r.id data = some data' ∧ status = .approved) ∨
  (hooks.ownCommit r.operation r.id data = none ∧ ∃ data₁,
    ExecutorLeft hooks r data data₁ status ∧ hooks.notifyDecided r true data₁ = .ok () data')

/-- An approval is refused, counts as one of several, or runs the executor. -/
theorem commitApprove_cases (hooks : ApprovalHooks σ κ) (requestId actor : Uuid)
    (db : ApprovalDb σ κ) :
    commitApprove hooks requestId actor db = db ∨
    (∃ r, r.id = requestId ∧ db.MayVote r actor ∧
      commitApprove hooks requestId actor db = db.vote r.id actor .approve) ∨
    ∃ r data status, r.id = requestId ∧ db.MayVote r actor ∧
      r.requiredApprovals ≤ (db.vote r.id actor .approve).approvalCount r.id ∧
      ExecutorOutcome hooks r db.data data status ∧
      commitApprove hooks requestId actor db =
        { (db.vote r.id actor .approve).setStatus r.id status with
          data, executions := db.executions ++ [r.id] } := by
  unfold commitApprove
  cases hgrant : grant requestId actor db with
  | ok result db₁ =>
    obtain ⟨r, complete⟩ := result
    obtain ⟨hid, hvote, rfl, hcomplete⟩ := grant_ok hgrant
    dsimp only
    cases hsettle : commitSettle hooks r complete (db.vote r.id actor .approve) with
    | none => exact .inl rfl
    | some db' =>
      cases complete with
      | false =>
        rcases commitSettle_eq_some hsettle with ⟨-, rfl⟩ | ⟨hfalse, -⟩
        · exact .inr (.inl ⟨r, hid, hvote, rfl⟩)
        · cases hfalse
      | true =>
        have hquorum := hcomplete.mp rfl
        rcases commitSettle_complete hsettle with ⟨data, hown, rfl⟩ |
          ⟨hown, data₁, data, status, hleft, hnotify, rfl⟩
        · exact .inr (.inr ⟨r, data, .approved, hid, hvote, hquorum, .inl ⟨hown, rfl⟩, rfl⟩)
        · exact .inr (.inr ⟨r, data, status, hid, hvote, hquorum,
            .inr ⟨hown, data₁, hleft, hnotify⟩, rfl⟩)
  | raised e db₁ => exact .inl rfl
  | aborted e => exact .inl rfl

theorem submit_ok {hooks : ApprovalHooks σ κ} {s : SubmitIn κ} {db db' : ApprovalDb σ κ}
    {id : Uuid} (h : submit hooks s db = .ok id db') :
    ∃ operation data, s.operation = .ok operation ∧ id = db.nextRequestId ∧
      hooks.notifyPending
        ⟨db.nextRequestId, operation, s.requestedBy, s.requiredApprovals, .pending, s.expiresAt⟩
        db.data = .ok () data ∧
      db' = { db with
        data
        nextRequestId := db.nextRequestId + 1
        requests := db.requests ++ [⟨db.nextRequestId, operation, s.requestedBy,
          s.requiredApprovals, .pending, s.expiresAt⟩] } := by
  simp only [submit, ofExcept_bind_eq_ok, constraint_bind_eq_ok, get_bind_eq_ok,
    modify_bind_eq_ok] at h
  obtain ⟨operation, hoperation, -, h⟩ := h
  have hmap : s.operation = .ok operation := by
    cases hs : s.operation with
    | ok op =>
      rw [hs] at hoperation
      cases hoperation
      rfl
    | error e =>
      rw [hs] at hoperation
      cases hoperation
  obtain ⟨_, db₁, hnotify, h⟩ := bind_eq_ok.mp h
  obtain ⟨rfl, rfl⟩ := pure_eq_ok.mp h
  unfold onData at hnotify
  split at hnotify
  · rename_i data hdata
    cases hnotify
    exact ⟨operation, data, hmap, rfl, hdata, rfl⟩
  · cases hnotify
  · cases hnotify

/-- A rejection that returns: the action, the status and the notice to the maker. -/
theorem rejectRequest_ok {hooks : ApprovalHooks σ κ} {requestId actor : Uuid}
    {db db' : ApprovalDb σ κ} {u : Unit} (h : reject hooks requestId actor db = .ok u db') :
    ∃ r data, r.id = requestId ∧ db.MayVote r actor ∧
      hooks.notifyDecided r false db.data = .ok () data ∧
      db' = { (db.vote r.id actor .reject).setStatus r.id .rejected with data } := by
  simp only [reject, getPending_bind_eq_ok, require_bind_eq_ok, insertAction_bind_eq_ok,
    modify_bind_eq_ok] at h
  obtain ⟨r, hr, hpending, hother, hfirst, h⟩ := h
  obtain ⟨-, rfl⟩ := request?_eq_some hr
  obtain ⟨data, hnotify, rfl⟩ := onData_eq_ok.mp h
  exact ⟨r, data, rfl, ⟨hr, hpending, hother, hfirst⟩, hnotify, rfl⟩

/-- A cancellation that returns. -/
theorem cancelRequest_ok {requestId maker : Uuid} {db db' : ApprovalDb σ κ} {u : Unit}
    (h : cancel requestId maker db = .ok u db') :
    ∃ r, db.request? requestId = some r ∧ r.status = .pending ∧ r.requestedBy = maker ∧
      db.actionsOn r.id = [] ∧ db' = db.setStatus r.id .cancelled := by
  simp only [cancel, getPending_bind_eq_ok, require_bind_eq_ok, get_bind_eq_ok, modify_eq_ok] at h
  exact h

/-- What holds of every submitted request and does not look at its status holds of every
request. -/
theorem step_requests {hooks : ApprovalHooks σ κ} {db : ApprovalDb σ κ} {op : ApprovalOp σ κ}
    {P : ApprovalRequest κ → Prop} (hstatus : ∀ r status, P r → P { r with status })
    (hnew : ∀ s operation, op = .submit s → s.operation = .ok operation → ∀ id,
      P ⟨id, operation, s.requestedBy, s.requiredApprovals, .pending, s.expiresAt⟩)
    (h : ∀ r ∈ db.requests, P r) : ∀ r ∈ (op.step hooks db).requests, P r := by
  have hmap : ∀ (p : ApprovalRequest κ → Prop) [DecidablePred p] (status : RequestStatus),
      ∀ r ∈ (db.setStatuses p status).requests, P r := by
    intro p _ status r hr
    obtain ⟨r₀, hr₀, rfl⟩ := List.mem_map.mp hr
    split
    · exact hstatus r₀ status (h r₀ hr₀)
    · exact h r₀ hr₀
  cases op with
  | submit s =>
    refine commit_keeps (P := fun db : ApprovalDb σ κ => ∀ r ∈ db.requests, P r) h ?_
    intro id db' hok r hr
    obtain ⟨operation, data, hoperation, -, -, rfl⟩ := submit_ok hok
    rcases List.mem_append.mp hr with hr | hr
    · exact h r hr
    · rw [List.mem_singleton.mp hr]
      exact hnew s operation rfl hoperation _
  | approve requestId actor =>
    change ∀ r ∈ (commitApprove hooks requestId actor db).requests, P r
    rcases commitApprove_cases hooks requestId actor db with heq | ⟨r, -, -, heq⟩ |
      ⟨r, data, status, -, -, -, -, heq⟩
    · rw [heq]
      exact h
    · rw [heq]
      exact h
    · rw [heq]
      exact hmap (·.id = r.id) status
  | reject requestId actor =>
    refine commit_keeps (P := fun db : ApprovalDb σ κ => ∀ r ∈ db.requests, P r) h ?_
    intro u db' hok
    obtain ⟨r, data, -, -, -, rfl⟩ := rejectRequest_ok hok
    exact hmap (·.id = r.id) .rejected
  | cancel requestId maker =>
    refine commit_keeps (P := fun db : ApprovalDb σ κ => ∀ r ∈ db.requests, P r) h ?_
    intro u db' hok
    obtain ⟨r, -, -, -, -, rfl⟩ := cancelRequest_ok hok
    exact hmap (·.id = r.id) .cancelled
  | expire now => exact hmap (·.Overdue now) .expired
  | elsewhere data => exact h

theorem commitApprove_transition (hooks : ApprovalHooks σ κ) (requestId actor : Uuid)
    (db : ApprovalDb σ κ) : Transition db (commitApprove hooks requestId actor db) := by
  unfold commitApprove
  split
  · rename_i r complete db₁ hgrant
    obtain ⟨-, hvote, rfl, hcomplete⟩ := grant_ok hgrant
    cases hsettle : commitSettle hooks r complete (db.vote r.id actor .approve) with
    | none => exact .data db.data
    | some db' =>
      rcases commitSettle_eq_some hsettle with ⟨rfl, rfl⟩ | ⟨rfl, data, status, hran, rfl⟩
      · have hshort := mt hcomplete.mpr Bool.false_ne_true
        exact .approved r actor hvote (not_le.mp hshort)
      · exact .ran data r actor status hvote (hcomplete.mp rfl) hran
  · exact .data db.data

theorem reject_transition {hooks : ApprovalHooks σ κ} {requestId actor : Uuid}
    {db db' : ApprovalDb σ κ} {u : Unit} (h : reject hooks requestId actor db = .ok u db') :
    Transition db db' := by
  obtain ⟨r, data, -, hvote, -, rfl⟩ := rejectRequest_ok h
  exact .rejected data r actor hvote

/-- Requests have distinct ids. -/
def ApprovalDb.DistinctIds (db : ApprovalDb σ κ) : Prop := (db.requests.map (·.id)).Nodup

theorem ApprovalDb.DistinctIds.eq {db : ApprovalDb σ κ} (h : db.DistinctIds)
    {r r' : ApprovalRequest κ} (hr : r ∈ db.requests) (hr' : r' ∈ db.requests)
    (hid : r.id = r'.id) : r = r' := List.inj_on_of_nodup_map h hr hr' hid

theorem cancel_transition {requestId maker : Uuid} {db db' : ApprovalDb σ κ} {u : Unit}
    (hids : db.DistinctIds) (h : cancel requestId maker db = .ok u db') : Transition db db' := by
  obtain ⟨r, hr, hpending, -, -, rfl⟩ := cancelRequest_ok h
  obtain ⟨hmem, -⟩ := request?_eq_some hr
  refine .withdrawn (fun r' => r'.id = r.id) .cancelled ?_ (.inl rfl)
  intro r' hr' hid
  rw [hids.eq hr' hmem hid]
  exact hpending

/-- Every committed call is one of the transitions. -/
theorem step_transition (hooks : ApprovalHooks σ κ) {db : ApprovalDb σ κ} (hids : db.DistinctIds)
    (op : ApprovalOp σ κ) : Transition db (op.step hooks db) := by
  have hsame : Transition db db := .data db.data
  cases op with
  | submit s =>
    refine commit_keeps (P := Transition db) hsame ?_
    intro id db' hok
    exact submit_transition hok
  | approve requestId actor => exact commitApprove_transition hooks requestId actor db
  | reject requestId actor =>
    refine commit_keeps (P := Transition db) hsame ?_
    intro u db' hok
    exact reject_transition hok
  | cancel requestId maker =>
    refine commit_keeps (P := Transition db) hsame ?_
    intro u db' hok
    exact cancel_transition hids hok
  | expire now =>
    exact .withdrawn (fun r => r.Overdue now) .expired (fun r _ h => h.1) (.inr rfl)
  | elsewhere data => exact .data data

/-! ## What holds of every run -/

/-- Why an executor was allowed to run: enough distinct users other than the maker approved,
and nobody rejected. -/
structure ApprovalDb.Granted (db : ApprovalDb σ κ) (r : ApprovalRequest κ) : Prop where
  quorum : max 1 r.requiredApprovals ≤ (db.approvers r.id).length
  distinct : (db.approvers r.id).Nodup
  others : ∀ user ∈ db.approvers r.id, user ≠ r.requestedBy
  unrejected : ∀ a ∈ db.actionsOn r.id, a.action ≠ .reject

/-- The constraints of the approval tables: primary keys, one action for each user and
request, none of the maker. -/
structure ApprovalDb.WellFormed (db : ApprovalDb σ κ) : Prop where
  ids : db.DistinctIds
  drawn : ∀ r ∈ db.requests, r.id < db.nextRequestId
  actionsDrawn : ∀ a ∈ db.actions, a.approvalRequestId < db.nextRequestId
  oneVote : ∀ id, ((db.actionsOn id).map (·.actorUserId)).Nodup
  notMaker : ∀ r ∈ db.requests, ∀ a ∈ db.actionsOn r.id, a.actorUserId ≠ r.requestedBy

/-- The invariant of the approval tables. -/
structure ApprovalDb.Sound (db : ApprovalDb σ κ) : Prop extends db.WellFormed where
  pending : ∀ r ∈ db.requests, r.status = .pending →
    r.id ∉ db.executions ∧ ∀ a ∈ db.actionsOn r.id, a.action ≠ .reject
  waiting : ∀ r ∈ db.requests, r.status = .pending →
    (db.approvers r.id).length < max 1 r.requiredApprovals
  once : db.executions.Nodup
  granted : ∀ id ∈ db.executions, ∃ r ∈ db.requests, r.id = id ∧ r.status.Ran ∧ db.Granted r

section

variable {db : ApprovalDb σ κ}

/-- A vote on one request leaves the actions on the others. -/
theorem actionsOn_vote (db : ApprovalDb σ κ) (requestId actor : Uuid) (action : Decision)
    (id : Uuid) : (db.vote requestId actor action).actionsOn id
      = if requestId = id then db.actionsOn id ++ [⟨requestId, actor, action⟩]
        else db.actionsOn id := by
  unfold ApprovalDb.actionsOn ApprovalDb.vote
  rw [List.filter_append]
  by_cases h : requestId = id <;> simp [h]

theorem mem_setStatuses {p : ApprovalRequest κ → Prop} [DecidablePred p] {status : RequestStatus}
    {r' : ApprovalRequest κ} (h : r' ∈ (db.setStatuses p status).requests) :
    ∃ r ∈ db.requests, (p r ∧ r' = { r with status }) ∨ (¬ p r ∧ r' = r) := by
  obtain ⟨r, hr, rfl⟩ := List.mem_map.mp h
  by_cases hp : p r
  · exact ⟨r, hr, .inl ⟨hp, if_pos hp⟩⟩
  · exact ⟨r, hr, .inr ⟨hp, if_neg hp⟩⟩

/-- A change of statuses keeps the constraints. -/
theorem ApprovalDb.WellFormed.setStatuses (h : db.WellFormed) (p : ApprovalRequest κ → Prop)
    [DecidablePred p] (status : RequestStatus) : (db.setStatuses p status).WellFormed where
  ids := by
    have hmap : (db.setStatuses p status).requests.map (·.id) = db.requests.map (·.id) := by
      unfold ApprovalDb.setStatuses
      rw [List.map_map]
      apply List.map_congr_left
      intro r _
      by_cases hp : p r <;> simp [hp]
    unfold ApprovalDb.DistinctIds
    rw [hmap]
    exact h.ids
  drawn := by
    intro r' hr'
    obtain ⟨r, hr, ⟨-, rfl⟩ | ⟨-, rfl⟩⟩ := mem_setStatuses hr'
    · exact h.drawn r hr
    · exact h.drawn r' hr
  actionsDrawn := h.actionsDrawn
  oneVote := h.oneVote
  notMaker := by
    intro r' hr'
    obtain ⟨r, hr, ⟨-, rfl⟩ | ⟨-, rfl⟩⟩ := mem_setStatuses hr'
    · exact h.notMaker r hr
    · exact h.notMaker r' hr

/-- The first action of a user other than the maker keeps the constraints. -/
theorem ApprovalDb.WellFormed.vote (h : db.WellFormed) {r : ApprovalRequest κ} {actor : Uuid}
    (hr : r ∈ db.requests) (hother : actor ≠ r.requestedBy)
    (hfirst : ∀ a ∈ db.actionsOn r.id, a.actorUserId ≠ actor) (action : Decision) :
    (db.vote r.id actor action).WellFormed where
  ids := h.ids
  drawn := h.drawn
  actionsDrawn := by
    intro a ha
    rcases List.mem_append.mp ha with ha | ha
    · exact h.actionsDrawn a ha
    · rw [List.mem_singleton.mp ha]
      exact h.drawn r hr
  oneVote := by
    intro id
    rw [actionsOn_vote]
    by_cases hid : r.id = id
    · rw [if_pos hid, List.map_append]
      refine (h.oneVote id).append (List.nodup_singleton _) ?_
      intro user huser hactor
      obtain ⟨a, ha, rfl⟩ := List.mem_map.mp huser
      rw [← hid] at ha
      exact hfirst a ha (List.mem_singleton.mp hactor)
    · rw [if_neg hid]
      exact h.oneVote id
  notMaker := by
    intro r' hr' a ha
    rw [actionsOn_vote] at ha
    by_cases hid : r.id = r'.id
    · rw [if_pos hid] at ha
      rcases List.mem_append.mp ha with ha | ha
      · exact h.notMaker r' hr' a ha
      · rw [List.mem_singleton.mp ha]
        rw [← h.ids.eq hr hr' hid]
        exact hother
    · rw [if_neg hid] at ha
      exact h.notMaker r' hr' a ha

theorem ApprovalDb.MayVote.wellFormed {r : ApprovalRequest κ} {actor : Uuid}
    (hvote : db.MayVote r actor) (h : db.WellFormed) (action : Decision) :
    (db.vote r.id actor action).WellFormed := h.vote hvote.mem hvote.other hvote.first action

/-- Nobody has acted on a request that is not drawn yet. -/
theorem ApprovalDb.WellFormed.actionsOn_undrawn (h : db.WellFormed) :
    db.actionsOn db.nextRequestId = [] := by
  apply List.filter_eq_nil_iff.mpr
  intro a ha
  have hlt := h.actionsDrawn a ha
  rw [decide_eq_true_iff]
  exact hlt.ne

theorem ApprovalDb.WellFormed.submit (h : db.WellFormed) {r : ApprovalRequest κ}
    (hid : r.id = db.nextRequestId) :
    ({ db with
      nextRequestId := db.nextRequestId + 1
      requests := db.requests ++ [r] } : ApprovalDb σ κ).WellFormed where
  ids := by
    unfold ApprovalDb.DistinctIds
    rw [List.map_append]
    refine List.Nodup.append h.ids (List.nodup_singleton _) ?_
    intro i hi hi'
    obtain ⟨r', hr', rfl⟩ := List.mem_map.mp hi
    have hnew : r'.id = r.id := List.mem_singleton.mp hi'
    have hlt := h.drawn r' hr'
    rw [hnew, hid] at hlt
    exact lt_irrefl _ hlt
  drawn := by
    intro r' hr'
    rcases List.mem_append.mp hr' with hr' | hr'
    · exact (h.drawn r' hr').trans (Nat.lt_succ_self _)
    · rw [List.mem_singleton.mp hr', hid]
      exact Nat.lt_succ_self _
  actionsDrawn := by
    intro a ha
    exact (h.actionsDrawn a ha).trans (Nat.lt_succ_self _)
  oneVote := h.oneVote
  notMaker := by
    intro r' hr' a ha
    rcases List.mem_append.mp hr' with hr' | hr'
    · exact h.notMaker r' hr' a ha
    · rw [List.mem_singleton.mp hr', hid] at ha
      have hnone : a ∈ db.actionsOn db.nextRequestId := ha
      rw [h.actionsOn_undrawn] at hnone
      exact absurd hnone List.not_mem_nil

theorem ApprovalDb.WellFormed.approvers_nodup (h : db.WellFormed) (id : Uuid) :
    (db.approvers id).Nodup := (h.oneVote id).sublist (List.filter_sublist.map _)

/-- Where the constraints hold, the approvers are distinct users other than the maker. -/
theorem ApprovalDb.WellFormed.granted (h : db.WellFormed) {r : ApprovalRequest κ}
    (hr : r ∈ db.requests) (hquorum : max 1 r.requiredApprovals ≤ (db.approvers r.id).length)
    (hunrejected : ∀ a ∈ db.actionsOn r.id, a.action ≠ .reject) : db.Granted r where
  quorum := hquorum
  distinct := h.approvers_nodup r.id
  others := by
    intro user huser
    obtain ⟨a, ha, rfl⟩ := List.mem_map.mp huser
    exact h.notMaker r hr a (List.mem_filter.mp ha).1
  unrejected := hunrejected

theorem approvers_congr {db' : ApprovalDb σ κ} {id : Uuid}
    (hsame : db'.actionsOn id = db.actionsOn id) : db'.approvers id = db.approvers id := by
  unfold ApprovalDb.approvers
  rw [hsame]

/-- What granted a request stays as long as nobody acts on it. -/
theorem ApprovalDb.Granted.of_actionsOn {db' : ApprovalDb σ κ} {r : ApprovalRequest κ}
    (h : db.Granted r) (hsame : db'.actionsOn r.id = db.actionsOn r.id) : db'.Granted r := by
  have happrovers := approvers_congr hsame
  exact ⟨happrovers ▸ h.quorum, happrovers ▸ h.distinct, happrovers ▸ h.others,
    hsame ▸ h.unrejected⟩

variable {db' : ApprovalDb σ κ}

/-- The constraints read only the requests, the actions and the key sequence. -/
theorem ApprovalDb.WellFormed.congr (h : db.WellFormed)
    (hnext : db'.nextRequestId = db.nextRequestId) (hrequests : db'.requests = db.requests)
    (hactions : db'.actions = db.actions) : db'.WellFormed := by
  obtain ⟨data, next, requests, actions, executions⟩ := db'
  obtain rfl : next = _ := hnext
  obtain rfl : requests = _ := hrequests
  obtain rfl : actions = _ := hactions
  exact ⟨h.ids, h.drawn, h.actionsDrawn, h.oneVote, h.notMaker⟩

theorem mem_setStatuses_of_not {p : ApprovalRequest κ → Prop} [DecidablePred p]
    {status : RequestStatus} {r : ApprovalRequest κ} (hr : r ∈ db.requests) (hp : ¬ p r) :
    r ∈ (db.setStatuses p status).requests := by
  refine List.mem_map.mpr ⟨r, hr, ?_⟩
  rw [if_neg hp]

theorem RequestStatus.Ran.ne_pending {status : RequestStatus} (h : status.Ran) :
    status ≠ .pending := by
  rintro rfl
  rcases h with h | h | h <;> cases h

/-- An executed id is the id of a drawn request. -/
theorem ApprovalDb.Sound.executed_lt (h : db.Sound) {id : Uuid} (hid : id ∈ db.executions) :
    id < db.nextRequestId := by
  obtain ⟨r, hr, rfl, -⟩ := h.granted id hid
  exact h.drawn r hr

/-- The rule for a change of status: the requests that leave `pending` take their new actions
and executions with them, and a new execution has been granted. -/
theorem ApprovalDb.Sound.leave (h : db.Sound) (hwf : db'.WellFormed)
    {p : ApprovalRequest κ → Prop} [DecidablePred p] {status : RequestStatus}
    (hrequests : db'.requests = (db.setStatuses p status).requests)
    (hpending : ∀ r ∈ db.requests, p r → r.status = .pending) (hleft : status ≠ .pending)
    (hactions : ∀ r ∈ db.requests, ¬ p r → db'.actionsOn r.id = db.actionsOn r.id)
    (hexecutions : ∀ r ∈ db.requests, ¬ p r → r.id ∈ db'.executions → r.id ∈ db.executions)
    (honce : db'.executions.Nodup)
    (hgranted : ∀ id ∈ db'.executions, id ∉ db.executions →
      ∃ r ∈ db'.requests, r.id = id ∧ r.status.Ran ∧ db'.Granted r) : db'.Sound where
  toWellFormed := hwf
  pending := by
    intro r' hr' hstatus
    rw [hrequests] at hr'
    obtain ⟨r, hr, ⟨-, rfl⟩ | ⟨hp, rfl⟩⟩ := mem_setStatuses hr'
    · exact absurd hstatus hleft
    · obtain ⟨hnot, hunrejected⟩ := h.pending r' hr hstatus
      rw [hactions r' hr hp]
      exact ⟨fun hid => hnot (hexecutions r' hr hp hid), hunrejected⟩
  waiting := by
    intro r' hr' hstatus
    rw [hrequests] at hr'
    obtain ⟨r, hr, ⟨-, rfl⟩ | ⟨hp, rfl⟩⟩ := mem_setStatuses hr'
    · exact absurd hstatus hleft
    · rw [approvers_congr (hactions r' hr hp)]
      exact h.waiting r' hr hstatus
  once := honce
  granted := by
    intro id hid
    by_cases hold : id ∈ db.executions
    · -- an earlier execution: its request is not pending, so it is not among those that leave
      obtain ⟨r, hr, rfl, hran, hgrant⟩ := h.granted id hold
      have hp : ¬ p r := fun hp => hran.ne_pending (hpending r hr hp)
      rw [hrequests]
      exact ⟨r, mem_setStatuses_of_not hr hp, rfl, hran, hgrant.of_actionsOn (hactions r hr hp)⟩
    · exact hgranted id hid hold

/-- The request voted on is the only one with its id. -/
theorem ApprovalDb.MayVote.pending_of_id {r : ApprovalRequest κ} {actor : Uuid}
    (hvote : db.MayVote r actor) (h : db.WellFormed) {r' : ApprovalRequest κ}
    (hr' : r' ∈ db.requests) (hid : r'.id = r.id) : r'.status = .pending := by
  rw [h.ids.eq hr' hvote.mem hid]
  exact hvote.pending

theorem actionsOn_vote_of_ne {requestId actor id : Uuid} {action : Decision}
    (h : id ≠ requestId) : (db.vote requestId actor action).actionsOn id = db.actionsOn id := by
  rw [actionsOn_vote, if_neg (Ne.symm h)]

theorem actionsOn_vote_self (db : ApprovalDb σ κ) (requestId actor : Uuid) (action : Decision) :
    (db.vote requestId actor action).actionsOn requestId
      = db.actionsOn requestId ++ [⟨requestId, actor, action⟩] := by
  rw [actionsOn_vote, if_pos rfl]

theorem approvalCount_vote (db : ApprovalDb σ κ) (requestId actor : Uuid) :
    (db.vote requestId actor .approve).approvalCount requestId
      = db.approvalCount requestId + 1 := by
  unfold ApprovalDb.approvalCount ApprovalDb.approvers
  rw [actionsOn_vote_self]
  simp

/-- An approval of an unrejected request leaves it unrejected. -/
theorem unrejected_vote {requestId actor : Uuid}
    (h : ∀ a ∈ db.actionsOn requestId, a.action ≠ .reject) :
    ∀ a ∈ (db.vote requestId actor .approve).actionsOn requestId, a.action ≠ .reject := by
  intro a ha
  rw [actionsOn_vote_self] at ha
  rcases List.mem_append.mp ha with ha | ha
  · exact h a ha
  · rw [List.mem_singleton.mp ha]
    exact nofun

theorem ApprovalDb.Sound.data (h : db.Sound) (data : σ) : { db with data }.Sound where
  toWellFormed := h.congr rfl rfl rfl
  pending := h.pending
  waiting := h.waiting
  once := h.once
  granted := by
    intro id hid
    obtain ⟨r, hr, hrid, hran, hgrant⟩ := h.granted id hid
    exact ⟨r, hr, hrid, hran, hgrant.of_actionsOn rfl⟩

theorem ApprovalDb.Sound.submitted (h : db.Sound) {r : ApprovalRequest κ}
    (hid : r.id = db.nextRequestId) :
    ({ db with
      nextRequestId := db.nextRequestId + 1
      requests := db.requests ++ [r] } : ApprovalDb σ κ).Sound where
  toWellFormed := h.submit hid
  pending := by
    intro r' hr' hstatus
    rcases List.mem_append.mp hr' with hr' | hr'
    · exact h.pending r' hr' hstatus
    · -- the id is fresh, so nobody has acted on it and nothing ran under it
      rw [List.mem_singleton.mp hr', hid]
      constructor
      · intro hexec
        exact lt_irrefl _ (h.executed_lt hexec)
      · change ∀ a ∈ db.actionsOn db.nextRequestId, a.action ≠ .reject
        rw [h.actionsOn_undrawn]
        exact nofun
  waiting := by
    intro r' hr' hstatus
    rcases List.mem_append.mp hr' with hr' | hr'
    · exact h.waiting r' hr' hstatus
    · have hnone : db.approvers db.nextRequestId = [] := by
        unfold ApprovalDb.approvers
        rw [h.actionsOn_undrawn]
        rfl
      rw [List.mem_singleton.mp hr', hid]
      change ((db.approvers db.nextRequestId).length : ℤ) < _
      rw [hnone]
      exact zero_lt_one.trans_le (le_max_left _ _)
  once := h.once
  granted := by
    intro id hid'
    obtain ⟨r', hr', hrid, hran, hgrant⟩ := h.granted id hid'
    exact ⟨r', List.mem_append_left _ hr', hrid, hran, hgrant.of_actionsOn rfl⟩

theorem ApprovalDb.Sound.approved (h : db.Sound) {r : ApprovalRequest κ} {actor : Uuid}
    (hvote : db.MayVote r actor)
    (hshort : (db.vote r.id actor .approve).approvalCount r.id < r.requiredApprovals) :
    (db.vote r.id actor .approve).Sound where
  toWellFormed := hvote.wellFormed h.toWellFormed .approve
  pending := by
    intro r' hr' hstatus
    obtain ⟨hnot, hunrejected⟩ := h.pending r' hr' hstatus
    refine ⟨hnot, ?_⟩
    by_cases hid : r'.id = r.id
    · rw [hid] at hunrejected ⊢
      exact unrejected_vote hunrejected
    · rw [actionsOn_vote_of_ne hid]
      exact hunrejected
  waiting := by
    intro r' hr' hstatus
    by_cases hid : r'.id = r.id
    · rw [h.ids.eq hr' hvote.mem hid]
      exact hshort.trans_le (le_max_right _ _)
    · rw [approvers_congr (actionsOn_vote_of_ne hid)]
      exact h.waiting r' hr' hstatus
  once := h.once
  granted := by
    intro id hexec
    obtain ⟨r', hr', hrid, hran, hgrant⟩ := h.granted id hexec
    have hne : r'.id ≠ r.id :=
      fun hid => hran.ne_pending (hvote.pending_of_id h.toWellFormed hr' hid)
    exact ⟨r', hr', hrid, hran, hgrant.of_actionsOn (actionsOn_vote_of_ne hne)⟩

/-- The approval that completes the quorum of a pending request grants it. -/
theorem ApprovalDb.Sound.granted_vote (h : db.Sound) {r : ApprovalRequest κ} {actor : Uuid}
    (hvote : db.MayVote r actor)
    (hquorum : r.requiredApprovals ≤ (db.vote r.id actor .approve).approvalCount r.id) :
    (db.vote r.id actor .approve).Granted r := by
  have hr : r ∈ db.requests := hvote.mem
  have hunrejected := (h.pending r hr hvote.pending).2
  refine (hvote.wellFormed h.toWellFormed .approve).granted hr ?_ (unrejected_vote hunrejected)
  have hone := approvalCount_vote db r.id actor
  change max 1 r.requiredApprovals ≤ ((db.vote r.id actor .approve).approvalCount r.id : ℤ)
  omega

theorem ApprovalDb.Sound.ran (h : db.Sound) {r : ApprovalRequest κ} {actor : Uuid}
    (hvote : db.MayVote r actor)
    (hquorum : r.requiredApprovals ≤ (db.vote r.id actor .approve).approvalCount r.id)
    {status : RequestStatus} (hran : status.Ran) (data : σ) :
    ({ (db.vote r.id actor .approve).setStatus r.id status with
      data
      executions := db.executions ++ [r.id] } : ApprovalDb σ κ).Sound := by
  have hr : r ∈ db.requests := hvote.mem
  have hnew : r.id ∉ db.executions := (h.pending r hr hvote.pending).1
  have hwf := (hvote.wellFormed h.toWellFormed .approve).setStatuses (·.id = r.id) status
  refine h.leave (p := fun r' => r'.id = r.id) (hwf.congr rfl rfl rfl) rfl ?_ hran.ne_pending
    ?_ ?_ ?_ ?_
  · intro r' hr' hid
    exact hvote.pending_of_id h.toWellFormed hr' hid
  · intro r' _ hne
    exact actionsOn_vote_of_ne hne
  · intro r' _ hne hmem
    exact (List.mem_append.mp hmem).resolve_right fun hid => hne (List.mem_singleton.mp hid)
  · refine List.Nodup.append h.once (List.nodup_singleton _) ?_
    intro id hid hid'
    rw [List.mem_singleton.mp hid'] at hid
    exact hnew hid
  · intro id hmem hold
    have hid : id = r.id := List.mem_singleton.mp ((List.mem_append.mp hmem).resolve_left hold)
    have hgrant := h.granted_vote hvote hquorum
    refine ⟨{ r with status }, ?_, hid.symm, hran, ?_⟩
    · exact List.mem_map.mpr ⟨r, hr, if_pos rfl⟩
    · exact ⟨hgrant.quorum, hgrant.distinct, hgrant.others, hgrant.unrejected⟩

theorem ApprovalDb.Sound.rejected (h : db.Sound) {r : ApprovalRequest κ} {actor : Uuid}
    (hvote : db.MayVote r actor) (data : σ) :
    ({ (db.vote r.id actor .reject).setStatus r.id .rejected with data } :
      ApprovalDb σ κ).Sound := by
  have hwf := (hvote.wellFormed h.toWellFormed .reject).setStatuses (·.id = r.id) .rejected
  refine h.leave (p := fun r' => r'.id = r.id) (hwf.congr rfl rfl rfl) rfl ?_ nofun ?_
    (fun _ _ _ hid => hid) h.once (fun id hid hnot => absurd hid hnot)
  · intro r' hr' hid
    exact hvote.pending_of_id h.toWellFormed hr' hid
  · intro r' _ hne
    exact actionsOn_vote_of_ne hne

theorem ApprovalDb.Sound.withdrawn (h : db.Sound) {p : ApprovalRequest κ → Prop} [DecidablePred p]
    {status : RequestStatus} (hpending : ∀ r ∈ db.requests, p r → r.status = .pending)
    (hleft : status = .cancelled ∨ status = .expired) : (db.setStatuses p status).Sound := by
  have hne : status ≠ .pending := by
    rintro rfl
    rcases hleft with hleft | hleft <;> cases hleft
  exact h.leave (h.setStatuses p status) rfl hpending hne (fun _ _ _ => rfl)
    (fun _ _ _ hid => hid) h.once (fun id hid hnot => absurd hid hnot)

theorem ApprovalDb.Sound.cancelled (h : db.Sound) {r : ApprovalRequest κ} (hr : r ∈ db.requests)
    (hpending : r.status = .pending) : (db.setStatus r.id .cancelled).Sound := by
  refine h.withdrawn (p := fun r' => r'.id = r.id) ?_ (.inl rfl)
  intro r' hr' hid
  rw [h.ids.eq hr' hr hid]
  exact hpending

/-- Every transition keeps the invariant. -/
theorem Transition.sound (t : Transition db db') (h : db.Sound) : db'.Sound := by
  cases t with
  | data data => exact h.data data
  | submitted data r id status => exact (h.submitted id).data data
  | approved r actor vote short => exact h.approved vote short
  | ran data r actor status vote quorum ran => exact h.ran vote quorum ran data
  | rejected data r actor vote => exact h.rejected vote data
  | withdrawn p status pending left => exact h.withdrawn pending left

/-- A request that left `pending` keeps its row, its actions and its executions. -/
theorem Transition.frozen (t : Transition db db') (h : db.Sound) {r : ApprovalRequest κ}
    (hr : r ∈ db.requests) (hleft : r.status ≠ .pending) :
    r ∈ db'.requests ∧ db'.actionsOn r.id = db.actionsOn r.id := by
  have hother : ∀ {r' : ApprovalRequest κ} {actor : Uuid}, db.MayVote r' actor → r.id ≠ r'.id :=
    fun hvote hid => hleft (hvote.pending_of_id h.toWellFormed hr hid)
  cases t with
  | data data => exact ⟨hr, rfl⟩
  | submitted data r' id status => exact ⟨List.mem_append_left _ hr, rfl⟩
  | approved r' actor vote short => exact ⟨hr, actionsOn_vote_of_ne (hother vote)⟩
  | ran data r' actor status vote quorum ran =>
    have hmem : r ∈ ((db.vote r'.id actor .approve).setStatus r'.id status).requests :=
      mem_setStatuses_of_not hr (hother vote)
    exact ⟨hmem, actionsOn_vote_of_ne (hother vote)⟩
  | rejected data r' actor vote =>
    have hmem : r ∈ ((db.vote r'.id actor .reject).setStatus r'.id .rejected).requests :=
      mem_setStatuses_of_not hr (hother vote)
    exact ⟨hmem, actionsOn_vote_of_ne (hother vote)⟩
  | withdrawn p status pending left =>
    exact ⟨mem_setStatuses_of_not hr fun hp => hleft (pending r hr hp), rfl⟩

/-- Only the approval that completes the quorum of a pending request runs an executor. -/
theorem Transition.executions (t : Transition db db') (h : db.Sound) :
    db'.executions = db.executions ∨ ∃ r, db.request? r.id = some r ∧ r.status = .pending ∧
      db'.executions = db.executions ++ [r.id] ∧ db'.Granted r := by
  cases t with
  | ran data r actor status vote quorum ran =>
    have hgrant := h.granted_vote vote quorum
    exact .inr ⟨r, vote.found, vote.pending, rfl,
      ⟨hgrant.quorum, hgrant.distinct, hgrant.others, hgrant.unrejected⟩⟩
  | _ => exact .inl rfl

theorem ApprovalDb.DistinctIds.request?_eq_some (h : db.DistinctIds) {r : ApprovalRequest κ}
    (hr : r ∈ db.requests) : db.request? r.id = some r := by
  cases hfind : db.request? r.id with
  | none =>
    have hnone := List.find?_eq_none.mp hfind r hr
    simp at hnone
  | some r' =>
    obtain ⟨hr', hid⟩ := SaccoPlatform.request?_eq_some hfind
    rw [h.eq hr' hr hid]

end

/-- The approval tables before the first request. -/
structure ApprovalDb.Fresh (db : ApprovalDb σ κ) : Prop where
  requests : db.requests = []
  actions : db.actions = []
  executions : db.executions = []

theorem ApprovalDb.Fresh.sound {db : ApprovalDb σ κ} (h : db.Fresh) : db.Sound := by
  obtain ⟨data, next, requests, actions, executions⟩ := db
  obtain rfl : requests = [] := h.requests
  obtain rfl : actions = [] := h.actions
  obtain rfl : executions = [] := h.executions
  exact ⟨⟨List.nodup_nil, nofun, nofun, fun _ => List.nodup_nil, nofun⟩, nofun, nofun,
    List.nodup_nil, nofun⟩

section

variable (hooks : ApprovalHooks σ κ) {db : ApprovalDb σ κ}

theorem step_sound (h : db.Sound) (op : ApprovalOp σ κ) : (op.step hooks db).Sound :=
  (step_transition hooks h.ids op).sound h

theorem run_sound (h : db.Sound) (ops : List (ApprovalOp σ κ)) :
    (run (ApprovalOp.step hooks) db ops).Sound := by
  have hstep : ∀ (s : ApprovalDb σ κ) (op : ApprovalOp σ κ), s.Sound → (op.step hooks s).Sound :=
    fun s op hs => step_sound hooks hs op
  exact run_invariant_of_step hstep ops h

/-- Whatever happens after a request left `pending`, its row stays as it is. -/
theorem run_frozen (h : db.Sound) (ops : List (ApprovalOp σ κ)) {r : ApprovalRequest κ}
    (hr : r ∈ db.requests) (hleft : r.status ≠ .pending) :
    r ∈ (run (ApprovalOp.step hooks) db ops).requests := by
  induction ops generalizing db with
  | nil => exact hr
  | cons op ops ih =>
    have htransition := step_transition hooks h.ids op
    exact ih (htransition.sound h) (htransition.frozen h hr hleft).1

/-- A request that is pending now has been pending since it was submitted. -/
theorem pending_before (h : db.Sound) (ops : List (ApprovalOp σ κ)) {r r' : ApprovalRequest κ}
    (hr' : r' ∈ db.requests) (hr : r ∈ (run (ApprovalOp.step hooks) db ops).requests)
    (hid : r'.id = r.id) (hpending : r.status = .pending) : r'.status = .pending := by
  by_contra hleft
  have hstill := run_frozen hooks h ops hr' hleft
  rw [(run_sound hooks h ops).ids.eq hstill hr hid] at hleft
  exact hleft hpending

/-- In every run from fresh approval tables: an executor runs at most once for a request; it
runs only in the approval that completes the quorum of a request that has been pending ever
since its submission, and then enough distinct users other than the maker have approved and
nobody has rejected, now and for good; and a request that left `pending` never changes
again. -/
theorem makerChecker_sound (hfresh : db.Fresh) (ops : List (ApprovalOp σ κ)) :
    (run (ApprovalOp.step hooks) db ops).executions.Nodup ∧
    (∀ id ∈ (run (ApprovalOp.step hooks) db ops).executions,
      ∃ r, (run (ApprovalOp.step hooks) db ops).request? id = some r ∧ r.status.Ran ∧
        (run (ApprovalOp.step hooks) db ops).Granted r) ∧
    (∀ before op after, ops = before ++ op :: after →
      let s := run (ApprovalOp.step hooks) db before
      (op.step hooks s).executions = s.executions ∨
        ∃ r, s.request? r.id = some r ∧ r.status = .pending ∧
          (op.step hooks s).executions = s.executions ++ [r.id] ∧
          (op.step hooks s).Granted r ∧
          ∀ earlier later r', before = earlier ++ later →
            (run (ApprovalOp.step hooks) db earlier).request? r.id = some r' →
              r'.status = .pending) ∧
    ∀ before after r, ops = before ++ after →
      (run (ApprovalOp.step hooks) db before).request? r.id = some r → r.status ≠ .pending →
        (run (ApprovalOp.step hooks) db ops).request? r.id = some r := by
  have hsound : ∀ ops, (run (ApprovalOp.step hooks) db ops).Sound :=
    fun ops => run_sound hooks hfresh.sound ops
  refine ⟨(hsound ops).once, ?_, ?_, ?_⟩
  · intro id hid
    obtain ⟨r, hr, rfl, hran, hgrant⟩ := (hsound ops).granted id hid
    exact ⟨r, (hsound ops).ids.request?_eq_some hr, hran, hgrant⟩
  · intro before op after _
    have htransition := step_transition hooks (hsound before).ids op
    rcases htransition.executions (hsound before) with hsame | ⟨r, hr, hpending, hexec, hgrant⟩
    · exact .inl hsame
    · refine .inr ⟨r, hr, hpending, hexec, hgrant, ?_⟩
      rintro earlier later r' rfl hr'
      obtain ⟨hmem', hid⟩ := request?_eq_some hr'
      have hmem := (request?_eq_some hr).1
      rw [run_append] at hmem
      exact pending_before hooks (hsound earlier) later hmem' hmem hid hpending
  · rintro before after r rfl hr hleft
    apply (hsound _).ids.request?_eq_some
    rw [run_append]
    exact run_frozen hooks (hsound before) after (request?_eq_some hr).1 hleft

end

/-- An executor that counts its runs. -/
def countingHooks : ApprovalHooks ℕ Unit where
  execute _ _ := modify (· + 1)
  ownCommit _ _ _ := none
  notifyPending _ := pure ()
  notifyDecided _ _ := pure ()

/-- User 1 submits a request for two approvals and tries to approve it; users 2 and 3 approve,
user 2 twice; user 4 rejects too late. -/
def twoCheckersRun : List (ApprovalOp ℕ Unit) :=
  [.submit ⟨.ok (), 1, 2, none⟩, .approve 0 1, .approve 0 2, .approve 0 2, .expire 100,
    .approve 0 3, .reject 0 4]

theorem makerChecker_sound_twoCheckers :
    (run (ApprovalOp.step countingHooks) ⟨0, 0, [], [], []⟩ twoCheckersRun).executions = [0] ∧
    ∃ r, (run (ApprovalOp.step countingHooks) ⟨0, 0, [], [], []⟩ twoCheckersRun).request? 0
        = some r ∧ r.status.Ran ∧
      (run (ApprovalOp.step countingHooks) ⟨0, 0, [], [], []⟩ twoCheckersRun).Granted r :=
  ⟨by decide, (makerChecker_sound countingHooks ⟨rfl, rfl, rfl⟩ twoCheckersRun).2.1 0 (by decide)⟩

end SaccoPlatform
