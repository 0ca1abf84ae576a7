import SaccoPlatform.MakerChecker.Approvals

/-!
# Checkers that act at the same time

`approve` and `reject` read the request without a lock. Each runs in a transaction of its own
that sees only what is committed and its own action, so two checkers can both find the request
pending. A step of a transaction is one of its statements; the statement that writes the status
and the commit are one step, since the transaction keeps the row lock from one to the other.
The status is written as an absolute value over whatever is committed by then.

The decisions come out right when every transaction finds, at its commit, that what it decided
on still holds (`Undisturbed`).
-/

namespace SaccoPlatform

open Lib Session

variable {σ κ : Type}

/-- How far a transaction has come. `request` is the row as the transaction read it. -/
inductive CheckerPhase (κ : Type) where
  | started
  | read (request : ApprovalRequest κ)
  | inserted (request : ApprovalRequest κ)
  | counted (request : ApprovalRequest κ) (complete : Bool)
  | finished
deriving DecidableEq

/-- The row as the transaction read it. -/
def CheckerPhase.request? : CheckerPhase κ → Option (ApprovalRequest κ)
  | read request | inserted request | counted request _ => some request
  | started | finished => none

/-- The transaction has inserted its action and not committed yet. -/
def CheckerPhase.Holds : CheckerPhase κ → Prop
  | inserted _ | counted _ _ => True
  | started | read _ | finished => False

instance (phase : CheckerPhase κ) : Decidable phase.Holds := by
  cases phase <;> unfold CheckerPhase.Holds <;> infer_instance

/-- The transaction of one checker. -/
structure CheckerTx (κ : Type) where
  actor : Uuid
  decision : Decision
  phase : CheckerPhase κ
deriving DecidableEq

/-- The committed tables and the transactions on one request. -/
structure ApprovalWorld (σ κ : Type) where
  db : ApprovalDb σ κ
  txs : List (CheckerTx κ)
deriving DecidableEq

namespace ApprovalWorld

/-- No transaction has begun. -/
def start (db : ApprovalDb σ κ) (checkers : List (Uuid × Decision)) : ApprovalWorld σ κ :=
  ⟨db, checkers.map fun (actor, decision) => ⟨actor, decision, .started⟩⟩

/-- `SELECT ... WHERE id = ...` and the checks on the row. -/
def readRequest (w : ApprovalWorld σ κ) (requestId actor : Uuid) : CheckerPhase κ :=
  match w.db.request? requestId with
  | some r => if r.status = .pending ∧ actor ≠ r.requestedBy then .read r else .finished
  | none => .finished

/-- `INSERT INTO approval_actions`: an uncommitted action of the same user makes it wait, a
committed one refuses it. -/
def insertAction (w : ApprovalWorld σ κ) (r : ApprovalRequest κ) (actor : Uuid) :
    CheckerPhase κ :=
  if ∃ tx ∈ w.txs, tx.phase.Holds ∧ tx.actor = actor then .read r
  else if ∃ a ∈ w.db.actionsOn r.id, a.actorUserId = actor then .finished
  else .inserted r

/-- The end of `reject`: the action and the status, unless the notification raises. -/
def commitReject (hooks : ApprovalHooks σ κ) (r : ApprovalRequest κ) (actor : Uuid)
    (db : ApprovalDb σ κ) : ApprovalDb σ κ :=
  match onData (hooks.notifyDecided r false)
      ((db.vote r.id actor .reject).setStatus r.id .rejected) with
  | .ok _ db' => db'
  | _ => db

/-- The next statement of a transaction. -/
def advance (hooks : ApprovalHooks σ κ) (requestId : Uuid) (w : ApprovalWorld σ κ)
    (tx : CheckerTx κ) : ApprovalDb σ κ × CheckerPhase κ :=
  match tx.phase, tx.decision with
  | .started, _ => (w.db, w.readRequest requestId tx.actor)
  | .read r, _ => (w.db, w.insertAction r tx.actor)
  | .inserted r, .approve =>
    (w.db, .counted r
      (r.requiredApprovals ≤ (w.db.vote r.id tx.actor .approve).approvalCount r.id))
  | .counted r complete, _ =>
    ((commitSettle hooks r complete (w.db.vote r.id tx.actor .approve)).getD w.db, .finished)
  | .inserted r, .reject => (commitReject hooks r tx.actor w.db, .finished)
  | .finished, _ => (w.db, .finished)

/-- The transaction at position `i` takes its next step. -/
def step (hooks : ApprovalHooks σ κ) (requestId : Uuid) (w : ApprovalWorld σ κ) (i : ℕ) :
    ApprovalWorld σ κ :=
  match w.txs[i]? with
  | some tx =>
    let next := w.advance hooks requestId tx
    ⟨next.1, w.txs.set i { tx with phase := next.2 }⟩
  | none => w

end ApprovalWorld

/-! ## A transaction alone -/

namespace ApprovalWorld

/-- A step of the only transaction. -/
theorem step_alone (hooks : ApprovalHooks σ κ) (requestId : Uuid) (db : ApprovalDb σ κ)
    (tx : CheckerTx κ) :
    step hooks requestId ⟨db, [tx]⟩ 0
      = ⟨(advance hooks requestId ⟨db, [tx]⟩ tx).1,
          [{ tx with phase := (advance hooks requestId ⟨db, [tx]⟩ tx).2 }]⟩ := rfl

/-- A transaction that is over leaves the tables alone. -/
theorem run_over (hooks : ApprovalHooks σ κ) (requestId : Uuid) (db : ApprovalDb σ κ)
    (actor : Uuid) (decision : Decision) {steps : List ℕ} (hsteps : ∀ i ∈ steps, i = 0) :
    (run (step hooks requestId) ⟨db, [⟨actor, decision, .finished⟩]⟩ steps).db = db := by
  induction steps with
  | nil => rfl
  | cons i steps ih =>
    obtain rfl : i = 0 := hsteps i List.mem_cons_self
    exact ih fun j hj => hsteps j (List.mem_cons_of_mem _ hj)

/-- A lone insertion waits for nobody. -/
theorem insertAction_alone (db : ApprovalDb σ κ) (tx : CheckerTx κ) (hidle : ¬ tx.phase.Holds)
    (r : ApprovalRequest κ) (actor : Uuid) :
    insertAction ⟨db, [tx]⟩ r actor
      = if ∃ a ∈ db.actionsOn r.id, a.actorUserId = actor then .finished else .inserted r := by
  have hnobody : ¬ ∃ tx' ∈ [tx], tx'.phase.Holds ∧ tx'.actor = actor := by
    rintro ⟨tx', htx', hholds, -⟩
    rw [List.mem_singleton.mp htx'] at hholds
    exact hidle hholds
  unfold insertAction
  rw [if_neg hnobody]

/-- The first two steps of a transaction alone that may act. -/
theorem run_alone_inserted (hooks : ApprovalHooks σ κ) {db : ApprovalDb σ κ}
    {r : ApprovalRequest κ} {actor : Uuid} (decision : Decision) (hvote : db.MayVote r actor)
    (steps : List ℕ) :
    run (step hooks r.id) (start db [(actor, decision)]) (0 :: 0 :: steps)
      = run (step hooks r.id) ⟨db, [⟨actor, decision, .inserted r⟩]⟩ steps := by
  have hnone : ¬ ∃ a ∈ db.actionsOn r.id, a.actorUserId = actor := by
    rintro ⟨a, ha, hactor⟩
    exact hvote.first a ha hactor
  have hread : step hooks r.id (start db [(actor, decision)]) 0
      = ⟨db, [⟨actor, decision, .read r⟩]⟩ := by
    change step hooks r.id ⟨db, [⟨actor, decision, .started⟩]⟩ 0 = _
    rw [step_alone]
    simp only [advance, readRequest, hvote.found, if_pos (And.intro hvote.pending hvote.other)]
  rw [run_cons, hread, run_cons, step_alone]
  simp only [advance]
  rw [insertAction_alone _ _ (by exact id), if_neg hnone]

/-- A transaction alone that may not act leaves the tables alone. -/
theorem run_alone_refused (hooks : ApprovalHooks σ κ) {db : ApprovalDb σ κ}
    {requestId actor : Uuid} (decision : Decision)
    (hno : ∀ r, r.id = requestId → ¬ db.MayVote r actor) {steps : List ℕ}
    (hsteps : ∀ i ∈ steps, i = 0) :
    (run (step hooks requestId) (start db [(actor, decision)]) (0 :: 0 :: steps)).db = db := by
  have hover := run_over hooks requestId db actor decision hsteps
  rw [run_cons, run_cons]
  change (run _ (step hooks requestId
    (step hooks requestId ⟨db, [⟨actor, decision, .started⟩]⟩ 0) 0) steps).db = db
  rw [step_alone]
  simp only [advance, readRequest]
  cases hr : db.request? requestId with
  | none => exact hover
  | some r =>
    obtain ⟨-, rfl⟩ := request?_eq_some hr
    by_cases hmay : r.status = .pending ∧ actor ≠ r.requestedBy
    · simp only [if_pos hmay, step_alone, advance]
      rw [insertAction_alone _ _ (by exact id)]
      by_cases hvoted : ∃ a ∈ db.actionsOn r.id, a.actorUserId = actor
      · rw [if_pos hvoted]
        exact hover
      · have hvote : db.MayVote r actor :=
          ⟨hr, hmay.1, hmay.2, fun a ha hactor => hvoted ⟨a, ha, hactor⟩⟩
        exact absurd hvote (hno r rfl)
    · simp only [if_neg hmay]
      exact hover

end ApprovalWorld

open ApprovalWorld in
/-- A checker whose transaction is not interleaved with another one does what `approve` does. -/
theorem approve_alone (hooks : ApprovalHooks σ κ) (db : ApprovalDb σ κ) (requestId actor : Uuid) :
    (run (ApprovalWorld.step hooks requestId) (.start db [(actor, .approve)]) [0, 0, 0, 0]).db
      = (ApprovalOp.approve requestId actor).step hooks db := by
  change _ = commitApprove hooks requestId actor db
  unfold commitApprove
  by_cases hmay : ∃ r, r.id = requestId ∧ db.MayVote r actor
  · obtain ⟨r, rfl, hvote⟩ := hmay
    have hgrant : grant r.id actor db = .ok
        (r, decide (r.requiredApprovals ≤ (db.vote r.id actor .approve).approvalCount r.id))
        (db.vote r.id actor .approve) := by
      simp only [grant, getPending_bind_eq_ok, require_bind_eq_ok, insertAction_bind_eq_ok,
        get_bind_eq_ok, pure_eq_ok]
      exact ⟨r, hvote.found, hvote.pending, hvote.other, hvote.first, rfl, rfl⟩
    rw [run_alone_inserted hooks .approve hvote, hgrant]
    rfl
  · rw [run_alone_refused hooks .approve (fun r hid hvote => hmay ⟨r, hid, hvote⟩) (by decide)]
    split
    · rename_i r complete db' hgrant
      obtain ⟨hid, hvote, -⟩ := grant_ok hgrant
      exact absurd ⟨r, hid, hvote⟩ hmay
    · rfl

open ApprovalWorld in
/-- And one that rejects does what `reject` does. -/
theorem reject_alone (hooks : ApprovalHooks σ κ) (db : ApprovalDb σ κ) (requestId actor : Uuid) :
    (run (ApprovalWorld.step hooks requestId) (.start db [(actor, .reject)]) [0, 0, 0]).db
      = (ApprovalOp.reject requestId actor).step hooks db := by
  change _ = commit (reject hooks requestId actor) db
  by_cases hmay : ∃ r, r.id = requestId ∧ db.MayVote r actor
  · obtain ⟨r, rfl, hvote⟩ := hmay
    have hpending : getPending r.id db = .ok r db := by
      simp [getPending, bind_apply, orRaise, require, hvote.found, hvote.pending]
    have hinsert : insertAction r.id actor .reject db = .ok () (db.vote r.id actor .reject) := by
      simp only [insertAction, bind_apply, get_apply, constraint, if_pos hvote.first, pure_apply,
        modify_apply]
      rfl
    have hreject : reject hooks r.id actor db = onData (hooks.notifyDecided r false)
        ((db.vote r.id actor .reject).setStatus r.id .rejected) := by
      simp only [reject, bind_apply, hpending, hinsert, require, if_pos hvote.other, pure_apply,
        modify_apply]
    rw [run_alone_inserted hooks .reject hvote, commit, hreject]
    change commitReject hooks r actor db = _
    unfold commitReject
    cases onData (hooks.notifyDecided r false)
      ((db.vote r.id actor .reject).setStatus r.id .rejected) <;> rfl
  · rw [run_alone_refused hooks .reject (fun r hid hvote => hmay ⟨r, hid, hvote⟩) (by decide)]
    rcases commit_cases (reject hooks requestId actor) db with ⟨u, db', hok, -⟩ | heq
    · obtain ⟨r, -, hid, hvote, -⟩ := rejectRequest_ok hok
      exact absurd ⟨r, hid, hvote⟩ hmay
    · exact heq.symm

/-! ## Decisions of concurrent checkers -/

/-- What the decisions on a request come to: its executor ran at most once, never together
with a rejection, and it has run once enough distinct users approved. -/
structure ApprovalDb.OneDecision (db : ApprovalDb σ κ) (requestId : Uuid) (required : ℤ) :
    Prop where
  once : db.executions.count requestId ≤ 1
  exclusive : requestId ∈ db.executions → ∀ a ∈ db.actionsOn requestId, a.action ≠ .reject
  distinct : (db.approvers requestId).Nodup
  complete : max 1 required ≤ (db.approvers requestId).length → requestId ∈ db.executions

/-- What the transaction decided on still holds when it commits: an approval that completed
the quorum finds the request pending, one that did not finds the quorum incomplete still (or
the request executed), and a rejection finds a request whose executor did not run. -/
def CheckerTx.Undisturbed (db : ApprovalDb σ κ) (row : ApprovalRequest κ) (tx : CheckerTx κ) :
    Prop :=
  match tx.phase, tx.decision with
  | .counted _ true, _ => row.status = .pending
  | .counted _ false, _ =>
    (db.approvers row.id).length + 1 < max 1 row.requiredApprovals ∨ row.status.Ran
  | .inserted _, .reject => ¬ row.status.Ran
  | _, _ => True

instance (status : RequestStatus) : Decidable status.Ran :=
  inferInstanceAs (Decidable (_ ∨ _ ∨ _))

instance (db : ApprovalDb σ κ) (row : ApprovalRequest κ) (tx : CheckerTx κ) :
    Decidable (tx.Undisturbed db row) := by
  unfold CheckerTx.Undisturbed
  split <;> infer_instance

/-- The step of the transaction at position `i` is undisturbed. -/
def ApprovalWorld.Undisturbed (requestId : Uuid) (w : ApprovalWorld σ κ) (i : ℕ) : Prop :=
  ∀ tx ∈ w.txs[i]?, ∀ row ∈ w.db.request? requestId, tx.Undisturbed w.db row

instance (requestId : Uuid) (w : ApprovalWorld σ κ) (i : ℕ) :
    Decidable (w.Undisturbed requestId i) :=
  inferInstanceAs (Decidable (∀ tx ∈ w.txs[i]?, ∀ row ∈ w.db.request? requestId, _))

/-- The committed tables between the steps of the transactions. -/
structure ApprovalDb.Decided (db : ApprovalDb σ κ) (row : ApprovalRequest κ) : Prop
    extends db.WellFormed where
  found : db.request? row.id = some row
  ran : row.status.Ran ↔ row.id ∈ db.executions
  unrejected : row.status = .pending → ∀ a ∈ db.actionsOn row.id, a.action ≠ .reject
  decision : db.OneDecision row.id row.requiredApprovals

theorem approvers_vote_approve (db : ApprovalDb σ κ) (requestId actor : Uuid) :
    (db.vote requestId actor .approve).approvers requestId = db.approvers requestId ++ [actor] := by
  unfold ApprovalDb.approvers
  rw [actionsOn_vote_self]
  simp

theorem approvers_vote_reject (db : ApprovalDb σ κ) (requestId actor : Uuid) :
    (db.vote requestId actor .reject).approvers requestId = db.approvers requestId := by
  unfold ApprovalDb.approvers
  rw [actionsOn_vote_self]
  simp

section

variable {db : ApprovalDb σ κ} {row : ApprovalRequest κ} {actor : Uuid}

/-- A pending request of a sound state is undecided. -/
theorem ApprovalDb.Sound.decided (h : db.Sound) (hfound : db.request? row.id = some row)
    (hpending : row.status = .pending) : db.Decided row := by
  have hmem : row ∈ db.requests := (request?_eq_some hfound).1
  obtain ⟨hnot, hunrejected⟩ := h.pending row hmem hpending
  refine ⟨h.toWellFormed, hfound, ?_, fun _ => hunrejected, ?_, ?_, ?_, ?_⟩
  · constructor
    · intro hran
      exact absurd hpending hran.ne_pending
    · intro hexec
      exact absurd hexec hnot
  · rw [List.count_eq_zero_of_not_mem hnot]
    exact Nat.zero_le 1
  · intro hexec
    exact absurd hexec hnot
  · exact h.approvers_nodup row.id
  · intro hcomplete
    exact absurd (h.waiting row hmem hpending) (not_lt.mpr hcomplete)

/-- An approval that leaves the quorum incomplete, or comes after the execution. -/
theorem ApprovalDb.Decided.approved (h : db.Decided row) (hother : actor ≠ row.requestedBy)
    (hfirst : ∀ a ∈ db.actionsOn row.id, a.actorUserId ≠ actor)
    (hok : (db.approvers row.id).length + 1 < max 1 row.requiredApprovals ∨ row.status.Ran) :
    (db.vote row.id actor .approve).Decided row where
  toWellFormed := h.vote (request?_eq_some h.found).1 hother hfirst .approve
  found := h.found
  ran := h.ran
  unrejected hpending := unrejected_vote (h.unrejected hpending)
  decision := by
    have hwf := h.vote (request?_eq_some h.found).1 hother hfirst .approve
    refine ⟨h.decision.once, ?_, hwf.approvers_nodup row.id, ?_⟩
    · intro hexec
      exact unrejected_vote (h.decision.exclusive hexec)
    · intro hcomplete
      rw [approvers_vote_approve, List.length_append, List.length_singleton] at hcomplete
      rcases hok with hshort | hran
      · push_cast at hcomplete
        omega
      · exact h.ran.mp hran

/-- The approval that completes the quorum, on a request that is pending at its commit. -/
theorem ApprovalDb.Decided.executed (h : db.Decided row) (hother : actor ≠ row.requestedBy)
    (hfirst : ∀ a ∈ db.actionsOn row.id, a.actorUserId ≠ actor) (hpending : row.status = .pending)
    {status : RequestStatus} (hran : status.Ran) (data : σ) :
    ({ (db.vote row.id actor .approve).setStatus row.id status with
      data
      executions := db.executions ++ [row.id] } : ApprovalDb σ κ).Decided { row with status } := by
  have hmem : row ∈ db.requests := (request?_eq_some h.found).1
  have hwf := (h.vote hmem hother hfirst .approve).setStatuses (·.id = row.id) status
  have hnot : row.id ∉ db.executions := fun hexec => (h.ran.mpr hexec).ne_pending hpending
  have hnew : row.id ∈ db.executions ++ [row.id] := List.mem_append_right _ List.mem_cons_self
  refine ⟨hwf.congr rfl rfl rfl, ?_, ?_, ?_, ?_, ?_, ?_, ?_⟩
  · change ((db.vote row.id actor .approve).setStatus row.id status).request? row.id = _
    rw [request?_setStatus]
    change (db.request? row.id).map _ = _
    rw [h.found]
    rfl
  · exact ⟨fun _ => hnew, fun _ => hran⟩
  · intro hstatus
    exact absurd hstatus hran.ne_pending
  · rw [List.count_append, List.count_eq_zero_of_not_mem hnot]
    simp
  · intro _
    exact unrejected_vote (h.unrejected hpending)
  · exact hwf.approvers_nodup row.id
  · intro _
    exact hnew

/-- A rejection of a request whose executor did not run. -/
theorem ApprovalDb.Decided.rejected (h : db.Decided row) (hother : actor ≠ row.requestedBy)
    (hfirst : ∀ a ∈ db.actionsOn row.id, a.actorUserId ≠ actor) (hnot : ¬ row.status.Ran)
    (data : σ) :
    ({ (db.vote row.id actor .reject).setStatus row.id .rejected with data } :
      ApprovalDb σ κ).Decided { row with status := .rejected } := by
  have hmem : row ∈ db.requests := (request?_eq_some h.found).1
  have hwf := (h.vote hmem hother hfirst .reject).setStatuses (·.id = row.id) .rejected
  have hidle : row.id ∉ db.executions := fun hexec => hnot (h.ran.mpr hexec)
  refine ⟨hwf.congr rfl rfl rfl, ?_, ?_, nofun, h.decision.once, ?_, ?_, ?_⟩
  · change ((db.vote row.id actor .reject).setStatus row.id .rejected).request? row.id = _
    rw [request?_setStatus]
    change (db.request? row.id).map _ = _
    rw [h.found]
    rfl
  · constructor
    · rintro (hran | hran | hran) <;> cases hran
    · intro hexec
      exact absurd hexec hidle
  · intro hexec
    exact absurd hexec hidle
  · exact hwf.approvers_nodup row.id
  · intro hcomplete
    apply h.decision.complete
    rw [← approvers_vote_reject db row.id actor]
    exact hcomplete

end

/-- The world between two steps. `r` is the request as it was when the first transaction
began; only its status changes. -/
structure ApprovalWorld.Orderly (w : ApprovalWorld σ κ) (r : ApprovalRequest κ) : Prop where
  decided : ∃ status, w.db.Decided { r with status }
  read : ∀ (i : ℕ) (tx : CheckerTx κ), w.txs[i]? = some tx → ∀ request ∈ tx.phase.request?,
    request.id = r.id ∧ tx.actor ≠ r.requestedBy
  first : ∀ (i : ℕ) (tx : CheckerTx κ), w.txs[i]? = some tx → tx.phase.Holds →
    ∀ a ∈ w.db.actionsOn r.id, a.actorUserId ≠ tx.actor
  apart : ∀ (i j : ℕ) (tx tx' : CheckerTx κ), w.txs[i]? = some tx → w.txs[j]? = some tx' →
    i ≠ j → tx.phase.Holds → tx'.phase.Holds → tx.actor ≠ tx'.actor

/-- The transactions after the one at position `i` moved to another phase. -/
theorem getElem?_set_phase {txs : List (CheckerTx κ)} {i j : ℕ} {tx tx' : CheckerTx κ}
    {phase : CheckerPhase κ} (htx : txs[i]? = some tx)
    (h : (txs.set i { tx with phase })[j]? = some tx') :
    (j = i ∧ tx' = { tx with phase }) ∨ (j ≠ i ∧ txs[j]? = some tx') := by
  have hi : i < txs.length := (List.getElem?_eq_some_iff.mp htx).1
  by_cases hij : j = i
  · rw [hij, List.getElem?_set_self hi] at h
    exact .inl ⟨hij, (Option.some.inj h).symm⟩
  · rw [List.getElem?_set_ne (Ne.symm hij)] at h
    exact .inr ⟨hij, h⟩

namespace ApprovalWorld

variable {w : ApprovalWorld σ κ} {r : ApprovalRequest κ} {i : ℕ} {tx : CheckerTx κ}

/-- The rule for a step that leaves the tables alone: the transaction keeps the row it read,
and an action it newly holds is the first one of its user. -/
theorem Orderly.advance (h : w.Orderly r) (htx : w.txs[i]? = some tx) (phase : CheckerPhase κ)
    (hread : ∀ request ∈ phase.request?, request.id = r.id ∧ tx.actor ≠ r.requestedBy)
    (hholds : phase.Holds → tx.phase.Holds ∨
      (∀ tx' ∈ w.txs, tx'.phase.Holds → tx'.actor ≠ tx.actor) ∧
        ∀ a ∈ w.db.actionsOn r.id, a.actorUserId ≠ tx.actor) :
    (⟨w.db, w.txs.set i { tx with phase }⟩ : ApprovalWorld σ κ).Orderly r where
  decided := h.decided
  read := by
    intro j tx' htx'
    rcases getElem?_set_phase htx htx' with ⟨-, rfl⟩ | ⟨-, hold⟩
    · exact hread
    · exact h.read j tx' hold
  first := by
    intro j tx' htx' hheld
    rcases getElem?_set_phase htx htx' with ⟨-, rfl⟩ | ⟨-, hold⟩
    · rcases hholds hheld with hbefore | ⟨-, hfirst⟩
      · exact h.first i tx htx hbefore
      · exact hfirst
    · exact h.first j tx' hold hheld
  apart := by
    -- only the pairs with the transaction that moved are new
    have hself : ∀ (j : ℕ) (tx' : CheckerTx κ), w.txs[j]? = some tx' → j ≠ i → phase.Holds → tx'.phase.Holds →
        tx'.actor ≠ tx.actor := by
      intro j tx' htx' hji hheld hheld'
      rcases hholds hheld with hbefore | ⟨hnobody, -⟩
      · exact h.apart j i tx' tx htx' htx hji hheld' hbefore
      · exact hnobody tx' (List.mem_of_getElem? htx') hheld'
    intro j k tx₁ tx₂ htx₁ htx₂ hjk hheld₁ hheld₂
    rcases getElem?_set_phase htx htx₁ with ⟨rfl, rfl⟩ | ⟨hj, hold₁⟩
    · rcases getElem?_set_phase htx htx₂ with ⟨rfl, -⟩ | ⟨hk, hold₂⟩
      · exact absurd rfl hjk
      · exact (hself k tx₂ hold₂ hk hheld₁ hheld₂).symm
    · rcases getElem?_set_phase htx htx₂ with ⟨-, rfl⟩ | ⟨-, hold₂⟩
      · exact hself j tx₁ hold₁ hj hheld₂ hheld₁
      · exact h.apart j k tx₁ tx₂ hold₁ hold₂ hjk hheld₁ hheld₂

/-- The rule for a commit: the action of the transaction becomes visible to the others. -/
theorem Orderly.commit (h : w.Orderly r) (htx : w.txs[i]? = some tx) (hheld : tx.phase.Holds)
    {db' : ApprovalDb σ κ} (hdecided : ∃ status, db'.Decided { r with status })
    {action : Decision}
    (hactions : db'.actionsOn r.id = w.db.actionsOn r.id ++ [⟨r.id, tx.actor, action⟩]) :
    (⟨db', w.txs.set i { tx with phase := .finished }⟩ : ApprovalWorld σ κ).Orderly r where
  decided := hdecided
  read := (h.advance htx .finished nofun nofun).read
  first := by
    intro j tx' htx' hheld' a ha
    rcases getElem?_set_phase htx htx' with ⟨-, rfl⟩ | ⟨hji, hold⟩
    · exact hheld'.elim
    · rw [hactions] at ha
      rcases List.mem_append.mp ha with ha | ha
      · exact h.first j tx' hold hheld' a ha
      · rw [List.mem_singleton.mp ha]
        exact (h.apart j i tx' tx hold htx hji hheld' hheld).symm
  apart := (h.advance htx .finished nofun nofun).apart

theorem commitReject_cases (hooks : ApprovalHooks σ κ) (request : ApprovalRequest κ) (actor : Uuid)
    (db : ApprovalDb σ κ) :
    commitReject hooks request actor db = db ∨ ∃ data, commitReject hooks request actor db
      = { (db.vote request.id actor .reject).setStatus request.id .rejected with data } := by
  unfold commitReject
  split
  · rename_i hok
    obtain ⟨data, rfl⟩ := onData_ok hok
    exact .inr ⟨data, rfl⟩
  · exact .inl rfl

/-- What the end of a transaction finds: the request, and an action that is still the first
one of its user. -/
theorem Orderly.held (h : w.Orderly r) (htx : w.txs[i]? = some tx) (hheld : tx.phase.Holds)
    {request : ApprovalRequest κ} (hrequest : tx.phase.request? = some request) :
    ∃ status, w.db.Decided { r with status } ∧ request.id = r.id ∧ tx.actor ≠ r.requestedBy ∧
      ∀ a ∈ w.db.actionsOn r.id, a.actorUserId ≠ tx.actor := by
  obtain ⟨status, hdecided⟩ := h.decided
  obtain ⟨hid, hother⟩ := h.read i tx htx request hrequest
  exact ⟨status, hdecided, hid, hother, h.first i tx htx hheld⟩

/-- The end of an approval. -/
theorem Orderly.settled (h : w.Orderly r) (htx : w.txs[i]? = some tx) (hooks : ApprovalHooks σ κ)
    {request : ApprovalRequest κ} {complete : Bool} (hphase : tx.phase = .counted request complete)
    (hok : w.Undisturbed r.id i) :
    (⟨(commitSettle hooks request complete (w.db.vote request.id tx.actor .approve)).getD w.db,
      w.txs.set i { tx with phase := .finished }⟩ : ApprovalWorld σ κ).Orderly r := by
  have hheld : tx.phase.Holds := by
    rw [hphase]
    trivial
  have hrequest : tx.phase.request? = some request := by rw [hphase]; rfl
  obtain ⟨status, hdecided, hid, hother, hfirst⟩ := h.held htx hheld hrequest
  have hundisturbed := hok tx htx _ hdecided.found
  rw [CheckerTx.Undisturbed, hphase] at hundisturbed
  cases hsettle : commitSettle hooks request complete (w.db.vote request.id tx.actor .approve) with
  | none => exact h.advance htx .finished nofun nofun
  | some db' =>
    rcases commitSettle_eq_some hsettle with ⟨rfl, rfl⟩ | ⟨rfl, data, status', hran, rfl⟩
    · rw [hid]
      exact h.commit htx hheld ⟨status, hdecided.approved hother hfirst hundisturbed⟩
        (actionsOn_vote_self _ _ _ _)
    · rw [hid]
      exact h.commit htx hheld
        ⟨status', hdecided.executed hother hfirst hundisturbed hran data⟩
        (actionsOn_vote_self _ _ _ _)

/-- The end of a rejection. -/
theorem Orderly.rejected (h : w.Orderly r) (htx : w.txs[i]? = some tx) (hooks : ApprovalHooks σ κ)
    {request : ApprovalRequest κ} (hphase : tx.phase = .inserted request)
    (hdecision : tx.decision = .reject) (hok : w.Undisturbed r.id i) :
    (⟨commitReject hooks request tx.actor w.db,
      w.txs.set i { tx with phase := .finished }⟩ : ApprovalWorld σ κ).Orderly r := by
  have hheld : tx.phase.Holds := by
    rw [hphase]
    trivial
  have hrequest : tx.phase.request? = some request := by rw [hphase]; rfl
  obtain ⟨status, hdecided, hid, hother, hfirst⟩ := h.held htx hheld hrequest
  have hundisturbed := hok tx htx _ hdecided.found
  rw [CheckerTx.Undisturbed, hphase, hdecision] at hundisturbed
  rcases commitReject_cases hooks request tx.actor w.db with heq | ⟨data, heq⟩
  · rw [heq]
    exact h.advance htx .finished nofun nofun
  · rw [heq, hid]
    exact h.commit htx hheld ⟨_, hdecided.rejected hother hfirst hundisturbed data⟩
      (actionsOn_vote_self _ _ _ _)

/-- An undisturbed step keeps the world orderly. -/
theorem Orderly.step (h : w.Orderly r) (hooks : ApprovalHooks σ κ) (i : ℕ)
    (hok : w.Undisturbed r.id i) : (w.step hooks r.id i).Orderly r := by
  unfold ApprovalWorld.step
  cases htx : w.txs[i]? with
  | none => exact h
  | some tx =>
    dsimp only
    unfold ApprovalWorld.advance
    split
    · -- the row is read: it is the request with its present status
      obtain ⟨status, hdecided⟩ := h.decided
      refine h.advance htx _ ?_ ?_ <;> simp only [readRequest, hdecided.found]
      · split
        · rename_i hmay
          intro request hrequest
          cases hrequest
          exact ⟨rfl, hmay.2⟩
        · exact nofun
      · split <;> exact nofun
    · -- the vote is inserted: no open transaction and no committed row of this user is in the way
      rename_i request hphase
      have hread : ∀ request' ∈ tx.phase.request?, request'.id = r.id ∧ tx.actor ≠ r.requestedBy :=
        h.read i tx htx
      rw [hphase] at hread
      refine h.advance htx _ ?_ ?_ <;> unfold insertAction <;> split
      · exact hread
      · split
        · exact nofun
        · exact hread
      · exact nofun
      · rename_i hnobody
        split
        · exact nofun
        · rename_i hfirst
          intro _
          rw [(hread request rfl).1] at hfirst
          exact .inr ⟨fun tx' htx' hheld hactor => hnobody ⟨tx', htx', hheld, hactor⟩,
            fun a ha hactor => hfirst ⟨a, ha, hactor⟩⟩
    · -- an approval counts the votes while it holds its own
      rename_i request hphase hdecision
      refine h.advance htx _ ?_ ?_
      · have hread := h.read i tx htx
        rw [hphase] at hread
        exact hread
      · intro _
        rw [hphase]
        exact .inl trivial
    · rename_i hphase
      exact h.settled htx hooks hphase hok
    · rename_i hphase hdecision
      exact h.rejected htx hooks hphase hdecision hok
    · exact h.advance htx .finished nofun nofun

/-- Before the first step nobody holds anything. -/
theorem orderly_start {db : ApprovalDb σ κ} (hdecided : db.Decided r)
    (checkers : List (Uuid × Decision)) : (start db checkers).Orderly r := by
  have hstarted : ∀ (i : ℕ) (tx : CheckerTx κ), (start db checkers).txs[i]? = some tx →
      tx.phase = .started := by
    intro i tx htx
    obtain ⟨checker, -, rfl⟩ := List.mem_map.mp (List.mem_of_getElem? htx)
    rfl
  refine ⟨⟨r.status, hdecided⟩, ?_, ?_, ?_⟩
  · intro i tx htx
    rw [hstarted i tx htx]
    exact nofun
  · intro i tx htx
    rw [hstarted i tx htx]
    exact nofun
  · intro i j tx tx' htx
    rw [hstarted i tx htx]
    exact nofun

end ApprovalWorld

/-- After any history of the approval tables, for every set of concurrent checkers of one
pending request and every undisturbed interleaving of their transactions: the executor ran at
most once, never next to a rejection, and it has run once enough users approved. -/
theorem concurrent_oneDecision (hooks : ApprovalHooks σ κ) {db : ApprovalDb σ κ}
    (hfresh : db.Fresh) (history : List (ApprovalOp σ κ)) {r : ApprovalRequest κ}
    (hfound : (run (ApprovalOp.step hooks) db history).request? r.id = some r)
    (hpending : r.status = .pending) (checkers : List (Uuid × Decision)) (schedule : List ℕ)
    (hok : Along (ApprovalWorld.step hooks r.id) (ApprovalWorld.Undisturbed r.id)
      (.start (run (ApprovalOp.step hooks) db history) checkers) schedule) :
    (run (ApprovalWorld.step hooks r.id)
      (.start (run (ApprovalOp.step hooks) db history) checkers)
      schedule).db.OneDecision r.id r.requiredApprovals := by
  have hsound := run_sound hooks hfresh.sound history
  have hstep : ∀ (w : ApprovalWorld σ κ) i, w.Orderly r → w.Undisturbed r.id i →
      (w.step hooks r.id i).Orderly r := fun w i h hok => h.step hooks i hok
  have hstart := ApprovalWorld.orderly_start (hsound.decided hfound hpending) checkers
  obtain ⟨status, hdecided⟩ := (run_invariant hstep hstart hok).decided
  exact hdecided.decision

/-- User 1 has submitted a request; nobody has acted on it yet. -/
def submittedDb (required : ℤ) : ApprovalDb ℕ Unit :=
  run (ApprovalOp.step countingHooks) ⟨0, 0, [], [], []⟩ [.submit ⟨.ok (), 1, required, none⟩]

/-- The second checker reads the request before the first commits, but counts after it. -/
theorem concurrent_oneDecision_overlapping :
    (run (ApprovalWorld.step countingHooks 0)
      (.start (submittedDb 2) [(2, .approve), (3, .approve), (4, .reject)])
      [0, 1, 0, 0, 0, 1, 1, 1, 2]).db.executions = [0] ∧
    (run (ApprovalWorld.step countingHooks 0)
      (.start (submittedDb 2) [(2, .approve), (3, .approve), (4, .reject)])
      [0, 1, 0, 0, 0, 1, 1, 1, 2]).db.OneDecision 0 2 := by
  refine ⟨by decide, ?_⟩
  have hfresh : (⟨0, 0, [], [], []⟩ : ApprovalDb ℕ Unit).Fresh := ⟨rfl, rfl, rfl⟩
  exact concurrent_oneDecision countingHooks hfresh [.submit ⟨.ok (), 1, 2, none⟩]
    (r := ⟨0, (), 1, 2, .pending, none⟩) (by decide) rfl
    [(2, .approve), (3, .approve), (4, .reject)] [0, 1, 0, 0, 0, 1, 1, 1, 2] (by decide)

/-- Two checkers complete a quorum of two and each counts one approval; two checkers both
complete a quorum of one and the executor runs twice; a checker approves and another one
rejects, and both go through. -/
theorem concurrent_decisions_clash :
    ¬ (run (ApprovalWorld.step countingHooks 0)
        (.start (submittedDb 2) [(2, .approve), (3, .approve)])
        [0, 1, 0, 1, 0, 1, 0, 1]).db.OneDecision 0 2 ∧
    ¬ (run (ApprovalWorld.step countingHooks 0)
        (.start (submittedDb 1) [(2, .approve), (3, .approve)])
        [0, 1, 0, 1, 0, 1, 0, 1]).db.OneDecision 0 1 ∧
    ¬ (run (ApprovalWorld.step countingHooks 0)
        (.start (submittedDb 1) [(2, .approve), (3, .reject)])
        [0, 1, 0, 1, 0, 0, 1]).db.OneDecision 0 1 := by
  refine ⟨fun h => ?_, fun h => ?_, fun h => ?_⟩
  · exact absurd (h.complete (by decide)) (by decide)
  · exact absurd h.once (by decide)
  · exact absurd (h.exclusive (by decide)) (by decide)

end SaccoPlatform
