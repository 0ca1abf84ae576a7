import SaccoPlatform.MakerChecker.Executors
import SaccoPlatform.MakerChecker.Footprints

/-!
# The status of a member

`MemberService.submit_status_change` (`app/modules/members/service.py`) looks the change up in
`_VALID_TRANSITIONS` when it is submitted for approval; `execute_change_status`
(`app/modules/members/executors.py`) writes the new status whatever the status is by then. So two
changes that were both valid when they were submitted can follow each other off the graph, and a
request that comes in through `POST /approvals` was never looked up at all: a member who has left
can be made active again.

No other code writes the column: a transaction elsewhere leaves the status of every member alone.
-/

namespace SaccoPlatform

open Lib Session

/-! ## The service -/

def MemberStatus.text : MemberStatus → String
  | pending => "pending"
  | active => "active"
  | suspended => "suspended"
  | exited => "exited"

/-- `_VALID_TRANSITIONS`, each set in sorted order. -/
def MemberStatus.validTargets : MemberStatus → List MemberStatus
  | pending => [.active, .exited]
  | active => [.exited, .suspended]
  | suspended => [.active, .exited]
  | exited => []

/-- `sorted(valid_targets) or 'none (terminal state)'`, as it is printed. -/
def MemberStatus.targetsText (s : MemberStatus) : String :=
  if s.validTargets = [] then "none (terminal state)"
  else "[" ++ ", ".intercalate (s.validTargets.map fun target => "'" ++ target.text ++ "'") ++ "]"

/-- The arguments of `submit_status_change`; the reason and the idempotency key are stored in the
payload, where nothing reads them. -/
structure StatusChangeIn where
  memberId : Uuid
  newStatus : String
  submittedBy : Uuid
deriving DecidableEq, Repr

def Tables.member? (t : Tables) (id : Uuid) : Option Member := t.members.find? (·.id = id)

/-- `MemberService.submit_status_change`; returns the request. -/
def submitStatusChange (env : Surroundings) (s : StatusChangeIn) : ApprovalCall Uuid := do
  let db ← get
  let member ← orRaise (db.data.member? s.memberId)
    (.valueError s!"Member '{s.memberId}' not found")
  require (∃ target ∈ member.status.validTargets, target.text = s.newStatus)
    (.valueError (s!"Cannot transition member from '{member.status.text}' to '{s.newStatus}'. " ++
      s!"Valid targets: {member.status.targetsText}"))
  submit (tenantHooks env)
    ⟨.ok (.changeStatus ⟨some s.memberId, some s.newStatus⟩), s.submittedBy, 1, none⟩

/-! ## Runs -/

/-- A committed transaction: a submission by its endpoint, or a call of the approval endpoints,
`POST /approvals` among them. -/
inductive StatusOp where
  | submitStatusChange (s : StatusChangeIn)
  | approval (op : ApprovalOp Tables Operation)

def StatusOp.step (db : ApprovalDb Tables Operation) :
    Surroundings × StatusOp → ApprovalDb Tables Operation
  | (env, .submitStatusChange s) => commit (SaccoPlatform.submitStatusChange env s) db
  | (env, .approval op) => op.step (tenantHooks env) db

/-- The status of the member, if there is one. -/
def Tables.statusOf? (t : Tables) (memberId : Uuid) : Option MemberStatus :=
  (t.member? memberId).map (·.status)

/-- A transaction elsewhere may register members and writes no status. -/
def StatusOp.Elsewhere (db : ApprovalDb Tables Operation) : Surroundings × StatusOp → Prop
  | (_, .approval (.elsewhere data)) =>
    ∀ memberId status, db.data.statusOf? memberId = some status →
      data.statusOf? memberId = some status
  | _ => True

/-- Every change of a status is an edge of `_VALID_TRANSITIONS`. -/
def FollowsGraph (t t' : Tables) : Prop :=
  ∀ memberId status, t.statusOf? memberId = some status →
    ∃ status', t'.statusOf? memberId = some status' ∧
      (status' ≠ status → status' ∈ status.validTargets)

/-- The change that the approval is about to execute: it completes the quorum of a pending
`members.change_status` request. -/
def ApprovalDb.statusChange? (db : ApprovalDb Tables Operation) (requestId actor : Uuid) :
    Option (Uuid × MemberStatus) :=
  match db.request? requestId with
  | none => none
  | some r =>
    match r.operation with
    | .changeStatus payload =>
      if db.MayVote r actor ∧
          r.requiredApprovals ≤ (db.vote r.id actor .approve).approvalCount r.id then
        payload.memberId.bind fun memberId =>
          (payload.newStatus.bind memberStatus?).map (memberId, ·)
      else none
    | _ => none

/-- The look-up of `submit_status_change`, made at the execution; a change to the status that the
member already has changes nothing. -/
def Tables.Admits (t : Tables) (change : Uuid × MemberStatus) : Prop :=
  ∀ status ∈ t.statusOf? change.1, change.2 = status ∨ change.2 ∈ status.validTargets

instance (t : Tables) (change : Uuid × MemberStatus) : Decidable (t.Admits change) :=
  inferInstanceAs (Decidable (∀ status ∈ t.statusOf? change.1, _))

/-- A change of status that is about to be executed is valid by then. -/
def StatusOp.StillValid (db : ApprovalDb Tables Operation) : Surroundings × StatusOp → Prop
  | (_, .approval (.approve requestId actor)) =>
    ∀ change ∈ db.statusChange? requestId actor, db.data.Admits change
  | _ => True

instance (db : ApprovalDb Tables Operation) (op : Surroundings × StatusOp) :
    Decidable (StatusOp.StillValid db op) := by
  unfold StatusOp.StillValid
  split <;> infer_instance

/-! ## What an executed change does -/

/-- The status of one member was written. -/
structure StatusChanged (t t' : Tables) (change : Uuid × MemberStatus) : Prop where
  known : ∃ status, t.statusOf? change.1 = some status
  written : t'.statusOf? change.1 = some change.2
  others : ∀ memberId, memberId ≠ change.1 → t'.statusOf? memberId = t.statusOf? memberId

theorem statusOf?_congr {t t' : Tables} (h : t'.members = t.members) (memberId : Uuid) :
    t'.statusOf? memberId = t.statusOf? memberId := by
  unfold Tables.statusOf? Tables.member?
  rw [h]

/-- Writing one row changes the status of its member only. -/
theorem statusChanged_put {t t' : Tables} {member : Member} (row : Member) {memberId : Uuid}
    (hmember : t.member? memberId = some member) (hid : row.id = memberId)
    (hrows : t'.members = t.members.map fun m => if m.id = memberId then row else m) :
    StatusChanged t t' (memberId, row.status) := by
  refine ⟨⟨member.status, by rw [Tables.statusOf?, hmember]; rfl⟩, ?_, ?_⟩
  · have hfound : t'.member? memberId = some row := by
      unfold Tables.member?
      rw [hrows, ← hid]
      exact find?_put Member.id rfl (by rw [hid]; exact hmember)
    show (t'.member? memberId).map (·.status) = some row.status
    rw [hfound]
    rfl
  · intro other hne
    have hne' : other ≠ memberId := hne
    have hother : t'.member? other = t.member? other := by
      unfold Tables.member?
      rw [hrows, List.find?_map]
      have hpred : ((fun m : Member => decide (m.id = other)) ∘
          fun m => if m.id = memberId then row else m) = fun m => decide (m.id = other) := by
        funext m
        by_cases hm : m.id = memberId
        · simp [hm, hid, hne'.symm]
        · simp [hm]
      rw [hpred]
      cases hfind : t.members.find? fun m => decide (m.id = other) with
      | none => rfl
      | some m =>
        have hm : m.id = other := by simpa using List.find?_some hfind
        rw [Option.map_some, if_neg (by rw [hm]; exact hne')]
    unfold Tables.statusOf?
    rw [hother]

theorem executeChangeStatus_ok {today : Date} {payload : ChangeStatusPayload} {t t' : Tables}
    {u : Unit} (h : executeChangeStatus today payload t = .ok u t') :
    ∃ memberId text status, payload.memberId = some memberId ∧ payload.newStatus = some text ∧
      memberStatus? text = some status ∧ StatusChanged t t' (memberId, status) := by
  simp only [executeChangeStatus, orRaise_bind_eq_ok, get_bind_eq_ok] at h
  obtain ⟨memberId, hid, text, htext, member, hmember, h⟩ := h
  have hmemberId : member.id = memberId := by simpa using List.find?_some hmember
  cases hstatus : memberStatus? text with
  | none =>
    rw [hstatus] at h
    cases h
  | some status =>
    refine ⟨memberId, text, status, hid, htext, hstatus, ?_⟩
    rw [hstatus] at h
    simp only [modify_bind_eq_ok, Session.when] at h
    -- the event of an activation is written beside the members
    split at h
    · obtain rfl := publish_eq_ok.mp h
      exact statusChanged_put { member with status, joinedAt := _ } hmember hmemberId rfl
    · obtain ⟨-, rfl⟩ := pure_eq_ok.mp h
      exact statusChanged_put { member with status, joinedAt := _ } hmember hmemberId rfl

/-- The change follows the graph exactly when it would still be accepted. -/
theorem StatusChanged.followsGraph_iff {t t' : Tables} {change : Uuid × MemberStatus}
    (h : StatusChanged t t' change) : FollowsGraph t t' ↔ t.Admits change := by
  constructor
  · intro hgraph status hstatus
    obtain ⟨status', hafter, hedge⟩ := hgraph change.1 status hstatus
    have hsame : change.2 = status' := Option.some.inj (h.written.symm.trans hafter)
    by_cases heq : change.2 = status
    · exact .inl heq
    · rw [hsame] at heq ⊢
      exact .inr (hedge heq)
  · intro hadmits memberId status hstatus
    by_cases hid : memberId = change.1
    · rw [hid] at hstatus ⊢
      refine ⟨change.2, h.written, ?_⟩
      intro hne
      exact (hadmits status hstatus).resolve_left hne
    · refine ⟨status, ?_, fun hne => absurd rfl hne⟩
      rw [h.others memberId hid, hstatus]

/-! ## One step -/

theorem repaymentFrame_members : RepaymentFrame (Keeps Tables.members) where
  rows _ _ _ _ _ _ _ _ _ := rfl
  debits _ _ _ := rfl
  events _ _ _ _ _ _ := rfl

/-- Only the executor of status changes writes members. -/
theorem writes_members {op : Operation} (hop : ∀ payload, op ≠ .changeStatus payload) :
    op.Writes (Keeps Tables.members) := by
  cases op with
  | changeStatus payload => exact absurd rfl (hop payload)
  | writeOff payload => exact ⟨fun _ _ _ _ _ _ _ => rfl, fun _ _ _ _ _ _ => rfl⟩
  | restructureSchedule payload => exact ⟨fun _ _ _ _ _ _ => rfl, fun _ _ _ _ _ => rfl⟩
  | applyPayrollBatch payload => exact ⟨repaymentFrame_members, fun _ _ _ => rfl⟩
  | withdraw payload => exact ⟨fun _ _ _ _ => rfl, fun _ _ _ => rfl⟩
  | approveApplication payload => exact fun _ _ => rfl
  | redeemShares payload => exact fun _ _ _ _ _ => rfl
  | _ => exact fun _ _ _ _ => rfl

/-- The execution of a request leaves the members alone, or makes the change it is about to make. -/
theorem executorOutcome_statusChanged {env : Surroundings} {db : ApprovalDb Tables Operation}
    {r : ApprovalRequest Operation} {actor : Uuid} {t' : Tables} {status : RequestStatus}
    (hvote : db.MayVote r actor)
    (hquorum : r.requiredApprovals ≤ (db.vote r.id actor .approve).approvalCount r.id)
    (h : ExecutorOutcome (tenantHooks env) r db.data t' status) :
    t'.members = db.data.members ∨
      ∃ change, db.statusChange? r.id actor = some change ∧ StatusChanged db.data t' change := by
  by_cases hop : ∃ payload, r.operation = .changeStatus payload
  · obtain ⟨payload, hop⟩ := hop
    rcases h with ⟨hown, -⟩ | ⟨-, t₁, hleft, hnotify⟩
    · simp only [tenantHooks, hop, Operation.ownCommit] at hown
      cases hown
    · obtain rfl := notifyDecided_ok hnotify
      simp only [ExecutorLeft, tenantHooks, hop, Operation.execute] at hleft
      rcases hleft with ⟨hok, -⟩ | ⟨e, hraised, -⟩
      · obtain ⟨memberId, text, newStatus, hid, htext, hstatus, hchanged⟩ :=
          executeChangeStatus_ok hok
        refine .inr ⟨(memberId, newStatus), ?_, hchanged⟩
        simp only [ApprovalDb.statusChange?, hvote.found, hop]
        rw [if_pos ⟨hvote, hquorum⟩, hid, htext]
        show (memberStatus? text).map (memberId, ·) = _
        rw [hstatus]
        rfl
      · rw [raisesClean_executeChangeStatus env.today payload _ _ _ hraised]
        exact .inl rfl
  · refine .inl (executorOutcome_writes (writes_members ?_) h)
    intro payload heq
    exact hop ⟨payload, heq⟩

theorem submitStatusChange_data {env : Surroundings} {s : StatusChangeIn}
    {db db' : ApprovalDb Tables Operation} {id : Uuid}
    (h : submitStatusChange env s db = .ok id db') : db'.data = db.data := by
  simp only [submitStatusChange, get_bind_eq_ok, orRaise_bind_eq_ok, require_bind_eq_ok] at h
  obtain ⟨member, -, -, hsubmit⟩ := h
  exact submit_data hsubmit

/-- A step changes no status, or makes exactly the change that its approval is about to make. -/
theorem step_statusChanged (db : ApprovalDb Tables Operation) (env : Surroundings) {op : StatusOp}
    (hop : StatusOp.Elsewhere db (env, op)) :
    (∀ memberId status, db.data.statusOf? memberId = some status →
      (StatusOp.step db (env, op)).data.statusOf? memberId = some status) ∨
    ∃ requestId actor change, op = .approval (.approve requestId actor) ∧
      db.statusChange? requestId actor = some change ∧
      StatusChanged db.data (StatusOp.step db (env, op)).data change := by
  have hkept : ∀ {t : Tables}, t.members = db.data.members →
      ∀ memberId status, db.data.statusOf? memberId = some status →
        t.statusOf? memberId = some status := by
    intro t hmembers memberId status hstatus
    rw [statusOf?_congr hmembers, hstatus]
  cases op with
  | submitStatusChange s =>
    have hdata : (commit (submitStatusChange env s) db).data = db.data :=
      commit_data fun _ _ => submitStatusChange_data
    exact .inl (hkept (congrArg Tables.members hdata))
  | approval op =>
    by_cases helse : ∃ data, op = .elsewhere data
    · obtain ⟨data, rfl⟩ := helse
      exact .inl hop
    · rcases ApprovalOp.step_data env db fun data heq => helse ⟨data, heq⟩
        with hsame | ⟨r, actor, data, status, rfl, hvote, hquorum, houtcome, heq⟩
      · exact .inl (hkept (congrArg Tables.members hsame))
      · have hdata : (StatusOp.step db (env, .approval (.approve r.id actor))).data = data := by
          show (ApprovalOp.step (tenantHooks env) db (.approve r.id actor)).data = data
          rw [heq]
        rw [hdata]
        rcases executorOutcome_statusChanged hvote hquorum houtcome with
          hmembers | ⟨change, hchange, hchanged⟩
        · exact .inl (hkept hmembers)
        · exact .inr ⟨r.id, actor, change, rfl, hchange, hchanged⟩

/-- A step that keeps every status follows the graph. -/
theorem followsGraph_of_kept {t t' : Tables}
    (h : ∀ memberId status, t.statusOf? memberId = some status →
      t'.statusOf? memberId = some status) : FollowsGraph t t' := by
  intro memberId status hstatus
  exact ⟨status, h memberId status hstatus, fun hne => absurd rfl hne⟩

/-- Where what is executed is still valid, a step follows the graph. -/
theorem step_followsGraph {db : ApprovalDb Tables Operation} {env : Surroundings} {op : StatusOp}
    (helse : StatusOp.Elsewhere db (env, op)) (hvalid : StatusOp.StillValid db (env, op)) :
    FollowsGraph db.data (StatusOp.step db (env, op)).data := by
  rcases step_statusChanged db env helse with hkept | ⟨requestId, actor, change, rfl, hchange, hchanged⟩
  · exact followsGraph_of_kept hkept
  · exact hchanged.followsGraph_iff.mpr (hvalid change hchange)

/-- A step that follows the graph leaves a member who has left where he is. -/
theorem FollowsGraph.exited {t t' : Tables} (h : FollowsGraph t t') {memberId : Uuid}
    (hexited : t.statusOf? memberId = some .exited) : t'.statusOf? memberId = some .exited := by
  obtain ⟨status', hafter, hedge⟩ := h memberId .exited hexited
  by_cases heq : status' = .exited
  · rw [hafter, heq]
  · exact absurd (hedge heq) List.not_mem_nil

/-! ## Runs -/

/-- In every run in which a change of status is still valid whenever one is executed, every
committed change is an edge of `_VALID_TRANSITIONS`, and a member who has left stays so. A step
that changes a status follows the graph only where the change is still valid. -/
theorem status_follows_graph (db : ApprovalDb Tables Operation) :
    (∀ ops : List (Surroundings × StatusOp),
      Along StatusOp.step StatusOp.Elsewhere db ops →
      Along StatusOp.step StatusOp.StillValid db ops →
      (∀ front op, front ++ [op] <+: ops →
        FollowsGraph (run StatusOp.step db front).data
          (run StatusOp.step db (front ++ [op])).data) ∧
      ∀ memberId front later, front ++ later <+: ops →
        (run StatusOp.step db front).data.statusOf? memberId = some .exited →
        (run StatusOp.step db (front ++ later)).data.statusOf? memberId = some .exited) ∧
    ∀ (env : Surroundings) (op : StatusOp) (memberId : Uuid),
      StatusOp.Elsewhere db (env, op) →
      db.data.statusOf? memberId ≠ none →
      (StatusOp.step db (env, op)).data.statusOf? memberId ≠ db.data.statusOf? memberId →
      (FollowsGraph db.data (StatusOp.step db (env, op)).data ↔
        StatusOp.StillValid db (env, op)) := by
  constructor
  · intro ops helse hvalid
    have hboth := along_and.mpr ⟨helse, hvalid⟩
    constructor
    · rintro front ⟨env, op⟩ ⟨rest, rfl⟩
      have hhere := (along_append.mp (along_append.mp hboth).1).2.1
      rw [run_append]
      exact step_followsGraph hhere.1 hhere.2
    · rintro memberId front later ⟨rest, rfl⟩ hexited
      have hlater := (along_append.mp (along_append.mp hboth).1).2
      rw [run_append]
      have hstep : ∀ s op, s.data.statusOf? memberId = some MemberStatus.exited →
          (StatusOp.Elsewhere s op ∧ StatusOp.StillValid s op) →
          (StatusOp.step s op).data.statusOf? memberId = some MemberStatus.exited := by
        rintro s ⟨env, op⟩ hs ⟨helse, hvalid⟩
        exact (step_followsGraph helse hvalid).exited hs
      exact run_invariant hstep hexited hlater
  · intro env op memberId helse hknown hchange
    rcases step_statusChanged db env helse with
      hkept | ⟨requestId, actor, change, rfl, hc, hchanged⟩
    · obtain ⟨status, hstatus⟩ := Option.ne_none_iff_exists'.mp hknown
      exact absurd ((hkept memberId status hstatus).trans hstatus.symm) hchange
    · rw [hchanged.followsGraph_iff]
      unfold StatusOp.StillValid
      simp [hc]

/-- A tenant with one active member. -/
def memberTenant : ApprovalDb Tables Operation :=
  ⟨{ Tables.empty with nextId := 10, members := [⟨9, .active, none⟩] }, 0, [], [], []⟩

/-- User 7 submits a suspension and an exit of the active member. -/
def suspensionAndExit : List (Surroundings × StatusOp) :=
  [.submitStatusChange ⟨9, "suspended", 7⟩, .submitStatusChange ⟨9, "exited", 7⟩].map
    (sampleSurroundings, ·)

/-- The approval of a request by user 8. -/
def statusApproved (requestId : Uuid) : Surroundings × StatusOp :=
  (sampleSurroundings, .approval (.approve requestId 8))

/-- First the suspension, then the exit: both are edges. -/
theorem status_follows_graph_inOrder :
    (run StatusOp.step memberTenant
      (suspensionAndExit ++ [statusApproved 0, statusApproved 1])).data.statusOf? 9
        = some .exited ∧
    FollowsGraph (run StatusOp.step memberTenant (suspensionAndExit ++ [statusApproved 0])).data
      (run StatusOp.step memberTenant
        (suspensionAndExit ++ [statusApproved 0] ++ [statusApproved 1])).data := by
  refine ⟨by decide +kernel, ?_⟩
  exact ((status_follows_graph memberTenant).1
    (suspensionAndExit ++ [statusApproved 0] ++ [statusApproved 1])
    ⟨trivial, trivial, trivial, trivial, trivial⟩ (by decide +kernel)).1 _ _ (List.prefix_refl _)

/-- The other way round the member leaves and is suspended afterwards. -/
theorem status_leaves_graph :
    (run StatusOp.step memberTenant
      (suspensionAndExit ++ [statusApproved 1])).data.statusOf? 9 = some .exited ∧
    (run StatusOp.step memberTenant
      (suspensionAndExit ++ [statusApproved 1] ++ [statusApproved 0])).data.statusOf? 9
        = some .suspended ∧
    ¬ FollowsGraph (run StatusOp.step memberTenant (suspensionAndExit ++ [statusApproved 1])).data
      (run StatusOp.step memberTenant
        (suspensionAndExit ++ [statusApproved 1] ++ [statusApproved 0])).data := by
  have hleft : (run StatusOp.step memberTenant
      (suspensionAndExit ++ [statusApproved 1])).data.statusOf? 9 = some .exited := by
    decide +kernel
  have hback : (run StatusOp.step memberTenant
      (suspensionAndExit ++ [statusApproved 1] ++ [statusApproved 0])).data.statusOf? 9
        = some .suspended := by
    decide +kernel
  refine ⟨hleft, hback, ?_⟩
  intro hgraph
  have hstays := hgraph.exited hleft
  rw [hback] at hstays
  cases hstays

end SaccoPlatform
