import SaccoPlatform.MakerChecker.Executors
import SaccoPlatform.MakerChecker.Footprints

/-!
# Loan applications and their approval requests

`LoanApplicationService` (`app/modules/credit/services/application.py`) and its endpoints. An
application is submitted together with a `credit.approve_application` request and from then on
the two statuses are moved side by side: a withdrawal cancels the request, a rejection rejects
it, and the executor of the request approves the application. The approval inbox
(`app/modules/maker_checker/api.py`) moves the request alone: after a rejection or a
cancellation there the application stays `submitted`. And an approval whose notice to the
member is refused leaves the application approved and the request failed.
-/

namespace SaccoPlatform

open Lib Session

/-! ## The service -/

/-- The arguments of `submit`. -/
structure ApplicationIn where
  loanProductId : Uuid
  memberId : Uuid
  requestedAmount : ℚ
  requestedTermPeriods : ℤ
  disbursementDestination : Destination
  disbursementAccountId : Option Uuid
  submittedBy : Uuid
  idempotencyKey : String
deriving DecidableEq, Repr

def Destination.text : Destination → String
  | memberSavings => "member_savings"
  | cash => "cash"
  | internalGl => "internal_gl"

/-- The checks of `submit` against the product. -/
def checkProduct (s : ApplicationIn) (product : LoanProduct) : Call Unit := do
  require (product.isActive = true) (.valueError s!"LoanProduct '{s.loanProductId}' is not active")
  require (product.minAmount.val ≤ s.requestedAmount)
    (.valueError (s!"requested_amount {s.requestedAmount} is below product " ++
      s!"min_amount {product.minAmount.val}"))
  require (s.requestedAmount ≤ product.maxAmount.val)
    (.valueError (s!"requested_amount {s.requestedAmount} exceeds product " ++
      s!"max_amount {product.maxAmount.val}"))
  require (s.requestedTermPeriods ≤ product.maxTermPeriods)
    (.valueError (s!"requested_term_periods {s.requestedTermPeriods} exceeds product " ++
      s!"max_term_periods {product.maxTermPeriods}"))
  let allowed := product.disbursementDestinations.map Destination.text
  require (s.disbursementDestination ∈ product.disbursementDestinations)
    (.valueError (s!"disbursement_destination '{s.disbursementDestination.text}' is not allowed " ++
      s!"by product. Allowed: {allowed}"))

/-- Insert the `loan_applications` row; returns its id. -/
def insertApplication (s : ApplicationIn) : Call Uuid := do
  let amount : Money ← writeMoney s.requestedAmount
  constraint (0 < amount.val) (.integrityError "ck_la_requested_amount")
  let term ← writeInteger s.requestedTermPeriods
  constraint (0 < term) (.integrityError "ck_la_requested_term")
  let id ← freshId
  modify fun t => { t with
    applications := t.applications ++ [⟨id, s.loanProductId, s.memberId, .submitted,
      s.disbursementDestination, s.disbursementAccountId, none, none, none, s.idempotencyKey⟩] }
  pure id

/-- `application.approval_request_id = request.id`. -/
def Tables.linkApplication (t : Tables) (id requestId : Uuid) : Tables :=
  { t with applications := t.applications.map fun a =>
      if a.id = id then { a with approvalRequestId := some requestId } else a }

/-- `LoanApplicationService.submit`; returns the application. -/
def submitApplication (env : Surroundings) (s : ApplicationIn) : ApprovalCall Uuid := do
  let db ← get
  match db.data.applications.find? (·.idempotencyKey = s.idempotencyKey) with
  | some existing => pure existing.id
  | none =>
    let product ← orRaise (db.data.product? s.loanProductId)
      (.valueError s!"LoanProduct '{s.loanProductId}' not found")
    onData (checkProduct s product)
    let id ← onData (insertApplication s)
    let requestId ← submit (tenantHooks env)
      ⟨.ok (.approveApplication ⟨some id, some s.requestedAmount, some s.requestedTermPeriods⟩),
        s.submittedBy, product.requiredApprovals, none⟩
    onData (modify (·.linkApplication id requestId))
    pure id

def getApplication (applicationId : Uuid) : ApprovalCall LoanApplication := do
  let db ← get
  orRaise (db.data.application? applicationId)
    (.valueError s!"LoanApplication '{applicationId}' not found")

/-- `POST /applications/{application_id}/withdraw`: the request is cancelled in the name of its
maker. -/
def withdrawApplication (applicationId userId : Uuid) : ApprovalCall Unit := do
  let application ← getApplication applicationId
  let db ← get
  let actorId := ((application.approvalRequestId.bind db.request?).map (·.requestedBy)).getD userId
  require (application.status ∉ [.approved, .rejected, .withdrawn, .cancelled])
    (.valueError s!"Cannot withdraw application with status '{application.status.text}'")
  match application.approvalRequestId with
  | some requestId => do
    cancel requestId actorId
    onData (modify (·.putApplication { application with status := .withdrawn }))
  | none => onData (modify (·.putApplication { application with status := .withdrawn }))

/-- `LoanApplicationService.reject`. -/
def rejectApplication (env : Surroundings) (applicationId rejectedBy : Uuid) :
    ApprovalCall Unit := do
  let application ← getApplication applicationId
  require (application.status ∈ [.submitted, .underReview])
    (.valueError s!"Cannot reject application with status '{application.status.text}'")
  match application.approvalRequestId with
  | some requestId => do
    reject (tenantHooks env) requestId rejectedBy
    onData (modify (·.putApplication { application with status := .rejected }))
  | none => onData (modify (·.putApplication { application with status := .rejected }))
  onData (publishNotification "loan_application_rejected" ["reason"])

/-- `POST /applications/{application_id}/approve`. -/
def approveApplication (env : Surroundings) (applicationId actorUserId : Uuid)
    (db : ApprovalDb Tables Operation) : ApprovalDb Tables Operation :=
  match (db.data.application? applicationId).bind (·.approvalRequestId) with
  | some requestId => commitApprove (tenantHooks env) requestId actorUserId db
  | none => db

/-! ## Runs -/

/-- Any other transaction on the tenant's tables leaves the applications alone and draws ids. -/
def Tables.changedElsewhere (t data : Tables) : Tables :=
  { data with applications := t.applications, nextId := max t.nextId data.nextId }

/-- One committed transaction. The calls of the inbox go to any request, linked to an application
or not. -/
inductive ApplicationOp where
  | submit (s : ApplicationIn)
  | withdraw (applicationId userId : Uuid)
  | reject (applicationId rejectedBy : Uuid)
  | approve (applicationId actorUserId : Uuid)
  | disburse (d : DisburseIn)
  | inbox (op : ApprovalOp Tables Operation)

def ApplicationOp.step (db : ApprovalDb Tables Operation) :
    Surroundings × ApplicationOp → ApprovalDb Tables Operation
  | (env, submit s) => commit (submitApplication env s) db
  | (_, withdraw applicationId userId) => commit (withdrawApplication applicationId userId) db
  | (env, reject applicationId rejectedBy) => commit (rejectApplication env applicationId rejectedBy) db
  | (env, approve applicationId actor) => approveApplication env applicationId actor db
  | (env, disburse d) => commit (onData (SaccoPlatform.disburse env.ar env.today d)) db
  | (_, inbox (.elsewhere data)) => { db with data := db.data.changedElsewhere data }
  | (env, inbox op) => op.step (tenantHooks env) db

/-- The status of an application says the same as the status of its request. -/
def StatusesAgree (application : ApplicationStatus) (request : RequestStatus) : Prop :=
  (request = .pending ↔ application = .submitted) ∧
  (request = .rejected ↔ application = .rejected) ∧
  (request = .cancelled ↔ application = .withdrawn) ∧
  (request = .executed ↔ application = .approved ∨ application = .disbursed)

instance (a : ApplicationStatus) (r : RequestStatus) : Decidable (StatusesAgree a r) :=
  inferInstanceAs (Decidable (_ ∧ _ ∧ _ ∧ _))

/-- The application is linked to a request that agrees with it. -/
def ApprovalDb.InAgreement (db : ApprovalDb Tables Operation) (a : LoanApplication) : Prop :=
  ∃ r, a.approvalRequestId = some r.id ∧ db.request? r.id = some r ∧
    StatusesAgree a.status r.status

/-- The maker may still cancel the request. -/
def ApprovalDb.MayCancel (db : ApprovalDb Tables Operation) (r : ApprovalRequest Operation)
    (maker : Uuid) : Prop :=
  r.status = .pending ∧ r.requestedBy = maker ∧ db.actionsOn r.id = []

instance (db : ApprovalDb Tables Operation) (r : ApprovalRequest Operation) (maker : Uuid) :
    Decidable (db.MayCancel r maker) := inferInstanceAs (Decidable (_ ∧ _ ∧ _))

/-- The request is linked to an application. -/
def ApprovalDb.OfApplication (db : ApprovalDb Tables Operation) (requestId : Uuid) : Prop :=
  ∃ a ∈ db.data.applications, a.approvalRequestId = some requestId

instance (db : ApprovalDb Tables Operation) (requestId : Uuid) :
    Decidable (db.OfApplication requestId) := inferInstanceAs (Decidable (∃ a ∈ _, _))

/-- No active template refuses the notice of an approval. -/
def Tables.NoticeAccepted (t : Tables) : Prop :=
  t.disallowedKey? "loan_application_approved" ["amount"] = none

instance (t : Tables) : Decidable t.NoticeAccepted := inferInstanceAs (Decidable (_ = _))

/-- The two statuses are moved side by side: the request of an application is not rejected or
cancelled in the inbox, none is submitted there, and the notice of its approval is accepted. -/
def ApplicationOp.SideBySide (db : ApprovalDb Tables Operation) :
    Surroundings × ApplicationOp → Prop
  | (_, inbox (.reject requestId actor)) =>
    db.OfApplication requestId → ∀ r ∈ db.request? requestId, ¬ db.MayVote r actor
  | (_, inbox (.cancel requestId maker)) =>
    db.OfApplication requestId → ∀ r ∈ db.request? requestId, ¬ db.MayCancel r maker
  | (_, inbox (.submit s)) =>
    match s.operation with
    | .ok (.approveApplication _) => False
    | _ => True
  | (_, inbox (.approve requestId _)) => db.OfApplication requestId → db.data.NoticeAccepted
  | (_, approve _ _) => db.data.NoticeAccepted
  | _ => True

instance (db : ApprovalDb Tables Operation) (op : Surroundings × ApplicationOp) :
    Decidable (ApplicationOp.SideBySide db op) := by
  unfold ApplicationOp.SideBySide
  split
  · infer_instance
  · infer_instance
  · split <;> infer_instance
  · infer_instance
  · infer_instance
  · infer_instance

/-! ## What the calls do -/

theorem checkProduct_ok {s : ApplicationIn} {product : LoanProduct} {t t' : Tables} {u : Unit}
    (h : checkProduct s product t = .ok u t') : t' = t := by
  simp only [checkProduct, require_bind_eq_ok, require_eq_ok] at h
  exact h.2.2.2.2.2

/-- The row of a new application. -/
def ApplicationIn.row (s : ApplicationIn) (id : Uuid) (requestId : Option Uuid) : LoanApplication :=
  ⟨id, s.loanProductId, s.memberId, .submitted, s.disbursementDestination,
    s.disbursementAccountId, none, none, requestId, s.idempotencyKey⟩

theorem insertApplication_ok {s : ApplicationIn} {t t' : Tables} {id : Uuid}
    (h : insertApplication s t = .ok id t') :
    id = t.nextId ∧ t' = { t with
      nextId := t.nextId + 1, applications := t.applications ++ [s.row t.nextId none] } := by
  simp only [insertApplication, writeMoney_bind_eq_ok, constraint_bind_eq_ok] at h
  obtain ⟨amount, -, -, h⟩ := h
  obtain ⟨term, t₁, hterm, h⟩ := bind_eq_ok.mp h
  simp only [writeInteger, constraint_bind_eq_ok, pure_eq_ok] at hterm
  obtain ⟨-, -, rfl⟩ := hterm
  simp only [constraint_bind_eq_ok, freshId_bind_eq_ok, modify_bind_eq_ok, pure_eq_ok] at h
  obtain ⟨-, rfl, rfl⟩ := h
  exact ⟨rfl, rfl⟩

/-- A submission finds its application again, or adds one with its request. -/
theorem submitApplication_ok {env : Surroundings} {s : ApplicationIn}
    {db db' : ApprovalDb Tables Operation} {id : Uuid}
    (h : submitApplication env s db = .ok id db') :
    db' = db ∨ ∃ required, db' = { db with
      data := { db.data with
        nextId := db.data.nextId + 1
        applications := db.data.applications ++ [s.row db.data.nextId none] }.linkApplication
          db.data.nextId db.nextRequestId
      nextRequestId := db.nextRequestId + 1
      requests := db.requests ++ [⟨db.nextRequestId, .approveApplication
        ⟨some db.data.nextId, some s.requestedAmount, some s.requestedTermPeriods⟩,
        s.submittedBy, required, .pending, none⟩] } := by
  simp only [submitApplication, get_bind_eq_ok] at h
  cases hfind : db.data.applications.find? (·.idempotencyKey = s.idempotencyKey) with
  | some existing =>
    rw [hfind] at h
    exact .inl (pure_eq_ok.mp h).2.symm
  | none =>
    simp only [hfind, orRaise_bind_eq_ok, onData_bind_eq_ok] at h
    obtain ⟨product, -, _, data, hcheck, appId, data', hinsert, h⟩ := h
    obtain rfl := checkProduct_ok hcheck
    obtain ⟨rfl, rfl⟩ := insertApplication_ok hinsert
    obtain ⟨requestId, db₁, hsubmit, h⟩ := bind_eq_ok.mp h
    obtain ⟨operation, data, hoperation, rfl, hnotify, rfl⟩ := submit_ok hsubmit
    cases hoperation
    obtain rfl := notifyPending_ok hnotify
    simp only [onData_bind_eq_ok, modify_eq_ok, pure_eq_ok] at h
    obtain ⟨_, data, rfl, -, rfl⟩ := h
    exact .inr ⟨product.requiredApprovals, rfl⟩

theorem cancel_ok {requestId maker : Uuid} {db db' : ApprovalDb Tables Operation} {u : Unit}
    (h : cancel requestId maker db = .ok u db') :
    ∃ r, db.request? requestId = some r ∧ db.MayCancel r maker ∧
      db' = db.setStatus r.id .cancelled := by
  obtain ⟨r, hr, hpending, hmaker, hactions, rfl⟩ := cancelRequest_ok h
  exact ⟨r, hr, ⟨hpending, hmaker, hactions⟩, rfl⟩

theorem reject_ok {env : Surroundings} {requestId actor : Uuid}
    {db db' : ApprovalDb Tables Operation} {u : Unit}
    (h : reject (tenantHooks env) requestId actor db = .ok u db') :
    ∃ r, r.id = requestId ∧ db.MayVote r actor ∧
      db' = (db.vote r.id actor .reject).setStatus r.id .rejected := by
  obtain ⟨r, data, hid, hvote, hnotify, rfl⟩ := rejectRequest_ok h
  obtain rfl := notifyDecided_ok hnotify
  exact ⟨r, hid, hvote, rfl⟩

/-- A withdrawal cancels the pending request of the application. -/
theorem withdrawApplication_ok {applicationId userId requestId : Uuid} {a : LoanApplication}
    {db db' : ApprovalDb Tables Operation} {u : Unit}
    (ha : db.data.application? applicationId = some a)
    (hlink : a.approvalRequestId = some requestId)
    (h : withdrawApplication applicationId userId db = .ok u db') :
    ∃ r, r.id = requestId ∧ r ∈ db.requests ∧ r.status = .pending ∧
      db' = { db.setStatus r.id .cancelled with
        data := db.data.putApplication { a with status := .withdrawn } } := by
  simp only [withdrawApplication, getApplication] at h
  obtain ⟨a', db₁, hget, h⟩ := bind_eq_ok.mp h
  rw [get_bind_eq_ok, ha, orRaise_eq_ok] at hget
  obtain ⟨heq, rfl⟩ := hget
  cases heq
  simp only [get_bind_eq_ok, require_bind_eq_ok, hlink] at h
  obtain ⟨-, h⟩ := h
  obtain ⟨_, db₂, hcancel, h⟩ := bind_eq_ok.mp h
  obtain ⟨r, hr, hcancels, rfl⟩ := cancel_ok hcancel
  obtain ⟨hmem, hid⟩ := request?_eq_some hr
  obtain ⟨data, hput, rfl⟩ := onData_eq_ok.mp h
  obtain rfl := modify_eq_ok.mp hput
  refine ⟨r, hid, hmem, hcancels.1, ?_⟩
  simp only [hlink]
  rfl

/-- A rejection rejects the pending request of the application. -/
theorem rejectApplication_ok {env : Surroundings} {applicationId rejectedBy requestId : Uuid}
    {a : LoanApplication} {db db' : ApprovalDb Tables Operation} {u : Unit}
    (ha : db.data.application? applicationId = some a)
    (hlink : a.approvalRequestId = some requestId)
    (h : rejectApplication env applicationId rejectedBy db = .ok u db') :
    ∃ r, r.id = requestId ∧ db.MayVote r rejectedBy ∧
      db' = { (db.vote r.id rejectedBy .reject).setStatus r.id .rejected with
        data := db.data.putApplication { a with status := .rejected } } := by
  simp only [rejectApplication, getApplication] at h
  obtain ⟨a', db₁, hget, h⟩ := bind_eq_ok.mp h
  rw [get_bind_eq_ok, ha, orRaise_eq_ok] at hget
  obtain ⟨heq, rfl⟩ := hget
  cases heq
  simp only [require_bind_eq_ok, hlink] at h
  obtain ⟨-, h⟩ := h
  obtain ⟨_, db₂, hreject, h⟩ := bind_eq_ok.mp h
  obtain ⟨r, hid, hvote, rfl⟩ := reject_ok hreject
  obtain ⟨_, data, hput, h⟩ := onData_bind_eq_ok.mp h
  obtain rfl := modify_eq_ok.mp hput
  obtain ⟨data, hnotice, rfl⟩ := onData_eq_ok.mp h
  obtain ⟨rfl, -⟩ := publishNotification_ok hnotice
  refine ⟨r, hid, hvote, ?_⟩
  simp only [hlink]
  rfl

/-- The applications are as they were; ids may have been drawn. -/
def ApplicationsKept (t t' : Tables) : Prop :=
  t.nextId ≤ t'.nextId ∧ t'.applications = t.applications

instance : IsPreorder Tables ApplicationsKept where
  refl _ := ⟨le_rfl, rfl⟩
  trans _ _ _ h h' := ⟨h.1.trans h'.1, h'.2.trans h.2⟩

/-- Everything that opens a loan but its last step leaves the applications alone. -/
theorem openLoan_applications {ar : LienArithmetic} {today : Date} {d : DisburseIn} {loan : Loan}
    {account : Uuid} {t t' : Tables} {u : Unit} (h : openLoan ar today d loan account t = .ok u t') :
    t.nextId ≤ t'.nextId ∧ t'.applications = t.applications.map fun a =>
      if a.id = loan.loanApplicationId then { a with status := .disbursed } else a := by
  have hpost : ∀ reference description actor key lines, Moves ApplicationsKept
      (postJournalEntry reference description actor key lines) :=
    fun _ _ _ _ _ => postJournalEntry_writes (fun _ _ _ hn => ⟨hn, rfl⟩) _ _ _ _ _
  unfold openLoan at h
  obtain ⟨_, t₁, hinsert, h⟩ := bind_eq_ok.mp h
  obtain ⟨-, -, rfl⟩ := insertLoan_ok hinsert
  obtain ⟨schedule, -, h⟩ := ofExcept_bind_eq_ok.mp h
  obtain ⟨_, t₂, hdisb, h⟩ := bind_eq_ok.mp h
  have h₂ := (hpost _ _ _ _ _).ok hdisb
  obtain ⟨last, -, h⟩ := orRaise_bind_eq_ok.mp h
  obtain ⟨_, t₃, hrows, h⟩ := bind_eq_ok.mp h
  have h₃ : ApplicationsKept t₂ t₃ := by
    refine (moves_forEach ?_).ok hrows
    intro row _
    apply moves_bind _ fun _ => moves_pure _
    apply (insertInstallment_moves _ _ _).mono
    rintro t t' ⟨n, rows, hn, rfl⟩
    exact ⟨hn, rfl⟩
  obtain ⟨_, t₄, hbook, h⟩ := bind_eq_ok.mp h
  have h₄ : ApplicationsKept t₃ t₄ :=
    (moves_when (moves_bind (hpost _ _ _ _ _) fun _ => moves_pure _)).ok hbook
  rw [modify_bind_eq_ok] at h
  obtain ⟨_, t₅, hplace, h⟩ := bind_eq_ok.mp h
  obtain ⟨n, gs, ls, hn, rfl⟩ := (placeLiens_moves ar _ _ _).ok hplace
  obtain rfl := modify_eq_ok.mp h
  have hkept := trans_of ApplicationsKept h₂ (trans_of ApplicationsKept h₃ h₄)
  refine ⟨hkept.1.trans hn, ?_⟩
  show t₄.applications.map _ = _
  rw [hkept.2]

/-- A disbursement finds its loan again, or takes an approved application to `disbursed`. -/
theorem disburse_applications {ar : LienArithmetic} {today : Date} {d : DisburseIn}
    {t t' : Tables} {id : Uuid} (h : disburse ar today d t = .ok id t') :
    t.nextId ≤ t'.nextId ∧ (t'.applications = t.applications ∨
      ∃ a ∈ t.applications, a.status = .approved ∧
        t'.applications = t.applications.map fun b =>
          if b.id = a.id then { b with status := .disbursed } else b) := by
  simp only [disburse, get_bind_eq_ok] at h
  cases hfind : t.loanByKey? d.idempotencyKey with
  | some existing =>
    rw [hfind] at h
    obtain ⟨-, rfl⟩ := pure_eq_ok.mp h
    exact ⟨le_rfl, .inl rfl⟩
  | none =>
    simp only [hfind, orRaise_bind_eq_ok, require_bind_eq_ok] at h
    obtain ⟨a, ha, hstatus, product, -, terms, -, h⟩ := h
    obtain ⟨gl, t₀, hgl, hrest⟩ := bind_eq_ok.mp h
    obtain ⟨rfl, -⟩ := resolveAccounts_ok hgl
    simp only [require_bind_eq_ok, orRaise_bind_eq_ok] at hrest
    obtain ⟨-, account, -, h⟩ := hrest
    obtain ⟨reference, t₁, href, h⟩ := bind_eq_ok.mp h
    simp only [nextLoanReference, get_bind_eq_ok, modify_bind_eq_ok, pure_eq_ok] at href
    obtain ⟨-, rfl⟩ := href
    rw [freshId_bind_eq_ok] at h
    obtain ⟨_, t₂, hopen, h⟩ := bind_eq_ok.mp h
    obtain ⟨-, rfl⟩ := pure_eq_ok.mp h
    obtain ⟨hn, happs⟩ := openLoan_applications hopen
    exact ⟨(Nat.le_succ _).trans hn, .inr ⟨a, List.mem_of_find?_eq_some ha, hstatus, happs⟩⟩

/-- The executor finds the application approved, or approves it. -/
theorem executeApproveApplication_ok {id : Uuid} {amount : ℚ} {term : ℤ} {t t' : Tables} {u : Unit}
    (h : executeApproveApplication ⟨some id, some amount, some term⟩ t = .ok u t') :
    ∃ a, t.application? id = some a ∧ ((a.status = .approved ∧ t' = t) ∨
      ∃ row, row.id = a.id ∧ row.approvalRequestId = a.approvalRequestId ∧
        row.status = .approved ∧ t' = t.putApplication row) := by
  simp only [executeApproveApplication, orRaise_bind_eq_ok, get_bind_eq_ok] at h
  obtain ⟨_, hid, _, hamount, _, hterm, a, ha, h⟩ := h
  cases hid
  refine ⟨a, ha, ?_⟩
  split at h
  · rename_i hstatus
    exact .inl ⟨hstatus, (pure_eq_ok.mp h).2.symm⟩
  · rw [writeMoney_bind_eq_ok] at h
    obtain ⟨m, -, h⟩ := h
    obtain ⟨n, t₁, hn, h⟩ := bind_eq_ok.mp h
    simp only [writeInteger, constraint_bind_eq_ok, pure_eq_ok] at hn
    obtain ⟨-, -, rfl⟩ := hn
    rw [modify_bind_eq_ok] at h
    obtain ⟨rfl, -⟩ := publishNotification_ok h
    exact .inr ⟨{ a with
      status := .approved, approvedAmount := some m, approvedTermPeriods := some n },
      rfl, rfl, rfl, rfl⟩

/-- With its application in place, the executor raises for a refused notice only. -/
theorem executeApproveApplication_not_raised {id : Uuid} {amount : ℚ} {term : ℤ} {t t' : Tables}
    {e : Err} {a : LoanApplication} (ha : t.application? id = some a)
    (hnotice : t.disallowedKey? "loan_application_approved" ["amount"] = none) :
    executeApproveApplication ⟨some id, some amount, some term⟩ t ≠ .raised e t' := by
  intro h
  simp only [executeApproveApplication, orRaise_bind_eq_raised, get_bind_eq_raised] at h
  rcases h with ⟨hnone, -⟩ | ⟨_, hid, ⟨hnone, -⟩ | ⟨_, -, ⟨hnone, -⟩ | ⟨_, -, ⟨hnone, -⟩ | ⟨_, -, h⟩⟩⟩⟩
  · cases hnone
  · cases hnone
  · cases hnone
  · cases hid
    cases hnone.symm.trans ha
  · split at h
    · exact neverRaises_pure _ _ _ _ h
    · rw [writeMoney_bind_eq_raised] at h
      obtain ⟨m, -, h⟩ := h
      rw [writeInteger_bind_eq_raised, modify_bind_eq_raised] at h
      -- writing the application leaves the templates alone
      simp only [publishNotification, get_bind_eq_raised] at h
      have hsame : ∀ row, (t.putApplication row).disallowedKey? "loan_application_approved"
          ["amount"] = none := fun _ => hnotice
      rw [hsame] at h
      exact neverRaises_pure _ _ _ _ h.2

/-! ## Application and request move together -/

/-- The pairs of statuses that moving both together can produce. -/
inductive Matched : ApplicationStatus → RequestStatus → Prop
  | waiting : Matched .submitted .pending
  | rejected : Matched .rejected .rejected
  | withdrawn : Matched .withdrawn .cancelled
  | approved : Matched .approved .executed
  | disbursed : Matched .disbursed .executed

theorem Matched.agree {a : ApplicationStatus} {r : RequestStatus} (h : Matched a r) :
    StatusesAgree a r := by
  cases h <;> decide

theorem Matched.submitted {a : ApplicationStatus} {r : RequestStatus} (h : Matched a r)
    (hr : r = .pending) : a = .submitted := h.agree.1.mp hr

/-- The request was submitted for the application. -/
structure LinkedTo (db : ApprovalDb Tables Operation) (a : LoanApplication)
    (r : ApprovalRequest Operation) : Prop where
  link : a.approvalRequestId = some r.id
  found : r ∈ db.requests
  operation : ∃ amount term, r.operation = .approveApplication ⟨some a.id, some amount, some term⟩
  noDeadline : r.expiresAt = none
  statuses : Matched a.status r.status

def ApprovalRequest.ToApprove (r : ApprovalRequest Operation) : Prop :=
  ∃ payload, r.operation = .approveApplication payload

/-- Every application has its request, and every request to approve an application has its
application. -/
structure InStep (db : ApprovalDb Tables Operation) : Prop where
  sound : db.Sound
  ids : (db.data.applications.map (·.id)).Nodup
  drawn : ∀ a ∈ db.data.applications, a.id < db.data.nextId
  linked : ∀ a ∈ db.data.applications, ∃ r, LinkedTo db a r
  owned : ∀ r ∈ db.requests, r.ToApprove → db.OfApplication r.id

section

variable {db db' : ApprovalDb Tables Operation}

theorem LinkedTo.toApprove {a : LoanApplication} {r : ApprovalRequest Operation}
    (h : LinkedTo db a r) : r.ToApprove := by
  obtain ⟨amount, term, hop⟩ := h.operation
  exact ⟨_, hop⟩

/-- The application under an id. -/
theorem InStep.application?_eq (h : InStep db) {a : LoanApplication}
    (ha : a ∈ db.data.applications) : db.data.application? a.id = some a := by
  cases hfind : db.data.application? a.id with
  | none =>
    have hnone := List.find?_eq_none.mp hfind a ha
    simp at hnone
  | some a' =>
    have hid : a'.id = a.id := by simpa using List.find?_some hfind
    rw [List.inj_on_of_nodup_map h.ids (List.mem_of_find?_eq_some hfind) ha hid]

/-- The application that waits for a request. -/
theorem InStep.owner (h : InStep db) {r : ApprovalRequest Operation} (hr : r ∈ db.requests)
    (happ : db.OfApplication r.id) : ∃ a ∈ db.data.applications, LinkedTo db a r := by
  obtain ⟨a, ha, hlink⟩ := happ
  obtain ⟨r', hr'⟩ := h.linked a ha
  have hid : r'.id = r.id := Option.some.inj (hr'.link.symm.trans hlink)
  rw [h.sound.ids.eq hr'.found hr hid] at hr'
  exact ⟨a, ha, hr'⟩

/-- A change that keeps the applications and their requests. -/
theorem InStep.elsewhere (h : InStep db) (hsound : db'.Sound)
    (hdata : ApplicationsKept db.data db'.data)
    (hkept : ∀ r ∈ db.requests, r.ToApprove → r ∈ db'.requests)
    (hnone : ∀ r ∈ db'.requests, r.ToApprove → r ∈ db.requests) : InStep db' where
  sound := hsound
  ids := by
    rw [hdata.2]
    exact h.ids
  drawn := by
    rw [hdata.2]
    intro a ha
    exact (h.drawn a ha).trans_le hdata.1
  linked := by
    rw [hdata.2]
    intro a ha
    obtain ⟨r, hr⟩ := h.linked a ha
    exact ⟨r, hr.link, hkept r hr.found hr.toApprove, hr.operation, hr.noDeadline, hr.statuses⟩
  owned := by
    intro r hr happ
    unfold ApprovalDb.OfApplication
    rw [hdata.2]
    exact h.owned r (hnone r hr happ) happ

/-- A change of the statuses of other requests. -/
theorem InStep.others (h : InStep db) (hsound : db'.Sound)
    (hdata : ApplicationsKept db.data db'.data) {p : ApprovalRequest Operation → Prop}
    [DecidablePred p] {status : RequestStatus}
    (hrequests : db'.requests = (db.setStatuses p status).requests)
    (hother : ∀ r ∈ db.requests, p r → ¬ r.ToApprove) : InStep db' := by
  refine h.elsewhere hsound hdata ?_ ?_
  · intro r hr happ
    rw [hrequests]
    exact mem_setStatuses_of_not hr fun hp => hother r hr hp happ
  · intro r hr happ
    rw [hrequests] at hr
    obtain ⟨r₀, hr₀, ⟨hp, rfl⟩ | ⟨-, rfl⟩⟩ := mem_setStatuses hr
    · exact absurd happ (hother r₀ hr₀ hp)
    · exact hr₀

/-- An application and its request move to matching statuses. -/
theorem InStep.move (h : InStep db) (hsound : db'.Sound) {a : LoanApplication}
    {r : ApprovalRequest Operation} (ha : a ∈ db.data.applications) (hr : LinkedTo db a r)
    {g : LoanApplication → LoanApplication} (hid : (g a).id = a.id)
    (hlink : (g a).approvalRequestId = a.approvalRequestId) {status : RequestStatus}
    (hstatus : Matched (g a).status status) (hnext : db.data.nextId ≤ db'.data.nextId)
    (happs : db'.data.applications = db.data.applications.map fun b => if b.id = a.id then g a else b)
    (hrequests : db'.requests = (db.setStatus r.id status).requests) : InStep db' := by
  have hids : db'.data.applications.map (·.id) = db.data.applications.map (·.id) := by
    rw [happs, List.map_map]
    apply List.map_congr_left
    intro b _
    by_cases hb : b.id = a.id
    · simp [hb, hid]
    · simp [hb]
  -- the rows afterwards are the moved application and the others
  have hmem : ∀ b ∈ db'.data.applications, b = g a ∨ (b ∈ db.data.applications ∧ b.id ≠ a.id) := by
    rw [happs]
    intro b hb
    obtain ⟨b₀, hb₀, rfl⟩ := List.mem_map.mp hb
    by_cases heq : b₀.id = a.id
    · exact .inl (if_pos heq)
    · rw [if_neg heq]
      exact .inr ⟨hb₀, heq⟩
  have hback : ∀ b ∈ db.data.applications, db'.OfApplication r.id ∧
      (b.id ≠ a.id → b ∈ db'.data.applications) := by
    intro b hb
    unfold ApprovalDb.OfApplication
    rw [happs]
    refine ⟨⟨g a, List.mem_map.mpr ⟨a, ha, if_pos rfl⟩, hlink.trans hr.link⟩, ?_⟩
    intro hne
    exact List.mem_map.mpr ⟨b, hb, if_neg hne⟩
  refine ⟨hsound, ?_, ?_, ?_, ?_⟩
  · rw [hids]
    exact h.ids
  · intro b hb
    rcases hmem b hb with rfl | ⟨hb, -⟩
    · rw [hid]
      exact (h.drawn a ha).trans_le hnext
    · exact (h.drawn b hb).trans_le hnext
  · intro b hb
    rcases hmem b hb with rfl | ⟨hb, hne⟩
    · refine ⟨{ r with status }, hlink.trans hr.link, ?_, ?_, hr.noDeadline, hstatus⟩
      · rw [hrequests]
        exact List.mem_map.mpr ⟨r, hr.found, if_pos rfl⟩
      · rw [hid]
        exact hr.operation
    · -- another application is linked to another request: the payloads differ
      obtain ⟨r', hr'⟩ := h.linked b hb
      refine ⟨r', hr'.link, ?_, hr'.operation, hr'.noDeadline, hr'.statuses⟩
      rw [hrequests]
      refine mem_setStatuses_of_not hr'.found ?_
      intro hsame
      obtain ⟨_, _, hop⟩ := hr.operation
      obtain ⟨_, _, hop'⟩ := hr'.operation
      rw [h.sound.ids.eq hr'.found hr.found hsame, hop] at hop'
      injection hop' with hpayload
      injection hpayload with happ
      exact hne (Option.some.inj happ).symm
  · intro r' hr' happ
    rw [hrequests] at hr'
    -- every request to approve an application still has its owner
    obtain ⟨r₀, hr₀, ⟨hp, rfl⟩ | ⟨hp, rfl⟩⟩ := mem_setStatuses hr'
    · rw [show ({ r₀ with status } : ApprovalRequest Operation).id = r.id from hp]
      exact (hback a ha).1
    · obtain ⟨b, hb, hb'⟩ := h.owned r' hr₀ happ
      by_cases hsame : b.id = a.id
      · have heq := List.inj_on_of_nodup_map h.ids hb ha hsame
        rw [heq, hr.link] at hb'
        exact absurd (Option.some.inj hb').symm hp
      · exact ⟨b, (hback b hb).2 hsame, hb'⟩

/-- A new application with its request. -/
theorem InStep.submitted (h : InStep db) (s : ApplicationIn) (required : ℤ) :
    InStep { db with
      data := { db.data with
        nextId := db.data.nextId + 1
        applications := db.data.applications ++ [s.row db.data.nextId none] }.linkApplication
          db.data.nextId db.nextRequestId
      nextRequestId := db.nextRequestId + 1
      requests := db.requests ++ [⟨db.nextRequestId, .approveApplication
        ⟨some db.data.nextId, some s.requestedAmount, some s.requestedTermPeriods⟩,
        s.submittedBy, required, .pending, none⟩] } := by
  have happs : ({ db.data with
      nextId := db.data.nextId + 1
      applications := db.data.applications ++ [s.row db.data.nextId none] }.linkApplication
        db.data.nextId db.nextRequestId).applications
      = db.data.applications ++ [s.row db.data.nextId (some db.nextRequestId)] := by
    have hold : db.data.applications.map (fun a => if a.id = db.data.nextId
        then { a with approvalRequestId := some db.nextRequestId } else a)
        = db.data.applications := by
      conv_rhs => rw [← List.map_id db.data.applications]
      apply List.map_congr_left
      intro a ha
      exact if_neg (h.drawn a ha).ne
    simp only [Tables.linkApplication, List.map_append, hold]
    simp [ApplicationIn.row]
  refine ⟨(h.sound.submitted rfl).data _, ?_, ?_, ?_, ?_⟩
  · rw [happs, List.map_append]
    refine List.Nodup.append h.ids (List.nodup_singleton _) ?_
    intro id hid hid'
    obtain ⟨a, ha, rfl⟩ := List.mem_map.mp hid
    exact (h.drawn a ha).ne (List.mem_singleton.mp hid')
  · rw [happs]
    intro a ha
    rcases List.mem_append.mp ha with ha | ha
    · exact Nat.lt_succ_of_lt (h.drawn a ha)
    · rw [List.mem_singleton.mp ha]
      exact Nat.lt_succ_self _
  · rw [happs]
    intro a ha
    rcases List.mem_append.mp ha with ha | ha
    · obtain ⟨r, hr⟩ := h.linked a ha
      exact ⟨r, hr.link, List.mem_append_left _ hr.found, hr.operation, hr.noDeadline, hr.statuses⟩
    · rw [List.mem_singleton.mp ha]
      exact ⟨_, rfl, List.mem_append_right _ (List.mem_singleton_self _), ⟨_, _, rfl⟩, rfl, .waiting⟩
  · intro r hr happ
    unfold ApprovalDb.OfApplication
    rw [happs]
    rcases List.mem_append.mp hr with hr | hr
    · obtain ⟨a, ha, hlink⟩ := h.owned r hr happ
      exact ⟨a, List.mem_append_left _ ha, hlink⟩
    · rw [List.mem_singleton.mp hr]
      exact ⟨_, List.mem_append_right _ (List.mem_singleton_self _), rfl⟩

/-- Setting the status that a request has changes nothing. -/
theorem setStatus_self (hids : db.DistinctIds) {r : ApprovalRequest Operation}
    (hr : r ∈ db.requests) : (db.setStatus r.id r.status).requests = db.requests := by
  unfold ApprovalDb.setStatus ApprovalDb.setStatuses
  conv_rhs => rw [← List.map_id db.requests]
  apply List.map_congr_left
  intro r' hr'
  by_cases hid : r'.id = r.id
  · rw [if_pos hid, hids.eq hr' hr hid]
    rfl
  · exact if_neg hid

/-! ## One step -/

/-- Only the executor of the approval of an application writes applications. -/
theorem writes_applicationsKept {op : Operation} (hop : ∀ payload, op ≠ .approveApplication payload) :
    op.Writes ApplicationsKept := by
  cases op with
  | approveApplication payload => exact absurd rfl (hop payload)
  | writeOff payload => exact ⟨fun _ _ _ _ _ _ hn => ⟨hn, rfl⟩, fun _ _ _ _ _ hn => ⟨hn, rfl⟩⟩
  | restructureSchedule payload =>
    exact ⟨fun _ _ _ _ _ hn => ⟨hn, rfl⟩, fun _ _ _ _ hn => ⟨hn, rfl⟩⟩
  | applyPayrollBatch payload =>
    exact ⟨⟨fun _ _ _ _ _ _ _ _ hn => ⟨hn, rfl⟩, fun _ _ _ => ⟨le_rfl, rfl⟩,
      fun _ _ _ _ _ hn => ⟨hn, rfl⟩⟩,
      fun _ _ _ => ⟨le_rfl, rfl⟩⟩
  | changeStatus payload => exact ⟨fun _ _ _ hn => ⟨hn, rfl⟩, fun _ _ _ _ hn => ⟨hn, rfl⟩⟩
  | redeemShares payload => exact fun _ _ _ _ hn => ⟨hn, rfl⟩
  | withdraw payload => exact ⟨fun _ _ _ hn => ⟨hn, rfl⟩, fun _ _ _ => ⟨le_rfl, rfl⟩⟩
  | _ => exact fun _ _ _ hn => ⟨hn, rfl⟩

/-- The executor of a request that waits approves its application. -/
theorem InStep.executed (h : InStep db) {env : Surroundings} {r : ApprovalRequest Operation}
    {a : LoanApplication} (ha : a ∈ db.data.applications) (hr : LinkedTo db a r)
    (hpending : r.status = .pending) (hnotice : db.data.NoticeAccepted) {data : Tables}
    {status : RequestStatus} (houtcome : ExecutorOutcome (tenantHooks env) r db.data data status) :
    status = .executed ∧ ∃ row, row.id = a.id ∧ row.approvalRequestId = a.approvalRequestId ∧
      row.status = .approved ∧ data = db.data.putApplication row := by
  obtain ⟨amount, term, hop⟩ := hr.operation
  have hfound := h.application?_eq ha
  rcases houtcome with ⟨hown, -⟩ | ⟨-, data₁, hleft, hnotify⟩
  · simp only [tenantHooks, hop, Operation.ownCommit] at hown
    cases hown
  · obtain rfl := notifyDecided_ok hnotify
    simp only [ExecutorLeft, tenantHooks, hop, Operation.execute] at hleft
    rcases hleft with ⟨hok, hstatus⟩ | ⟨e, hraised, -⟩
    · obtain ⟨a', ha', hcases⟩ := executeApproveApplication_ok hok
      obtain rfl : a = a' := Option.some.inj (hfound.symm.trans ha')
      refine ⟨hstatus, ?_⟩
      rcases hcases with ⟨happroved, -⟩ | hrow
      · -- the application still waits, so it is not approved yet
        rw [hr.statuses.submitted hpending] at happroved
        cases happroved
      · exact hrow
    · exact absurd hraised (executeApproveApplication_not_raised hfound hnotice)

theorem InStep.approve (h : InStep db) (env : Surroundings) (requestId actor : Uuid)
    (hnotice : db.OfApplication requestId → db.data.NoticeAccepted) :
    InStep (commitApprove (tenantHooks env) requestId actor db) := by
  have hsound : (commitApprove (tenantHooks env) requestId actor db).Sound :=
    step_sound (tenantHooks env) h.sound (.approve requestId actor)
  rcases commitApprove_cases (tenantHooks env) requestId actor db with heq | ⟨r, -, -, heq⟩ |
    ⟨r, data, status, rfl, hvote, -, houtcome, heq⟩
  · rw [heq]
    exact h
  · rw [heq] at hsound ⊢
    exact h.elsewhere hsound ⟨le_rfl, rfl⟩ (fun _ hr _ => hr) fun _ hr _ => hr
  · rw [heq] at hsound ⊢
    by_cases happ : r.ToApprove
    · have hof := h.owned r hvote.mem happ
      obtain ⟨a, ha, hr⟩ := h.owner hvote.mem hof
      obtain ⟨rfl, row, hid, hlink, hstatus, rfl⟩ :=
        h.executed ha hr hvote.pending (hnotice hof) houtcome
      refine h.move (g := fun _ => row) hsound ha hr hid hlink ?_ le_rfl ?_ rfl
      · rw [hstatus]
        exact .approved
      · rw [← hid]
        rfl
    · have hother : ∀ payload, r.operation ≠ .approveApplication payload :=
        fun payload hop => happ ⟨payload, hop⟩
      refine h.others (p := fun r' => r'.id = r.id) hsound
        (executorOutcome_writes (writes_applicationsKept hother) houtcome) rfl ?_
      intro r' hr' hid
      rw [h.sound.ids.eq hr' hvote.mem hid]
      exact happ

theorem InStep.withdraw (h : InStep db) (applicationId userId : Uuid) :
    InStep (commit (withdrawApplication applicationId userId) db) := by
  refine commit_keeps (P := InStep) h ?_
  intro u db' hok
  cases hfind : db.data.application? applicationId with
  | none =>
    obtain ⟨a, db₁, hget, -⟩ := bind_eq_ok.mp hok
    rw [getApplication, get_bind_eq_ok, hfind, orRaise_eq_ok] at hget
    cases hget.1
  | some a =>
    have ha : a ∈ db.data.applications := List.mem_of_find?_eq_some hfind
    obtain ⟨r, hr⟩ := h.linked a ha
    obtain ⟨r', hid, hmem, hpending, rfl⟩ := withdrawApplication_ok hfind hr.link hok
    obtain rfl := h.sound.ids.eq hmem hr.found hid
    exact h.move (g := fun a => { a with status := .withdrawn })
      ((h.sound.cancelled hmem hpending).data _) ha hr rfl rfl .withdrawn le_rfl rfl rfl

theorem InStep.reject (h : InStep db) (env : Surroundings) (applicationId rejectedBy : Uuid) :
    InStep (commit (rejectApplication env applicationId rejectedBy) db) := by
  refine commit_keeps (P := InStep) h ?_
  intro u db' hok
  cases hfind : db.data.application? applicationId with
  | none =>
    obtain ⟨a, db₁, hget, -⟩ := bind_eq_ok.mp hok
    rw [getApplication, get_bind_eq_ok, hfind, orRaise_eq_ok] at hget
    cases hget.1
  | some a =>
    have ha : a ∈ db.data.applications := List.mem_of_find?_eq_some hfind
    obtain ⟨r, hr⟩ := h.linked a ha
    obtain ⟨r', hid, hvote, rfl⟩ := rejectApplication_ok hfind hr.link hok
    obtain rfl := h.sound.ids.eq hvote.mem hr.found hid
    exact h.move (g := fun a => { a with status := .rejected })
      (h.sound.rejected hvote _) ha hr rfl rfl .rejected le_rfl rfl rfl

theorem InStep.disburse (h : InStep db) (env : Surroundings) (d : DisburseIn) :
    InStep (commit (onData (SaccoPlatform.disburse env.ar env.today d)) db) := by
  refine commit_keeps (P := InStep) h ?_
  intro u db' hok
  obtain ⟨data, hdisburse, rfl⟩ := onData_eq_ok.mp hok
  obtain ⟨hnext, hsame | ⟨a, ha, hstatus, happs⟩⟩ := disburse_applications hdisburse
  · exact h.elsewhere (h.sound.data data) ⟨hnext, hsame⟩ (fun _ hr _ => hr) fun _ hr _ => hr
  · obtain ⟨r, hr⟩ := h.linked a ha
    have hexecuted : r.status = .executed := hr.statuses.agree.2.2.2.mpr (.inl hstatus)
    refine h.move (g := fun a => { a with status := .disbursed }) (h.sound.data data) ha hr rfl
      rfl ?_ hnext ?_ (setStatus_self h.sound.ids hr.found).symm
    · rw [hexecuted]
      exact .disbursed
    · rw [happs]
      exact (map_put_eq h.ids ha fun a => { a with status := .disbursed }).symm

/-- Rejecting or cancelling a request that is not of an application. -/
theorem InStep.setOther (h : InStep db) (hsound : db'.Sound) (hdata : db'.data = db.data)
    {r : ApprovalRequest Operation} (hr : r ∈ db.requests) (hnot : ¬ db.OfApplication r.id)
    {status : RequestStatus} (hrequests : db'.requests = (db.setStatus r.id status).requests) :
    InStep db' := by
  refine h.others (p := fun r' => r'.id = r.id) hsound ?_ hrequests ?_
  · rw [hdata]
    exact ⟨le_rfl, rfl⟩
  · intro r' hr' hid happ
    rw [h.sound.ids.eq hr' hr hid] at happ
    exact hnot (h.owned r hr happ)

theorem InStep.inbox (h : InStep db) (env : Surroundings) (op : ApprovalOp Tables Operation)
    (hop : ApplicationOp.SideBySide db (env, .inbox op)) :
    InStep (ApplicationOp.step db (env, .inbox op)) := by
  cases op with
  | submit s =>
    have hsound := step_sound (tenantHooks env) h.sound (.submit s)
    show InStep (commit (submit (tenantHooks env) s) db)
    change (commit (submit (tenantHooks env) s) db).Sound at hsound
    rcases commit_cases (submit (tenantHooks env) s) db with ⟨id, db', hok, heq⟩ | heq
    · rw [heq] at hsound ⊢
      obtain ⟨operation, data, hoperation, -, hnotify, rfl⟩ := submit_ok hok
      obtain rfl := notifyPending_ok hnotify
      refine h.elsewhere hsound ⟨le_rfl, rfl⟩ (fun _ hr _ => List.mem_append_left _ hr) ?_
      intro r hr happ
      rcases List.mem_append.mp hr with hr | hr
      · exact hr
      · rw [List.mem_singleton.mp hr] at happ
        obtain ⟨payload, rfl⟩ : ∃ payload, operation = .approveApplication payload := happ
        simp only [ApplicationOp.SideBySide, hoperation] at hop
    · rw [heq]
      exact h
  | approve requestId actor => exact h.approve env requestId actor hop
  | reject requestId actor =>
    have hsound := step_sound (tenantHooks env) h.sound (.reject requestId actor)
    show InStep (commit (SaccoPlatform.reject (tenantHooks env) requestId actor) db)
    change (commit (SaccoPlatform.reject (tenantHooks env) requestId actor) db).Sound at hsound
    rcases commit_cases (SaccoPlatform.reject (tenantHooks env) requestId actor) db with
      ⟨u, db', hok, heq⟩ | heq
    · rw [heq] at hsound ⊢
      obtain ⟨r, rfl, hvote, rfl⟩ := reject_ok hok
      exact h.setOther hsound rfl hvote.mem (fun happ => hop happ r hvote.found hvote) rfl
    · rw [heq]
      exact h
  | cancel requestId maker =>
    have hsound := step_sound (tenantHooks env) h.sound (.cancel requestId maker)
    show InStep (commit (SaccoPlatform.cancel requestId maker) db)
    change (commit (SaccoPlatform.cancel requestId maker) db).Sound at hsound
    rcases commit_cases (SaccoPlatform.cancel (σ := Tables) (κ := Operation) requestId maker) db with
      ⟨u, db', hok, heq⟩ | heq
    · rw [heq] at hsound ⊢
      obtain ⟨r, hr, hcancels, rfl⟩ := cancel_ok hok
      obtain ⟨hmem, rfl⟩ := request?_eq_some hr
      exact h.setOther hsound rfl hmem (fun happ => hop happ r hr hcancels) rfl
    · rw [heq]
      exact h
  | expire now =>
    have hsound := step_sound (tenantHooks env) h.sound (.expire now)
    refine h.others (p := fun r => r.Overdue now) hsound ⟨le_rfl, rfl⟩ rfl ?_
    rintro r hr ⟨-, deadline, hdeadline, -⟩ happ
    obtain ⟨a, ha, hlinked⟩ := h.owner hr (h.owned r hr happ)
    rw [hlinked.noDeadline] at hdeadline
    cases hdeadline
  | elsewhere data =>
    exact h.elsewhere (h.sound.data _) ⟨le_max_left _ _, rfl⟩ (fun _ hr _ => hr) fun _ hr _ => hr

/-- A step that moves both sides keeps them in step. -/
theorem step_inStep {op : Surroundings × ApplicationOp} (h : InStep db)
    (hop : ApplicationOp.SideBySide db op) : InStep (ApplicationOp.step db op) := by
  obtain ⟨env, op⟩ := op
  cases op with
  | submit s =>
    refine commit_keeps (P := InStep) h ?_
    intro id db' hok
    rcases submitApplication_ok hok with rfl | ⟨required, rfl⟩
    · exact h
    · exact h.submitted s required
  | withdraw applicationId userId => exact h.withdraw applicationId userId
  | reject applicationId rejectedBy => exact h.reject env applicationId rejectedBy
  | approve applicationId actor =>
    show InStep (approveApplication env applicationId actor db)
    unfold approveApplication
    split
    · exact h.approve env _ actor fun _ => hop
    · exact h
  | disburse d => exact h.disburse env d
  | inbox op => exact h.inbox env op hop

end

/-! ## Runs -/

/-- In every run from empty tables whose steps move both sides, every application is linked to a
request whose status agrees with its own. -/
theorem application_request_agree {db : ApprovalDb Tables Operation} (hfresh : db.Fresh)
    (hempty : db.data.applications = []) {ops : List (Surroundings × ApplicationOp)}
    (hops : Along ApplicationOp.step ApplicationOp.SideBySide db ops) :
    ∀ a ∈ (run ApplicationOp.step db ops).data.applications,
      (run ApplicationOp.step db ops).InAgreement a := by
  have hstart : InStep db := by
    refine ⟨hfresh.sound, ?_, ?_, ?_, ?_⟩
    · rw [hempty]
      exact List.nodup_nil
    · intro a ha
      rw [hempty] at ha
      cases ha
    · intro a ha
      rw [hempty] at ha
      cases ha
    · intro r hr
      rw [hfresh.requests] at hr
      cases hr
  have hstep : ∀ s op, InStep s → ApplicationOp.SideBySide s op →
      InStep (ApplicationOp.step s op) := fun _ _ hs hop => step_inStep hs hop
  have h : InStep (run ApplicationOp.step db ops) := run_invariant hstep hstart hops
  intro a ha
  obtain ⟨r, hr⟩ := h.linked a ha
  exact ⟨r, hr.link, h.sound.ids.request?_eq_some hr.found, hr.statuses.agree⟩

/-- The sample tenant before the first application. -/
def applicationTenant : ApprovalDb Tables Operation :=
  ⟨{ sampleTenant .reducingBalance with applications := [], guarantors := [] }, 0, [], [], []⟩

/-- User 1 applies for 1000 over two months, in cash. -/
def sampleApplication (key : String) : ApplicationIn := ⟨6, 20, 1000, 2, .cash, some 5, 1, key⟩

/-- Three applications: one is approved and disbursed, one withdrawn, one rejected. -/
def applicationRun : List (Surroundings × ApplicationOp) :=
  [.submit (sampleApplication "a"), .submit (sampleApplication "b"),
    .submit (sampleApplication "c"), .approve 11 2, .disburse ⟨11, 30, "d"⟩, .withdraw 12 1,
    .inbox (.reject 1 2), .reject 13 2].map (sampleSurroundings, ·)

theorem application_request_agree_three :
    ((run ApplicationOp.step applicationTenant applicationRun).data.applications.map (·.status)
      = [.disbursed, .withdrawn, .rejected]) ∧
    ∀ a ∈ (run ApplicationOp.step applicationTenant applicationRun).data.applications,
      (run ApplicationOp.step applicationTenant applicationRun).InAgreement a :=
  ⟨by decide +kernel, application_request_agree ⟨rfl, rfl, rfl⟩ rfl (by decide +kernel)⟩

/-- User 2 rejects the request of an application in the inbox. -/
def inboxRejection : List (Surroundings × ApplicationOp) :=
  [.submit (sampleApplication "a"), .inbox (.reject 0 2)].map (sampleSurroundings, ·)

/-- Then the request is rejected and the application still submitted. -/
theorem application_rejected_in_inbox :
    applicationTenant.Fresh ∧ applicationTenant.data.applications = [] ∧
    ((run ApplicationOp.step applicationTenant inboxRejection).data.applications.map
      (fun a => (a.status, a.approvalRequestId)) = [(.submitted, some 0)]) ∧
    ((run ApplicationOp.step applicationTenant inboxRejection).requests.map
      (fun r => (r.id, r.status)) = [(0, .rejected)]) ∧
    ¬ ∀ a ∈ (run ApplicationOp.step applicationTenant inboxRejection).data.applications,
      (run ApplicationOp.step applicationTenant inboxRejection).InAgreement a := by
  have happs : (run ApplicationOp.step applicationTenant inboxRejection).data.applications.map
      (fun a => (a.status, a.approvalRequestId)) = [(.submitted, some 0)] := by decide +kernel
  have hrequests : (run ApplicationOp.step applicationTenant inboxRejection).requests.map
      (fun r => (r.id, r.status)) = [(0, .rejected)] := by decide +kernel
  refine ⟨⟨rfl, rfl, rfl⟩, rfl, happs, hrequests, ?_⟩
  intro hall
  have hmem : (ApplicationStatus.submitted, some 0)
      ∈ (run ApplicationOp.step applicationTenant inboxRejection).data.applications.map
        (fun a => (a.status, a.approvalRequestId)) := by
    rw [happs]
    exact List.mem_singleton_self _
  obtain ⟨a, ha, heq⟩ := List.mem_map.mp hmem
  obtain ⟨r, -, hr, hagree⟩ := hall a ha
  have hstatus : (r.id, r.status) ∈ [(0, RequestStatus.rejected)] := by
    rw [← hrequests]
    exact List.mem_map_of_mem (f := fun r => (r.id, r.status)) (request?_eq_some hr).1
  have hrejected : r.status = .rejected := congrArg Prod.snd (List.mem_singleton.mp hstatus)
  have hsubmitted : a.status = .submitted := congrArg Prod.fst heq
  rw [hsubmitted, hrejected] at hagree
  exact absurd hagree (by decide)

end SaccoPlatform
