import SaccoPlatform.MakerChecker.Approvals
import SaccoPlatform.Platform.Settlement

/-!
# Payments and their approval requests

The payment endpoints of `app/platform_/billing/api.py`. A payment is recorded together with a
`billing.confirm_payment` request, its rejection rejects the request as well, and the executor of the
request confirms it. The approval inbox (`app/modules/maker_checker/platform_api.py`) moves the request
alone, and an executor that fails leaves the payment as it was.
-/

namespace SaccoPlatform.Platform

open Lib Session

/-! ## The endpoints -/

/-- The tables of the platform, with the column `approval_request_id` of the payments, which no other
service reads. -/
structure BillingDb where
  tables : Db
  approvalRequestId : Uuid → Option Uuid

/-- The operations of the billing endpoints with their payloads. -/
inductive BillingOperation where
  | confirmPayment (paymentId : Uuid)
  | voidInvoice (invoiceId : Uuid) (reason : String)
deriving DecidableEq, Repr

def BillingOperation.execute (m : Moment) : BillingOperation → PlatformCall Unit
  | confirmPayment paymentId => executeConfirmPayment m paymentId
  | voidInvoice invoiceId reason => executeVoidInvoice m invoiceId reason

/-- What a call meets: the clock, the active admins and the notification templates. -/
structure BillingEnv where
  moment : Moment
  staff : List Uuid
  templates : List NotificationTemplate

/-- The first key of the context that no active template of the event allows. -/
def BillingEnv.disallowedKey? (env : BillingEnv) (eventCode : String) (context : List String) :
    Option String :=
  let active := env.templates.filter fun m => m.code = eventCode ∧ m.isActive = true
  if active = [] then none else context.find? fun key => ∀ m ∈ active, key ∉ m.variableNames

/-- `NotificationService.publish`, as far as it can fail. -/
def BillingEnv.publish (env : BillingEnv) (eventCode : String) (context : List String) :
    Session BillingDb Err Unit :=
  match env.disallowedKey? eventCode context with
  | some key => raise (.valueError
      s!"context key '{key}' is not in the template allow-list for '{eventCode}'")
  | none => pure ()

/-- A call on the tables, in the same session. -/
def onTables {α : Type} (x : PlatformCall α) : Session BillingDb Err α := fun d =>
  match x d.tables with
  | .ok a tables => .ok a { d with tables }
  | .raised e tables => .raised e { d with tables }
  | .aborted e => .aborted e

/-- What `ApprovalService` calls in a session of the platform. -/
def platformHooks (env : BillingEnv) : ApprovalHooks BillingDb BillingOperation where
  execute op _ := onTables (op.execute env.moment)
  ownCommit _ _ _ := none
  notifyPending request :=
    forEach (fun _ => env.publish "maker_checker_pending" ["operation_type", "requested_by_label"])
      (env.staff.filter (· ≠ request.requestedBy))
  notifyDecided request approved :=
    when (request.requestedBy ∈ env.staff)
      (if approved then env.publish "maker_checker_approved" ["operation_type"]
      else env.publish "maker_checker_rejected" ["operation_type", "reason"])

abbrev BillingWorld := ApprovalDb BillingDb BillingOperation

abbrev BillingCall := Session BillingWorld Err

def BillingDb.link (d : BillingDb) (paymentId requestId : Uuid) : BillingDb :=
  { d with approvalRequestId := Function.update d.approvalRequestId paymentId (some requestId) }

/-- `record_payment`. -/
def recordPayment (env : BillingEnv) (input : PaymentInput) : BillingCall Unit := do
  let db ← get
  let _ ← orRaise (db.data.tables.invoices.get? input.invoiceId)
    (.valueError s!"Invoice {input.invoiceId} not found")
  let paymentId ← onData (onTables (PaymentService.record env.moment input))
  match db.data.approvalRequestId paymentId with
  | some _ => pure ()
  | none =>
    let requestId ← submit (platformHooks env)
      ⟨.ok (.confirmPayment paymentId), input.recordedBy, 1, none⟩
    onData (modify (·.link paymentId requestId))

/-- `reject_payment`. -/
def rejectPayment (env : BillingEnv) (paymentId userId : Uuid) : BillingCall Unit := do
  let db ← get
  let _ ← orRaise (db.data.tables.payments.get? paymentId)
    (.valueError s!"Payment {paymentId} not found")
  let requestId ← orRaise (db.data.approvalRequestId paymentId)
    (.valueError s!"Payment {paymentId} has no associated approval request")
  reject (platformHooks env) requestId userId
  onData (onTables (PaymentService.reject paymentId userId))

/-- `void_invoice`. -/
def submitVoidInvoice (env : BillingEnv) (invoiceId : Uuid) (reason : String) (userId : Uuid) :
    BillingCall Unit := do
  let db ← get
  let _ ← orRaise (db.data.tables.invoices.get? invoiceId)
    (.valueError s!"Invoice {invoiceId} not found")
  let _ ← submit (platformHooks env) ⟨.ok (.voidInvoice invoiceId reason), userId, 1, none⟩

/-! ## Runs -/

/-- One committed transaction. `approve`, `reject` and `cancel` are the calls of the inbox, and
`elsewhere` is any other transaction, which leaves the payments alone. -/
inductive PaymentOp where
  | recordPayment (input : PaymentInput)
  | rejectPayment (paymentId userId : Uuid)
  | voidInvoice (invoiceId : Uuid) (reason : String) (userId : Uuid)
  | approve (requestId actorUserId : Uuid)
  | reject (requestId actorUserId : Uuid)
  | cancel (requestId requestedBy : Uuid)
  | expire (now : ℤ)
  | elsewhere (tables : Db)

def PaymentOp.step (db : BillingWorld) : BillingEnv × PaymentOp → BillingWorld
  | (env, .recordPayment input) => commit (Platform.recordPayment env input) db
  | (env, .rejectPayment paymentId userId) => commit (Platform.rejectPayment env paymentId userId) db
  | (env, .voidInvoice invoiceId reason userId) =>
    commit (submitVoidInvoice env invoiceId reason userId) db
  | (env, .approve requestId actor) => commitApprove (platformHooks env) requestId actor db
  | (env, .reject requestId actor) =>
    commit (SaccoPlatform.reject (platformHooks env) requestId actor) db
  | (_, .cancel requestId maker) => commit (SaccoPlatform.cancel requestId maker) db
  | (_, .expire now) => db.expire now
  | (_, .elsewhere tables) =>
    { db with data := { db.data with
        tables := { tables with payments := db.data.tables.payments } } }

/-- Before the first payment. -/
def billingStart (tables : Db) : BillingWorld :=
  ⟨⟨{ tables with payments := ⟨[], List.nodup_nil⟩ }, fun _ => none⟩, 0, [], [], []⟩

/-- The request ended, and its executor did not go through. -/
def RequestStatus.ended : RequestStatus → Bool
  | .rejected | .cancelled | .expired | .executionFailed => true
  | _ => false

/-- The status of a payment says the same as the status of its request. -/
def PaymentAgrees (payment : PaymentStatus) (request : RequestStatus) : Prop :=
  (payment = .pending ↔ request = .pending) ∧
  (payment = .confirmed ↔ request = .executed) ∧
  (payment = .rejected ↔ RequestStatus.ended request)

instance (p : PaymentStatus) (r : RequestStatus) : Decidable (PaymentAgrees p r) :=
  inferInstanceAs (Decidable (_ ∧ _ ∧ _))

/-- The payment is linked to a request that agrees with it. -/
def InAgreement (db : BillingWorld) (p : PaymentRow) : Prop :=
  ∃ r, db.data.approvalRequestId p.id = some r.id ∧ db.request? r.id = some r ∧
    PaymentAgrees p.status r.status

theorem inAgreement_iff {db : BillingWorld} {p : PaymentRow} :
    InAgreement db p ↔
      ∃ r ∈ (db.data.approvalRequestId p.id).bind db.request?, PaymentAgrees p.status r.status := by
  constructor
  · rintro ⟨r, hlink, hr, hagrees⟩
    exact ⟨r, by rw [hlink]; exact hr, hagrees⟩
  · rintro ⟨r, hr, hagrees⟩
    obtain ⟨id, hlink, hr⟩ := Option.bind_eq_some_iff.mp hr
    obtain ⟨-, rfl⟩ := request?_eq_some hr
    exact ⟨r, hlink, hr, hagrees⟩

instance (db : BillingWorld) (p : PaymentRow) : Decidable (InAgreement db p) :=
  decidable_of_iff _ inAgreement_iff.symm

/-- The request is that of a payment. -/
def OfPayment (db : BillingWorld) (requestId : Uuid) : Prop :=
  ∃ p ∈ db.data.tables.payments.rows, db.data.approvalRequestId p.id = some requestId

instance (db : BillingWorld) (requestId : Uuid) : Decidable (OfPayment db requestId) :=
  inferInstanceAs (Decidable (∃ p ∈ _, _))

/-- The maker may still cancel the request. -/
def MayCancel (db : BillingWorld) (r : ApprovalRequest BillingOperation) (maker : Uuid) : Prop :=
  r.status = .pending ∧ r.requestedBy = maker ∧ db.actionsOn r.id = []

instance (db : BillingWorld) (r : ApprovalRequest BillingOperation) (maker : Uuid) :
    Decidable (MayCancel db r maker) := inferInstanceAs (Decidable (_ ∧ _ ∧ _))

/-- The invoice has room for the payment. -/
def Db.Payable (db : Db) (p : PaymentRow) : Prop :=
  ∃ invoice ∈ db.invoices.get? p.invoiceId,
    invoice.amountPaid.val + p.amount.val ≤ invoice.amountTotal.val

instance (db : Db) (p : PaymentRow) : Decidable (db.Payable p) :=
  inferInstanceAs (Decidable (∃ invoice ∈ db.invoices.get? p.invoiceId, _))

/-- The inbox neither rejects nor cancels the request of a payment, and approves it only while the
invoice has room for the payment. -/
def PaymentOp.SideBySide (db : BillingWorld) : BillingEnv × PaymentOp → Prop
  | (_, .reject requestId actor) =>
    OfPayment db requestId → ∀ r ∈ db.request? requestId, ¬ db.MayVote r actor
  | (_, .cancel requestId maker) =>
    OfPayment db requestId → ∀ r ∈ db.request? requestId, ¬ MayCancel db r maker
  | (_, .approve requestId actor) =>
    ∀ r ∈ db.request? requestId, db.MayVote r actor → ∀ p ∈ db.data.tables.payments.rows,
      db.data.approvalRequestId p.id = some requestId → db.data.tables.Payable p
  | _ => True

instance (db : BillingWorld) : ∀ op, Decidable (PaymentOp.SideBySide db op)
  | (_, .reject requestId _) =>
    inferInstanceAs (Decidable (OfPayment db requestId → ∀ r ∈ db.request? requestId, _))
  | (_, .cancel requestId _) =>
    inferInstanceAs (Decidable (OfPayment db requestId → ∀ r ∈ db.request? requestId, _))
  | (_, .approve requestId _) =>
    inferInstanceAs (Decidable (∀ r ∈ db.request? requestId, _ → ∀ p ∈ _, _ → _))
  | (_, .recordPayment _) => inferInstanceAs (Decidable True)
  | (_, .rejectPayment ..) => inferInstanceAs (Decidable True)
  | (_, .voidInvoice ..) => inferInstanceAs (Decidable True)
  | (_, .expire _) => inferInstanceAs (Decidable True)
  | (_, .elsewhere _) => inferInstanceAs (Decidable True)

/-! ## What the calls do -/

section

variable {α : Type} {env : BillingEnv} {d d' : BillingDb}

theorem onTables_eq_ok {x : PlatformCall α} {a : α} :
    onTables x d = .ok a d' ↔ ∃ tables, x d.tables = .ok a tables ∧ d' = { d with tables } := by
  unfold onTables
  cases x d.tables <;> simp [eq_comm]

theorem onTables_eq_raised {x : PlatformCall α} {e : Err} :
    onTables x d = .raised e d' ↔
      ∃ tables, x d.tables = .raised e tables ∧ d' = { d with tables } := by
  unfold onTables
  cases x d.tables <;> simp [eq_comm]

/-- Notifications change no modelled row. -/
theorem publish_ok {eventCode : String} {context : List String} {u : Unit}
    (h : env.publish eventCode context d = .ok u d') : d' = d := by
  unfold BillingEnv.publish at h
  cases hkey : env.disallowedKey? eventCode context with
  | some key =>
    rw [hkey] at h
    cases h
  | none =>
    rw [hkey] at h
    exact (pure_eq_ok.mp h).2.symm

theorem platformNotifyDecided_ok {request : ApprovalRequest BillingOperation} {approved : Bool}
    {u : Unit} (h : (platformHooks env).notifyDecided request approved d = .ok u d') : d' = d := by
  simp only [platformHooks, Session.when] at h
  split at h
  · split at h
    · exact publish_ok h
    · exact publish_ok h
  · exact (pure_eq_ok.mp h).2.symm

theorem platformNotifyPending_ok {request : ApprovalRequest BillingOperation} {u : Unit}
    (h : (platformHooks env).notifyPending request d = .ok u d') : d' = d := by
  simp only [platformHooks] at h
  generalize env.staff.filter (· ≠ request.requestedBy) = staff at h
  induction staff with
  | nil => exact (pure_eq_ok.mp h).2.symm
  | cons user staff ih =>
    obtain ⟨_, d₁, hone, hrest⟩ := bind_eq_ok.mp h
    rw [publish_ok hone] at hrest
    exact ih hrest

variable {db db' : BillingWorld} {u : Unit}

/-- A request that is submitted in a session of the platform. -/
theorem platformSubmit_ok {operation : BillingOperation} {maker id : Uuid} {required : ℤ}
    (h : submit (platformHooks env) ⟨.ok operation, maker, required, none⟩ db = .ok id db') :
    id = db.nextRequestId ∧ db' = { db with
      nextRequestId := db.nextRequestId + 1
      requests := db.requests ++ [⟨db.nextRequestId, operation, maker, required, .pending, none⟩] } := by
  obtain ⟨operation', data, hoperation, hid, hnotify, hdb⟩ := submit_ok h
  cases hoperation
  obtain rfl := platformNotifyPending_ok hnotify
  exact ⟨hid, hdb⟩

/-- A payment that was recorded before is left alone, and a new one comes with its request. -/
theorem recordPayment_ok {input : PaymentInput} (h : recordPayment env input db = .ok u db')
    (hlinked : ∀ p ∈ db.data.tables.payments.rows, db.data.approvalRequestId p.id ≠ none)
    (hfresh : db.data.approvalRequestId db.data.tables.payments.fresh = none) :
    db' = db ∨ ∃ amount, db' = { db with
      data := { db.data with tables := { db.data.tables with
        payments := db.data.tables.payments.insertNew (input.pending env.moment amount)
          fun _ => rfl } }.link db.data.tables.payments.fresh db.nextRequestId
      nextRequestId := db.nextRequestId + 1
      requests := db.requests ++ [⟨db.nextRequestId,
        .confirmPayment db.data.tables.payments.fresh, input.recordedBy, 1, .pending, none⟩] } := by
  simp only [recordPayment, get_bind_eq_ok, orRaise_bind_eq_ok, onData_bind_eq_ok] at h
  obtain ⟨invoice, -, paymentId, d₁, hcall, h⟩ := h
  obtain ⟨tables, hrecord, rfl⟩ := onTables_eq_ok.mp hcall
  obtain ⟨rfl, p, hp, rfl⟩ | ⟨amount, -, rfl, rfl⟩ := record_eq_ok hrecord
  · obtain ⟨requestId, hlink⟩ := Option.ne_none_iff_exists'.mp (hlinked p hp)
    rw [hlink] at h
    exact .inl (pure_eq_ok.mp h).2.symm
  · rw [hfresh] at h
    obtain ⟨requestId, db₁, hsubmit, h⟩ := bind_eq_ok.mp h
    obtain ⟨rfl, rfl⟩ := platformSubmit_ok hsubmit
    obtain ⟨d₂, hmodify, rfl⟩ := onData_eq_ok.mp h
    obtain rfl := modify_eq_ok.mp hmodify
    exact .inr ⟨amount, rfl⟩

/-- A rejection moves the request and the payment. -/
theorem rejectPayment_ok {paymentId userId : Uuid}
    (h : rejectPayment env paymentId userId db = .ok u db') :
    ∃ p r, db.data.tables.payments.get? paymentId = some p ∧
      db.data.approvalRequestId paymentId = some r.id ∧ db.MayVote r userId ∧
      db' = { (db.vote r.id userId .reject).setStatus r.id .rejected with
        data := { db.data with tables := { db.data.tables with
          payments := db.data.tables.payments.put { p with status := .rejected } } } } := by
  simp only [rejectPayment, get_bind_eq_ok, orRaise_bind_eq_ok] at h
  obtain ⟨p, hp, requestId, hlink, h⟩ := h
  obtain ⟨_, db₁, hreject, h⟩ := bind_eq_ok.mp h
  obtain ⟨r, data, rfl, hvote, hnotify, rfl⟩ := rejectRequest_ok hreject
  obtain rfl := platformNotifyDecided_ok hnotify
  obtain ⟨d₁, htables, rfl⟩ := onData_eq_ok.mp h
  obtain ⟨tables, hpayment, rfl⟩ := onTables_eq_ok.mp htables
  obtain ⟨p', hp', -, -, rfl⟩ := reject_eq_ok.mp hpayment
  obtain rfl : p' = p := Option.some.inj (hp'.symm.trans hp)
  exact ⟨p', r, hp, hlink, hvote, rfl⟩

/-- The executor confirms a payment that waits. -/
theorem executeConfirmPayment_ok {m : Moment} {t t' : Db} {p : PaymentRow}
    (hp : t.payments.get? p.id = some p) (hpending : p.status = .pending)
    (h : executeConfirmPayment m p.id t = .ok u t') :
    t'.payments = t.payments.put { p with status := .confirmed, confirmedAt := some m.now } := by
  simp only [executeConfirmPayment, get_bind_eq_ok, hp, Option.any_some, hpending] at h
  obtain ⟨p', invoice, newPaid, hp', -, -, -, -, -, rfl⟩ := confirm_eq_ok.mp h
  obtain rfl : p' = p := Option.some.inj (hp'.symm.trans hp)
  rfl

/-- It raises only when the invoice has no room for the payment. -/
theorem executeConfirmPayment_not_raised {m : Moment} {t t' : Db} {p : PaymentRow} {e : Err}
    (hp : t.payments.get? p.id = some p) (hpending : p.status = .pending) (hroom : t.Payable p) :
    executeConfirmPayment m p.id t ≠ .raised e t' := by
  obtain ⟨invoice, hinvoice, hle⟩ := hroom
  intro h
  simp only [executeConfirmPayment, get_bind_eq_raised, hp, Option.any_some, hpending] at h
  change PaymentService.confirm m p.id none t = _ at h
  simp only [PaymentService.confirm, get_bind_eq_raised, orRaise_bind_eq_raised,
    require_bind_eq_raised, writePayment, modify_bind_eq_raised] at h
  rcases h with ⟨hnone, -⟩ | ⟨p', hp', h⟩
  · rw [hp] at hnone
    cases hnone
  obtain rfl : p' = p := Option.some.inj (hp'.symm.trans hp)
  rcases h with ⟨hstatus, -⟩ | ⟨-, ⟨hmaker, -⟩ | ⟨-, ⟨hnone, -⟩ | ⟨invoice', hinvoice', h⟩⟩⟩
  · exact hstatus hpending
  · exact hmaker (by simp)
  · rw [hinvoice] at hnone
    cases hnone
  obtain rfl : invoice' = invoice := Option.some.inj (hinvoice'.symm.trans hinvoice)
  rcases h with ⟨hroom, -⟩ | ⟨-, h⟩
  · exact hroom hle
  -- the sum is stored or refused by the database
  unfold storeMoney at h
  cases hstored : (Numeric.ofRat? (invoice'.amountPaid.val + p'.amount.val) : Option Money) with
  | none =>
    rw [hstored] at h
    cases h
  | some newPaid =>
    rw [hstored] at h
    cases h

/-- Voiding an invoice leaves the payments alone, whether it returns or raises. -/
theorem payments_executeVoidInvoice {m : Moment} {invoiceId : Uuid} {reason : String} {t t' : Db} :
    (executeVoidInvoice m invoiceId reason t = .ok u t' → t'.payments = t.payments) ∧
    ∀ e, executeVoidInvoice m invoiceId reason t = .raised e t' → t'.payments = t.payments := by
  by_cases hvoid : (t.invoices.get? invoiceId).any (fun invoice => invoice.status = .void) = true
  · have hsame : executeVoidInvoice m invoiceId reason t = .ok () t := by
      simp only [executeVoidInvoice, bind_apply, get_apply, if_pos hvoid, pure_apply]
    rw [hsame]
    exact ⟨fun h => by cases h; rfl, by simp⟩
  · have hcall : executeVoidInvoice m invoiceId reason t = InvoiceService.void m invoiceId reason t := by
      simp only [executeVoidInvoice, bind_apply, get_apply, if_neg hvoid]
    rw [hcall]
    constructor
    · intro h
      obtain ⟨invoice, -, -, -, rfl⟩ := void_eq_ok.mp h
      rfl
    · intro e h
      simp only [InvoiceService.void, writeInvoice, get_bind_eq_raised, orRaise_bind_eq_raised,
        require_bind_eq_raised] at h
      rcases h with ⟨-, -, rfl⟩ | ⟨invoice, -, ⟨-, -, rfl⟩ | ⟨-, ⟨-, -, rfl⟩ | ⟨-, h⟩⟩⟩
      · rfl
      · rfl
      · rfl
      · cases h

end

/-! ## Payment and request move together -/

/-- The pairs of statuses that moving both together can produce. -/
inductive Paired : PaymentStatus → RequestStatus → Prop
  | waiting : Paired .pending .pending
  | confirmed : Paired .confirmed .executed
  | rejected : Paired .rejected .rejected

theorem Paired.agrees {p : PaymentStatus} {r : RequestStatus} (h : Paired p r) : PaymentAgrees p r := by
  cases h <;> decide

/-- The request was submitted for the payment. -/
structure PaymentLinked (db : BillingWorld) (p : PaymentRow) (r : ApprovalRequest BillingOperation) :
    Prop where
  link : db.data.approvalRequestId p.id = some r.id
  found : r ∈ db.requests
  operation : r.operation = .confirmPayment p.id
  noDeadline : r.expiresAt = none
  statuses : Paired p.status r.status

/-- Every payment has its request, and every request to confirm a payment has its payment. -/
structure PaymentsInStep (db : BillingWorld) : Prop where
  sound : db.Sound
  known : ∀ id, db.data.approvalRequestId id ≠ none → ∃ p ∈ db.data.tables.payments.rows, p.id = id
  linked : ∀ p ∈ db.data.tables.payments.rows, ∃ r, PaymentLinked db p r
  owned : ∀ r ∈ db.requests, ∀ id, r.operation = .confirmPayment id →
    db.data.approvalRequestId id = some r.id

def Confirms (r : ApprovalRequest BillingOperation) : Prop := ∃ id, r.operation = .confirmPayment id

section

variable {db db' : BillingWorld} {env : BillingEnv}

/-- The payment of a request. -/
theorem PaymentsInStep.owner (h : PaymentsInStep db) {r : ApprovalRequest BillingOperation}
    (hr : r ∈ db.requests) {id : Uuid} (hlink : db.data.approvalRequestId id = some r.id) :
    ∃ p ∈ db.data.tables.payments.rows, p.id = id ∧ PaymentLinked db p r := by
  obtain ⟨p, hp, rfl⟩ := h.known id (by rw [hlink]; nofun)
  obtain ⟨r', hr'⟩ := h.linked p hp
  have hid : r'.id = r.id := Option.some.inj (hr'.link.symm.trans hlink)
  rw [h.sound.ids.eq hr'.found hr hid] at hr'
  exact ⟨p, hp, rfl, hr'⟩

/-- A change that keeps the payments and their requests. -/
theorem PaymentsInStep.elsewhere (h : PaymentsInStep db) (hsound : db'.Sound)
    (hpayments : db'.data.tables.payments = db.data.tables.payments)
    (hlinks : db'.data.approvalRequestId = db.data.approvalRequestId)
    (hkept : ∀ r ∈ db.requests, Confirms r → r ∈ db'.requests)
    (hnone : ∀ r ∈ db'.requests, Confirms r → r ∈ db.requests) : PaymentsInStep db' where
  sound := hsound
  known := by
    rw [hpayments, hlinks]
    exact h.known
  linked := by
    rw [hpayments]
    intro p hp
    obtain ⟨r, hr⟩ := h.linked p hp
    refine ⟨r, ?_, hkept r hr.found ⟨p.id, hr.operation⟩, hr.operation, hr.noDeadline, hr.statuses⟩
    rw [hlinks]
    exact hr.link
  owned := by
    rw [hlinks]
    intro r hr id hop
    exact h.owned r (hnone r hr ⟨id, hop⟩) id hop

/-- A change of the statuses of other requests. -/
theorem PaymentsInStep.others (h : PaymentsInStep db) (hsound : db'.Sound)
    (hpayments : db'.data.tables.payments = db.data.tables.payments)
    (hlinks : db'.data.approvalRequestId = db.data.approvalRequestId)
    {p : ApprovalRequest BillingOperation → Prop} [DecidablePred p] {status : RequestStatus}
    (hrequests : db'.requests = (db.setStatuses p status).requests)
    (hother : ∀ r ∈ db.requests, p r → ¬ Confirms r) : PaymentsInStep db' := by
  refine h.elsewhere hsound hpayments hlinks ?_ ?_
  · intro r hr hconfirms
    rw [hrequests]
    exact mem_setStatuses_of_not hr fun hp => hother r hr hp hconfirms
  · intro r hr hconfirms
    rw [hrequests] at hr
    obtain ⟨r₀, hr₀, ⟨hp, rfl⟩ | ⟨-, rfl⟩⟩ := mem_setStatuses hr
    · exact absurd hconfirms (hother r₀ hr₀ hp)
    · exact hr₀

/-- A payment and its request move to matching statuses. -/
theorem PaymentsInStep.move (h : PaymentsInStep db) (hsound : db'.Sound) {p q : PaymentRow}
    {r : ApprovalRequest BillingOperation} (hr : PaymentLinked db p r) (hid : q.id = p.id)
    {status : RequestStatus} (hstatus : Paired q.status status)
    (hpayments : db'.data.tables.payments = db.data.tables.payments.put q)
    (hlinks : db'.data.approvalRequestId = db.data.approvalRequestId)
    (hrequests : db'.requests = (db.setStatus r.id status).requests) : PaymentsInStep db' where
  sound := hsound
  known := by
    rw [hpayments, hlinks]
    intro id hlink
    obtain ⟨p', hp', rfl⟩ := h.known id hlink
    by_cases hsame : p'.id = q.id
    · exact ⟨q, Keyed.mem_put.mpr (.inr ⟨rfl, p', hp', hsame⟩), hsame.symm⟩
    · exact ⟨p', Keyed.mem_put.mpr (.inl ⟨hp', hsame⟩), rfl⟩
  linked := by
    rw [hpayments]
    intro p' hp'
    rcases Keyed.mem_put.mp hp' with ⟨hp', hne⟩ | ⟨rfl, -⟩
    · -- another payment has another request
      obtain ⟨r', hr'⟩ := h.linked p' hp'
      refine ⟨r', ?_, ?_, hr'.operation, hr'.noDeadline, hr'.statuses⟩
      · rw [hlinks]
        exact hr'.link
      · rw [hrequests]
        refine mem_setStatuses_of_not hr'.found ?_
        intro hsame
        have hop := hr'.operation
        rw [h.sound.ids.eq hr'.found hr.found hsame, hr.operation] at hop
        injection hop with hsame_id
        exact hne (hsame_id.symm.trans hid.symm)
    · refine ⟨{ r with status }, ?_, ?_, ?_, hr.noDeadline, hstatus⟩
      · rw [hlinks, hid]
        exact hr.link
      · rw [hrequests]
        exact List.mem_map.mpr ⟨r, hr.found, if_pos rfl⟩
      · rw [hid]
        exact hr.operation
  owned := by
    rw [hlinks, hrequests]
    intro r' hr' id hop
    obtain ⟨r₀, hr₀, ⟨-, rfl⟩ | ⟨-, rfl⟩⟩ := mem_setStatuses hr'
    · exact h.owned r₀ hr₀ id hop
    · exact h.owned r' hr₀ id hop

/-- A new payment with its request. -/
theorem PaymentsInStep.recorded (h : PaymentsInStep db) (input : PaymentInput) (m : Moment)
    (amount : Money) :
    PaymentsInStep { db with
      data := { db.data with tables := { db.data.tables with
        payments := db.data.tables.payments.insertNew (input.pending m amount) fun _ => rfl } }.link
          db.data.tables.payments.fresh db.nextRequestId
      nextRequestId := db.nextRequestId + 1
      requests := db.requests ++ [⟨db.nextRequestId,
        .confirmPayment db.data.tables.payments.fresh, input.recordedBy, 1, .pending, none⟩] } where
  sound := (h.sound.submitted rfl).data _
  known := by
    intro id hlink
    by_cases hnew : id = db.data.tables.payments.fresh
    · exact ⟨input.pending m amount db.data.tables.payments.fresh,
        List.mem_append_right _ (List.mem_singleton_self _), hnew.symm⟩
    · change Function.update db.data.approvalRequestId _ _ id ≠ none at hlink
      rw [Function.update_of_ne hnew] at hlink
      obtain ⟨p, hp, hid⟩ := h.known id hlink
      exact ⟨p, List.mem_append_left _ hp, hid⟩
  linked := by
    intro p hp
    rcases List.mem_append.mp hp with hp | hp
    · obtain ⟨r, hr⟩ := h.linked p hp
      -- the link of the new payment is written beside the old ones
      have hne : p.id ≠ db.data.tables.payments.fresh := (Keyed.lt_fresh hp).ne
      refine ⟨r, ?_, List.mem_append_left _ hr.found, hr.operation, hr.noDeadline, hr.statuses⟩
      show Function.update db.data.approvalRequestId _ _ p.id = _
      rw [Function.update_of_ne hne]
      exact hr.link
    · rw [List.mem_singleton.mp hp]
      refine ⟨_, ?_, List.mem_append_right _ (List.mem_singleton_self _), rfl, rfl, .waiting⟩
      exact Function.update_self ..
  owned := by
    intro r hr id hop
    show Function.update db.data.approvalRequestId _ _ id = _
    rcases List.mem_append.mp hr with hr | hr
    · have hlink := h.owned r hr id hop
      obtain ⟨p, hp, rfl⟩ := h.known id (by rw [hlink]; nofun)
      rw [Function.update_of_ne (Keyed.lt_fresh hp).ne]
      exact hlink
    · rw [List.mem_singleton.mp hr] at hop ⊢
      injection hop with hid
      rw [← hid, Function.update_self]

/-! ## One step -/

theorem PaymentsInStep.recordPayment (h : PaymentsInStep db) (env : BillingEnv) (input : PaymentInput) :
    PaymentsInStep (commit (Platform.recordPayment env input) db) := by
  refine commit_keeps h ?_
  intro u db' hok
  have hlinked : ∀ p ∈ db.data.tables.payments.rows, db.data.approvalRequestId p.id ≠ none := by
    intro p hp
    obtain ⟨r, hr⟩ := h.linked p hp
    rw [hr.link]
    nofun
  -- no link waits for a payment that does not exist
  have hfresh : db.data.approvalRequestId db.data.tables.payments.fresh = none := by
    by_contra hlink
    obtain ⟨p, hp, hid⟩ := h.known _ hlink
    exact absurd hid (Keyed.lt_fresh hp).ne
  rcases recordPayment_ok hok hlinked hfresh with rfl | ⟨amount, rfl⟩
  · exact h
  · exact h.recorded input env.moment amount

theorem PaymentsInStep.rejectPayment (h : PaymentsInStep db) (env : BillingEnv)
    (paymentId userId : Uuid) :
    PaymentsInStep (commit (Platform.rejectPayment env paymentId userId) db) := by
  refine commit_keeps h ?_
  intro u db' hok
  obtain ⟨p, r, hp, hlink, hvote, rfl⟩ := rejectPayment_ok hok
  obtain ⟨p', hp', hid, hr⟩ := h.owner hvote.mem hlink
  obtain rfl : p' = p := Option.some.inj ((Keyed.get?_eq_some.mpr ⟨hp', hid⟩).symm.trans hp)
  exact h.move (q := { p' with status := .rejected }) (h.sound.rejected hvote _) hr rfl .rejected rfl
    rfl rfl

/-- The executor of a request that waits confirms its payment. -/
theorem PaymentLinked.executed {r : ApprovalRequest BillingOperation} {p : PaymentRow}
    (hr : PaymentLinked db p r) (hp : p ∈ db.data.tables.payments.rows)
    (hpending : r.status = .pending) (hroom : db.data.tables.Payable p) {data : BillingDb}
    {status : RequestStatus} (hleft : ExecutorLeft (platformHooks env) r db.data data status) :
    status = .executed ∧ data.approvalRequestId = db.data.approvalRequestId ∧
      data.tables.payments = db.data.tables.payments.put
        { p with status := .confirmed, confirmedAt := some env.moment.now } := by
  have hfound : db.data.tables.payments.get? p.id = some p := Keyed.get?_of_mem hp
  have hwaiting : p.status = .pending := hr.statuses.agrees.1.mpr hpending
  simp only [ExecutorLeft, platformHooks, hr.operation, BillingOperation.execute] at hleft
  rcases hleft with ⟨hok, hstatus⟩ | ⟨e, hraised, -⟩
  · obtain ⟨tables, hconfirm, rfl⟩ := onTables_eq_ok.mp hok
    exact ⟨hstatus, rfl, executeConfirmPayment_ok hfound hwaiting hconfirm⟩
  · obtain ⟨tables, hconfirm, -⟩ := onTables_eq_raised.mp hraised
    exact absurd hconfirm (executeConfirmPayment_not_raised hfound hwaiting hroom)

/-- The executor of another request leaves the payments alone. -/
theorem payments_of_executorLeft {r : ApprovalRequest BillingOperation} {d d' : BillingDb}
    {status : RequestStatus} (hother : ¬ Confirms r)
    (hleft : ExecutorLeft (platformHooks env) r d d' status) :
    d'.approvalRequestId = d.approvalRequestId ∧ d'.tables.payments = d.tables.payments := by
  cases hop : r.operation with
  | confirmPayment paymentId => exact absurd ⟨paymentId, hop⟩ hother
  | voidInvoice invoiceId reason =>
    simp only [ExecutorLeft, platformHooks, hop, BillingOperation.execute] at hleft
    rcases hleft with ⟨hok, -⟩ | ⟨e, hraised, -⟩
    · obtain ⟨tables, hvoid, rfl⟩ := onTables_eq_ok.mp hok
      exact ⟨rfl, payments_executeVoidInvoice.1 hvoid⟩
    · obtain ⟨tables, hvoid, rfl⟩ := onTables_eq_raised.mp hraised
      exact ⟨rfl, (payments_executeVoidInvoice (u := ())).2 e hvoid⟩

theorem PaymentsInStep.approve (h : PaymentsInStep db) {requestId actor : Uuid}
    (hop : PaymentOp.SideBySide db (env, .approve requestId actor)) :
    PaymentsInStep (commitApprove (platformHooks env) requestId actor db) := by
  have hsound : (commitApprove (platformHooks env) requestId actor db).Sound :=
    step_sound (platformHooks env) h.sound (.approve requestId actor)
  rcases commitApprove_cases (platformHooks env) requestId actor db with heq | ⟨r, -, -, heq⟩ |
    ⟨r, data, status, rfl, hvote, -, houtcome, heq⟩
  · rw [heq]
    exact h
  · -- a vote short of the quorum
    rw [heq] at hsound ⊢
    exact h.elsewhere hsound rfl rfl (fun _ hr _ => hr) fun _ hr _ => hr
  · rw [heq] at hsound ⊢
    rcases houtcome with ⟨hown, -⟩ | ⟨-, data₁, hleft, hnotify⟩
    · -- no executor of the platform commits by itself
      cases hown
    obtain rfl := platformNotifyDecided_ok hnotify
    by_cases hconfirms : Confirms r
    · obtain ⟨id, hconfirm⟩ := hconfirms
      have hlink := h.owned r hvote.mem id hconfirm
      obtain ⟨p, hp, rfl, hr⟩ := h.owner hvote.mem hlink
      have hroom := hop r hvote.found hvote p hp hlink
      obtain ⟨rfl, hlinks, hpayments⟩ := hr.executed hp hvote.pending hroom hleft
      exact h.move (q := { p with status := .confirmed, confirmedAt := some env.moment.now }) hsound
        hr rfl .confirmed hpayments hlinks rfl
    · obtain ⟨hlinks, hpayments⟩ := payments_of_executorLeft hconfirms hleft
      refine h.others (p := fun r' => r'.id = r.id) hsound hpayments hlinks rfl ?_
      intro r' hr' hid
      rw [h.sound.ids.eq hr' hvote.mem hid]
      exact hconfirms

/-- Rejecting or cancelling a request that is not of a payment. -/
theorem PaymentsInStep.setOther (h : PaymentsInStep db) (hsound : db'.Sound) (hdata : db'.data = db.data)
    {r : ApprovalRequest BillingOperation} (hr : r ∈ db.requests) (hnot : ¬ OfPayment db r.id)
    {status : RequestStatus} (hrequests : db'.requests = (db.setStatus r.id status).requests) :
    PaymentsInStep db' := by
  refine h.others (p := fun r' => r'.id = r.id) hsound (by rw [hdata]) (by rw [hdata]) hrequests ?_
  intro r' hr' hid hconfirms
  rw [h.sound.ids.eq hr' hr hid] at hconfirms
  obtain ⟨id, hop⟩ := hconfirms
  obtain ⟨p, hp, -, hlinked⟩ := h.owner hr (h.owned r hr id hop)
  exact hnot ⟨p, hp, hlinked.link⟩

/-- A step that moves both sides keeps them in step. -/
theorem step_paymentsInStep {op : BillingEnv × PaymentOp} (h : PaymentsInStep db)
    (hop : PaymentOp.SideBySide db op) : PaymentsInStep (PaymentOp.step db op) := by
  obtain ⟨env, op⟩ := op
  cases op with
  | recordPayment input => exact h.recordPayment env input
  | rejectPayment paymentId userId => exact h.rejectPayment env paymentId userId
  | voidInvoice invoiceId reason userId =>
    show PaymentsInStep (commit (submitVoidInvoice env invoiceId reason userId) db)
    refine commit_keeps h ?_
    intro u db' hok
    simp only [submitVoidInvoice, get_bind_eq_ok, orRaise_bind_eq_ok] at hok
    obtain ⟨invoice, -, hok⟩ := hok
    obtain ⟨id, db₁, hsubmit, hok⟩ := bind_eq_ok.mp hok
    obtain ⟨-, rfl⟩ := platformSubmit_ok hsubmit
    obtain ⟨-, rfl⟩ := pure_eq_ok.mp hok
    refine h.elsewhere (h.sound.submitted rfl) rfl rfl (fun _ hr _ => List.mem_append_left _ hr) ?_
    -- the request to void an invoice confirms no payment
    intro r hr hconfirms
    rcases List.mem_append.mp hr with hr | hr
    · exact hr
    · rw [List.mem_singleton.mp hr] at hconfirms
      obtain ⟨paymentId, hvoid⟩ := hconfirms
      cases hvoid
  | approve requestId actor => exact h.approve hop
  | reject requestId actor =>
    show PaymentsInStep (commit (SaccoPlatform.reject (platformHooks env) requestId actor) db)
    refine commit_keeps h ?_
    intro u db' hok
    obtain ⟨r, data, rfl, hvote, hnotify, rfl⟩ := rejectRequest_ok hok
    obtain rfl := platformNotifyDecided_ok hnotify
    exact h.setOther (h.sound.rejected hvote _) rfl hvote.mem
      (fun hof => hop hof r hvote.found hvote) rfl
  | cancel requestId maker =>
    show PaymentsInStep (commit (SaccoPlatform.cancel requestId maker) db)
    refine commit_keeps h ?_
    intro u db' hok
    obtain ⟨r, hr, hpending, hmaker, hactions, rfl⟩ := cancelRequest_ok hok
    obtain ⟨hmem, rfl⟩ := request?_eq_some hr
    exact h.setOther (h.sound.cancelled hmem hpending) rfl hmem
      (fun hof => hop hof r hr ⟨hpending, hmaker, hactions⟩) rfl
  | expire now =>
    have hsound := step_sound (platformHooks env) h.sound (.expire now)
    refine h.others (p := fun r => r.Overdue now) hsound rfl rfl rfl ?_
    -- the request of a payment has no deadline
    rintro r hr ⟨-, deadline, hdeadline, -⟩ ⟨id, hconfirm⟩
    obtain ⟨p, -, -, hlinked⟩ := h.owner hr (h.owned r hr id hconfirm)
    rw [hlinked.noDeadline] at hdeadline
    cases hdeadline
  | elsewhere tables =>
    exact h.elsewhere (h.sound.data _) rfl rfl (fun _ hr _ => hr) fun _ hr _ => hr

end

/-! ## Runs -/

theorem paymentsInStep_start (tables : Db) : PaymentsInStep (billingStart tables) where
  sound := ApprovalDb.Fresh.sound ⟨rfl, rfl, rfl⟩
  known _ hlink := absurd rfl hlink
  linked _ hp := absurd hp List.not_mem_nil
  owned _ hr := absurd hr List.not_mem_nil

/-- Payments and requests agree in every state of a run whose steps move both sides. -/
theorem payment_request_agree (tables : Db) (ops : List (BillingEnv × PaymentOp))
    (hops : Along PaymentOp.step PaymentOp.SideBySide (billingStart tables) ops) :
    ∀ front, front <+: ops →
      ∀ p ∈ (run PaymentOp.step (billingStart tables) front).data.tables.payments.rows,
        InAgreement (run PaymentOp.step (billingStart tables) front) p := by
  have hstep : ∀ s op, PaymentsInStep s → PaymentOp.SideBySide s op →
      PaymentsInStep (PaymentOp.step s op) := fun _ _ hs hop => step_paymentsInStep hs hop
  rintro front ⟨rest, rfl⟩
  have h := run_invariant hstep (paymentsInStep_start tables) (along_append.mp hops).1
  intro p hp
  obtain ⟨r, hr⟩ := h.linked p hp
  exact ⟨r, hr.link, h.sound.ids.request?_eq_some hr.found, hr.statuses.agrees⟩

/-- The second operator is an admin, and there are no templates. -/
def sampleBilling : BillingEnv := ⟨⟨86400000000, dayOne⟩, [9], []⟩

def samplePayment (amount : ℚ) (key : String) : PaymentInput :=
  { partPayment with amount, idempotencyKey := key }

/-- One payment is confirmed and one rejected. -/
def samplePayments : List (BillingEnv × PaymentOp) :=
  [.recordPayment (samplePayment 20000 "payment-1"), .recordPayment (samplePayment 20000 "payment-2"),
    .approve 0 8, .rejectPayment 2 8, .reject 1 8].map (sampleBilling, ·)

theorem payment_request_agree_two :
    ((run PaymentOp.step (billingStart invoicedDb) samplePayments).data.tables.payments.rows.map
      (·.status) = [.confirmed, .rejected]) ∧
    ∀ p ∈ (run PaymentOp.step (billingStart invoicedDb) samplePayments).data.tables.payments.rows,
      InAgreement (run PaymentOp.step (billingStart invoicedDb) samplePayments) p :=
  ⟨by decide +kernel, payment_request_agree invoicedDb samplePayments (by decide +kernel)
    samplePayments (List.prefix_refl _)⟩

/-- The request of a payment is rejected in the inbox. -/
def paymentRejectedInInbox : List (BillingEnv × PaymentOp) :=
  [.recordPayment (samplePayment 20000 "payment-1"), .reject 0 8].map (sampleBilling, ·)

/-- The maker cancels the request of a payment. -/
def paymentCancelledInInbox : List (BillingEnv × PaymentOp) :=
  [.recordPayment (samplePayment 20000 "payment-1"), .cancel 0 9].map (sampleBilling, ·)

/-- Two payments of 30000 on an invoice of 50000 are approved. -/
def paymentTooMuch : List (BillingEnv × PaymentOp) :=
  [.recordPayment (samplePayment 30000 "payment-1"), .recordPayment (samplePayment 30000 "payment-2"),
    .approve 0 8, .approve 1 8].map (sampleBilling, ·)

/-- Each time a payment stays pending although its request has ended. -/
theorem payment_request_disagree :
    ((run PaymentOp.step (billingStart invoicedDb) paymentRejectedInInbox).data.tables.payments.rows.map
      (·.status) = [.pending]) ∧
    ((run PaymentOp.step (billingStart invoicedDb) paymentRejectedInInbox).requests.map (·.status)
      = [.rejected]) ∧
    ((run PaymentOp.step (billingStart invoicedDb) paymentCancelledInInbox).data.tables.payments.rows.map
      (·.status) = [.pending]) ∧
    ((run PaymentOp.step (billingStart invoicedDb) paymentCancelledInInbox).requests.map (·.status)
      = [.cancelled]) ∧
    ((run PaymentOp.step (billingStart invoicedDb) paymentTooMuch).data.tables.payments.rows.map
      (·.status) = [.confirmed, .pending]) ∧
    ((run PaymentOp.step (billingStart invoicedDb) paymentTooMuch).requests.map (·.status)
      = [.executed, .executionFailed]) ∧
    (∀ ops ∈ [paymentRejectedInInbox, paymentCancelledInInbox, paymentTooMuch],
      ¬ ∀ p ∈ (run PaymentOp.step (billingStart invoicedDb) ops).data.tables.payments.rows,
        InAgreement (run PaymentOp.step (billingStart invoicedDb) ops) p) :=
  ⟨by decide +kernel, by decide +kernel, by decide +kernel, by decide +kernel, by decide +kernel,
    by decide +kernel, by decide +kernel⟩

end SaccoPlatform.Platform
