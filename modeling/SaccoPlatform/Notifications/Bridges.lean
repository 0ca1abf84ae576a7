import SaccoPlatform.Lib.History
import SaccoPlatform.Lib.Uuid
import SaccoPlatform.Notifications.Discipline

/-!
# Bridges from the outbox to the feeds

`app/platform_/billing/consumer.py` and `app/core/notifications/offboarding_consumer.py`: events of
the platform's outbox become notifications of the administrators of the tenant that they are about.
The notifications of an event are one transaction of the tenant's schema, and the marker that the
event was processed is another one of the platform. Runs overlap, fail and are lost in between; what
is delivered again is told apart by its `dedupe_key`.
-/

namespace SaccoPlatform.Notifications

open Lib Platform

/-! ## The tables -/

abbrev Payload := List (String × String)

/-- A row of `platform.outbox_events`. -/
structure BridgedEvent where
  id : UUID
  eventType : String
  payload : Payload
  occurredAt : ℕ

/-- A row of `platform.tenants`. -/
structure BridgedTenant where
  id : String
  schemaName : String
  isActive : Bool

/-- A row of `tenant_users`. -/
structure TenantUser where
  id : UUID
  email : String
  isActive : Bool
  isAdmin : Bool
  impersonationId : Option UUID

/-- `payload[field]` -/
def Payload.item (payload : Payload) (field : String) : Except String String :=
  match payload.lookup field with
  | some value => .ok value
  | none => .error field

/-! ## The two consumers -/

/-- What the consumers do differently. -/
structure Bridge where
  /-- The event types of `_FETCH_SQL`. -/
  eventTypes : List String
  /-- The code and the context of the notification of an event. -/
  notification : String → Payload → Except String (String × Context)

/-- `_notification` of the billing consumer. -/
def billingNotification (eventType : String) (payload : Payload) : Except String (String × Context) :=
  if eventType = "BillingInvoiceIssued" then do
    let invoiceNumber ← payload.item "invoice_number"
    let amount ← payload.item "amount_total"
    let currency ← payload.item "currency"
    let dueDate ← payload.item "due_at"
    return ("invoice_issued", [("invoice_number", invoiceNumber), ("amount", amount),
      ("currency", currency), ("due_date", dueDate)])
  else if eventType = "BillingInvoiceOverdue" then do
    let invoiceNumber ← payload.item "invoice_number"
    let amount ← payload.item "amount_outstanding"
    let currency ← payload.item "currency"
    return ("invoice_overdue", [("invoice_number", invoiceNumber), ("amount", amount),
      ("currency", currency)])
  else .ok ("subscription_suspended", [])

def billingBridge : Bridge where
  eventTypes := ["BillingInvoiceIssued", "BillingInvoiceOverdue", "BillingSubscriptionSuspended"]
  notification := billingNotification

/-- `_CODE_FOR_EVENT`. -/
def codeForEvent : List (String × String) :=
  [("TenantOffboardingCancelled", "tenant_offboarding_cancelled"),
   ("TenantOffboardingReadOnly", "tenant_offboarding_read_only"),
   ("TenantOffboardingArchived", "tenant_offboarding_archived"),
   ("TenantOffboardingRestored", "tenant_offboarding_restored")]

/-- `_CODE_FOR_EVENT[event_type]` and `_context`. -/
def offboardingNotification (eventType : String) (payload : Payload) :
    Except String (String × Context) := do
  let code ← Payload.item codeForEvent eventType
  let tenantName ← payload.item "tenant_name"
  let toState ← payload.item "to_state"
  let occurredAt ← payload.item "occurred_at"
  return (code, [("tenant_name", tenantName), ("to_state", toState), ("occurred_at", occurredAt)])

def offboardingBridge : Bridge where
  eventTypes := codeForEvent.map Prod.fst
  notification := offboardingNotification

/-- `f"{event_type}:{event_id}:{user.id}"` -/
def bridgeKey (ev : BridgedEvent) (user : TenantUser) : String :=
  ev.eventType ++ ":" ++ ev.id.str ++ ":" ++ user.id.str

def bridgeRequest (code : String) (context : Context) (ev : BridgedEvent) (user : TenantUser) :
    PublishRequest where
  eventCode := code
  recipientKind := "tenant_user"
  recipientUserId := user.id.int
  recipientEmail := some user.email
  recipientPhone := none
  context := context
  channels := none
  scheduledAt := none
  dedupeKey := some (bridgeKey ev user)

/-- The loop over the administrators. -/
def publishEach (templates : List NotificationTemplate) (now : ℕ) (code : String) (context : Context)
    (ev : BridgedEvent) (admins : List TenantUser) (t : NotificationTables) :
    Except String NotificationTables :=
  admins.foldlM (fun t user => do
    let (_, t') ← publish templates now (bridgeRequest code context ev user) t
    return t') t

/-- The body of `_publish_to_tenant_admins` after the query; the transaction is the tenant's. -/
def publishToTenantAdmins (b : Bridge) (templates : List NotificationTemplate) (now : ℕ)
    (ev : BridgedEvent) (admins : List TenantUser) (t : NotificationTables) :
    Except String NotificationTables := do
  let (code, context) ← b.notification ev.eventType ev.payload
  publishEach templates now code context ev admins t

/-! ## Runs of a consumer -/

/-- Where a run of `_consume_batch` is with the first of its rows. -/
inductive BridgeStage where
  | fetched
  /-- The tenant is active and its schema has a name of the right form. -/
  | resolved (schema : String)
  | publishing (schema : String) (admins : List TenantUser)
  /-- The notifications are committed, or there is nobody to notify. -/
  | marking

structure BridgeRun where
  rows : List BridgedEvent
  stage : BridgeStage

/-- `processed_events` has the rows of one consumer here. Each schema has its users, its templates and
its notifications. -/
structure BridgeWorld where
  outbox : Keyed BridgedEvent.id
  processed : List UUID
  tenants : List BridgedTenant
  users : String → List TenantUser
  templates : String → List NotificationTemplate
  tables : String → NotificationTables
  runs : ℕ → Option BridgeRun

/-- Others write to the tables, or a run takes its next step. -/
inductive BridgeAction where
  | emit (ev : BridgedEvent)
  | setTenants (tenants : List BridgedTenant)
  | setUsers (schema : String) (users : List TenantUser)
  | setTemplates (schema : String) (templates : List NotificationTemplate)
  | notify (schema : String) (op : NotificationOp)
  | purge (schema : String) (old : List ℕ)
  | fetch (k : ℕ)
  | resolve (k : ℕ)
  | readAdmins (k : ℕ)
  | publish (k now : ℕ)
  | mark (k : ℕ)
  | fail (k : ℕ)
  | crash (k : ℕ)

/-- `_purge_for_schema`, where `old` are the events that were created long ago. -/
def purgeForSchema (old : List ℕ) (t : NotificationTables) : NotificationTables :=
  { t with events :=
      ⟨t.events.rows.filter fun event => event.status = .queued || event.id ∉ old,
        t.events.nodup.sublist (List.filter_sublist.map _)⟩ }

namespace BridgeWorld

def empty : BridgeWorld where
  outbox := ⟨[], List.nodup_nil⟩
  processed := []
  tenants := []
  users _ := []
  templates _ := []
  tables _ := .empty
  runs _ := none

/-- `_FETCH_SQL`. -/
def pending (b : Bridge) (w : BridgeWorld) : List BridgedEvent :=
  ((w.outbox.rows.filter fun ev => ev.eventType ∈ b.eventTypes ∧ ev.id ∉ w.processed).insertionSort
    fun ev ev' => ev.occurredAt ≤ ev'.occurredAt).take 50

/-- The schema of the tenant of an event, if the tenant is active and the name has the right form. -/
def route (w : BridgeWorld) (ev : BridgedEvent) : Option String :=
  match ev.payload.lookup "tenant_id" with
  | none => none
  | some id =>
    ((w.tenants.find? fun t => t.id = id ∧ t.isActive).map (·.schemaName)).filter fun schema =>
      schemaRe schema

def admins (w : BridgeWorld) (schema : String) : List TenantUser :=
  (w.users schema).filter fun user => user.isActive ∧ user.isAdmin ∧ user.impersonationId = none

def setTables (w : BridgeWorld) (schema : String) (t : NotificationTables) : BridgeWorld :=
  { w with tables := Function.update w.tables schema t }

def setRun (w : BridgeWorld) (k : ℕ) (run : Option BridgeRun) : BridgeWorld :=
  { w with runs := Function.update w.runs k run }

/-- The run goes on with the next row. -/
def next (w : BridgeWorld) (k : ℕ) (rest : List BridgedEvent) : BridgeWorld :=
  w.setRun k (if rest.isEmpty then none else some ⟨rest, .fetched⟩)

/-- An action; where the run is not at the point that it names, nothing happens. -/
def step (b : Bridge) (w : BridgeWorld) : BridgeAction → BridgeWorld
  | .emit ev => if ev.id ∈ w.outbox.rows.map (·.id) then w else { w with outbox := w.outbox.store ev }
  | .setTenants tenants => { w with tenants }
  | .setUsers schema users => { w with users := Function.update w.users schema users }
  | .setTemplates schema templates =>
    { w with templates := Function.update w.templates schema templates }
  | .notify schema op => w.setTables schema ((w.tables schema).step op)
  | .purge schema old => w.setTables schema (purgeForSchema old (w.tables schema))
  | .fetch k =>
    match w.runs k with
    | none => w.next k (w.pending b)
    | some _ => w
  | .resolve k =>
    match w.runs k with
    | some ⟨ev :: rest, .fetched⟩ =>
      match w.route ev with
      | some schema => w.setRun k (some ⟨ev :: rest, .resolved schema⟩)
      -- unknown or inactive: processed all the same
      | none => w.setRun k (some ⟨ev :: rest, .marking⟩)
    | _ => w
  | .readAdmins k =>
    match w.runs k with
    | some ⟨ev :: rest, .resolved schema⟩ =>
      w.setRun k (some ⟨ev :: rest, .publishing schema (w.admins schema)⟩)
    | _ => w
  | .publish k now =>
    match w.runs k with
    | some ⟨ev :: rest, .publishing schema admins⟩ =>
      match publishToTenantAdmins b (w.templates schema) now ev admins (w.tables schema) with
      | .ok t => (w.setTables schema t).setRun k (some ⟨ev :: rest, .marking⟩)
      -- rolled back and logged
      | .error _ => w.next k rest
    | _ => w
  | .mark k =>
    match w.runs k with
    | some ⟨ev :: rest, .marking⟩ => { w with processed := w.processed.insert ev.id }.next k rest
    | _ => w
  | .fail k =>
    match w.runs k with
    | some ⟨_ :: rest, _⟩ => w.next k rest
    | _ => w
  | .crash k => w.setRun k none

end BridgeWorld

/-! ## What is published -/

/-- What a notification says, to whom, and the key that tells it apart. -/
structure Notice where
  eventCode : String
  recipientKind : RecipientKind
  recipientUserId : ℕ
  recipientEmail : Option String
  context : Context
  dedupeKey : Option String
deriving DecidableEq

def NotificationEvent.notice (event : NotificationEvent) : Notice :=
  ⟨event.eventCode, event.recipientKind, event.recipientUserId, event.recipientEmail, event.context,
    event.dedupeKey⟩

def NotificationTables.notices (t : NotificationTables) : List Notice :=
  t.events.rows.map NotificationEvent.notice

def PublishRequest.notice (req : PublishRequest) (kind : RecipientKind) : Notice :=
  ⟨req.eventCode, kind, req.recipientUserId, req.recipientEmail, req.context, req.dedupeKey⟩

/-- A published notification is new, unless there is one with its key. -/
theorem publish_notices {templates : List NotificationTemplate} {now : ℕ} {req : PublishRequest}
    {event : NotificationEvent} {t t' : NotificationTables}
    (h : publish templates now req t = .ok (event, t')) :
    ∃ kind, kind.name = req.recipientKind ∧
      (t' = t ∧ req.dedupeKey.isSome = true ∧ (∃ n ∈ t.notices, n.dedupeKey = req.dedupeKey) ∨
      (req.dedupeKey.isSome = true → ∀ n ∈ t.notices, n.dedupeKey ≠ req.dedupeKey) ∧
        t'.notices = t.notices ++ [req.notice kind]) := by
  unfold publish at h
  split at h
  · next spec hspec =>
    split at h
    · next kind hkind =>
      have hname : kind.name = req.recipientKind := by simpa using List.find?_some hkind
      dsimp only [bind, Except.bind] at h
      split at h
      · cases h
      · split at h
        · cases h
        · split at h
          · next found hfound =>
            cases h
            have hsame := List.find?_some hfound
            simp only [decide_eq_true_eq] at hsame
            exact ⟨kind, hname, .inl ⟨rfl, hsame.1, event.notice,
              List.mem_map_of_mem (List.mem_of_find?_eq_some hfound), hsame.2⟩⟩
          · next hnone =>
            cases h
            refine ⟨kind, hname, .inr ⟨?_, ?_⟩⟩
            · intro hsome n hn hkey
              obtain ⟨row, hrow, hnotice⟩ := List.mem_map.mp hn
              subst hnotice
              have hnot := List.find?_eq_none.mp hnone row hrow
              simp only [decide_eq_true_eq, not_and] at hnot
              exact hnot hsome hkey
            · show (t.events.rows ++ [_]).map NotificationEvent.notice = _
              rw [List.map_append, List.map_singleton]
              rfl
    · cases h
  · cases h

/-! ### The other operations on the tables -/

/-- An event's id, and what it says. -/
def NotificationTables.stubs (t : NotificationTables) : List (ℕ × Notice) :=
  t.events.rows.map fun event => (event.id, event.notice)

theorem map_snd_stubs (t : NotificationTables) : t.stubs.map Prod.snd = t.notices := by
  rw [NotificationTables.stubs, List.map_map]
  rfl

/-- An event that is written back with another status or time says the same. -/
theorem stubs_put {t : NotificationTables} {row : NotificationEvent}
    {deliveries : List NotificationDelivery} (h : (row.id, row.notice) ∈ t.stubs) :
    NotificationTables.stubs { t with events := t.events.put row, deliveries } = t.stubs :=
  @Keyed.map_put _ _ NotificationEvent.id _ _ (fun event => (event.id, event.notice)) Prod.fst
    (fun _ => rfl) t.events row h

theorem stubs_foldl {f : NotificationTables → NotificationEvent → NotificationTables}
    (hf : ∀ t event, (event.id, event.notice) ∈ t.stubs → (f t event).stubs = t.stubs)
    {events : List NotificationEvent} {t : NotificationTables}
    (hin : ∀ event ∈ events, event ∈ t.events.rows) : (events.foldl f t).stubs = t.stubs := by
  have hstubs : ∀ event ∈ events, (event.id, event.notice) ∈ t.stubs := by
    intro event hevent
    exact List.mem_map.mpr ⟨event, hin event hevent, rfl⟩
  clear hin
  induction events generalizing t with
  | nil => rfl
  | cons event events ih =>
    have hfirst := hf t event (hstubs event List.mem_cons_self)
    rw [List.foldl_cons, ih, hfirst]
    intro event' hevent'
    rw [hfirst]
    exact hstubs event' (List.mem_cons_of_mem _ hevent')

theorem stubs_retryEvent {now : ℕ} {t : NotificationTables} {event : NotificationEvent}
    (h : (event.id, event.notice) ∈ t.stubs) : (retryEvent now t event).stubs = t.stubs := by
  dsimp only [retryEvent]
  split
  · rfl
  · split
    · rfl
    · split
      · rfl
      · exact stubs_put h

/-- Dispatching, retrying and preferences leave what the notifications say. -/
theorem notices_step {t : NotificationTables} {op : NotificationOp}
    (hop : ∀ templates now req, op ≠ .publish templates now req) : (t.step op).notices = t.notices := by
  rw [← map_snd_stubs, ← map_snd_stubs]
  congr 1
  cases op with
  | publish templates now req => exact absurd rfl (hop templates now req)
  | putPreferences kind userId body =>
    rw [NotificationTables.step]
    split
    · next t' hput =>
      obtain ⟨preferences, rfl⟩ := putPreferences_eq_ok hput
      rfl
    · rfl
  | dispatch env now locked =>
    apply stubs_foldl
    · intro t event h
      exact stubs_put h
    · intro event hevent
      have hsorted := List.mem_of_mem_take hevent
      rw [List.mem_insertionSort] at hsorted
      exact List.mem_of_mem_filter hsorted
  | retry now locked =>
    apply stubs_foldl
    · intro t event h
      exact stubs_retryEvent h
    · intro event hevent
      exact List.mem_of_mem_filter hevent

theorem notices_purge (old : List ℕ) (t : NotificationTables) :
    (purgeForSchema old t).notices.Sublist t.notices := List.filter_sublist.map _

/-! ### The notifications of an event -/

def keysOf (notices : List Notice) : List String := notices.filterMap (·.dedupeKey)

/-- What an administrator is told of an event. -/
def noticeFor (b : Bridge) (ev : BridgedEvent) (user : TenantUser) : Except String Notice := do
  let (code, context) ← b.notification ev.eventType ev.payload
  return (bridgeRequest code context ev user).notice .tenantUser

theorem mem_keysOf {notices : List Notice} {key : String} :
    key ∈ keysOf notices ↔ ∃ n ∈ notices, n.dedupeKey = some key := List.mem_filterMap

theorem keysOf_append (notices notices' : List Notice) :
    keysOf (notices ++ notices') = keysOf notices ++ keysOf notices' := List.filterMap_append

/-- After a publication there is a notification with its key, and nothing else is new. -/
structure Publishes (notice : Notice) (t t' : NotificationTables) : Prop where
  old : t.notices ⊆ t'.notices
  new : ∀ n ∈ t'.notices, n ∈ t.notices ∨ n = notice
  distinct : (keysOf t.notices).Nodup → (keysOf t'.notices).Nodup
  key : ∀ key, notice.dedupeKey = some key → key ∈ keysOf t'.notices

theorem publishes_of_publish {templates : List NotificationTemplate} {now : ℕ} {req : PublishRequest}
    {event : NotificationEvent} {t t' : NotificationTables}
    (h : publish templates now req t = .ok (event, t')) :
    ∃ kind, kind.name = req.recipientKind ∧ Publishes (req.notice kind) t t' := by
  obtain ⟨kind, hkind, hcase⟩ := publish_notices h
  refine ⟨kind, hkind, ?_⟩
  rcases hcase with ⟨rfl, -, n, hn, hkey⟩ | ⟨hfresh, hnotices⟩
  · refine ⟨fun _ hin => hin, fun _ hin => .inl hin, id, ?_⟩
    intro key hsome
    exact mem_keysOf.mpr ⟨n, hn, hkey.trans hsome⟩
  · refine ⟨?_, ?_, ?_, ?_⟩
    · rw [hnotices]
      exact List.subset_append_left _ _
    · intro n hn
      rw [hnotices, List.mem_append, List.mem_singleton] at hn
      exact hn
    · intro hnodup
      rw [hnotices, keysOf_append]
      cases hdedupe : req.dedupeKey with
      | none => simpa [keysOf, PublishRequest.notice, hdedupe] using hnodup
      | some key =>
        have hone : keysOf [req.notice kind] = [key] := by
          simp [keysOf, PublishRequest.notice, hdedupe]
        rw [hone, List.nodup_append_comm, List.singleton_append, List.nodup_cons]
        refine ⟨?_, hnodup⟩
        intro hin
        obtain ⟨n, hn, hkey⟩ := mem_keysOf.mp hin
        exact hfresh (by rw [hdedupe]; rfl) n hn (hkey.trans hdedupe.symm)
    · intro key hsome
      rw [hnotices]
      exact mem_keysOf.mpr ⟨_, List.mem_append_right _ List.mem_cons_self, hsome⟩

/-- Once the transaction of the tenant commits, every administrator that it read has been notified,
and nobody else. -/
structure PublishesTo (b : Bridge) (ev : BridgedEvent) (admins : List TenantUser)
    (t t' : NotificationTables) : Prop where
  old : t.notices ⊆ t'.notices
  new : ∀ n ∈ t'.notices, n ∈ t.notices ∨ ∃ user ∈ admins, noticeFor b ev user = .ok n
  distinct : (keysOf t.notices).Nodup → (keysOf t'.notices).Nodup
  keys : ∀ user ∈ admins, bridgeKey ev user ∈ keysOf t'.notices

theorem publishesTo_of_each {b : Bridge} {templates : List NotificationTemplate} {now : ℕ}
    {code : String} {context : Context} {ev : BridgedEvent} {admins : List TenantUser}
    {t t' : NotificationTables} (hb : b.notification ev.eventType ev.payload = .ok (code, context))
    (h : publishEach templates now code context ev admins t = .ok t') :
    PublishesTo b ev admins t t' := by
  have hnotice : ∀ user, noticeFor b ev user =
      .ok ((bridgeRequest code context ev user).notice .tenantUser) := by
    intro user
    rw [noticeFor, hb]
    rfl
  induction admins generalizing t with
  | nil =>
    cases h
    refine ⟨fun _ hin => hin, fun _ hin => .inl hin, id, ?_⟩
    intro user hin
    cases hin
  | cons user admins ih =>
    rw [publishEach, List.foldlM_cons] at h
    cases hfirst : publish templates now (bridgeRequest code context ev user) t with
    | error err =>
      rw [hfirst] at h
      cases h
    | ok result =>
      rw [hfirst] at h
      have hrest := ih h
      obtain ⟨kind, hkind, hone⟩ := publishes_of_publish hfirst
      have htenantUser : kind = .tenantUser := by
        cases kind with
        | platformUser | member => exact absurd hkind (by simp [bridgeRequest, RecipientKind.name])
        | tenantUser => rfl
      subst htenantUser
      refine ⟨fun _ hin => hrest.old (hone.old hin), ?_,
        fun hnodup => hrest.distinct (hone.distinct hnodup), ?_⟩
      · intro n hn
        rcases hrest.new n hn with hmid | ⟨user', huser', hn'⟩
        · rcases hone.new n hmid with hold | rfl
          · exact .inl hold
          · exact .inr ⟨user, List.mem_cons_self, hnotice user⟩
        · exact .inr ⟨user', List.mem_cons_of_mem _ huser', hn'⟩
      · intro user' huser'
        rcases List.mem_cons.mp huser' with rfl | hin
        · have hkey := hone.key _ rfl
          obtain ⟨n, hn, hdedupe⟩ := mem_keysOf.mp hkey
          exact mem_keysOf.mpr ⟨n, hrest.old hn, hdedupe⟩
        · exact hrest.keys user' hin

theorem publishesTo_of_ok {b : Bridge} {templates : List NotificationTemplate} {now : ℕ}
    {ev : BridgedEvent} {admins : List TenantUser} {t t' : NotificationTables}
    (h : publishToTenantAdmins b templates now ev admins t = .ok t') :
    PublishesTo b ev admins t t' := by
  rw [publishToTenantAdmins] at h
  cases hb : b.notification ev.eventType ev.payload with
  | error field =>
    rw [hb] at h
    cases h
  | ok found =>
    rw [hb] at h
    exact publishesTo_of_each hb h

end SaccoPlatform.Notifications
