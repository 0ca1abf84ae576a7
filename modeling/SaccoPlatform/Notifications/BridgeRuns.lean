import SaccoPlatform.Notifications.Bridges

/-!
# Who is notified

Over every run of a consumer of `Bridges`, with any number of its runs at a time: an administrator
never has two notifications of an event, nobody else has one, and an event is not marked as processed
before every administrator who was read has been notified, or the tenant was found unknown or
inactive.
-/

namespace SaccoPlatform.Notifications

open Lib Platform

/-! ## The keys -/

theorem length_str (id : UUID) : id.str.toList.length = 36 := by
  simp [UUID.str, UUID.hex, UUID.length_hexDigits]

/-- The key tells the event and the administrator. -/
theorem bridgeKey_inj {ev ev' : BridgedEvent} {user user' : TenantUser}
    (h : bridgeKey ev user = bridgeKey ev' user') : ev.id = ev'.id ∧ user.id = user'.id := by
  have hchars := congrArg String.toList h
  simp only [bridgeKey, String.toList_append] at hchars
  obtain ⟨hfront, huser⟩ := List.append_inj' hchars (by rw [length_str, length_str])
  obtain ⟨hrest, _⟩ := List.append_inj' hfront rfl
  obtain ⟨_, hev⟩ := List.append_inj' hrest (by rw [length_str, length_str])
  exact ⟨UUID.str_injective (String.toList_injective hev),
    UUID.str_injective (String.toList_injective huser)⟩

/-- The key is none that the consumer uses. -/
def Foreign (b : Bridge) (key : Option String) : Prop :=
  ∀ ev user, ev.eventType ∈ b.eventTypes → key ≠ some (bridgeKey ev user)

/-- Others publish under keys of their own. -/
def Allowed (b : Bridge) : BridgeAction → Prop
  | .notify _ (.publish _ _ req) => Foreign b req.dedupeKey
  | _ => True

/-! ## What an action does -/

namespace BridgeWorld

inductive Effect (b : Bridge) (w : BridgeWorld) : BridgeAction → BridgeWorld → Prop where
  | idle (a : BridgeAction) : Effect b w a w
  | emit (ev : BridgedEvent) (hid : ev.id ∉ w.outbox.rows.map (·.id)) :
      Effect b w (.emit ev) { w with outbox := w.outbox.store ev }
  | setTenants (tenants : List BridgedTenant) : Effect b w (.setTenants tenants) { w with tenants }
  | setUsers (schema : String) (users : List TenantUser) :
      Effect b w (.setUsers schema users) { w with users := Function.update w.users schema users }
  | setTemplates (schema : String) (templates : List NotificationTemplate) :
      Effect b w (.setTemplates schema templates)
        { w with templates := Function.update w.templates schema templates }
  | notify (schema : String) (op : NotificationOp) :
      Effect b w (.notify schema op) (w.setTables schema ((w.tables schema).step op))
  | purge (schema : String) (old : List ℕ) :
      Effect b w (.purge schema old) (w.setTables schema (purgeForSchema old (w.tables schema)))
  | fetch (k : ℕ) : Effect b w (.fetch k) (w.next k (w.pending b))
  | resolve (k : ℕ) (ev : BridgedEvent) (rest : List BridgedEvent) (schema : String)
      (hk : w.runs k = some ⟨ev :: rest, .fetched⟩) (hroute : w.route ev = some schema) :
      Effect b w (.resolve k) (w.setRun k (some ⟨ev :: rest, .resolved schema⟩))
  | pass (k : ℕ) (ev : BridgedEvent) (rest : List BridgedEvent)
      (hk : w.runs k = some ⟨ev :: rest, .fetched⟩) (hroute : w.route ev = none) :
      Effect b w (.resolve k) (w.setRun k (some ⟨ev :: rest, .marking⟩))
  | readAdmins (k : ℕ) (ev : BridgedEvent) (rest : List BridgedEvent) (schema : String)
      (hk : w.runs k = some ⟨ev :: rest, .resolved schema⟩) :
      Effect b w (.readAdmins k)
        (w.setRun k (some ⟨ev :: rest, .publishing schema (w.admins schema)⟩))
  | publish (k now : ℕ) (ev : BridgedEvent) (rest : List BridgedEvent) (schema : String)
      (admins : List TenantUser) (t : NotificationTables)
      (hk : w.runs k = some ⟨ev :: rest, .publishing schema admins⟩)
      (ht : PublishesTo b ev admins (w.tables schema) t) :
      Effect b w (.publish k now) ((w.setTables schema t).setRun k (some ⟨ev :: rest, .marking⟩))
  | mark (k : ℕ) (ev : BridgedEvent) (rest : List BridgedEvent)
      (hk : w.runs k = some ⟨ev :: rest, .marking⟩) :
      Effect b w (.mark k) ({ w with processed := w.processed.insert ev.id }.next k rest)
  | skip (a : BridgeAction) (k : ℕ) (ev : BridgedEvent) (rest : List BridgedEvent)
      (stage : BridgeStage) (hk : w.runs k = some ⟨ev :: rest, stage⟩) : Effect b w a (w.next k rest)
  | crash (k : ℕ) : Effect b w (.crash k) (w.setRun k none)

theorem effect_step (b : Bridge) (w : BridgeWorld) (a : BridgeAction) : Effect b w a (step b w a) := by
  cases a with
  | emit ev =>
    rw [step]
    split
    · exact .idle _
    · exact .emit ev ‹_›
  | setTenants tenants => exact .setTenants tenants
  | setUsers schema users => exact .setUsers schema users
  | setTemplates schema templates => exact .setTemplates schema templates
  | notify schema op => exact .notify schema op
  | purge schema old => exact .purge schema old
  | fetch k =>
    rw [step]
    split
    · exact .fetch k
    · exact .idle _
  | resolve k =>
    rw [step]
    split
    · next ev rest hk =>
      split
      · exact .resolve k ev rest _ hk ‹_›
      · exact .pass k ev rest hk ‹_›
    · exact .idle _
  | readAdmins k =>
    rw [step]
    split
    · exact .readAdmins k _ _ _ ‹_›
    · exact .idle _
  | publish k now =>
    rw [step]
    split
    · next ev rest schema admins hk =>
      split
      · next t ht => exact .publish k now ev rest schema admins t hk (publishesTo_of_ok ht)
      · exact .skip _ k ev rest _ hk
    · exact .idle _
  | mark k =>
    rw [step]
    split
    · exact .mark k _ _ ‹_›
    · exact .idle _
  | fail k =>
    rw [step]
    split
    · exact .skip _ k _ _ _ ‹_›
    · exact .idle _
  | crash k => exact .crash k

end BridgeWorld

/-! ## What was so once -/

section

variable (b : Bridge) (history : List BridgeAction)

/-- The event was there, and its tenant active with this schema. -/
def Routed (ev : BridgedEvent) (schema : String) : Prop :=
  Once (BridgeWorld.step b) .empty history fun w => ev ∈ w.outbox.rows ∧ w.route ev = some schema

/-- These were the active administrators of the schema. -/
def AdminsWere (schema : String) (admins : List TenantUser) : Prop :=
  Once (BridgeWorld.step b) .empty history fun w => w.admins schema = admins

/-- The feed of the schema had the administrator's notification of the event. -/
def Notified (schema : String) (ev : BridgedEvent) (user : TenantUser) : Prop :=
  Once (BridgeWorld.step b) .empty history fun w => bridgeKey ev user ∈ keysOf (w.tables schema).notices

/-- The tenant was unknown or inactive, or all who were administrators have been notified. -/
def Handled (ev : BridgedEvent) : Prop :=
  Once (BridgeWorld.step b) .empty history (fun w => w.route ev = none) ∨
    ∃ schema admins, Routed b history ev schema ∧ AdminsWere b history schema admins ∧
      ∀ user ∈ admins, Notified b history schema ev user

/-- The notification is an administrator's, of an event about the tenant. -/
def Owed (outbox : Keyed BridgedEvent.id) (schema : String) (n : Notice) : Prop :=
  ∃ ev admins user, ev ∈ outbox.rows ∧ Routed b history ev schema ∧
    AdminsWere b history schema admins ∧ user ∈ admins ∧ noticeFor b ev user = .ok n

/-- What a run that has come so far has found out. -/
def StageOk (ev : BridgedEvent) : BridgeStage → Prop
  | .fetched => True
  | .resolved schema => Routed b history ev schema
  | .publishing schema admins => Routed b history ev schema ∧ AdminsWere b history schema admins
  | .marking => Handled b history ev

structure RunOk (outbox : Keyed BridgedEvent.id) (r : BridgeRun) : Prop where
  rows : ∀ ev ∈ r.rows, ev ∈ outbox.rows
  stage : ∀ ev ∈ r.rows.head?, StageOk b history ev r.stage

structure BridgeInv (w : BridgeWorld) : Prop where
  owed : ∀ schema, ∀ n ∈ (w.tables schema).notices,
    Foreign b n.dedupeKey ∨ Owed b history w.outbox schema n
  distinct : ∀ schema, (keysOf (w.tables schema).notices).Nodup
  runs : ∀ k r, w.runs k = some r → RunOk b history w.outbox r
  processed : ∀ id ∈ w.processed, ∃ ev ∈ w.outbox.rows, ev.id = id ∧ Handled b history ev

end

/-! ## One more action -/

section

variable {b : Bridge} {history : List BridgeAction} {w : BridgeWorld}

theorem Handled.append {ev : BridgedEvent} (h : Handled b history ev) (a : BridgeAction) :
    Handled b (history ++ [a]) ev := by
  rcases h with hnone | ⟨schema, admins, hrouted, hadmins, hall⟩
  · exact .inl (hnone.append a)
  · refine .inr ⟨schema, admins, hrouted.append a, hadmins.append a, ?_⟩
    intro user huser
    exact (hall user huser).append a

theorem StageOk.append {ev : BridgedEvent} {stage : BridgeStage} (h : StageOk b history ev stage)
    (a : BridgeAction) : StageOk b (history ++ [a]) ev stage := by
  cases stage with
  | fetched => trivial
  | resolved schema =>
    have hrouted : Routed b history ev schema := h
    exact hrouted.append a
  | publishing schema admins => exact ⟨h.1.append a, h.2.append a⟩
  | marking => exact Handled.append h a

namespace BridgeInv

theorem append (h : BridgeInv b history w) (a : BridgeAction) : BridgeInv b (history ++ [a]) w := by
  refine ⟨?_, h.distinct, ?_, ?_⟩
  · intro schema n hn
    rcases h.owed schema n hn with hforeign | ⟨ev, admins, user, hev, hrouted, hadmins, huser, hnotice⟩
    · exact .inl hforeign
    · exact .inr ⟨ev, admins, user, hev, hrouted.append a, hadmins.append a, huser, hnotice⟩
  · intro k r hk
    have hok := h.runs k r hk
    exact ⟨hok.rows, fun ev hev => (hok.stage ev hev).append a⟩
  · intro id hid
    obtain ⟨ev, hev, hevId, hhandled⟩ := h.processed id hid
    exact ⟨ev, hev, hevId, hhandled.append a⟩

theorem setTables (h : BridgeInv b history w) {schema : String} {t : NotificationTables}
    (howed : ∀ n ∈ t.notices, n ∈ (w.tables schema).notices ∨ Foreign b n.dedupeKey ∨
      Owed b history w.outbox schema n)
    (hdistinct : (keysOf t.notices).Nodup) : BridgeInv b history (w.setTables schema t) := by
  refine ⟨?_, ?_, h.runs, h.processed⟩
  · intro schema' n hn
    change n ∈ (Function.update w.tables schema t schema').notices at hn
    by_cases hschema : schema' = schema
    · subst hschema
      rw [Function.update_self] at hn
      rcases howed n hn with hold | hnew
      · exact h.owed schema' n hold
      · exact hnew
    · rw [Function.update_of_ne hschema] at hn
      exact h.owed schema' n hn
  · intro schema'
    show (keysOf (Function.update w.tables schema t schema').notices).Nodup
    by_cases hschema : schema' = schema
    · subst hschema
      rw [Function.update_self]
      exact hdistinct
    · rw [Function.update_of_ne hschema]
      exact h.distinct schema'

theorem setRun (h : BridgeInv b history w) {k : ℕ} {run : Option BridgeRun}
    (hrun : ∀ r, run = some r → RunOk b history w.outbox r) : BridgeInv b history (w.setRun k run) := by
  refine ⟨h.owed, h.distinct, ?_, h.processed⟩
  intro j r hj
  change Function.update w.runs k run j = some r at hj
  by_cases hjk : j = k
  · subst hjk
    rw [Function.update_self] at hj
    exact hrun r hj
  · rw [Function.update_of_ne hjk] at hj
    exact h.runs j r hj

theorem next (h : BridgeInv b history w) {k : ℕ} {rest : List BridgedEvent}
    (hrest : ∀ ev ∈ rest, ev ∈ w.outbox.rows) : BridgeInv b history (w.next k rest) := by
  apply h.setRun
  intro r hr
  split at hr
  · cases hr
  · cases hr
    exact ⟨hrest, fun _ _ => trivial⟩

/-- The head of a run is at a stage. -/
theorem setStage (h : BridgeInv b history w) {k : ℕ} {ev : BridgedEvent} {rest : List BridgedEvent}
    {stage stage' : BridgeStage} (hk : w.runs k = some ⟨ev :: rest, stage⟩)
    (hstage : StageOk b history ev stage') :
    BridgeInv b history (w.setRun k (some ⟨ev :: rest, stage'⟩)) := by
  apply h.setRun
  intro r hr
  cases hr
  refine ⟨(h.runs k _ hk).rows, ?_⟩
  intro ev' hev'
  cases hev'
  exact hstage

/-- `history` ends with the action, and so has the states on both sides of it. -/
theorem effect {w' : BridgeWorld} {a : BridgeAction} (h : BridgeInv b history w)
    (hbefore : ∀ P, P w → Once (BridgeWorld.step b) .empty history P)
    (hafter : ∀ P, P w' → Once (BridgeWorld.step b) .empty history P) (hallowed : Allowed b a)
    (heffect : BridgeWorld.Effect b w a w') : BridgeInv b history w' := by
  cases heffect with
  | idle => exact h
  | emit ev hid =>
    have hgrow : ∀ ev' ∈ w.outbox.rows, ev' ∈ (w.outbox.store ev).rows := by
      intro ev' hev'
      refine Keyed.mem_store.mpr (.inr ⟨hev', ?_⟩)
      intro hsame
      exact hid (List.mem_map.mpr ⟨ev', hev', hsame⟩)
    refine ⟨?_, h.distinct, ?_, ?_⟩
    · intro schema n hn
      rcases h.owed schema n hn with hforeign | ⟨ev', admins, user, hev', hrest⟩
      · exact .inl hforeign
      · exact .inr ⟨ev', admins, user, hgrow ev' hev', hrest⟩
    · intro k r hk
      have hok := h.runs k r hk
      exact ⟨fun ev' hev' => hgrow ev' (hok.rows ev' hev'), hok.stage⟩
    · intro id hin
      obtain ⟨ev', hev', hrest⟩ := h.processed id hin
      exact ⟨ev', hgrow ev' hev', hrest⟩
  | setTenants | setUsers | setTemplates => exact ⟨h.owed, h.distinct, h.runs, h.processed⟩
  | notify schema op =>
    cases op with
    | publish templates now req =>
      cases hpublish : publish templates now req (w.tables schema) with
      | error err =>
        simp only [NotificationTables.step, hpublish]
        exact h.setTables (fun n hn => .inl hn) (h.distinct schema)
      | ok result =>
        simp only [NotificationTables.step, hpublish]
        obtain ⟨kind, _, hone⟩ := publishes_of_publish hpublish
        refine h.setTables ?_ (hone.distinct (h.distinct schema))
        intro n hn
        rcases hone.new n hn with hold | rfl
        · exact .inl hold
        · exact .inr (.inl hallowed)
    | putPreferences | dispatch | retry =>
      apply h.setTables
      · intro n hn
        rw [notices_step (by simp)] at hn
        exact .inl hn
      · rw [notices_step (by simp)]
        exact h.distinct schema
  | purge schema old =>
    have hsub := notices_purge old (w.tables schema)
    apply h.setTables
    · intro n hn
      exact .inl (hsub.subset hn)
    · exact (h.distinct schema).sublist (hsub.filterMap _)
  | fetch k =>
    apply h.next
    intro ev hev
    have hsorted := List.mem_of_mem_take hev
    rw [List.mem_insertionSort] at hsorted
    exact List.mem_of_mem_filter hsorted
  | resolve k ev rest schema hk hroute =>
    have hev := (h.runs k _ hk).rows ev List.mem_cons_self
    have hrouted : Routed b history ev schema :=
      hbefore (fun w => ev ∈ w.outbox.rows ∧ w.route ev = some schema) ⟨hev, hroute⟩
    exact h.setStage hk hrouted
  | pass k ev rest hk hroute =>
    have hnone : Once (BridgeWorld.step b) .empty history fun w => w.route ev = none :=
      hbefore (fun w => w.route ev = none) hroute
    exact h.setStage hk (.inl hnone)
  | readAdmins k ev rest schema hk =>
    have hrouted : Routed b history ev schema := (h.runs k _ hk).stage ev rfl
    exact h.setStage hk ⟨hrouted, hbefore (fun w' => w'.admins schema = w.admins schema) rfl⟩
  | publish k now ev rest schema admins t hk ht =>
    have hok := h.runs k _ hk
    obtain ⟨hrouted, hadmins⟩ : Routed b history ev schema ∧ AdminsWere b history schema admins :=
      hok.stage ev rfl
    have htables : BridgeInv b history (w.setTables schema t) := by
      refine h.setTables ?_ (ht.distinct (h.distinct schema))
      intro n hn
      rcases ht.new n hn with hold | ⟨user, huser, hnotice⟩
      · exact .inl hold
      · exact .inr (.inr ⟨ev, admins, user, hok.rows ev List.mem_cons_self, hrouted, hadmins, huser,
          hnotice⟩)
    refine htables.setStage hk (.inr ⟨schema, admins, hrouted, hadmins, ?_⟩)
    intro user huser
    apply hafter fun w' => bridgeKey ev user ∈ keysOf (w'.tables schema).notices
    show bridgeKey ev user ∈ keysOf (Function.update w.tables schema t schema).notices
    rw [Function.update_self]
    exact ht.keys user huser
  | mark k ev rest hk =>
    have hok := h.runs k _ hk
    have hhandled : Handled b history ev := hok.stage ev rfl
    have hmarked : BridgeInv b history { w with processed := w.processed.insert ev.id } := by
      refine ⟨h.owed, h.distinct, h.runs, ?_⟩
      intro id hid
      rcases List.mem_insert_iff.mp hid with rfl | hold
      · exact ⟨ev, hok.rows ev List.mem_cons_self, rfl, hhandled⟩
      · exact h.processed id hold
    exact hmarked.next fun ev' hev' => hok.rows ev' (List.mem_cons_of_mem _ hev')
  | skip _ k ev rest stage hk =>
    exact h.next fun ev' hev' => (h.runs k _ hk).rows ev' (List.mem_cons_of_mem _ hev')
  | crash k =>
    apply h.setRun
    intro r hr
    cases hr

theorem empty : BridgeInv b [] .empty := by
  refine ⟨?_, fun schema => List.nodup_nil, ?_, ?_⟩
  · intro schema n hn
    cases hn
  · intro k r hk
    cases hk
  · intro id hid
    cases hid

end BridgeInv

/-- By induction on the history, with its last action as the step. -/
theorem bridgeInv_run {history : List BridgeAction} (hallowed : ∀ a ∈ history, Allowed b a) :
    BridgeInv b history (run (BridgeWorld.step b) .empty history) := by
  refine history_invariant BridgeInv.empty ?_ hallowed
  intro front a h ha
  refine (h.append a).effect (fun P hp => Once.before hp a) ?_ ha (BridgeWorld.effect_step b _ a)
  intro P hp
  apply Once.now
  rw [run_append]
  exact hp

end

/-- Whatever is committed and whichever runs overlap, fail or are lost: a feed never has two
notifications of an event for an administrator; it has one only for someone who was an active
administrator, of an event about that tenant, with what the event says; and an event that is marked
as processed has been notified to all who were administrators, or its tenant was unknown or
inactive. -/
theorem bridge_notifies (b : Bridge) {history : List BridgeAction}
    (hallowed : ∀ a ∈ history, Allowed b a) :
    let w := run (BridgeWorld.step b) .empty history
    (∀ schema ev user, (keysOf (w.tables schema).notices).count (bridgeKey ev user) ≤ 1) ∧
    (∀ schema, ∀ ev ∈ w.outbox.rows, ∀ user, ∀ n ∈ (w.tables schema).notices,
      ev.eventType ∈ b.eventTypes → n.dedupeKey = some (bridgeKey ev user) →
      ∃ admins, ∃ user' ∈ admins, user'.id = user.id ∧ Routed b history ev schema ∧
        AdminsWere b history schema admins ∧ noticeFor b ev user' = .ok n) ∧
    ∀ ev ∈ w.outbox.rows, ev.id ∈ w.processed → Handled b history ev := by
  intro w
  have hinv : BridgeInv b history w := bridgeInv_run hallowed
  refine ⟨?_, ?_, ?_⟩
  · intro schema ev user
    exact List.nodup_iff_count_le_one.mp (hinv.distinct schema) _
  · intro schema ev hev user n hn htype hkey
    rcases hinv.owed schema n hn with hforeign | ⟨ev', admins, user', hev', hrouted, hadmins, huser', hnotice⟩
    · exact absurd hkey (hforeign ev user htype)
    · have hdedupe : n.dedupeKey = some (bridgeKey ev' user') := by
        rw [noticeFor] at hnotice
        obtain ⟨found, -, hn'⟩ := except_bind_eq_ok.mp hnotice
        cases hn'
        rfl
      obtain ⟨hid, huserId⟩ := bridgeKey_inj (Option.some.inj (hdedupe.symm.trans hkey))
      obtain rfl := w.outbox.eq_of_key hev' hev hid
      exact ⟨admins, user', huser', huserId, hrouted, hadmins, hnotice⟩
  · intro ev hev hprocessed
    obtain ⟨ev', hev', hid, hhandled⟩ := hinv.processed ev.id hprocessed
    obtain rfl := w.outbox.eq_of_key hev' hev hid
    exact hhandled

/-! ## Two runs on one event -/

def overdueInvoice : BridgedEvent where
  id := ⟨3001, by decide⟩
  eventType := "BillingInvoiceOverdue"
  payload := [("tenant_id", "t1"), ("invoice_number", "INV-1"), ("amount_outstanding", "100.00"),
    ("currency", "KES")]
  occurredAt := 5

def demoAdmin : TenantUser := ⟨⟨3007, by decide⟩, "admin@demo", true, true, none⟩

/-- The first run is lost before it marks the event. -/
def overlappingRuns : List BridgeAction :=
  [.emit overdueInvoice, .setTenants [⟨"t1", "tenant_demo", true⟩], .setUsers "tenant_demo" [demoAdmin],
   .fetch 0, .fetch 1, .resolve 0, .resolve 1, .readAdmins 0, .readAdmins 1, .publish 0 6, .crash 0,
   .publish 1 7, .mark 1]

theorem bridge_notifies_overlapping :
    (keysOf ((run (BridgeWorld.step billingBridge) .empty overlappingRuns).tables
      "tenant_demo").notices).count (bridgeKey overdueInvoice demoAdmin) = 1 ∧
    Handled billingBridge overlappingRuns overdueInvoice := by
  have hallowed : ∀ a ∈ overlappingRuns, Allowed billingBridge a := by
    simp [overlappingRuns, Allowed]
  obtain ⟨hcount, _, hhandled⟩ := bridge_notifies billingBridge hallowed
  refine ⟨le_antisymm (hcount _ _ _) (by decide +kernel), hhandled overdueInvoice ?_ (by decide +kernel)⟩
  exact List.mem_cons_self

end SaccoPlatform.Notifications
