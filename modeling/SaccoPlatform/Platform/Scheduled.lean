import SaccoPlatform.Platform.Beat
import SaccoPlatform.Platform.Drift

/-!
# Scheduled cancellations

`cancel(cancel_at_period_end=True)` only marks the subscription. Its docstring leaves the rest to
"the beat job at period end", but neither task looks at the marker: the assessment goes by the status
and the dates, and so does invoicing. The cancellation takes effect exactly when somebody else
cancels the subscription in time.
-/

namespace SaccoPlatform.Platform

open Lib Session

/-! ## Runs -/

/-- A call of one of the services, or a run of a daily task. -/
inductive BillingAction where
  | operate (op : PlatformOp)
  | invoice (op : InvoiceOp)
  | createPlan (input : PlanInput)
  | updatePlan (planId : Uuid) (changes : PlanChanges)
  | assess (m : Moment)
  | generate (m : Moment)

def BillingAction.perform (cfg : OffboardingSettings) : BillingAction → PlatformCall Unit
  | .operate op => op.perform cfg
  | .invoice op => op.perform
  | .createPlan input => do
    let _ ← PlanService.create input
  | .updatePlan planId changes => PlanService.update planId changes
  | .assess m => assessSubscriptionState m
  | .generate m => generateNextPeriodInvoices m

/-- One action in a transaction of its own. -/
def BillingAction.step (cfg : OffboardingSettings) (db : Db) (action : BillingAction) : Db :=
  commit (action.perform cfg) db

/-- The status of a subscription. -/
def Db.status? (db : Db) (subscriptionId : Uuid) : Option SubscriptionStatus :=
  (db.subscriptions.get? subscriptionId).map (·.status)

/-! ## Operations on invoices leave the accounts -/

section

variable {db db' : Db} {id : Uuid} {u : Unit}

/-- What no operation on an invoice changes. -/
def InvoiceRow.stub (i : InvoiceRow) : Uuid × Period := (i.subscriptionId, i.period)

theorem periods_eq_stubs (db : Db) (id : Uuid) :
    db.periods id = ((db.invoices.rows.map InvoiceRow.stub).filter fun s => s.1 = id).map Prod.snd := by
  unfold Db.periods
  rw [List.filter_map, List.map_map]
  rfl

theorem account_of_stubs {invoices : Keyed (fun i : InvoiceRow => i.id)}
    (h : invoices.rows.map InvoiceRow.stub = db.invoices.rows.map InvoiceRow.stub) (id : Uuid) :
    Db.account { db with invoices := invoices } id = db.account id := by
  have hperiods : Db.periods { db with invoices := invoices } id = db.periods id := by
    rw [periods_eq_stubs, periods_eq_stubs]
    show ((invoices.rows.map InvoiceRow.stub).filter _).map _ = _
    rw [h]
  unfold Db.account
  rw [hperiods]

theorem account_writeInvoice {invoiceId : Uuid} {invoice : InvoiceRow}
    (hinvoice : db.invoices.get? invoiceId = some invoice) (row : InvoiceRow)
    (hstub : row.stub = invoice.stub) (id : Uuid) :
    Db.account { db with invoices := db.invoices.put row } id = db.account id := by
  apply account_of_stubs
  apply Keyed.map_put (g := fun s : Uuid × Period => s.2.invoiceId) fun _ => rfl
  rw [hstub]
  exact List.mem_map_of_mem (Keyed.mem_of_get? hinvoice)

theorem account_confirm {m : Moment} {paymentId : Uuid} {confirmedBy : Option Uuid}
    (h : PaymentService.confirm m paymentId confirmedBy db = .ok u db') :
    db'.account id = db.account id := by
  obtain ⟨pmt, invoice, newPaid, -, -, -, hinvoice, -, -, rfl⟩ := confirm_eq_ok.mp h
  exact account_writeInvoice hinvoice (invoice.credited m.now newPaid) rfl id

theorem account_void {m : Moment} {invoiceId : Uuid} {reason : String}
    (h : InvoiceService.void m invoiceId reason db = .ok u db') :
    db'.account id = db.account id := by
  obtain ⟨invoice, hinvoice, -, -, rfl⟩ := void_eq_ok.mp h
  exact account_writeInvoice hinvoice
    { invoice with status := .void, voidedAt := some m.now, voidReason := some reason } rfl id

theorem account_invoiceOp (op : InvoiceOp) (h : op.perform db = .ok u db') :
    db'.account id = db.account id := by
  cases op with
  | record m input =>
    obtain ⟨paymentId, db₁, hrecord, hpure⟩ := bind_eq_ok.mp h
    obtain ⟨-, rfl⟩ := pure_eq_ok.mp hpure
    obtain ⟨rfl, -⟩ | ⟨amount, -, -, rfl⟩ := record_eq_ok hrecord <;> rfl
  | confirm m paymentId confirmedBy => exact account_confirm h
  | executeConfirm m paymentId =>
    unfold InvoiceOp.perform executeConfirmPayment at h
    rw [get_bind_eq_ok] at h
    split at h
    · obtain ⟨-, rfl⟩ := pure_eq_ok.mp h
      rfl
    · exact account_confirm h
  | reject paymentId rejectedBy =>
    obtain ⟨pmt, -, -, -, rfl⟩ := reject_eq_ok.mp h
    rfl
  | void m invoiceId reason => exact account_void h
  | executeVoid m invoiceId reason =>
    unfold InvoiceOp.perform executeVoidInvoice at h
    rw [get_bind_eq_ok] at h
    split at h
    · obtain ⟨-, rfl⟩ := pure_eq_ok.mp h
      rfl
    · exact account_void h
  | markOverdue today invoiceId =>
    obtain ⟨invoice, hinvoice, rfl⟩ := markOverdue_eq_ok.mp h
    split
    · exact account_writeInvoice hinvoice { invoice with status := .overdue } rfl id
    · rfl
  | markOverdueBatch cutoff =>
    unfold InvoiceOp.perform InvoiceService.markOverdueBatch at h
    rw [modify_eq_ok] at h
    subst h
    apply account_of_stubs
    refine Keyed.map_foldl_put (g := fun s : Uuid × Period => s.2.invoiceId)
      (h := fun i : InvoiceRow => { i with status := .overdue }) (fun _ => rfl) (fun _ => rfl) ?_
    exact fun i hi => List.mem_map_of_mem (List.mem_of_mem_filter hi)

end

/-! ## A cancelled subscription stays cancelled -/

section

variable {db db' : Db} {id : Uuid} {u : Unit}

theorem status?_of_account (h : db'.account id = db.account id) : db'.status? id = db.status? id := by
  have hget : db'.subscriptions.get? id = db.subscriptions.get? id := congrArg Account.sub h
  unfold Db.status?
  rw [hget]

theorem Written.get?_of_ne {subs subs' : Subscriptions} {row : SubscriptionRow}
    (hwritten : Written subs subs' row) (h : id ≠ row.id) : subs'.get? id = subs.get? id := by
  ext s
  have hiff : ∀ {subs : Subscriptions}, subs.get? id = some s ↔ s ∈ subs.rows ∧ s.id = id :=
    Keyed.get?_eq_some
  rw [hiff, hiff, hwritten.rows]
  constructor
  · rintro ⟨rfl | ⟨hs, -⟩, hid⟩
    · exact absurd hid.symm h
    · exact ⟨hs, hid⟩
  · rintro ⟨hs, rfl⟩
    exact ⟨.inr ⟨hs, h⟩, rfl⟩

/-- A command that writes another subscription than a cancelled one. -/
theorem cancelled_written {subs : Subscriptions} {row sub : SubscriptionRow} {subscriptionId : Uuid}
    (hwritten : Written db.subscriptions subs row)
    (hsub : db.subscriptions.get? subscriptionId = some sub) (hopen : sub.status ≠ .cancelled)
    (hid : row.id = sub.id) (h : db.status? id = some .cancelled) :
    (subs.get? id).map (·.status) = some .cancelled := by
  have hne : id ≠ row.id := by
    rintro rfl
    have hkey : sub.id = subscriptionId := Db.id_of_subscription hsub
    rw [Db.status?, hid, hkey, hsub] at h
    exact hopen (Option.some.inj h)
  rw [hwritten.get?_of_ne hne]
  exact h

theorem cancelled_billingOp (op : BillingOp) (hok : op.perform db = .ok u db')
    (h : db.status? id = some .cancelled) : db'.status? id = some .cancelled := by
  cases op with
  | assign m tenantId planId startDate =>
    obtain ⟨newId, db₁, hassign, hpure⟩ := bind_eq_ok.mp hok
    obtain ⟨-, rfl⟩ := pure_eq_ok.mp hpure
    obtain ⟨t, plan, periodEnd, subs, -, -, -, -, -, hinsert, -, rfl⟩ := assign_eq_ok.mp hassign
    obtain ⟨sub, hsub, hstatus⟩ := Option.map_eq_some_iff.mp h
    have hlt : sub.id < db.subscriptions.fresh := Keyed.lt_fresh (Keyed.mem_of_get? hsub)
    have hid : sub.id = id := Db.id_of_subscription hsub
    have hget : subs.get? id = db.subscriptions.get? id :=
      (written_insert hinsert).get?_of_ne (hid ▸ hlt.ne)
    show (subs.get? id).map _ = _
    rw [hget, hsub, Option.map_some, hstatus]
  | cancel m subscriptionId reason atPeriodEnd =>
    cases atPeriodEnd with
    | false =>
      obtain ⟨sub, subs, t, hsub, hopen, hput, -, rfl⟩ := cancel_now_eq_ok.mp hok
      exact cancelled_written (written_put hput hsub rfl rfl) hsub hopen rfl h
    | true =>
      obtain ⟨sub, subs, hsub, hopen, hput, rfl⟩ := cancel_later_eq_ok.mp hok
      exact cancelled_written (written_put hput hsub rfl rfl) hsub hopen rfl h
  | reactivate m subscriptionId =>
    obtain ⟨sub, plan, periodEnd, subs, t, hsub, hstatus, -, -, hput, -, rfl⟩ :=
      reactivate_eq_ok.mp hok
    have hopen : sub.status ≠ .cancelled := by
      rcases hstatus with h | h <;> simp [h]
    exact cancelled_written (written_put hput hsub rfl rfl) hsub hopen rfl h
  | transitionToPastDue m subscriptionId =>
    obtain ⟨sub, plan, graceEnd, subs, t, hsub, hstatus, -, -, hput, -, rfl⟩ :=
      transitionToPastDue_eq_ok.mp hok
    have hopen : sub.status ≠ .cancelled := by
      rcases hstatus with h | h <;> simp [h]
    exact cancelled_written (written_put hput hsub rfl rfl) hsub hopen rfl h
  | transitionToSuspended subscriptionId =>
    obtain ⟨sub, subs, t, hsub, hstatus, hput, -, rfl⟩ := transitionToSuspended_eq_ok.mp hok
    have hopen : sub.status ≠ .cancelled := by simp [hstatus]
    exact cancelled_written (written_put hput hsub rfl rfl) hsub hopen rfl h
  | suspend tenantId =>
    obtain ⟨t, -, rfl⟩ := suspend_eq_ok.mp hok
    split
    · exact h
    · exact h
  | reactivateTenant tenantId =>
    obtain ⟨t, -, -, rfl⟩ := reactivateTenant_eq_ok.mp hok
    exact h

theorem invoices_billingOp (op : BillingOp) (hok : op.perform db = .ok u db') :
    db'.invoices = db.invoices := by
  cases op with
  | assign m tenantId planId startDate =>
    obtain ⟨newId, db₁, hassign, hpure⟩ := bind_eq_ok.mp hok
    obtain ⟨-, rfl⟩ := pure_eq_ok.mp hpure
    obtain ⟨t, plan, periodEnd, subs, -, -, -, -, -, -, -, rfl⟩ := assign_eq_ok.mp hassign
    rfl
  | cancel m subscriptionId reason atPeriodEnd =>
    cases atPeriodEnd with
    | false =>
      obtain ⟨sub, subs, t, -, -, -, -, rfl⟩ := cancel_now_eq_ok.mp hok
      rfl
    | true =>
      obtain ⟨sub, subs, -, -, -, rfl⟩ := cancel_later_eq_ok.mp hok
      rfl
  | reactivate m subscriptionId =>
    obtain ⟨sub, plan, periodEnd, subs, t, -, -, -, -, -, -, rfl⟩ := reactivate_eq_ok.mp hok
    rfl
  | transitionToPastDue m subscriptionId =>
    obtain ⟨sub, plan, graceEnd, subs, t, -, -, -, -, -, -, rfl⟩ := transitionToPastDue_eq_ok.mp hok
    rfl
  | transitionToSuspended subscriptionId =>
    obtain ⟨sub, subs, t, -, -, -, -, rfl⟩ := transitionToSuspended_eq_ok.mp hok
    rfl
  | suspend tenantId =>
    obtain ⟨t, -, rfl⟩ := suspend_eq_ok.mp hok
    split <;> rfl
  | reactivateTenant tenantId =>
    obtain ⟨t, -, -, rfl⟩ := reactivateTenant_eq_ok.mp hok
    rfl

end

/-! ## What the actions do -/

section

variable {db db' : Db} {id : Uuid} {u : Unit}

theorem moves_storeMoney {R : Db → Db → Prop} [IsPreorder Db R] (q : ℚ) :
    Moves R (storeMoney q) := by
  unfold storeMoney
  cases (Numeric.ofRat? q : Option Money) with
  | none => exact moves_abort
  | some amount => exact moves_pure amount

/-- The commands on plans write no other table. -/
theorem moves_createPlan (input : PlanInput) :
    Moves (Keeps fun db : Db => (db.subscriptions, db.invoices)) (PlanService.create input) := by
  unfold PlanService.create
  refine moves_bind moves_get fun db => ?_
  refine moves_bind (moves_storeMoney _) fun basePrice => ?_
  refine moves_bind (moves_constraint _ _) fun _ => ?_
  exact moves_bind (moves_modify fun _ => rfl) fun _ => moves_pure _

theorem moves_updatePlan (planId : Uuid) (changes : PlanChanges) :
    Moves (Keeps fun db : Db => (db.subscriptions, db.invoices))
      (PlanService.update planId changes) := by
  unfold PlanService.update
  refine moves_bind moves_get fun db => ?_
  refine moves_bind (moves_orRaise _ _) fun plan => ?_
  refine moves_bind ?_ fun basePrice => ?_
  · cases changes.basePrice with
    | none => exact moves_pure _
    | some q => exact moves_storeMoney q
  · exact moves_bind (moves_constraint _ _) fun _ => moves_modify fun _ => rfl

theorem status_generate (m : Moment) (db : Db) (id : Uuid) :
    (commit (generateNextPeriodInvoices m) db).status? id = db.status? id := by
  obtain ⟨fresh, haccount⟩ := account_generate m db id
  have hstatus := status_generated (db.account id) m.today fresh
  rw [← haccount] at hstatus
  exact hstatus

/-- An assessment cancels nothing. -/
theorem cancelled_assess (m : Moment) (db : Db) (id : Uuid) :
    (commit (assessSubscriptionState m) db).status? id = some .cancelled ↔
      db.status? id = some .cancelled := by
  obtain hsame | ⟨sub, sub', hsub, hlapses, haccount⟩ := account_assess m db id
  · rw [status?_of_account hsame]
  · have hget : (commit (assessSubscriptionState m) db).subscriptions.get? id
        = some (sub'.blocked m.today) := congrArg Account.sub haccount
    have hblocked : (sub'.blocked m.today).status = .cancelled ↔ sub'.status = .cancelled := by
      unfold SubscriptionRow.blocked
      by_cases hover : sub'.graceOverOn m.today = true
      · have hpastDue : sub'.status = .pastDue := by
          simp only [SubscriptionRow.graceOverOn, Bool.and_eq_true, decide_eq_true_eq] at hover
          exact hover.1
        simp [hover, hpastDue]
      · simp [hover]
    have hlapsed : sub'.status = .cancelled ↔ sub.status = .cancelled := by
      unfold SubscriptionRow.Lapses at hlapses
      by_cases hexpired : sub.expiredOn m.today = true
      · rw [if_pos hexpired] at hlapses
        obtain ⟨plan, graceEnd, -, -, rfl⟩ := hlapses
        simp only [SubscriptionRow.expiredOn, Bool.and_eq_true, Bool.or_eq_true,
          decide_eq_true_eq] at hexpired
        obtain ⟨hstatus | hstatus, -⟩ := hexpired <;> simp [hstatus]
      · rw [if_neg hexpired] at hlapses
        rw [hlapses]
    simp only [Db.status?, hget, hsub, Option.map_some, Option.some.injEq]
    exact hblocked.trans hlapsed

theorem periods_of_invoices (h : db'.invoices = db.invoices) : db'.periods id = db.periods id := by
  unfold Db.periods
  rw [h]

theorem invoices_platformOp (cfg : OffboardingSettings) (op : PlatformOp)
    (h : op.perform cfg db = .ok u db') : db'.invoices = db.invoices := by
  cases op with
  | bill op => exact invoices_billingOp op h
  | offboard op =>
    obtain ⟨db₁, -, -, ⟨-, hinvoices⟩, hrest⟩ := offboardingOp_cases cfg op h
    obtain ⟨-, rfl⟩ | ⟨m, subscriptionId, reason, -, hcancel⟩ := hrest
    · exact hinvoices
    · exact (invoices_billingOp (.cancel m subscriptionId reason false) hcancel).trans hinvoices

theorem cancelled_platformOp (cfg : OffboardingSettings) (op : PlatformOp)
    (hok : op.perform cfg db = .ok u db') (h : db.status? id = some .cancelled) :
    db'.status? id = some .cancelled := by
  cases op with
  | bill op => exact cancelled_billingOp op hok h
  | offboard op =>
    obtain ⟨db₁, -, hsubs, -, hrest⟩ := offboardingOp_cases cfg op hok
    have h₁ : db₁.status? id = some .cancelled := by
      rw [Db.status?, hsubs]
      exact h
    obtain ⟨-, rfl⟩ | ⟨m, subscriptionId, reason, -, hcancel⟩ := hrest
    · exact h₁
    · exact cancelled_billingOp (.cancel m subscriptionId reason false) hcancel h₁

/-- Only `generate_next_period_invoices` adds periods. -/
theorem periods_step (cfg : OffboardingSettings) (db : Db) (action : BillingAction)
    (h : ∀ m, action ≠ .generate m) : (action.step cfg db).periods id = db.periods id := by
  cases action with
  | operate op =>
    refine commit_keeps (P := fun db' : Db => db'.periods id = db.periods id) rfl ?_
    exact fun u db' hok => periods_of_invoices (invoices_platformOp cfg op hok)
  | invoice op =>
    refine commit_keeps (P := fun db' : Db => db'.periods id = db.periods id) rfl ?_
    exact fun u db' hok => congrArg Account.periods (account_invoiceOp op hok)
  | createPlan input =>
    have hmoves := moves_bind (moves_createPlan input) fun _ => moves_pure ()
    exact periods_of_invoices (congrArg Prod.snd (moves_commit hmoves db))
  | updatePlan planId changes =>
    exact periods_of_invoices (congrArg Prod.snd (moves_commit (moves_updatePlan planId changes) db))
  | assess m =>
    obtain hsame | ⟨sub, sub', -, -, haccount⟩ := account_assess m db id
    · exact congrArg Account.periods hsame
    · exact congrArg Account.periods haccount
  | generate m => exact absurd rfl (h m)

theorem cancelled_step (cfg : OffboardingSettings) (db : Db) (action : BillingAction)
    (h : db.status? id = some .cancelled) : (action.step cfg db).status? id = some .cancelled := by
  have hsame : ∀ {db' : Db}, db'.subscriptions = db.subscriptions →
      db'.status? id = some .cancelled := by
    intro db' hsubs
    rw [Db.status?, hsubs]
    exact h
  cases action with
  | operate op =>
    refine commit_keeps (P := fun db' : Db => db'.status? id = some .cancelled) h ?_
    exact fun u db' hok => cancelled_platformOp cfg op hok h
  | invoice op =>
    refine commit_keeps (P := fun db' : Db => db'.status? id = some .cancelled) h ?_
    exact fun u db' hok => (status?_of_account (account_invoiceOp op hok)).trans h
  | createPlan input =>
    have hmoves := moves_bind (moves_createPlan input) fun _ => moves_pure ()
    exact hsame (congrArg Prod.fst (moves_commit hmoves db))
  | updatePlan planId changes =>
    exact hsame (congrArg Prod.fst (moves_commit (moves_updatePlan planId changes) db))
  | assess m => exact (cancelled_assess m db id).mpr h
  | generate m => exact (status_generate m db id).trans h

end

/-! ## When a scheduled cancellation takes effect -/

/-- The cancellation of a subscription at the end of its period takes effect in a run: no invoice is
added for a period that starts then or later, and from the first assessment after that day on the
subscription is cancelled. -/
structure TakesEffect (cfg : OffboardingSettings) (id : Uuid) (periodEnd : Date) (db : Db)
    (actions : List BillingAction) : Prop where
  unbilled : ∀ front, front <+: actions →
    ((run (BillingAction.step cfg) db front).periods id).filter (fun p => periodEnd ≤ p.start)
      = (db.periods id).filter fun p => periodEnd ≤ p.start
  inactive : ∀ front m later, front ++ .assess m :: later <+: actions → periodEnd < m.today →
    (run (BillingAction.step cfg) db (front ++ .assess m :: later)).status? id ≠ some .active ∧
      (run (BillingAction.step cfg) db (front ++ .assess m :: later)).status? id ≠ some .trialing
  ended : ∀ front m, front ++ [.assess m] <+: actions → periodEnd < m.today →
    (∀ m', .assess m' ∈ front → ¬ periodEnd < m'.today) →
    (run (BillingAction.step cfg) db (front ++ [.assess m])).status? id = some .cancelled

/-- The action does not bill the subscription for a period from `periodEnd` on. -/
def BillingAction.Spares (id : Uuid) (periodEnd : Date) (db : Db) : BillingAction → Prop
  | .generate m => periodEnd ≤ m.today → (db.account id).bills? m.today = none
  | _ => True

/-- An assessment after `periodEnd` finds the subscription cancelled. -/
def BillingAction.FindsEnded (id : Uuid) (periodEnd : Date) (db : Db) : BillingAction → Prop
  | .assess m => periodEnd < m.today → db.status? id = some .cancelled
  | _ => True

instance (id : Uuid) (periodEnd : Date) (db : Db) (action : BillingAction) :
    Decidable (action.Spares id periodEnd db) :=
  match action with
  | .generate m => inferInstanceAs (Decidable (periodEnd ≤ m.today → _ = _))
  | .operate _ | .invoice _ | .createPlan _ | .updatePlan _ _ | .assess _ =>
    inferInstanceAs (Decidable True)

instance (id : Uuid) (periodEnd : Date) (db : Db) (action : BillingAction) :
    Decidable (action.FindsEnded id periodEnd db) :=
  match action with
  | .assess m => inferInstanceAs (Decidable (periodEnd < m.today → _ = _))
  | .operate _ | .invoice _ | .createPlan _ | .updatePlan _ _ | .generate _ =>
    inferInstanceAs (Decidable True)

section

variable (cfg : OffboardingSettings) {id : Uuid} {periodEnd : Date}

/-- One action adds no late period exactly when it spares the subscription. -/
theorem late_periods_step (db : Db) (action : BillingAction) :
    ((action.step cfg db).periods id).filter (fun p => periodEnd ≤ p.start)
        = (db.periods id).filter (fun p => periodEnd ≤ p.start) ↔
      action.Spares id periodEnd db := by
  cases action with
  | generate m =>
    obtain ⟨fresh, haccount⟩ := account_generate m db id
    have hperiods : (BillingAction.step cfg db (.generate m)).periods id =
        db.periods id ++ ((db.account id).bills? m.today).toList.map fun periodEnd =>
          ⟨fresh, m.today, periodEnd⟩ :=
      (congrArg Account.periods haccount).trans (periods_generated _ m.today fresh)
    rw [hperiods, List.filter_append, List.append_right_eq_self, BillingAction.Spares]
    cases hbills : (db.account id).bills? m.today with
    | none => simp
    | some newEnd => simp
  | _ =>
    refine iff_of_true (congrArg (List.filter _) (periods_step cfg db _ ?_)) trivial
    intro m h
    cases h

theorem unbilled_iff (db : Db) (actions : List BillingAction) :
    (∀ front, front <+: actions →
      ((run (BillingAction.step cfg) db front).periods id).filter (fun p => periodEnd ≤ p.start)
        = (db.periods id).filter fun p => periodEnd ≤ p.start) ↔
      Along (BillingAction.step cfg) (BillingAction.Spares id periodEnd) db actions := by
  have hstep : ∀ (db' : Db) (action : BillingAction), True →
      (db'.periods id).filter (fun p => periodEnd ≤ p.start)
        = (db.periods id).filter (fun p => periodEnd ≤ p.start) →
      (((action.step cfg db').periods id).filter (fun p => periodEnd ≤ p.start)
          = (db.periods id).filter (fun p => periodEnd ≤ p.start) ↔
        action.Spares id periodEnd db') := by
    intro db' action _ hsame
    rw [← hsame]
    exact late_periods_step cfg db' action
  exact always_iff_along (fun _ _ _ _ => trivial) hstep trivial rfl actions

theorem cancelled_run (db : Db) (actions : List BillingAction) (h : db.status? id = some .cancelled) :
    (run (BillingAction.step cfg) db actions).status? id = some .cancelled :=
  run_invariant_of_step (cancelled_step cfg) actions h

/-- The first assessment after the end leaves the subscription cancelled only where it was. -/
theorem findsEnded_of_ended (db : Db) (actions : List BillingAction)
    (h : ∀ front m, front ++ [.assess m] <+: actions → periodEnd < m.today →
      (∀ m', .assess m' ∈ front → ¬ periodEnd < m'.today) →
      (run (BillingAction.step cfg) db (front ++ [.assess m])).status? id = some .cancelled) :
    Along (BillingAction.step cfg) (BillingAction.FindsEnded id periodEnd) db actions := by
  induction actions generalizing db with
  | nil => trivial
  | cons action rest ih =>
    by_cases hlate : ∃ m, action = .assess m ∧ periodEnd < m.today
    · -- from here on the subscription is cancelled
      obtain ⟨m, rfl, hm⟩ := hlate
      have hone : [] ++ [BillingAction.assess m] <+: .assess m :: rest :=
        (List.prefix_cons_inj _).mpr List.nil_prefix
      have hcancelled : db.status? id = some .cancelled :=
        (cancelled_assess m db id).mp (h [] m hone hm fun _ hmem => absurd hmem List.not_mem_nil)
      refine along_of_invariant (cancelled_step cfg) ?_ hcancelled _
      intro db' action' hcancelled'
      cases action' with
      | assess m' => exact fun _ => hcancelled'
      | _ => trivial
    · refine ⟨?_, ih (action.step cfg db) ?_⟩
      · cases action with
        | assess m => exact fun hm => absurd ⟨m, rfl, hm⟩ hlate
        | _ => trivial
      · intro front m hprefix hm hfront
        refine h (action :: front) m ((List.prefix_cons_inj _).mpr hprefix) hm ?_
        intro m' hmem hm'
        rcases List.mem_cons.mp hmem with rfl | hmem
        · exact hlate ⟨m', rfl, hm'⟩
        · exact hfront m' hmem hm'

theorem cancelled_of_findsEnded {db : Db} {front : List BillingAction} {m : Moment}
    {later : List BillingAction}
    (h : Along (BillingAction.step cfg) (BillingAction.FindsEnded id periodEnd) db
      (front ++ .assess m :: later)) (hm : periodEnd < m.today) :
    (run (BillingAction.step cfg) db (front ++ .assess m :: later)).status? id = some .cancelled := by
  obtain ⟨-, hassess, -⟩ := along_append.mp h
  rw [run_append]
  exact cancelled_run cfg _ _ (hassess hm)

theorem takesEffect_iff (db : Db) (actions : List BillingAction) :
    TakesEffect cfg id periodEnd db actions ↔
      Along (BillingAction.step cfg)
        (fun db action => action.Spares id periodEnd db ∧ action.FindsEnded id periodEnd db)
        db actions := by
  rw [along_and]
  constructor
  · intro h
    exact ⟨(unbilled_iff cfg db actions).mp h.unbilled, findsEnded_of_ended cfg db actions h.ended⟩
  · rintro ⟨hspares, hended⟩
    have hcancelled : ∀ front m later, front ++ .assess m :: later <+: actions →
        periodEnd < m.today →
        (run (BillingAction.step cfg) db (front ++ .assess m :: later)).status? id
          = some .cancelled := by
      rintro front m later ⟨rest, rfl⟩ hm
      exact cancelled_of_findsEnded cfg (along_append.mp hended).1 hm
    refine ⟨(unbilled_iff cfg db actions).mpr hspares, ?_, ?_⟩
    · intro front m later hprefix hm
      rw [hcancelled front m later hprefix hm]
      decide
    · intro front m hprefix hm _
      exact hcancelled front m [] hprefix hm

/-- `cancel(cancel_at_period_end=True)` only marks the subscription, and the cancellation takes effect
in a run that follows if and only if no run of `generate_next_period_invoices` on the last day of the
period or later bills the subscription, and every assessment after that day finds it cancelled
already. -/
theorem scheduled_cancellation_iff {db db' : Db} {m : Moment} {reason : String}
    {sub : SubscriptionRow} {u : Unit} (hsub : db.subscriptions.get? id = some sub)
    (hcancel : SubscriptionService.cancel m id reason true db = .ok u db')
    (actions : List BillingAction) :
    db'.account id = (db.account id).put
        { sub with cancelledAt := some m.now, cancellationReason := some reason } ∧
      (TakesEffect cfg id sub.currentPeriodEnd db' actions ↔
        Along (BillingAction.step cfg)
          (fun db action => action.Spares id sub.currentPeriodEnd db ∧
            action.FindsEnded id sub.currentPeriodEnd db) db' actions) := by
  refine ⟨?_, takesEffect_iff cfg db' actions⟩
  obtain ⟨sub', subs, hsub', -, hput, rfl⟩ := cancel_later_eq_ok.mp hcancel
  obtain rfl : sub = sub' := Option.some.inj (hsub.symm.trans hsub')
  obtain rfl : sub.id = id := Db.id_of_subscription hsub
  have hget : subs.get? sub.id
      = some { sub with cancelledAt := some m.now, cancellationReason := some reason } := by
    rw [Subscriptions.toKeyed_of_put? hput]
    exact Keyed.get?_put_self hsub rfl
  unfold Db.account
  rw [hget]
  rfl

end

/-! ## A tenant that was to be cancelled -/

/-- The sample tenant with its first subscription. -/
def assignedDb : Db :=
  PlatformOp.step defaultSettings plannedDb (.bill (.assign ⟨0, dayOne⟩ 1 3 none))

/-- The subscription is to end with its period. -/
def scheduledDb : Db :=
  PlatformOp.step defaultSettings assignedDb (.bill (.cancel ⟨1, dayOne⟩ 1 "left" true))

/-- The day on which the first period ends. -/
def firstEnd : Date := .ofOrdinal 739030

theorem firstEnd_assigned :
    (assignedDb.subscriptions.get? 1).map (·.currentPeriodEnd) = some firstEnd := by
  decide +kernel

theorem scheduledDb_eq :
    SubscriptionService.cancel ⟨1, dayOne⟩ 1 "left" true assignedDb = .ok () scheduledDb := by
  decide +kernel

/-- The subscription is cancelled at once after all, before the tasks run. -/
def cancelledInTime : List BillingAction :=
  [.operate (.bill (.cancel ⟨2, dayOne⟩ 1 "left" false)), .generate ⟨3, firstEnd⟩,
    .assess ⟨4, ⟨739031, by decide⟩⟩]

theorem scheduled_cancellation_umoja :
    TakesEffect defaultSettings 1 firstEnd scheduledDb cancelledInTime := by
  obtain ⟨sub, hsub, hend⟩ := Option.map_eq_some_iff.mp firstEnd_assigned
  have heffect :=
    (scheduled_cancellation_iff defaultSettings hsub scheduledDb_eq cancelledInTime).2.mpr
  rw [hend] at heffect
  exact heffect (by decide +kernel)

/-- The tasks run on the day the period ends, and again when the next one has passed. -/
def leftAlone : List BillingAction := [.generate ⟨2, firstEnd⟩, .assess ⟨3, ⟨739061, by decide⟩⟩]

/-- The subscription is billed for another period, and then it is past due instead of cancelled. -/
theorem scheduled_cancellation_ignored :
    SubscriptionService.cancel ⟨1, dayOne⟩ 1 "left" true assignedDb = .ok () scheduledDb ∧
    (run (BillingAction.step defaultSettings) scheduledDb leftAlone).periods 1
      = [⟨1, firstEnd, ⟨739060, by decide⟩⟩] ∧
    (run (BillingAction.step defaultSettings) scheduledDb leftAlone).status? 1 = some .pastDue ∧
    ¬ TakesEffect defaultSettings 1 firstEnd scheduledDb leftAlone := by
  have hstatus : (run (BillingAction.step defaultSettings) scheduledDb leftAlone).status? 1
      = some .pastDue := by decide +kernel
  refine ⟨scheduledDb_eq, by decide +kernel, hstatus, fun h => ?_⟩
  have hended := h.ended [.generate ⟨2, firstEnd⟩] ⟨3, ⟨739061, by decide⟩⟩ (List.prefix_refl _)
    (by decide) (by simp)
  rw [show [BillingAction.generate ⟨2, firstEnd⟩] ++ [.assess ⟨3, ⟨739061, by decide⟩⟩] = leftAlone
    from rfl, hstatus] at hended
  cases hended

end SaccoPlatform.Platform
