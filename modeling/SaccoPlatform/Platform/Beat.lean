import SaccoPlatform.Platform.Subscriptions
import SaccoPlatform.Platform.Payments

/-!
# The daily tasks of billing

`PlanService`, `InvoiceService.generate_for_subscription` and the two tasks of
`app/platform_/billing/beat.py` that move subscriptions along: `assess_subscription_state` compares
the ends of periods with today by `<`, `generate_next_period_invoices` the next billing date by `==`.

The line items, the outbox events and the reminders are left out: nothing reads them back. Invoice
numbers come from a sequence, which yields none twice, so `uq_invoices_number` never refuses a row.
-/

namespace SaccoPlatform.Platform

open Lib Session

/-! ## `PlanService` -/

/-- The arguments of `PlanService.create`. -/
structure PlanInput where
  code : String
  currency : String
  basePrice : ℚ
  billingPeriod : BillingPeriod
  trialPeriodDays : ℤ
  gracePeriodDays : ℤ
  isActive : Bool
deriving DecidableEq

/-- The row that `create` adds, under the id it is given. -/
def PlanInput.plan (input : PlanInput) (basePrice : Money) (id : Uuid) : SubscriptionPlan where
  id := id
  code := input.code
  currency := input.currency
  basePrice := basePrice
  billingPeriod := input.billingPeriod
  trialPeriodDays := input.trialPeriodDays
  gracePeriodDays := input.gracePeriodDays
  isActive := input.isActive

/-- `PlanService.create`. -/
def PlanService.create (input : PlanInput) : PlatformCall Uuid := do
  let db ← get
  let basePrice ← storeMoney input.basePrice
  constraint (∀ plan ∈ db.plans.rows, plan.code ≠ input.code)
    (.billingError s!"Plan code '{input.code}' already in use")
  modify fun db => { db with plans := db.plans.insertNew (input.plan basePrice) fun _ => rfl }
  pure db.plans.fresh

/-- The arguments of `PlanService.update`: what is `none` stays. -/
structure PlanChanges where
  code : Option String
  currency : Option String
  basePrice : Option ℚ
  billingPeriod : Option BillingPeriod
  trialPeriodDays : Option ℤ
  gracePeriodDays : Option ℤ
  isActive : Option Bool
deriving DecidableEq

def PlanChanges.apply (changes : PlanChanges) (basePrice : Money) (plan : SubscriptionPlan) :
    SubscriptionPlan where
  id := plan.id
  code := changes.code.getD plan.code
  currency := changes.currency.getD plan.currency
  basePrice := basePrice
  billingPeriod := changes.billingPeriod.getD plan.billingPeriod
  trialPeriodDays := changes.trialPeriodDays.getD plan.trialPeriodDays
  gracePeriodDays := changes.gracePeriodDays.getD plan.gracePeriodDays
  isActive := changes.isActive.getD plan.isActive

/-- `PlanService.update`. -/
def PlanService.update (planId : Uuid) (changes : PlanChanges) : PlatformCall Unit := do
  let db ← get
  let plan ← orRaise (db.plans.get? planId) (.valueError s!"Plan {planId} not found")
  let basePrice ← (changes.basePrice.map storeMoney).getD (pure plan.basePrice)
  let plan := changes.apply basePrice plan
  constraint (∀ other ∈ db.plans.rows, other.id ≠ plan.id → other.code ≠ plan.code)
    (.billingError s!"Cannot rename to code '{plan.code}' — already in use")
  modify fun db => { db with plans := db.plans.put plan }

/-! ## `InvoiceService.generate_for_subscription` -/

/-- `InvoiceService._next_invoice_number`. -/
def InvoiceService.nextInvoiceNumber (today : Date) : PlatformCall String := do
  let db ← get
  let n := (db.invoiceSeqs.lookup today.year).getD 0 + 1
  modify fun db => { db with
    invoiceSeqs := (today.year, n) :: db.invoiceSeqs.filter fun seq => seq.1 ≠ today.year }
  pure s!"INV-{today.year}-{Date.pad 6 n}"

/-- `InvoiceService.get_for_subscription_period`. -/
def Db.invoiceFor (db : Db) (subscriptionId : Uuid) (billingPeriodStart : Date) :
    Option InvoiceRow :=
  db.invoices.rows.find? fun i =>
    i.subscriptionId = subscriptionId ∧ i.billingPeriodStart = billingPeriodStart

/-- The invoice for a period of a subscription, under the id it is given. -/
def newInvoice (m : Moment) (subscriptionId : Uuid) (sub : SubscriptionRow)
    (plan : SubscriptionPlan) (invoiceNumber : String) (periodStart periodEnd dueAt : Date)
    (id : Uuid) : InvoiceRow where
  id := id
  status := .issued
  amountTotal := plan.basePrice
  amountPaid := 0
  voidReason := none
  invoiceNumber := invoiceNumber
  subscriptionId := subscriptionId
  tenantId := sub.tenantId
  billingPeriodStart := periodStart
  billingPeriodEnd := periodEnd
  amountSubtotal := plan.basePrice
  amountTax := 0
  currency := plan.currency
  issuedAt := some m.now
  dueAt := dueAt
  paidAt := none
  voidedAt := none

/-- `InvoiceService.generate_for_subscription`; `_GENERATABLE_STATUSES` are the live ones. -/
def InvoiceService.generateForSubscription (m : Moment) (subscriptionId : Uuid)
    (billingPeriodStart : Option Date) : PlatformCall Uuid := do
  let sub ← getSubscription subscriptionId
  require (IsLive sub.status) (.billingError
    s!"Cannot generate invoice for subscription in status '{statusText sub.status}'")
  let plan ← getPlan sub
  let periodStart := billingPeriodStart.getD sub.currentPeriodStart
  let db ← get
  match db.invoiceFor subscriptionId periodStart with
  | some existing => pure existing.id
  | none =>
    let periodEnd ← orRaise (periodStart.addDays? plan.billingPeriod.days) .overflowError
    let dueAt ← orRaise (periodStart.addDays? 7) .overflowError
    let invoiceNumber ← InvoiceService.nextInvoiceNumber m.today
    modify fun db => { db with
      invoices := db.invoices.insertNew
        (newInvoice m subscriptionId sub plan invoiceNumber periodStart periodEnd dueAt)
        fun _ => rfl }
    pure db.invoices.fresh

/-! ## `generate_next_period_invoices` -/

/-- `WHERE status IN ('active', 'past_due') AND next_billing_date = today`. -/
def SubscriptionRow.dueOn (sub : SubscriptionRow) (today : Date) : Bool :=
  (sub.status = .active || sub.status = .pastDue) && sub.nextBillingDate = some today

/-- The subscription after its next period has begun. -/
def SubscriptionRow.advanced (sub : SubscriptionRow) (today periodEnd : Date) : SubscriptionRow :=
  { sub with
    currentPeriodStart := today, currentPeriodEnd := periodEnd, nextBillingDate := some periodEnd }

/-- One round of `_run_generate_next_period_invoices`. The start of the period is set before the end
is computed, so it stays set when the end is out of range. -/
def billDue (m : Moment) (sub : SubscriptionRow) : PlatformCall Unit := do
  let db ← get
  match db.plans.get? sub.planId with
  | none => pure ()
  | some plan =>
    let _ ← InvoiceService.generateForSubscription m sub.id (some m.today)
    writeSubscription { sub with currentPeriodStart := m.today }
    let periodEnd ← orRaise (m.today.addDays? plan.billingPeriod.days) .overflowError
    writeSubscription (sub.advanced m.today periodEnd)

/-- `_run_generate_next_period_invoices`: a round that raises is logged and skipped. -/
def generateNextPeriodInvoices (m : Moment) : PlatformCall Unit := do
  let db ← get
  forEach (fun sub => do let _ ← attempt (billDue m sub))
    (db.subscriptions.rows.filter (·.dueOn m.today))

/-! ## `assess_subscription_state` -/

/-- `WHERE status IN ('active', 'trialing') AND current_period_end < today`. -/
def SubscriptionRow.expiredOn (sub : SubscriptionRow) (today : Date) : Bool :=
  (sub.status = .active || sub.status = .trialing) && sub.currentPeriodEnd < today

/-- `WHERE status = 'past_due' AND grace_period_ends_at < today`. -/
def SubscriptionRow.graceOverOn (sub : SubscriptionRow) (today : Date) : Bool :=
  sub.status = .pastDue && sub.gracePeriodEndsAt.any (· < today)

/-- `except InvalidTransition`, the one billing error of a transition. Other exceptions end the
task. -/
def skipInvalid (x : PlatformCall Unit) : PlatformCall Unit := fun db =>
  match x db with
  | .raised (.billingError _) db' => .ok () db'
  | outcome => outcome

/-- `_run_assess_subscription_state`. -/
def assessSubscriptionState (m : Moment) : PlatformCall Unit := do
  let db ← get
  forEach (fun sub => skipInvalid (SubscriptionService.transitionToPastDue m sub.id))
    (db.subscriptions.rows.filter (·.expiredOn m.today))
  let db ← get
  forEach (fun sub => skipInvalid (SubscriptionService.transitionToSuspended sub.id))
    (db.subscriptions.rows.filter (·.graceOverOn m.today))

/-! ## What the tasks see of one subscription -/

/-- The period that an invoice is for. -/
structure Period where
  invoiceId : Uuid
  start : Date
  stop : Date
deriving DecidableEq

def InvoiceRow.period (i : InvoiceRow) : Period :=
  ⟨i.id, i.billingPeriodStart, i.billingPeriodEnd⟩

/-- The periods of the invoices for a subscription, in the order in which they were issued. -/
def Db.periods (db : Db) (subscriptionId : Uuid) : List Period :=
  (db.invoices.rows.filter fun i => i.subscriptionId = subscriptionId).map InvoiceRow.period

/-- The plans, a subscription and the periods it was invoiced for. -/
structure Account where
  plans : Keyed SubscriptionPlan.id
  sub : Option SubscriptionRow
  periods : List Period

def Db.account (db : Db) (subscriptionId : Uuid) : Account :=
  ⟨db.plans, db.subscriptions.get? subscriptionId, db.periods subscriptionId⟩

section

variable {db db' : Db}

/-- Writing one subscription leaves the accounts of the others. -/
theorem account_put {subs : Subscriptions} {row : SubscriptionRow} {id : Uuid} (h : id ≠ row.id)
    (hput : db.subscriptions.put? row = some subs) :
    Db.account { db with subscriptions := subs } id = db.account id := by
  have hget : subs.get? id = db.subscriptions.get? id := by
    rw [Subscriptions.toKeyed_of_put? hput]
    exact Keyed.get?_put_of_ne _ h.symm
  unfold Db.account
  rw [hget]
  rfl

theorem moves_writeSubscription (row : SubscriptionRow) {id : Uuid} (h : id ≠ row.id) :
    Moves (Keeps fun db : Db => db.account id) (writeSubscription row) := by
  unfold writeSubscription
  intro db
  refine ⟨?_, ?_⟩
  · intro u db' hok
    obtain ⟨subs, hput, rfl⟩ := writeSubscription_eq_ok.mp hok
    exact account_put h hput
  · intro e db' hraised
    cases hput : db.subscriptions.put? row <;> simp [hput] at hraised

/-- A new invoice adds its period to the account of its subscription. -/
theorem account_insertNew (f : Uuid → InvoiceRow) (hf : ∀ k, (f k).id = k) {subscriptionId : Uuid}
    (hsub : ∀ k, (f k).subscriptionId = subscriptionId) (id : Uuid) :
    Db.account { db with invoices := db.invoices.insertNew f hf } id =
      { db.account id with
        periods := db.periods id ++
          if subscriptionId = id then [(f db.invoices.fresh).period] else [] } := by
  unfold Db.account Db.periods
  show Account.mk _ _ (((db.invoices.rows ++ [f db.invoices.fresh]).filter _).map _) = _
  rw [List.filter_append, List.map_append]
  by_cases h : subscriptionId = id <;> simp [h, hsub]

end

/-! ## One round of billing -/

section

variable {db : Db} {id : Uuid} {sub : SubscriptionRow} {plan : SubscriptionPlan} {m : Moment}

theorem moves_nextInvoiceNumber (today : Date) :
    Moves (Keeps fun db : Db => db.account id) (InvoiceService.nextInvoiceNumber today) := by
  unfold InvoiceService.nextInvoiceNumber
  apply moves_bind moves_get
  intro db
  exact moves_bind (moves_modify fun _ => rfl) fun _ => moves_pure _

theorem moves_generateForSubscription {subscriptionId : Uuid} (h : id ≠ subscriptionId)
    (start : Option Date) :
    Moves (Keeps fun db : Db => db.account id)
      (InvoiceService.generateForSubscription m subscriptionId start) := by
  unfold InvoiceService.generateForSubscription getSubscription getPlan
  refine moves_bind (moves_bind moves_get fun db => moves_orRaise _ _) fun sub => ?_
  refine moves_bind (moves_require _ _) fun _ => ?_
  refine moves_bind (moves_bind moves_get fun db => moves_orRaise _ _) fun plan => ?_
  refine moves_bind moves_get fun db => ?_
  cases db.invoiceFor subscriptionId (start.getD sub.currentPeriodStart) with
  | some existing => exact moves_pure _
  | none =>
    refine moves_bind (moves_orRaise _ _) fun periodEnd => ?_
    refine moves_bind (moves_orRaise _ _) fun dueAt => ?_
    refine moves_bind (moves_nextInvoiceNumber _) fun invoiceNumber => ?_
    refine moves_bind (moves_modify fun db => ?_) fun _ => moves_pure _
    -- the new invoice is for another subscription
    refine (account_insertNew (newInvoice m subscriptionId sub plan invoiceNumber _ periodEnd dueAt)
      (fun _ => rfl) (fun _ => rfl) id).trans ?_
    rw [if_neg h.symm, List.append_nil]
    rfl

theorem moves_billDue (h : id ≠ sub.id) :
    Moves (Keeps fun db : Db => db.account id) (attempt (billDue m sub)) := by
  apply moves_attempt
  unfold billDue
  apply moves_bind moves_get
  intro db
  cases db.plans.get? sub.planId with
  | none => exact moves_pure ()
  | some plan =>
    refine moves_bind (moves_generateForSubscription h _) fun _ => ?_
    refine moves_bind (moves_writeSubscription { sub with currentPeriodStart := m.today } h)
      fun _ => ?_
    refine moves_bind (moves_orRaise _ _) fun periodEnd => ?_
    exact moves_writeSubscription (sub.advanced m.today periodEnd) h

/-- A period of the account starts on this day. -/
def Account.covers (a : Account) (start : Date) : Bool := a.periods.any (·.start = start)

/-- The account after a round for its subscription, when the next invoice gets the id `fresh`. -/
def Account.billed (a : Account) (today : Date) (fresh : Uuid) : Account :=
  match a.sub with
  | none => a
  | some sub =>
    match a.plans.get? sub.planId with
    | none => a
    | some plan =>
      match today.addDays? plan.billingPeriod.days with
      | none =>
        if a.covers today then { a with sub := some { sub with currentPeriodStart := today } } else a
      | some periodEnd =>
        { a with
          sub := some (sub.advanced today periodEnd)
          periods :=
            if a.covers today then a.periods else a.periods ++ [⟨fresh, today, periodEnd⟩] }

theorem covers_iff {start : Date} :
    (db.account id).covers start = true ↔ ∃ i, db.invoiceFor id start = some i := by
  unfold Account.covers Db.account Db.periods Db.invoiceFor
  rw [← Option.isSome_iff_exists, List.find?_isSome, List.any_eq_true]
  simp [InvoiceRow.period, and_assoc]

/-- A subscription that keeps its tenant and its status is not refused. -/
theorem put?_of_standing {subs : Subscriptions} (row : SubscriptionRow)
    (hsub : subs.get? row.id = some sub) (htenant : row.tenantId = sub.tenantId)
    (hstatus : row.status = sub.status) : ∃ subs', subs.put? row = some subs' := by
  have hid₀ : sub.id = row.id := by
    have hkey := Keyed.key_of_get? hsub
    exact hkey
  have hbefore : ∀ s ∈ (subs.put row).rows, ∃ s₀ ∈ subs.rows,
      s₀.id = s.id ∧ s₀.tenantId = s.tenantId ∧ s₀.status = s.status := by
    intro s hs
    obtain ⟨hs, -⟩ | ⟨rfl, -⟩ := Keyed.mem_put.mp hs
    · exact ⟨s, hs, rfl, rfl, rfl⟩
    · exact ⟨sub, Keyed.mem_of_get? hsub, hid₀, htenant.symm, hstatus.symm⟩
  have hone : OneLive (subs.put row).rows := by
    intro s hs s' hs' hlive hlive' hsame
    obtain ⟨s₀, hs₀, hid, htenant₀, hstatus₀⟩ := hbefore s hs
    obtain ⟨s₁, hs₁, hid', htenant₁, hstatus₁⟩ := hbefore s' hs'
    rw [← hid, ← hid']
    exact subs.oneLive s₀ hs₀ s₁ hs₁ (hstatus₀ ▸ hlive) (hstatus₁ ▸ hlive')
      (htenant₀.trans (hsame.trans htenant₁.symm))
  exact ⟨_, dif_pos hone⟩

section

variable (hsub : db.subscriptions.get? id = some sub) (hlive : IsLive sub.status)
  (hplan : db.plans.get? sub.planId = some plan)

include hsub hlive hplan

theorem generate_existing {start : Date} {i : InvoiceRow} (h : db.invoiceFor id start = some i) :
    InvoiceService.generateForSubscription m id (some start) db = .ok i.id db := by
  simp only [InvoiceService.generateForSubscription, getSubscription, getPlan, bind_apply, get_apply,
    hsub, orRaise, pure_apply, require, if_pos hlive, hplan, Option.getD_some, h]

theorem generate_overflow {start : Date} (h : db.invoiceFor id start = none)
    (hend : start.addDays? plan.billingPeriod.days = none) :
    InvoiceService.generateForSubscription m id (some start) db = .raised .overflowError db := by
  simp only [InvoiceService.generateForSubscription, getSubscription, getPlan, bind_apply, get_apply,
    hsub, orRaise, pure_apply, raise_apply, require, if_pos hlive, hplan, Option.getD_some, h, hend]

/-- The invoice is issued, whatever its number is. -/
theorem generate_issued {start periodEnd : Date} (h : db.invoiceFor id start = none)
    (hend : start.addDays? plan.billingPeriod.days = some periodEnd) :
    ∃ db₁, InvoiceService.generateForSubscription m id (some start) db = .ok db.invoices.fresh db₁ ∧
      db₁.subscriptions = db.subscriptions ∧
      db₁.account id = { db.account id with
        periods := db.periods id ++ [⟨db.invoices.fresh, start, periodEnd⟩] } := by
  obtain ⟨dueAt, hdue⟩ : ∃ dueAt, start.addDays? 7 = some dueAt := by
    apply Date.addDays?_of_le hend (by decide)
    cases plan.billingPeriod <;> decide
  obtain ⟨number, seqs, hnumber⟩ : ∃ number seqs,
      InvoiceService.nextInvoiceNumber m.today db = .ok number { db with invoiceSeqs := seqs } :=
    ⟨_, _, rfl⟩
  refine ⟨{ db with
    invoices := db.invoices.insertNew (newInvoice m id sub plan number start periodEnd dueAt)
      fun _ => rfl
    invoiceSeqs := seqs }, ?_, rfl, ?_⟩
  · simp only [InvoiceService.generateForSubscription, getSubscription, getPlan, bind_apply,
      get_apply, hsub, orRaise, pure_apply, require, if_pos hlive, hplan, Option.getD_some, h, hend,
      hdue, hnumber, modify_apply]
  · refine (account_insertNew (newInvoice m id sub plan number start periodEnd dueAt)
      (fun _ => rfl) (fun _ => rfl) id).trans ?_
    rw [if_pos rfl]
    rfl

end

/-- The two writes of a round, in the state that the invoice left. -/
theorem writes_return {db₁ : Db} (hsub : db₁.subscriptions.get? sub.id = some sub)
    (periodStart : Date) (periodEnd : Option Date) :
    ∃ r db', attempt (do
        writeSubscription { sub with currentPeriodStart := periodStart }
        let periodEnd ← orRaise periodEnd .overflowError
        writeSubscription (sub.advanced periodStart periodEnd)) db₁ = .ok r db' ∧
      db'.account sub.id = { db₁.account sub.id with
        sub := some (match periodEnd with
          | none => { sub with currentPeriodStart := periodStart }
          | some periodEnd => sub.advanced periodStart periodEnd) } := by
  obtain ⟨subs, hput⟩ := put?_of_standing { sub with currentPeriodStart := periodStart } hsub rfl rfl
  have hget : subs.get? sub.id = some { sub with currentPeriodStart := periodStart } := by
    rw [Subscriptions.toKeyed_of_put? hput]
    exact Keyed.get?_put_self hsub rfl
  have hfirst : writeSubscription { sub with currentPeriodStart := periodStart } db₁
      = .ok () { db₁ with subscriptions := subs } := writeSubscription_eq_ok.mpr ⟨subs, hput, rfl⟩
  cases periodEnd with
  | none =>
    refine ⟨.error .overflowError, { db₁ with subscriptions := subs }, ?_, ?_⟩
    · simp only [attempt, bind_apply, hfirst, orRaise, raise_apply]
    · unfold Db.account
      rw [hget]
      rfl
  | some periodEnd =>
    obtain ⟨subs', hput'⟩ := put?_of_standing (sub.advanced periodStart periodEnd) hget rfl rfl
    have hget' : subs'.get? sub.id = some (sub.advanced periodStart periodEnd) := by
      rw [Subscriptions.toKeyed_of_put? hput']
      exact Keyed.get?_put_self hget rfl
    have hsecond : writeSubscription (sub.advanced periodStart periodEnd)
        { db₁ with subscriptions := subs } = .ok () { db₁ with subscriptions := subs' } :=
      writeSubscription_eq_ok.mpr ⟨subs', hput', rfl⟩
    refine ⟨.ok (), { db₁ with subscriptions := subs' }, ?_, ?_⟩
    · simp only [attempt, bind_apply, hfirst, orRaise, pure_apply, hsecond]
    · unfold Db.account
      rw [hget']
      rfl

/-- The round of a subscription that was selected. -/
theorem billDue_returns (hsub : db.subscriptions.get? sub.id = some sub) (hlive : IsLive sub.status) :
    ∃ r db', attempt (billDue m sub) db = .ok r db' ∧
      db'.account sub.id = (db.account sub.id).billed m.today db.invoices.fresh := by
  have hrow : (db.account sub.id).sub = some sub := hsub
  have hplans : (db.account sub.id).plans = db.plans := rfl
  cases hplan : db.plans.get? sub.planId with
  | none =>
    refine ⟨.ok (), db, ?_, ?_⟩
    · simp only [attempt, billDue, bind_apply, get_apply, hplan, pure_apply]
    · simp only [Account.billed, hrow, hplans, hplan]
  | some plan =>
    -- the round goes on with the writes, unless there is no invoice and none can be issued
    have hround : ∀ {i : Uuid} {db₁ : Db},
        InvoiceService.generateForSubscription m sub.id (some m.today) db = .ok i db₁ →
        attempt (billDue m sub) db = attempt (do
          writeSubscription { sub with currentPeriodStart := m.today }
          let periodEnd ← orRaise (m.today.addDays? plan.billingPeriod.days) .overflowError
          writeSubscription (sub.advanced m.today periodEnd)) db₁ := by
      intro i db₁ hgenerate
      simp only [attempt, billDue, bind_apply, get_apply, hplan, hgenerate]
    cases hfind : db.invoiceFor sub.id m.today with
    | some i =>
      have hcovers : (db.account sub.id).covers m.today = true := covers_iff.mpr ⟨i, hfind⟩
      rw [hround (generate_existing hsub hlive hplan hfind)]
      obtain ⟨r, db', hok, haccount⟩ :=
        writes_return hsub m.today (m.today.addDays? plan.billingPeriod.days)
      refine ⟨r, db', hok, ?_⟩
      rw [haccount]
      cases hend : m.today.addDays? plan.billingPeriod.days with
      | none => simp only [Account.billed, hrow, hplans, hplan, hend, hcovers, if_true]
      | some periodEnd => simp only [Account.billed, hrow, hplans, hplan, hend, hcovers, if_true]
    | none =>
      have hcovers : ¬ (db.account sub.id).covers m.today = true := by
        rw [covers_iff, hfind]
        simp
      cases hend : m.today.addDays? plan.billingPeriod.days with
      | none =>
        refine ⟨.error .overflowError, db, ?_, ?_⟩
        · simp only [attempt, billDue, bind_apply, get_apply, hplan,
            generate_overflow hsub hlive hplan hfind hend]
        · simp only [Account.billed, hrow, hplans, hplan, hend, if_neg hcovers]
      | some periodEnd =>
        obtain ⟨db₁, hissued, hsubs, haccount₁⟩ := generate_issued hsub hlive hplan hfind hend
        rw [hround hissued, hend]
        obtain ⟨r, db', hok, haccount⟩ := writes_return (hsubs ▸ hsub) m.today (some periodEnd)
        refine ⟨r, db', hok, ?_⟩
        rw [haccount, haccount₁]
        simp only [Account.billed, hrow, hplans, hplan, hend, if_neg hcovers]
        rfl

end

/-! ## What the tasks do to one account -/

section

variable {db db' : Db} {id : Uuid} {u : Unit}

/-- A task goes through the subscriptions it selects, and a round for one leaves the accounts of the
others: what happens to an account happens in its own round. -/
theorem account_pass {p : SubscriptionRow → Bool} {x : SubscriptionRow → PlatformCall Unit}
    (hother : ∀ sub k, k ≠ sub.id → ∀ u db db', x sub db = .ok u db' → db'.account k = db.account k)
    (h : forEach x (db.subscriptions.rows.filter p) db = .ok u db') (id : Uuid) :
    ((db.subscriptions.get? id).any p = false ∧ db'.account id = db.account id) ∨
      ∃ sub u db₁ db₂, db.subscriptions.get? id = some sub ∧ p sub = true ∧ x sub db₁ = .ok u db₂ ∧
        db₁.account id = db.account id ∧ db'.account id = db₂.account id := by
  have hnodup : ((db.subscriptions.rows.filter p).map fun s => s.id).Nodup :=
    db.subscriptions.nodup.sublist (List.filter_sublist.map _)
  obtain ⟨hnot, hsame⟩ | ⟨sub, hmem, rfl, u, db₁, db₂, hround, hbefore, hafter⟩ :=
    forEach_view (fun s : SubscriptionRow => s.id) Db.account hnodup
      (fun sub _ => hother sub) h id
  · refine .inl ⟨?_, hsame⟩
    rw [Bool.eq_false_iff]
    intro hany
    obtain ⟨sub, hsub, hp⟩ := (Option.any_eq_true ..).mp hany
    have hid : sub.id = id := Db.id_of_subscription hsub
    exact hnot (List.mem_map.mpr ⟨sub, List.mem_filter.mpr ⟨Keyed.mem_of_get? hsub, hp⟩, hid⟩)
  · obtain ⟨hrow, hp⟩ := List.mem_filter.mp hmem
    have hget : db.subscriptions.get? sub.id = some sub := Keyed.get?_of_mem hrow
    exact .inr ⟨sub, u, db₁, db₂, hget, hp, hround, hbefore, hafter⟩

theorem isLive_of_dueOn {sub : SubscriptionRow} {today : Date} (h : sub.dueOn today = true) :
    IsLive sub.status := by
  simp only [SubscriptionRow.dueOn, Bool.and_eq_true, Bool.or_eq_true, decide_eq_true_eq] at h
  exact h.1.elim (fun h => .inr (.inl h)) (fun h => .inr (.inr h))

/-- The end of the next period, where the subscription is billed today: it is due, was not invoiced
for this period, and the end is in range. -/
def Account.bills? (a : Account) (today : Date) : Option Date :=
  a.sub.bind fun sub =>
    if sub.dueOn today && !a.covers today then
      (a.plans.get? sub.planId).bind fun plan => today.addDays? plan.billingPeriod.days
    else none

/-- The account after the task. -/
def Account.generated (a : Account) (today : Date) (fresh : Uuid) : Account :=
  if a.sub.any (·.dueOn today) then a.billed today fresh else a

theorem periods_generated (a : Account) (today : Date) (fresh : Uuid) :
    (a.generated today fresh).periods =
      a.periods ++ (a.bills? today).toList.map fun periodEnd => ⟨fresh, today, periodEnd⟩ := by
  unfold Account.generated Account.bills? Account.billed
  cases hsub : a.sub with
  | none => simp
  | some sub =>
    by_cases hdue : sub.dueOn today = true
    · cases hplan : a.plans.get? sub.planId with
      | none => simp [hdue, hplan]
      | some plan =>
        cases hend : today.addDays? plan.billingPeriod.days with
        | none => by_cases hcovers : a.covers today = true <;> simp [hdue, hplan, hend, hcovers]
        | some periodEnd =>
          by_cases hcovers : a.covers today = true <;> simp [hdue, hplan, hend, hcovers]
    · simp [hdue]

theorem status_generated (a : Account) (today : Date) (fresh : Uuid) :
    (a.generated today fresh).sub.map (·.status) = a.sub.map (·.status) := by
  unfold Account.generated Account.billed
  cases hsub : a.sub with
  | none => simp [hsub]
  | some sub =>
    by_cases hdue : sub.dueOn today = true
    · cases hplan : a.plans.get? sub.planId with
      | none => simp [hdue, hplan, hsub]
      | some plan =>
        cases hend : today.addDays? plan.billingPeriod.days with
        | none => by_cases hcovers : a.covers today = true <;> simp [hdue, hplan, hend, hcovers, hsub]
        | some periodEnd => simp [hdue, hplan, hend, SubscriptionRow.advanced]
    · simp [hdue, hsub]

/-- The task bills the subscriptions that are due, each on its own. -/
theorem account_generate (m : Moment) (db : Db) (id : Uuid) :
    ∃ fresh, (commit (generateNextPeriodInvoices m) db).account id =
      (db.account id).generated m.today fresh := by
  have hother : ∀ sub k, k ≠ sub.id → ∀ u db db',
      (do let _ ← attempt (billDue m sub)) db = .ok u db' → db'.account k = db.account k := by
    intro sub k hk u db db' hround
    obtain ⟨r, db₁, hattempt, hpure⟩ := bind_eq_ok.mp hround
    obtain ⟨-, rfl⟩ := pure_eq_ok.mp hpure
    exact (moves_billDue hk).ok hattempt
  have hnodup : ((db.subscriptions.rows.filter (·.dueOn m.today)).map fun s => s.id).Nodup :=
    db.subscriptions.nodup.sublist (List.filter_sublist.map _)
  -- every round returns, so the task commits
  obtain ⟨u, db', hloop⟩ : ∃ u db', generateNextPeriodInvoices m db = .ok u db' := by
    refine forEach_returns (fun s : SubscriptionRow => s.id) Db.account hnodup
      (fun sub _ => hother sub) ?_
    intro sub hmem db₁ hsame
    obtain ⟨hrow, hdue⟩ := List.mem_filter.mp hmem
    have hget : db.subscriptions.get? sub.id = some sub := Keyed.get?_of_mem hrow
    have hget₁ : db₁.subscriptions.get? sub.id = some sub :=
      (congrArg Account.sub hsame).trans hget
    obtain ⟨r, db₂, hround, -⟩ := billDue_returns hget₁ (isLive_of_dueOn hdue)
    exact ⟨(), db₂, bind_eq_ok.mpr ⟨r, db₂, hround, rfl⟩⟩
  rw [commit_of_ok hloop]
  obtain ⟨hnot, hsame⟩ | ⟨sub, u, db₁, db₂, hsub, hdue, hround, hbefore, hafter⟩ :=
    account_pass hother hloop id
  · refine ⟨0, ?_⟩
    have hnot' : (db.account id).sub.any (·.dueOn m.today) = false := hnot
    rw [Account.generated, hnot', if_neg Bool.false_ne_true, hsame]
  · obtain rfl : sub.id = id := Db.id_of_subscription hsub
    have hsub₁ : db₁.subscriptions.get? sub.id = some sub :=
      (congrArg Account.sub hbefore).trans hsub
    obtain ⟨r, db₃, hbilled, haccount⟩ := billDue_returns hsub₁ (isLive_of_dueOn hdue)
    obtain ⟨r', db₄, hattempt, hpure⟩ := bind_eq_ok.mp hround
    obtain ⟨-, rfl⟩ := pure_eq_ok.mp hpure
    obtain ⟨rfl, rfl⟩ : r = r' ∧ db₃ = db₄ := by
      rw [hbilled] at hattempt
      cases hattempt
      exact ⟨rfl, rfl⟩
    refine ⟨db₁.invoices.fresh, ?_⟩
    have hdue' : (db.account sub.id).sub.any (·.dueOn m.today) = true := by
      show (db.subscriptions.get? sub.id).any _ = true
      rw [hsub, Option.any_some, hdue]
    rw [Account.generated, if_pos hdue', hafter, haccount, hbefore]

end

/-! ### Assessment -/

section

variable {db db' : Db} {id : Uuid} {u : Unit} {m : Moment} {e : String}

theorem skipInvalid_eq_ok {x : PlatformCall Unit} (h : skipInvalid x db = .ok u db') :
    x db = .ok u db' ∨ ∃ e, x db = .raised (.billingError e) db' := by
  unfold skipInvalid at h
  split at h
  · rename_i e db₁ hx
    cases h
    exact .inr ⟨e, hx⟩
  · exact .inl h

/-- Once the subscription has been looked at, only a missing tenant raises. -/
theorem write_sync_raised {row : SubscriptionRow} {tenantId : Uuid} {status : SubscriptionStatus} :
    (do writeSubscription row; SubscriptionService.syncTenantStatus tenantId status id) db
      ≠ .raised (.billingError e) db' := by
  intro h
  obtain h | ⟨_, db₁, -, h⟩ := bind_eq_raised.mp h
  · unfold writeSubscription at h
    cases hput : db.subscriptions.put? row <;> simp [hput] at h
  · unfold SubscriptionService.syncTenantStatus writeTenant at h
    rw [get_bind_eq_raised, orRaise_bind_eq_raised] at h
    obtain ⟨-, herr, -⟩ | ⟨t, -, h⟩ := h
    · cases herr
    · simp at h

theorem getSubscription_bind_raised {f : SubscriptionRow → PlatformCall Unit}
    (h : (getSubscription id >>= f) db = .raised (.billingError e) db') :
    ∃ sub, db.subscriptions.get? id = some sub ∧ f sub db = .raised (.billingError e) db' := by
  unfold getSubscription at h
  rw [bind_apply, bind_apply, get_apply] at h
  cases hsub : db.subscriptions.get? id with
  | none => simp [hsub, orRaise] at h
  | some sub => exact ⟨sub, rfl, by simpa [hsub, orRaise] using h⟩

theorem getPlan_bind_raised {sub : SubscriptionRow} {f : SubscriptionPlan → PlatformCall Unit}
    (h : (getPlan sub >>= f) db = .raised (.billingError e) db') :
    ∃ plan, f plan db = .raised (.billingError e) db' := by
  unfold getPlan at h
  rw [bind_apply, bind_apply, get_apply] at h
  cases hplan : db.plans.get? sub.planId with
  | none => simp [hplan, orRaise] at h
  | some plan => exact ⟨plan, by simpa [hplan, orRaise] using h⟩

/-- A transition that is not valid changes nothing. -/
theorem transitionToPastDue_invalid
    (h : SubscriptionService.transitionToPastDue m id db = .raised (.billingError e) db') :
    db' = db ∧ ∃ sub, db.subscriptions.get? id = some sub ∧
      ¬ (sub.status = .active ∨ sub.status = .trialing) := by
  obtain ⟨sub, hsub, h⟩ := getSubscription_bind_raised h
  obtain ⟨hstatus, -, rfl⟩ | ⟨-, h⟩ := require_bind_eq_raised.mp h
  · exact ⟨rfl, sub, hsub, hstatus⟩
  · obtain ⟨plan, h⟩ := getPlan_bind_raised h
    obtain ⟨-, herr, -⟩ | ⟨graceEnd, -, h⟩ := orRaise_bind_eq_raised.mp h
    · cases herr
    · exact absurd h write_sync_raised

theorem transitionToSuspended_invalid
    (h : SubscriptionService.transitionToSuspended id db = .raised (.billingError e) db') :
    db' = db ∧ ∃ sub, db.subscriptions.get? id = some sub ∧ sub.status ≠ .pastDue := by
  obtain ⟨sub, hsub, h⟩ := getSubscription_bind_raised h
  obtain ⟨hstatus, -, rfl⟩ | ⟨-, h⟩ := require_bind_eq_raised.mp h
  · exact ⟨rfl, sub, hsub, hstatus⟩
  · exact absurd h write_sync_raised

/-- The account with its subscription as given. -/
def Account.put (a : Account) (sub : SubscriptionRow) : Account := { a with sub := some sub }

section

variable {subs : Subscriptions} {row sub : SubscriptionRow} {t : TenantRow}
  {status : SubscriptionStatus} {tenantSub : Uuid} (hput : db.subscriptions.put? row = some subs)

include hput

/-- A subscription is written and its status copied. -/
theorem account_billed_self (hsub : db.subscriptions.get? row.id = some sub) :
    (db.billed subs t status tenantSub).account row.id = (db.account row.id).put row := by
  have hget : subs.get? row.id = some row := by
    rw [Subscriptions.toKeyed_of_put? hput]
    exact Keyed.get?_put_self hsub rfl
  show Account.mk _ (subs.get? row.id) _ = _
  rw [hget]
  rfl

theorem account_billed_of_ne (h : id ≠ row.id) :
    (db.billed subs t status tenantSub).account id = db.account id :=
  account_put h hput

end

/-- A round of an assessment is a transition, or it changes nothing. -/
theorem account_pastDue_of_ne {subscriptionId : Uuid} (hne : id ≠ subscriptionId)
    (h : skipInvalid (SubscriptionService.transitionToPastDue m subscriptionId) db = .ok u db') :
    db'.account id = db.account id := by
  obtain hok | ⟨e, hraised⟩ := skipInvalid_eq_ok h
  · obtain ⟨sub, plan, graceEnd, subs, t, hsub, -, -, -, hput, -, rfl⟩ :=
      transitionToPastDue_eq_ok.mp hok
    obtain rfl : sub.id = subscriptionId := Db.id_of_subscription hsub
    exact account_billed_of_ne hput hne
  · rw [(transitionToPastDue_invalid hraised).1]

theorem account_suspended_of_ne {subscriptionId : Uuid} (hne : id ≠ subscriptionId)
    (h : skipInvalid (SubscriptionService.transitionToSuspended subscriptionId) db = .ok u db') :
    db'.account id = db.account id := by
  obtain hok | ⟨e, hraised⟩ := skipInvalid_eq_ok h
  · obtain ⟨sub, subs, t, hsub, -, hput, -, rfl⟩ := transitionToSuspended_eq_ok.mp hok
    obtain rfl : sub.id = subscriptionId := Db.id_of_subscription hsub
    exact account_billed_of_ne hput hne
  · rw [(transitionToSuspended_invalid hraised).1]

/-- What the first pass leaves of a subscription. -/
def SubscriptionRow.Lapses (plans : Keyed SubscriptionPlan.id) (today : Date)
    (sub sub' : SubscriptionRow) : Prop :=
  if sub.expiredOn today then
    ∃ plan graceEnd, plans.get? sub.planId = some plan ∧
      today.addDays? plan.gracePeriodDays = some graceEnd ∧
      sub' = { sub with status := .pastDue, gracePeriodEndsAt := some graceEnd }
  else sub' = sub

/-- What the second pass leaves of a subscription. -/
def SubscriptionRow.blocked (sub : SubscriptionRow) (today : Date) : SubscriptionRow :=
  if sub.graceOverOn today then { sub with status := .suspended } else sub

theorem account_pastDuePass {sub : SubscriptionRow}
    (h : forEach (fun sub => skipInvalid (SubscriptionService.transitionToPastDue m sub.id))
      (db.subscriptions.rows.filter (·.expiredOn m.today)) db = .ok u db')
    (hsub : db.subscriptions.get? id = some sub) :
    ∃ sub', sub.Lapses db.plans m.today sub' ∧ db'.account id = (db.account id).put sub' := by
  have hself : (db.account id).put sub = db.account id := by
    unfold Account.put Db.account
    rw [hsub]
  obtain ⟨hnot, hsame⟩ | ⟨sub', u, db₁, db₂, hsub', hexpired, hround, hbefore, hafter⟩ :=
    account_pass (fun _ _ hne _ _ _ => account_pastDue_of_ne hne) h id
  · rw [hsub, Option.any_some] at hnot
    exact ⟨sub, by simp [SubscriptionRow.Lapses, hnot], hsame.trans hself.symm⟩
  · obtain rfl : sub = sub' := Option.some.inj (hsub.symm.trans hsub')
    obtain rfl : sub.id = id := Db.id_of_subscription hsub
    have hsub₁ : db₁.subscriptions.get? sub.id = some sub :=
      (congrArg Account.sub hbefore).trans hsub
    have hplans : db₁.plans = db.plans := congrArg Account.plans hbefore
    obtain hok | ⟨e, hraised⟩ := skipInvalid_eq_ok hround
    · obtain ⟨sub₂, plan, graceEnd, subs, t, hsub₂, -, hplan, hgrace, hput, -, rfl⟩ :=
        transitionToPastDue_eq_ok.mp hok
      obtain rfl : sub = sub₂ := Option.some.inj (hsub₁.symm.trans hsub₂)
      refine ⟨{ sub with status := .pastDue, gracePeriodEndsAt := some graceEnd }, ?_, ?_⟩
      · rw [SubscriptionRow.Lapses, if_pos hexpired]
        exact ⟨plan, graceEnd, hplans ▸ hplan, hgrace, rfl⟩
      · rw [hafter, ← hbefore]
        exact account_billed_self hput hsub₁
    · -- the subscription was selected for its status
      obtain ⟨-, sub₂, hsub₂, hstatus⟩ := transitionToPastDue_invalid hraised
      obtain rfl : sub = sub₂ := Option.some.inj (hsub₁.symm.trans hsub₂)
      simp only [SubscriptionRow.expiredOn, Bool.and_eq_true, Bool.or_eq_true,
        decide_eq_true_eq] at hexpired
      exact absurd hexpired.1 hstatus

theorem account_suspendedPass {sub : SubscriptionRow}
    (h : forEach (fun sub => skipInvalid (SubscriptionService.transitionToSuspended sub.id))
      (db.subscriptions.rows.filter (·.graceOverOn m.today)) db = .ok u db')
    (hsub : db.subscriptions.get? id = some sub) :
    db'.account id = (db.account id).put (sub.blocked m.today) := by
  have hself : (db.account id).put sub = db.account id := by
    unfold Account.put Db.account
    rw [hsub]
  obtain ⟨hnot, hsame⟩ | ⟨sub', u, db₁, db₂, hsub', hover, hround, hbefore, hafter⟩ :=
    account_pass (fun _ _ hne _ _ _ => account_suspended_of_ne hne) h id
  · rw [hsub, Option.any_some] at hnot
    rw [SubscriptionRow.blocked, if_neg (by simp [hnot]), hself, hsame]
  · obtain rfl : sub = sub' := Option.some.inj (hsub.symm.trans hsub')
    obtain rfl : sub.id = id := Db.id_of_subscription hsub
    have hsub₁ : db₁.subscriptions.get? sub.id = some sub :=
      (congrArg Account.sub hbefore).trans hsub
    obtain hok | ⟨e, hraised⟩ := skipInvalid_eq_ok hround
    · obtain ⟨sub₂, subs, t, hsub₂, -, hput, -, rfl⟩ := transitionToSuspended_eq_ok.mp hok
      obtain rfl : sub = sub₂ := Option.some.inj (hsub₁.symm.trans hsub₂)
      rw [SubscriptionRow.blocked, if_pos hover, hafter, ← hbefore]
      exact account_billed_self hput hsub₁
    · obtain ⟨-, sub₂, hsub₂, hstatus⟩ := transitionToSuspended_invalid hraised
      obtain rfl : sub = sub₂ := Option.some.inj (hsub₁.symm.trans hsub₂)
      simp only [SubscriptionRow.graceOverOn, Bool.and_eq_true, decide_eq_true_eq] at hover
      exact absurd hover.1 hstatus

/-- The task takes a subscription through both passes, or it is rolled back as a whole. -/
theorem account_assess (m : Moment) (db : Db) (id : Uuid) :
    (commit (assessSubscriptionState m) db).account id = db.account id ∨
      ∃ sub sub', db.subscriptions.get? id = some sub ∧ sub.Lapses db.plans m.today sub' ∧
        (commit (assessSubscriptionState m) db).account id
          = (db.account id).put (sub'.blocked m.today) := by
  obtain ⟨u, db', hok, heq⟩ | heq := commit_cases (assessSubscriptionState m) db
  · rw [heq]
    unfold assessSubscriptionState at hok
    rw [get_bind_eq_ok] at hok
    obtain ⟨u₁, db₁, hfirst, hsecond⟩ := bind_eq_ok.mp hok
    rw [get_bind_eq_ok] at hsecond
    cases hsub : db.subscriptions.get? id with
    | some sub =>
      obtain ⟨sub', hlapses, haccount⟩ := account_pastDuePass hfirst hsub
      have hsub' : db₁.subscriptions.get? id = some sub' := congrArg Account.sub haccount
      refine .inr ⟨sub, sub', rfl, hlapses, ?_⟩
      rw [account_suspendedPass hsecond hsub', haccount]
      rfl
    | none =>
      -- neither pass has a round for it
      obtain ⟨-, hsame⟩ | ⟨sub, _, _, _, hsub', -⟩ :=
        account_pass (fun _ _ hne _ _ _ => account_pastDue_of_ne hne) hfirst id
      · have hnone : db₁.subscriptions.get? id = none := (congrArg Account.sub hsame).trans hsub
        obtain ⟨-, hsame'⟩ | ⟨sub, _, _, _, hsub', -⟩ :=
          account_pass (fun _ _ hne _ _ _ => account_suspended_of_ne hne) hsecond id
        · exact .inl (hsame'.trans hsame)
        · exact absurd (hnone.symm.trans hsub') (by simp)
      · exact absurd (hsub.symm.trans hsub') (by simp)
  · exact .inl (by rw [heq])

end

end SaccoPlatform.Platform
