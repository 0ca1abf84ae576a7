import SaccoPlatform.Platform.Scheduled

/-!
# Billing periods

`generate_next_period_invoices` bills a subscription on the very day its next period begins, and only
when it is active or past due by then. The invoices of a subscription cover the time since its first
period exactly as long as there is no trial and the tasks run on each of these days: a period that
was missed is never billed, nor is any later one.
-/

namespace SaccoPlatform.Platform

open Lib Session

/-! ## The days on which the tasks run -/

/-- A day on which both tasks run, in either order. -/
structure BeatDay where
  today : Date
  assessAt : Timestamp
  generateAt : Timestamp
  assessFirst : Bool
deriving DecidableEq

def BeatDay.assess (day : BeatDay) (db : Db) : Db :=
  commit (assessSubscriptionState ⟨day.assessAt, day.today⟩) db

def BeatDay.generate (day : BeatDay) (db : Db) : Db :=
  commit (generateNextPeriodInvoices ⟨day.generateAt, day.today⟩) db

def BeatDay.step (db : Db) (day : BeatDay) : Db :=
  if day.assessFirst then day.generate (day.assess db) else day.assess (day.generate db)

/-! ## Tilings -/

/-- The periods lead from `start` to `stop`: each one begins where the one before it ends. -/
def Consecutive : Date → List Period → Date → Prop
  | start, [], stop => start = stop
  | start, p :: rest, stop => p.start = start ∧ p.start < p.stop ∧ Consecutive p.stop rest stop

/-- The periods are consecutive from `start` on, and the last one contains `day`. -/
def Tiles (start day : Date) (periods : List Period) : Prop :=
  ∃ stop, Consecutive start periods stop ∧
    ∃ p, periods.getLast? = some p ∧ p.start ≤ day ∧ day < p.stop

/-- The subscription is neither cancelled nor suspended. -/
def Db.IsOpen (db : Db) (subscriptionId : Uuid) : Prop :=
  db.status? subscriptionId ≠ some .cancelled ∧ db.status? subscriptionId ≠ some .suspended

/-- After the tasks of any day from `start` on, an open subscription is invoiced for consecutive
periods from `start` to that day. -/
def PeriodsTile (id : Uuid) (start : Date) (db : Db) (days : List BeatDay) : Prop :=
  ∀ front day, front ++ [day] <+: days → start ≤ day.today →
    (run BeatDay.step db (front ++ [day])).IsOpen id →
    Tiles start day.today ((run BeatDay.step db (front ++ [day])).periods id)

section

variable {start stop next day : Date} {periods : List Period} {p : Period}

theorem Consecutive.append (h : Consecutive start periods stop) {fresh : Uuid} (hlt : stop < next) :
    Consecutive start (periods ++ [⟨fresh, stop, next⟩]) next := by
  induction periods generalizing start with
  | nil =>
    obtain rfl : start = stop := h
    exact ⟨rfl, hlt, rfl⟩
  | cons p rest ih => exact ⟨h.1, h.2.1, ih h.2.2⟩

theorem Consecutive.start_le (h : Consecutive start periods stop) : start ≤ stop := by
  induction periods generalizing start with
  | nil =>
    obtain rfl : start = stop := h
    exact le_refl start.ordinal
  | cons p rest ih =>
    obtain ⟨rfl, hlt, hrest⟩ := h
    have hle := ih hrest
    rw [Date.le_def] at hle ⊢
    rw [Date.lt_def] at hlt
    omega

/-- All periods begin before the end. -/
theorem Consecutive.start_lt (h : Consecutive start periods stop) (hp : p ∈ periods) :
    p.start < stop := by
  induction periods generalizing start with
  | nil => exact absurd hp List.not_mem_nil
  | cons p' rest ih =>
    obtain ⟨rfl, hlt, hrest⟩ := h
    rcases List.mem_cons.mp hp with rfl | hp
    · have hle := hrest.start_le
      rw [Date.le_def] at hle
      rw [Date.lt_def] at hlt ⊢
      omega
    · exact ih hrest hp

theorem Consecutive.last_stop (h : Consecutive start periods stop)
    (hlast : periods.getLast? = some p) : p.stop = stop := by
  induction periods generalizing start with
  | nil => cases hlast
  | cons p' rest ih =>
    cases rest with
    | nil =>
      obtain rfl : p' = p := Option.some.inj hlast
      exact h.2.2
    | cons p'' rest => exact ih h.2.2 (by rw [List.getLast?_cons_cons] at hlast; exact hlast)

theorem Consecutive.unique {stop' : Date} (h : Consecutive start periods stop)
    (h' : Consecutive start periods stop') : stop = stop' := by
  induction periods generalizing start with
  | nil =>
    obtain rfl : start = stop := h
    exact h'
  | cons p rest ih => exact ih h.2.2 h'.2.2

/-- Periods that end on a day or before do not reach it. -/
theorem not_tiles (h : Consecutive start periods stop) (hday : stop ≤ day) :
    ¬ Tiles start day periods := by
  rintro ⟨stop', hconsecutive, p, hlast, -, hlt⟩
  have hstop := hconsecutive.last_stop hlast
  have hunique := hconsecutive.unique h
  rw [hstop, hunique, Date.lt_def] at hlt
  rw [Date.le_def] at hday
  omega

end

/-! ## What a day does to an account -/

/-- The period of the subscription ends on `stop`, and the next one is to be billed then. -/
structure Account.Reaches (a : Account) (plan : SubscriptionPlan) (sub : SubscriptionRow)
    (stop : Date) : Prop where
  row : a.sub = some sub
  plan : a.plans.get? sub.planId = some plan
  periodEnd : sub.currentPeriodEnd = stop
  billing : sub.nextBillingDate = some stop

section

variable {db : Db} {id : Uuid} {plan : SubscriptionPlan} {sub : SubscriptionRow} {stop : Date}
  (day : BeatDay)

theorem put_of_row {a : Account} (h : a.sub = some sub) : a.put sub = a := by
  unfold Account.put
  rw [← h]

/-- Up to the end of the period there is nothing to assess. -/
theorem assess_before (h : (db.account id).Reaches plan sub stop) (hstatus : sub.status ≠ .pastDue)
    (hday : day.today ≤ stop) : (day.assess db).account id = db.account id := by
  obtain hsame | ⟨sub₀, sub', hsub₀, hlapses, haccount⟩ :=
    account_assess ⟨day.assessAt, day.today⟩ db id
  · exact hsame
  · obtain rfl : sub = sub₀ := Option.some.inj (h.row.symm.trans hsub₀)
    have hexpired : ¬ sub.expiredOn day.today = true := by
      simp only [SubscriptionRow.expiredOn, Bool.and_eq_true, decide_eq_true_eq, not_and]
      intro _ hlt
      rw [h.periodEnd, Date.lt_def] at hlt
      rw [Date.le_def] at hday
      omega
    have hover : ¬ sub.graceOverOn day.today = true := by
      simp [SubscriptionRow.graceOverOn, hstatus]
    obtain rfl : sub' = sub := by
      rw [SubscriptionRow.Lapses, if_neg hexpired] at hlapses
      exact hlapses
    rw [SubscriptionRow.blocked, if_neg hover, put_of_row h.row] at haccount
    exact haccount

/-- A subscription that lapses today is not suspended today. -/
theorem assess_open (h : (db.account id).Reaches plan sub stop) (hgrace : 0 ≤ plan.gracePeriodDays)
    (hstatus : sub.status = .active ∨ sub.status = .trialing) :
    ∃ sub', (day.assess db).account id = (db.account id).put sub' ∧
      ((db.account id).put sub').Reaches plan sub' stop ∧
      sub'.status ≠ .cancelled ∧ sub'.status ≠ .suspended := by
  have hopen : sub.status ≠ .cancelled ∧ sub.status ≠ .suspended ∧ sub.status ≠ .pastDue := by
    rcases hstatus with hstatus | hstatus <;> simp [hstatus]
  have hself : ((db.account id).put sub).Reaches plan sub stop := by
    rw [put_of_row h.row]
    exact h
  obtain hsame | ⟨sub₀, sub', hsub₀, hlapses, haccount⟩ :=
    account_assess ⟨day.assessAt, day.today⟩ db id
  · exact ⟨sub, by rw [put_of_row h.row]; exact hsame, hself, hopen.1, hopen.2.1⟩
  · obtain rfl : sub = sub₀ := Option.some.inj (h.row.symm.trans hsub₀)
    by_cases hexpired : sub.expiredOn day.today = true
    · rw [SubscriptionRow.Lapses, if_pos hexpired] at hlapses
      obtain ⟨plan', graceEnd, hplan', hend, rfl⟩ := hlapses
      obtain rfl : plan = plan' := Option.some.inj (h.plan.symm.trans hplan')
      -- the grace ends today or later
      have hover : ¬ SubscriptionRow.graceOverOn
          { sub with status := .pastDue, gracePeriodEndsAt := some graceEnd } day.today = true := by
        rw [Date.addDays?_eq_some] at hend
        simp only [SubscriptionRow.graceOverOn, Option.any_some, Bool.and_eq_true,
          decide_eq_true_eq, not_and, Date.lt_def]
        intro _
        have hle : (day.today.ordinal : ℤ) ≤ graceEnd.ordinal := by
          show ((⟨day.assessAt, day.today⟩ : Moment).today.ordinal : ℤ) ≤ _
          omega
        omega
      rw [SubscriptionRow.blocked, if_neg hover] at haccount
      exact ⟨_, haccount, ⟨rfl, h.plan, h.periodEnd, h.billing⟩, by simp, by simp⟩
    · obtain rfl : sub' = sub := by
        rw [SubscriptionRow.Lapses, if_neg hexpired] at hlapses
        exact hlapses
      have hover : ¬ sub'.graceOverOn day.today = true := by
        simp [SubscriptionRow.graceOverOn, hopen.2.2]
      rw [SubscriptionRow.blocked, if_neg hover] at haccount
      exact ⟨sub', haccount, hself, hopen.1, hopen.2.1⟩

/-- On another day than the one the next period begins on, and in a trial, nothing is billed. -/
theorem generate_idle (h : (db.account id).Reaches plan sub stop)
    (hidle : day.today ≠ stop ∨ sub.status = .trialing) :
    (day.generate db).account id = db.account id := by
  obtain ⟨fresh, haccount⟩ := account_generate ⟨day.generateAt, day.today⟩ db id
  have hdue : ¬ (db.account id).sub.any (·.dueOn day.today) = true := by
    rw [h.row, Option.any_some]
    simp only [SubscriptionRow.dueOn, h.billing, Bool.and_eq_true, Bool.or_eq_true,
      decide_eq_true_eq, Option.some.injEq, not_and]
    rintro hactive rfl
    rcases hidle with hne | htrial
    · exact hne rfl
    · rcases hactive with hactive | hactive <;> simp [hactive] at htrial
  rw [Account.generated, if_neg hdue] at haccount
  exact haccount

/-- On that day an active subscription is billed. -/
theorem generate_due (h : (db.account id).Reaches plan sub stop) (hactive : sub.status = .active)
    (hday : day.today = stop) (hnew : (db.account id).covers stop = false) :
    ∃ fresh, (day.generate db).account id =
      match stop.addDays? plan.billingPeriod.days with
      | none => db.account id
      | some next => { db.account id with
          sub := some (sub.advanced stop next)
          periods := db.periods id ++ [⟨fresh, stop, next⟩] } := by
  obtain ⟨fresh, haccount⟩ := account_generate ⟨day.generateAt, day.today⟩ db id
  have hdue : (db.account id).sub.any (·.dueOn day.today) = true := by
    rw [h.row, Option.any_some]
    simp [SubscriptionRow.dueOn, h.billing, hactive, hday]
  refine ⟨fresh, haccount.trans ?_⟩
  rw [Account.generated, if_pos hdue]
  simp only [Account.billed, h.row, h.plan, hday, hnew]
  cases stop.addDays? plan.billingPeriod.days with
  | none => rfl
  | some next => rfl

/-! ### Both tasks -/

/-- Nothing happens before the end of the period, nor on that day in a trial. -/
theorem day_idle (h : (db.account id).Reaches plan sub stop) (hstatus : sub.status ≠ .pastDue)
    (hday : day.today ≤ stop) (hidle : day.today ≠ stop ∨ sub.status = .trialing) :
    (day.step db).account id = db.account id := by
  unfold BeatDay.step
  split
  · have hfirst := assess_before day h hstatus hday
    rw [generate_idle day (hfirst ▸ h) hidle, hfirst]
  · have hfirst := generate_idle day h hidle
    rw [assess_before day (hfirst ▸ h) hstatus hday, hfirst]

/-- After that day the subscription may lapse, and is not billed. -/
theorem day_late (h : (db.account id).Reaches plan sub stop) (hgrace : 0 ≤ plan.gracePeriodDays)
    (hstatus : sub.status = .active ∨ sub.status = .trialing) (hday : stop < day.today) :
    ∃ sub', (day.step db).account id = (db.account id).put sub' ∧
      sub'.status ≠ .cancelled ∧ sub'.status ≠ .suspended := by
  have hidle : day.today ≠ stop := (Date.ne_of_lt hday).symm
  unfold BeatDay.step
  split
  · obtain ⟨sub', haccount, hreaches, hopen⟩ := assess_open day h hgrace hstatus
    refine ⟨sub', ?_, hopen⟩
    rw [generate_idle day (haccount ▸ hreaches) (.inl hidle), haccount]
  · have hfirst := generate_idle day h (.inl hidle)
    obtain ⟨sub', haccount, -, hopen⟩ := assess_open day (hfirst ▸ h) hgrace hstatus
    exact ⟨sub', by rw [haccount, hfirst], hopen⟩

/-- On the day itself an active subscription is billed. -/
theorem day_due (h : (db.account id).Reaches plan sub stop) (hactive : sub.status = .active)
    (hday : day.today = stop) (hnew : (db.account id).covers stop = false) :
    ∃ fresh, (day.step db).account id =
      match stop.addDays? plan.billingPeriod.days with
      | none => db.account id
      | some next => { db.account id with
          sub := some (sub.advanced stop next)
          periods := db.periods id ++ [⟨fresh, stop, next⟩] } := by
  have hstatus : sub.status ≠ .pastDue := by simp [hactive]
  have hle : day.today ≤ stop := hday ▸ le_refl day.today.ordinal
  unfold BeatDay.step
  split
  · have hfirst := assess_before day h hstatus hle
    obtain ⟨fresh, haccount⟩ := generate_due day (hfirst ▸ h) hactive hday (hfirst ▸ hnew)
    have hperiods : (day.assess db).periods id = db.periods id := congrArg Account.periods hfirst
    refine ⟨fresh, ?_⟩
    rw [haccount, hfirst, hperiods]
  · obtain ⟨fresh, haccount⟩ := generate_due day h hactive hday hnew
    refine ⟨fresh, ?_⟩
    cases hnext : stop.addDays? plan.billingPeriod.days with
    | none =>
      have hsame : (day.generate db).account id = db.account id := by
        rw [hnext] at haccount
        exact haccount
      rw [assess_before day (hsame ▸ h) hstatus hle, hsame]
    | some next =>
      rw [hnext] at haccount
      have hreaches : ((day.generate db).account id).Reaches plan (sub.advanced stop next) next := by
        rw [haccount]
        exact ⟨rfl, h.plan, rfl, rfl⟩
      rw [assess_before day hreaches hstatus ?_, haccount]
      rw [Date.addDays?_eq_some] at hnext
      rw [Date.le_def, hday]
      omega

end

/-! ## The boundaries -/

/-- The days meet every boundary from `stop` on, one every `period` days, until the last day; the
period that begins there ends within `limit`. -/
def Meets (period limit : ℕ) : ℕ → List ℕ → Prop
  | _, [] => True
  | stop, d :: days =>
    if d < stop then Meets period limit stop days
    else d = stop ∧ stop + period ≤ limit ∧ Meets period limit (stop + period) days

theorem meets_iff {period limit : ℕ} (hpos : 0 < period) {stop : ℕ} {days : List ℕ}
    (hdays : days.Pairwise (· < ·)) :
    Meets period limit stop days ↔ ∀ d ∈ days, ∀ k : ℕ, stop + k * period ≤ d →
      stop + k * period ∈ days ∧ stop + (k + 1) * period ≤ limit := by
  induction days generalizing stop with
  | nil => simp [Meets]
  | cons d days ih =>
    rw [List.pairwise_cons] at hdays
    obtain ⟨hfirst, hrest⟩ := hdays
    rw [Meets]
    by_cases hlt : d < stop
    · -- the boundaries are all later than this day
      rw [if_pos hlt, ih hrest]
      constructor
      · intro h d' hd' k hle
        rcases List.mem_cons.mp hd' with rfl | hd'
        · omega
        · obtain ⟨hmem, hlimit⟩ := h d' hd' k hle
          exact ⟨List.mem_cons_of_mem _ hmem, hlimit⟩
      · intro h d' hd' k hle
        obtain ⟨hmem, hlimit⟩ := h d' (List.mem_cons_of_mem _ hd') k hle
        rcases List.mem_cons.mp hmem with heq | hmem
        · omega
        · exact ⟨hmem, hlimit⟩
    · -- this day has to be the next boundary, the others come after it
      rw [if_neg hlt, ih hrest]
      have hshift : ∀ k : ℕ, stop + (k + 1) * period = stop + period + k * period := by
        intro k
        rw [Nat.succ_mul]
        omega
      constructor
      · rintro ⟨rfl, hlimit, h⟩ d' hd' k hle
        cases k with
        | zero => exact ⟨by simp, by omega⟩
        | succ k =>
          rw [hshift] at hle ⊢
          rcases List.mem_cons.mp hd' with rfl | hd'
          · omega
          · obtain ⟨hmem, hlimit'⟩ := h d' hd' k hle
            refine ⟨List.mem_cons_of_mem _ hmem, ?_⟩
            rw [hshift (k + 1)]
            exact hlimit'
      · intro h
        obtain ⟨hmem, hlimit⟩ := h d List.mem_cons_self 0 (by omega)
        have hd : d = stop := by
          rcases List.mem_cons.mp hmem with heq | hmem
          · omega
          · have := hfirst _ hmem
            omega
        subst hd
        refine ⟨rfl, by omega, ?_⟩
        intro d' hd' k hle
        rw [← hshift] at hle ⊢
        obtain ⟨hmem, hlimit'⟩ := h d' (List.mem_cons_of_mem _ hd') (k + 1) hle
        rcases List.mem_cons.mp hmem with heq | hmem
        · rw [hshift] at heq
          omega
        · refine ⟨hmem, ?_⟩
          rw [← hshift (k + 1)]
          exact hlimit'

/-! ## Runs -/

section

variable {db : Db} {id : Uuid} {plan : SubscriptionPlan} {sub : SubscriptionRow} {start stop : Date}

theorem periodsTile_cons {day : BeatDay} {days : List BeatDay} :
    PeriodsTile id start db (day :: days) ↔
      (start ≤ day.today → (day.step db).IsOpen id →
        Tiles start day.today ((day.step db).periods id)) ∧
      PeriodsTile id start (day.step db) days := by
  have hafter : ∀ {db : Db} {days : List BeatDay}, PeriodsTile id start db days ↔
      Along BeatDay.step (fun db day => start ≤ day.today → (day.step db).IsOpen id →
        Tiles start day.today ((day.step db).periods id)) db days :=
    after_iff_along (Q := fun (day : BeatDay) (db : Db) =>
      start ≤ day.today → db.IsOpen id → Tiles start day.today (db.periods id))
  rw [hafter, hafter, Along]

theorem isOpen_of_account {a : Account} (h : db.account id = a) (hrow : a.sub = some sub)
    (hopen : sub.status ≠ .cancelled ∧ sub.status ≠ .suspended) : db.IsOpen id := by
  have hget : db.subscriptions.get? id = some sub := (congrArg Account.sub h).trans hrow
  unfold Db.IsOpen Db.status?
  rw [hget]
  simpa using hopen

/-- A day on which nothing was added for a period that has ended breaks the tiling. -/
theorem not_tiles_after {day : BeatDay} {a : Account} (h : (day.step db).account id = a)
    (hrow : a.sub = some sub) (hopen : sub.status ≠ .cancelled ∧ sub.status ≠ .suspended)
    (hperiods : a.periods = db.periods id) (hconsecutive : Consecutive start (db.periods id) stop)
    (hday : stop ≤ day.today) :
    ¬ (start ≤ day.today → (day.step db).IsOpen id →
      Tiles start day.today ((day.step db).periods id)) := by
  intro htiles
  have hstart : start ≤ day.today := le_trans (b := stop.ordinal) hconsecutive.start_le hday
  have hsame : (day.step db).periods id = db.periods id :=
    (congrArg Account.periods h).trans hperiods
  have htile := htiles hstart (isOpen_of_account h hrow hopen)
  rw [hsame] at htile
  exact not_tiles hconsecutive hday htile

/-- No period begins where the periods end. -/
theorem covers_stop (hconsecutive : Consecutive start (db.periods id) stop) :
    (db.account id).covers stop = false := by
  rw [Account.covers, List.any_eq_false]
  intro p hp
  simpa using Date.ne_of_lt (hconsecutive.start_lt hp)

/-- A boundary that is met, with room in the calendar: the next period is there. -/
theorem day_met {day : BeatDay} {next : Date} (h : (db.account id).Reaches plan sub stop)
    (hactive : sub.status = .active) (hconsecutive : Consecutive start (db.periods id) stop)
    (heq : day.today = stop) (hnext : stop.addDays? plan.billingPeriod.days = some next)
    (hstep : stop < next) :
    ∃ fresh, ((day.step db).account id).Reaches plan (sub.advanced stop next) next ∧
      Consecutive start ((day.step db).periods id) next ∧
      ((day.step db).periods id).getLast? = some ⟨fresh, stop, next⟩ := by
  obtain ⟨fresh, haccount⟩ := day_due day h hactive heq (covers_stop hconsecutive)
  rw [hnext] at haccount
  have hperiods : (day.step db).periods id = db.periods id ++ [⟨fresh, stop, next⟩] :=
    congrArg Account.periods haccount
  refine ⟨fresh, ?_, ?_, ?_⟩
  · rw [haccount]
    exact ⟨rfl, h.plan, rfl, rfl⟩
  · rw [hperiods]
    exact hconsecutive.append hstep
  · rw [hperiods, List.getLast?_concat]

/-- Without a trial the periods tile as long as the days meet every boundary. -/
theorem periodsTile_iff_meets (hgrace : 0 ≤ plan.gracePeriodDays) {days : List BeatDay}
    (hdays : days.Pairwise fun d d' => d.today < d'.today)
    (h : (db.account id).Reaches plan sub stop) (hactive : sub.status = .active)
    (hconsecutive : Consecutive start (db.periods id) stop)
    (hlast : ∀ day ∈ days, start ≤ day.today → day.today < stop →
      ∃ p, (db.periods id).getLast? = some p ∧ p.start ≤ day.today) :
    PeriodsTile id start db days ↔
      Meets plan.billingPeriod.days maxOrdinal stop.ordinal (days.map (·.today.ordinal)) := by
  induction days generalizing db sub stop with
  | nil =>
    refine iff_of_true ?_ trivial
    intro front day hprefix
    simp at hprefix
  | cons day days ih =>
    rw [List.pairwise_cons] at hdays
    obtain ⟨hfirst, hrest⟩ := hdays
    have hopen : sub.status ≠ .cancelled ∧ sub.status ≠ .suspended := by simp [hactive]
    rw [periodsTile_cons, List.map_cons, Meets]
    by_cases hlt : day.today < stop
    · -- before the boundary: the last period reaches beyond this day
      have hsame := day_idle day h (by simp [hactive]) (Nat.le_of_lt hlt)
        (.inl (Date.ne_of_lt hlt))
      have hperiods : (day.step db).periods id = db.periods id := congrArg Account.periods hsame
      rw [if_pos (Date.lt_def.mp hlt), ih hrest (hsame ▸ h) hactive (hperiods ▸ hconsecutive) ?_]
      · refine and_iff_right ?_
        intro hstart _
        obtain ⟨p, hp, hle⟩ := hlast day List.mem_cons_self hstart hlt
        rw [hperiods]
        exact ⟨stop, hconsecutive, p, hp, hle, (hconsecutive.last_stop hp).symm ▸ hlt⟩
      · intro day' hday'
        rw [hperiods]
        exact hlast day' (List.mem_cons_of_mem _ hday')
    · rw [if_neg fun hlt' => hlt (Date.lt_def.mpr hlt')]
      obtain heq | hgt := Date.eq_or_lt_of_not_lt hlt
      · -- on the boundary: it is billed, unless the calendar ends
        cases hnext : stop.addDays? plan.billingPeriod.days with
        | none =>
          obtain ⟨fresh, haccount⟩ := day_due day h hactive heq (covers_stop hconsecutive)
          have hsame : (day.step db).account id = db.account id := by
            rw [hnext] at haccount
            exact haccount
          refine iff_of_false ?_ ?_
          · rintro ⟨htiles, -⟩
            exact not_tiles_after hsame h.row hopen rfl hconsecutive (heq ▸ le_refl stop.ordinal)
              htiles
          · rintro ⟨-, hlimit, -⟩
            have hmax := Date.max_lt_of_addDays? hnext
            omega
        | some next =>
          obtain ⟨hord, hlimit⟩ := Date.le_max_of_addDays? hnext
          have hpos : 0 < plan.billingPeriod.days := by cases plan.billingPeriod <;> decide
          have hstep : stop < next := by
            rw [Date.lt_def]
            omega
          obtain ⟨fresh, hreaches, hconsecutive', hgetLast⟩ :=
            day_met h hactive hconsecutive heq hnext hstep
          rw [ih hrest hreaches hactive hconsecutive' ?_]
          · rw [hord]
            refine and_congr (iff_of_true ?_ (congrArg Date.ordinal heq)) (and_iff_right hlimit).symm
            intro _ _
            refine ⟨next, hconsecutive', _, hgetLast, ?_, ?_⟩
            · exact heq ▸ le_refl stop.ordinal
            · exact heq ▸ hstep
          · intro day' hday' _ _
            refine ⟨_, hgetLast, ?_⟩
            exact Nat.le_of_lt (heq ▸ hfirst day' hday')
      · -- past a boundary that was not met
        obtain ⟨sub', haccount, hopen'⟩ := day_late day h hgrace (.inl hactive) hgt
        refine iff_of_false ?_ ?_
        · rintro ⟨htiles, -⟩
          exact not_tiles_after haccount rfl hopen' rfl hconsecutive (Nat.le_of_lt hgt) htiles
        · rintro ⟨heq, -⟩
          exact absurd heq (Nat.ne_of_gt hgt)

/-- After a trial nothing is ever billed. -/
theorem periodsTile_trial (hgrace : 0 ≤ plan.gracePeriodDays) {days : List BeatDay}
    (h : (db.account id).Reaches plan sub start) (htrial : sub.status = .trialing)
    (hnone : db.periods id = []) :
    PeriodsTile id start db days ↔ ∀ day ∈ days, ¬ start ≤ day.today := by
  induction days generalizing db with
  | nil =>
    refine iff_of_true ?_ fun _ hday => absurd hday List.not_mem_nil
    intro front day hprefix
    simp at hprefix
  | cons day days ih =>
    have hopen : sub.status ≠ .cancelled ∧ sub.status ≠ .suspended := by simp [htrial]
    have hconsecutive : Consecutive start (db.periods id) start := by
      rw [hnone]
      exact rfl
    rw [periodsTile_cons, List.forall_mem_cons]
    by_cases hlt : day.today < start
    · have hsame := day_idle day h (by simp [htrial]) (Nat.le_of_lt hlt) (.inr htrial)
      have hperiods : (day.step db).periods id = db.periods id := congrArg Account.periods hsame
      have hnot : ¬ start ≤ day.today := Nat.not_le_of_lt hlt
      rw [ih (hsame ▸ h) (hperiods.trans hnone)]
      exact and_congr (iff_of_true (fun hstart => absurd hstart hnot) hnot) Iff.rfl
    · refine iff_of_false ?_ fun hall => hall.1 (Nat.le_of_not_lt hlt)
      rintro ⟨htiles, -⟩
      obtain heq | hgt := Date.eq_or_lt_of_not_lt hlt
      · have hle : day.today ≤ start := heq ▸ le_refl start.ordinal
        have hsame := day_idle day h (by simp [htrial]) hle (.inr htrial)
        exact not_tiles_after hsame h.row hopen rfl hconsecutive (Nat.le_of_not_lt hlt) htiles
      · obtain ⟨sub', haccount, hopen'⟩ := day_late day h hgrace (.inr htrial) hgt
        exact not_tiles_after haccount rfl hopen' rfl hconsecutive (Nat.le_of_lt hgt) htiles

/-- The account of a subscription that was just assigned. -/
theorem account_assign {db' : Db} {m : Moment} {tenantId planId : Uuid} {startDate : Option Date}
    (hassign : SubscriptionService.assign m tenantId planId startDate db = .ok id db')
    (hplan : db.plans.get? planId = some plan)
    (hinvoices : ∀ i ∈ db.invoices.rows, ∃ s ∈ db.subscriptions.rows, s.id = i.subscriptionId) :
    ∃ sub, db'.subscriptions.get? id = some sub ∧ sub.status = plan.firstPeriod.1 ∧
      (db'.account id).Reaches plan sub sub.currentPeriodEnd ∧ db'.periods id = [] := by
  obtain ⟨t, plan', periodEnd, subs, -, hplan', -, -, -, hinsert, rfl, rfl⟩ :=
    assign_eq_ok.mp hassign
  obtain rfl : plan = plan' := Option.some.inj (hplan.symm.trans hplan')
  have hget : subs.get? db.subscriptions.fresh = some (newSubscription m tenantId plan
      (startDate.getD m.today) periodEnd db.subscriptions.fresh) :=
    Keyed.get?_of_mem (written_insert hinsert).mem
  have hkey : plan.id = planId := Keyed.key_of_get? hplan
  refine ⟨_, hget, rfl, ⟨hget, ?_, rfl, rfl⟩, ?_⟩
  · show db.plans.get? plan.id = some plan
    rw [hkey]
    exact hplan
  · -- no invoice was for the new id
    show (db.invoices.rows.filter fun i => i.subscriptionId = db.subscriptions.fresh).map _ = []
    rw [List.map_eq_nil_iff, List.filter_eq_nil_iff]
    intro i hi heq
    obtain ⟨s, hs, hid⟩ := hinvoices i hi
    have hlt : s.id < db.subscriptions.fresh := Keyed.lt_fresh hs
    exact hlt.ne (hid.trans (by simpa using heq))

/-- The invoices of a subscription tile the time from the end of its first period on if and only if
no day from then on is reached with a trial behind, and by each such day the tasks have run on every
day on which a period was to begin, each of these periods ending in the calendar. -/
theorem periods_tile_iff {db' : Db} {m : Moment} {tenantId planId : Uuid} {startDate : Option Date}
    (hassign : SubscriptionService.assign m tenantId planId startDate db = .ok id db')
    (hplan : db.plans.get? planId = some plan) (hgrace : 0 ≤ plan.gracePeriodDays)
    (hinvoices : ∀ i ∈ db.invoices.rows, ∃ s ∈ db.subscriptions.rows, s.id = i.subscriptionId)
    (hsub : db'.subscriptions.get? id = some sub) {days : List BeatDay}
    (hdays : days.Pairwise fun d d' => d.today < d'.today) :
    PeriodsTile id sub.currentPeriodEnd db' days ↔
      ∀ day ∈ days, sub.currentPeriodEnd ≤ day.today →
        plan.trialPeriodDays ≤ 0 ∧ ∀ k : ℕ,
          sub.currentPeriodEnd.ordinal + k * plan.billingPeriod.days ≤ day.today.ordinal →
          sub.currentPeriodEnd.ordinal + k * plan.billingPeriod.days
              ∈ days.map (·.today.ordinal) ∧
            sub.currentPeriodEnd.ordinal + (k + 1) * plan.billingPeriod.days ≤ maxOrdinal := by
  obtain ⟨sub', hsub', hstatus, hreaches, hnone⟩ := account_assign hassign hplan hinvoices
  obtain rfl : sub = sub' := Option.some.inj (hsub.symm.trans hsub')
  unfold SubscriptionPlan.firstPeriod at hstatus
  by_cases htrial : 0 < plan.trialPeriodDays
  · rw [if_pos htrial] at hstatus
    rw [periodsTile_trial hgrace hreaches hstatus hnone]
    refine forall₂_congr fun day _ => ?_
    constructor
    · exact fun hnot hstart => absurd hstart hnot
    · intro hall hstart
      have hle := (hall hstart).1
      omega
  · rw [if_neg htrial] at hstatus
    have hpos : 0 < plan.billingPeriod.days := by cases plan.billingPeriod <;> decide
    have hsorted : (days.map (·.today.ordinal)).Pairwise (· < ·) := List.pairwise_map.mpr hdays
    have hconsecutive : Consecutive sub.currentPeriodEnd (db'.periods id) sub.currentPeriodEnd := by
      rw [hnone]
      exact rfl
    rw [periodsTile_iff_meets hgrace hdays hreaches hstatus hconsecutive ?_, meets_iff hpos hsorted,
      List.forall_mem_map]
    · refine forall₂_congr fun day _ => ?_
      constructor
      · exact fun hall _ => ⟨by omega, hall⟩
      · intro hall k hle
        exact (hall (by rw [Date.le_def]; omega)).2 k hle
    · intro day _ hle hlt
      exact absurd hlt (Nat.not_lt_of_le hle)

end

/-! ## Three subscriptions -/

/-- A day of the calendar on which the tasks run, the assessment first. -/
def beatDay (today : Date) : BeatDay := ⟨today, 0, 0, true⟩

/-- The tasks run on the days on which periods begin, and on some others. -/
def punctual : List BeatDay :=
  [beatDay ⟨739020, by decide⟩, beatDay firstEnd, beatDay ⟨739040, by decide⟩,
    beatDay ⟨739060, by decide⟩, beatDay (.ofOrdinal 739061)]

theorem assignedDb_eq :
    SubscriptionService.assign ⟨0, dayOne⟩ 1 3 none plannedDb = .ok 1 assignedDb := by
  decide +kernel

theorem periods_tile_umoja : PeriodsTile 1 firstEnd assignedDb punctual := by
  obtain ⟨sub, hsub, hend⟩ := Option.map_eq_some_iff.mp firstEnd_assigned
  have hplan : plannedDb.plans.get? 3 = some monthlyPlan := by decide +kernel
  have hinvoices : ∀ i ∈ plannedDb.invoices.rows,
      ∃ s ∈ plannedDb.subscriptions.rows, s.id = i.subscriptionId :=
    fun i hi => absurd hi List.not_mem_nil
  have htile := (periods_tile_iff assignedDb_eq hplan (by decide) hinvoices hsub
    (show punctual.Pairwise fun d d' => d.today < d'.today by decide)).mpr
  rw [hend] at htile
  apply htile
  intro day hday _
  have hlatest : ∀ day ∈ punctual, day.today.ordinal ≤ 739061 := by decide
  refine ⟨by decide, fun k hle => ?_⟩
  have hday := hlatest day hday
  have hperiod : monthlyPlan.billingPeriod.days = 30 := rfl
  have hfirst : firstEnd.ordinal = 739030 := rfl
  rw [hperiod, hfirst] at hle ⊢
  obtain rfl | rfl : k = 0 ∨ k = 1 := by omega
  · decide
  · decide

/-- A monthly plan with a trial of two weeks. -/
def trialPlan : SubscriptionPlan := { monthlyPlan with trialPeriodDays := 14 }

/-- The tenant is on trial. -/
def trialDb : Db :=
  commit (SubscriptionService.assign ⟨0, dayOne⟩ 1 3 none)
    { freshDb with plans := ⟨[trialPlan], by decide⟩ }

def trialEnd : Date := ⟨739014, by decide⟩

/-- Neither the end of a trial nor a missed day is billed: the subscription stays open, without an
invoice. -/
theorem periods_not_billed :
    ((trialDb.subscriptions.get? 1).map (·.currentPeriodEnd) = some trialEnd ∧
      (run BeatDay.step trialDb [beatDay trialEnd]).status? 1 = some .trialing ∧
      (run BeatDay.step trialDb [beatDay trialEnd]).periods 1 = [] ∧
      ¬ PeriodsTile 1 trialEnd trialDb [beatDay trialEnd]) ∧
    (run BeatDay.step assignedDb [beatDay ⟨739031, by decide⟩]).status? 1 = some .pastDue ∧
    (run BeatDay.step assignedDb [beatDay ⟨739031, by decide⟩]).periods 1 = [] ∧
    ¬ PeriodsTile 1 firstEnd assignedDb [beatDay ⟨739031, by decide⟩] := by
  have hnot : ∀ {start day : Date}, ¬ Tiles start day [] := by
    rintro start day ⟨stop, -, p, hlast, -⟩
    cases hlast
  have htrial : (run BeatDay.step trialDb [beatDay trialEnd]).status? 1 = some .trialing := by
    decide +kernel
  have hmissed : (run BeatDay.step assignedDb [beatDay ⟨739031, by decide⟩]).status? 1
      = some .pastDue := by decide +kernel
  have htrial' : (run BeatDay.step trialDb [beatDay trialEnd]).periods 1 = [] := by decide +kernel
  have hmissed' : (run BeatDay.step assignedDb [beatDay ⟨739031, by decide⟩]).periods 1 = [] := by
    decide +kernel
  refine ⟨⟨by decide +kernel, htrial, htrial', fun h => ?_⟩, hmissed, hmissed', fun h => ?_⟩
  · have htile := h [] (beatDay trialEnd) (List.prefix_refl _) (by decide)
      (by rw [List.nil_append, Db.IsOpen, htrial]; decide)
    rw [List.nil_append, htrial'] at htile
    exact hnot htile
  · have htile := h [] (beatDay ⟨739031, by decide⟩) (List.prefix_refl _) (by decide)
      (by rw [List.nil_append, Db.IsOpen, hmissed]; decide)
    rw [List.nil_append, hmissed'] at htile
    exact hnot htile

end SaccoPlatform.Platform
