import SaccoPlatform.Fees.Collections
import SaccoPlatform.Lib.CalendarFields
import SaccoPlatform.Lib.Returns
import SaccoPlatform.MakerChecker.Footprints

/-!
# Scheduled fees

`_assess_scheduled_for_tenant` (`app/modules/fees/beat.py`). Every day the task assesses the active
members that are due for a scheduled fee, for the annual cycle that contains the day. A member is due
when the latest assessment ended before the day: on the day one cycle ends and the next begins, the
ended one still stands, and the next is assessed the day after. The period is computed outside the
`try`, the assessment inside, behind a savepoint of its own.
-/

namespace SaccoPlatform

open Lib Session

/-- `ck_fee_types_applicable_to`. -/
inductive FeeTarget where
  | member | savingsAccount | loan | shareAccount
deriving DecidableEq, Repr

/-- `ck_fee_types_trigger_kind`. -/
inductive FeeTriggerKind where
  | event | schedule | manual
deriving DecidableEq, Repr

/-- The keys of `schedule_config` that the task reads. -/
structure ScheduleConfig where
  month : Option ℤ
  day : Option ℤ
deriving DecidableEq, Repr

/-- A row of `fee_types`, with the columns that say when it is charged. -/
structure FeeSchedule where
  feeType : FeeType
  applicableTo : FeeTarget
  triggerKind : FeeTriggerKind
  scheduleConfig : Option ScheduleConfig
  isActive : Bool
deriving DecidableEq, Repr

/-- `int(config.get("month", 1))`. -/
def FeeSchedule.month (f : FeeSchedule) : ℤ := (f.scheduleConfig.bind (·.month)).getD 1

/-- `int(config.get("day", 1))`. -/
def FeeSchedule.day (f : FeeSchedule) : ℤ := (f.scheduleConfig.bind (·.day)).getD 1

/-- The tables of a tenant with the columns of the fees that only the schedule uses: the fee types,
and the `period_end` of the assessments that have one, by id. -/
structure FeeDb where
  tables : Tables
  catalog : List FeeSchedule
  periodEnds : List (Uuid × Date)
deriving DecidableEq

/-- A service method on the tables. -/
def onTables {α : Type} (x : Call α) : Session FeeDb Err α := fun db =>
  match x db.tables with
  | .ok a t => .ok a { db with tables := t }
  | .raised e t => .raised e { db with tables := t }
  | .aborted e => .aborted e

/-- The `period_end` of an assessment. -/
def FeeDb.periodEnd? (db : FeeDb) (assessmentId : Uuid) : Option Date :=
  (db.periodEnds.find? (·.1 = assessmentId)).map (·.2)

/-- `date(year, month, day)`. -/
def dateOf (year month day : ℤ) : Except Err Date :=
  match Date.ofYmd? year month day with
  | some d => .ok d
  | none => .error (.valueError
      (if year < 1 ∨ 9999 < year then s!"year {year} is out of range"
      else if month < 1 ∨ 12 < month then "month must be in 1..12"
      else "day is out of range for month"))

/-- The period of the current cycle. -/
def scheduledPeriod (today : Date) (month day : ℤ) : Except Err (Date × Date) := do
  let thisYear ← dateOf today.year month day
  let periodStart ← if today < thisYear then dateOf (today.year - 1) month day else .ok thisYear
  let periodEnd ← dateOf (periodStart.year + 1) month day
  .ok (periodStart, periodEnd)

/-- `_is_annual_sub_due`. -/
def isAnnualSubDue (today : Date) (lastAssessmentPeriodEnd : Option Date) : Bool :=
  match lastAssessmentPeriodEnd with
  | none => true
  | some periodEnd => periodEnd < today

/-- An assessment of the fee for the member. -/
def FeeAssessment.Charges (feeTypeId memberId : Uuid) (a : FeeAssessment) : Prop :=
  a.feeTypeId = feeTypeId ∧ a.targetType = "member" ∧ a.targetId = memberId

instance (feeTypeId memberId : Uuid) : DecidablePred (FeeAssessment.Charges feeTypeId memberId) :=
  fun _ => inferInstanceAs (Decidable (_ ∧ _ ∧ _))

/-- One that was not waived or cancelled. -/
def FeeAssessment.Counts (a : FeeAssessment) : Prop := a.status ∈ [.assessed, .partiallyPaid, .paid]

instance : DecidablePred FeeAssessment.Counts := fun _ => inferInstanceAs (Decidable (_ ∈ _))

/-- The `period_end` of the latest assessment that counts. -/
def FeeDb.latestPeriodEnd (db : FeeDb) (feeTypeId memberId : Uuid) : Option Date :=
  let rows := db.tables.feeAssessments.filter fun a => a.Charges feeTypeId memberId ∧ a.Counts
  (rows.insertionSort fun a b => b.periodStart ≤ a.periodStart).head?.bind
    fun a => db.periodEnd? a.id

/-- `assess` with the `period_end` of the new row; an assessment that is found again keeps its own. -/
def assessPeriod (a : AssessIn) (periodEnd : Date) : Session FeeDb Err Uuid := do
  let db ← get
  let id ← onTables (assess a)
  when ((db.tables.assessment? id).isNone = true)
    (modify fun db => { db with periodEnds := db.periodEnds ++ [(id, periodEnd)] })
  pure id

/-- What the task returns and logs: the assessments made, and fee type and member of each
`fees.beat.assess_error`. -/
structure AssessReport where
  assessed : ℕ
  failed : List (String × Uuid)
deriving DecidableEq, Repr

/-- One member. -/
def assessMember (today : Date) (f : FeeSchedule) (report : AssessReport) (m : Member) :
    Session FeeDb Err AssessReport := do
  let db ← get
  if isAnnualSubDue today (db.latestPeriodEnd f.feeType.id m.id) then
    let (periodStart, periodEnd) ← ofExcept (scheduledPeriod today f.month f.day)
    let posted ← savepoint (assessPeriod
      { feeType := f.feeType, targetType := "member", targetId := m.id, periodStart := periodStart,
        actor := systemActor,
        idempotencyKey := s!"sched-{f.feeType.id}-{m.id}-{periodStart.isoformat}" } periodEnd)
    pure (if posted.isSome then { report with assessed := report.assessed + 1 }
      else { report with failed := report.failed ++ [(f.feeType.code, m.id)] })
  else pure report

/-- One fee type: only fees of members are assessed. -/
def assessFeeType (today : Date) (report : AssessReport) (f : FeeSchedule) :
    Session FeeDb Err AssessReport := do
  if f.applicableTo ≠ .member then pure report
  else
    let db ← get
    foldEach (assessMember today f) (db.tables.members.filter (·.status = .active)) report

/-- `_assess_scheduled_for_tenant`. -/
def assessScheduledForTenant (today : Date) : Session FeeDb Err AssessReport := do
  let db ← get
  foldEach (assessFeeType today)
    (db.catalog.filter fun f => f.triggerKind = .schedule ∧ f.isActive = true) ⟨0, []⟩

/-- The durable tables after the task; a run that raises leaves them as they were. -/
def FeeDb.tick (db : FeeDb) (today : Date) : FeeDb := commit (assessScheduledForTenant today) db

/-! ## The period of a day -/

/-- `schedule_config` names a day of the calendar, and one that every year has. -/
structure FeeSchedule.Yearly (f : FeeSchedule) : Prop where
  real : ∃ year, (Date.ofYmd? year f.month f.day).isSome
  notLeapDay : ¬ (f.month = 2 ∧ f.day = 29)

/-- Only the length of February depends on the year. -/
theorem daysInMonth_eq {month : ℕ} (hmonth : month ≠ 2) (y y' : ℕ) :
    Date.daysInMonth y month = Date.daysInMonth y' month := by
  unfold Date.daysInMonth
  rw [if_neg hmonth, if_neg hmonth]

theorem FeeSchedule.Yearly.dateOf {f : FeeSchedule} (h : f.Yearly) {y : ℕ} (hy : 1 ≤ y ∧ y ≤ 9999) :
    ∃ d, SaccoPlatform.dateOf y f.month f.day = .ok d ∧ d.year = y := by
  obtain ⟨year, hsome⟩ := h.real
  obtain ⟨d₀, hd₀⟩ := Option.isSome_iff_exists.mp hsome
  obtain ⟨-, hm, hn⟩ := Date.ofYmd?_eq_some.mp hd₀
  obtain ⟨hmonth, hmonth', -⟩ := d₀.month_spec
  obtain ⟨hday, hday', -⟩ := d₀.day_spec
  have hfits : d₀.day ≤ Date.daysInMonth y d₀.month := by
    by_cases hfeb : d₀.month = 2
    · have hleap := h.notLeapDay
      have hlong := (Date.daysInMonth_pos y d₀.month).1
      have hmax : Date.daysInMonth d₀.year d₀.month ≤ 29 := by
        rw [hfeb]
        unfold Date.daysInMonth
        rw [if_pos rfl]
        split <;> omega
      omega
    · rw [daysInMonth_eq hfeb y d₀.year]
      exact hday'
  obtain ⟨d, hd⟩ := Date.exists_ofYmd? hy ⟨hmonth, hmonth'⟩ ⟨hday, hfits⟩
  rw [hm, hn] at hd
  refine ⟨d, ?_, ?_⟩
  · unfold SaccoPlatform.dateOf
    rw [hd]
  · have hyear := (Date.ofYmd?_eq_some.mp hd).1
    omega

/-- The cycle of a day begins by then and ends after it. -/
theorem FeeSchedule.Yearly.scheduledPeriod {f : FeeSchedule} (h : f.Yearly) {today : Date}
    (hyear : 2 ≤ today.year ∧ today.year ≤ 9998) :
    ∃ periodStart periodEnd,
      SaccoPlatform.scheduledPeriod today f.month f.day = .ok (periodStart, periodEnd) ∧
        periodStart ≤ today ∧ today < periodEnd := by
  obtain ⟨first, hfirst, hsame⟩ := h.dateOf (show 1 ≤ today.year ∧ today.year ≤ 9999 by omega)
  unfold SaccoPlatform.scheduledPeriod
  rw [hfirst]
  by_cases hlater : today < first
  · obtain ⟨start, hstart, hbefore⟩ := h.dateOf (show 1 ≤ today.year - 1 ∧ today.year - 1 ≤ 9999 by omega)
    have hpred : ((today.year - 1 : ℕ) : ℤ) = (today.year : ℤ) - 1 := by omega
    have hnext : (start.year : ℤ) + 1 = today.year := by omega
    rw [hpred] at hstart
    refine ⟨start, first, ?_, ?_, hlater⟩
    · simp only [bind, Except.bind, if_pos hlater, hstart, hnext, hfirst]
    · have hlt := Date.lt_of_year_lt (show start.year < today.year by omega)
      exact Nat.le_of_lt hlt
  · obtain ⟨finish, hfinish, hafter⟩ := h.dateOf (show 1 ≤ today.year + 1 ∧ today.year + 1 ≤ 9999 by omega)
    have hnext : (first.year : ℤ) + 1 = ((today.year + 1 : ℕ) : ℤ) := by omega
    refine ⟨first, finish, ?_, ?_, Date.lt_of_year_lt (by omega)⟩
    · simp only [bind, Except.bind, if_neg hlater, hnext, hfinish]
    · exact Nat.le_of_not_lt hlater

/-! ## One assessment -/

/-- The assessment stands in the table, with this `period_end`. -/
def FeeDb.Has (db : FeeDb) (a : FeeAssessment) (periodEnd : Option Date) : Prop :=
  a ∈ db.tables.feeAssessments ∧ db.periodEnd? a.id = periodEnd

/-- The columns of `uq_fee_assessments_idempotency`. -/
def FeeAssessment.cycle (a : FeeAssessment) : Uuid × String × Uuid × Date :=
  (a.feeTypeId, a.targetType, a.targetId, a.periodStart)

/-- The keys of the tables: the ids are drawn, and there is one assessment for a fee type, a target and
the start of a period. -/
structure FeeDb.Keyed (db : FeeDb) : Prop where
  types : (db.catalog.map (·.feeType.id)).Nodup
  ids : ∀ a ∈ db.tables.feeAssessments, a.id < db.tables.nextId
  ends : ∀ p ∈ db.periodEnds, p.1 < db.tables.nextId
  once : (db.tables.feeAssessments.map (·.cycle)).Nodup

theorem onTables_eq_ok {α : Type} {x : Call α} {a : α} {db db' : FeeDb} :
    onTables x db = .ok a db' ↔ ∃ t, x db.tables = .ok a t ∧ db' = { db with tables := t } := by
  unfold onTables
  cases hx : x db.tables with
  | ok b t =>
    constructor
    · intro h
      cases h
      exact ⟨t, rfl, rfl⟩
    · intro ⟨t', h, hdb⟩
      cases h
      rw [hdb]
  | raised e t =>
    constructor
    · intro h
      cases h
    · intro ⟨t', h, _⟩
      cases h
  | aborted e =>
    constructor
    · intro h
      cases h
    · intro ⟨t', h, _⟩
      cases h

theorem assess_members {x : AssessIn} {id : Uuid} {t t' : Tables} (h : assess x t = .ok id t') :
    t'.members = t.members := by
  have hframe : FeeFrame (Keeps (·.members) : Tables → Tables → Prop) :=
    ⟨fun _ _ _ _ _ _ => rfl, fun _ _ _ => rfl⟩
  exact (assess_writes hframe x).ok h

/-- The new row of an assessment. -/
structure NewAssessment (x : AssessIn) (periodEnd : Date) (r : FeeAssessment) (db db' : FeeDb) : Prop where
  unmatched : ∀ a ∈ db.tables.feeAssessments, ¬ x.Matches a
  matched : x.Matches r
  counts : r.Counts
  fresh : db.tables.nextId ≤ r.id
  drawn : r.id < db'.tables.nextId
  rows : db'.tables.feeAssessments = db.tables.feeAssessments ++ [r]
  ends : db'.periodEnds = db.periodEnds ++ [(r.id, periodEnd)]

/-- An assessment is found again and nothing changes, or there is a new row. -/
theorem assessPeriod_ok {x : AssessIn} {periodEnd : Date} {id : Uuid} {db db' : FeeDb}
    (hkeyed : db.Keyed) (h : assessPeriod x periodEnd db = .ok id db') :
    db'.catalog = db.catalog ∧ db'.tables.members = db.tables.members ∧
      ((db' = db ∧ ∃ r ∈ db.tables.feeAssessments, x.Matches r) ∨
        ∃ r, NewAssessment x periodEnd r db db') := by
  unfold assessPeriod at h
  rw [get_bind_eq_ok] at h
  obtain ⟨id', db₁, hassess, h⟩ := bind_eq_ok.mp h
  obtain ⟨t, hok, rfl⟩ := onTables_eq_ok.mp hassess
  have hmembers := assess_members hok
  obtain ⟨u, db₂, hends, hpure⟩ := bind_eq_ok.mp h
  obtain ⟨rfl, rfl⟩ := pure_eq_ok.mp hpure
  rcases assess_ok hkeyed.ids hok with
    ⟨rfl, r, hr, hid, hmatches⟩ | ⟨hunmatched, r, rfl, hmatches, hcounts, hfresh, hdrawn, hrows⟩
  · -- the row is known, so its `period_end` is left alone
    have hknown : ¬ (db.tables.assessment? id').isNone = true := by
      rw [Option.isNone_iff_eq_none, Tables.assessment?, List.find?_eq_none]
      intro hnone
      exact hnone r hr (decide_eq_true hid)
    unfold Session.when at hends
    rw [if_neg hknown] at hends
    obtain ⟨-, rfl⟩ := pure_eq_ok.mp hends
    exact ⟨rfl, rfl, .inl ⟨rfl, r, hr, hmatches⟩⟩
  · have hnew : (db.tables.assessment? r.id).isNone = true := by
      rw [Option.isNone_iff_eq_none, Tables.assessment?, List.find?_eq_none]
      intro a ha heq
      exact ((hkeyed.ids a ha).trans_le hfresh).ne (of_decide_eq_true heq)
    unfold Session.when at hends
    rw [if_pos hnew, modify_eq_ok] at hends
    subst hends
    exact ⟨rfl, hmembers, .inr ⟨r, hunmatched, hmatches, hcounts, hfresh, hdrawn, hrows, rfl⟩⟩

/-! ## What a run adds -/

/-- The fees that the task assesses. -/
def FeeSchedule.Scheduled (f : FeeSchedule) : Prop :=
  (f.triggerKind = .schedule ∧ f.isActive = true) ∧ f.applicableTo = .member

instance : DecidablePred FeeSchedule.Scheduled := fun _ => inferInstanceAs (Decidable (_ ∧ _))

/-- The assessment was made by the run of a day, for the cycle of that day. -/
structure MadeOn (catalog : List FeeSchedule) (day : Date) (a : FeeAssessment) (periodEnd : Option Date) :
    Prop where
  counts : a.Counts
  cycle : ∃ f ∈ catalog, f.Scheduled ∧ a.feeTypeId = f.feeType.id ∧ ∃ finish,
    scheduledPeriod day f.month f.day = .ok (a.periodStart, finish) ∧ periodEnd = some finish

/-- The assessments stay as they are, and those that are added are made on the day. -/
structure Adds (catalog : List FeeSchedule) (day : Date) (db db' : FeeDb) : Prop where
  kept : ∀ a periodEnd, db.Has a periodEnd → db'.Has a periodEnd
  made : ∀ a periodEnd, db'.Has a periodEnd → db.Has a periodEnd ∨ MadeOn catalog day a periodEnd

instance (catalog : List FeeSchedule) (day : Date) : IsPreorder FeeDb (Adds catalog day) where
  refl _ := ⟨fun _ _ h => h, fun _ _ h => .inl h⟩
  trans db db₁ db₂ h h' := by
    refine ⟨fun a e ha => h'.kept a e (h.kept a e ha), ?_⟩
    intro a e ha
    rcases h'.made a e ha with hmid | hmade
    · exact h.made a e hmid
    · exact .inr hmade

section

variable {x : AssessIn} {periodEnd : Date} {r : FeeAssessment} {db db' : FeeDb}

/-- The new row is found under its end, the others under theirs. -/
theorem NewAssessment.periodEnd?_eq (h : NewAssessment x periodEnd r db db') (hkeyed : db.Keyed) :
    db'.periodEnd? r.id = some periodEnd ∧
      ∀ i < db.tables.nextId, db'.periodEnd? i = db.periodEnd? i := by
  unfold FeeDb.periodEnd?
  rw [h.ends]
  constructor
  · have hnone : db.periodEnds.find? (·.1 = r.id) = none := by
      rw [List.find?_eq_none]
      intro p hp heq
      exact ((hkeyed.ends p hp).trans_le h.fresh).ne (of_decide_eq_true heq)
    rw [List.find?_append, hnone, Option.none_or, List.find?_singleton, if_pos (decide_eq_true rfl)]
    rfl
  · intro i hi
    have hne : r.id ≠ i := (hi.trans_le h.fresh).ne'
    rw [List.find?_append, List.find?_singleton, if_neg (by simpa using hne), Option.or_none]

theorem NewAssessment.keyed (h : NewAssessment x periodEnd r db db')
    (hcatalog : db'.catalog = db.catalog) (hkeyed : db.Keyed) : db'.Keyed := by
  have hgrows : db.tables.nextId < db'.tables.nextId := h.fresh.trans_lt h.drawn
  refine ⟨?_, ?_, ?_, ?_⟩
  · rw [hcatalog]
    exact hkeyed.types
  · intro a ha
    rw [h.rows] at ha
    rcases List.mem_append.mp ha with ha | ha
    · exact (hkeyed.ids a ha).trans hgrows
    · rw [List.mem_singleton.mp ha]
      exact h.drawn
  · intro p hp
    rw [h.ends] at hp
    rcases List.mem_append.mp hp with hp | hp
    · exact (hkeyed.ends p hp).trans hgrows
    · rw [List.mem_singleton.mp hp]
      exact h.drawn
  · rw [h.rows, List.map_append, List.nodup_append]
    refine ⟨hkeyed.once, List.nodup_singleton _, ?_⟩
    intro k hk k' hk' heq
    obtain ⟨a, ha, rfl⟩ := List.mem_map.mp hk
    rw [List.map_singleton, List.mem_singleton] at hk'
    have hsame : a.cycle = r.cycle := heq.trans hk'
    simp only [FeeAssessment.cycle, Prod.mk.injEq] at hsame
    obtain ⟨hfee, htype, htarget, hstart⟩ := hsame
    obtain ⟨hfee', htype', htarget', hstart'⟩ := h.matched
    exact h.unmatched a ha ⟨hfee.trans hfee', htype.trans htype', htarget.trans htarget',
      hstart.trans hstart'⟩

theorem NewAssessment.adds {catalog : List FeeSchedule} {day : Date}
    (h : NewAssessment x periodEnd r db db') (hkeyed : db.Keyed)
    (hmade : MadeOn catalog day r (some periodEnd)) : Adds catalog day db db' := by
  obtain ⟨hown, hothers⟩ := h.periodEnd?_eq hkeyed
  refine ⟨?_, ?_⟩
  · intro a e ha
    refine ⟨?_, (hothers a.id (hkeyed.ids a ha.1)).trans ha.2⟩
    rw [h.rows]
    exact List.mem_append_left _ ha.1
  · intro a e ha
    obtain ⟨hmem, hend⟩ := ha
    rw [h.rows] at hmem
    rcases List.mem_append.mp hmem with hold | hnew
    · exact .inl ⟨hold, (hothers a.id (hkeyed.ids a hold)).symm.trans hend⟩
    · rw [List.mem_singleton.mp hnew] at hend ⊢
      rw [← hend, hown]
      exact .inr hmade

end

/-! ## A run -/

/-- Failures are logged and stay, and assessments are added. -/
def Proceeds (catalog : List FeeSchedule) (day : Date) (p q : AssessReport × FeeDb) : Prop :=
  p.1.failed ⊆ q.1.failed ∧ Adds catalog day p.2 q.2

instance (catalog : List FeeSchedule) (day : Date) :
    IsPreorder (AssessReport × FeeDb) (Proceeds catalog day) where
  refl p := ⟨List.Subset.refl _, refl_of (Adds catalog day) p.2⟩
  trans _ _ _ h h' := ⟨List.Subset.trans h.1 h'.1, trans_of (Adds catalog day) h.2 h'.2⟩

/-- The assessment of the member failed, or one stands that ends on the day or later, or one stands
for the cycle of the day. -/
def Settled (today : Date) (f : FeeSchedule) (m : Member) (p : AssessReport × FeeDb) : Prop :=
  (f.feeType.code, m.id) ∈ p.1.failed ∨
    (∃ a periodEnd, p.2.Has a (some periodEnd) ∧ a.Charges f.feeType.id m.id ∧ today ≤ periodEnd) ∨
    ∃ a periodEnd finish, p.2.Has a periodEnd ∧ a.Charges f.feeType.id m.id ∧
      scheduledPeriod today f.month f.day = .ok (a.periodStart, finish)

/-- What holds between the rounds. -/
structure Underway (catalog : List FeeSchedule) (members : List Member) (p : AssessReport × FeeDb) :
    Prop where
  keyed : p.2.Keyed
  catalog_eq : p.2.catalog = catalog
  members_eq : p.2.tables.members = members

section

variable {catalog : List FeeSchedule} {members : List Member} {today : Date} {f : FeeSchedule}
  {m : Member} {report : AssessReport} {db : FeeDb}

theorem Settled.mono {p q : AssessReport × FeeDb} (hmove : Proceeds catalog today p q)
    (h : Settled today f m p) : Settled today f m q := by
  rcases h with hfailed | ⟨a, e, ha, hcharges, hend⟩ | ⟨a, e, finish, ha, hcharges, hperiod⟩
  · exact .inl (hmove.1 hfailed)
  · exact .inr (.inl ⟨a, e, hmove.2.kept a _ ha, hcharges, hend⟩)
  · exact .inr (.inr ⟨a, e, finish, hmove.2.kept a _ ha, hcharges, hperiod⟩)

/-- A member that is not due has an assessment that has not ended. -/
theorem latestPeriodEnd_eq_some {feeTypeId memberId : Uuid} {periodEnd : Date}
    (h : db.latestPeriodEnd feeTypeId memberId = some periodEnd) :
    ∃ a, db.Has a (some periodEnd) ∧ a.Charges feeTypeId memberId := by
  unfold FeeDb.latestPeriodEnd at h
  obtain ⟨a, hhead, hend⟩ := Option.bind_eq_some_iff.mp h
  have hmem := List.mem_of_mem_head? hhead
  rw [List.mem_insertionSort, List.mem_filter] at hmem
  have hboth := of_decide_eq_true hmem.2
  exact ⟨a, ⟨hmem.1, hend⟩, hboth.1⟩

theorem assessMember_settles (hf : f ∈ catalog) (hscheduled : f.Scheduled) (hyearly : f.Yearly)
    (hyear : 2 ≤ today.year ∧ today.year ≤ 9998) (h : Underway catalog members (report, db)) :
    ∃ report' db', assessMember today f report m db = .ok report' db' ∧
      Underway catalog members (report', db') ∧ Proceeds catalog today (report, db) (report', db') ∧
      Settled today f m (report', db') := by
  by_cases hdue : isAnnualSubDue today (db.latestPeriodEnd f.feeType.id m.id) = true
  · obtain ⟨start, finish, hperiod, -, -⟩ := hyearly.scheduledPeriod hyear
    have hround : assessMember today f report m db = (do
        let posted ← savepoint (assessPeriod ⟨f.feeType, "member", m.id, start, systemActor,
          s!"sched-{f.feeType.id}-{m.id}-{start.isoformat}"⟩ finish)
        pure (if posted.isSome then { report with assessed := report.assessed + 1 }
          else { report with failed := report.failed ++ [(f.feeType.code, m.id)] }) :
            Session FeeDb Err AssessReport) db := by
      unfold assessMember
      rw [bind_apply, get_apply]
      dsimp only
      rw [if_pos hdue, hperiod]
      rfl
    rw [hround]
    generalize hx : AssessIn.mk f.feeType "member" m.id start systemActor
      s!"sched-{f.feeType.id}-{m.id}-{start.isoformat}" = x
    have hfee : x.feeType = f.feeType := by
      rw [← hx]
    have htype : x.targetType = "member" := by
      rw [← hx]
    have htarget : x.targetId = m.id := by
      rw [← hx]
    have hstart : x.periodStart = start := by
      rw [← hx]
    have hcharges : ∀ a, x.Matches a → a.Charges f.feeType.id m.id ∧ a.periodStart = start := by
      intro a ha
      obtain ⟨h₁, h₂, h₃, h₄⟩ := ha
      rw [hfee] at h₁
      exact ⟨⟨h₁, h₂.trans htype, h₃.trans htarget⟩, h₄.trans hstart⟩
    rcases savepoint_cases (assessPeriod x finish) db with ⟨id, db', hok, hsave⟩ | hsave
    · obtain ⟨hcatalog, hmembers, hcases⟩ := assessPeriod_ok h.keyed hok
      refine ⟨_, db', bind_eq_ok.mpr ⟨_, _, hsave, rfl⟩, ?_⟩
      rcases hcases with ⟨rfl, a, ha, hmatches⟩ | ⟨r, hnew⟩
      · obtain ⟨hown, hsame⟩ := hcharges a hmatches
        refine ⟨⟨h.keyed, h.catalog_eq, h.members_eq⟩,
          ⟨List.Subset.refl _, refl_of (Adds catalog today) _⟩, ?_⟩
        exact .inr (.inr ⟨a, _, finish, ⟨ha, rfl⟩, hown, hsame ▸ hperiod⟩)
      · obtain ⟨hown, hsame⟩ := hcharges r hnew.matched
        have hmade : MadeOn catalog today r (some finish) :=
          ⟨hnew.counts, f, hf, hscheduled, hown.1, finish, hsame ▸ hperiod, rfl⟩
        have hadds := hnew.adds h.keyed hmade
        refine ⟨⟨hnew.keyed hcatalog h.keyed, hcatalog.trans h.catalog_eq, hmembers.trans h.members_eq⟩,
          ⟨List.Subset.refl _, hadds⟩, ?_⟩
        have hmem : r ∈ db'.tables.feeAssessments := by
          rw [hnew.rows]
          exact List.mem_append_right _ (List.mem_singleton_self r)
        exact .inr (.inr ⟨r, _, finish, ⟨hmem, rfl⟩, hown, hsame ▸ hperiod⟩)
    · refine ⟨_, db, bind_eq_ok.mpr ⟨_, _, hsave, rfl⟩, ⟨h.keyed, h.catalog_eq, h.members_eq⟩,
        ⟨?_, refl_of (Adds catalog today) _⟩, .inl ?_⟩
      · exact List.subset_append_left _ _
      · exact List.mem_append_right _ (List.mem_singleton_self _)
  · have hround : assessMember today f report m db = .ok report db := by
      unfold assessMember
      rw [bind_apply, get_apply]
      dsimp only
      rw [if_neg hdue]
      rfl
    refine ⟨report, db, hround, h, refl_of (Proceeds catalog today) _, ?_⟩
    cases hlatest : db.latestPeriodEnd f.feeType.id m.id with
    | none =>
      rw [hlatest] at hdue
      exact absurd rfl hdue
    | some e =>
      rw [hlatest] at hdue
      obtain ⟨a, ha, hcharges⟩ := latestPeriodEnd_eq_some hlatest
      have hend : today ≤ e := by
        have hnot : ¬ e < today := fun hlt => hdue (decide_eq_true hlt)
        exact Nat.le_of_not_lt hnot
      exact .inr (.inl ⟨a, e, ha, hcharges, hend⟩)

theorem assessFeeType_settles (hf : f ∈ catalog)
    (hlisted : f.triggerKind = .schedule ∧ f.isActive = true) (hyearly : f.Scheduled → f.Yearly)
    (hyear : 2 ≤ today.year ∧ today.year ≤ 9998) (h : Underway catalog members (report, db)) :
    ∃ report' db', assessFeeType today report f db = .ok report' db' ∧
      Underway catalog members (report', db') ∧ Proceeds catalog today (report, db) (report', db') ∧
      (f.Scheduled → ∀ m ∈ members, m.status = .active → Settled today f m (report', db')) := by
  unfold assessFeeType
  by_cases htarget : f.applicableTo = .member
  · have hscheduled : f.Scheduled := ⟨hlisted, htarget⟩
    rw [if_neg (not_not.mpr htarget), bind_apply, get_apply]
    dsimp only
    have hactive : db.tables.members = members := h.members_eq
    rw [hactive]
    have hkeep : ∀ (m : Member) (p q : AssessReport × FeeDb), Proceeds catalog today p q →
        Settled today f m p → Settled today f m q := fun _ _ _ hmove hdone => hdone.mono hmove
    obtain ⟨report', db', hok, hunder, hmove, hall⟩ := foldEach_visits hkeep
      (fun m _ report db hinv => assessMember_settles hf hscheduled (hyearly hscheduled) hyear hinv) h
    refine ⟨report', db', hok, hunder, hmove, ?_⟩
    intro _ m hm hstatus
    exact hall m (List.mem_filter.mpr ⟨hm, decide_eq_true hstatus⟩)
  · rw [if_pos htarget]
    refine ⟨report, db, rfl, h, refl_of (Proceeds catalog today) _, ?_⟩
    intro hscheduled
    exact absurd hscheduled.2 htarget

/-- A run returns, adds assessments of its day and settles every active member. -/
theorem assessScheduled_settles (hkeyed : db.Keyed)
    (hyearly : ∀ f ∈ db.catalog, f.Scheduled → f.Yearly)
    (hyear : 2 ≤ today.year ∧ today.year ≤ 9998) :
    ∃ report db', assessScheduledForTenant today db = .ok report db' ∧
      Underway db.catalog db.tables.members (report, db') ∧ Adds db.catalog today db db' ∧
      ∀ f ∈ db.catalog, f.Scheduled → ∀ m ∈ db.tables.members, m.status = .active →
        Settled today f m (report, db') := by
  unfold assessScheduledForTenant
  rw [bind_apply, get_apply]
  dsimp only
  have hkeep : ∀ (f : FeeSchedule) (p q : AssessReport × FeeDb), Proceeds db.catalog today p q →
      (f.Scheduled → ∀ m ∈ db.tables.members, m.status = .active → Settled today f m p) →
      (f.Scheduled → ∀ m ∈ db.tables.members, m.status = .active → Settled today f m q) := by
    intro f p q hmove hdone hscheduled m hm hactive
    exact (hdone hscheduled m hm hactive).mono hmove
  have hstart : Underway db.catalog db.tables.members (⟨0, []⟩, db) := ⟨hkeyed, rfl, rfl⟩
  obtain ⟨report, db', hok, hunder, hmove, hall⟩ := foldEach_visits hkeep
    (fun f hf report s hinv => assessFeeType_settles (List.mem_of_mem_filter hf)
      (of_decide_eq_true (List.mem_filter.mp hf).2)
      (hyearly f (List.mem_of_mem_filter hf)) hyear hinv) hstart
  refine ⟨report, db', hok, hunder, hmove.2, ?_⟩
  intro f hf hscheduled
  exact hall f (List.mem_filter.mpr ⟨hf, decide_eq_true hscheduled.1⟩) hscheduled

end

/-! ## Runs day by day -/

/-- The assessments after the runs of these days. -/
structure AfterDays (days : List Date) (db db' : FeeDb) : Prop where
  keyed : db'.Keyed
  catalog_eq : db'.catalog = db.catalog
  members_eq : db'.tables.members = db.tables.members
  made : ∀ a periodEnd, db'.Has a periodEnd →
    db.Has a periodEnd ∨ ∃ day ∈ days, MadeOn db.catalog day a periodEnd

theorem tick_afterDays {db : FeeDb} (hkeyed : db.Keyed)
    (hyearly : ∀ f ∈ db.catalog, f.Scheduled → f.Yearly) {days : List Date}
    (hyear : ∀ day ∈ days, 2 ≤ day.year ∧ day.year ≤ 9998) :
    AfterDays days db (run FeeDb.tick db days) := by
  induction days generalizing db with
  | nil => exact ⟨hkeyed, rfl, rfl, fun _ _ h => .inl h⟩
  | cons day days ih =>
    obtain ⟨report, db₁, hok, hunder, hadds, -⟩ :=
      assessScheduled_settles hkeyed hyearly (hyear day List.mem_cons_self)
    have htick : FeeDb.tick db day = db₁ := commit_of_ok hok
    have hcatalog : db₁.catalog = db.catalog := hunder.catalog_eq
    have hrest := @ih db₁ hunder.keyed (by rw [hcatalog]; exact hyearly)
      (fun d hd => hyear d (List.mem_cons_of_mem _ hd))
    rw [run_cons, htick]
    refine ⟨hrest.keyed, hrest.catalog_eq.trans hcatalog, hrest.members_eq.trans hunder.members_eq, ?_⟩
    intro a e ha
    rcases hrest.made a e ha with hmid | ⟨d, hd, hmade⟩
    · rcases hadds.made a e hmid with hold | hmade
      · exact .inl hold
      · exact .inr ⟨day, List.mem_cons_self, hmade⟩
    · rw [hcatalog] at hmade
      exact .inr ⟨d, List.mem_cons_of_mem _ hd, hmade⟩

/-- An assessment of the fee covers the day; a period ends with its last day. -/
def FeeDb.Covers (db : FeeDb) (f : FeeSchedule) (m : Member) (day : Date) : Prop :=
  ∃ a finish, db.Has a (some finish) ∧ a.Charges f.feeType.id m.id ∧
    a.periodStart ≤ day ∧ day ≤ finish

/-- An assessment off the schedule stands in the way of the cycle of the day: it lies ahead, or it has
the start of the cycle and has ended before the day. -/
def FeeDb.Blocks (db : FeeDb) (f : FeeSchedule) (m : Member) (day : Date) : Prop :=
  ∃ a periodEnd, db.Has a periodEnd ∧ a.Charges f.feeType.id m.id ∧
    ((day < a.periodStart ∧ ∃ finish ∈ periodEnd, day ≤ finish) ∨
      (∃ finish, scheduledPeriod day f.month f.day = .ok (a.periodStart, finish)) ∧
        ∀ finish ∈ periodEnd, finish < day)

/-- The end of a cycle follows from its start. -/
theorem scheduledPeriod_end {today start finish : Date} {month day : ℤ}
    (h : scheduledPeriod today month day = .ok (start, finish)) :
    dateOf (start.year + 1) month day = .ok finish := by
  have hlast : ∀ d, (dateOf (d.year + 1) month day >>= fun e => Except.ok (d, e)) = .ok (start, finish) →
      dateOf (start.year + 1) month day = .ok finish := by
    intro d hd
    obtain ⟨e, hend, heq⟩ := except_bind_eq_ok.mp hd
    cases heq
    exact hend
  unfold scheduledPeriod at h
  obtain ⟨thisYear, -, h⟩ := except_bind_eq_ok.mp h
  dsimp only at h
  split at h
  · obtain ⟨d, -, h⟩ := except_bind_eq_ok.mp h
    exact hlast d h
  · exact hlast thisYear h

/-- A settled member has an assessment for the day, a failure in the report, or an assessment that was
there before in its way. -/
theorem Settled.covers {db db' : FeeDb} {report : AssessReport} {days : List Date} {day : Date}
    {f : FeeSchedule} {m : Member} (hkeyed : db.Keyed)
    (hyearly : ∀ f ∈ db.catalog, f.Scheduled → f.Yearly)
    (hyear : ∀ d ∈ days, 2 ≤ d.year ∧ d.year ≤ 9998) (hpast : ∀ d ∈ days, d ≤ day)
    (hmade : ∀ a periodEnd, db'.Has a periodEnd →
      db.Has a periodEnd ∨ ∃ d ∈ days, MadeOn db.catalog d a periodEnd)
    (hf : f ∈ db.catalog) {start finish : Date}
    (hperiod : scheduledPeriod day f.month f.day = .ok (start, finish)) (hbegun : start ≤ day)
    (hends : day < finish) (h : Settled day f m (report, db')) :
    db'.Covers f m day ∨ (f.feeType.code, m.id) ∈ report.failed ∨ db.Blocks f m day := by
  rcases h with hfailed | ⟨a, e, ha, hcharges, hend⟩ | ⟨a, e, finish', ha, hcharges, hcycle⟩
  · exact .inr (.inl hfailed)
  · -- an assessment that has not ended: it lies ahead only if it was there before
    by_cases hstart : a.periodStart ≤ day
    · exact .inl ⟨a, e, ha, hcharges, hstart, hend⟩
    · have hahead : day < a.periodStart := Nat.lt_of_not_le hstart
      rcases hmade a _ ha with hold | ⟨d, hd, -, g, hg, hscheduled, -, x, hx, -⟩
      · exact .inr (.inr ⟨a, _, hold, hcharges, .inl ⟨hahead, e, rfl, hend⟩⟩)
      · obtain ⟨s, x', hsx, hle, -⟩ := (hyearly g hg hscheduled).scheduledPeriod (hyear d hd)
        rw [hx] at hsx
        cases hsx
        exact absurd (Nat.le_trans hle (hpast d hd)) hstart
  · -- an assessment of the cycle: one that the task made ends with it
    rw [hperiod] at hcycle
    cases hcycle
    by_cases hcovers : ∃ e' ∈ e, day ≤ e'
    · obtain ⟨e', rfl, hend⟩ := hcovers
      exact .inl ⟨a, e', ha, hcharges, hbegun, hend⟩
    · rcases hmade a e ha with hold | ⟨d, hd, -, g, hg, -, htype, x, hx, rfl⟩
      · refine .inr (.inr ⟨a, e, hold, hcharges, .inr ⟨⟨_, hperiod⟩, ?_⟩⟩)
        intro e' he'
        exact Nat.lt_of_not_le fun hge => hcovers ⟨e', he', hge⟩
      · have hsame : g = f :=
          List.inj_on_of_nodup_map hkeyed.types hg hf (htype.symm.trans hcharges.1)
        rw [hsame] at hx
        have hfinish : x = finish :=
          Except.ok.inj ((scheduledPeriod_end hx).symm.trans (scheduledPeriod_end hperiod))
        exact absurd ⟨x, rfl, hfinish ▸ Nat.le_of_lt hends⟩ hcovers

/-- After the run of any day that follows on the runs of earlier days, every active member has an
assessment of each scheduled fee for the day, unless this very run logged a failure for it or an
assessment that was there before stands in the way. -/
theorem scheduled_fees_cover {db : FeeDb} (hkeyed : db.Keyed)
    (hyearly : ∀ f ∈ db.catalog, f.Scheduled → f.Yearly) {days : List Date} {day : Date}
    (hyear : ∀ d ∈ days ++ [day], 2 ≤ d.year ∧ d.year ≤ 9998)
    (hsorted : (days ++ [day]).Pairwise (· ≤ ·)) :
    ∃ report db', assessScheduledForTenant day (run FeeDb.tick db days) = .ok report db' ∧
      (db'.tables.feeAssessments.map (·.cycle)).Nodup ∧
      (∀ a periodEnd, db'.Has a periodEnd → db.Has a periodEnd ∨
        ∃ d ∈ days ++ [day], MadeOn db.catalog d a periodEnd) ∧
      ∀ f ∈ db.catalog, f.Scheduled → ∀ m ∈ db.tables.members, m.status = .active →
        db'.Covers f m day ∨ (f.feeType.code, m.id) ∈ report.failed ∨ db.Blocks f m day := by
  have hbefore := tick_afterDays hkeyed hyearly fun d hd => hyear d (List.mem_append_left _ hd)
  have hmem : day ∈ days ++ [day] := List.mem_append_right _ (List.mem_singleton_self day)
  obtain ⟨report, db', hok, hunder, hadds, hall⟩ := assessScheduled_settles hbefore.keyed
    (by rw [hbefore.catalog_eq]; exact hyearly) (hyear day hmem)
  rw [hbefore.catalog_eq] at hadds hall
  rw [hbefore.members_eq] at hall
  have hmade : ∀ a e, db'.Has a e → db.Has a e ∨ ∃ d ∈ days ++ [day], MadeOn db.catalog d a e := by
    intro a e ha
    rcases hadds.made a e ha with hmid | hnew
    · rcases hbefore.made a e hmid with hold | ⟨d, hd, hnew⟩
      · exact .inl hold
      · exact .inr ⟨d, List.mem_append_left _ hd, hnew⟩
    · exact .inr ⟨day, hmem, hnew⟩
  have hpast : ∀ d ∈ days ++ [day], d ≤ day := by
    intro d hd
    rcases List.mem_append.mp hd with hd | hd
    · exact (List.pairwise_append.mp hsorted).2.2 d hd day (List.mem_singleton_self day)
    · rw [List.mem_singleton.mp hd]
      exact Nat.le_refl _
  refine ⟨report, db', hok, hunder.keyed.once, hmade, ?_⟩
  intro f hf hscheduled m hm hactive
  obtain ⟨start, finish, hperiod, hbegun, hends⟩ :=
    (hyearly f hf hscheduled).scheduledPeriod (hyear day hmem)
  exact (hall f hf hscheduled m hm hactive).covers hkeyed hyearly hyear hpast hmade hf hperiod hbegun
    hends

/-- The annual fee, due on a day of every year. -/
def annualFee (month day : ℤ) : FeeSchedule where
  feeType := ⟨6, "ANNUAL", "Annual fee", money 100, "4000", "1300", false⟩
  applicableTo := .member
  triggerKind := .schedule
  scheduleConfig := some ⟨some month, some day⟩
  isActive := true

/-- Member 9 is active; there are no assessments yet. -/
def feeDb (f : FeeSchedule) (accounts : List ChartOfAccount) : FeeDb where
  tables := { Tables.empty with nextId := 11, accounts := accounts, members := [⟨9, .active, none⟩] }
  catalog := [f]
  periodEnds := []

theorem feeDb_keyed (f : FeeSchedule) (accounts : List ChartOfAccount) : (feeDb f accounts).Keyed :=
  ⟨List.nodup_singleton _, fun _ => nofun, fun _ => nofun, List.nodup_nil⟩

/-- The accounts of the annual fee. -/
def feeAccounts : List ChartOfAccount := [⟨3, "1300"⟩, ⟨4, "4000"⟩]

/-- On 2 January 2027, after the runs of 31 December and 1 January. -/
theorem scheduled_fees_cover_january :
    ∃ report db', assessScheduledForTenant ⟨739983, by decide⟩ (run FeeDb.tick
        (feeDb (annualFee 1 1) feeAccounts)
        [⟨739981, by decide⟩, ⟨739982, by decide⟩]) = .ok report db' ∧
      (db'.Covers (annualFee 1 1) ⟨9, .active, none⟩ ⟨739983, by decide⟩ ∨
        ("ANNUAL", 9) ∈ report.failed ∨
        (feeDb (annualFee 1 1) feeAccounts).Blocks (annualFee 1 1)
          ⟨9, .active, none⟩ ⟨739983, by decide⟩) := by
  have hyearly : ∀ f ∈ [annualFee 1 1], f.Scheduled → f.Yearly := by
    intro f hf _
    rw [List.mem_singleton.mp hf]
    exact ⟨⟨2027, by decide⟩, by decide⟩
  obtain ⟨report, db', hok, -, -, hall⟩ := @scheduled_fees_cover
    (feeDb (annualFee 1 1) feeAccounts) (feeDb_keyed _ _) hyearly
    [⟨739981, by decide⟩, ⟨739982, by decide⟩] ⟨739983, by decide⟩ (by decide) (by decide)
  exact ⟨report, db', hok, hall _ (List.mem_singleton_self _) ⟨⟨rfl, rfl⟩, rfl⟩ _
    (List.mem_singleton_self _) rfl⟩

/-- An assessment of the fee has the day in its period, the last day not counted. -/
def FeeDb.CoversHalfOpen (db : FeeDb) (f : FeeSchedule) (m : Member) (day : Date) : Prop :=
  ∃ a ∈ db.tables.feeAssessments, a.Charges f.feeType.id m.id ∧
    ∃ finish ∈ db.periodEnd? a.id, a.periodStart ≤ day ∧ day < finish

instance (db : FeeDb) (f : FeeSchedule) (m : Member) (day : Date) :
    Decidable (db.CoversHalfOpen f m day) :=
  inferInstanceAs (Decidable (∃ a ∈ db.tables.feeAssessments, _ ∧ ∃ finish ∈ db.periodEnd? a.id, _))

/-- With an assessment that was made by hand. -/
def feeDbWith (start : Date) (finish : Option Date) : FeeDb :=
  let db := feeDb (annualFee 1 1) feeAccounts
  { db with
    tables := { db.tables with
      feeAssessments := [⟨1, 6, "member", 9, start, money 100, .assessed, 2⟩] }
    periodEnds := finish.toList.map fun d => (1, d) }

/-- The anniversary is in no half-open period when the runs began earlier; a fee without its accounts
fails every day; an assessment that lies ahead, or has the start of the cycle and no end, stops the
task; a fee due on 29 February makes the run of another year raise, and so does the last year of the
calendar. -/
theorem scheduled_fees_miss :
    ¬ (run FeeDb.tick (feeDb (annualFee 1 1) feeAccounts)
        [⟨739981, by decide⟩, ⟨739982, by decide⟩]).CoversHalfOpen (annualFee 1 1)
          ⟨9, .active, none⟩ ⟨739982, by decide⟩ ∧
    ¬ (run FeeDb.tick (feeDb (annualFee 1 1) []) [⟨739982, by decide⟩]).CoversHalfOpen (annualFee 1 1)
      ⟨9, .active, none⟩ ⟨739982, by decide⟩ ∧
    ¬ (run FeeDb.tick (feeDbWith ⟨740000, by decide⟩ (some ⟨740300, by decide⟩))
        [⟨739982, by decide⟩]).CoversHalfOpen (annualFee 1 1) ⟨9, .active, none⟩
          ⟨739982, by decide⟩ ∧
    ¬ (run FeeDb.tick (feeDbWith ⟨739982, by decide⟩ none) [⟨739982, by decide⟩]).CoversHalfOpen
      (annualFee 1 1) ⟨9, .active, none⟩ ⟨739982, by decide⟩ ∧
    assessScheduledForTenant ⟨739676, by decide⟩ (feeDb (annualFee 2 29) feeAccounts)
      = .raised (.valueError "day is out of range for month") (feeDb (annualFee 2 29) feeAccounts) ∧
    assessScheduledForTenant ⟨3651846, by decide⟩ (feeDb (annualFee 1 1) feeAccounts)
      = .raised (.valueError "year 10000 is out of range") (feeDb (annualFee 1 1) feeAccounts) := by
  refine ⟨?_, ?_, ?_, ?_, ?_, ?_⟩
  · decide +kernel
  · decide +kernel
  · decide +kernel
  · decide +kernel
  · decide +kernel
  · decide +kernel

end SaccoPlatform
