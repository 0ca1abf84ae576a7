import SaccoPlatform.Lib.Workers
import SaccoPlatform.Credit.Operations

/-!
# The event consumer, run concurrently

Several runs of `_process_tenant_events` (`app/modules/credit/consumer.py`) may hold the same batch
of events. Each of them looks an event up in `processed_events`, updates the loan and inserts the
row of the event, behind a savepoint; the primary key of `processed_events` lets only one of them
commit. The consumer is an instance of the workers of `Lib.Workers`: the rows are the loans, a job
is an event.

An event that is no loan's, or names a loan that does not exist, is recorded without any change.
-/

namespace SaccoPlatform

open Lib Session Workers

/-! ## Events as jobs -/

/-- The row that a flush of these balances leaves, if there is one. -/
def savedLoan? (l : Loan) (b : Balances) (status : LoanStatus) : Option Loan :=
  match saveLoan l b status Tables.empty with
  | .ok row _ => some row
  | _ => none

/-- Whether a flush succeeds does not depend on the other rows. -/
theorem saveLoan_eq_ok {l row : Loan} {b : Balances} {status : LoanStatus} {t t' : Tables} :
    saveLoan l b status t = .ok row t' ↔ savedLoan? l b status = some row ∧ t' = t.putLoan row := by
  have hflush : ∀ (s s' : Tables) (r : Loan), saveLoan l b status s = .ok r s' ↔
      saveLoan l b status Tables.empty = .ok r (Tables.empty.putLoan r) ∧ s' = s.putLoan r := by
    intro s s' r
    simp only [saveLoan, writeMoney_bind_eq_ok, constraint_bind_eq_ok, modify_bind_eq_ok, pure_eq_ok]
    constructor
    · rintro ⟨m₁, h₁, m₂, h₂, m₃, h₃, m₄, h₄, m₅, h₅, m₆, h₆, m₇, h₇, ho, hi, hp, rfl, rfl⟩
      exact ⟨⟨m₁, h₁, m₂, h₂, m₃, h₃, m₄, h₄, m₅, h₅, m₆, h₆, m₇, h₇, ho, hi, hp, rfl, rfl⟩, rfl⟩
    · rintro ⟨⟨m₁, h₁, m₂, h₂, m₃, h₃, m₄, h₄, m₅, h₅, m₆, h₆, m₇, h₇, ho, hi, hp, rfl, -⟩, rfl⟩
      exact ⟨m₁, h₁, m₂, h₂, m₃, h₃, m₄, h₄, m₅, h₅, m₆, h₆, m₇, h₇, ho, hi, hp, rfl, rfl⟩
  rw [hflush]
  refine and_congr_left fun _ => ?_
  unfold savedLoan?
  constructor
  · intro h
    rw [h]
  · intro h
    cases hsave : saveLoan l b status Tables.empty with
    | ok r s =>
      rw [hsave] at h
      cases h
      rw [((hflush _ _ _).mp hsave).2]
    | raised e s =>
      rw [hsave] at h
      cases h
    | aborted e =>
      rw [hsave] at h
      cases h

/-- The row after the penalties changed. -/
def penaltyRow (f : Balances → Balances) (l : Loan) : Option Loan :=
  savedLoan? l (f l.balances) l.status

theorem penaltyRow_saved {f : Balances → Balances} {l row : Loan} (h : penaltyRow f l = some row) :
    Saved l (f l.balances) l.status row := by
  have hsave : saveLoan l (f l.balances) l.status Tables.empty = .ok row (Tables.empty.putLoan row) :=
    saveLoan_eq_ok.mpr ⟨h, rfl⟩
  exact (saveLoan_ok hsave).2

/-- The statement of a fee event: none for another target, a failure when a key is missing or does
not parse. -/
def FeePayload.plan (payload : FeePayload) (change : ℚ → Balances → Balances) : Plan Loan Uuid :=
  if payload.targetType ≠ some "loan" then .nothing
  else
    match payload.targetId, payload.amount with
    | some loanId, some amount => .update loanId (penaltyRow (change amount))
    | _, _ => .fails

/-- What `_handle_event` asks of the loans. -/
def EventBody.plan : EventBody → Plan Loan Uuid
  | .feeAssessmentCreated payload => payload.plan fun amount b => b.assess amount
  | .feeCollectionCreated payload => payload.plan fun amount b => b.collect amount
  | _ => .nothing

theorem FeePayload.plan_update {payload : FeePayload} {change : ℚ → Balances → Balances}
    {loanId : Uuid} {g : Loan → Option Loan} (h : payload.plan change = .update loanId g) :
    ∃ amount, payload.targetType = some "loan" ∧ payload.targetId = some loanId ∧
      payload.amount = some amount ∧ g = penaltyRow (change amount) := by
  unfold FeePayload.plan at h
  split at h
  · cases h
  · rename_i htype
    split at h
    · rename_i id amount hid hamount
      cases h
      exact ⟨amount, not_not.mp htype, hid, hamount, rfl⟩
    · cases h

/-- The updates of the plan are the changes of the penalties. -/
theorem plan_eq_update {body : EventBody} {loanId : Uuid} {g : Loan → Option Loan} :
    body.plan = .update loanId g ↔ ∃ f, PenaltyChange loanId body f ∧ g = penaltyRow f := by
  constructor
  · intro h
    cases body with
    | feeAssessmentCreated payload =>
      obtain ⟨amount, htype, hid, hamount, rfl⟩ := FeePayload.plan_update h
      exact ⟨_, .assess payload amount htype hid hamount, rfl⟩
    | feeCollectionCreated payload =>
      obtain ⟨amount, htype, hid, hamount, rfl⟩ := FeePayload.plan_update h
      exact ⟨_, .collect payload amount htype hid hamount, rfl⟩
    | _ => cases h
  · rintro ⟨f, hchange, rfl⟩
    cases hchange with
    | assess payload amount htype hid hamount =>
      simp [EventBody.plan, FeePayload.plan, htype, hid, hamount]
    | collect payload amount htype hid hamount =>
      simp [EventBody.plan, FeePayload.plan, htype, hid, hamount]

def OutboxEvent.job (event : OutboxEvent) : Job Loan.id Uuid where
  id := event.id
  plan := event.body.plan
  keeps := by
    intro loanId g l row hplan hrow
    obtain ⟨f, -, rfl⟩ := plan_eq_update.mp hplan
    exact (penaltyRow_saved hrow).terms.id

/-! ## One event -/

section

variable {t : Tables}

/-- `UPDATE loans SET ... WHERE id = :loan_id` on the list of loans. -/
theorem updatePenalties_eq_ok (hids : (t.loans.map (·.id)).Nodup) {event : OutboxEvent} {loanId : Uuid}
    {f : Balances → Balances} (hplan : event.body.plan = .update loanId (penaltyRow f)) {u : Unit}
    {t' : Tables} : updatePenalties loanId f t = .ok u t' ↔
      ∃ loans, event.job.apply t.loans = some loans ∧ t' = { t with loans := loans } := by
  have hrow : ∀ r, event.job.onRow r = if r.id = loanId then penaltyRow f r else some r :=
    event.job.onRow_of_update hplan
  have hruns : event.job.plan.runs = true := by
    show event.body.plan.runs = true
    rw [hplan]
    rfl
  unfold updatePenalties
  rw [get_bind_eq_ok]
  cases hfind : t.loan? loanId with
  | none =>
    -- no row has this id
    have hsame : ∀ r ∈ t.loans, event.job.onRow r = some r := by
      intro r hr
      rw [hrow, if_neg]
      simpa using List.find?_eq_none.mp hfind r hr
    simp only [pure_eq_ok, Job.apply_of_same hruns hsame, Option.some.injEq, exists_eq_left']
    exact ⟨fun h => h.2.symm, fun h => ⟨trivial, h.symm⟩⟩
  | some loan =>
    obtain ⟨hmem, hid⟩ := loan?_eq_some hfind
    have hother : ∀ r ∈ t.loans, r.id = loanId → r = loan :=
      fun r hr heq => List.inj_on_of_nodup_map hids hr hmem (heq.trans hid.symm)
    simp only [bind_eq_ok, saveLoan_eq_ok, pure_eq_ok]
    cases hpenalty : penaltyRow f loan with
    | none =>
      have hfails : event.job.apply t.loans = none := by
        unfold Job.apply
        rw [if_neg]
        rintro ⟨-, hall⟩
        have hloan := hall loan hmem
        rw [hrow, if_pos hid, hpenalty] at hloan
        cases hloan
      rw [hfails]
      constructor
      · rintro ⟨row, t₁, ⟨hrow', -⟩, -⟩
        rw [← penaltyRow, hpenalty] at hrow'
        cases hrow'
      · rintro ⟨loans, hloans, -⟩
        cases hloans
    | some row =>
      have hrowid : row.id = loanId := (penaltyRow_saved hpenalty).terms.id.trans hid
      have happly : event.job.apply t.loans = some (t.putLoan row).loans := by
        unfold Job.apply
        rw [if_pos]
        · congr 1
          apply List.map_congr_left
          intro r hr
          rw [hrow, hrowid]
          by_cases heq : r.id = loanId
          · rw [if_pos heq, if_pos heq, hother r hr heq, hpenalty]
            rfl
          · rw [if_neg heq, if_neg heq]
            rfl
        · refine ⟨hruns, ?_⟩
          intro r hr
          rw [hrow]
          by_cases heq : r.id = loanId
          · rw [if_pos heq, hother r hr heq, hpenalty]
            rfl
          · rw [if_neg heq]
            rfl
      rw [happly]
      constructor
      · rintro ⟨row', t₁, ⟨hrow', rfl⟩, -, rfl⟩
        rw [← penaltyRow, hpenalty] at hrow'
        cases hrow'
        exact ⟨_, rfl, rfl⟩
      · rintro ⟨loans, hloans, rfl⟩
        cases hloans
        exact ⟨row, _, ⟨hpenalty, rfl⟩, trivial, rfl⟩

/-- A job that asks for nothing. -/
theorem apply_nothing {event : OutboxEvent} (hplan : event.body.plan = .nothing) (loans : List Loan) :
    event.job.apply loans = some loans := by
  have hruns : event.job.plan.runs = true := by
    show event.body.plan.runs = true
    rw [hplan]
    rfl
  refine Job.apply_of_same hruns fun r _ => event.job.onRow_of_ne ?_
  show event.body.plan.target? ≠ _
  rw [hplan]
  exact nofun

/-- The handler does to the loans what the plan of the event says. -/
theorem handleEvent_eq_ok (hids : (t.loans.map (·.id)).Nodup) {event : OutboxEvent} {u : Unit}
    {t' : Tables} : handleEvent event.body t = .ok u t' ↔
      ∃ loans, event.job.apply t.loans = some loans ∧ t' = { t with loans := loans } := by
  have hnothing : event.body.plan = .nothing → ((pure () : Call Unit) t = .ok u t' ↔
      ∃ loans, event.job.apply t.loans = some loans ∧ t' = { t with loans := loans }) := by
    intro hplan
    rw [apply_nothing hplan, pure_eq_ok]
    simp only [Option.some.injEq, exists_eq_left']
    exact ⟨fun h => h.2.symm, fun h => ⟨trivial, h.symm⟩⟩
  have hfails : event.body.plan = .fails → ¬ ∃ loans, event.job.apply t.loans = some loans ∧
      t' = { t with loans := loans } := by
    rintro hplan ⟨loans, happly, -⟩
    have hruns : event.body.plan.runs = true := (Job.apply_eq_some happly).1
    rw [hplan] at hruns
    cases hruns
  -- both fee events run the same handler, with their own amount
  have hfee : ∀ (payload : FeePayload) (change : ℚ → Balances → Balances) (amountKey : String),
      event.body.plan = payload.plan change →
      ((if payload.targetType ≠ some "loan" then (pure () : Call Unit) else do
        let loanId ← orRaise payload.targetId (.keyError "target_id")
        let amount ← orRaise payload.amount (.keyError amountKey)
        updatePenalties loanId (change amount)) t = .ok u t' ↔
      ∃ loans, event.job.apply t.loans = some loans ∧ t' = { t with loans := loans }) := by
    intro payload change amountKey hplan
    unfold FeePayload.plan at hplan
    by_cases htype : payload.targetType ≠ some "loan"
    · rw [if_pos htype] at hplan ⊢
      exact hnothing hplan
    · rw [if_neg htype] at hplan ⊢
      simp only [orRaise_bind_eq_ok]
      cases hid : payload.targetId with
      | none =>
        simp only [hid] at hplan
        refine ⟨?_, fun h => absurd h (hfails hplan)⟩
        rintro ⟨_, hnone, -⟩
        cases hnone
      | some loanId =>
        cases hamount : payload.amount with
        | none =>
          simp only [hid, hamount] at hplan
          refine ⟨?_, fun h => absurd h (hfails hplan)⟩
          rintro ⟨_, -, _, hnone, -⟩
          cases hnone
        | some amount =>
          simp only [hid, hamount] at hplan
          simp only [Option.some.injEq, exists_eq_left', updatePenalties_eq_ok hids hplan]
  cases hbody : event.body with
  | feeAssessmentCreated payload =>
    exact hfee payload (fun amount b => b.assess amount) "amount" (by rw [hbody]; rfl)
  | feeCollectionCreated payload =>
    exact hfee payload (fun amount b => b.collect amount) "amount_collected" (by rw [hbody]; rfl)
  | _ => exact hnothing (by rw [hbody]; rfl)

/-- The loans and the processed events. -/
def Tables.shared (t : Tables) : Shared Loan Uuid := ⟨t.loans, t.processedEvents⟩

/-- The consumer performs the job of the event. -/
theorem consumeEvent_shared (hids : (t.loans.map (·.id)).Nodup) (event : OutboxEvent) :
    (consumeEvent t event).shared = perform t.shared event.job := by
  unfold consumeEvent perform
  by_cases hprocessed : event.id ∈ t.processedEvents
  · have hdone : event.job.id ∈ t.shared.done := hprocessed
    have hok : processEvent event t = .ok false t := by
      simp only [processEvent, get_bind_eq_ok, if_pos hprocessed, pure_eq_ok, and_self]
    rw [if_pos hdone, commit_of_ok hok]
  · have hdone : event.job.id ∉ t.shared.done := hprocessed
    rw [if_neg hdone]
    cases happly : event.job.apply t.shared.table with
    | some loans =>
      have hhandle : handleEvent event.body t = .ok () { t with loans := loans } :=
        (handleEvent_eq_ok hids).mpr ⟨loans, happly, rfl⟩
      have hok : processEvent event t = .ok true { t with
          loans := loans, processedEvents := t.processedEvents ++ [event.id] } := by
        simp only [processEvent, get_bind_eq_ok, if_neg hprocessed]
        exact bind_eq_ok.mpr ⟨(), _, hhandle, rfl⟩
      rw [commit_of_ok hok]
      rfl
    | none =>
      rcases commit_cases (processEvent event) t with ⟨done, t', hok, -⟩ | heq
      · simp only [processEvent, get_bind_eq_ok, if_neg hprocessed] at hok
        obtain ⟨u, t₁, hhandle, -⟩ := bind_eq_ok.mp hok
        obtain ⟨loans, hloans, -⟩ := (handleEvent_eq_ok hids).mp hhandle
        cases hloans.symm.trans happly
      · rw [heq]

theorem consumeEvent_loanIds (hids : (t.loans.map (·.id)).Nodup) (event : OutboxEvent) :
    ((consumeEvent t event).loans.map (·.id)).Nodup := by
  have hkeys := map_key_perform t.shared event.job
  rw [← consumeEvent_shared hids] at hkeys
  have hsame : (consumeEvent t event).loans.map (·.id) = t.loans.map (·.id) := hkeys
  rw [hsame]
  exact hids

theorem run_consumeEvent_shared (hids : (t.loans.map (·.id)).Nodup) (events : List OutboxEvent) :
    (run consumeEvent t events).shared = run perform t.shared (events.map (·.job)) := by
  induction events generalizing t with
  | nil => rfl
  | cons event rest ih =>
    rw [run_cons, List.map_cons, run_cons, ← consumeEvent_shared hids,
      ih (consumeEvent_loanIds hids event)]

theorem run_consumeEvent_loanIds (hids : (t.loans.map (·.id)).Nodup) (events : List OutboxEvent) :
    ((run consumeEvent t events).loans.map (·.id)).Nodup :=
  @run_invariant_of_step _ _ _ (fun t : Tables => (t.loans.map (·.id)).Nodup)
    (fun _ event h => consumeEvent_loanIds h event) _ events hids

/-- The event was recorded now: the penalties of the loan that it names changed by its amount, or
it names no loan and nothing changed. -/
structure Consumed (event : OutboxEvent) (t t' : Tables) : Prop where
  recorded : t'.processedEvents = t.processedEvents ++ [event.id]
  loans : (t'.loans = t.loans ∧ ∀ loanId f, PenaltyChange loanId event.body f → t.loan? loanId = none) ∨
    ∃ loanId f loan row, PenaltyChange loanId event.body f ∧ t.loan? loanId = some loan ∧
      Saved loan (f loan.balances) loan.status row ∧ t'.loans = (t.putLoan row).loans

theorem consumed_of_new (hids : (t.loans.map (·.id)).Nodup) {event : OutboxEvent}
    (hnew : event.id ∉ t.processedEvents)
    (hrecorded : event.id ∈ (consumeEvent t event).processedEvents) :
    Consumed event t (consumeEvent t event) := by
  rcases commit_cases (processEvent event) t with ⟨done, t', hok, heq⟩ | heq
  · have hconsume : consumeEvent t event = t' := heq
    rw [hconsume]
    simp only [processEvent, get_bind_eq_ok, if_neg hnew] at hok
    obtain ⟨u, t₁, hhandle, hmark⟩ := bind_eq_ok.mp hok
    simp only [modify_bind_eq_ok, pure_eq_ok] at hmark
    obtain ⟨-, rfl⟩ := hmark
    obtain ⟨loans, happly, rfl⟩ := (handleEvent_eq_ok hids).mp hhandle
    refine ⟨rfl, ?_⟩
    cases hplan : event.body.plan with
    | fails =>
      -- an event whose handler fails records nothing
      have hruns : event.body.plan.runs = true := (Job.apply_eq_some happly).1
      rw [hplan] at hruns
      cases hruns
    | nothing =>
      rw [apply_nothing hplan] at happly
      refine .inl ⟨(Option.some.inj happly).symm, ?_⟩
      intro loanId f hchange
      have hupdate := plan_eq_update.mpr ⟨f, hchange, rfl⟩
      rw [hplan] at hupdate
      cases hupdate
    | update loanId g =>
      obtain ⟨f, hchange, rfl⟩ := plan_eq_update.mp hplan
      have hupdate : updatePenalties loanId f t = .ok () { t with loans := loans } :=
        (updatePenalties_eq_ok hids hplan).mpr ⟨loans, happly, rfl⟩
      cases hfind : t.loan? loanId with
      | none =>
        simp only [updatePenalties, get_bind_eq_ok, hfind, pure_eq_ok] at hupdate
        have hsame : loans = t.loans := (congrArg Tables.loans hupdate.2).symm
        refine .inl ⟨hsame, ?_⟩
        intro loanId' f' hchange'
        have hother := plan_eq_update.mpr ⟨f', hchange', rfl⟩
        rw [hplan] at hother
        rw [← (Plan.update.inj hother).1]
        exact hfind
      | some loan =>
        simp only [updatePenalties, get_bind_eq_ok, hfind] at hupdate
        obtain ⟨row, t₂, hsave, hpure⟩ := bind_eq_ok.mp hupdate
        obtain ⟨hput, hsaved⟩ := saveLoan_ok hsave
        obtain ⟨-, ht₂⟩ := pure_eq_ok.mp hpure
        refine .inr ⟨loanId, f, loan, row, hchange, hfind, hsaved, ?_⟩
        rw [← hput, ht₂]
  · have hconsume : consumeEvent t event = t := heq
    rw [hconsume] at hrecorded
    exact absurd hrecorded hnew

end

/-! ## Concurrent runs -/

/-- The batch that a run of the consumer reads. -/
def fetchEvents (t : Tables) (db : Shared Loan Uuid) : List (Job Loan.id Uuid) :=
  ({ t with processedEvents := db.done } : Tables).pendingEvents.map (·.job)

/-- What `n` consumers on one outbox leave in the loans and in `processed_events`. -/
def consumedBy (t : Tables) (n : ℕ) (actions : List Action) : Shared Loan Uuid :=
  (run (Workers.World.step (fetchEvents t)) (Workers.World.start Loan.id t.shared n) actions).db

theorem exists_map_of_forall {α β : Type} {f : α → β} {p : α → Prop} {bs : List β}
    (h : ∀ b ∈ bs, ∃ a, p a ∧ b = f a) : ∃ as : List α, (∀ a ∈ as, p a) ∧ bs = as.map f := by
  induction bs with
  | nil => exact ⟨[], fun _ => nofun, rfl⟩
  | cons b bs ih =>
    obtain ⟨a, ha, rfl⟩ := h b List.mem_cons_self
    obtain ⟨as, has, rfl⟩ := ih fun b hb => h b (List.mem_cons_of_mem _ hb)
    refine ⟨a :: as, ?_, rfl⟩
    intro a' ha'
    rcases List.mem_cons.mp ha' with rfl | hmem
    · exact ha
    · exact has a' hmem

/-- However many consumers run on the same outbox, however their statements interleave and fail:
the committed loans are those that the recorded events leave one after another, an event takes part
once if it is recorded and not at all otherwise, and each changes the penalties of the loan that it
names, if there is one. -/
theorem events_consumed_once (t : Tables) (hloans : (t.loans.map (·.id)).Nodup)
    (hevents : (t.outbox.map (·.id)).Nodup) (hprocessed : t.processedEvents.Nodup) (n : ℕ)
    (actions : List Action) :
    ∃ order : List OutboxEvent, (∀ event ∈ order, event ∈ t.outbox ∧ event.body.handled = true) ∧
      (consumedBy t n actions).table = (run consumeEvent t order).loans ∧
      (consumedBy t n actions).done = (run consumeEvent t order).processedEvents ∧
      (∀ event ∈ t.outbox, event.id ∉ t.processedEvents → order.count event ≤ 1 ∧
        (order.count event = 1 ↔ event.id ∈ (consumedBy t n actions).done)) ∧
      ∀ before event after, order = before ++ event :: after →
        Consumed event (run consumeEvent t before) (run consumeEvent t (before ++ [event])) := by
  have hfetch : ∀ db, ∀ j ∈ fetchEvents t db, ∃ event : OutboxEvent,
      (event ∈ t.outbox ∧ event.body.handled = true) ∧ j = event.job := by
    intro db j hj
    obtain ⟨event, hevent, rfl⟩ := List.mem_map.mp hj
    have hmem := List.mem_filter.mp (List.mem_of_mem_take hevent)
    have hhandled : event.body.handled = true ∧ event.id ∉ db.done := by simpa using hmem.2
    exact ⟨event, ⟨hmem.1, hhandled.1⟩, rfl⟩
  have hdb₀ : t.shared.done.Nodup := hprocessed
  -- the consumers serialize: some order of the recorded events explains what is committed
  have hserial := run_serial hfetch hloans hdb₀ n actions
  obtain ⟨jobs, hjobs, hdb, hdone⟩ := hserial.order
  obtain ⟨order, horder, rfl⟩ := exists_map_of_forall hjobs
  have hshared : (run consumeEvent t order).shared = consumedBy t n actions := by
    rw [run_consumeEvent_shared hloans]
    exact hdb.symm
  have hids : (order.map (·.job)).map (·.id) = order.map (·.id) := by
    rw [List.map_map]
    rfl
  have hdone' : (consumedBy t n actions).done = t.processedEvents ++ order.map (·.id) := by
    rw [← hids]
    exact hdone
  -- the primary key of `processed_events` keeps the recorded ids distinct
  have hnodup : (t.processedEvents ++ order.map (·.id)).Nodup := by
    rw [← hdone']
    exact hserial.done
  refine ⟨order, horder, ?_, ?_, ?_, ?_⟩
  · rw [← hshared]
    rfl
  · rw [← hshared]
    rfl
  · intro event hevent hnew
    have hcount : order.count event ≤ 1 :=
      List.nodup_iff_count_le_one.mp (List.Nodup.of_map _ (List.nodup_append.mp hnodup).2.1) event
    refine ⟨hcount, ?_⟩
    have hmem : event ∈ order ↔ event.id ∈ (consumedBy t n actions).done := by
      rw [hdone', List.mem_append, or_iff_right hnew]
      constructor
      · exact fun h => List.mem_map_of_mem h
      · intro h
        obtain ⟨event', hevent', heq⟩ := List.mem_map.mp h
        rw [← List.inj_on_of_nodup_map hevents (horder event' hevent').1 hevent heq]
        exact hevent'
    rw [← hmem, ← List.count_pos_iff]
    omega
  · rintro before event after rfl
    have hids' := run_consumeEvent_loanIds hloans before
    have hbefore := run_consumeEvent_shared hloans before
    have hstep := consumeEvent_shared hids' event
    -- every event of the order was new when it was consumed, or it would not be in the order
    have hall : (run perform t.shared (before.map (·.job) ++ event.job :: after.map (·.job))).done
        = t.shared.done ++ (before.map (·.job) ++ event.job :: after.map (·.job)).map (·.id) := by
      rw [← List.map_cons, ← List.map_append, ← run_consumeEvent_shared hloans, hshared]
      exact hdone
    obtain ⟨hnew, hrecorded⟩ := recorded_of_run_perform hall
    rw [← hbefore] at hnew hrecorded
    rw [← hstep] at hrecorded
    rw [run_append]
    exact consumed_of_new hids' hnew hrecorded

/-- The sample loan with two fee events in the outbox. -/
def feeEventTables : Tables :=
  run (CreditOp.step .python) (sampleTenant .reducingBalance)
    [sampleDisbursement, .feeEvent (.feeAssessmentCreated ⟨some "loan", some 11, some 5⟩),
      .feeEvent (.feeCollectionCreated ⟨some "loan", some 11, some 2⟩)]

/-- Both consumers hold the two events. The first one updates the loan and fails; the second one,
which had to wait for it, consumes both. -/
def twoConsumers : List Action :=
  [.next 0, .next 1, .next 0, .next 1, .next 0, .next 1, .fail 0, .next 1, .next 1, .next 0,
    .next 0, .next 0, .next 1, .next 1, .next 1, .next 0, .next 1, .next 0]

theorem events_consumed_once_twoConsumers :
    (consumedBy feeEventTables 2 twoConsumers).done = [16, 17] ∧
      ((consumedBy feeEventTables 2 twoConsumers).table.map fun l =>
        (l.accruedPenalties, l.totalPaidPenalties)) = [(money 3, money 2)] ∧
      ∃ order : List OutboxEvent,
        (∀ event ∈ order, event ∈ feeEventTables.outbox ∧ event.body.handled = true) ∧
        (consumedBy feeEventTables 2 twoConsumers).table = (run consumeEvent feeEventTables order).loans ∧
        (consumedBy feeEventTables 2 twoConsumers).done
          = (run consumeEvent feeEventTables order).processedEvents ∧
        (∀ event ∈ feeEventTables.outbox, event.id ∉ feeEventTables.processedEvents →
          order.count event ≤ 1 ∧ (order.count event = 1 ↔
            event.id ∈ (consumedBy feeEventTables 2 twoConsumers).done)) ∧
        ∀ before event after, order = before ++ event :: after →
          Consumed event (run consumeEvent feeEventTables before)
            (run consumeEvent feeEventTables (before ++ [event])) :=
  ⟨by decide +kernel, by decide +kernel, events_consumed_once feeEventTables (by decide +kernel)
    (by decide +kernel) (by decide +kernel) 2 twoConsumers⟩

/-- The sample loan with the fee of a member in the outbox. -/
def memberFeeTables : Tables :=
  run (CreditOp.step .python) (sampleTenant .reducingBalance)
    [sampleDisbursement, .feeEvent (.feeAssessmentCreated ⟨some "member", some 3, some 5⟩)]

/-- The fee of a member is recorded, and no loan changes. -/
theorem member_fee_changes_no_loan :
    (memberFeeTables.outbox.map fun event => (event.id, event.body.handled)) = [(16, true)] ∧
      memberFeeTables.processedEvents = [] ∧
      (consumedBy memberFeeTables 1 (List.replicate 5 (.next 0))).done = [16] ∧
      (consumedBy memberFeeTables 1 (List.replicate 5 (.next 0))).table = memberFeeTables.loans := by
  decide +kernel

end SaccoPlatform
