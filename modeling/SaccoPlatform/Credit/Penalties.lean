import SaccoPlatform.Credit.Posting
import SaccoPlatform.Lib.Clamped

/-!
# Penalties and the order of fee events

The consumer skips an event that fails and takes it up again in a later run, so a collection may be
handled before the assessment that it pays. `GREATEST(accrued_penalties - :amount, 0)` then loses
what the collection could not find, while `total_paid_penalties` counts all of it. The penalties of
a loan are a counter that stops at zero, and its events its movements.
-/

namespace SaccoPlatform

open Lib Session Clamped

inductive FeeEventKind where
  | assessed | collected
deriving DecidableEq, Repr

/-- A fee event of a loan. The rows of `fee_assessments` and `fee_collections` hold a positive
amount. -/
structure LoanFeeEvent where
  id : Uuid
  kind : FeeEventKind
  amount : Money
  positive : 0 < amount.val
deriving DecidableEq

namespace LoanFeeEvent

/-- The row of `outbox_events`. -/
def event (loanId : Uuid) (e : LoanFeeEvent) : OutboxEvent :=
  let payload : FeePayload := ⟨some "loan", some loanId, some e.amount.val⟩
  match e.kind with
  | .assessed => ⟨e.id, .feeAssessmentCreated payload⟩
  | .collected => ⟨e.id, .feeCollectionCreated payload⟩

def movement (e : LoanFeeEvent) : Clamped.Movement ℚ :=
  match e.kind with
  | .assessed => .credit e.amount.val
  | .collected => .debit e.amount.val

/-- The columns that the handler computes. -/
def change (e : LoanFeeEvent) (b : Balances) : Balances :=
  match e.kind with
  | .assessed => b.assess e.amount.val
  | .collected => b.collect e.amount.val

theorem event_id (loanId : Uuid) (e : LoanFeeEvent) : (e.event loanId).id = e.id := by
  unfold event
  cases e.kind <;> rfl

theorem handleEvent_event (loanId : Uuid) (e : LoanFeeEvent) (t : Tables) :
    handleEvent (e.event loanId).body t = updatePenalties loanId e.change t := by
  unfold event change
  cases e.kind <;> rfl

theorem movement_nonneg (e : LoanFeeEvent) : e.movement.Nonneg := by
  unfold movement
  cases e.kind with
  | assessed => exact ⟨e.positive.le, le_rfl⟩
  | collected => exact ⟨le_rfl, e.positive.le⟩

theorem change_penalties (e : LoanFeeEvent) (b : Balances) :
    (e.change b).accruedPenalties = e.movement.apply b.accruedPenalties ∧
      (e.change b).totalPaidPenalties = b.totalPaidPenalties + e.movement.debited := by
  unfold change movement
  cases e.kind with
  | assessed => exact ⟨rfl, (add_zero _).symm⟩
  | collected => exact ⟨rfl, rfl⟩

theorem change_onGrid (e : LoanFeeEvent) {b : Balances} (h : b.OnGrid) : (e.change b).OnGrid := by
  obtain ⟨ho, hi, hp, htp, hti, htpen, htw⟩ := h
  unfold change
  cases e.kind with
  | assessed => exact ⟨ho, hi, add_mem hp e.amount.onGrid, htp, hti, htpen, htw⟩
  | collected =>
    refine ⟨ho, hi, ?_, htp, hti, add_mem htpen e.amount.onGrid, htw⟩
    show max (b.accruedPenalties - e.amount.val) 0 ∈ grid 4
    rcases max_choice (b.accruedPenalties - e.amount.val) 0 with hmax | hmax <;> rw [hmax]
    · exact sub_mem hp e.amount.onGrid
    · exact zero_mem _

end LoanFeeEvent

/-- `accrued_penalties` and `total_paid_penalties` of the loan. -/
def Tables.penalties (t : Tables) (loanId : Uuid) : Option (ℚ × ℚ) :=
  (t.loan? loanId).map fun l => (l.accruedPenalties.val, l.totalPaidPenalties.val)

/-! ## One event -/

section

variable {t : Tables} {loanId : Uuid} {loan : Loan} {e : LoanFeeEvent}

/-- What a flush of the changed columns leaves in the row. -/
theorem saved_change {row : Loan} (h : Saved loan (e.change loan.balances) loan.status row) :
    row.accruedPenalties.val = e.movement.apply loan.accruedPenalties.val ∧
      row.totalPaidPenalties.val = loan.totalPaidPenalties.val + e.movement.debited := by
  have hgrid := e.change_onGrid loan.balances_onGrid
  obtain ⟨haccrued, hpaid⟩ := e.change_penalties loan.balances
  have hrow := h.balances
  have hrowAccrued : row.balances.accruedPenalties = _ := congrArg Balances.accruedPenalties hrow
  have hrowPaid : row.balances.totalPaidPenalties = _ := congrArg Balances.totalPaidPenalties hrow
  constructor
  · exact (hrowAccrued.trans (roundAt_of_mem hgrid.accruedPenalties)).trans haccrued
  · exact (hrowPaid.trans (roundAt_of_mem hgrid.totalPaidPenalties)).trans hpaid

/-- The event was handled now. -/
structure FeeHandled (loanId : Uuid) (loan : Loan) (e : LoanFeeEvent) (t t' : Tables) : Prop where
  new : e.id ∉ t.processedEvents
  processed : t'.processedEvents = t.processedEvents ++ [e.id]
  loan : ∃ row, t'.loan? loanId = some row ∧ row.Nonneg ∧
    row.accruedPenalties.val = e.movement.apply loan.accruedPenalties.val ∧
    row.totalPaidPenalties.val = loan.totalPaidPenalties.val + e.movement.debited

theorem feeHandled_of_ok (hloan : t.loan? loanId = some loan) {done : Bool} {t' : Tables}
    (h : processEvent (e.event loanId) t = .ok done t') : t' = t ∨ FeeHandled loanId loan e t t' := by
  unfold processEvent at h
  rw [get_bind_eq_ok, e.event_id] at h
  split at h
  · exact .inl (pure_eq_ok.mp h).2.symm
  · next hnew =>
    obtain ⟨_, t₁, hhandle, h⟩ := bind_eq_ok.mp h
    rw [e.handleEvent_event, updatePenalties, get_bind_eq_ok, hloan] at hhandle
    obtain ⟨row, t₂, hsave, hhandle⟩ := bind_eq_ok.mp hhandle
    obtain ⟨rfl, hsaved⟩ := saveLoan_ok hsave
    obtain ⟨-, rfl⟩ := pure_eq_ok.mp hhandle
    simp only [modify_bind_eq_ok, pure_eq_ok] at h
    obtain ⟨-, rfl⟩ := h
    have hfound : (t.putLoan row).loan? loanId = some row := by
      have hid : loan.id = row.id := hsaved.terms.id.symm
      rw [loan?_putLoan, hloan, Option.map_some, if_pos hid]
    exact .inr ⟨hnew, rfl, row, hfound, hsaved.nonneg, saved_change hsaved⟩

/-- An event changes nothing or is handled. -/
theorem consumeEvent_cases (hloan : t.loan? loanId = some loan) :
    consumeEvent t (e.event loanId) = t ∨
      FeeHandled loanId loan e t (consumeEvent t (e.event loanId)) := by
  unfold consumeEvent
  rcases commit_cases (processEvent (e.event loanId)) t with ⟨done, t', hok, heq⟩ | heq
  · rw [heq]
    exact feeHandled_of_ok hloan hok
  · exact .inl heq

/-- A new event whose columns fit is handled. -/
theorem consumeEvent_handles (hloan : t.loan? loanId = some loan) (hvalid : loan.Nonneg)
    (hnew : e.id ∉ t.processedEvents)
    (haccrued : loan.accruedPenalties.val + e.movement.credited < 10 ^ 15)
    (hpaid : loan.totalPaidPenalties.val + e.movement.debited < 10 ^ 15) :
    FeeHandled loanId loan e t (consumeEvent t (e.event loanId)) := by
  obtain ⟨hgain, hlose⟩ := e.movement_nonneg
  have hgrid := e.change_onGrid loan.balances_onGrid
  obtain ⟨hchanged, htotal⟩ := e.change_penalties loan.balances
  have hcolumn : ∀ m : Money, |roundAt 4 m.val| < 10 ^ 15 := fun m => by
    rw [roundAt_of_mem m.onGrid]
    exact m.fits
  have happlied : 0 ≤ e.movement.apply loan.accruedPenalties.val ∧
      e.movement.apply loan.accruedPenalties.val ≤ loan.accruedPenalties.val + e.movement.credited := by
    have hpos := hvalid.penalties
    cases hm : e.movement with
    | credit amount =>
      rw [hm] at hgain
      exact ⟨add_nonneg hpos hgain, le_rfl⟩
    | debit amount =>
      rw [hm] at hlose
      have hamount : 0 ≤ amount := hlose
      refine ⟨le_max_right _ _, max_le ?_ ?_⟩
      · show _ ≤ loan.accruedPenalties.val + 0
        linarith
      · exact add_nonneg hpos le_rfl
  have hfitsAccrued : |roundAt 4 (e.change loan.balances).accruedPenalties| < 10 ^ 15 := by
    have hval : (e.change loan.balances).accruedPenalties =
        e.movement.apply loan.accruedPenalties.val := hchanged
    rw [roundAt_of_mem hgrid.accruedPenalties, hval]
    exact abs_lt.mpr ⟨by linarith [happlied.1], lt_of_le_of_lt happlied.2 haccrued⟩
  have hfitsPaid : |roundAt 4 (e.change loan.balances).totalPaidPenalties| < 10 ^ 15 := by
    have hlow := (abs_lt.mp loan.totalPaidPenalties.fits).1
    rw [roundAt_of_mem hgrid.totalPaidPenalties, htotal]
    exact abs_lt.mpr ⟨lt_of_lt_of_le hlow (le_add_of_nonneg_right hlose), hpaid⟩
  -- the other columns are written back as they were
  have hsave : Returns (saveLoan loan (e.change loan.balances) loan.status) t := by
    have hsame : (e.change loan.balances).outstandingPrincipal = loan.outstandingPrincipal.val ∧
        (e.change loan.balances).accruedInterest = loan.accruedInterest.val ∧
        (e.change loan.balances).totalPaidPrincipal = loan.totalPaidPrincipal.val ∧
        (e.change loan.balances).totalPaidInterest = loan.totalPaidInterest.val ∧
        (e.change loan.balances).totalWrittenOff = loan.totalWrittenOff.val := by
      unfold LoanFeeEvent.change
      cases e.kind <;> exact ⟨rfl, rfl, rfl, rfl, rfl⟩
    obtain ⟨ho, hi, htp, hti, htw⟩ := hsame
    apply returns_saveLoan
    · rw [ho, hi, htp, hti, htw]
      simp only [List.mem_cons, List.not_mem_nil, or_false, forall_eq_or_imp, forall_eq]
      exact ⟨hcolumn _, hcolumn _, hfitsAccrued, hcolumn _, hcolumn _, hfitsPaid, hcolumn _⟩
    · rw [ho]
      exact hvalid.outstanding
    · rw [hi]
      exact hvalid.interest
    · have hval : (e.change loan.balances).accruedPenalties =
          e.movement.apply loan.accruedPenalties.val := hchanged
      rw [hval]
      exact happlied.1
  obtain ⟨row, t₁, hrow⟩ := hsave
  have hok : processEvent (e.event loanId) t = .ok true
      { t₁ with processedEvents := t₁.processedEvents ++ [e.id] } := by
    unfold processEvent
    rw [get_bind_eq_ok, e.event_id, if_neg hnew]
    refine bind_eq_ok.mpr ⟨(), t₁, ?_, rfl⟩
    rw [e.handleEvent_event, updatePenalties, get_bind_eq_ok, hloan]
    exact bind_eq_ok.mpr ⟨row, t₁, hrow, rfl⟩
  rcases feeHandled_of_ok hloan hok with hsame | hhandled
  · obtain ⟨rfl, -⟩ := saveLoan_ok hrow
    have hlists := congrArg (fun t : Tables => t.processedEvents.length) hsame
    simp [Tables.putLoan] at hlists
  · unfold consumeEvent
    rw [commit_of_ok hok]
    exact hhandled

end

/-! ## Any order of handling -/

/-- The tables after the consumer has tried these events, one after another. -/
def consumeAll (t : Tables) (loanId : Uuid) (attempts : List LoanFeeEvent) : Tables :=
  run consumeEvent t (attempts.map (·.event loanId))

def assessedTotal (events : List LoanFeeEvent) : ℚ := credits (events.map (·.movement))

def collectedTotal (events : List LoanFeeEvent) : ℚ := debits (events.map (·.movement))

/-- The events `order` were handled, in this order, and no others. -/
structure HandledIn (loanId : Uuid) (loan : Loan) (order : List LoanFeeEvent) (t t' : Tables) :
    Prop where
  processed : t'.processedEvents = t.processedEvents ++ order.map (·.id)
  nodup : (order.map (·.id)).Nodup
  loan : ∃ row, t'.loan? loanId = some row ∧ (loan.Nonneg → row.Nonneg) ∧
    row.accruedPenalties.val =
      run Clamped.Movement.apply loan.accruedPenalties.val (order.map (·.movement)) ∧
    row.totalPaidPenalties.val = loan.totalPaidPenalties.val + collectedTotal order

section

variable {t : Tables} {loanId : Uuid} {loan : Loan}

theorem HandledIn.start (hloan : t.loan? loanId = some loan) : HandledIn loanId loan [] t t :=
  ⟨(List.append_nil _).symm, List.nodup_nil, loan, hloan, id, rfl, (add_zero _).symm⟩

/-- One more event. -/
theorem HandledIn.snoc {order : List LoanFeeEvent} {e : LoanFeeEvent} {t₁ t' : Tables} {row : Loan}
    (h : HandledIn loanId loan order t t₁) (hrow : t₁.loan? loanId = some row)
    (hhandled : FeeHandled loanId row e t₁ t') : HandledIn loanId loan (order ++ [e]) t t' := by
  obtain ⟨row₀, hrow₀, -, haccrued, hpaid⟩ := h.loan
  obtain rfl := Option.some.inj (hrow₀.symm.trans hrow)
  obtain ⟨row', hrow', hvalid, haccrued', hpaid'⟩ := hhandled.loan
  have hnew := hhandled.new
  rw [h.processed] at hnew
  refine ⟨?_, ?_, row', hrow', fun _ => hvalid, ?_, ?_⟩
  · rw [hhandled.processed, h.processed, List.map_append, List.append_assoc]
    rfl
  · rw [List.map_append]
    refine h.nodup.append (List.nodup_singleton _) ?_
    intro id hid hid'
    obtain rfl := List.mem_singleton.mp hid'
    exact hnew (List.mem_append_right _ hid)
  · rw [haccrued', haccrued, List.map_append, run_append]
    rfl
  · rw [hpaid', hpaid, collectedTotal, collectedTotal, List.map_append, debits_append, add_assoc]
    show _ + (_ + _) = _ + (_ + debits [e.movement])
    rw [debits_cons]
    simp [debits]

/-- Whatever is tried, some of it is handled, in some order. -/
theorem consumeAll_handledIn (hloan : t.loan? loanId = some loan) (attempts : List LoanFeeEvent) :
    ∃ order, (∀ e ∈ order, e ∈ attempts) ∧
      HandledIn loanId loan order t (consumeAll t loanId attempts) := by
  induction attempts using List.reverseRecOn with
  | nil => exact ⟨[], nofun, .start hloan⟩
  | append_singleton attempts e ih =>
    obtain ⟨order, horder, h⟩ := ih
    obtain ⟨row, hrow, -⟩ := h.loan
    have hstep : consumeAll t loanId (attempts ++ [e]) =
        consumeEvent (consumeAll t loanId attempts) (e.event loanId) := by
      unfold consumeAll
      rw [List.map_append, run_append]
      rfl
    rw [hstep]
    rcases consumeEvent_cases (e := e) hrow with hsame | hhandled
    · rw [hsame]
      exact ⟨order, fun e' he' => List.mem_append_left _ (horder e' he'), h⟩
    · refine ⟨order ++ [e], ?_, h.snoc hrow hhandled⟩
      intro e' he'
      rcases List.mem_append.mp he' with hold | hnew
      · exact List.mem_append_left _ (horder e' hold)
      · exact List.mem_append_right _ hnew

/-- New events whose sums fit the columns are all handled at the first attempt. -/
theorem consumeAll_handles_all (hloan : t.loan? loanId = some loan) (hvalid : loan.Nonneg)
    {events : List LoanFeeEvent} (hids : (events.map (·.id)).Nodup)
    (hnew : ∀ e ∈ events, e.id ∉ t.processedEvents)
    (haccrued : loan.accruedPenalties.val + assessedTotal events < 10 ^ 15)
    (hpaid : loan.totalPaidPenalties.val + collectedTotal events < 10 ^ 15) :
    HandledIn loanId loan events t (consumeAll t loanId events) := by
  induction events using List.reverseRecOn with
  | nil => exact .start hloan
  | append_singleton events e ih =>
    have hnonneg : ∀ m ∈ events.map (·.movement), m.Nonneg := by
      intro m hm
      obtain ⟨e', -, rfl⟩ := List.mem_map.mp hm
      exact e'.movement_nonneg
    obtain ⟨hgain, hlose⟩ := e.movement_nonneg
    have hsums : assessedTotal (events ++ [e]) = assessedTotal events + e.movement.credited ∧
        collectedTotal (events ++ [e]) = collectedTotal events + e.movement.debited := by
      unfold assessedTotal collectedTotal
      rw [List.map_append, credits_append, debits_append]
      simp [credits, debits]
    rw [hsums.1] at haccrued
    rw [hsums.2] at hpaid
    rw [List.map_append] at hids
    have hbefore : ∀ e' ∈ events, e'.id ∉ t.processedEvents :=
      fun e' he' => hnew e' (List.mem_append_left _ he')
    have h := ih (List.nodup_append.mp hids).1 hbefore (by linarith) (by linarith)
    obtain ⟨row, hrow, hrowValid, hrowAccrued, hrowPaid⟩ := h.loan
    have hbound : row.accruedPenalties.val ≤ loan.accruedPenalties.val + assessedTotal events := by
      rw [hrowAccrued]
      exact run_le hnonneg hvalid.penalties
    have hrowNew : e.id ∉ (consumeAll t loanId events).processedEvents := by
      rw [h.processed]
      intro hmem
      rcases List.mem_append.mp hmem with hold | hearlier
      · exact hnew e (List.mem_append_right _ List.mem_cons_self) hold
      · exact (List.nodup_append.mp hids).2.2 _ hearlier _ List.mem_cons_self rfl
    have hstep : consumeAll t loanId (events ++ [e]) =
        consumeEvent (consumeAll t loanId events) (e.event loanId) := by
      unfold consumeAll
      rw [List.map_append, run_append]
      rfl
    rw [hstep]
    refine h.snoc hrow (consumeEvent_handles hrow (hrowValid hvalid) hrowNew (by linarith) ?_)
    rw [hrowPaid]
    linarith

/-! ## When the order does not matter -/

/-- The events were tried, in any order and as often as it took, until all were handled. -/
structure AllConsumed (t : Tables) (loanId : Uuid) (events attempts : List LoanFeeEvent) : Prop where
  tried : ∀ e ∈ attempts, e ∈ events
  done : ∀ e ∈ events, e.id ∈ (consumeAll t loanId attempts).processedEvents

/-- Once all events are consumed, the penalties are the same whatever the order was, and the accrued
ones are what the assessments and collections add up to, unless that is negative. -/
structure OrderIndependent (t : Tables) (loanId : Uuid) (loan : Loan) (events : List LoanFeeEvent) :
    Prop where
  same : ∀ attempts attempts', AllConsumed t loanId events attempts →
    AllConsumed t loanId events attempts' →
    (consumeAll t loanId attempts).penalties loanId = (consumeAll t loanId attempts').penalties loanId
  balance : ∀ attempts, AllConsumed t loanId events attempts →
    0 ≤ loan.accruedPenalties.val + assessedTotal events - collectedTotal events →
    ((consumeAll t loanId attempts).penalties loanId).map Prod.fst =
      some (loan.accruedPenalties.val + assessedTotal events - collectedTotal events)

/-- A consumed list of events was handled in some order of its own. -/
theorem AllConsumed.perm {events attempts order : List LoanFeeEvent}
    (h : AllConsumed t loanId events attempts) (hids : (events.map (·.id)).Nodup)
    (hnew : ∀ e ∈ events, e.id ∉ t.processedEvents) (horder : ∀ e ∈ order, e ∈ attempts)
    (hhandled : HandledIn loanId loan order t (consumeAll t loanId attempts)) :
    order.Perm events := by
  refine (List.perm_ext_iff_of_nodup hhandled.nodup.of_map hids.of_map).mpr fun e => ?_
  constructor
  · exact fun he => h.tried e (horder e he)
  · intro he
    have hdone := h.done e he
    rw [hhandled.processed] at hdone
    obtain ⟨e', he', heq⟩ :=
      List.mem_map.mp ((List.mem_append.mp hdone).resolve_left (hnew e he))
    rwa [List.inj_on_of_nodup_map hids (h.tried e' (horder e' he')) he heq] at he'

theorem HandledIn.penalties {order : List LoanFeeEvent} {t' : Tables}
    (h : HandledIn loanId loan order t t') : t'.penalties loanId =
      some (run Clamped.Movement.apply loan.accruedPenalties.val (order.map (·.movement)),
        loan.totalPaidPenalties.val + collectedTotal order) := by
  obtain ⟨row, hrow, -, haccrued, hpaid⟩ := h.loan
  rw [Tables.penalties, hrow, Option.map_some, haccrued, hpaid]

theorem assessedTotal_eq_zero_iff {events : List LoanFeeEvent} :
    assessedTotal events = 0 ↔ ∀ e ∈ events, e.kind = .collected := by
  have hnonneg : ∀ es : List LoanFeeEvent, ∀ m ∈ es.map (·.movement), m.Nonneg := by
    intro es m hm
    obtain ⟨e, -, rfl⟩ := List.mem_map.mp hm
    exact e.movement_nonneg
  unfold assessedTotal
  induction events with
  | nil => simp [credits]
  | cons e events ih =>
    have hrest := credits_nonneg (hnonneg events)
    rw [List.map_cons, credits_cons, List.forall_mem_cons]
    cases hkind : e.kind with
    | assessed =>
      have hpos : 0 < e.movement.credited := by
        rw [LoanFeeEvent.movement, hkind]
        exact e.positive
      constructor
      · intro hzero
        linarith
      · intro hboth
        cases hboth.1
    | collected =>
      have hnone : e.movement.credited = 0 := by
        rw [LoanFeeEvent.movement, hkind]
        rfl
      rw [hnone, zero_add]
      exact ⟨fun h => ⟨rfl, ih.mp h⟩, fun h => ih.mpr h.2⟩

/-- Fee events of a loan may be handled in any order just when the penalties accrued before cover
all collections, or there is no assessment that a collection could overtake. (That the other orders
can be handled at all takes columns with room for the sums.) -/
theorem orderIndependent_iff (hloan : t.loan? loanId = some loan) (hvalid : loan.Nonneg)
    {events : List LoanFeeEvent} (hids : (events.map (·.id)).Nodup)
    (hnew : ∀ e ∈ events, e.id ∉ t.processedEvents) :
    (collectedTotal events ≤ loan.accruedPenalties.val ∨ (∀ e ∈ events, e.kind = .collected) →
        OrderIndependent t loanId loan events) ∧
      (loan.accruedPenalties.val + assessedTotal events < 10 ^ 15 →
        loan.totalPaidPenalties.val + collectedTotal events < 10 ^ 15 →
        OrderIndependent t loanId loan events →
        collectedTotal events ≤ loan.accruedPenalties.val ∨ ∀ e ∈ events, e.kind = .collected) := by
  have hnonneg : ∀ m ∈ events.map (·.movement), m.Nonneg := by
    intro m hm
    obtain ⟨e, -, rfl⟩ := List.mem_map.mp hm
    exact e.movement_nonneg
  rw [← assessedTotal_eq_zero_iff]
  constructor
  · intro hcond
    have hend : ∀ attempts, AllConsumed t loanId events attempts →
        (consumeAll t loanId attempts).penalties loanId = some
          (max (loan.accruedPenalties.val + assessedTotal events - collectedTotal events) 0,
            loan.totalPaidPenalties.val + collectedTotal events) := by
      intro attempts h
      obtain ⟨order, horder, hhandled⟩ := consumeAll_handledIn hloan attempts
      have hperm := h.perm hids hnew horder hhandled
      have hpermMoves := hperm.map (·.movement)
      rw [hhandled.penalties, run_of_perm hnonneg hvalid.penalties hcond hpermMoves,
        collectedTotal, debits_perm hpermMoves]
      rfl
    constructor
    · intro attempts attempts' h h'
      rw [hend attempts h, hend attempts' h']
    · intro attempts h hpos
      rw [hend attempts h, Option.map_some, max_eq_left hpos]
  · intro haccrued hpaid h
    -- any arrangement of the events can be handled
    have hall : ∀ order : List LoanFeeEvent, order.Perm events →
        AllConsumed t loanId events order ∧ (consumeAll t loanId order).penalties loanId =
          some (run Clamped.Movement.apply loan.accruedPenalties.val (order.map (·.movement)),
            loan.totalPaidPenalties.val + collectedTotal order) := by
      intro order hperm
      have hmoves := hperm.map (·.movement)
      have hhandled := consumeAll_handles_all hloan hvalid ((hperm.map (·.id)).nodup_iff.mpr hids)
        (fun e he => hnew e (hperm.subset he))
        (by rw [assessedTotal, credits_perm hmoves]; exact haccrued)
        (by rw [collectedTotal, debits_perm hmoves]; exact hpaid)
      refine ⟨⟨fun e he => hperm.subset he, fun e he => ?_⟩, hhandled.penalties⟩
      rw [hhandled.processed]
      exact List.mem_append_right _ (List.mem_map_of_mem (hperm.mem_iff.mpr he))
    have hfirst := hall _ (List.filter_append_perm (·.movement.isCredit) events)
    have hlast := hall _ (List.perm_append_comm.trans
      (List.filter_append_perm (·.movement.isCredit) events))
    have hsame := h.same _ _ hfirst.1 hlast.1
    rw [hfirst.2, hlast.2] at hsame
    have hruns := congrArg Prod.fst (Option.some.inj hsame)
    have hfilter : ∀ p : Clamped.Movement ℚ → Bool, (events.filter fun e => p e.movement).map (·.movement) =
        (events.map (·.movement)).filter p := fun p => by
      rw [List.filter_map]
      rfl
    apply (run_extremes_eq_iff hnonneg hvalid.penalties).mp
    unfold creditsFirst debitsFirst
    rw [← hfilter, ← hfilter, ← List.map_append, ← List.map_append]
    exact hruns

end

/-! ## A late assessment -/

/-- The sample loan with penalties of 5. -/
def penalizedTables : Tables :=
  consumeAll (run (CreditOp.step .python) (sampleTenant .reducingBalance) [sampleDisbursement]) 11
    [⟨100, .assessed, money 5, by decide +kernel⟩]

def assessmentOf3 : LoanFeeEvent := ⟨101, .assessed, money 3, by decide +kernel⟩

def collectionOf2 : LoanFeeEvent := ⟨102, .collected, money 2, by decide +kernel⟩

def collectionOf6 : LoanFeeEvent := ⟨103, .collected, money 6, by decide +kernel⟩

theorem orderIndependent_iff_covered : ∃ loan, penalizedTables.loan? 11 = some loan ∧
    OrderIndependent penalizedTables 11 loan [assessmentOf3, collectionOf2] := by
  have hsome : (penalizedTables.loan? 11).isSome = true := by decide +kernel
  obtain ⟨loan, hloan⟩ := Option.isSome_iff_exists.mp hsome
  have hvalues : ∀ l ∈ penalizedTables.loan? 11, (0 ≤ l.outstandingPrincipal.val ∧
      0 ≤ l.accruedInterest.val ∧ 0 ≤ l.accruedPenalties.val) ∧
      collectedTotal [assessmentOf3, collectionOf2] ≤ l.accruedPenalties.val := by decide +kernel
  obtain ⟨⟨ho, hi, hp⟩, hcovered⟩ := hvalues loan hloan
  exact ⟨loan, hloan, (orderIndependent_iff hloan ⟨ho, hi, hp⟩ (by decide +kernel)
    (by decide +kernel)).1 (.inl hcovered)⟩

/-- A collection of 6 from penalties of 5 leaves 2 behind an assessment of 3, and 3 before it. -/
theorem late_assessment_is_owed_again :
    (consumeAll penalizedTables 11 [assessmentOf3, collectionOf6]).penalties 11 = some (2, 6) ∧
      (consumeAll penalizedTables 11 [collectionOf6, assessmentOf3]).penalties 11 = some (3, 6) ∧
      ¬ ∀ (t : Tables) (loanId : Uuid) (loan : Loan) (events : List LoanFeeEvent),
        t.loan? loanId = some loan → loan.Nonneg → (events.map (·.id)).Nodup →
        (∀ e ∈ events, e.id ∉ t.processedEvents) → OrderIndependent t loanId loan events := by
  have hfirst : (consumeAll penalizedTables 11 [assessmentOf3, collectionOf6]).penalties 11 =
      some (2, 6) := by decide +kernel
  have hlast : (consumeAll penalizedTables 11 [collectionOf6, assessmentOf3]).penalties 11 =
      some (3, 6) := by decide +kernel
  refine ⟨hfirst, hlast, ?_⟩
  intro h
  have hsome : (penalizedTables.loan? 11).isSome = true := by decide +kernel
  obtain ⟨loan, hloan⟩ := Option.isSome_iff_exists.mp hsome
  have hvalues : ∀ l ∈ penalizedTables.loan? 11, 0 ≤ l.outstandingPrincipal.val ∧
      0 ≤ l.accruedInterest.val ∧ 0 ≤ l.accruedPenalties.val := by decide +kernel
  obtain ⟨ho, hi, hp⟩ := hvalues loan hloan
  have hindependent := h penalizedTables 11 loan [assessmentOf3, collectionOf6] hloan ⟨ho, hi, hp⟩
    (by decide +kernel) (by decide +kernel)
  have hsame := hindependent.same [assessmentOf3, collectionOf6] [collectionOf6, assessmentOf3]
    ⟨by decide +kernel, by decide +kernel⟩ ⟨by decide +kernel, by decide +kernel⟩
  rw [hfirst, hlast] at hsame
  revert hsame
  decide +kernel

end SaccoPlatform
