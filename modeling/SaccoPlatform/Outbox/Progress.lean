import SaccoPlatform.Lib.Polling
import SaccoPlatform.MakerChecker.Footprints
import SaccoPlatform.Outbox.Retention

/-!
# Progress of the polling consumers

The relay gives up on a row that keeps failing and meanwhile waits longer and longer before the next
attempt; the consumers do neither: a failed event stays where it is, among the fifty oldest. Behind
fewer than fifty events that keep failing, every event that can be handled is handled, at least one
in each run. Behind fifty of them none is.
-/

namespace SaccoPlatform

open Lib Session

/-! ## What the handlers leave alone -/

theorem handleEvent_keeps_outbox {body : EventBody} {t t' : Tables} {u : Unit}
    (h : handleEvent body t = .ok u t') : t'.outbox = t.outbox := by
  rcases handleEvent_ok h with rfl | ⟨_, _, loan, row, -, -, -, rfl⟩
  · rfl
  · rfl

theorem handleFeeEvent_keeps_outbox (today : Date) (feeTypes : List EventFeeType)
    (event : OutboxEvent) : Moves (Keeps Tables.outbox) (handleFeeEvent today feeTypes event) := by
  have hframe : FeeFrame (Keeps Tables.outbox) :=
    ⟨fun _ _ _ _ _ _ => rfl, fun _ _ _ => rfl⟩
  unfold handleFeeEvent
  split
  · apply moves_forEach
    intro f _
    apply moves_bind (assess_writes hframe _)
    intro _
    exact moves_pure _
  · exact moves_pure _

/-- No handler publishes. -/
theorem handle_keeps_outbox {c : PollingConsumer} {today : Date} {feeTypes : List EventFeeType}
    {event : OutboxEvent} {t t' : Tables} {u : Unit}
    (h : c.handle today feeTypes event t = .ok u t') : t'.outbox = t.outbox := by
  cases c with
  | credit => exact handleEvent_keeps_outbox h
  | fees => exact (handleFeeEvent_keeps_outbox today feeTypes event).ok h

/-! ## One run of a consumer -/

/-- The rows, the fee types and the empty outbox of the transaction. -/
structure Outbox.SameRows (db db' : Outbox) : Prop where
  rows : db'.rows = db.rows
  feeTypes : db'.feeTypes = db.feeTypes
  outbox : db'.tables.outbox = []

variable {db : Outbox} {c : PollingConsumer} {today : Date}

theorem sameRows_consumeRow {feeTypes : List EventFeeType} {db' : Outbox} (row : OutboxRow)
    (h : db.SameRows db') : db.SameRows (db'.consumeRow c today feeTypes row) := by
  unfold Outbox.consumeRow
  split
  · exact h
  · split
    · rename_i u tables hhandle
      have houtbox : tables.outbox = [] := (handle_keeps_outbox hhandle).trans h.outbox
      refine ⟨?_, h.feeTypes, rfl⟩
      show db'.rows ++ tables.outbox.map _ = db.rows
      rw [houtbox, List.map_nil, List.append_nil]
      exact h.rows
    · exact h

theorem sameRows_consume (h : db.tables.outbox = []) (c : PollingConsumer) (today : Date) :
    db.SameRows (db.consume c today) := by
  have hrow : ∀ db' row, db.SameRows db' →
      db.SameRows (db'.consumeRow c today db.activeFeeTypes row) :=
    fun _ row h => sameRows_consumeRow row h
  exact run_invariant_of_step hrow _ ⟨rfl, rfl, h⟩

theorem Outbox.SameRows.eventNames {db' : Outbox} (h : db.SameRows db') (c : PollingConsumer) :
    db'.eventNames c = db.eventNames c := by
  cases c with
  | credit => rfl
  | fees =>
    show (db'.feeTypes.filter _).filterMap _ = _
    rw [h.feeTypes]
    rfl

/-- Between two runs of a job the ids of the rows are distinct, and nothing is uncommitted. -/
structure Outbox.Committed (db : Outbox) : Prop where
  ids : (db.rows.map (·.event.id)).Nodup
  outbox : db.tables.outbox = []

theorem Outbox.Committed.consume (h : db.Committed) (c : PollingConsumer) (today : Date) :
    (db.consume c today).Committed := by
  have hsame := sameRows_consume h.outbox c today
  refine ⟨?_, hsame.outbox⟩
  rw [hsame.rows]
  exact h.ids

theorem mem_pending {row : OutboxRow} : row ∈ db.pending c ↔
    row ∈ db.rows ∧ row.event.body.eventType ∈ db.eventNames c ∧ (row.event.id, c) ∉ db.processed := by
  rw [Outbox.pending, List.mem_insertionSort, List.mem_filter]
  simp

theorem Outbox.Committed.pending_ids (h : db.Committed) (c : PollingConsumer) :
    ((db.pending c).map (·.event.id)).Nodup := by
  have hperm := List.perm_insertionSort (fun a b : OutboxRow => a.occurredAt ≤ b.occurredAt)
    (db.rows.filter fun r => r.event.body.eventType ∈ db.eventNames c ∧ (r.event.id, c) ∉ db.processed)
  rw [Outbox.pending, (hperm.map _).nodup_iff]
  exact (List.filter_sublist.map _).nodup h.ids

/-- Whether the event is recorded. -/
def Outbox.recorded (db : Outbox) (c : PollingConsumer) (row : OutboxRow) : Bool :=
  db.processed.contains (row.event.id, c)

/-- A run takes what it handles from the fifty oldest events and leaves the rest where it is. -/
theorem pending_consume (h : db.Committed) (c : PollingConsumer) (today : Date) :
    (db.consume c today).pending c = Polling.poll 50 ((db.consume c today).recorded c) (db.pending c) := by
  have hsame := sameRows_consume h.outbox c today
  have hkept : (db.consume c today).pending c =
      (db.pending c).filter (fun r => !(db.consume c today).recorded c r) := by
    rw [Outbox.pending, Outbox.pending, filter_insertionSort, List.filter_filter, hsame.rows,
      hsame.eventNames]
    congr 1
    apply List.filter_congr
    intro r _
    by_cases hdone : (r.event.id, c) ∈ db.processed
    · have hstill : (r.event.id, c) ∈ (db.consume c today).processed :=
        (mem_processed_consume db _).mpr (.inl hdone)
      simp [Outbox.recorded, hdone, hstill]
    · simp [Outbox.recorded, hdone]
      exact Bool.and_comm _ _
  -- behind the batch nothing is recorded
  have hrest : ∀ r ∈ (db.pending c).drop 50, (!(db.consume c today).recorded c r) = true := by
    intro r hr
    have hpending := (mem_pending.mp (List.mem_of_mem_drop hr)).2.2
    have hnot : (r.event.id, c) ∉ (db.consume c today).processed := by
      rw [mem_processed_consume]
      rintro (hdone | ⟨-, front, row, rest, hbatch, hid, -⟩)
      · exact hpending hdone
      · have hrow : row ∈ (db.pending c).take 50 := by
          show row ∈ db.batch c
          rw [hbatch]
          exact List.mem_append_right _ List.mem_cons_self
        have hdisjoint : List.Disjoint (((db.pending c).take 50).map (·.event.id))
            (((db.pending c).drop 50).map (·.event.id)) := by
          apply List.disjoint_of_nodup_append
          rw [← List.map_append, List.take_append_drop]
          exact h.pending_ids c
        exact hdisjoint (List.mem_map.mpr ⟨row, hrow, hid⟩) (List.mem_map_of_mem hr)
    simp [Outbox.recorded, hnot]
  rw [hkept, Polling.poll]
  conv_lhs => rw [← List.take_append_drop 50 (db.pending c)]
  rw [List.filter_append, List.filter_eq_self.mpr hrest]

/-! ## Runs one after the other -/

/-- The outbox after `k` runs of the consumer, on these dates. -/
def Outbox.polled (db : Outbox) (c : PollingConsumer) (dates : ℕ → Date) : ℕ → Outbox
  | 0 => db
  | k + 1 => (db.polled c dates k).consume c (dates k)

variable {dates : ℕ → Date} {row : OutboxRow}

/-- Whenever the event is in the batch, it is handled without error. -/
def Outbox.Reliable (db : Outbox) (c : PollingConsumer) (dates : ℕ → Date) (row : OutboxRow) : Prop :=
  ∀ k, row ∈ (db.polled c dates k).batch c → (db.polled c dates k).TakesUp c (dates k) row.event.id

/-- Whenever the event is in the batch, its handler fails. -/
def Outbox.KeepsFailing (db : Outbox) (c : PollingConsumer) (dates : ℕ → Date) (row : OutboxRow) :
    Prop :=
  ∀ k, row ∈ (db.polled c dates k).batch c → ¬ (db.polled c dates k).TakesUp c (dates k) row.event.id

theorem Outbox.Committed.polled (h : db.Committed) (c : PollingConsumer) (dates : ℕ → Date) (k : ℕ) :
    (db.polled c dates k).Committed := by
  induction k with
  | zero => exact h
  | succ k ih => exact ih.consume c (dates k)

theorem Outbox.Committed.polled_sameRows (h : db.Committed) (c : PollingConsumer) (dates : ℕ → Date)
    (k : ℕ) : db.SameRows (db.polled c dates k) := by
  induction k with
  | zero => exact ⟨rfl, rfl, h.outbox⟩
  | succ k ih =>
    have hnext := sameRows_consume (h.polled c dates k).outbox c (dates k)
    exact ⟨hnext.rows.trans ih.rows, hnext.feeTypes.trans ih.feeTypes, hnext.outbox⟩

theorem recorded_polled_succ (hpending : (row.event.id, c) ∉ (db.polled c dates k).processed) :
    (db.polled c dates (k + 1)).recorded c row = true ↔
      (db.polled c dates k).TakesUp c (dates k) row.event.id := by
  rw [Outbox.recorded, List.contains_iff_mem]
  show _ ∈ ((db.polled c dates k).consume c (dates k)).processed ↔ _
  rw [mem_processed_consume, or_iff_right hpending, and_iff_right rfl]

/-- An event of the queue is recorded after `k` runs exactly when it has left the queue. -/
theorem mem_processed_polled (h : db.Committed) (hrow : row ∈ db.pending c) (k : ℕ) :
    (row.event.id, c) ∈ (db.polled c dates k).processed ↔ row ∉ (db.polled c dates k).pending c := by
  have hsame := h.polled_sameRows c dates k
  obtain ⟨hmem, hname, -⟩ := mem_pending.mp hrow
  rw [mem_pending, hsame.rows, hsame.eventNames]
  simp [hmem, hname]

theorem polled_pending_sublist (h : db.Committed) (k : ℕ) :
    ((db.polled c dates k).pending c).Sublist (db.pending c) := by
  induction k with
  | zero => exact List.Sublist.refl _
  | succ k ih =>
    show (((db.polled c dates k).consume c (dates k)).pending c).Sublist _
    rw [pending_consume (h.polled c dates k)]
    exact (Polling.poll_sublist _ _ _).trans ih

theorem unrecorded_of_mem_batch {k : ℕ} (hrow : row ∈ ((db.polled c dates k).pending c).take 50) :
    (row.event.id, c) ∉ (db.polled c dates k).processed :=
  (mem_pending.mp (List.mem_of_mem_take hrow)).2.2

section

variable {fails : OutboxRow → Bool}

/-- Among fewer than fifty others, every event that is handled whenever it is in the batch is
recorded after as many runs as there are events. -/
theorem recorded_of_few (h : db.Committed) (hfew : ((db.pending c).filter fails).length < 50)
    (hreliable : ∀ row ∈ db.pending c, fails row = false → db.Reliable c dates row)
    (hrow : row ∈ db.pending c) (hworks : fails row = false) :
    (row.event.id, c) ∈ (db.polled c dates (db.pending c).length).processed := by
  have hpoll : ∀ k, (db.polled c dates (k + 1)).pending c = Polling.poll 50
      ((db.polled c dates (k + 1)).recorded c) ((db.polled c dates k).pending c) :=
    fun k => pending_consume (h.polled c dates k) c (dates k)
  have hhandled : ∀ k, ∀ row ∈ ((db.polled c dates k).pending c).take 50, (!fails row) = true →
      (db.polled c dates (k + 1)).recorded c row = true := by
    intro k row hrow hworks
    rw [recorded_polled_succ (unrecorded_of_mem_batch hrow)]
    have hmem := (polled_pending_sublist h k).subset (List.mem_of_mem_take hrow)
    exact hreliable row hmem (by simpa using hworks) k hrow
  have hothers : ((db.polled c dates 0).pending c).filter (fun row => !!fails row) =
      (db.pending c).filter fails := by
    simp only [Bool.not_not]
    rfl
  rw [mem_processed_polled h hrow]
  intro hleft
  have hgone := Polling.good_handled hpoll (by rw [hothers]; exact hfew) hhandled
    (List.length_filter_le _ _) row hleft
  rw [hworks] at hgone
  cases hgone

/-- An event behind fifty that keep failing is never recorded. -/
theorem unrecorded_of_many (h : db.Committed) {front rest : List OutboxRow}
    (hpending : db.pending c = front ++ row :: rest) (hmany : 50 ≤ (front.filter fails).length)
    (hfails : ∀ row ∈ db.pending c, fails row = true → db.KeepsFailing c dates row) (k : ℕ) :
    (row.event.id, c) ∉ (db.polled c dates k).processed := by
  have hpoll : ∀ k, (db.polled c dates (k + 1)).pending c = Polling.poll 50
      ((db.polled c dates (k + 1)).recorded c) ((db.polled c dates k).pending c) :=
    fun k => pending_consume (h.polled c dates k) c (dates k)
  have hstay : ∀ k, ∀ row ∈ ((db.polled c dates k).pending c).take 50, fails row = true →
      (db.polled c dates (k + 1)).recorded c row = false := by
    intro k row hrow hbad
    rw [Bool.eq_false_iff, Ne, recorded_polled_succ (unrecorded_of_mem_batch hrow)]
    have hmem := (polled_pending_sublist h k).subset (List.mem_of_mem_take hrow)
    exact hfails row hmem hbad k hrow
  obtain ⟨front', hk, -⟩ := Polling.blocked_stays hpoll hstay hpending hmany k
  have hrow : row ∈ db.pending c := by
    rw [hpending]
    exact List.mem_append_right _ List.mem_cons_self
  rw [mem_processed_polled h hrow, hk, not_not]
  exact List.mem_append_right _ List.mem_cons_self

/-- Events that keep failing stay at the head of the queue. The events behind them are all recorded,
after no more runs than there are events, exactly when there are none or fewer than fifty of the
earlier events keep failing; the other events are handled whenever they are in the batch. -/
theorem consumers_progress (hcommitted : db.Committed) {early late : List OutboxRow}
    (hpending : db.pending c = early ++ late)
    (hfails : ∀ row ∈ early, fails row = true → db.KeepsFailing c dates row)
    (hreliable : ∀ row ∈ early, fails row = false → db.Reliable c dates row)
    (hlate : ∀ row ∈ late, db.Reliable c dates row) :
    (∃ k ≤ (db.pending c).length, ∀ row ∈ late,
        (row.event.id, c) ∈ (db.polled c dates k).processed) ↔
      late = [] ∨ (early.filter fails).length < 50 := by
  -- the failing events are all in the earlier part
  let bad : OutboxRow → Bool := fun row => decide (row ∈ early) && fails row
  have hdisjoint : ∀ row ∈ late, bad row = false := by
    intro row hl
    have hids := hcommitted.pending_ids c
    rw [hpending, List.map_append] at hids
    have hnot : row ∉ early := fun he =>
      List.disjoint_of_nodup_append hids (List.mem_map_of_mem he) (List.mem_map_of_mem hl)
    simp [bad, hnot]
  have hearly : early.filter bad = early.filter fails := by
    apply List.filter_congr
    intro row hrow
    simp [bad, hrow]
  constructor
  · intro hdone
    obtain ⟨k, -, hdone⟩ := hdone
    by_contra hnot
    rw [not_or, not_lt] at hnot
    obtain ⟨row, rest, rfl⟩ := List.exists_cons_of_ne_nil hnot.1
    have hbad : ∀ row ∈ db.pending c, bad row = true → db.KeepsFailing c dates row := by
      intro row _ hbad
      have hparts : row ∈ early ∧ fails row = true := by simpa [bad] using hbad
      exact hfails row hparts.1 hparts.2
    exact unrecorded_of_many hcommitted hpending (by rw [hearly]; exact hnot.2) hbad k
      (hdone row List.mem_cons_self)
  · intro hcond
    rcases hcond with rfl | hfew
    · exact ⟨0, Nat.zero_le _, nofun⟩
    · have hworks : ∀ row ∈ db.pending c, bad row = false → db.Reliable c dates row := by
        intro row hrow hfine
        rw [hpending] at hrow
        rcases List.mem_append.mp hrow with he | hl
        · exact hreliable row he (by simpa [bad, he] using hfine)
        · exact hlate row hl
      have hnone : late.filter bad = [] := by
        rw [List.filter_eq_nil_iff]
        intro row hrow
        rw [hdisjoint row hrow]
        exact Bool.false_ne_true
      have hcount : ((db.pending c).filter bad).length < 50 := by
        rw [hpending, List.filter_append, hnone, List.append_nil, hearly]
        exact hfew
      refine ⟨(db.pending c).length, le_rfl, ?_⟩
      intro row hrow
      have hmem : row ∈ db.pending c := by
        rw [hpending]
        exact List.mem_append_right _ hrow
      exact recorded_of_few hcommitted hcount hworks hmem (hdisjoint row hrow)

end

/-! ## A chart of accounts without the accounts of a fee -/

/-- There are no accounts, and no fee has been assessed. -/
structure Tables.Uncharted (t : Tables) : Prop where
  accounts : t.accounts = []
  feeAssessments : t.feeAssessments = []

theorem assess_uncharted {t t' : Tables} (h : t.Uncharted) {a : AssessIn} {id : Uuid} :
    assess a t ≠ .ok id t' := by
  intro hok
  have hnone : t.account? a.feeType.glIncomeAccountCode = none := by
    rw [Tables.account?, h.accounts]
    rfl
  simp only [assess, get_bind_eq_ok, h.feeAssessments, List.find?_nil, orRaise_bind_eq_ok, hnone] at hok
  obtain ⟨_, hsome, -⟩ := hok
  cases hsome

/-- A fee handler that returns has assessed nothing. -/
theorem handleFeeEvent_uncharted {t t' : Tables} (h : t.Uncharted) {feeTypes : List EventFeeType}
    {event : OutboxEvent} {u : Unit} (hok : handleFeeEvent today feeTypes event t = .ok u t') :
    t' = t ∧ ∀ member, event.body = .memberActivated member →
      ∀ f ∈ feeTypes, f.eventName ≠ some "MemberActivated" := by
  cases hbody : event.body
  case memberActivated member =>
    simp only [handleFeeEvent, hbody] at hok
    cases hmatching : feeTypes.filter (·.eventName = some (EventBody.memberActivated member).eventType) with
    | nil =>
      rw [hmatching] at hok
      refine ⟨(pure_eq_ok.mp hok).2.symm, ?_⟩
      intro member' _ f hf hname
      have hnot := List.filter_eq_nil_iff.mp hmatching f hf
      exact hnot (decide_eq_true hname)
    | cons f rest =>
      rw [hmatching, forEach] at hok
      obtain ⟨_, _, hfirst, -⟩ := bind_eq_ok.mp hok
      obtain ⟨_, _, hassess, -⟩ := bind_eq_ok.mp hfirst
      exact absurd hassess (assess_uncharted h)
  all_goals
    simp only [handleFeeEvent, hbody] at hok
    refine ⟨(pure_eq_ok.mp hok).2.symm, ?_⟩
    intro member hother
    cases hother

theorem Tables.Uncharted.consumeRow {feeTypes : List EventFeeType} (h : db.tables.Uncharted)
    (row : OutboxRow) : (db.consumeRow .fees today feeTypes row).tables.Uncharted := by
  unfold Outbox.consumeRow
  split
  · exact h
  · split
    · rename_i u tables hhandle
      obtain ⟨rfl, -⟩ := handleFeeEvent_uncharted h hhandle
      exact ⟨h.accounts, h.feeAssessments⟩
    · exact h

theorem Tables.Uncharted.batch {feeTypes : List EventFeeType} (h : db.tables.Uncharted)
    (rows : List OutboxRow) :
    (run (Outbox.consumeRow .fees today feeTypes) db rows).tables.Uncharted :=
  @run_invariant_of_step _ _ _ (fun db : Outbox => db.tables.Uncharted)
    (fun _ row h => h.consumeRow row) _ rows h

theorem Tables.Uncharted.polled (h : db.tables.Uncharted) (k : ℕ) :
    (db.polled .fees dates k).tables.Uncharted := by
  induction k with
  | zero => exact h
  | succ k ih => exact ih.batch _

/-- Without a chart of accounts the activation of a member keeps failing, if a fee is charged for
it. -/
theorem keepsFailing_activation (hcommitted : db.Committed) (h : db.tables.Uncharted) {member : Uuid}
    (hbody : row.event.body = .memberActivated member)
    (hcharged : ∃ f ∈ db.activeFeeTypes, f.eventName = some "MemberActivated") :
    db.KeepsFailing .fees dates row := by
  intro k hrow htakes
  obtain ⟨front, row', rest, hbatch, hid, u, tables, hhandle⟩ := htakes
  have hrow' : row' ∈ (db.polled .fees dates k).batch .fees := by
    rw [hbatch]
    exact List.mem_append_right _ List.mem_cons_self
  have hsame : row' = row :=
    List.inj_on_of_nodup_map ((hcommitted.polled .fees dates k).pending_ids .fees)
      (List.mem_of_mem_take hrow') (List.mem_of_mem_take hrow) hid
  obtain ⟨f, hf, hname⟩ := hcharged
  have hf' : f ∈ (db.polled .fees dates k).activeFeeTypes := by
    rw [Outbox.activeFeeTypes, (hcommitted.polled_sameRows .fees dates k).feeTypes]
    exact hf
  have hnone := (handleFeeEvent_uncharted ((h.polled k).batch front) hhandle).2
  rw [hsame] at hnone
  exact hnone member hbody f hf' hname

/-- An event whose handler returns whatever the tables are is handled. -/
theorem reliable_of_returns
    (hreturns : ∀ today feeTypes t, ∃ u t', c.handle today feeTypes row.event t = .ok u t') :
    db.Reliable c dates row := by
  intro k hrow
  obtain ⟨front, rest, hbatch⟩ := List.append_of_mem hrow
  exact ⟨front, row, rest, hbatch, rfl, hreturns _ _ _⟩

/-- The outbox of a tenant that has these fee types and no chart of accounts yet. -/
def Outbox.uncharted (rows : List OutboxRow) (feeTypes : List EventFeeType) : Outbox :=
  ⟨Tables.empty, feeTypes, rows, [], 0⟩

/-- A fee for closing a loan. -/
def closureFee : EventFeeType :=
  ⟨⟨2, "CLOSURE", "Loan Closure Fee", (Numeric.ofRat? 500).getD 0, "4100", "1200", false⟩, .event,
    true, some "LoanClosed"⟩

def activationRow (n : ℕ) : OutboxRow := .new n ⟨n, .memberActivated n⟩

def closureRow : OutboxRow := .new 100 ⟨100, .loanClosed 7⟩

theorem consumers_progress_one_activation :
    (∃ k ≤ 2, ∀ row ∈ [closureRow], (row.event.id, PollingConsumer.fees) ∈
        ((Outbox.uncharted [activationRow 1, closureRow] [membershipFee, closureFee]).polled .fees
          (fun _ => ⟨739676, by decide⟩) k).processed) ↔
      [closureRow] = [] ∨ ([activationRow 1].filter fun _ => true).length < 50 := by
  have hcommitted : (Outbox.uncharted [activationRow 1, closureRow] [membershipFee, closureFee]).Committed :=
    ⟨by decide, rfl⟩
  have hpending : (Outbox.uncharted [activationRow 1, closureRow] [membershipFee, closureFee]).pending .fees
      = [activationRow 1] ++ [closureRow] := by decide
  refine consumers_progress hcommitted hpending ?_ nofun ?_
  · intro row hrow _
    obtain rfl := List.mem_singleton.mp hrow
    exact keepsFailing_activation hcommitted ⟨rfl, rfl⟩ rfl
      ⟨membershipFee, List.mem_filter.mpr ⟨List.mem_cons_self, rfl⟩, rfl⟩
  · intro row hrow
    obtain rfl := List.mem_singleton.mp hrow
    exact reliable_of_returns fun _ _ t => ⟨(), t, rfl⟩

/-- Fifty members were activated, then a loan was closed. Nothing is to be done for the closed loan,
but its event is never taken. -/
def fiftyActivations : Outbox :=
  .uncharted ((List.range 50).map activationRow ++ [closureRow]) [membershipFee, closureFee]

theorem closure_waits_behind_fifty :
    fiftyActivations.Reliable .fees (fun _ => ⟨739676, by decide⟩) closureRow ∧
      ∀ k, (closureRow.event.id, PollingConsumer.fees) ∉
        (fiftyActivations.polled .fees (fun _ => ⟨739676, by decide⟩) k).processed := by
  have hcommitted : fiftyActivations.Committed := ⟨by decide, rfl⟩
  have hpending : fiftyActivations.pending .fees = (List.range 50).map activationRow ++ [closureRow] := by
    decide +kernel
  refine ⟨reliable_of_returns fun _ _ t => ⟨(), t, rfl⟩, ?_⟩
  let fails : OutboxRow → Bool := fun row => row.event.id < 50
  have hmany : 50 ≤ (((List.range 50).map activationRow).filter fails).length := by decide
  apply unrecorded_of_many hcommitted hpending hmany
  intro row hrow hfails
  rw [hpending] at hrow
  rcases List.mem_append.mp hrow with hactivation | hclosure
  · obtain ⟨n, -, rfl⟩ := List.mem_map.mp hactivation
    exact keepsFailing_activation hcommitted ⟨rfl, rfl⟩ rfl
      ⟨membershipFee, List.mem_filter.mpr ⟨List.mem_cons_self, rfl⟩, rfl⟩
  · obtain rfl := List.mem_singleton.mp hclosure
    cases hfails

end SaccoPlatform
