import SaccoPlatform.Outbox.Worker

/-!
# Retention of the outbox

`_purge` deletes a row by its `published_at` alone: whether the polling consumers have recorded the
event in `processed_events` is not looked at. An event survives until it is recorded if and only if
a run of its consumer took it up before; a consumer that keeps failing on it, is behind by more than
a batch, or does not run at all for the retention period loses it.
-/

namespace SaccoPlatform

open Lib Session

/-! ## What a consumer records -/

section

variable {db : Outbox} {c : PollingConsumer} {today : Date}

theorem mem_processed_consumeRow {feeTypes : List EventFeeType} (db : Outbox) (row : OutboxRow)
    (x : Uuid × PollingConsumer) :
    x ∈ (db.consumeRow c today feeTypes row).processed ↔
      x ∈ db.processed ∨ x = (row.event.id, c) ∧
        ∃ u tables, c.handle today feeTypes row.event db.tables = .ok u tables := by
  unfold Outbox.consumeRow
  by_cases hdone : (row.event.id, c) ∈ db.processed
  · rw [if_pos hdone]
    refine ⟨.inl, ?_⟩
    rintro (h | ⟨rfl, -⟩)
    · exact h
    · exact hdone
  · rw [if_neg hdone]
    cases hhandle : c.handle today feeTypes row.event db.tables with
    | ok u tables =>
      show x ∈ db.processed ++ [(row.event.id, c)] ↔ _
      simp
    | raised e tables => simp
    | aborted e => simp

/-- The event is in the batch of this run of the consumer, and its handler returns when its turn
comes. -/
def Outbox.TakesUp (db : Outbox) (c : PollingConsumer) (today : Date) (id : Uuid) : Prop :=
  ∃ front row rest, db.batch c = front ++ row :: rest ∧ row.event.id = id ∧
    ∃ u tables, c.handle today db.activeFeeTypes row.event
      (run (Outbox.consumeRow c today db.activeFeeTypes) db front).tables = .ok u tables

theorem mem_processed_consume (db : Outbox) (x : Uuid × PollingConsumer) :
    x ∈ (db.consume c today).processed ↔ x ∈ db.processed ∨ x.2 = c ∧ db.TakesUp c today x.1 := by
  unfold Outbox.consume
  rw [run_iff_exists (P := fun db : Outbox => x ∈ db.processed)
    (fun db row => mem_processed_consumeRow db row x)]
  refine or_congr_right ?_
  constructor
  · rintro ⟨front, row, rest, hbatch, rfl, hhandle⟩
    exact ⟨rfl, front, row, rest, hbatch, rfl, hhandle⟩
  · rintro ⟨hc, front, row, rest, hbatch, hid, hhandle⟩
    exact ⟨front, row, rest, hbatch, Prod.ext hid.symm hc, hhandle⟩

/-! ## The relay -/

/-- What publishing one row keeps, a tick keeps. -/
theorem relay_keeps {P : Outbox → Prop} {broker : Broker}
    (hrow : ∀ db row, P db → P (db.publishRow broker.attempt row)) (h : P db) :
    P (db.relay broker) := by
  have hloop : ∀ (now commits total : ℕ) (db : Outbox), P db →
      P (db.relayLoop broker.attempt now commits total) := by
    intro now commits
    induction commits with
    | zero => exact fun _ _ h => h
    | succ commits ih =>
      intro total db h
      unfold Outbox.relayLoop
      split
      · exact ih _ _ (run_invariant_of_step hrow _ h)
      · exact h
  exact hloop _ _ _ _ h

theorem processed_relay (broker : Broker) (db : Outbox) :
    (db.relay broker).processed = db.processed := by
  have hsame : ∀ (db' : Outbox) (row : OutboxRow), db'.processed = db.processed →
      (db'.publishRow broker.attempt row).processed = db.processed := fun _ _ h => h
  exact relay_keeps hsame rfl

/-! ## What is recorded along a run -/

theorem mem_processed_step (db : Outbox) (op : OutboxOp) (x : Uuid × PollingConsumer) :
    x ∈ (OutboxOp.step db op).processed ↔
      x ∈ db.processed ∨ ∃ today, op = .consume x.2 today ∧ db.TakesUp x.2 today x.1 := by
  cases op with
  | consume c today =>
    show x ∈ (db.consume c today).processed ↔ _
    rw [mem_processed_consume]
    refine or_congr_right ?_
    constructor
    · rintro ⟨rfl, htakes⟩
      exact ⟨today, rfl, htakes⟩
    · rintro ⟨today', heq, htakes⟩
      cases heq
      exact ⟨rfl, htakes⟩
  | relay broker =>
    show x ∈ (db.relay broker).processed ↔ _
    rw [processed_relay]
    simp
  | transact tables feeTypes =>
    show x ∈ db.processed ↔ _
    simp
  | purge cutoff =>
    show x ∈ db.processed ↔ _
    simp
  | wait elapsed =>
    show x ∈ db.processed ↔ _
    simp

/-- Some run of the consumer has taken the event up. -/
def Outbox.TakenUp (db : Outbox) (ops : List OutboxOp) (c : PollingConsumer) (id : Uuid) : Prop :=
  ∃ earlier today later, ops = earlier ++ .consume c today :: later ∧
    (run OutboxOp.step db earlier).TakesUp c today id

theorem mem_processed_run (db : Outbox) (ops : List OutboxOp) (c : PollingConsumer) (id : Uuid) :
    (id, c) ∈ (run OutboxOp.step db ops).processed ↔
      (id, c) ∈ db.processed ∨ db.TakenUp ops c id := by
  rw [run_iff_exists (P := fun db : Outbox => (id, c) ∈ db.processed)
    (fun db op => mem_processed_step db op (id, c))]
  refine or_congr_right ?_
  constructor
  · rintro ⟨earlier, op, later, hops, today, rfl, htakes⟩
    exact ⟨earlier, today, later, hops, htakes⟩
  · rintro ⟨earlier, today, later, hops, htakes⟩
    exact ⟨earlier, _, later, hops, today, rfl, htakes⟩

/-! ## What is published when -/

/-- What was published before the time of `db` was in the outbox of `db`. -/
structure Outbox.Precedes (db db' : Outbox) : Prop where
  clock : db.clock ≤ db'.clock
  rows : ∀ r' ∈ db'.rows, ∀ published, r'.publishedAt = some published → published < db.clock →
    ∃ r ∈ db.rows, r.event = r'.event ∧ r.publishedAt = some published

theorem Outbox.Precedes.refl (db : Outbox) : db.Precedes db :=
  ⟨Nat.le_refl _, fun r hr _ hpublished _ => ⟨r, hr, rfl, hpublished⟩⟩

theorem Outbox.Precedes.trans {db₁ db₂ db₃ : Outbox} (h : db₁.Precedes db₂) (h' : db₂.Precedes db₃) :
    db₁.Precedes db₃ := by
  refine ⟨h.clock.trans h'.clock, ?_⟩
  intro r₃ hr₃ published hpublished hlt
  obtain ⟨r₂, hr₂, heq₂, hpublished₂⟩ := h'.rows r₃ hr₃ published hpublished (hlt.trans_le h.clock)
  obtain ⟨r₁, hr₁, heq₁, hpublished₁⟩ := h.rows r₂ hr₂ published hpublished₂ hlt
  exact ⟨r₁, hr₁, heq₁.trans heq₂, hpublished₁⟩

/-- The new rows of a transaction are not published. -/
theorem precedes_put (db : Outbox) (tables : Tables) : db.Precedes (db.put tables) := by
  refine ⟨Nat.le_refl _, ?_⟩
  intro r hr published hpublished _
  rcases List.mem_append.mp hr with hold | hnew
  · exact ⟨r, hold, rfl, hpublished⟩
  · obtain ⟨event, -, rfl⟩ := List.mem_map.mp hnew
    cases hpublished

theorem precedes_publishRow (attempt : Uuid → Attempt) (db : Outbox) (row : OutboxRow) :
    db.Precedes (db.publishRow attempt row) := by
  refine ⟨Nat.le_add_right _ _, ?_⟩
  intro r' hr' published hpublished hlt
  obtain ⟨r, hr, rfl⟩ := List.mem_map.mp hr'
  split at hpublished
  · rename_i hid
    rw [if_pos hid]
    cases herror : (attempt row.event.id).error with
    | none =>
      -- published now, not before
      rw [herror] at hpublished
      have hnow : db.clock + (attempt row.event.id).elapsed = published := Option.some.inj hpublished
      omega
    | some error =>
      rw [herror] at hpublished
      exact ⟨r, hr, rfl, hpublished⟩
  · rename_i hid
    rw [if_neg hid]
    exact ⟨r, hr, rfl, hpublished⟩

theorem precedes_consumeRow {feeTypes : List EventFeeType} (db : Outbox) (row : OutboxRow) :
    db.Precedes (db.consumeRow c today feeTypes row) := by
  unfold Outbox.consumeRow
  split
  · exact .refl db
  · split
    · rename_i u tables _
      exact ⟨(precedes_put db tables).clock, (precedes_put db tables).rows⟩
    · exact .refl db

theorem precedes_step (db : Outbox) (op : OutboxOp) : db.Precedes (OutboxOp.step db op) := by
  cases op with
  | transact tables feeTypes => exact ⟨(precedes_put db tables).clock, (precedes_put db tables).rows⟩
  | relay broker =>
    have hrow : ∀ db' row, db.Precedes db' → db.Precedes (db'.publishRow broker.attempt row) :=
      fun db' row h => h.trans (precedes_publishRow broker.attempt db' row)
    exact relay_keeps hrow (.refl db)
  | consume c today =>
    have hrow : ∀ db' row, db.Precedes db' →
        db.Precedes (db'.consumeRow c today db.activeFeeTypes row) :=
      fun db' row h => h.trans (precedes_consumeRow db' row)
    exact run_invariant_of_step hrow _ (.refl db)
  | purge cutoff =>
    refine ⟨Nat.le_refl _, ?_⟩
    intro r hr published hpublished _
    exact ⟨r, (List.mem_filter.mp hr).1, rfl, hpublished⟩
  | wait elapsed =>
    exact ⟨Nat.le_add_right _ _, fun r hr _ hpublished _ => ⟨r, hr, rfl, hpublished⟩⟩

theorem precedes_run (db : Outbox) (ops : List OutboxOp) :
    db.Precedes (run OutboxOp.step db ops) := by
  have hstep : ∀ db' op, db.Precedes db' → db.Precedes (OutboxOp.step db' op) :=
    fun db' op h => h.trans (precedes_step db' op)
  exact run_invariant_of_step hstep ops (.refl db)

/-! ## Runs that leave nothing behind -/

/-- The run of the consumer takes up all it has to: the events fit in a batch, and no handler
raises. -/
structure Outbox.Drains (db : Outbox) (c : PollingConsumer) (today : Date) : Prop where
  length : (db.pending c).length ≤ 50
  handled : ∀ front row rest, db.batch c = front ++ row :: rest →
    ∃ u tables, c.handle today db.activeFeeTypes row.event
      (run (Outbox.consumeRow c today db.activeFeeTypes) db front).tables = .ok u tables

theorem Outbox.Drains.recorded (h : db.Drains c today) {row : OutboxRow} (hrow : row ∈ db.rows)
    (hname : row.event.body.eventType ∈ db.eventNames c) :
    (row.event.id, c) ∈ (db.consume c today).processed := by
  rw [mem_processed_consume]
  by_cases hdone : (row.event.id, c) ∈ db.processed
  · exact .inl hdone
  · have hpending : row ∈ db.pending c := by
      rw [Outbox.pending, List.mem_insertionSort, List.mem_filter]
      exact ⟨hrow, by simpa using ⟨hname, hdone⟩⟩
    have hbatch : row ∈ db.batch c := by
      rw [Outbox.batch, List.take_of_length_le h.length]
      exact hpending
    obtain ⟨front, rest, hsplit⟩ := List.append_of_mem hbatch
    exact .inr ⟨rfl, front, row, rest, hsplit, rfl, h.handled front row rest hsplit⟩

/-- At or after the cutoff, a run of the consumer took up all it had to, with the event types that
it handles now. -/
def Outbox.DrainedSince (db : Outbox) (ops : List OutboxOp) (cutoff : ℕ) (c : PollingConsumer) :
    Prop :=
  ∃ earlier today later, ops = earlier ++ .consume c today :: later ∧
    cutoff ≤ (run OutboxOp.step db earlier).clock ∧
    (run OutboxOp.step db ops).eventNames c ⊆ (run OutboxOp.step db earlier).eventNames c ∧
    (run OutboxOp.step db earlier).Drains c today

theorem OutboxRow.expired_iff {row : OutboxRow} {cutoff : ℕ} :
    row.expired cutoff = true ↔ ∃ published, row.publishedAt = some published ∧ published < cutoff := by
  unfold OutboxRow.expired
  split
  · rename_i hnone
    simp [hnone]
  · rename_i published hsome
    simp [hsome]

theorem Outbox.DrainedSince.recorded {ops : List OutboxOp} {cutoff : ℕ}
    (h : db.DrainedSince ops cutoff c) {row : OutboxRow} (hrow : row ∈ (run OutboxOp.step db ops).rows)
    (hexpired : row.expired cutoff = true)
    (hname : row.event.body.eventType ∈ (run OutboxOp.step db ops).eventNames c) :
    (row.event.id, c) ∈ (run OutboxOp.step db ops).processed := by
  obtain ⟨earlier, today, later, rfl, hcutoff, hnames, hdrains⟩ := h
  obtain ⟨published, hpublished, hlt⟩ := OutboxRow.expired_iff.mp hexpired
  have hprecedes := precedes_run (run OutboxOp.step db earlier) (.consume c today :: later)
  rw [← run_append] at hprecedes
  -- the row was there when the consumer ran
  obtain ⟨r, hr, hevent, -⟩ :=
    hprecedes.rows row hrow published hpublished (hlt.trans_le hcutoff)
  rw [← hevent] at hname ⊢
  have hrecorded := hdrains.recorded hr (hnames hname)
  rw [run_append, run_cons, mem_processed_run]
  exact .inl hrecorded

end

/-! ## Every run -/

/-- No purge of the run deletes an event that a consumer handles and has not recorded. -/
def Outbox.KeepsUnprocessed (db : Outbox) (ops : List OutboxOp) : Prop :=
  ∀ before cutoff after, ops = before ++ .purge cutoff :: after →
    ∀ row ∈ (run OutboxOp.step db before).rows,
      row ∉ (run OutboxOp.step db (before ++ [.purge cutoff])).rows →
        ∀ c, row.event.body.eventType ∈ (run OutboxOp.step db before).eventNames c →
          (row.event.id, c) ∈ (run OutboxOp.step db before).processed

theorem not_mem_purge {db : Outbox} {cutoff : ℕ} {row : OutboxRow} (hrow : row ∈ db.rows) :
    row ∉ (db.purge cutoff).rows ↔ row.expired cutoff = true := by
  show row ∉ db.rows.filter _ ↔ _
  rw [List.mem_filter]
  simp [hrow]

/-- A purge deletes by the date of publication. Nothing unprocessed is lost exactly when every event
of a handled type that was published before the cutoff was taken up by an earlier run of its
consumer: it was among the fifty oldest, and its handler returned. It is enough that each consumer
has had a run at or after the cutoff that left nothing behind. -/
theorem purge_keeps_unprocessed (tables : Tables) (ops : List OutboxOp) :
    ((Outbox.empty tables).KeepsUnprocessed ops ↔
      ∀ before cutoff after, ops = before ++ .purge cutoff :: after →
        ∀ row ∈ (run OutboxOp.step (.empty tables) before).rows, row.expired cutoff = true →
          ∀ c, row.event.body.eventType ∈ (run OutboxOp.step (.empty tables) before).eventNames c →
            (Outbox.empty tables).TakenUp before c row.event.id) ∧
      ((∀ before cutoff after, ops = before ++ .purge cutoff :: after →
          ∀ c, (Outbox.empty tables).DrainedSince before cutoff c) →
        (Outbox.empty tables).KeepsUnprocessed ops) := by
  -- deletion looks at the date alone
  have hdeleted : ∀ before cutoff (row : OutboxRow),
      row ∈ (run OutboxOp.step (.empty tables) before).rows →
      (row ∉ (run OutboxOp.step (.empty tables) (before ++ [.purge cutoff])).rows ↔
        row.expired cutoff = true) := by
    intro before cutoff row hrow
    rw [run_append]
    exact not_mem_purge hrow
  have hrecorded : ∀ before c id,
      (id, c) ∈ (run OutboxOp.step (.empty tables) before).processed ↔
        (Outbox.empty tables).TakenUp before c id := by
    intro before c id
    rw [mem_processed_run, or_iff_right]
    exact nofun
  refine ⟨⟨?_, ?_⟩, ?_⟩
  · intro hkeeps before cutoff after hops row hrow hexpired c hname
    rw [← hrecorded]
    exact hkeeps before cutoff after hops row hrow ((hdeleted before cutoff row hrow).mpr hexpired) c hname
  · intro htaken before cutoff after hops row hrow hgone c hname
    rw [hrecorded]
    exact htaken before cutoff after hops row hrow ((hdeleted before cutoff row hrow).mp hgone) c hname
  · intro hdrained before cutoff after hops row hrow hgone c hname
    have hexpired := (hdeleted before cutoff row hrow).mp hgone
    exact (hdrained before cutoff after hops c).recorded hrow hexpired hname

/-- The fee of a new member that every tenant starts with. -/
def membershipFee : EventFeeType :=
  ⟨⟨1, "MEMBERSHIP", "Membership Registration Fee", (Numeric.ofRat? 20000).getD 0, "4100", "1200",
    true⟩, .event, true, some "MemberActivated"⟩

def days (n : ℕ) : ℕ := seconds (n * 86400)

/-- A member is activated while the chart of accounts lacks the accounts of the fee. The event is
published; the fee consumer runs, on the first day and ninety-one days later, and its handler raises
both times. Then the outbox is purged with a retention of ninety days. -/
def activationRun : List OutboxOp :=
  [.transact { Tables.empty with outbox := [⟨1, .memberActivated 7⟩] } [membershipFee],
    .relay ⟨fun _ => ⟨seconds 1, none⟩, 1⟩, .consume .fees (.ofOrdinal 739676), .wait (days 91),
    .consume .fees ⟨739767, by decide⟩, .purge (days 1)]

theorem activation_purged_unprocessed :
    ((run OutboxOp.step (.empty Tables.empty) activationRun.dropLast).rows.map fun r =>
        (r.event, r.publishedAt)) = [(⟨1, .memberActivated 7⟩, some (seconds 1))] ∧
      (run OutboxOp.step (.empty Tables.empty) activationRun).rows = [] ∧
      (run OutboxOp.step (.empty Tables.empty) activationRun).processed = [] ∧
      ¬ (Outbox.empty Tables.empty).KeepsUnprocessed activationRun := by
  refine ⟨by decide +kernel, by decide +kernel, by decide +kernel, ?_⟩
  intro hkeeps
  have hrecorded := hkeeps activationRun.dropLast (days 1) [] rfl
    ⟨⟨1, .memberActivated 7⟩, 0, some (seconds 1), 1, none, none, false⟩ (by decide +kernel)
    (by decide +kernel) .fees (by decide +kernel)
  revert hrecorded
  decide +kernel

end SaccoPlatform
