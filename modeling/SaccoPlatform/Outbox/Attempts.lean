import SaccoPlatform.Outbox.Progress

/-!
# Attempts of the relay

What a tick of the relay attempts, batch by batch, and what the attempts of all ticks make of a row.
A failed attempt puts the next one at least thirty seconds behind the clock and so behind the start
of the tick: the tick does not see the row again. The tenth failure takes the row out for good.
-/

namespace SaccoPlatform

open Lib Session

/-! ## The batches of a tick -/

/-- The batches that a tick takes, behind `total` processed rows. The one that comes after `commits`
others is the last: in it the connection breaks. -/
def Outbox.batchesLoop (attempt : Uuid → Attempt) (now : ℕ) : ℕ → ℕ → Outbox → List (List OutboxRow)
  | 0, total, db =>
    if total < 1000 ∧ db.clock < now + seconds 30 ∧ db.ready now ≠ [] then [db.ready now] else []
  | commits + 1, total, db =>
    if total < 1000 ∧ db.clock < now + seconds 30 ∧ db.ready now ≠ [] then
      db.ready now :: batchesLoop attempt now commits (total + (db.ready now).length)
        (run (publishRow attempt) db (db.ready now))
    else []

/-- The rows that a tick attempts to publish. -/
def Outbox.attempted (db : Outbox) (broker : Broker) : List OutboxRow :=
  (db.batchesLoop broker.attempt db.clock broker.commits 0).flatten

/-- The rows whose attempt is committed. -/
def Outbox.counted (db : Outbox) (broker : Broker) : List OutboxRow :=
  ((db.batchesLoop broker.attempt db.clock broker.commits 0).take broker.commits).flatten

theorem counted_sublist (db : Outbox) (broker : Broker) :
    (db.counted broker).Sublist (db.attempted broker) :=
  (List.take_sublist _ _).flatten

theorem relayLoop_eq_run (attempt : Uuid → Attempt) (now commits total : ℕ) (db : Outbox) :
    db.relayLoop attempt now commits total =
      run (Outbox.publishRow attempt) db ((db.batchesLoop attempt now commits total).take commits).flatten := by
  induction commits generalizing total db with
  | zero => rfl
  | succ commits ih =>
    unfold Outbox.relayLoop Outbox.batchesLoop
    split
    · rw [List.take_succ_cons, List.flatten_cons, run_append]
      exact ih _ _
    · rfl

theorem relay_eq_run (db : Outbox) (broker : Broker) :
    db.relay broker = run (Outbox.publishRow broker.attempt) db (db.counted broker) :=
  relayLoop_eq_run _ _ _ _ _

/-! ## One attempt -/

section

variable {db : Outbox} {attempt : Uuid → Attempt} {now : ℕ} {row : OutboxRow}

/-- A tick started at `now` does not take the row. -/
def OutboxRow.Settled (row : OutboxRow) (now : ℕ) : Prop :=
  row.publishedAt ≠ none ∨ ∃ next ∈ row.nextAttemptAt, now < next

/-- Published or dead-lettered. -/
def OutboxRow.Finished (row : OutboxRow) : Prop :=
  row.publishedAt.isSome = true ∨ row.isDeadLettered = true

theorem nextAttemptDelta_pos (attempts : ℕ) : 0 < nextAttemptDelta attempts := by
  have hpow : 0 < 2 ^ attempts := Nat.two_pow_pos attempts
  unfold nextAttemptDelta seconds
  omega

theorem settled_attempted {time : ℕ} (htime : now ≤ time) (row : OutboxRow) (error : Option String) :
    (row.attempted time error).Settled now := by
  cases error with
  | none => exact .inl (Option.some_ne_none _)
  | some error =>
    have hdelta := nextAttemptDelta_pos row.attempts
    exact .inr ⟨time + nextAttemptDelta row.attempts, rfl, by omega⟩

@[simp] theorem attempted_event (row : OutboxRow) (time : ℕ) (error : Option String) :
    (row.attempted time error).event = row.event := by
  cases error with
  | none => rfl
  | some error => rfl

theorem OutboxRow.Finished.attempted {time : ℕ} (h : row.Finished) (error : Option String) :
    (row.attempted time error).Finished := by
  cases error with
  | none => exact .inl rfl
  | some error =>
    rcases h with hpublished | hdead
    · exact .inl hpublished
    · right
      show (row.isDeadLettered || _) = true
      rw [hdead, Bool.true_or]

theorem mem_ready (h : row ∈ db.ready now) :
    row ∈ db.rows ∧ ¬ row.Settled now ∧ ¬ row.Finished := by
  have hrow := List.mem_filter.mp ((List.mem_insertionSort _).mp (List.mem_of_mem_take h))
  obtain ⟨hpublished, hdead, hnext⟩ := of_decide_eq_true hrow.2
  refine ⟨hrow.1, ?_, ?_⟩
  · rintro (hsome | ⟨next, hmem, hlt⟩)
    · exact hsome hpublished
    · have := hnext next hmem
      omega
  · rintro (hsome | hsome)
    · rw [hpublished] at hsome
      cases hsome
    · rw [hdead] at hsome
      cases hsome

/-- `publishRow`, on one of the rows. -/
def OutboxRow.published (attempt : Uuid → Attempt) (time : ℕ) (row r : OutboxRow) : OutboxRow :=
  if r.event.id = row.event.id then r.attempted time (attempt row.event.id).error else r

@[simp] theorem published_event (time : ℕ) (row r : OutboxRow) :
    (row.published attempt time r).event = r.event := by
  unfold OutboxRow.published
  split
  · exact attempted_event _ _ _
  · rfl

theorem publishRow_rows (attempt : Uuid → Attempt) (db : Outbox) (row : OutboxRow) :
    (db.publishRow attempt row).rows =
      db.rows.map (row.published attempt (db.clock + (attempt row.event.id).elapsed)) := rfl

/-- The ids of the rows stay. -/
theorem publishRow_ids (attempt : Uuid → Attempt) (db : Outbox) (row : OutboxRow) :
    (db.publishRow attempt row).rows.map (·.event.id) = db.rows.map (·.event.id) := by
  rw [publishRow_rows, List.map_map]
  apply List.map_congr_left
  intro r _
  show (row.published attempt _ r).event.id = r.event.id
  rw [published_event]

theorem run_publishRow_ids (attempt : Uuid → Attempt) (db : Outbox) (rows : List OutboxRow) :
    (run (Outbox.publishRow attempt) db rows).rows.map (·.event.id) = db.rows.map (·.event.id) :=
  @run_invariant_of_step _ _ _ (fun db' : Outbox => db'.rows.map (·.event.id) = db.rows.map (·.event.id))
    (fun db' row h => (publishRow_ids attempt db' row).trans h) _ rows rfl

theorem ready_ids_nodup (h : (db.rows.map (·.event.id)).Nodup) :
    ((db.ready now).map (·.event.id)).Nodup := by
  have hsorted : ((db.rows.filter _).insertionSort _).Perm (db.rows.filter _) :=
    List.perm_insertionSort (fun a b : OutboxRow => a.occurredAt ≤ b.occurredAt)
      (db.rows.filter fun r => r.publishedAt = none ∧ r.isDeadLettered = false ∧
        ∀ next ∈ r.nextAttemptAt, next ≤ now)
  have hfiltered := (hsorted.map (·.event.id)).nodup_iff.mpr ((List.filter_sublist.map _).nodup h)
  exact ((List.take_sublist 100 _).map _).nodup hfiltered

/-! ## At most once in a tick -/

/-- The tick started at `now`, and it has attempted the rows of these ids. -/
structure Outbox.Behind (db : Outbox) (now : ℕ) (ids : List Uuid) : Prop where
  clock : now ≤ db.clock
  settled : ∀ r ∈ db.rows, r.event.id ∈ ids → r.Settled now

theorem Outbox.Behind.publishRow {ids : List Uuid} (h : db.Behind now ids) (row : OutboxRow) :
    (db.publishRow attempt row).Behind now (ids ++ [row.event.id]) := by
  have htime : now ≤ db.clock + (attempt row.event.id).elapsed := h.clock.trans (Nat.le_add_right _ _)
  refine ⟨htime, ?_⟩
  intro r' hr' hid
  obtain ⟨r, hr, rfl⟩ := List.mem_map.mp hr'
  split at hid
  · rename_i heq
    rw [if_pos heq]
    exact settled_attempted htime r _
  · rename_i hne
    rw [if_neg hne]
    rcases List.mem_append.mp hid with hold | hnew
    · exact h.settled r hr hold
    · exact absurd (List.mem_singleton.mp hnew) hne

theorem Outbox.Behind.run {ids : List Uuid} (h : db.Behind now ids) (rows : List OutboxRow) :
    (run (Outbox.publishRow attempt) db rows).Behind now (ids ++ rows.map (·.event.id)) := by
  induction rows generalizing db ids with
  | nil => simpa using h
  | cons row rows ih =>
    have hrow : (db.publishRow attempt row).Behind now (ids ++ [row.event.id]) := h.publishRow row
    have hrest := ih hrow
    rw [List.append_assoc] at hrest
    exact hrest

theorem Outbox.Behind.ready_disjoint {ids : List Uuid} (h : db.Behind now ids) :
    List.Disjoint ids ((db.ready now).map (·.event.id)) := by
  intro id hid hready
  obtain ⟨row, hrow, rfl⟩ := List.mem_map.mp hready
  obtain ⟨hmem, hnot, -⟩ := mem_ready hrow
  exact hnot (h.settled row hmem hid)

/-- The rest of a tick attempts no row twice, and none that was attempted before. -/
theorem batchesLoop_nodup {ids : List Uuid} (hids : (db.rows.map (·.event.id)).Nodup)
    (h : db.Behind now ids) (hnodup : ids.Nodup) (commits total : ℕ) :
    (ids ++ (db.batchesLoop attempt now commits total).flatten.map (·.event.id)).Nodup := by
  have hfirst : ∀ {db : Outbox} {ids : List Uuid}, (db.rows.map (·.event.id)).Nodup →
      db.Behind now ids → ids.Nodup → (ids ++ (db.ready now).map (·.event.id)).Nodup :=
    fun hids h hnodup => hnodup.append (ready_ids_nodup hids) h.ready_disjoint
  induction commits generalizing total db ids with
  | zero =>
    unfold Outbox.batchesLoop
    split
    · rw [List.flatten_singleton]
      exact hfirst hids h hnodup
    · simpa using hnodup
  | succ commits ih =>
    unfold Outbox.batchesLoop
    split
    · rw [List.flatten_cons, List.map_append, ← List.append_assoc]
      apply ih
      · rw [run_publishRow_ids]
        exact hids
      · exact h.run _
      · exact hfirst hids h hnodup
    · simpa using hnodup

theorem attempted_nodup (h : (db.rows.map (·.event.id)).Nodup) (broker : Broker) :
    ((db.attempted broker).map (·.event.id)).Nodup :=
  batchesLoop_nodup h ⟨le_rfl, fun _ _ hid => absurd hid List.not_mem_nil⟩ List.nodup_nil _ _

/-! ## Finished rows -/

/-- Every row of this id is finished. -/
def Outbox.FinishedAt (db : Outbox) (id : Uuid) : Prop := ∀ r ∈ db.rows, r.event.id = id → r.Finished

theorem Outbox.FinishedAt.publishRow {id : Uuid} (h : db.FinishedAt id) (row : OutboxRow) :
    (db.publishRow attempt row).FinishedAt id := by
  intro r' hr' hid
  obtain ⟨r, hr, rfl⟩ := List.mem_map.mp hr'
  split at hid
  · rename_i heq
    rw [if_pos heq]
    rw [attempted_event] at hid
    exact (h r hr hid).attempted _
  · rename_i hne
    rw [if_neg hne]
    exact h r hr hid

theorem Outbox.FinishedAt.run {id : Uuid} (h : db.FinishedAt id) (rows : List OutboxRow) :
    (run (Outbox.publishRow attempt) db rows).FinishedAt id :=
  @run_invariant_of_step _ _ _ (fun db : Outbox => db.FinishedAt id) (fun _ row h => h.publishRow row)
    _ rows h

theorem Outbox.FinishedAt.not_mem_ready {id : Uuid} (h : db.FinishedAt id) :
    id ∉ (db.ready now).map (·.event.id) := by
  intro hmem
  obtain ⟨row, hrow, rfl⟩ := List.mem_map.mp hmem
  obtain ⟨hin, -, hnot⟩ := mem_ready hrow
  exact hnot (h row hin rfl)

theorem Outbox.FinishedAt.not_mem_attempted {id : Uuid} (h : db.FinishedAt id) (broker : Broker) :
    id ∉ (db.attempted broker).map (·.event.id) := by
  have hloop : ∀ (commits total : ℕ) {db' : Outbox}, db'.FinishedAt id →
      id ∉ (db'.batchesLoop broker.attempt db.clock commits total).flatten.map (·.event.id) := by
    intro commits
    induction commits with
    | zero =>
      intro total db' h
      unfold Outbox.batchesLoop
      split
      · rw [List.flatten_singleton]
        exact h.not_mem_ready
      · exact List.not_mem_nil
    | succ commits ih =>
      intro total db' h
      unfold Outbox.batchesLoop
      split
      · rw [List.flatten_cons, List.map_append, List.mem_append, not_or]
        exact ⟨h.not_mem_ready, ih _ (h.run _)⟩
      · exact List.not_mem_nil
  exact hloop _ _ h

/-! ## What a tick makes of a row -/

/-- The rows of an id. -/
def Outbox.rowsOf (db : Outbox) (id : Uuid) : List OutboxRow := db.rows.filter (·.event.id = id)

theorem rowsOf_publishRow (id : Uuid) :
    (db.publishRow attempt row).rowsOf id =
      (db.rowsOf id).map (row.published attempt (db.clock + (attempt row.event.id).elapsed)) := by
  rw [Outbox.rowsOf, publishRow_rows, List.filter_map, Outbox.rowsOf]
  congr 2
  funext r
  show decide ((row.published attempt _ r).event.id = id) = _
  rw [published_event]

theorem rowsOf_publishRow_other {id : Uuid} (hid : id ≠ row.event.id) :
    (db.publishRow attempt row).rowsOf id = db.rowsOf id := by
  rw [rowsOf_publishRow]
  apply (List.map_congr_left _).trans (List.map_id _)
  intro r hr
  have heq : r.event.id = id := of_decide_eq_true (List.mem_filter.mp hr).2
  exact if_neg (heq.trans_ne hid)

/-- A tick attempts the row at most once. -/
theorem mem_relay {broker : Broker} (hids : (db.rows.map (·.event.id)).Nodup)
    (h : row ∈ (db.relay broker).rows) :
    if row.event.id ∈ (db.counted broker).map (·.event.id) then
      ∃ r ∈ db.rows, r.event.id = row.event.id ∧ ¬ r.Finished ∧
        ∃ time, row = r.attempted time (broker.attempt row.event.id).error
    else row ∈ db.rows := by
  have hnodup : ((db.counted broker).map (·.event.id)).Nodup :=
    ((counted_sublist db broker).map _).nodup (attempted_nodup hids broker)
  have hmem : row ∈ (db.relay broker).rowsOf row.event.id := List.mem_filter.mpr ⟨h, decide_eq_true rfl⟩
  rw [relay_eq_run] at hmem
  have hother : ∀ (db : Outbox) (op : OutboxRow) (id : Uuid), id ≠ op.event.id →
      (db.publishRow broker.attempt op).rowsOf id = db.rowsOf id :=
    fun _ _ _ hid => rowsOf_publishRow_other hid
  rcases run_at hother hnodup db row.event.id with ⟨hnone, hsame⟩ | ⟨op, hop, hkey, front, hfront, hlast⟩
  · have hnot : row.event.id ∉ (db.counted broker).map (·.event.id) := by
      intro hin
      obtain ⟨op, hop, hkey⟩ := List.mem_map.mp hin
      exact hnone op hop hkey
    rw [if_neg hnot]
    rw [hsame] at hmem
    exact (List.mem_filter.mp hmem).1
  · have hin : row.event.id ∈ (db.counted broker).map (·.event.id) := List.mem_map.mpr ⟨op, hop, hkey⟩
    rw [if_pos hin]
    rw [hlast, rowsOf_publishRow, hfront] at hmem
    obtain ⟨r, hr, hrow⟩ := List.mem_map.mp hmem
    obtain ⟨hr, hid⟩ := List.mem_filter.mp hr
    have hid : r.event.id = row.event.id := of_decide_eq_true hid
    refine ⟨r, hr, hid, ?_, (run (Outbox.publishRow broker.attempt) db front).clock +
      (broker.attempt row.event.id).elapsed, ?_⟩
    · intro hfinished
      have hat : db.FinishedAt row.event.id := by
        intro r' hr' hid'
        rw [List.inj_on_of_nodup_map hids hr' hr (hid'.trans hid.symm)]
        exact hfinished
      exact hat.not_mem_attempted broker (((counted_sublist db broker).map _).subset hin)
    · rw [← hrow, OutboxRow.published, if_pos (hid.trans hkey.symm), attempted_event, hid, hkey]

/-! ## The outcomes of the attempts -/

/-- What a job records as the outcome of an attempt on the row of this id. -/
def OutboxOp.outcome (db : Outbox) (id : Uuid) : OutboxOp → List (Option String)
  | relay broker =>
    if id ∈ (db.counted broker).map (·.event.id) then [(broker.attempt id).error] else []
  | _ => []

theorem outcome_relay (db : Outbox) (id : Uuid) (broker : Broker) :
    OutboxOp.outcome db id (.relay broker) =
      if id ∈ (db.counted broker).map (·.event.id) then [(broker.attempt id).error] else [] := rfl

/-- The outcomes of all committed attempts on the row, in order: the error, or none. -/
def Outbox.history (db : Outbox) (id : Uuid) : List OutboxOp → List (Option String)
  | [] => []
  | op :: ops => op.outcome db id ++ (OutboxOp.step db op).history id ops

/-- How many attempts in a row have failed last. -/
def failuresInARow (outcomes : List (Option String)) : ℕ :=
  (outcomes.reverse.takeWhile (·.isSome)).length

theorem history_concat (db : Outbox) (id : Uuid) (ops : List OutboxOp) (op : OutboxOp) :
    db.history id (ops ++ [op]) = db.history id ops ++ op.outcome (run OutboxOp.step db ops) id := by
  induction ops generalizing db with
  | nil => simp [Outbox.history]
  | cons op' ops ih => rw [List.cons_append, Outbox.history, ih, Outbox.history, List.append_assoc, run_cons]

/-- The row is as the outcomes of its attempts leave it. -/
structure OutboxRow.Matches (row : OutboxRow) (outcomes : List (Option String)) : Prop where
  attempts : row.attempts = outcomes.length
  length_le : outcomes.length ≤ 10
  published : row.publishedAt = none → failuresInARow outcomes = outcomes.length
  alive : row.publishedAt.isSome = true → row.isDeadLettered = false ∧ failuresInARow outcomes = 0
  dead : row.isDeadLettered = true ↔ failuresInARow outcomes = 10

theorem matches_new (time : ℕ) (event : OutboxEvent) : (OutboxRow.new time event).Matches [] :=
  ⟨rfl, Nat.zero_le _, fun _ => rfl, nofun, ⟨nofun, nofun⟩⟩

theorem failuresInARow_succeeded (outcomes : List (Option String)) :
    failuresInARow (outcomes ++ [none]) = 0 := by
  simp [failuresInARow]

theorem failuresInARow_failed (outcomes : List (Option String)) (error : String) :
    failuresInARow (outcomes ++ [some error]) = failuresInARow outcomes + 1 := by
  simp [failuresInARow]

/-- One more attempt on a row that is neither published nor dead-lettered. -/
theorem OutboxRow.Matches.attempted {outcomes : List (Option String)} (h : row.Matches outcomes)
    (hlive : ¬ row.Finished) (time : ℕ) (error : Option String) :
    (row.attempted time error).Matches (outcomes ++ [error]) := by
  obtain ⟨hpublished, hdead⟩ := not_or.mp hlive
  have hnone : row.publishedAt = none := by simpa using hpublished
  have hfailures := h.published hnone
  have hlength : outcomes.length < 10 := by
    have hle := h.length_le
    have hne : failuresInARow outcomes ≠ 10 := fun hten => hdead (h.dead.mpr hten)
    omega
  cases error with
  | none =>
    have hzero := failuresInARow_succeeded outcomes
    refine ⟨?_, ?_, nofun, ?_, ?_⟩
    · show row.attempts + 1 = _
      rw [h.attempts, List.length_append, List.length_singleton]
    · rw [List.length_append, List.length_singleton]
      omega
    · intro _
      exact ⟨(Bool.not_eq_true _).mp hdead, hzero⟩
    · show row.isDeadLettered = true ↔ _
      rw [hzero]
      simp [hdead]
  | some error =>
    have hmore := failuresInARow_failed outcomes error
    refine ⟨?_, ?_, ?_, ?_, ?_⟩
    · show row.attempts + 1 = _
      rw [h.attempts, List.length_append, List.length_singleton]
    · rw [List.length_append, List.length_singleton]
      omega
    · intro _
      rw [hmore, List.length_append, List.length_singleton]
      omega
    · intro hsome
      exact absurd hsome hpublished
    · show (row.isDeadLettered || decide (10 ≤ row.attempts + 1)) = true ↔ _
      rw [hmore, h.attempts, Bool.or_eq_true, or_iff_right hdead, decide_eq_true_iff]
      omega

end

/-! ## Every run -/

/-- The ids of the events that an operation publishes. -/
def OutboxOp.ids : OutboxOp → List Uuid
  | transact tables _ => tables.outbox.map (·.id)
  | _ => []

/-- What a run keeps: the rows are as the outcomes `history` of their attempts leave them, and their
ids are among the ids `seen` of the events published so far. -/
structure Outbox.Disciplined (db : Outbox) (seen : List Uuid)
    (history : Uuid → List (Option String)) : Prop where
  committed : db.Committed
  known : ∀ r ∈ db.rows, r.event.id ∈ seen
  rows : ∀ r ∈ db.rows, r.Matches (history r.event.id)
  unseen : ∀ id ∉ seen, history id = []

section

variable {db : Outbox} {seen : List Uuid} {history : Uuid → List (Option String)} {id : Uuid}

/-- A job that publishes nothing, attempts nothing and adds no row. -/
theorem Outbox.Disciplined.of_sublist (h : db.Disciplined seen history) {db' : Outbox}
    (hrows : db'.rows.Sublist db.rows) (houtbox : db'.tables.outbox = []) :
    db'.Disciplined (seen ++ []) fun id => history id ++ [] := by
  simp only [List.append_nil]
  exact ⟨⟨(hrows.map _).nodup h.committed.ids, houtbox⟩, fun r hr => h.known r (hrows.subset hr),
    fun r hr => h.rows r (hrows.subset hr), h.unseen⟩

theorem Outbox.Disciplined.transact (h : db.Disciplined seen history) (tables : Tables)
    (feeTypes : List EventFeeType) (hnew : (seen ++ tables.outbox.map (·.id)).Nodup) :
    (OutboxOp.step db (.transact tables feeTypes)).Disciplined (seen ++ tables.outbox.map (·.id))
      fun id => history id ++ [] := by
  have hrows : (OutboxOp.step db (.transact tables feeTypes)).rows =
      db.rows ++ tables.outbox.map (.new db.clock) := rfl
  have hids : (tables.outbox.map (OutboxRow.new db.clock)).map (·.event.id) = tables.outbox.map (·.id) := by
    rw [List.map_map]
    rfl
  obtain ⟨-, hfresh, hdisjoint⟩ := List.nodup_append'.mp hnew
  simp only [List.append_nil]
  refine ⟨⟨?_, rfl⟩, ?_, ?_, ?_⟩
  · rw [hrows, List.map_append, hids]
    apply h.committed.ids.append hfresh
    intro id hold hnew
    obtain ⟨r, hr, rfl⟩ := List.mem_map.mp hold
    exact hdisjoint (h.known r hr) hnew
  · intro r hr
    rcases List.mem_append.mp (hrows ▸ hr) with hold | hnew
    · exact List.mem_append_left _ (h.known r hold)
    · exact List.mem_append_right _ (hids ▸ List.mem_map_of_mem hnew)
  · intro r hr
    rcases List.mem_append.mp (hrows ▸ hr) with hold | hnew
    · exact h.rows r hold
    · obtain ⟨event, hevent, rfl⟩ := List.mem_map.mp hnew
      have hunseen : event.id ∉ seen := fun hseen => hdisjoint hseen (List.mem_map_of_mem hevent)
      have hnone : history (OutboxRow.new db.clock event).event.id = [] := h.unseen _ hunseen
      rw [hnone]
      exact matches_new _ _
  · intro id hid
    exact h.unseen id fun hseen => hid (List.mem_append_left _ hseen)

theorem Outbox.Disciplined.relay (h : db.Disciplined seen history) (broker : Broker) :
    (db.relay broker).Disciplined (seen ++ [])
      fun id => history id ++ OutboxOp.outcome db id (.relay broker) := by
  have hids : (db.relay broker).rows.map (·.event.id) = db.rows.map (·.event.id) := by
    rw [relay_eq_run, run_publishRow_ids]
  have hknown : ∀ id ∈ (db.counted broker).map (·.event.id), id ∈ seen := by
    intro id hid
    by_contra hnot
    have hat : db.FinishedAt id := fun r hr heq => absurd (heq ▸ h.known r hr) hnot
    exact hat.not_mem_attempted broker (((counted_sublist db broker).map _).subset hid)
  have htables : (db.relay broker).tables = db.tables := by
    have hrow : ∀ (db' : Outbox) (row : OutboxRow), db'.tables = db.tables →
        (db'.publishRow broker.attempt row).tables = db.tables := fun _ _ h => h
    exact relay_keeps hrow rfl
  rw [List.append_nil]
  refine ⟨⟨hids ▸ h.committed.ids, ?_⟩, ?_, ?_, ?_⟩
  · rw [htables]
    exact h.committed.outbox
  · intro r hr
    obtain ⟨r', hr', hid⟩ := List.mem_map.mp (hids ▸ List.mem_map_of_mem hr)
    rw [← hid]
    exact h.known r' hr'
  · intro r hr
    have hmade := mem_relay h.committed.ids hr
    rw [outcome_relay]
    split at hmade
    · rename_i hcounted
      obtain ⟨r', hr', hid, hlive, time, hrow⟩ := hmade
      rw [if_pos hcounted]
      have hmatches := (h.rows r' hr').attempted hlive time (broker.attempt r.event.id).error
      rw [← hrow, hid] at hmatches
      exact hmatches
    · rename_i hnot
      rw [if_neg hnot, List.append_nil]
      exact h.rows r hmade
  · intro id hid
    have hnot : id ∉ (db.counted broker).map (·.event.id) := fun hin => hid (hknown id hin)
    rw [h.unseen id hid, outcome_relay, if_neg hnot]
    rfl

theorem Outbox.Disciplined.step (h : db.Disciplined seen history) (op : OutboxOp)
    (hnew : (seen ++ op.ids).Nodup) :
    (OutboxOp.step db op).Disciplined (seen ++ op.ids) fun id => history id ++ op.outcome db id := by
  cases op with
  | transact tables feeTypes => exact h.transact tables feeTypes hnew
  | relay broker => exact h.relay broker
  | consume c today =>
    have hsame := sameRows_consume h.committed.outbox c today
    exact h.of_sublist (by show List.Sublist (db.consume c today).rows _; rw [hsame.rows]) hsame.outbox
  | purge cutoff => exact h.of_sublist List.filter_sublist h.committed.outbox
  | wait elapsed => exact h.of_sublist (List.Sublist.refl _) h.committed.outbox

theorem disciplined_run (tables : Tables) {ops : List OutboxOp} (hids : (ops.flatMap (·.ids)).Nodup) :
    (run OutboxOp.step (.empty tables) ops).Disciplined (ops.flatMap (·.ids))
      fun id => (Outbox.empty tables).history id ops := by
  induction ops using List.reverseRecOn with
  | nil => exact ⟨⟨List.nodup_nil, rfl⟩, nofun, nofun, fun _ _ => rfl⟩
  | append_singleton ops op ih =>
    rw [List.flatMap_append, List.flatMap_singleton] at hids ⊢
    simp only [history_concat, run_append]
    exact (ih hids.of_append_left).step op hids

/-- A finished row stays finished, if its id is not published again. -/
theorem Outbox.FinishedAt.step (h : db.FinishedAt id) (hcommitted : db.Committed) {op : OutboxOp}
    (hid : id ∉ op.ids) : (OutboxOp.step db op).FinishedAt id := by
  cases op with
  | transact tables feeTypes =>
    intro r hr heq
    rcases List.mem_append.mp hr with hold | hnew
    · exact h r hold heq
    · obtain ⟨event, hevent, rfl⟩ := List.mem_map.mp hnew
      exact absurd (List.mem_map.mpr ⟨event, hevent, heq⟩) hid
  | relay broker =>
    show (db.relay broker).FinishedAt id
    rw [relay_eq_run]
    exact h.run _
  | consume c today =>
    intro r hr
    have hsame := sameRows_consume hcommitted.outbox c today
    exact h r (hsame.rows ▸ hr)
  | purge cutoff => exact fun r hr => h r (List.mem_filter.mp hr).1
  | wait elapsed => exact h

theorem finishedAt_run (tables : Tables) {front later : List OutboxOp}
    (h : (run OutboxOp.step (.empty tables) front).FinishedAt id) (hid : id ∈ front.flatMap (·.ids))
    (hids : ((front ++ later).flatMap (·.ids)).Nodup) :
    (run OutboxOp.step (.empty tables) (front ++ later)).FinishedAt id := by
  induction later using List.reverseRecOn with
  | nil =>
    rw [List.append_nil]
    exact h
  | append_singleton later op ih =>
    rw [← List.append_assoc, List.flatMap_append, List.flatMap_singleton] at hids
    have hbefore := hids.of_append_left
    have hnot : id ∉ op.ids := by
      intro hin
      apply List.disjoint_of_nodup_append hids _ hin
      rw [List.flatMap_append]
      exact List.mem_append_left _ hid
    rw [← List.append_assoc, run_append]
    exact (ih hbefore).step (disciplined_run tables hbefore).committed hnot

end

/-- In every run, a tick attempts each row at most once, and only rows that are neither published nor
dead-lettered: a row that is one of the two is never attempted again. The counter of a row is the
number of its committed attempts and at most ten, no row is both published and dead-lettered, and a
row is dead-lettered exactly when the last ten of them have failed. -/
theorem relay_discipline (tables : Tables) {ops : List OutboxOp}
    (hids : (ops.flatMap (·.ids)).Nodup) :
    (∀ front broker, front ++ [.relay broker] <+: ops →
      (((run OutboxOp.step (.empty tables) front).attempted broker).map (·.event.id)).Nodup) ∧
    ∀ front, front <+: ops → ∀ row ∈ (run OutboxOp.step (.empty tables) front).rows,
      row.attempts = ((Outbox.empty tables).history row.event.id front).length ∧
      row.attempts ≤ 10 ∧
      ¬ (row.publishedAt.isSome = true ∧ row.isDeadLettered = true) ∧
      (row.isDeadLettered = true ↔
        failuresInARow ((Outbox.empty tables).history row.event.id front) = 10) ∧
      (row.publishedAt.isSome = true ∨ row.isDeadLettered = true →
        ∀ later broker, front ++ later ++ [.relay broker] <+: ops →
          row.event.id ∉ ((run OutboxOp.step (.empty tables) (front ++ later)).attempted broker).map
            (·.event.id)) := by
  have hsome : ∀ front, front <+: ops → (front.flatMap (·.ids)).Nodup := by
    intro front hfront
    obtain ⟨rest, rfl⟩ := hfront
    rw [List.flatMap_append] at hids
    exact hids.of_append_left
  constructor
  · intro front broker hfront
    have hdisciplined := disciplined_run tables (hsome front ((List.prefix_append _ _).trans hfront))
    exact attempted_nodup hdisciplined.committed.ids broker
  · intro front hfront row hrow
    have hdisciplined := disciplined_run tables (hsome front hfront)
    have hmatches := hdisciplined.rows row hrow
    refine ⟨hmatches.attempts, ?_, ?_, hmatches.dead, ?_⟩
    · rw [hmatches.attempts]
      exact hmatches.length_le
    · rintro ⟨hpublished, hdead⟩
      rw [(hmatches.alive hpublished).1] at hdead
      cases hdead
    · intro hfinished later broker hlater
      have hat : (run OutboxOp.step (.empty tables) front).FinishedAt row.event.id := by
        intro r hr hid
        rw [List.inj_on_of_nodup_map hdisciplined.committed.ids hr hrow hid]
        exact hfinished
      have hstill := finishedAt_run tables hat (hdisciplined.known row hrow)
        (hsome _ ((List.prefix_append _ _).trans hlater))
      exact hstill.not_mem_attempted broker

/-- An event is published, and the broker confirms it in none of ten ticks. -/
def unconfirmedRun : List OutboxOp :=
  .transact { Tables.empty with outbox := [⟨1, .memberActivated 7⟩] } [] ::
    (List.replicate 10 [.relay ⟨fun _ => ⟨seconds 1, some "timeout"⟩, 1⟩, .wait (seconds 3600)]).flatten

theorem relay_discipline_unconfirmed :
    (run OutboxOp.step (.empty Tables.empty) unconfirmedRun).rows.map (·.isDeadLettered) = [true] ∧
      ∀ row ∈ (run OutboxOp.step (.empty Tables.empty) unconfirmedRun).rows,
        failuresInARow ((Outbox.empty Tables.empty).history row.event.id unconfirmedRun) = 10 := by
  have hids : (unconfirmedRun.flatMap (·.ids)).Nodup := by decide
  have hdead : (run OutboxOp.step (.empty Tables.empty) unconfirmedRun).rows.map (·.isDeadLettered) = [true] := by
    decide +kernel
  refine ⟨hdead, ?_⟩
  intro row hrow
  obtain ⟨-, -, -, hiff, -⟩ := (relay_discipline Tables.empty hids).2 _ (List.prefix_refl _) row hrow
  have hmem : row.isDeadLettered ∈ [true] := hdead ▸ List.mem_map_of_mem hrow
  exact hiff.mp (List.mem_singleton.mp hmem)

end SaccoPlatform
