import SaccoPlatform.Audit.Query
import SaccoPlatform.Lib.CalendarFields
import SaccoPlatform.Lib.ChangeLog
import SaccoPlatform.Lib.PyText
import SaccoPlatform.Lib.Runs
import SaccoPlatform.Lib.Tracked

/-!
# The trail of a record

`AuditableMixin` (`app/core/audit/mixin.py`) writes an entry with the columns of a record before and
after each flush that inserts, updates or deletes it. What was before it reads off the object, not the
table: an object that has not seen the latest row, an attribute that was set before it was loaded, or
a statement that goes past the session, and the entries no longer join.
-/

namespace SaccoPlatform.Audit

open Lib

/-! ## Snapshots -/

/-- A value of a column. A `datetime` is given by its `isoformat`; `other` is what JSON can hold. -/
inductive PyValue where
  | uuid (id : UUID)
  | date (d : Date)
  | datetime (isoformat : String)
  | decimal (d : PyDecimal)
  | bytes (octets : List UInt8)
  | other (value : Json)

/-- `_serialize`. -/
def serialize : PyValue → Json
  | .uuid id => .str id.str
  | .date d => .str d.isoformat
  | .datetime isoformat => .str isoformat
  | .decimal d => .str d.str
  | .bytes octets => .str (String.ofList (octets.flatMap fun b => hexDigits b.toNat 2))
  | .other value => value

abbrev Row := String → PyValue

abbrev Snapshot := List (String × Json)

/-- A class with the mixin: its table, whether that is in the schema `platform`, and its columns. Those
with an `onupdate` are stamped by the server. `same` compares values as the type of the column does,
and `keep` is what the column makes of a value. -/
structure AuditedClass where
  tablename : String
  platform : Bool
  columns : List String
  stamped : String → Bool
  same : String → PyValue → PyValue → Bool
  keep : String → PyValue → PyValue

/-- An object of a session. -/
abbrev Instance := Tracked String PyValue

section

variable (C : AuditedClass)

/-- `_snapshot`, with the values that `getattr` finds. -/
def snapshot (row : Row) : Snapshot := C.columns.map fun k => (k, serialize (row k))

/-- The flush has something to update. -/
def updates (x : Instance) : Bool := C.columns.any fun k => x.changed C.same k

/-- The row after the `UPDATE`; the server stamps it with `stamp`. -/
def updatedRow (x : Instance) (row stamp : Row) : Row := fun k =>
  if x.changed C.same k then x.write C.same k C.keep row
  else if C.stamped k && updates C x then C.keep k (stamp k)
  else row k

/-- The server has stamped the column, and the object has forgotten what it held. -/
def restamped (x : Instance) (k : String) : Bool :=
  !x.changed C.same k && (C.stamped k && updates C x)

/-- What `getattr` finds after the `UPDATE`. -/
def currentRow (x : Instance) (row' : Row) : Row := fun k =>
  if restamped C x k then row' k else (x.dict k).getD (row' k)

/-- `_before_snapshot`: the values from before, as far as the object knows them. -/
def beforeRow (x : Instance) (row' : Row) : Row := fun k =>
  (x.deleted C.same k).getD (currentRow C x row' k)

end

/-! ## Entries -/

/-- The `contextvars` that `_actor_context` reads, as text. -/
structure RequestContext where
  actorType : Option String
  actorId : Option String
  actorLabel : Option String
  requestId : Option String
  impersonationId : Option String

/-- Who writes an entry and when, with the id that is drawn for it. -/
structure Writing where
  entryId : UUID
  now : Instant
  ctx : RequestContext

/-- `_write_audit`. -/
def writeAudit (C : AuditedClass) (writing : Writing) (recordId : UUID) (operation : String)
    (beforeState afterState : Option Snapshot) : AuditEntry where
  id := writing.entryId
  tableName := C.tablename
  recordId := recordId
  operation := operation
  actorType := writing.ctx.actorType.getD "system"
  actorId := writing.ctx.actorId.bind pyUuid?
  actorLabel := writing.ctx.actorLabel
  beforeState := beforeState
  afterState := afterState
  occurredAt := writing.now
  requestId := writing.ctx.requestId
  impersonationId := if C.platform then none else writing.ctx.impersonationId.bind pyUuid?

/-! ## Sessions -/

/-- The table, the entries of its records in the order in which they were written, and the objects of
the sessions. -/
structure Audited where
  rows : UUID → Option Row
  log : List AuditEntry
  objects : ℕ → UUID → Option Instance

/-- A flush is one step with its commit. `execute` is a statement that goes past the objects. -/
inductive AuditOp where
  | refresh (session : ℕ) (id : UUID)
  | load (session : ℕ) (id : UUID)
  | set (session : ℕ) (id : UUID) (attr : String) (value : PyValue)
  | insert (session : ℕ) (id : UUID) (given : String → Option PyValue) (default : Row) (writing : Writing)
  | update (session : ℕ) (id : UUID) (stamp : Row) (writing : Writing)
  | delete (session : ℕ) (id : UUID) (writing : Writing)
  | execute (id : UUID) (attr : String) (value : PyValue)
  | rollback (session : ℕ)

/-- The object that a session holds for the record. -/
def Audited.hold (w : Audited) (session : ℕ) (id : UUID) (x : Option Instance) : Audited :=
  { w with objects := Function.update w.objects session (Function.update (w.objects session) id x) }

/-- All objects of the session are expired. -/
def Audited.rollback (w : Audited) (session : ℕ) : Audited :=
  { w with
    objects := Function.update w.objects session fun id => (w.objects session id).map fun _ => .expired }

/-- The row and the entry that is written with it. -/
def Audited.commit (w : Audited) (id : UUID) (row : Option Row) (entry : AuditEntry) : Audited :=
  { w with rows := Function.update w.rows id row, log := w.log ++ [entry] }

section

variable (C : AuditedClass)

/-- Something was set. -/
def dirty (x : Instance) : Bool := C.columns.any fun k => (x.committed k).isSome

/-- All columns are loaded. -/
def complete (x : Instance) : Bool := C.columns.all fun k => (x.dict k).isSome

/-- The row that an `INSERT` makes. -/
def insertedRow (given : String → Option PyValue) (default : Row) : Row := fun k =>
  C.keep k ((given k).getD (default k))

/-- A statement that sets one column. -/
def Audited.execute (w : Audited) (id : UUID) (attr : String) (value : PyValue) : Audited :=
  match w.rows id with
  | none => w
  | some row =>
    { w with rows := Function.update w.rows id (some (Function.update row attr (C.keep attr value))) }

/-- The flush of an object that was set. Where the row is gone, an `UPDATE` fails to match it, and what is
not loaded cannot be read; an object that holds everything and was set to what it held needs neither. -/
def Audited.update (w : Audited) (session : ℕ) (id : UUID) (stamp : Row) (writing : Writing) : Audited :=
  match w.objects session id with
  | none => w
  | some x =>
    if dirty C x = false then w
    else
      match w.rows id with
      | none =>
        if updates C x || !complete C x then w.rollback session
        else
          let held : Row := fun k => (x.dict k).getD (.other .null)
          (w.commit id none (writeAudit C writing id "update" (some (snapshot C (beforeRow C x held)))
            (some (snapshot C (currentRow C x held))))).hold session id (some (.ofRow (currentRow C x held)))
      | some row =>
        let row' := updatedRow C x row stamp
        (w.commit id (some row') (writeAudit C writing id "update" (some (snapshot C (beforeRow C x row')))
          (some (snapshot C (currentRow C x row'))))).hold session id (some (.ofRow (currentRow C x row')))

/-- The flush of a deleted object: what is not loaded cannot be read any more. -/
def Audited.delete (w : Audited) (session : ℕ) (id : UUID) (writing : Writing) : Audited :=
  match w.objects session id with
  | none => w
  | some x =>
    if complete C x = false then w.rollback session
    else (w.commit id none (writeAudit C writing id "delete"
      (some (snapshot C fun k => (x.dict k).getD (.other .null))) none)).hold session id none

/-- The flush of a new object. -/
def Audited.insert (w : Audited) (session : ℕ) (id : UUID) (given : String → Option PyValue)
    (default : Row) (writing : Writing) : Audited :=
  match w.rows id with
  | some _ => w.rollback session
  | none =>
    let shown : Row := fun k => (given k).getD (C.keep k (default k))
    (w.commit id (some (insertedRow C given default))
      (writeAudit C writing id "insert" none (some (snapshot C shown)))).hold session id (some (.ofRow shown))

def Audited.step (w : Audited) : AuditOp → Audited
  | .refresh session id => w.hold session id ((w.rows id).map .ofRow)
  | .load session id =>
    w.hold session id ((w.rows id).map fun row => ((w.objects session id).getD .expired).load row)
  | .set session id attr value => w.hold session id ((w.objects session id).map (·.set attr value))
  | .insert session id given default writing => w.insert C session id given default writing
  | .update session id stamp writing => w.update C session id stamp writing
  | .delete session id writing => w.delete C session id writing
  | .execute id attr value => w.execute C id attr value
  | .rollback session => w.rollback session

end

def Audited.start : Audited := ⟨fun _ => none, [], fun _ _ => none⟩

/-! ## What the entries tell -/

section

variable (C : AuditedClass) (watched : String → Bool)

/-- The columns in which the trail is read. In those that the server stamps an entry shows the new stamp
before the update, too. -/
def watchedColumns : List String := C.columns.filter fun k => watched k && !C.stamped k

def shown (row : Row) : Snapshot := (watchedColumns C watched).map fun k => (k, serialize (row k))

/-- What an entry says of the columns. -/
def watchedPart (s : Snapshot) : Snapshot := s.filter fun kv => watched kv.1 && !C.stamped kv.1

/-- The changes that the log tells of a record. -/
def trail (log : List AuditEntry) (id : UUID) : List (Change (Option Snapshot)) :=
  (log.filter fun e => e.recordId = id).map fun e =>
    ⟨e.beforeState.map (watchedPart C watched), e.afterState.map (watchedPart C watched)⟩

/-- The trail of every record leads from nothing to its row: each entry starts where the one before
it ended. -/
def Told (w : Audited) : Prop :=
  ∀ id, Leads none (trail C watched w.log id) ((w.rows id).map (shown C watched))

/-- The object knows what the row holds, and the column keeps the value as it is written. -/
structure FaithfulAttr (x : Instance) (row : Row) (k : String) : Prop where
  before : ∀ v ∈ x.seenBefore C.same k, serialize v = serialize (row k)
  kept : x.changed C.same k = true → ∀ v ∈ x.dict k, serialize (C.keep k v) = serialize v

/-- The operation changes no watched column behind the objects, and a flush has an object that knows
the row. -/
def Faithful (w : Audited) : AuditOp → Prop
  | .insert _ id given _ _ => w.rows id = none →
      ∀ k ∈ watchedColumns C watched, ∀ v ∈ given k, serialize (C.keep k v) = serialize v
  | .update session id _ _ => ∀ x ∈ w.objects session id, dirty C x = true →
      (w.rows id = none → updates C x = true ∨ complete C x = false) ∧
        ∀ row ∈ w.rows id, ∀ k ∈ watchedColumns C watched, FaithfulAttr C x row k
  | .delete session id _ => ∀ x ∈ w.objects session id, complete C x = true →
      ∃ row ∈ w.rows id, ∀ k ∈ watchedColumns C watched, ∀ v ∈ x.dict k, serialize v = serialize (row k)
  | .execute id attr value => ∀ row ∈ w.rows id, attr ∈ watchedColumns C watched →
      serialize (C.keep attr value) = serialize (row attr)
  | _ => True

end

section

variable {C : AuditedClass} {watched : String → Bool} {w : Audited} {x : Instance} {row row' : Row}

theorem mem_watchedColumns {k : String} :
    k ∈ watchedColumns C watched ↔ k ∈ C.columns ∧ watched k = true ∧ C.stamped k = false := by
  unfold watchedColumns
  rw [List.mem_filter, Bool.and_eq_true, Bool.not_eq_true']

theorem watchedPart_snapshot (row : Row) : watchedPart C watched (snapshot C row) = shown C watched row := by
  unfold watchedPart snapshot shown watchedColumns
  rw [List.filter_map]
  rfl

theorem shown_eq_iff : shown C watched row = shown C watched row' ↔
    ∀ k ∈ watchedColumns C watched, serialize (row k) = serialize (row' k) := by
  unfold shown
  rw [List.map_inj_left]
  simp only [Prod.mk.injEq, true_and]

/-! ### One entry -/

theorem told_commit (h : Told C watched w) {id : UUID} {next : Option Row} {entry : AuditEntry}
    (hid : entry.recordId = id) :
    Told C watched (w.commit id next entry) ↔
      entry.beforeState.map (watchedPart C watched) = (w.rows id).map (shown C watched) ∧
        entry.afterState.map (watchedPart C watched) = next.map (shown C watched) := by
  have hself : trail C watched (w.log ++ [entry]) id = trail C watched w.log id ++
      [⟨entry.beforeState.map (watchedPart C watched), entry.afterState.map (watchedPart C watched)⟩] := by
    simp [trail, hid]
  have hother : ∀ id', id' ≠ id → trail C watched (w.log ++ [entry]) id' = trail C watched w.log id' := by
    intro id' hne
    simp [trail, hid, hne.symm]
  constructor
  · intro htold
    have hlast := htold id
    unfold Audited.commit at hlast
    dsimp only at hlast
    rw [hself, Function.update_self, leads_concat] at hlast
    exact ⟨hlast.1.unique (h id), hlast.2⟩
  · intro hentry id'
    unfold Audited.commit
    dsimp only
    by_cases hid' : id' = id
    · rw [hid', hself, Function.update_self, leads_concat]
      refine ⟨?_, hentry.2⟩
      dsimp only
      rw [hentry.1]
      exact h id
    · rw [hother id' hid', Function.update_of_ne hid']
      exact h id'

/-- One column of an update. -/
theorem faithfulAttr_iff {k : String} (hk : C.stamped k = false) (stamp : Row) :
    (serialize (beforeRow C x (updatedRow C x row stamp) k) = serialize (row k) ∧
      serialize (currentRow C x (updatedRow C x row stamp) k)
        = serialize (updatedRow C x row stamp k)) ↔ FaithfulAttr C x row k := by
  have hcurrent : ∀ row', currentRow C x row' k = (x.dict k).getD (row' k) := by
    intro row'
    unfold currentRow restamped
    rw [hk, Bool.false_and, Bool.and_false]
    rfl
  have hrow : updatedRow C x row stamp k = x.write C.same k C.keep row := by
    unfold updatedRow
    rw [hk, Bool.false_and]
    unfold Tracked.write
    split <;> rfl
  unfold beforeRow
  rw [hcurrent, hrow]
  unfold Tracked.write
  cases hchanged : x.changed C.same k with
  | false =>
    have hseen : x.seenBefore C.same k = x.dict k := by
      unfold Tracked.seenBefore
      rw [Tracked.deleted_of_not_changed hchanged, Option.none_or]
    rw [Tracked.deleted_of_not_changed hchanged]
    constructor
    · intro h
      refine ⟨?_, fun htrue => absurd (hchanged.symm.trans htrue) Bool.false_ne_true⟩
      intro v hv
      rw [hseen] at hv
      have hbefore := h.1
      rw [hv] at hbefore
      exact hbefore
    · intro h
      have hsame : serialize ((x.dict k).getD (row k)) = serialize (row k) := by
        cases hv : x.dict k with
        | none => rfl
        | some v => exact h.before v (hseen.trans hv)
      exact ⟨hsame, hsame⟩
  | true =>
    rw [if_pos rfl]
    cases hv : x.dict k with
    | none =>
      have hseen : x.seenBefore C.same k = x.deleted C.same k := by
        unfold Tracked.seenBefore
        rw [hv, Option.or_none]
      constructor
      · intro h
        refine ⟨?_, fun _ v hmem => ?_⟩
        · intro v hmem
          rw [hseen] at hmem
          have hbefore := h.1
          rw [hmem] at hbefore
          exact hbefore
        · rw [hv] at hmem
          cases hmem
      · intro h
        refine ⟨?_, rfl⟩
        cases ho : x.deleted C.same k with
        | none => rfl
        | some o => exact h.before o (hseen.trans ho)
    | some v =>
      have hseen : x.seenBefore C.same k = some ((x.deleted C.same k).getD v) := by
        unfold Tracked.seenBefore
        rw [hv]
        cases x.deleted C.same k <;> rfl
      constructor
      · intro h
        refine ⟨?_, fun _ v' hmem => ?_⟩
        · intro o hmem
          rw [hseen] at hmem
          cases hmem
          exact h.1
        · rw [hv] at hmem
          cases hmem
          exact h.2.symm
      · intro h
        exact ⟨h.before _ hseen, (h.kept hchanged v hv).symm⟩

/-! ### One operation -/

theorem told_update_iff (h : Told C watched w) (session : ℕ) (id : UUID) (stamp : Row) (writing : Writing) :
    Told C watched (w.update C session id stamp writing) ↔
      Faithful C watched w (.update session id stamp writing) := by
  show _ ↔ ∀ x ∈ w.objects session id, dirty C x = true →
    (w.rows id = none → updates C x = true ∨ complete C x = false) ∧
      ∀ row ∈ w.rows id, ∀ k ∈ watchedColumns C watched, FaithfulAttr C x row k
  unfold Audited.update
  cases hx : w.objects session id with
  | none => exact iff_of_true h fun x hmem => absurd hmem (Option.not_mem_none x)
  | some x =>
    dsimp only
    cases hdirty : dirty C x with
    | false =>
      refine iff_of_true h fun x' hx' htrue => ?_
      cases hx'
      rw [hdirty] at htrue
      cases htrue
    | true =>
      rw [if_neg Bool.true_eq_false.mp]
      cases hrow : w.rows id with
      | none =>
        dsimp only
        by_cases hlost : updates C x = true ∨ complete C x = false
        · rw [if_pos (by simpa using hlost)]
          refine iff_of_true h fun x' hx' _ => ?_
          cases hx'
          exact ⟨fun _ => hlost, fun row hmem => absurd hmem (Option.not_mem_none row)⟩
        · -- the entry tells of a record that is not there
          rw [if_neg (by simpa using hlost)]
          refine iff_of_false ?_ fun hfaithful => hlost ((hfaithful x rfl hdirty).1 rfl)
          intro htold
          have hbefore := ((told_commit h rfl).mp htold).1
          dsimp only [writeAudit] at hbefore
          rw [hrow] at hbefore
          cases hbefore
      | some row =>
        dsimp only
        refine (told_commit h rfl).trans ?_
        dsimp only [writeAudit]
        rw [hrow, Option.map_some, Option.map_some, Option.map_some, Option.map_some, watchedPart_snapshot,
          watchedPart_snapshot, Option.some.injEq, Option.some.injEq, shown_eq_iff, shown_eq_iff]
        constructor
        · intro hsame x' hx' _
          cases hx'
          refine ⟨fun hnone => absurd hnone (Option.some_ne_none row), fun row' hrow' k hk => ?_⟩
          cases hrow'
          exact (faithfulAttr_iff (mem_watchedColumns.mp hk).2.2 stamp).mp ⟨hsame.1 k hk, hsame.2 k hk⟩
        · intro hfaithful
          have hattr : ∀ k ∈ watchedColumns C watched, _ := fun k hk =>
            (faithfulAttr_iff (mem_watchedColumns.mp hk).2.2 stamp).mpr
              ((hfaithful x rfl hdirty).2 row rfl k hk)
          exact ⟨fun k hk => (hattr k hk).1, fun k hk => (hattr k hk).2⟩

theorem told_insert_iff (h : Told C watched w) (session : ℕ) (id : UUID)
    (given : String → Option PyValue) (default : Row) (writing : Writing) :
    Told C watched (w.insert C session id given default writing) ↔
      Faithful C watched w (.insert session id given default writing) := by
  show _ ↔ (w.rows id = none → ∀ k ∈ watchedColumns C watched, ∀ v ∈ given k,
    serialize (C.keep k v) = serialize v)
  unfold Audited.insert
  cases hrow : w.rows id with
  | some row => exact iff_of_true h fun hnone => absurd hnone (Option.some_ne_none row)
  | none =>
    refine (told_commit h rfl).trans ?_
    dsimp only [writeAudit]
    rw [hrow, Option.map_some, Option.map_some, watchedPart_snapshot, Option.some.injEq, shown_eq_iff]
    constructor
    · intro hsame _ k hk v hv
      have hcolumn := hsame.2 k hk
      unfold insertedRow at hcolumn
      rw [Option.mem_def.mp hv] at hcolumn
      exact hcolumn.symm
    · intro hkept
      refine ⟨rfl, fun k hk => ?_⟩
      unfold insertedRow
      cases hv : given k with
      | none => rfl
      | some v => exact (hkept rfl k hk v hv).symm

theorem told_delete_iff (h : Told C watched w) (session : ℕ) (id : UUID) (writing : Writing) :
    Told C watched (w.delete C session id writing) ↔
      Faithful C watched w (.delete session id writing) := by
  show _ ↔ ∀ x ∈ w.objects session id, complete C x = true →
    ∃ row ∈ w.rows id, ∀ k ∈ watchedColumns C watched, ∀ v ∈ x.dict k, serialize v = serialize (row k)
  unfold Audited.delete
  cases hx : w.objects session id with
  | none => exact iff_of_true h fun x hmem => absurd hmem (Option.not_mem_none x)
  | some x =>
    dsimp only
    cases hcomplete : complete C x with
    | false =>
      refine iff_of_true h fun x' hx' htrue => ?_
      cases hx'
      rw [hcomplete] at htrue
      cases htrue
    | true =>
      have hloaded : ∀ k ∈ watchedColumns C watched, ∃ v, x.dict k = some v := by
        intro k hk
        have hall := List.all_eq_true.mp hcomplete k (mem_watchedColumns.mp hk).1
        exact Option.isSome_iff_exists.mp hall
      rw [if_neg Bool.true_eq_false.mp]
      refine (told_commit h rfl).trans ?_
      dsimp only [writeAudit]
      rw [Option.map_some, watchedPart_snapshot]
      constructor
      · intro hsame x' hx' _
        cases hx'
        obtain ⟨row, hrow, hshown⟩ := Option.map_eq_some_iff.mp hsame.1.symm
        refine ⟨row, hrow, fun k hk v hv => ?_⟩
        have hcolumn := shown_eq_iff.mp hshown k hk
        rw [Option.mem_def.mp hv] at hcolumn
        exact hcolumn.symm
      · intro hfaithful
        obtain ⟨row, hrow, hsame⟩ := hfaithful x rfl hcomplete
        refine ⟨?_, rfl⟩
        rw [Option.mem_def.mp hrow, Option.map_some, Option.some.injEq, shown_eq_iff]
        intro k hk
        obtain ⟨v, hv⟩ := hloaded k hk
        rw [hv]
        exact hsame k hk v hv

theorem told_execute_iff (h : Told C watched w) (id : UUID) (attr : String) (value : PyValue) :
    Told C watched (w.execute C id attr value) ↔ Faithful C watched w (.execute id attr value) := by
  show _ ↔ ∀ row ∈ w.rows id, attr ∈ watchedColumns C watched →
    serialize (C.keep attr value) = serialize (row attr)
  unfold Audited.execute
  cases hrow : w.rows id with
  | none => exact iff_of_true h fun row hmem => absurd hmem (Option.not_mem_none row)
  | some row =>
    have hshown : Told C watched
        { w with
          rows := Function.update w.rows id (some (Function.update row attr (C.keep attr value))) } ↔
        shown C watched (Function.update row attr (C.keep attr value)) = shown C watched row := by
      constructor
      · intro htold
        have hlast := htold id
        dsimp only at hlast
        rw [Function.update_self] at hlast
        have hbefore := h id
        rw [hrow] at hbefore
        exact Option.some.inj (hlast.unique hbefore)
      · intro hsame id'
        dsimp only
        by_cases hid : id' = id
        · rw [hid, Function.update_self, Option.map_some, hsame]
          have hbefore := h id
          rwa [hrow] at hbefore
        · rw [Function.update_of_ne hid]
          exact h id'
    dsimp only
    rw [hshown, shown_eq_iff]
    constructor
    · intro hsame row' hrow' hattr
      cases hrow'
      have hcolumn := hsame attr hattr
      rwa [Function.update_self] at hcolumn
    · intro hfaithful k hk
      by_cases hattr : k = attr
      · subst hattr
        rw [Function.update_self]
        exact hfaithful row rfl hk
      · rw [Function.update_of_ne hattr]

theorem told_step_iff (h : Told C watched w) (op : AuditOp) :
    Told C watched (w.step C op) ↔ Faithful C watched w op := by
  cases op with
  | refresh session id => exact iff_of_true h trivial
  | load session id => exact iff_of_true h trivial
  | set session id attr value => exact iff_of_true h trivial
  | rollback session => exact iff_of_true h trivial
  | insert session id given default writing => exact told_insert_iff h session id given default writing
  | update session id stamp writing => exact told_update_iff h session id stamp writing
  | delete session id writing => exact told_delete_iff h session id writing
  | execute id attr value => exact told_execute_iff h id attr value

end

/-! ## Units of work -/

section

variable (C : AuditedClass) (watched : String → Bool)

/-- The column keeps the value as it is written, and takes no value that it keeps in another writing for
the same. -/
def Exact (k : String) (v : PyValue) : Prop :=
  serialize (C.keep k v) = serialize v ∧
    ∀ o, C.same k v (C.keep k o) = true → serialize v = serialize (C.keep k o)

/-- A transaction that reads the record before it writes it. -/
inductive WorkUnit where
  | create (session : ℕ) (id : UUID) (given : String → Option PyValue) (default : Row) (writing : Writing)
  | change (session : ℕ) (id : UUID) (sets : List (String × PyValue)) (stamp : Row) (writing : Writing)
  | remove (session : ℕ) (id : UUID) (writing : Writing)

def setOp (session : ℕ) (id : UUID) (kv : String × PyValue) : AuditOp := .set session id kv.1 kv.2

def WorkUnit.ops : WorkUnit → List AuditOp
  | create session id given default writing => [.insert session id given default writing]
  | change session id sets stamp writing =>
    .refresh session id :: (sets.map (setOp session id) ++ [.update session id stamp writing])
  | remove session id writing => [.refresh session id, .delete session id writing]

/-- What is written is exact. -/
def WorkUnit.Exact : WorkUnit → Prop
  | create _ _ given _ _ => ∀ k ∈ watchedColumns C watched, ∀ v ∈ given k, Audit.Exact C k v
  | change _ _ sets _ _ => ∀ kv ∈ sets, kv.1 ∈ watchedColumns C watched → Audit.Exact C kv.1 kv.2
  | remove .. => True

/-- The table holds what its columns keep. -/
def RowsKept (w : Audited) : Prop := ∀ id, ∀ row ∈ w.rows id, ∀ k, ∃ o, row k = C.keep k o

/-- The object was read from the row, and what was set since is exact. -/
def InSync (row : Row) (x : Instance) : Prop :=
  ∀ k ∈ watchedColumns C watched, (x.committed k = none ∧ x.dict k = some (row k)) ∨
    ∃ v, x.committed k = some (some (row k)) ∧ x.dict k = some v ∧ Exact C k v

end

section

variable {C : AuditedClass} {watched : String → Bool} {w : Audited} {x : Instance} {row : Row}

theorem InSync.set (h : InSync C watched row x) {attr : String} {value : PyValue}
    (hexact : attr ∈ watchedColumns C watched → Exact C attr value) :
    InSync C watched row (x.set attr value) := by
  intro k hk
  unfold Tracked.set
  dsimp only
  by_cases hattr : k = attr
  · subst hattr
    rw [Function.update_self, Function.update_self]
    refine .inr ⟨value, ?_, rfl, hexact hk⟩
    rcases h k hk with ⟨hnone, hdict⟩ | ⟨v, hsome, -, -⟩
    · rw [hnone, hdict]
      rfl
    · rw [hsome]
      rfl
  · rw [Function.update_of_ne hattr, Function.update_of_ne hattr]
    exact h k hk

theorem InSync.faithfulAttr (h : InSync C watched row x) {k : String} (hk : k ∈ watchedColumns C watched)
    (hkept : ∃ o, row k = C.keep k o) : FaithfulAttr C x row k := by
  rcases h k hk with ⟨hnone, hdict⟩ | ⟨v, hsome, hdict, hexact⟩
  · have hunchanged : x.changed C.same k = false := by
      unfold Tracked.changed
      rw [hnone]
    refine ⟨?_, fun htrue => absurd (hunchanged.symm.trans htrue) Bool.false_ne_true⟩
    intro v hv
    unfold Tracked.seenBefore at hv
    rw [Tracked.deleted_of_not_changed hunchanged, hdict] at hv
    cases hv
    rfl
  · have hchanged : x.changed C.same k = !C.same k v (row k) := by
      unfold Tracked.changed
      rw [hsome, hdict]
      rfl
    cases hsame : C.same k v (row k) with
    | true =>
      rw [hsame] at hchanged
      refine ⟨?_, fun htrue => absurd (hchanged.symm.trans htrue) Bool.false_ne_true⟩
      intro v' hv'
      unfold Tracked.seenBefore at hv'
      rw [Tracked.deleted_of_not_changed hchanged, hdict] at hv'
      cases hv'
      obtain ⟨o, ho⟩ := hkept
      rw [ho] at hsame ⊢
      exact hexact.2 o hsame
    | false =>
      rw [hsame] at hchanged
      refine ⟨?_, fun _ v' hv' => ?_⟩
      · intro o ho
        unfold Tracked.seenBefore at ho
        rw [Tracked.deleted_of_changed hchanged, hsome] at ho
        cases ho
        rfl
      · rw [hdict] at hv'
        cases hv'
        exact hexact.1

theorem updatedRow_cases (C : AuditedClass) (x : Instance) (row stamp : Row) (k : String) :
    updatedRow C x row stamp k = row k ∨ ∃ o, updatedRow C x row stamp k = C.keep k o := by
  unfold updatedRow Tracked.write
  cases hchanged : x.changed C.same k with
  | true =>
    cases hv : x.dict k with
    | none => exact .inl rfl
    | some v => exact .inr ⟨v, rfl⟩
  | false =>
    cases hstamp : C.stamped k && updates C x with
    | true => exact .inr ⟨stamp k, rfl⟩
    | false => exact .inl rfl

theorem RowsKept.step (h : RowsKept C w) (op : AuditOp) : RowsKept C (w.step C op) := by
  have hcommit : ∀ id (next : Option Row), (∀ row ∈ next, ∀ k, ∃ o, row k = C.keep k o) →
      ∀ id', ∀ row ∈ Function.update w.rows id next id', ∀ k, ∃ o, row k = C.keep k o := by
    intro id next hnext id' row hrow
    by_cases hid : id' = id
    · rw [hid, Function.update_self] at hrow
      exact hnext row hrow
    · rw [Function.update_of_ne hid] at hrow
      exact h id' row hrow
  cases op with
  | refresh session id => exact h
  | load session id => exact h
  | set session id attr value => exact h
  | rollback session => exact h
  | insert session id given default writing =>
    show RowsKept C (w.insert C session id given default writing)
    unfold Audited.insert
    split
    · exact h
    · refine hcommit id _ ?_
      intro row hrow k
      cases hrow
      exact ⟨_, rfl⟩
  | update session id stamp writing =>
    show RowsKept C (w.update C session id stamp writing)
    unfold Audited.update
    split
    · exact h
    · rename_i x hx
      split
      · exact h
      · split
        · split
          · exact h
          · exact hcommit id _ fun row hrow => absurd hrow (Option.not_mem_none row)
        · rename_i row hrow
          refine hcommit id _ ?_
          intro row' hrow' k
          cases hrow'
          rcases updatedRow_cases C x row stamp k with hold | hnew
          · rw [hold]
            exact h id row hrow k
          · exact hnew
  | delete session id writing =>
    show RowsKept C (w.delete C session id writing)
    unfold Audited.delete
    split
    · exact h
    · split
      · exact h
      · exact hcommit id _ fun row hrow => absurd hrow (Option.not_mem_none row)
  | execute id attr value =>
    show RowsKept C (w.execute C id attr value)
    unfold Audited.execute
    split
    · exact h
    · rename_i row hrow
      refine hcommit id _ ?_
      intro row' hrow' k
      cases hrow'
      by_cases hattr : k = attr
      · subst hattr
        rw [Function.update_self]
        exact ⟨value, rfl⟩
      · rw [Function.update_of_ne hattr]
        exact h id row hrow k

/-- A unit sets its attributes, and the object stays in step with the row. -/
theorem along_sets {session : ℕ} {id : UUID} {sets : List (String × PyValue)} (hkept : RowsKept C w)
    (hrows : ∀ x ∈ w.objects session id, ∃ row ∈ w.rows id, InSync C watched row x)
    (hexact : ∀ kv ∈ sets, kv.1 ∈ watchedColumns C watched → Exact C kv.1 kv.2) (stamp : Row)
    (writing : Writing) :
    Along (Audited.step C) (Faithful C watched) w
      (sets.map (setOp session id) ++ [.update session id stamp writing]) := by
  induction sets generalizing w with
  | nil =>
    refine ⟨?_, trivial⟩
    intro x hx _
    obtain ⟨row, hrow, hsync⟩ := hrows x hx
    refine ⟨fun hnone => ?_, fun row' hrow' k hk => ?_⟩
    · rw [Option.mem_def, hnone] at hrow
      cases hrow
    · cases hrow'.symm.trans hrow
      exact hsync.faithfulAttr hk (hkept id row hrow k)
  | cons kv sets ih =>
    refine ⟨trivial, ih ?_ ?_ ?_⟩
    · exact hkept.step _
    · intro x hx
      have hset : (w.step C (setOp session id kv)).objects session id
          = (w.objects session id).map (·.set kv.1 kv.2) := by
        show Function.update w.objects session (Function.update (w.objects session) id _) session id = _
        rw [Function.update_self, Function.update_self]
      rw [hset] at hx
      obtain ⟨x', hx', rfl⟩ := Option.map_eq_some_iff.mp hx
      obtain ⟨row, hrow, hsync⟩ := hrows x' hx'
      exact ⟨row, hrow, hsync.set (hexact kv List.mem_cons_self)⟩
    · exact fun kv' hkv' => hexact kv' (List.mem_cons_of_mem _ hkv')

theorem along_unit (hkept : RowsKept C w) {u : WorkUnit} (hexact : u.Exact C watched) :
    Along (Audited.step C) (Faithful C watched) w u.ops := by
  have hrefresh : ∀ session id, (w.step C (.refresh session id)).objects session id
      = (w.rows id).map .ofRow := by
    intro session id
    show Function.update w.objects session (Function.update (w.objects session) id _) session id = _
    rw [Function.update_self, Function.update_self]
  cases u with
  | create session id given default writing =>
    exact ⟨fun _ k hk v hv => (hexact k hk v hv).1, trivial⟩
  | change session id sets stamp writing =>
    refine ⟨trivial, along_sets (hkept.step _) ?_ hexact stamp writing⟩
    intro x hx
    rw [hrefresh] at hx
    obtain ⟨row, hrow, rfl⟩ := Option.map_eq_some_iff.mp hx
    exact ⟨row, hrow, fun k _ => .inl ⟨rfl, rfl⟩⟩
  | remove session id writing =>
    refine ⟨trivial, ?_, trivial⟩
    intro x hx _
    rw [hrefresh] at hx
    obtain ⟨row, hrow, rfl⟩ := Option.map_eq_some_iff.mp hx
    refine ⟨row, hrow, fun k _ v hv => ?_⟩
    cases hv
    rfl

theorem along_units (hkept : RowsKept C w) {units : List WorkUnit}
    (hexact : ∀ u ∈ units, u.Exact C watched) :
    Along (Audited.step C) (Faithful C watched) w (units.flatMap WorkUnit.ops) := by
  induction units generalizing w with
  | nil => trivial
  | cons u units ih =>
    rw [List.flatMap_cons, along_append]
    refine ⟨along_unit hkept (hexact u List.mem_cons_self), ih ?_ ?_⟩
    · exact run_invariant_of_step (fun w op h => h.step op) u.ops hkept
    · exact fun u' hu' => hexact u' (List.mem_cons_of_mem _ hu')

theorem told_start : Told C watched Audited.start := fun _ => rfl

theorem rowsKept_start : RowsKept C Audited.start :=
  fun _ row hrow => absurd hrow (Option.not_mem_none row)

end

/-- In every run over a table the entries of each record lead, in the watched columns, from nothing to its
row at every moment exactly when every operation is faithful: no flush of an object that does not know
the row or writes nothing to a row that is gone, no attribute changed before it was loaded, no statement
past the objects. Transactions that read the record before they write it, one after the other, are. -/
theorem trail_told_iff (C : AuditedClass) (watched : String → Bool) :
    (∀ ops, (∀ front, front <+: ops → Told C watched (run (Audited.step C) .start front)) ↔
      Along (Audited.step C) (Faithful C watched) .start ops) ∧
    (∀ units : List WorkUnit, (∀ u ∈ units, u.Exact C watched) →
      ∀ front, front <+: units.flatMap WorkUnit.ops →
        Told C watched (run (Audited.step C) .start front)) := by
  have hiff : ∀ ops, (∀ front, front <+: ops → Told C watched (run (Audited.step C) .start front)) ↔
      Along (Audited.step C) (Faithful C watched) .start ops := by
    intro ops
    have hstep : ∀ (w : Audited) (op : AuditOp), True → Told C watched w →
        (Told C watched (w.step C op) ↔ Faithful C watched w op) := fun _ op _ h => told_step_iff h op
    exact always_iff_along (fun _ _ _ _ => trivial) hstep trivial told_start ops
  exact ⟨hiff, fun units hexact => (hiff _).mpr (along_units rowsKept_start hexact)⟩

/-- Three of the columns of a member, all of them texts. -/
def memberColumns : AuditedClass where
  tablename := "members"
  platform := false
  columns := ["status", "last_login_at", "updated_at"]
  stamped k := k = "updated_at"
  same _ v o :=
    match v, o with
    | .other (.str text), .other (.str text') => text = text'
    | _, _ => false
  keep _ v := v

/-- A text of a column. -/
def textValue (text : String) : PyValue := .other (.str text)

theorem exact_textValue (k text : String) : Exact memberColumns k (textValue text) := by
  refine ⟨rfl, fun o hsame => ?_⟩
  have hkeep : memberColumns.keep k o = o := rfl
  rw [hkeep] at hsame ⊢
  unfold memberColumns textValue at hsame
  dsimp only at hsame
  split at hsame
  · rename_i text₁ text₂ heq
    cases heq
    rw [of_decide_eq_true hsame]
    rfl
  · cases hsame

def sampleWriting (entryId : UUID) : Writing :=
  ⟨entryId, 0, ⟨some "tenant_user", none, some "clerk@umoja.test", none, none⟩⟩

/-- A member is registered, becomes active in another session, and is removed. -/
def sampleUnits : List WorkUnit :=
  [.create 0 ⟨4007, by decide⟩ (fun k => if k = "status" then some (textValue "pending") else none)
      (fun _ => textValue "") (sampleWriting ⟨4001, by decide⟩),
    .change 1 ⟨4007, by decide⟩ [("status", textValue "active")] (fun _ => textValue "")
      (sampleWriting ⟨4002, by decide⟩),
    .remove 0 ⟨4007, by decide⟩ (sampleWriting ⟨4003, by decide⟩)]

theorem trail_told_iff_member :
    Told memberColumns (fun k => k ≠ "last_login_at")
      (run (Audited.step memberColumns) .start (sampleUnits.flatMap WorkUnit.ops)) := by
  refine (trail_told_iff memberColumns fun k => k ≠ "last_login_at").2 sampleUnits ?_ _ List.prefix_rfl
  intro u hu
  simp only [sampleUnits, List.mem_cons, List.not_mem_nil, or_false] at hu
  rcases hu with rfl | rfl | rfl
  · intro k _ v hv
    dsimp only at hv
    split at hv
    · cases hv
      exact exact_textValue k "pending"
    · cases hv
  · intro kv hkv _
    cases List.mem_singleton.mp hkv
    exact exact_textValue "status" "active"
  · trivial

end SaccoPlatform.Audit
