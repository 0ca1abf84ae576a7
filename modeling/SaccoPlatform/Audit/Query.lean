import SaccoPlatform.Lib.Instants
import SaccoPlatform.Lib.Json
import SaccoPlatform.Lib.Keyed
import SaccoPlatform.Lib.Paging
import SaccoPlatform.Lib.Runs
import SaccoPlatform.Lib.Uuid

/-!
# Reading the audit log

`AuditQueryService.query` (`app/platform_/audit/service.py`) on the tables of
`app/core/audit/models.py`. Someone reads the log page by page while other transactions go on writing
to it. The newest entries come first, so what is written meanwhile moves the rest back.
-/

namespace SaccoPlatform.Audit

open Lib

/-- A row of `audit_log`. -/
structure AuditEntry where
  id : UUID
  tableName : String
  recordId : UUID
  operation : String
  actorType : String
  actorId : Option UUID
  actorLabel : Option String
  beforeState : Option (List (String × Json))
  afterState : Option (List (String × Json))
  occurredAt : Instant
  requestId : Option String
  impersonationId : Option UUID

/-- The table, with its primary key. -/
abbrev AuditLog := Keyed AuditEntry.id

/-- The arguments of `query` that restrict it. -/
structure AuditFilter where
  tableName : Option String
  recordId : Option UUID
  actorId : Option UUID
  actorType : Option String
  operation : Option String
  occurredFrom : Option Instant
  occurredTo : Option Instant

/-- A text that is empty restricts nothing. -/
def given (text : Option String) : List String := (text.filter (· ≠ "")).toList

/-- `conds`. -/
def AuditFilter.conds (f : AuditFilter) : List (AuditEntry → Bool) :=
  (given f.tableName).map (fun t (e : AuditEntry) => decide (e.tableName = t)) ++
  f.recordId.toList.map (fun id (e : AuditEntry) => decide (e.recordId = id)) ++
  f.actorId.toList.map (fun id (e : AuditEntry) => decide (e.actorId = some id)) ++
  (given f.actorType).map (fun t (e : AuditEntry) => decide (e.actorType = t)) ++
  (given f.operation).map (fun t (e : AuditEntry) => decide (e.operation = t)) ++
  f.occurredFrom.toList.map (fun i (e : AuditEntry) => decide (i ≤ e.occurredAt)) ++
  f.occurredTo.toList.map (fun i (e : AuditEntry) => decide (e.occurredAt ≤ i))

def AuditFilter.admits (f : AuditFilter) (e : AuditEntry) : Bool := f.conds.all fun cond => cond e

/-- `ORDER BY occurred_at DESC, id DESC` -/
def Newer (a b : AuditEntry) : Prop :=
  b.occurredAt < a.occurredAt ∨ a.occurredAt = b.occurredAt ∧ b.id.int ≤ a.id.int

instance : DecidableRel Newer := fun _ _ => inferInstanceAs (Decidable (_ ∨ _))

/-- The entries that a filter admits, the newest first. -/
def selected (log : AuditLog) (f : AuditFilter) : List AuditEntry :=
  (log.rows.filter f.admits).insertionSort Newer

/-- `AuditQueryService.query`, when nothing is written between its two statements. -/
def query (log : AuditLog) (f : AuditFilter) (pageNo pageSize : ℕ) : List AuditEntry × ℕ :=
  (page pageSize pageNo (selected log f), (log.rows.filter f.admits).length)

/-- `page_size: int = Query(25, ge=1, le=100)` -/
structure PageSize where
  val : ℕ
  ge : 1 ≤ val
  le : val ≤ 100

/-! ## Reading page by page -/

/-- The log, and the pages that the reader has, the first one first. -/
structure Walk where
  log : AuditLog
  pages : List (List AuditEntry)

inductive WalkEvent where
  | record (entry : AuditEntry)
  | fetch

/-- `INSERT INTO audit_log`; an id that is there is refused. -/
def insertEntry (log : AuditLog) (entry : AuditEntry) : AuditLog :=
  if h : entry.id ∈ log.rows.map AuditEntry.id then log
  else ⟨entry :: log.rows, List.nodup_cons.mpr ⟨h, log.nodup⟩⟩

namespace Walk

/-- The last page is not full, and the reader asks for no more. -/
def done (size : PageSize) (w : Walk) : Bool := w.pages.getLast?.any fun p => p.length < size.val

def step (f : AuditFilter) (size : PageSize) (w : Walk) : WalkEvent → Walk
  | .record entry => { w with log := insertEntry w.log entry }
  | .fetch =>
    if w.done size then w
    else { w with pages := w.pages ++ [(query w.log f (w.pages.length + 1) size.val).1] }

end Walk

/-! ## The order of the entries -/

theorem newer_total (a b : AuditEntry) : Newer a b ∨ Newer b a := by
  rcases lt_trichotomy a.occurredAt b.occurredAt with hlt | heq | hgt
  · exact .inr (.inl hlt)
  · rcases le_total a.id.int b.id.int with hle | hle
    · exact .inr (.inr ⟨heq.symm, hle⟩)
    · exact .inl (.inr ⟨heq, hle⟩)
  · exact .inl (.inl hgt)

theorem newer_trans {a b c : AuditEntry} (hab : Newer a b) (hbc : Newer b c) : Newer a c := by
  rcases hab with hlt | ⟨heq, hle⟩
  · rcases hbc with hlt' | ⟨heq', -⟩
    · exact .inl (hlt'.trans hlt)
    · exact .inl (heq' ▸ hlt)
  · rcases hbc with hlt' | ⟨heq', hle'⟩
    · exact .inl (heq ▸ hlt')
    · exact .inr ⟨heq.trans heq', hle'.trans hle⟩

instance : Std.Total Newer := ⟨newer_total⟩

instance : IsTrans AuditEntry Newer := ⟨fun _ _ _ => newer_trans⟩

/-- Entries of the log that come before each other are one. -/
theorem eq_of_newer {log : AuditLog} {a b : AuditEntry} (ha : a ∈ log.rows) (hb : b ∈ log.rows)
    (hab : Newer a b) (hba : Newer b a) : a = b := by
  have hint : a.id.int = b.id.int := by
    rcases hab with hlt | ⟨heq, hle⟩
    · rcases hba with hlt' | ⟨heq', -⟩
      · exact absurd (hlt.trans hlt') (lt_irrefl _)
      · exact absurd heq' hlt.ne
    · rcases hba with hlt' | ⟨-, hle'⟩
      · exact absurd heq hlt'.ne
      · exact le_antisymm hle' hle
  have hid : a.id = b.id := by
    cases ha' : a.id
    cases hb' : b.id
    simp only [ha', hb'] at hint
    subst hint
    rfl
  exact log.eq_of_key ha hb hid

/-- Entries that are added move others back. -/
theorem selected_sublist {log log' : AuditLog} (h : log.rows.Sublist log'.rows) (f : AuditFilter) :
    (selected log f).Sublist (selected log' f) := by
  apply insertionSort_sublist (h.filter f.admits).subperm
  intro a ha b hb
  exact eq_of_newer (List.mem_of_mem_filter ha) (List.mem_of_mem_filter hb)

theorem mem_selected {log : AuditLog} {f : AuditFilter} {entry : AuditEntry} :
    entry ∈ selected log f ↔ entry ∈ log.rows ∧ f.admits entry = true := by
  rw [selected, List.mem_insertionSort, List.mem_filter]

theorem sublist_insertEntry (log : AuditLog) (entry : AuditEntry) :
    log.rows.Sublist (insertEntry log entry).rows := by
  rw [insertEntry]
  split
  · exact List.Sublist.refl _
  · exact List.sublist_cons_self entry log.rows

/-! ## What a reader meets -/

namespace Walk

variable {f : AuditFilter} {size : PageSize} {w : Walk}

theorem done_append {p : List AuditEntry} :
    done size { w with pages := w.pages ++ [p] } = true ↔ p.length < size.val := by
  rw [done, List.getLast?_concat, Option.any_some, decide_eq_true_eq]

/-- Nothing on the pages is invented, and whoever has reached the end has met all of `entries`. -/
structure Fair (f : AuditFilter) (size : PageSize) (entries : List AuditEntry) (w : Walk) : Prop where
  found : ∀ e ∈ w.pages.flatten, e ∈ w.log.rows ∧ f.admits e = true
  accounted : ∀ e ∈ entries, Accounted size.val (selected w.log f) w.pages e
  met : w.done size = true → ∀ e ∈ entries, e ∈ w.pages.flatten

theorem Fair.step {entries : List AuditEntry} (h : w.Fair f size entries) (ev : WalkEvent) :
    (w.step f size ev).Fair f size entries := by
  cases ev with
  | record new =>
    have hgrow := sublist_insertEntry w.log new
    refine ⟨?_, ?_, h.met⟩
    · intro e he
      have ⟨hlog, hadmits⟩ := h.found e he
      exact ⟨hgrow.subset hlog, hadmits⟩
    · intro e he
      exact (h.accounted e he).grow (selected_sublist hgrow f)
  | fetch =>
    rw [Walk.step]
    by_cases hdone : w.done size = true
    · rw [if_pos hdone]
      exact h
    rw [if_neg hdone]
    refine ⟨?_, fun e he => (h.accounted e he).read, ?_⟩
    · intro e he
      rw [List.flatten_append, List.flatten_singleton, List.mem_append] at he
      rcases he with hold | hnew
      · exact h.found e hold
      · exact mem_selected.mp (List.mem_of_mem_drop (List.mem_of_mem_take hnew))
    · intro hshort e he
      exact (h.accounted e he).mem_of_short (done_append.mp hshort)

theorem fair_start (log : AuditLog) : Fair f size (selected log f) ⟨log, []⟩ := by
  refine ⟨?_, fun e he => .start he, ?_⟩
  · intro e he
    cases he
  · intro hdone
    cases hdone

/-- While nothing is written, after so many events: the pages cover the log, and the reader is at the
end or has read a full page each time. -/
structure Quiet (f : AuditFilter) (size : PageSize) (log : AuditLog) (count : ℕ) (w : Walk) : Prop where
  log_eq : w.log = log
  covers : Covers size.val (selected log f) w.pages
  full : w.done size = true ∧ w.pages.flatten = selected log f ∨
    w.done size = false ∧ w.pages.length = count ∧ count * size.val ≤ (selected log f).length

theorem Quiet.fetch {log : AuditLog} {count : ℕ} (h : w.Quiet f size log count) :
    (w.step f size .fetch).Quiet f size log (count + 1) := by
  rw [Walk.step]
  rcases h.full with ⟨hdone, hall⟩ | ⟨hdone, hlength, hle⟩
  · rw [if_pos hdone]
    exact ⟨h.log_eq, h.covers, .inl ⟨hdone, hall⟩⟩
  · rw [hdone, if_neg Bool.false_ne_true]
    have hlog := h.log_eq
    subst hlog
    refine ⟨rfl, h.covers.read, ?_⟩
    by_cases hshort : (page size.val (w.pages.length + 1) (selected w.log f)).length < size.val
    · exact .inl ⟨done_append.mpr hshort, h.covers.eq_of_short hshort⟩
    · refine .inr ⟨?_, ?_, ?_⟩
      · rw [Bool.eq_false_iff]
        intro hend
        exact hshort (done_append.mp hend)
      · rw [List.length_append, List.length_singleton, hlength]
      · rw [hlength] at hshort
        exact mul_le_of_full hshort hle

/-- By induction on the fetches, the last one as the step. -/
theorem quiet_run (log : AuditLog) (count : ℕ) :
    Quiet f size log count (run (step f size) ⟨log, []⟩ (List.replicate count .fetch)) := by
  induction count with
  | zero =>
    refine ⟨rfl, .start, .inr ⟨rfl, rfl, ?_⟩⟩
    rw [Nat.zero_mul]
    exact Nat.zero_le _
  | succ count ih =>
    rw [List.replicate_succ', run_append]
    exact ih.fetch

end Walk

/-- Whatever is written while someone reads page by page: the pages show entries of the log that the
filter admits, and once a page is not full they have shown every such entry that was there when the
reading began. When nothing is written, so many pages as the entries need end the reading, with each
entry once and the newest first. -/
theorem walk_misses_none (log : AuditLog) (f : AuditFilter) (size : PageSize) :
    (∀ events, let w := run (Walk.step f size) ⟨log, []⟩ events
      (∀ e ∈ w.pages.flatten, e ∈ w.log.rows ∧ f.admits e = true) ∧
      (w.done size = true → ∀ e ∈ log.rows, f.admits e = true → e ∈ w.pages.flatten)) ∧
    ∀ count, (query log f 1 size.val).2 < count * size.val →
      let w := run (Walk.step f size) ⟨log, []⟩ (List.replicate count .fetch)
      w.done size = true ∧ w.pages.flatten = selected log f := by
  constructor
  · intro events
    have hfair : (run (Walk.step f size) ⟨log, []⟩ events).Fair f size (selected log f) :=
      run_invariant_of_step (fun w ev h => h.step ev) events (Walk.fair_start log)
    refine ⟨hfair.found, ?_⟩
    intro hdone e he hadmits
    exact hfair.met hdone e (mem_selected.mpr ⟨he, hadmits⟩)
  · intro count hcount
    have hquiet : Walk.Quiet f size log count _ := Walk.quiet_run log count
    rcases hquiet.full with hend | ⟨-, -, hle⟩
    · exact hend
    · have htotal : (selected log f).length = (query log f 1 size.val).2 := List.length_insertionSort _ _
      omega

end SaccoPlatform.Audit
