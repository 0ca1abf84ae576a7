import SaccoPlatform.Lib.Session
import SaccoPlatform.Reporting.Schema
import Mathlib.Data.List.Sort

/-!
# Materialising and reading a report

Every `materialize` of the reporting services goes the same way: a run row is added, the lines that
earlier runs wrote under the same key are deleted, the query is made, its lines are added, and the
run is marked `done`. A failure marks the run `failed` and is raised again; the caller does not
commit then. What differs is the query and what the table is cleared by.

A getter picks one run and shows the lines that point to it. Where several runs are equally good by
its `ORDER BY`, the database may take any of them: a getter is modelled by the list of its possible
answers.
-/

namespace SaccoPlatform.Reporting

open Lib Session

/-- A query over the books, inside a session on all tables. -/
def query {α : Type} (select : Session Books Err α) : Session Db Err α := fun db =>
  match select db.books with
  | .ok a _ => .ok a db
  | .raised e _ => .raised e db
  | .aborted e => .aborted e

/-- A change of the report tables. -/
def onReports (f : Reports → Reports) : Session Db Err Unit :=
  modify fun db => { db with reports := f db.reports }

/-- The frame of every `materialize`. -/
def materialize (r : ReportType) (key : r.Key) (select : Session Books Err (List r.Row)) :
    Session Db Err ReportRun := do
  let db ← get
  let runId := db.reports.nextId
  onReports (·.addRun r (r.asOf key))
  reraise (do
      onReports (·.clear r key)
      let rows ← query select
      onReports (·.addLines r (rows.map fun row => ⟨runId, key, row⟩))
      onReports (·.setStatus runId .done))
    (onReports (·.setStatus runId .failed))
  pure ⟨runId, r, r.asOf key, .done⟩

/-- `order_by(as_of_date.desc()).limit(1)`: the runs that may be returned. -/
def newest (runs : List ReportRun) : List ReportRun :=
  runs.filter fun run => ∀ other ∈ runs, other.asOfDate ≤ run.asOfDate

/-- `order_by(as_of_date.asc()).limit(1)`. -/
def oldest (runs : List ReportRun) : List ReportRun :=
  runs.filter fun run => ∀ other ∈ runs, run.asOfDate ≤ other.asOfDate

/-- `if as_of_date is not None: q = q.where(as_of_date == ...)`. -/
def ofDate (asOfDate : Option Date) (runs : List ReportRun) : List ReportRun :=
  match asOfDate with
  | none => runs
  | some date => runs.filter (·.asOfDate = date)

/-- The run and the lines that a getter may return, given the runs it may pick. -/
def Reports.answers {r : ReportType} (s : Reports) (runs : List ReportRun)
    (shown : ReportLine r → Bool) (order : ReportLine r → ReportLine r → Prop) [DecidableRel order] :
    List (Option ReportRun × List (ReportLine r)) :=
  match runs with
  | [] => [(none, [])]
  | runs => runs.map fun run =>
      (some run, ((s.linesOf r run.id).filter shown).insertionSort order)

/-! ## What a materialisation leaves -/

/-- The report tables after a successful materialisation. -/
def Reports.materialized (s : Reports) (r : ReportType) (key : r.Key) (rows : List r.Row) : Reports :=
  (((s.addRun r (r.asOf key)).clear r key).addLines r
    (rows.map fun row => ⟨s.nextId, key, row⟩)).setStatus s.nextId .done

@[simp] theorem onReports_bind_eq_ok {α : Type} {g : Reports → Reports} {f : Unit → Session Db Err α}
    {db db' : Db} {a : α} : (onReports g >>= f) db = .ok a db' ↔
      f () { db with reports := g db.reports } = .ok a db' := Iff.rfl

@[simp] theorem query_bind_eq_ok {α β : Type} {select : Session Books Err α}
    {f : α → Session Db Err β} {db db' : Db} {b : β} :
    (query select >>= f) db = .ok b db' ↔
      ∃ a books, select db.books = .ok a books ∧ f a db = .ok b db' := by
  rw [bind_apply]
  unfold query
  cases select db.books <;> simp

theorem onReports_eq_ok {g : Reports → Reports} {db db' : Db} {u : Unit} :
    onReports g db = .ok u db' ↔ db' = { db with reports := g db.reports } := modify_eq_ok

/-- The books are read, and only the report tables change. -/
theorem materialize_eq_ok {r : ReportType} {key : r.Key} {select : Session Books Err (List r.Row)}
    {db db' : Db} {run : ReportRun} :
    materialize r key select db = .ok run db' ↔
      ∃ rows books, select db.books = .ok rows books ∧
        run = ⟨db.reports.nextId, r, r.asOf key, .done⟩ ∧
        db' = { db with reports := db.reports.materialized r key rows } := by
  unfold materialize Reports.materialized
  rw [get_bind_eq_ok, onReports_bind_eq_ok, bind_eq_ok]
  simp only [reraise_eq_ok, onReports_bind_eq_ok, query_bind_eq_ok, pure_eq_ok, onReports_eq_ok]
  constructor
  · rintro ⟨u, db₁, ⟨rows, books, hrows, hdone⟩, hrun, hdb⟩
    rw [← hdb]
    exact ⟨rows, books, hrows, hrun.symm, hdone⟩
  · rintro ⟨rows, books, hrows, hrun, hdone⟩
    exact ⟨(), db', ⟨rows, books, hrows, hdone⟩, hrun.symm, Eq.refl db'⟩

/-! ## Consistent report tables -/

/-- Runs have keys of their own, and a line points to a run of its report and date. -/
structure Reports.Consistent (s : Reports) : Prop where
  pkey : (s.runs.map (·.id)).Nodup
  fresh : ∀ run ∈ s.runs, run.id < s.nextId
  fk_run : ∀ r, ∀ line ∈ s.lines r, ∃ run ∈ s.runs,
    run.id = line.reportRunId ∧ run.reportType = r ∧ run.asOfDate = r.asOf line.key

theorem consistent_empty : Reports.empty.Consistent where
  pkey := List.nodup_nil
  fresh _ hrun := absurd hrun List.not_mem_nil
  fk_run _ _ hline := absurd hline List.not_mem_nil

section

variable {s : Reports} {r r' : ReportType} {key : r.Key} {rows : List r.Row}

@[simp] theorem materialized_nextId : (s.materialized r key rows).nextId = s.nextId + 1 := rfl

theorem materialized_lines_self : (s.materialized r key rows).lines r =
    (s.lines r).filter (fun line => line.key ≠ key) ++ rows.map fun row => ⟨s.nextId, key, row⟩ := by
  simp [Reports.materialized, Reports.setStatus, Reports.addLines, Reports.clear, Reports.addRun]

/-- The other reports keep their lines. -/
theorem materialized_lines_of_ne (h : r' ≠ r) :
    (s.materialized r key rows).lines r' = s.lines r' := by
  simp [Reports.materialized, Reports.setStatus, Reports.addLines, Reports.clear, Reports.addRun, h]

/-- The run is added to the runs, and none of these changes. -/
theorem materialized_runs (hs : s.Consistent) :
    (s.materialized r key rows).runs = s.runs ++ [⟨s.nextId, r, r.asOf key, .done⟩] := by
  have hold : (s.runs.map fun run =>
      if run.id = s.nextId then { run with status := .done } else run) = s.runs := by
    conv_rhs => rw [← List.map_id s.runs]
    apply List.map_congr_left
    intro run hrun
    have hne : run.id ≠ s.nextId := Nat.ne_of_lt (hs.fresh run hrun)
    rw [if_neg hne]
    rfl
  show (s.runs ++ [_]).map _ = _
  rw [List.map_append, hold]
  simp

theorem materialized_doneRuns (hs : s.Consistent) : (s.materialized r key rows).doneRuns r' =
    s.doneRuns r' ++ if r = r' then [⟨s.nextId, r, r.asOf key, .done⟩] else [] := by
  unfold Reports.doneRuns
  rw [materialized_runs hs, List.filter_append]
  by_cases h : r = r' <;> simp [h]

theorem mem_materialized_lines {line : ReportLine r'}
    (h : line ∈ (s.materialized r key rows).lines r') :
    line ∈ s.lines r' ∨ (r = r' ∧ line.reportRunId = s.nextId ∧ r'.asOf line.key = r.asOf key) := by
  by_cases hr : r = r'
  · subst hr
    rw [materialized_lines_self, List.mem_append] at h
    rcases h with h | h
    · exact .inl (List.mem_filter.mp h).1
    · obtain ⟨row, -, rfl⟩ := List.mem_map.mp h
      exact .inr ⟨rfl, rfl, rfl⟩
  · rw [materialized_lines_of_ne (Ne.symm hr)] at h
    exact .inl h

theorem consistent_materialized (hs : s.Consistent) (key : r.Key) (rows : List r.Row) :
    (s.materialized r key rows).Consistent := by
  have hruns := @materialized_runs s r key rows hs
  constructor
  · rw [hruns, List.map_append, List.nodup_append]
    refine ⟨hs.pkey, by simp, ?_⟩
    intro a ha b hb
    obtain ⟨run, hrun, rfl⟩ := List.mem_map.mp ha
    obtain rfl : b = s.nextId := by simpa using hb
    exact Nat.ne_of_lt (hs.fresh run hrun)
  · intro run hrun
    rw [hruns, List.mem_append, List.mem_singleton] at hrun
    rw [materialized_nextId]
    rcases hrun with hrun | rfl
    · exact Nat.lt_succ_of_lt (hs.fresh run hrun)
    · exact Nat.lt_succ_self _
  · intro r' line hline
    rw [hruns]
    rcases mem_materialized_lines hline with hline | ⟨rfl, hid, hdate⟩
    · obtain ⟨run, hrun, hfk⟩ := hs.fk_run r' line hline
      exact ⟨run, List.mem_append_left _ hrun, hfk⟩
    · exact ⟨_, List.mem_append_right _ List.mem_cons_self, hid.symm, rfl, hdate.symm⟩

/-- The lines of the new run are those of its query. -/
theorem linesOf_materialized_new (hs : s.Consistent) :
    (s.materialized r key rows).linesOf r s.nextId =
      rows.map fun row => ⟨s.nextId, key, row⟩ := by
  unfold Reports.linesOf
  rw [materialized_lines_self, List.filter_append, List.filter_eq_nil_iff.mpr, List.nil_append,
    List.filter_eq_self]
  · intro line hline
    obtain ⟨row, -, rfl⟩ := List.mem_map.mp hline
    exact decide_eq_true rfl
  · -- nothing points to a run that is not there yet
    intro line hline
    obtain ⟨run, hrun, hid, -⟩ := hs.fk_run r line (List.mem_filter.mp hline).1
    have hne : run.id ≠ s.nextId := Nat.ne_of_lt (hs.fresh run hrun)
    rw [decide_eq_true_eq, ← hid]
    exact hne

/-- An earlier run keeps the lines that are under another key. -/
theorem linesOf_materialized_old {runId : Uuid} (hne : runId ≠ s.nextId) :
    (s.materialized r key rows).linesOf r runId =
      (s.linesOf r runId).filter fun line => line.key ≠ key := by
  unfold Reports.linesOf
  rw [materialized_lines_self, List.filter_append]
  have hnew : (rows.map fun row => (⟨s.nextId, key, row⟩ : ReportLine r)).filter
      (fun line => line.reportRunId = runId) = [] := by
    rw [List.filter_eq_nil_iff]
    intro line hline
    obtain ⟨row, -, rfl⟩ := List.mem_map.mp hline
    rw [decide_eq_true_eq]
    exact Ne.symm hne
  rw [hnew, List.append_nil, List.filter_comm]

theorem linesOf_materialized_of_ne {runId : Uuid} (h : r' ≠ r) :
    (s.materialized r key rows).linesOf r' runId = s.linesOf r' runId := by
  unfold Reports.linesOf
  rw [materialized_lines_of_ne h]

end

/-! ## Getters -/

/-- Among runs of one date the database may take any. -/
theorem newest_of_same_date {runs : List ReportRun} {date : Date}
    (h : ∀ run ∈ runs, run.asOfDate = date) : newest runs = runs := by
  rw [newest, List.filter_eq_self]
  intro run hrun
  rw [decide_eq_true_eq]
  intro other hother
  rw [h run hrun, h other hother]
  exact Nat.le_refl _

theorem mem_answers {r : ReportType} {s : Reports} {runs : List ReportRun} {shown : ReportLine r → Bool}
    {order : ReportLine r → ReportLine r → Prop} [DecidableRel order]
    {answer : Option ReportRun × List (ReportLine r)} :
    answer ∈ s.answers runs shown order ↔
      (runs = [] ∧ answer = (none, [])) ∨ ∃ run ∈ runs,
        answer = (some run, ((s.linesOf r run.id).filter shown).insertionSort order) := by
  unfold Reports.answers
  cases runs with
  | nil => simp
  | cons run runs =>
    show answer ∈ List.map _ _ ↔ _
    rw [List.mem_map]
    simp [eq_comm]

end SaccoPlatform.Reporting
