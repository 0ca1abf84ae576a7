import SaccoPlatform.Lib.Runs
import SaccoPlatform.Search.Reconcile

/-!
# When the index converges

The index as a copy of the rows of one scope, kept by passes and sweeps. A run of the jobs is a run
of the copy, and the rules for such copies carry over: the index of a scope becomes exact again as
long as no transaction commits a row with a time from before what a reconcile run of the scope has
read, and no sweep scans the index before it has refreshed. Where a transaction does, its row is never
indexed. A sweep, on the other hand, never deletes the document of a row that is there.
-/

namespace SaccoPlatform.Search

open Lib

variable {e : EntityType}

/-! ## Where documents and ids come from -/

/-- Every document is the document of a row, and every id that a run holds belongs to its scope. -/
structure Consistent (w : SearchWorld e) : Prop where
  index : ∀ doc ∈ w.index.rows, ∃ (s : Scope e.scopeKind) (row : SourceRow e), doc = indexed s row
  searchable : ∀ doc ∈ w.searchable, ∃ (s : Scope e.scopeKind) (row : SourceRow e), doc = indexed s row
  indexing : ∀ k s docs next, w.reconciles k = some ⟨s, .indexing docs next⟩ →
    ∀ doc ∈ docs, ∃ row : SourceRow e, doc = indexed s row
  esIds : ∀ k s ids, w.sweeps k = some ⟨s, .gotIds ids⟩ ∨ w.sweeps k = some ⟨s, .deleting ids⟩ →
    ∀ oid ∈ ids, ∃ id, oid = docId s.schema? id

theorem consistent_empty : Consistent (SearchWorld.empty : SearchWorld e) := by
  constructor
  · intro doc hdoc
    cases hdoc
  · intro doc hdoc
    cases hdoc
  · intro k s docs next hk
    cases hk
  · rintro k s ids (hk | hk)
    · cases hk
    · cases hk

namespace Consistent

variable {w : SearchWorld e}

theorem setReconcile (h : Consistent w) {k : ℕ} {run : Option (ReconcileRun e)}
    (hrun : ∀ s docs next, run = some ⟨s, .indexing docs next⟩ →
      ∀ doc ∈ docs, ∃ row : SourceRow e, doc = indexed s row) : Consistent (w.setReconcile k run) := by
  refine ⟨h.index, h.searchable, ?_, h.esIds⟩
  intro j s docs next hj
  have hj' : Function.update w.reconciles k run j = some ⟨s, .indexing docs next⟩ := hj
  by_cases hjk : j = k
  · subst hjk
    rw [Function.update_self] at hj'
    exact hrun s docs next hj'
  · rw [Function.update_of_ne hjk] at hj'
    exact h.indexing j s docs next hj'

theorem setSweep (h : Consistent w) {k : ℕ} {run : Option (SweepRun e)}
    (hrun : ∀ s ids, run = some ⟨s, .gotIds ids⟩ ∨ run = some ⟨s, .deleting ids⟩ →
      ∀ oid ∈ ids, ∃ id, oid = docId s.schema? id) : Consistent (w.setSweep k run) := by
  refine ⟨h.index, h.searchable, h.indexing, ?_⟩
  intro j s ids hj
  have hj' : Function.update w.sweeps k run j = some ⟨s, .gotIds ids⟩ ∨
      Function.update w.sweeps k run j = some ⟨s, .deleting ids⟩ := hj
  by_cases hjk : j = k
  · subst hjk
    rw [Function.update_self] at hj'
    exact hrun s ids hj'
  · rw [Function.update_of_ne hjk] at hj'
    exact h.esIds j s ids hj'

/-- A document that the query of a scope finds is of a row of the scope. -/
theorem of_mem_hits (h : Consistent w) {s : Scope e.scopeKind} {doc : IndexedDoc}
    (hdoc : doc ∈ w.hits s) : ∃ row : SourceRow e, doc = indexed s row := by
  have ⟨hin, hselects⟩ := List.mem_filter.mp hdoc
  obtain ⟨s', row, rfl⟩ := h.searchable doc hin
  obtain rfl := (selects_document s s' row).mp hselects
  exact ⟨row, rfl⟩

/-- So is one that the index holds for it. -/
theorem of_mem_documents (h : Consistent w) {s : Scope e.scopeKind} {doc : IndexedDoc}
    (hdoc : doc ∈ w.documents s) : ∃ row : SourceRow e, doc = indexed s row := by
  have ⟨hin, hselects⟩ := List.mem_filter.mp hdoc
  obtain ⟨s', row, rfl⟩ := h.index doc hin
  obtain rfl := (selects_document s s' row).mp hselects
  exact ⟨row, rfl⟩

theorem effect {w' : SearchWorld e} {ev : SearchEvent e} (h : Consistent w)
    (heffect : w.Effect ev w') : Consistent w' := by
  cases heffect with
  | idle => exact h
  | commit s start writes => exact ⟨h.index, h.searchable, h.indexing, h.esIds⟩
  | refresh => exact ⟨h.index, h.index, h.indexing, h.esIds⟩
  | getWatermark k s hk => exact h.setReconcile nofun
  | noRows k s wm hk hrows => exact h.setReconcile nofun
  | selectRows k s wm hk =>
    apply h.setReconcile
    intro s' docs next hrun doc hdoc
    cases hrun
    obtain ⟨row, -, rfl⟩ := List.mem_map.mp hdoc
    exact ⟨row, rfl⟩
  | index k i s docs next doc hk hdoc =>
    have hdocs := h.indexing k s docs next hk
    have hstore : Consistent { w with index := w.index.store doc } := by
      refine ⟨?_, h.searchable, h.indexing, h.esIds⟩
      intro doc' hdoc'
      rcases Keyed.mem_store.mp hdoc' with rfl | ⟨hold, -⟩
      · obtain ⟨row, hrow⟩ := hdocs doc' (List.mem_of_getElem? hdoc)
        exact ⟨s, row, hrow⟩
      · exact h.index doc' hold
    apply hstore.setReconcile
    intro s' docs' next' hrun doc' hdoc'
    cases hrun
    exact hdocs doc' (List.mem_of_mem_eraseIdx hdoc')
  | setWatermark k s next hk =>
    have hset : Consistent { w with watermark := Function.update w.watermark s (some next) } :=
      ⟨h.index, h.searchable, h.indexing, h.esIds⟩
    exact hset.setReconcile nofun
  | failReconcile k run hk hrun => exact h.setReconcile nofun
  | noIds k s hk hhits => exact h.setSweep fun _ _ hor => hor.elim nofun nofun
  | scanIds k s hk =>
    apply h.setSweep
    rintro s' ids (hrun | hrun) oid hoid
    · cases hrun
      obtain ⟨doc, hdoc, rfl⟩ := List.mem_map.mp hoid
      obtain ⟨row, rfl⟩ := h.of_mem_hits hdoc
      exact ⟨row.id, rfl⟩
    · cases hrun
  | noOrphans k s esIds hk horphans => exact h.setSweep fun _ _ hor => hor.elim nofun nofun
  | sourceIds k s esIds hk =>
    apply h.setSweep
    rintro s' ids (hrun | hrun) oid hoid
    · cases hrun
    · cases hrun
      exact h.esIds k s esIds (.inl hk) oid (List.mem_of_mem_filter hoid)
  | delete k i s orphans oid hk hoid =>
    have herase : Consistent { w with index := w.index.erase oid } := by
      refine ⟨?_, h.searchable, h.indexing, h.esIds⟩
      intro doc hdoc
      exact h.index doc (Keyed.mem_erase.mp hdoc).1
    apply herase.setSweep
    rintro s' ids (hrun | hrun) oid' hoid'
    · cases hrun
    · cases hrun
      exact h.esIds k s orphans (.inr hk) oid' (List.mem_of_mem_eraseIdx hoid')
  | logSwept k s hk => exact h.setSweep fun _ _ hor => hor.elim nofun nofun
  | failSweep k run hk => exact h.setSweep fun _ _ hor => hor.elim nofun nofun

theorem step (h : Consistent w) (ev : SearchEvent e) : Consistent (w.step ev) :=
  h.effect (SearchWorld.effect_step w ev)

end Consistent

/-! ## One scope as a copy of its rows -/

/-- A reconcile run of the scope as a pass. -/
def passOf (s : Scope e.scopeKind) (run : ReconcileRun e) : Option (Pass UUID Document) :=
  if run.scope = s then
    match run.phase with
    | .gotWatermark wm => some (.reading wm)
    | .indexing docs next => some (.writing {x | ⟨docId s.schema? x.1, x.2⟩ ∈ docs} next)
    | .succeeded => some .done
  else none

/-- A sweep run of the scope as a sweep. -/
def sweepOf (s : Scope e.scopeKind) (run : SweepRun e) : Option (Sweep UUID) :=
  if run.scope = s then
    match run.phase with
    | .gotIds esIds => some (.scanned {id | docId s.schema? id ∈ esIds})
    | .deleting orphans => some (.dropping {id | docId s.schema? id ∈ orphans})
    | .succeeded => some .done
  else none

section

variable (s : Scope e.scopeKind)

@[simp] theorem passOf_gotWatermark (wm : ℕ) : passOf s ⟨s, .gotWatermark wm⟩ = some (.reading wm) :=
  if_pos rfl

@[simp] theorem passOf_indexing (docs : List IndexedDoc) (next : ℕ) :
    passOf s ⟨s, .indexing docs next⟩ =
      some (.writing {x | ⟨docId s.schema? x.1, x.2⟩ ∈ docs} next) := if_pos rfl

@[simp] theorem passOf_succeeded : passOf s ⟨s, .succeeded⟩ = some .done := if_pos rfl

@[simp] theorem sweepOf_gotIds (esIds : List String) :
    sweepOf s ⟨s, .gotIds esIds⟩ = some (.scanned {id | docId s.schema? id ∈ esIds}) := if_pos rfl

@[simp] theorem sweepOf_deleting (orphans : List String) :
    sweepOf s ⟨s, .deleting orphans⟩ = some (.dropping {id | docId s.schema? id ∈ orphans}) := if_pos rfl

@[simp] theorem sweepOf_succeeded : sweepOf s ⟨s, .succeeded⟩ = some .done := if_pos rfl

end

/-- The rows of a scope and their documents. -/
def feed (s : Scope e.scopeKind) (w : SearchWorld e) : Feed UUID (SourceRow e) Document where
  rows id := ((w.rows s).get? id).map fun row => ⟨row.updatedAt, row⟩
  docs id := (w.index.get? (docId s.schema? id)).map (·.source)
  watermark := w.getWatermark s
  passes := (fun run => run.bind (passOf s)) ∘ w.reconciles
  sweeps := (fun run => run.bind (sweepOf s)) ∘ w.sweeps

section

variable {s : Scope e.scopeKind} {w : SearchWorld e}

theorem feed_setReconcile (k : ℕ) (run : Option (ReconcileRun e)) :
    feed s (w.setReconcile k run) = { feed s w with
      passes := Function.update (feed s w).passes k (run.bind (passOf s)) } := by
  show Feed.mk _ _ _ (_ ∘ Function.update w.reconciles k run) _ = _
  rw [Function.comp_update]
  rfl

theorem feed_setSweep (k : ℕ) (run : Option (SweepRun e)) :
    feed s (w.setSweep k run) = { feed s w with
      sweeps := Function.update (feed s w).sweeps k (run.bind (sweepOf s)) } := by
  show Feed.mk _ _ _ _ (_ ∘ Function.update w.sweeps k run) = _
  rw [Function.comp_update]
  rfl

/-- The runs of other scopes do not show. -/
theorem feed_setReconcile_of_none {k : ℕ} {run : Option (ReconcileRun e)}
    (hrun : run.bind (passOf s) = none) (hold : (feed s w).passes k = none) :
    feed s (w.setReconcile k run) = feed s w := by
  rw [feed_setReconcile, hrun, ← hold, Function.update_eq_self]

theorem feed_setSweep_of_none {k : ℕ} {run : Option (SweepRun e)}
    (hrun : run.bind (sweepOf s) = none) (hold : (feed s w).sweeps k = none) :
    feed s (w.setSweep k run) = feed s w := by
  rw [feed_setSweep, hrun, ← hold, Function.update_eq_self]

/-- A document of the scope is indexed. -/
theorem feed_store (id : UUID) (source : Document) :
    feed s { w with index := w.index.store ⟨docId s.schema? id, source⟩ } = { feed s w with
      docs := Function.update (feed s w).docs id (some source) } := by
  have hdocs : (fun id' => ((w.index.store ⟨docId s.schema? id, source⟩).get? (docId s.schema? id')).map
      (·.source)) = Function.update (feed s w).docs id (some source) := by
    funext id'
    rw [Keyed.get?_store, Function.update_apply]
    by_cases hid : id' = id
    · subst hid
      rw [if_pos rfl, if_pos rfl]
      rfl
    · rw [if_neg hid, if_neg]
      · rfl
      · intro heq
        exact hid (docId_injective heq).2.symm
  show Feed.mk _ _ _ _ _ = _
  rw [hdocs]
  rfl

/-- A document of another scope is indexed. -/
theorem feed_store_of_ne {s' : Scope e.scopeKind} (hs : s' ≠ s) (row : SourceRow e) :
    feed s { w with index := w.index.store (indexed s' row) } = feed s w := by
  have hdocs : (fun id => ((w.index.store (indexed s' row)).get? (docId s.schema? id)).map (·.source))
      = (feed s w).docs := by
    funext id
    rw [Keyed.get?_store, if_neg]
    · rfl
    · intro heq
      exact hs (docId_injective heq).1
  show Feed.mk _ _ _ _ _ = _
  rw [hdocs]
  rfl

/-- A document of the scope is deleted. -/
theorem feed_erase (id : UUID) :
    feed s { w with index := w.index.erase (docId s.schema? id) } = { feed s w with
      docs := Function.update (feed s w).docs id none } := by
  have hdocs : (fun id' => ((w.index.erase (docId s.schema? id)).get? (docId s.schema? id')).map
      (·.source)) = Function.update (feed s w).docs id none := by
    funext id'
    rw [Keyed.get?_erase, Function.update_apply]
    by_cases hid : id' = id
    · subst hid
      rw [if_pos rfl, if_pos rfl]
      rfl
    · rw [if_neg hid, if_neg]
      · rfl
      · intro heq
        exact hid (docId_injective heq).2
  show Feed.mk _ _ _ _ _ = _
  rw [hdocs]
  rfl

/-- A document of another scope is deleted. -/
theorem feed_erase_of_ne {s' : Scope e.scopeKind} (hs : s' ≠ s) (id : UUID) :
    feed s { w with index := w.index.erase (docId s'.schema? id) } = feed s w := by
  have hdocs : (fun id' => ((w.index.erase (docId s'.schema? id)).get? (docId s.schema? id')).map
      (·.source)) = (feed s w).docs := by
    funext id'
    rw [Keyed.get?_erase, if_neg]
    · rfl
    · intro heq
      exact hs (docId_injective heq).1.symm
  show Feed.mk _ _ _ _ _ = _
  rw [hdocs]
  rfl

/-- The watermark of another scope is set. -/
theorem feed_setWatermark_of_ne {s' : Scope e.scopeKind} (hs : s' ≠ s) (next : ℕ) :
    feed s { w with watermark := Function.update w.watermark s' (some next) } = feed s w := by
  show Feed.mk _ _ ((Function.update w.watermark s' (some next) s).getD epoch) _ _ = _
  rw [Function.update_of_ne hs.symm]
  rfl

theorem passes_eq {k : ℕ} {run : ReconcileRun e} (hk : w.reconciles k = some run) :
    (feed s w).passes k = passOf s run := by
  show (w.reconciles k).bind (passOf s) = _
  rw [hk]
  rfl

theorem sweeps_eq {k : ℕ} {run : SweepRun e} (hk : w.sweeps k = some run) :
    (feed s w).sweeps k = sweepOf s run := by
  show (w.sweeps k).bind (sweepOf s) = _
  rw [hk]
  rfl

theorem passes_eq_none {k : ℕ} (hk : w.reconciles k = none) : (feed s w).passes k = none := by
  show (w.reconciles k).bind (passOf s) = none
  rw [hk]
  rfl

theorem sweeps_eq_none {k : ℕ} (hk : w.sweeps k = none) : (feed s w).sweeps k = none := by
  show (w.sweeps k).bind (sweepOf s) = none
  rw [hk]
  rfl

/-- A pass is a run of the scope. -/
theorem exists_run_of_passes {k : ℕ} {p : Pass UUID Document} (hk : (feed s w).passes k = some p) :
    ∃ phase, w.reconciles k = some ⟨s, phase⟩ ∧ passOf s ⟨s, phase⟩ = some p := by
  have hbind : (w.reconciles k).bind (passOf s) = some p := hk
  obtain ⟨run, hrun, hp⟩ := Option.bind_eq_some_iff.mp hbind
  have hscope : run.scope = s := by
    by_contra hne
    rw [passOf, if_neg hne] at hp
    cases hp
  subst hscope
  exact ⟨run.phase, hrun, hp⟩

theorem exists_run_of_sweeps {k : ℕ} {p : Sweep UUID} (hk : (feed s w).sweeps k = some p) :
    ∃ phase, w.sweeps k = some ⟨s, phase⟩ ∧ sweepOf s ⟨s, phase⟩ = some p := by
  have hbind : (w.sweeps k).bind (sweepOf s) = some p := hk
  obtain ⟨run, hrun, hp⟩ := Option.bind_eq_some_iff.mp hbind
  have hscope : run.scope = s := by
    by_contra hne
    rw [sweepOf, if_neg hne] at hp
    cases hp
  subst hscope
  exact ⟨run.phase, hrun, hp⟩

theorem passes_eq_writing {k next : ℕ} {pending : Set (UUID × Document)}
    (hk : (feed s w).passes k = some (.writing pending next)) :
    ∃ docs, w.reconciles k = some ⟨s, .indexing docs next⟩ := by
  obtain ⟨phase, hrun, hp⟩ := exists_run_of_passes hk
  cases phase with
  | gotWatermark wm => simp at hp
  | indexing docs next' =>
    simp only [passOf_indexing, Option.some.injEq, Pass.writing.injEq] at hp
    rw [← hp.2]
    exact ⟨docs, hrun⟩
  | succeeded => simp at hp

theorem sweeps_eq_dropping {k : ℕ} {keys : Set UUID}
    (hk : (feed s w).sweeps k = some (.dropping keys)) :
    ∃ orphans, w.sweeps k = some ⟨s, .deleting orphans⟩ ∧ keys = {id | docId s.schema? id ∈ orphans} := by
  obtain ⟨phase, hrun, hp⟩ := exists_run_of_sweeps hk
  cases phase with
  | gotIds esIds => simp at hp
  | deleting orphans =>
    simp only [sweepOf_deleting, Option.some.injEq, Sweep.dropping.injEq] at hp
    exact ⟨orphans, hrun, hp.symm⟩
  | succeeded => simp at hp

end

/-! ## Steps in time -/

/-- The transaction started when no reconcile run of the scope had read past its start, and no sweep
has found the row it writes to be missing. -/
structure Timely (w : SearchWorld e) (s : Scope e.scopeKind) (start : ℕ) (id : UUID) : Prop where
  watermark_le : w.getWatermark s ≤ start
  next_le : ∀ k docs next, w.reconciles k = some ⟨s, .indexing docs next⟩ → next ≤ start
  not_orphan : ∀ k orphans, w.sweeps k = some ⟨s, .deleting orphans⟩ → docId s.schema? id ∉ orphans

/-- Every document of the scope has been refreshed. -/
def Refreshed (w : SearchWorld e) (s : Scope e.scopeKind) : Prop :=
  ∀ doc ∈ w.documents s, doc.id ∈ (w.hits s).map (·.id)

/-- The rows that a transaction puts into the scope are in time, a reconcile run of the scope begins
when there is no other, and a sweep of it scans the index when its documents have been refreshed. -/
def OnTime (s : Scope e.scopeKind) (w : SearchWorld e) : SearchEvent e → Prop
  | .commit s' start writes => s' = s → ∀ id columns, .put id columns ∈ writes → Timely w s start id
  | .getWatermark _ s' => s' = s → ∀ k phase, w.reconciles k = some ⟨s, phase⟩ → phase = .succeeded
  | .scanIds _ s' => s' = s → Refreshed w s
  | _ => True

section

variable {s : Scope e.scopeKind} {w w' : SearchWorld e}

theorem get?_foldl_apply {start : ℕ} {writes : List (RowWrite e)}
    {rows : Keyed (SourceRow.id (e := e))} {id : UUID} {row : SourceRow e}
    (h : (writes.foldl (RowWrite.apply start) rows).get? id = some row) :
    rows.get? id = some row ∨ row.updatedAt = start ∧ ∃ columns, .put id columns ∈ writes := by
  induction writes generalizing rows with
  | nil => exact .inl h
  | cons write writes ih =>
    rcases ih h with hfirst | ⟨htime, columns, hin⟩
    · cases write with
      | put id' columns =>
        rw [RowWrite.apply, Keyed.get?_store] at hfirst
        by_cases hid : id' = id
        · subst hid
          rw [if_pos rfl] at hfirst
          cases hfirst
          exact .inr ⟨rfl, columns, List.mem_cons_self⟩
        · rw [if_neg hid] at hfirst
          exact .inl hfirst
      | delete id' =>
        rw [RowWrite.apply, Keyed.get?_erase] at hfirst
        by_cases hid : id = id'
        · rw [if_pos hid] at hfirst
          cases hfirst
        · rw [if_neg hid] at hfirst
          exact .inl hfirst
    · exact .inr ⟨htime, columns, List.mem_cons_of_mem _ hin⟩

/-- A transaction in time is a commit that the copy admits. -/
theorem write_commit {start : ℕ} {writes : List (RowWrite e)}
    (hok : OnTime s w (.commit s start writes)) :
    (feed s w).Write (feed s (w.step (.commit s start writes))) := by
  refine ⟨(feed s (w.step (.commit s start writes))).rows, rfl, ?_⟩
  intro id r hr
  have hrow : ((Function.update w.rows s (writes.foldl (RowWrite.apply start) (w.rows s)) s).get? id).map
      (fun row => Stamped.mk row.updatedAt row) = some r := hr
  rw [Function.update_self] at hrow
  obtain ⟨row, hget, rfl⟩ := Option.map_eq_some_iff.mp hrow
  rcases get?_foldl_apply hget with hold | ⟨rfl, columns, hin⟩
  · left
    show ((w.rows s).get? id).map _ = _
    rw [hold]
    rfl
  · have htimely := hok rfl id columns hin
    refine .inr ⟨⟨htimely.watermark_le, ?_⟩, ?_⟩
    · intro k pending next hk
      obtain ⟨docs, hrun⟩ := passes_eq_writing hk
      exact htimely.next_le k docs next hrun
    · rintro ⟨k, keys, hk, hid⟩
      obtain ⟨orphans, hrun, rfl⟩ := sweeps_eq_dropping hk
      exact htimely.not_orphan k orphans hrun hid

/-- A transaction of another scope. -/
theorem feed_commit_of_ne {s' : Scope e.scopeKind} (hs : s' ≠ s) (start : ℕ)
    (writes : List (RowWrite e)) : feed s (w.step (.commit s' start writes)) = feed s w := by
  have hrows : Function.update w.rows s' (writes.foldl (RowWrite.apply start) (w.rows s')) s = w.rows s :=
    Function.update_of_ne hs.symm _ _
  show Feed.mk (fun id => ((Function.update w.rows s' _ s).get? id).map _) _ _ _ _ = _
  rw [hrows]
  rfl

/-! ## Runs as steps of the copy -/

theorem mem_rowsSince {rows : Keyed (SourceRow.id (e := e))} {wm : ℕ} {row : SourceRow e} :
    row ∈ rowsSince rows wm ↔ row ∈ rows.rows ∧ wm ≤ row.updatedAt := by
  rw [rowsSince, List.mem_insertionSort, List.mem_filter, decide_eq_true_eq]

theorem le_nextWatermark {rows : List (SourceRow e)} {wm : ℕ} (h : ∀ row ∈ rows, wm ≤ row.updatedAt) :
    wm ≤ nextWatermark rows wm := by
  cases rows with
  | nil => exact le_rfl
  | cons row rest =>
    have hfold : ∀ latest, wm ≤ latest → wm ≤ rest.foldl (fun latest r => max latest r.updatedAt) latest := by
      clear h
      induction rest with
      | nil => exact fun latest hle => hle
      | cons r rest ih => exact fun latest hle => ih _ (le_max_of_le_left hle)
    exact hfold row.updatedAt (h row List.mem_cons_self)

/-- What a run of the scope reads is what a pass reads. -/
theorem mem_indexed_rowsSince {wm : ℕ} (id : UUID) (source : Document) :
    ⟨docId s.schema? id, source⟩ ∈ (rowsSince (w.rows s) wm).map (indexed s) ↔
      ∃ r, (feed s w).rows id = some r ∧ wm ≤ r.time ∧ source = document e s r.value := by
  rw [List.mem_map]
  constructor
  · rintro ⟨row, hrow, heq⟩
    have ⟨hin, hle⟩ := mem_rowsSince.mp hrow
    obtain ⟨hid, rfl⟩ := IndexedDoc.mk.inj heq
    obtain rfl := (docId_injective hid).2
    refine ⟨⟨row.updatedAt, row⟩, ?_, hle, rfl⟩
    show ((w.rows s).get? row.id).map _ = _
    rw [Keyed.get?_of_mem hin]
    rfl
  · rintro ⟨r, hr, hle, rfl⟩
    have hmap : ((w.rows s).get? id).map (fun row => Stamped.mk row.updatedAt row) = some r := hr
    obtain ⟨row, hget, rfl⟩ := Option.map_eq_some_iff.mp hmap
    obtain ⟨hin, rfl⟩ := Keyed.get?_eq_some.mp hget
    exact ⟨row, mem_rowsSince.mpr ⟨hin, hle⟩, rfl⟩

/-- The ids that a sweep of the scope reads from the table are those of its rows. -/
theorem docId_mem_sourceIds (id : UUID) :
    docId s.schema? id ∈ ((w.rows s).rows.map fun row => docId s.schema? row.id) ↔
      (feed s w).rows id ≠ none := by
  rw [List.mem_map]
  show _ ↔ ((w.rows s).get? id).map _ ≠ none
  rw [Option.ne_none_iff_exists']
  constructor
  · rintro ⟨row, hin, heq⟩
    obtain rfl := (docId_injective heq).2
    rw [Keyed.get?_of_mem hin]
    exact ⟨_, rfl⟩
  · rintro ⟨r, hr⟩
    obtain ⟨row, hget, -⟩ := Option.map_eq_some_iff.mp hr
    obtain ⟨hin, rfl⟩ := Keyed.get?_eq_some.mp hget
    exact ⟨row, hin, rfl⟩

/-- Just after a refresh every document has been refreshed. -/
theorem refreshed_refresh (w : SearchWorld e) (s : Scope e.scopeKind) : Refreshed (w.step .refresh) s :=
  fun _ hdoc => List.mem_map_of_mem hdoc

/-- The query of the scope finds every document that a row of the scope may have, once they have been
refreshed. -/
theorem docId_mem_hits (hc : Consistent w) (hrefreshed : Refreshed w s) {id : UUID}
    (hdoc : (feed s w).docs id ≠ none) : docId s.schema? id ∈ (w.hits s).map (·.id) := by
  obtain ⟨source, hsource⟩ := Option.ne_none_iff_exists'.mp hdoc
  have hmap : (w.index.get? (docId s.schema? id)).map (·.source) = some source := hsource
  obtain ⟨doc, hget, -⟩ := Option.map_eq_some_iff.mp hmap
  obtain ⟨hin, hid⟩ := Keyed.get?_eq_some.mp hget
  obtain ⟨s', row, rfl⟩ := hc.index doc hin
  obtain ⟨rfl, -⟩ := docId_injective hid
  rw [← hid]
  exact hrefreshed _ (List.mem_filter.mpr ⟨hin, (selects_document _ _ row).mpr rfl⟩)

/-- The copy makes steps. -/
abbrev Steps (s : Scope e.scopeKind) (w w' : SearchWorld e) : Prop :=
  Relation.ReflTransGen (Feed.Step fun _ => document e s) (feed s w) (feed s w')

/-- The run finds no row to index. -/
theorem steps_noRows {k wm : ℕ} (hsound : Feed.Sound (fun _ => document e s) (feed s w))
    (hk : w.reconciles k = some ⟨s, .gotWatermark wm⟩) (hrows : rowsSince (w.rows s) wm = []) :
    Steps s w (w.setReconcile k (some ⟨s, .succeeded⟩)) := by
  rw [Steps, feed_setReconcile, Option.bind_some, passOf_succeeded]
  apply Feed.through_of_no_row hsound ((passes_eq hk).trans (passOf_gotWatermark s wm))
  intro id r hr
  by_contra hle
  have hin : ⟨docId s.schema? id, document e s r.value⟩ ∈ (rowsSince (w.rows s) wm).map (indexed s) :=
    (mem_indexed_rowsSince id _).mpr ⟨r, hr, not_lt.mp hle, rfl⟩
  rw [hrows] at hin
  cases hin

/-- The run has its rows. -/
theorem steps_selectRows {k wm : ℕ} (hk : w.reconciles k = some ⟨s, .gotWatermark wm⟩) :
    Steps s w (w.setReconcile k (some ⟨s, .indexing ((rowsSince (w.rows s) wm).map (indexed s))
      (nextWatermark (rowsSince (w.rows s) wm) wm)⟩)) := by
  have hpass : (feed s w).passes k = some (.reading wm) :=
    (passes_eq hk).trans (passOf_gotWatermark s wm)
  have hle : wm ≤ nextWatermark (rowsSince (w.rows s) wm) wm :=
    le_nextWatermark fun row hrow => (mem_rowsSince.mp hrow).2
  apply Relation.ReflTransGen.single
  rw [feed_setReconcile, Option.bind_some, passOf_indexing]
  exact .read k wm _ _ hpass hle mem_indexed_rowsSince

/-- A document of the run is indexed. -/
theorem steps_index {k i next : ℕ} {docs : List IndexedDoc} {row : SourceRow e}
    (hk : w.reconciles k = some ⟨s, .indexing docs next⟩) (hdoc : docs[i]? = some (indexed s row)) :
    Steps s w ({ w with index := w.index.store (indexed s row) }.setReconcile k
      (some ⟨s, .indexing (docs.eraseIdx i) next⟩)) := by
  apply Relation.ReflTransGen.single
  rw [feed_setReconcile, Option.bind_some, passOf_indexing, indexed, feed_store]
  apply Feed.Step.copy k next _ _ row.id (document e s row)
    ((passes_eq hk).trans (passOf_indexing s docs next))
  · exact List.mem_of_getElem? hdoc
  · intro x hx
    exact List.mem_of_mem_eraseIdx hx
  · intro x hx
    obtain ⟨j, hj⟩ := List.getElem?_of_mem hx
    by_cases hji : j = i
    · subst hji
      right
      have ⟨hid, hsource⟩ := IndexedDoc.mk.inj (Option.some.inj (hj.symm.trans hdoc))
      exact Prod.ext (docId_injective hid).2 hsource
    · exact .inl (List.mem_eraseIdx_iff_getElem?.mpr ⟨j, hji, hj⟩)

/-- The run has indexed all its documents. -/
theorem steps_setWatermark {k next : ℕ} (hk : w.reconciles k = some ⟨s, .indexing [] next⟩) :
    Steps s w ({ w with watermark := Function.update w.watermark s (some next) }.setReconcile k
      (some ⟨s, .succeeded⟩)) := by
  have hpass : (feed s w).passes k = some (.writing ∅ next) := by
    rw [passes_eq hk, passOf_indexing]
    simp
  have hwatermark : feed s { w with watermark := Function.update w.watermark s (some next) } =
      { feed s w with watermark := next } := by
    show Feed.mk _ _ ((Function.update w.watermark s (some next) s).getD epoch) _ _ = _
    rw [Function.update_self]
    rfl
  apply Relation.ReflTransGen.single
  rw [feed_setReconcile, Option.bind_some, passOf_succeeded, hwatermark]
  exact .finish k next hpass

/-- The sweep begins with the documents of the scope. -/
theorem steps_scanIds (hc : Consistent w) (hrefreshed : Refreshed w s) {k : ℕ} (hk : w.sweeps k = none) :
    Steps s w (w.setSweep k (some ⟨s, .gotIds ((w.hits s).map (·.id))⟩)) := by
  apply Relation.ReflTransGen.single
  rw [feed_setSweep, Option.bind_some, sweepOf_gotIds]
  exact .scan k _ (sweeps_eq_none hk) fun id hdoc => docId_mem_hits hc hrefreshed hdoc

theorem steps_noIds (hc : Consistent w) (hrefreshed : Refreshed w s) {k : ℕ} (hk : w.sweeps k = none)
    (hhits : w.hits s = []) : Steps s w (w.setSweep k (some ⟨s, .succeeded⟩)) := by
  rw [Steps, feed_setSweep, Option.bind_some, sweepOf_succeeded]
  apply Feed.through_of_no_copy (sweeps_eq_none hk)
  intro id
  by_contra hdoc
  have hin := docId_mem_hits hc hrefreshed hdoc
  rw [hhits] at hin
  cases hin

/-- The sweep compares them with the rows of the scope. -/
theorem steps_sourceIds {k : ℕ} {esIds : List String} (hk : w.sweeps k = some ⟨s, .gotIds esIds⟩) :
    Steps s w (w.setSweep k (some ⟨s, .deleting
      (orphanIds esIds ((w.rows s).rows.map fun row => docId s.schema? row.id))⟩)) := by
  have hset : {id | docId s.schema? id ∈
        orphanIds esIds ((w.rows s).rows.map fun row => docId s.schema? row.id)} =
      {id ∈ {id | docId s.schema? id ∈ esIds} | (feed s w).rows id = none} := by
    ext id
    rw [Set.mem_ofPred_eq, orphanIds, List.mem_filter, decide_eq_true_eq, docId_mem_sourceIds, not_not]
    rfl
  apply Relation.ReflTransGen.single
  rw [feed_setSweep, Option.bind_some, sweepOf_deleting, hset]
  exact .choose k _ ((sweeps_eq hk).trans (sweepOf_gotIds s esIds))

theorem steps_noOrphans {k : ℕ} {esIds : List String} (hk : w.sweeps k = some ⟨s, .gotIds esIds⟩)
    (horphans : orphanIds esIds ((w.rows s).rows.map fun row => docId s.schema? row.id) = []) :
    Steps s w (w.setSweep k (some ⟨s, .succeeded⟩)) := by
  rw [Steps, feed_setSweep, Option.bind_some, sweepOf_succeeded]
  apply Feed.through_of_rows ((sweeps_eq hk).trans (sweepOf_gotIds s esIds))
  intro id hid
  rw [← docId_mem_sourceIds]
  rw [orphanIds, List.filter_eq_nil_iff] at horphans
  simpa using horphans _ hid

/-- The sweep deletes an orphan. -/
theorem steps_delete {k i : ℕ} {orphans : List String} {id : UUID}
    (hk : w.sweeps k = some ⟨s, .deleting orphans⟩)
    (hoid : orphans[i]? = some (docId s.schema? id)) :
    Steps s w ({ w with index := w.index.erase (docId s.schema? id) }.setSweep k
      (some ⟨s, .deleting (orphans.eraseIdx i)⟩)) := by
  apply Relation.ReflTransGen.single
  rw [feed_setSweep, Option.bind_some, sweepOf_deleting, feed_erase]
  apply Feed.Step.drop k _ _ id ((sweeps_eq hk).trans (sweepOf_deleting s orphans))
  · exact List.mem_of_getElem? hoid
  · intro id' hid'
    exact List.mem_of_mem_eraseIdx hid'
  · intro id' hid'
    obtain ⟨j, hj⟩ := List.getElem?_of_mem hid'
    by_cases hji : j = i
    · subst hji
      exact .inr (docId_injective (Option.some.inj (hj.symm.trans hoid))).2
    · exact .inl (List.mem_eraseIdx_iff_getElem?.mpr ⟨j, hji, hj⟩)

theorem steps_logSwept {k : ℕ} (hk : w.sweeps k = some ⟨s, .deleting []⟩) :
    Steps s w (w.setSweep k (some ⟨s, .succeeded⟩)) := by
  have hsweep : (feed s w).sweeps k = some (.dropping ∅) := by
    rw [sweeps_eq hk, sweepOf_deleting]
    simp
  apply Relation.ReflTransGen.single
  rw [feed_setSweep, Option.bind_some, sweepOf_succeeded]
  exact .swept k hsweep

/-- A run of the scope is under way. -/
theorem running_of_reconciles {k : ℕ} {phase : ReconcilePhase}
    (hk : w.reconciles k = some ⟨s, phase⟩) (hphase : phase ≠ .succeeded) : (feed s w).Running k := by
  cases phase with
  | gotWatermark wm => exact Feed.running_of_reading ((passes_eq hk).trans (passOf_gotWatermark s wm))
  | indexing docs next =>
    exact Feed.running_of_writing ((passes_eq hk).trans (passOf_indexing s docs next))
  | succeeded => exact absurd rfl hphase

/-- No run of the scope is under way. -/
theorem not_running {k : ℕ} (hall : ∀ phase, w.reconciles k = some ⟨s, phase⟩ → phase = .succeeded) :
    ¬ (feed s w).Running k := by
  rintro ⟨p, hk, hp⟩
  obtain ⟨phase, hrun, hpass⟩ := exists_run_of_passes hk
  obtain rfl := hall phase hrun
  rw [passOf_succeeded] at hpass
  exact hp (Option.some.inj hpass).symm

/-- Whatever happens but a commit in the scope, the copy makes steps. -/
theorem steps_of_effect (hc : Consistent w)
    (hsound : Feed.Sound (fun _ => document e s) (feed s w)) {ev : SearchEvent e}
    (hok : OnTime s w ev) (hquiet : ∀ start writes, ev ≠ .commit s start writes)
    (heffect : w.Effect ev w') : Steps s w w' := by
  -- an event of another scope leaves the copy as it is
  have hsame : feed s w' = feed s w → Steps s w w' := by
    intro heq
    rw [Steps, heq]
  have hpasses : ∀ {k : ℕ} {s' : Scope e.scopeKind} {phase : ReconcilePhase}, s' ≠ s →
      w.reconciles k = some ⟨s', phase⟩ → (feed s w).passes k = none := fun hs hk =>
    (passes_eq hk).trans (if_neg hs)
  have hsweeps : ∀ {k : ℕ} {s' : Scope e.scopeKind} {phase : SweepPhase}, s' ≠ s →
      w.sweeps k = some ⟨s', phase⟩ → (feed s w).sweeps k = none := fun hs hk =>
    (sweeps_eq hk).trans (if_neg hs)
  cases heffect with
  | idle => exact .refl
  | commit s' start writes =>
    apply hsame
    apply feed_commit_of_ne
    rintro rfl
    exact hquiet start writes rfl
  | refresh => exact hsame rfl
  | getWatermark k s' hk =>
    by_cases hs : s' = s
    · subst hs
      apply Relation.ReflTransGen.single
      rw [feed_setReconcile, Option.bind_some, passOf_gotWatermark]
      exact .enter k (passes_eq_none hk) fun j => not_running (hok rfl j)
    · exact hsame (feed_setReconcile_of_none (if_neg hs) (passes_eq_none hk))
  | noRows k s' wm hk hrows =>
    by_cases hs : s' = s
    · subst hs
      exact steps_noRows hsound hk hrows
    · exact hsame (feed_setReconcile_of_none (if_neg hs) (hpasses hs hk))
  | selectRows k s' wm hk =>
    by_cases hs : s' = s
    · subst hs
      exact steps_selectRows hk
    · exact hsame (feed_setReconcile_of_none (if_neg hs) (hpasses hs hk))
  | index k i s' docs next doc hk hdoc =>
    obtain ⟨row, rfl⟩ := hc.indexing k s' docs next hk doc (List.mem_of_getElem? hdoc)
    by_cases hs : s' = s
    · subst hs
      exact steps_index hk hdoc
    · apply hsame
      rw [← feed_store_of_ne (w := w) hs row]
      apply feed_setReconcile_of_none
      · exact if_neg hs
      · exact hpasses hs hk
  | setWatermark k s' next hk =>
    by_cases hs : s' = s
    · subst hs
      exact steps_setWatermark hk
    · apply hsame
      rw [← feed_setWatermark_of_ne (w := w) hs next]
      apply feed_setReconcile_of_none
      · exact if_neg hs
      · exact hpasses hs hk
  | failReconcile k run hk hrun =>
    obtain ⟨s', phase⟩ := run
    by_cases hs : s' = s
    · subst hs
      apply Relation.ReflTransGen.single
      rw [feed_setReconcile]
      exact .leave k (running_of_reconciles hk hrun)
    · exact hsame (feed_setReconcile_of_none rfl (hpasses hs hk))
  | noIds k s' hk hhits =>
    by_cases hs : s' = s
    · subst hs
      exact steps_noIds hc (hok rfl) hk hhits
    · exact hsame (feed_setSweep_of_none (if_neg hs) (sweeps_eq_none hk))
  | scanIds k s' hk =>
    by_cases hs : s' = s
    · subst hs
      exact steps_scanIds hc (hok rfl) hk
    · exact hsame (feed_setSweep_of_none (if_neg hs) (sweeps_eq_none hk))
  | noOrphans k s' esIds hk horphans =>
    by_cases hs : s' = s
    · subst hs
      exact steps_noOrphans hk horphans
    · exact hsame (feed_setSweep_of_none (if_neg hs) (hsweeps hs hk))
  | sourceIds k s' esIds hk =>
    by_cases hs : s' = s
    · subst hs
      exact steps_sourceIds hk
    · exact hsame (feed_setSweep_of_none (if_neg hs) (hsweeps hs hk))
  | delete k i s' orphans oid hk hoid =>
    obtain ⟨id, rfl⟩ := hc.esIds k s' orphans (.inr hk) oid (List.mem_of_getElem? hoid)
    by_cases hs : s' = s
    · subst hs
      exact steps_delete hk hoid
    · apply hsame
      rw [← feed_erase_of_ne (w := w) hs id]
      apply feed_setSweep_of_none
      · exact if_neg hs
      · exact hsweeps hs hk
  | logSwept k s' hk =>
    by_cases hs : s' = s
    · subst hs
      exact steps_logSwept hk
    · exact hsame (feed_setSweep_of_none (if_neg hs) (hsweeps hs hk))
  | failSweep k run hk =>
    obtain ⟨s', phase⟩ := run
    by_cases hs : s' = s
    · subst hs
      apply Relation.ReflTransGen.single
      rw [feed_setSweep]
      exact .giveUp k
    · exact hsame (feed_setSweep_of_none rfl (hsweeps hs hk))

/-! ## Runs -/

/-- What holds of a scope as long as everything is on time. -/
structure Inv (s : Scope e.scopeKind) (w : SearchWorld e) : Prop where
  consistent : Consistent w
  sound : Feed.Sound (fun _ => document e s) (feed s w)

theorem inv_empty : Inv s .empty := by
  refine ⟨consistent_empty, ⟨⟨?_, ?_⟩, ?_, ?_, ?_, ?_⟩⟩
  · intro id r hr
    cases hr
  · intro id r hr
    cases hr
  · rintro k k' ⟨p, hp, -⟩
    cases hp
  · intro k since hk
    cases hk
  · intro k pending next hk
    cases hk
  · rintro id ⟨k, keys, hk, -⟩
    cases hk

theorem Inv.step (h : Inv s w) {ev : SearchEvent e} (hok : OnTime s w ev) : Inv s (w.step ev) := by
  refine ⟨h.consistent.step ev, ?_⟩
  by_cases hcommit : ∃ start writes, ev = .commit s start writes
  · obtain ⟨start, writes, rfl⟩ := hcommit
    exact h.sound.write (write_commit hok)
  · apply h.sound.steps
    apply steps_of_effect h.consistent h.sound hok _ (w.effect_step ev)
    intro start writes hev
    exact hcommit ⟨start, writes, hev⟩

/-- Without commits in the scope the copy makes steps. -/
theorem steps_of_run {events : List (SearchEvent e)} (h : Inv s w)
    (hok : Along SearchWorld.step (OnTime s) w events)
    (hquiet : ∀ ev ∈ events, ∀ start writes, ev ≠ .commit s start writes) :
    Steps s w (run SearchWorld.step w events) := by
  induction events generalizing w with
  | nil => exact .refl
  | cons ev events ih =>
    have hfirst : Steps s w (w.step ev) :=
      steps_of_effect h.consistent h.sound hok.1 (hquiet ev List.mem_cons_self) (w.effect_step ev)
    have hrest : Steps s (w.step ev) (run SearchWorld.step (w.step ev) events) :=
      ih (h.step hok.1) hok.2 fun ev' hev' => hquiet ev' (List.mem_cons_of_mem _ hev')
    exact hfirst.trans hrest

/-- Where the copy is exact, the index holds the documents of the rows, each once. -/
theorem documents_perm (hc : Consistent w)
    (hexact : ∀ id, (feed s w).docs id = ((feed s w).rows id).map fun r => document e s r.value) :
    (w.documents s).Perm ((w.rows s).rows.map (indexed s)) := by
  have hhits : (w.documents s).Nodup := (w.index.nodup.of_map _).filter _
  have hrows : ((w.rows s).rows.map (indexed s)).Nodup := by
    apply List.Nodup.of_map (·.id)
    have hids : (((w.rows s).rows.map SourceRow.id).map fun id => docId s.schema? id).Nodup :=
      (w.rows s).nodup.map fun id id' heq => (docId_injective heq).2
    rw [List.map_map] at hids ⊢
    exact hids
  rw [List.perm_ext_iff_of_nodup hhits hrows]
  intro doc
  constructor
  · intro hdoc
    obtain ⟨row, rfl⟩ := hc.of_mem_documents hdoc
    have hdocs : (feed s w).docs row.id = some (document e s row) := by
      show (w.index.get? (indexed s row).id).map _ = _
      rw [Keyed.get?_of_mem (List.mem_filter.mp hdoc).1]
      rfl
    rw [hexact] at hdocs
    obtain ⟨r, hr, hsource⟩ := Option.map_eq_some_iff.mp hdocs
    have hmap : ((w.rows s).get? row.id).map (fun row => Stamped.mk row.updatedAt row) = some r := hr
    obtain ⟨row', hget, rfl⟩ := Option.map_eq_some_iff.mp hmap
    obtain ⟨hin, hid⟩ := Keyed.get?_eq_some.mp hget
    refine List.mem_map.mpr ⟨row', hin, ?_⟩
    rw [indexed, indexed, hid]
    congr
  · intro hdoc
    obtain ⟨row, hin, rfl⟩ := List.mem_map.mp hdoc
    have hdocs := hexact row.id
    have hr : (feed s w).rows row.id = some ⟨row.updatedAt, row⟩ := by
      show ((w.rows s).get? row.id).map _ = _
      rw [Keyed.get?_of_mem hin]
      rfl
    rw [hr] at hdocs
    have hmap : (w.index.get? (docId s.schema? row.id)).map (·.source) = some (document e s row) := hdocs
    obtain ⟨doc, hget, hsource⟩ := Option.map_eq_some_iff.mp hmap
    obtain ⟨hdoc, hid⟩ := Keyed.get?_eq_some.mp hget
    have heq : indexed s row = doc := by
      cases doc
      rw [indexed, ← hid, ← hsource]
    rw [heq]
    refine List.mem_filter.mpr ⟨hdoc, ?_⟩
    rw [← heq]
    exact (selects_document s s row).mpr rfl

/-! ## Sweeps -/

/-- The sweep `j` is not about to delete the document of the row. -/
def Spares (s : Scope e.scopeKind) (id : UUID) (j : ℕ) (w : SearchWorld e) : Prop :=
  ∀ s' orphans, w.sweeps j = some ⟨s', .deleting orphans⟩ → docId s.schema? id ∉ orphans

theorem Spares.setSweep {id : UUID} {j k : ℕ} {run : Option (SweepRun e)} (h : Spares s id j w)
    (hrun : k = j → ∀ s' orphans, run = some ⟨s', .deleting orphans⟩ → docId s.schema? id ∉ orphans) :
    Spares s id j (w.setSweep k run) := by
  intro s' orphans hj
  have hj' : Function.update w.sweeps k run j = some ⟨s', .deleting orphans⟩ := hj
  by_cases hjk : j = k
  · subst hjk
    rw [Function.update_self] at hj'
    exact hrun rfl s' orphans hj'
  · rw [Function.update_of_ne hjk] at hj'
    exact h s' orphans hj'

/-- While the row is there, no sweep finds it to be missing. -/
theorem Spares.effect {id : UUID} {j : ℕ} {ev : SearchEvent e} (hc : Consistent w)
    (h : Spares s id j w) (hrow : (w.rows s).get? id ≠ none) (heffect : w.Effect ev w') :
    Spares s id j w' := by
  cases heffect with
  | idle | commit | refresh | getWatermark | noRows | selectRows | index | setWatermark | failReconcile =>
    exact h
  | noIds | scanIds | noOrphans | logSwept | failSweep => exact h.setSweep nofun
  | sourceIds k s' esIds hk =>
    apply h.setSweep
    rintro - s₁ orphans hrun hin
    cases hrun
    have ⟨hesIds, hmissing⟩ := List.mem_filter.mp hin
    obtain ⟨id', hid'⟩ := hc.esIds k s' esIds (.inl hk) _ hesIds
    obtain ⟨rfl, -⟩ := docId_injective hid'
    have hsource : docId s.schema? id ∈ (w.rows s).rows.map fun row => docId s.schema? row.id := by
      rw [docId_mem_sourceIds]
      show ((w.rows s).get? id).map _ ≠ none
      simpa using hrow
    exact absurd hsource (of_decide_eq_true hmissing)
  | delete k i s' orphans oid hk hoid =>
    have hkeep : Spares s id j { w with index := w.index.erase oid } := h
    apply hkeep.setSweep
    rintro rfl s₁ orphans₁ hrun hin
    cases hrun
    exact h s' orphans hk (List.mem_of_mem_eraseIdx hin)

end

/-! ## Convergence -/

/-- In every run whose steps all meet `ok`: once no transaction writes to the scope any more, a
reconcile run and after it a sweep, whatever goes on beside them, leave one document for each row,
with what the row holds, and no other document of the scope. -/
def ConvergesIf (ok : SearchWorld e → SearchEvent e → Prop) (s : Scope e.scopeKind) : Prop :=
  ∀ (before during after : List (SearchEvent e)) (k j : ℕ) (w₀ w₁ w₂ : SearchWorld e),
    w₀ = run SearchWorld.step .empty before → w₁ = run SearchWorld.step w₀ during →
    w₂ = run SearchWorld.step w₁ after →
    Along SearchWorld.step ok .empty (before ++ during ++ after) →
    (∀ ev ∈ during ++ after, ∀ start writes, ev ≠ .commit s start writes) →
    w₀.reconciles k = none → w₁.reconciles k = some ⟨s, .succeeded⟩ →
    w₁.sweeps j = none → w₂.sweeps j = some ⟨s, .succeeded⟩ →
    (w₂.documents s).Perm ((w₂.rows s).rows.map (indexed s))

/-- A sweep that begins after `before` deletes no document of a row that is there from then on. -/
def SweepsSpareRows (s : Scope e.scopeKind) : Prop :=
  ∀ (before sweep : List (SearchEvent e)) (id : UUID) (j i : ℕ) (w₀ w₁ : SearchWorld e),
    w₀ = run SearchWorld.step .empty before → w₁ = run SearchWorld.step w₀ sweep →
    w₀.sweeps j = none → Along SearchWorld.step (fun w _ => (w.rows s).get? id ≠ none) w₀ sweep →
    (w₁.step (.delete j i)).index.get? (docId s.schema? id) = w₁.index.get? (docId s.schema? id)

theorem sweepsSpareRows (s : Scope e.scopeKind) : SweepsSpareRows s := by
  rintro before sweep id j i w₀ w₁ rfl rfl hj halong
  have hconsistent : Consistent (run SearchWorld.step (.empty : SearchWorld e) before) :=
    run_invariant_of_step (fun w ev h => h.step ev) before consistent_empty
  have hstep : ∀ (w : SearchWorld e) (ev : SearchEvent e), Consistent w ∧ Spares s id j w →
      (w.rows s).get? id ≠ none → Consistent (w.step ev) ∧ Spares s id j (w.step ev) := by
    intro w ev h hrow
    exact ⟨h.1.step ev, h.2.effect h.1 hrow (w.effect_step ev)⟩
  have hstart : Spares s id j (run SearchWorld.step (.empty : SearchWorld e) before) := by
    intro s' orphans hsome
    rw [hj] at hsome
    cases hsome
  have hspares := (run_invariant hstep ⟨hconsistent, hstart⟩ halong).2
  generalize run SearchWorld.step (run SearchWorld.step .empty before) sweep = w at hspares ⊢
  rw [SearchWorld.step]
  split
  · next s' orphans hk =>
    split
    · next oid hoid =>
      show (w.index.erase oid).get? (docId s.schema? id) = _
      rw [Keyed.get?_erase, if_neg]
      rintro rfl
      exact hspares s' orphans hk (List.mem_of_getElem? hoid)
    · rfl
  · rfl

/-- A scope converges along every run in which its transactions, its reconcile runs and the scans of its
sweeps are on time. -/
theorem index_converges (e : EntityType) (s : Scope e.scopeKind) :
    ConvergesIf (OnTime s) s ∧ SweepsSpareRows s := by
  refine ⟨?_, sweepsSpareRows s⟩
  rintro before during after k j w₀ w₁ w₂ rfl rfl rfl halong hquiet hk₀ hk₁ hj₁ hj₂
  have ⟨hfront, hafter⟩ := along_append.mp halong
  have ⟨hbefore, hduring⟩ := along_append.mp hfront
  rw [run_append] at hafter
  have hstep : ∀ (w : SearchWorld e) (ev : SearchEvent e), Inv s w → OnTime s w ev → Inv s (w.step ev) :=
    fun w ev h hok => h.step hok
  have h₀ := run_invariant hstep inv_empty hbefore
  have h₁ := run_invariant hstep h₀ hduring
  have h₂ := run_invariant hstep h₁ hafter
  have hpass := steps_of_run h₀ hduring fun ev hev => hquiet ev (List.mem_append_left _ hev)
  have hsweep := steps_of_run h₁ hafter fun ev hev => hquiet ev (List.mem_append_right _ hev)
  exact documents_perm h₂.consistent fun id =>
    Feed.exact_of_pass_of_sweep h₀.sound hpass (passes_eq_none hk₀)
      ((passes_eq hk₁).trans (passOf_succeeded s)) hsweep (sweeps_eq_none hj₁)
      ((sweeps_eq hj₂).trans (sweepOf_succeeded s)) id

/-! ## A transaction that began early and commits late -/

def firstTenant : RowWrite .tenant :=
  .put ⟨1, by decide⟩ (⟨"Demo SACCO", "demo", "tenant_demo", "active"⟩ : TenantColumns)

def lateTenant : RowWrite .tenant :=
  .put ⟨2, by decide⟩ (⟨"Late SACCO", "late", "tenant_late", "active"⟩ : TenantColumns)

/-- A run of `_reconcile_entity` that indexes one document. -/
def reconcileOne (k : ℕ) : List (SearchEvent .tenant) :=
  [.getWatermark k .platform, .selectRows k, .index k 0, .setWatermark k]

theorem index_converges_sample :
    let w : SearchWorld .tenant := run SearchWorld.step .empty
      ([.commit .platform 5 [firstTenant]] ++ reconcileOne 0 ++
        [.refresh, .scanIds 0 .platform, .sourceIds 0])
    (w.documents .platform).Perm ((w.rows .platform).rows.map (indexed (e := .tenant) .platform)) := by
  apply (index_converges .tenant .platform).1 [.commit .platform 5 [firstTenant]] (reconcileOne 0)
    [.refresh, .scanIds 0 .platform, .sourceIds 0] 0 0 _ _ _ rfl rfl rfl
  · refine ⟨?_, ?_, trivial, trivial, trivial, trivial, fun _ => refreshed_refresh _ _, trivial, trivial⟩
    · intro _ id columns _
      refine ⟨Nat.zero_le 5, ?_, ?_⟩
      · intro k docs next hk
        cases hk
      · intro k orphans hk
        cases hk
    · intro _ k phase hk
      cases hk
  · simp [reconcileOne]
  · rfl
  · rfl
  · rfl
  · rfl

/-- The late transaction is stamped before the watermark when it commits. -/
theorem index_misses_late_commit :
    ¬ ConvergesIf (e := .tenant) (fun _ _ => True) .platform := by
  intro h
  have hperm := h
    ([.commit .platform 5 [firstTenant]] ++ reconcileOne 0 ++ [.commit .platform 1 [lateTenant]])
    (reconcileOne 1) [.refresh, .scanIds 0 .platform, .sourceIds 0] 1 0 _ _ _ rfl rfl rfl
    (by simp [Along, reconcileOne]) (by simp [reconcileOne]) rfl rfl rfl rfl
  have hlength := hperm.length_eq
  revert hlength
  decide +kernel

end SaccoPlatform.Search
