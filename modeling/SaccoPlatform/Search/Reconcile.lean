import Mathlib.Data.List.Sort
import SaccoPlatform.Lib.Keyed
import SaccoPlatform.Lib.Feed
import SaccoPlatform.Search.Documents

/-!
# Reconcile and sweep

`app/core/search/reconcile.py` and `sweep.py`, for one entity: its rows in every scope, its
watermarks and its index. Entities share none of these. Reconcile runs and sweep runs go on beside
each other and beside the transactions of writers; a run is cut at its `await`s, and at each of them
it may fail or be lost. A write or a delete by id takes effect at once, but a scan finds the documents
as they were at the last refresh of the index, which neither job asks for.
-/

namespace SaccoPlatform.Search

open Lib

/-- A document of the index: its `_id` and its `_source`. -/
structure IndexedDoc where
  id : String
  source : Document
deriving DecidableEq

/-- How far a run of `_reconcile_entity` is: it has read the watermark, or it has documents left to
index before it sets the next watermark, or it has returned. -/
inductive ReconcilePhase where
  | gotWatermark (wm : ℕ)
  | indexing (docs : List IndexedDoc) (next : ℕ)
  | succeeded

/-- How far a run of `_sweep_entity` is: it has the ids of the index, or it has orphans left to
delete, or it has returned. -/
inductive SweepPhase where
  | gotIds (esIds : List String)
  | deleting (orphans : List String)
  | succeeded

variable (e : EntityType)

structure ReconcileRun where
  scope : Scope e.scopeKind
  phase : ReconcilePhase

structure SweepRun where
  scope : Scope e.scopeKind
  phase : SweepPhase

/-- What a transaction does to a row. -/
inductive RowWrite where
  | put (id : UUID) (columns : Columns e)
  | delete (id : UUID)

/-- The table of the entity in each scope, the rows of `platform.search_index_state`, the index with
what was in it at its last refresh, and the runs, each under a number of its own. -/
structure SearchWorld where
  rows : Scope e.scopeKind → Keyed (SourceRow.id (e := e))
  watermark : Scope e.scopeKind → Option ℕ
  index : Keyed IndexedDoc.id
  searchable : List IndexedDoc
  reconciles : ℕ → Option (ReconcileRun e)
  sweeps : ℕ → Option (SweepRun e)

/-- A transaction commits, the index refreshes, or a run takes its next step. -/
inductive SearchEvent where
  | commit (scope : Scope e.scopeKind) (start : ℕ) (writes : List (RowWrite e))
  | refresh
  | getWatermark (k : ℕ) (scope : Scope e.scopeKind)
  | selectRows (k : ℕ)
  | index (k i : ℕ)
  | setWatermark (k : ℕ)
  | failReconcile (k : ℕ)
  | scanIds (k : ℕ) (scope : Scope e.scopeKind)
  | sourceIds (k : ℕ)
  | delete (k i : ℕ)
  | logSwept (k : ℕ)
  | failSweep (k : ℕ)

variable {e}

/-! ## The jobs -/

/-- `_EPOCH`. -/
def epoch : ℕ := 0

/-- `next_watermark`. -/
def nextWatermark (rows : List (SourceRow e)) (current : ℕ) : ℕ :=
  match rows with
  | [] => current
  | row :: rest => rest.foldl (fun latest r => max latest r.updatedAt) row.updatedAt

/-- `WHERE updated_at >= :wm ORDER BY updated_at`. -/
def rowsSince (rows : Keyed (SourceRow.id (e := e))) (wm : ℕ) : List (SourceRow e) :=
  (rows.rows.filter fun r => wm ≤ r.updatedAt).insertionSort fun r r' => r.updatedAt ≤ r'.updatedAt

/-- The document of a row, under its id. -/
def indexed (s : Scope e.scopeKind) (row : SourceRow e) : IndexedDoc :=
  ⟨docId s.schema? row.id, document e s row⟩

/-- `orphan_ids`. -/
def orphanIds (esIds sourceIds : List String) : List String := esIds.filter fun id => id ∉ sourceIds

/-- A write of a transaction that started at `start`; `updated_at` is `now()`. -/
def RowWrite.apply (start : ℕ) (rows : Keyed (SourceRow.id (e := e))) :
    RowWrite e → Keyed (SourceRow.id (e := e))
  | put id columns => rows.store ⟨id, start, columns⟩
  | delete id => rows.erase id

namespace SearchWorld

/-- Before the first transaction. -/
def empty : SearchWorld e where
  rows _ := ⟨[], List.nodup_nil⟩
  watermark _ := none
  index := ⟨[], List.nodup_nil⟩
  searchable := []
  reconciles _ := none
  sweeps _ := none

/-- `_get_watermark`. -/
def getWatermark (w : SearchWorld e) (s : Scope e.scopeKind) : ℕ := (w.watermark s).getD epoch

/-- The documents of a scope that the index holds. -/
def documents (w : SearchWorld e) (s : Scope e.scopeKind) : List IndexedDoc :=
  w.index.rows.filter fun doc => s.selects doc.source

/-- The documents that the query of a scope finds. -/
def hits (w : SearchWorld e) (s : Scope e.scopeKind) : List IndexedDoc :=
  w.searchable.filter fun doc => s.selects doc.source

def setReconcile (w : SearchWorld e) (k : ℕ) (run : Option (ReconcileRun e)) : SearchWorld e :=
  { w with reconciles := Function.update w.reconciles k run }

def setSweep (w : SearchWorld e) (k : ℕ) (run : Option (SweepRun e)) : SearchWorld e :=
  { w with sweeps := Function.update w.sweeps k run }

/-- An event; where the run is not at the `await` that it names, nothing happens. -/
def step (w : SearchWorld e) : SearchEvent e → SearchWorld e
  | .commit s start writes =>
    { w with rows := Function.update w.rows s (writes.foldl (RowWrite.apply start) (w.rows s)) }
  | .refresh => { w with searchable := w.index.rows }
  | .getWatermark k s =>
    match w.reconciles k with
    | none => w.setReconcile k (some ⟨s, .gotWatermark (w.getWatermark s)⟩)
    | some _ => w
  | .selectRows k =>
    match w.reconciles k with
    | some ⟨s, .gotWatermark wm⟩ =>
      let rows := rowsSince (w.rows s) wm
      if rows.isEmpty then w.setReconcile k (some ⟨s, .succeeded⟩)
      else w.setReconcile k (some ⟨s, .indexing (rows.map (indexed s)) (nextWatermark rows wm)⟩)
    | _ => w
  | .index k i =>
    -- the actions of the bulk request take effect one by one
    match w.reconciles k with
    | some ⟨s, .indexing docs next⟩ =>
      match docs[i]? with
      | some doc =>
        { w with index := w.index.store doc }.setReconcile k
          (some ⟨s, .indexing (docs.eraseIdx i) next⟩)
      | none => w
    | _ => w
  | .setWatermark k =>
    match w.reconciles k with
    | some ⟨s, .indexing [] next⟩ =>
      { w with watermark := Function.update w.watermark s (some next) }.setReconcile k
        (some ⟨s, .succeeded⟩)
    | _ => w
  | .failReconcile k =>
    match w.reconciles k with
    | none | some ⟨_, .succeeded⟩ => w
    | some _ => w.setReconcile k none
  | .scanIds k s =>
    match w.sweeps k with
    | none =>
      let esIds := (w.hits s).map (·.id)
      if esIds.isEmpty then w.setSweep k (some ⟨s, .succeeded⟩)
      else w.setSweep k (some ⟨s, .gotIds esIds⟩)
    | some _ => w
  | .sourceIds k =>
    match w.sweeps k with
    | some ⟨s, .gotIds esIds⟩ =>
      let orphans := orphanIds esIds ((w.rows s).rows.map fun row => docId s.schema? row.id)
      if orphans.isEmpty then w.setSweep k (some ⟨s, .succeeded⟩)
      else w.setSweep k (some ⟨s, .deleting orphans⟩)
    | _ => w
  | .delete k i =>
    match w.sweeps k with
    | some ⟨s, .deleting orphans⟩ =>
      match orphans[i]? with
      | some oid =>
        -- a document that is gone is ignored: `ignore_status=404`
        { w with index := w.index.erase oid }.setSweep k (some ⟨s, .deleting (orphans.eraseIdx i)⟩)
      | none => w
    | _ => w
  | .logSwept k =>
    match w.sweeps k with
    | some ⟨s, .deleting []⟩ => w.setSweep k (some ⟨s, .succeeded⟩)
    | _ => w
  | .failSweep k =>
    match w.sweeps k with
    | none | some ⟨_, .succeeded⟩ => w
    | some _ => w.setSweep k none

/-! ## What an event does -/

/-- The effect of an event, with what the run has found. -/
inductive Effect (w : SearchWorld e) : SearchEvent e → SearchWorld e → Prop where
  | idle (ev : SearchEvent e) : Effect w ev w
  | commit (s : Scope e.scopeKind) (start : ℕ) (writes : List (RowWrite e)) :
      Effect w (.commit s start writes)
        { w with rows := Function.update w.rows s (writes.foldl (RowWrite.apply start) (w.rows s)) }
  | refresh : Effect w .refresh { w with searchable := w.index.rows }
  | getWatermark (k : ℕ) (s : Scope e.scopeKind) (hk : w.reconciles k = none) :
      Effect w (.getWatermark k s) (w.setReconcile k (some ⟨s, .gotWatermark (w.getWatermark s)⟩))
  | noRows (k : ℕ) (s : Scope e.scopeKind) (wm : ℕ)
      (hk : w.reconciles k = some ⟨s, .gotWatermark wm⟩) (hrows : rowsSince (w.rows s) wm = []) :
      Effect w (.selectRows k) (w.setReconcile k (some ⟨s, .succeeded⟩))
  | selectRows (k : ℕ) (s : Scope e.scopeKind) (wm : ℕ)
      (hk : w.reconciles k = some ⟨s, .gotWatermark wm⟩) :
      Effect w (.selectRows k) (w.setReconcile k (some ⟨s, .indexing
        ((rowsSince (w.rows s) wm).map (indexed s)) (nextWatermark (rowsSince (w.rows s) wm) wm)⟩))
  | index (k i : ℕ) (s : Scope e.scopeKind) (docs : List IndexedDoc) (next : ℕ) (doc : IndexedDoc)
      (hk : w.reconciles k = some ⟨s, .indexing docs next⟩) (hdoc : docs[i]? = some doc) :
      Effect w (.index k i) ({ w with index := w.index.store doc }.setReconcile k
        (some ⟨s, .indexing (docs.eraseIdx i) next⟩))
  | setWatermark (k : ℕ) (s : Scope e.scopeKind) (next : ℕ)
      (hk : w.reconciles k = some ⟨s, .indexing [] next⟩) :
      Effect w (.setWatermark k)
        ({ w with watermark := Function.update w.watermark s (some next) }.setReconcile k
          (some ⟨s, .succeeded⟩))
  | failReconcile (k : ℕ) (run : ReconcileRun e) (hk : w.reconciles k = some run)
      (hrun : run.phase ≠ .succeeded) :
      Effect w (.failReconcile k) (w.setReconcile k none)
  | noIds (k : ℕ) (s : Scope e.scopeKind) (hk : w.sweeps k = none) (hhits : w.hits s = []) :
      Effect w (.scanIds k s) (w.setSweep k (some ⟨s, .succeeded⟩))
  | scanIds (k : ℕ) (s : Scope e.scopeKind) (hk : w.sweeps k = none) :
      Effect w (.scanIds k s) (w.setSweep k (some ⟨s, .gotIds ((w.hits s).map (·.id))⟩))
  | noOrphans (k : ℕ) (s : Scope e.scopeKind) (esIds : List String)
      (hk : w.sweeps k = some ⟨s, .gotIds esIds⟩)
      (horphans : orphanIds esIds ((w.rows s).rows.map fun row => docId s.schema? row.id) = []) :
      Effect w (.sourceIds k) (w.setSweep k (some ⟨s, .succeeded⟩))
  | sourceIds (k : ℕ) (s : Scope e.scopeKind) (esIds : List String)
      (hk : w.sweeps k = some ⟨s, .gotIds esIds⟩) :
      Effect w (.sourceIds k) (w.setSweep k (some ⟨s, .deleting
        (orphanIds esIds ((w.rows s).rows.map fun row => docId s.schema? row.id))⟩))
  | delete (k i : ℕ) (s : Scope e.scopeKind) (orphans : List String) (oid : String)
      (hk : w.sweeps k = some ⟨s, .deleting orphans⟩) (hoid : orphans[i]? = some oid) :
      Effect w (.delete k i)
        ({ w with index := w.index.erase oid }.setSweep k (some ⟨s, .deleting (orphans.eraseIdx i)⟩))
  | logSwept (k : ℕ) (s : Scope e.scopeKind) (hk : w.sweeps k = some ⟨s, .deleting []⟩) :
      Effect w (.logSwept k) (w.setSweep k (some ⟨s, .succeeded⟩))
  | failSweep (k : ℕ) (run : SweepRun e) (hk : w.sweeps k = some run) :
      Effect w (.failSweep k) (w.setSweep k none)

theorem effect_step (w : SearchWorld e) (ev : SearchEvent e) : Effect w ev (step w ev) := by
  cases ev with
  | commit s start writes => exact .commit s start writes
  | refresh => exact .refresh
  | getWatermark k s =>
    rw [step]
    split
    · exact .getWatermark k s ‹_›
    · exact .idle _
  | selectRows k =>
    rw [step]
    split
    · next s wm hk =>
      by_cases hrows : rowsSince (w.rows s) wm = []
      · simp only [hrows, List.isEmpty_nil, if_true]
        exact .noRows k s wm hk hrows
      · simp only [List.isEmpty_iff, hrows, if_false]
        exact .selectRows k s wm hk
    · exact .idle _
  | index k i =>
    rw [step]
    split
    · next s docs next hk =>
      split
      · exact .index k i s docs next _ hk ‹_›
      · exact .idle _
    · exact .idle _
  | setWatermark k =>
    rw [step]
    split
    · exact .setWatermark k _ _ ‹_›
    · exact .idle _
  | failReconcile k =>
    rw [step]
    split
    · exact .idle _
    · exact .idle _
    · next run hrun hk =>
      apply Effect.failReconcile k run hk
      intro hphase
      cases run
      cases hphase
      exact hrun _ rfl
  | scanIds k s =>
    rw [step]
    split
    · next hk =>
      by_cases hhits : w.hits s = []
      · simp only [hhits, List.map_nil, List.isEmpty_nil, if_true]
        exact .noIds k s hk hhits
      · simp only [List.isEmpty_iff, List.map_eq_nil_iff, hhits, if_false]
        exact .scanIds k s hk
    · exact .idle _
  | sourceIds k =>
    rw [step]
    split
    · next s esIds hk =>
      by_cases horphans : orphanIds esIds ((w.rows s).rows.map fun row => docId s.schema? row.id) = []
      · simp only [horphans, List.isEmpty_nil, if_true]
        exact .noOrphans k s esIds hk horphans
      · simp only [List.isEmpty_iff, horphans, if_false]
        exact .sourceIds k s esIds hk
    · exact .idle _
  | delete k i =>
    rw [step]
    split
    · next s orphans hk =>
      split
      · exact .delete k i s orphans _ hk ‹_›
      · exact .idle _
    · exact .idle _
  | logSwept k =>
    rw [step]
    split
    · exact .logSwept k _ ‹_›
    · exact .idle _
  | failSweep k =>
    rw [step]
    split
    · exact .idle _
    · exact .idle _
    · exact .failSweep k _ ‹_›

end SearchWorld

end SaccoPlatform.Search
