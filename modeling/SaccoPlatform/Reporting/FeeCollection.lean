import SaccoPlatform.Lib.Joins
import SaccoPlatform.Lib.Session
import SaccoPlatform.Reporting.Schema
import Mathlib.Algebra.Group.Submonoid.BigOperators

/-!
# The fee collection report

The query of `FeeCollectionService.materialize` (`app/modules/reporting/services/fee_collection.py`):
the assessments of a period by fee type and target type, what was waived of them, and what has been
collected on them. It joins the assessments with a subquery that has summed the collections already.
The report is what the plain sums over the two tables are: no amount is counted twice by the joins,
and none is lost.
-/

namespace SaccoPlatform.Reporting

open Lib Session

/-- The tables behind the report, with the column that only it reads. -/
structure FeeBooks where
  tables : Tables
  /-- `fee_assessments.assessed_at`. -/
  assessedAt : Uuid → Instant
  fee_types_pkey : (tables.feeTypes.map (·.id)).Nodup
  fee_assessments_pkey : (tables.feeAssessments.map (·.id)).Nodup
  fk_fa_fee_type : ∀ a ∈ tables.feeAssessments, a.feeTypeId ∈ tables.feeTypes.map (·.id)

/-- What the report groups by: `(fee_type_id, target_type)`. -/
abbrev FeeKey := Uuid × String

def feeKey (a : FeeAssessment) : FeeKey := (a.feeTypeId, a.targetType)

/-- A row of `collections_subq`. -/
structure CollectedGroup where
  feeTypeId : Uuid
  targetType : String
  collectedTotal : ℚ

def CollectedGroup.key (c : CollectedGroup) : FeeKey := (c.feeTypeId, c.targetType)

/-- A row of the query. -/
structure FeeTotals where
  feeTypeId : Uuid
  feeTypeName : String
  targetType : String
  assessedTotal : ℚ
  waivedTotal : ℚ
  collectedTotal : ℚ

/-- What `report_fee_collection_rows` says of a group. -/
structure FeeCollectionRow where
  feeTypeId : Uuid
  feeTypeName : String
  targetType : String
  assessedTotal : Money
  collectedTotal : Money
  outstandingTotal : Money
  waivedTotal : Money
deriving DecidableEq

def FeeCollectionRow.key (r : FeeCollectionRow) : FeeKey := (r.feeTypeId, r.targetType)

/-- The collections joined with their assessments, those of the period, by group. -/
def FeeBooks.collectionsSubq (b : FeeBooks) (inPeriod : Instant → Bool) : List CollectedGroup :=
  let joined := (innerJoin (fun (c : FeeCollection) (a : FeeAssessment) => a.id = c.feeAssessmentId)
    b.tables.feeCollections b.tables.feeAssessments).filter fun row => inPeriod (b.assessedAt row.2.id)
  (groupRows (fun row => feeKey row.2) joined).map fun g =>
    ⟨g.1.1, g.1.2, (g.2.map fun row => row.1.amount.val).sum⟩

/-- The fee types joined with their assessments and, from outside, with the subquery; those of the
period, by fee type, target type and collected total. -/
def FeeBooks.feeTotals (b : FeeBooks) (inPeriod : Instant → Bool) : List FeeTotals :=
  let assessed := innerJoin (fun (t : FeeType) (a : FeeAssessment) => a.feeTypeId = t.id)
    b.tables.feeTypes b.tables.feeAssessments
  let joined := (leftJoin (fun (row : FeeType × FeeAssessment) (c : CollectedGroup) =>
      c.feeTypeId = row.1.id ∧ c.targetType = row.2.targetType) assessed
    (b.collectionsSubq inPeriod)).filter fun row => inPeriod (b.assessedAt row.1.2.id)
  let groups := groupRows (fun row =>
    (row.1.1.id, row.1.1.name, row.1.2.targetType, row.2.map (·.collectedTotal))) joined
  (groups.map fun g =>
    { feeTypeId := g.1.1
      feeTypeName := g.1.2.1
      targetType := g.1.2.2.1
      assessedTotal := (g.2.map fun row => row.1.2.amount.val).sum
      waivedTotal := sumWhere (fun row => row.1.2.status = .waived) (fun row => row.1.2.amount.val) g.2
      collectedTotal := g.1.2.2.2.getD 0 : FeeTotals }).insertionSort
    fun x y => x.feeTypeName < y.feeTypeName ∨
      x.feeTypeName = y.feeTypeName ∧ x.targetType ≤ y.targetType

/-- The row of a group, when its figures fit the columns. -/
def feeCollectionRow? (t : FeeTotals) : Option FeeCollectionRow := do
  let assessedTotal ← Numeric.ofRat? t.assessedTotal
  let collectedTotal ← Numeric.ofRat? t.collectedTotal
  let outstandingTotal ← Numeric.ofRat? (t.assessedTotal - t.collectedTotal - t.waivedTotal)
  let waivedTotal ← Numeric.ofRat? t.waivedTotal
  pure {
    feeTypeId := t.feeTypeId
    feeTypeName := t.feeTypeName
    targetType := t.targetType
    assessedTotal
    collectedTotal
    outstandingTotal
    waivedTotal }

/-- `period_start_dt <= assessed_at < period_end_dt`. -/
def Period.covers (period : Period) (i : Instant) : Bool :=
  period.periodStart.midnight ≤ i ∧ i < period.periodEnd.midnight + microsPerDay

namespace FeeCollectionService

/-- The query of `materialize`. -/
def select (period : Period) : Session FeeBooks Err (List FeeCollectionRow) := do
  let dayEnd ← orRaise period.periodEnd.nextMidnight? .overflowError
  let b ← get
  orAbort ((b.feeTotals fun i => period.periodStart.midnight ≤ i ∧ i < dayEnd).mapM
    feeCollectionRow?) .numericOverflow

end FeeCollectionService

/-! ## The plain sums -/

section

variable {b : FeeBooks} {inPeriod : Instant → Bool} {k : FeeKey}

/-- The assessments in question. -/
def FeeBooks.assessedIn (b : FeeBooks) (inPeriod : Instant → Bool) : List FeeAssessment :=
  b.tables.feeAssessments.filter fun a => inPeriod (b.assessedAt a.id)

def FeeBooks.assessedSum (b : FeeBooks) (inPeriod : Instant → Bool) (k : FeeKey) : ℚ :=
  sumWhere (fun a => feeKey a = k) (·.amount.val) (b.assessedIn inPeriod)

def FeeBooks.waivedSum (b : FeeBooks) (inPeriod : Instant → Bool) (k : FeeKey) : ℚ :=
  sumWhere (fun a => feeKey a = k ∧ a.status = .waived) (·.amount.val) (b.assessedIn inPeriod)

/-- What was collected on the assessments in question, at whatever time. -/
def FeeBooks.collectedSum (b : FeeBooks) (inPeriod : Instant → Bool) (k : FeeKey) : ℚ :=
  sumWhere (fun c => (b.assessedIn inPeriod).any fun a => a.id = c.feeAssessmentId ∧ feeKey a = k)
    (·.amount.val) b.tables.feeCollections

/-! ## The subquery -/

theorem nodup_collectionsSubq : ((b.collectionsSubq inPeriod).map (·.key)).Nodup := by
  unfold FeeBooks.collectionsSubq
  rw [List.map_map]
  show ((groupRows _ _).map Prod.fst).Nodup
  rw [map_fst_groupRows]
  exact List.nodup_dedup _

/-- What was collected, as a sum over the join. -/
theorem sumWhere_collected (k : FeeKey) :
    sumWhere (fun row => feeKey row.2 = k) (fun row => row.1.amount.val)
      ((innerJoin (fun (c : FeeCollection) (a : FeeAssessment) => a.id = c.feeAssessmentId)
        b.tables.feeCollections b.tables.feeAssessments).filter
          fun row => inPeriod (b.assessedAt row.2.id)) = b.collectedSum inPeriod k := by
  rw [sumWhere_filter]
  refine (@sumWhere_innerJoin_left FeeCollection FeeAssessment Uuid ℚ _ _ (·.id) (·.feeAssessmentId)
    b.tables.feeCollections b.tables.feeAssessments b.fee_assessments_pkey _ (·.amount.val)).trans ?_
  apply sumWhere_congr
  intro c _
  unfold FeeBooks.assessedIn
  rw [List.any_filter]
  congr 1
  funext a
  cases inPeriod (b.assessedAt a.id) <;> simp

theorem collectedTotal_eq {c : CollectedGroup} (hc : c ∈ b.collectionsSubq inPeriod) :
    c.collectedTotal = b.collectedSum inPeriod c.key := by
  obtain ⟨g, hg, rfl⟩ := List.mem_map.mp hc
  obtain ⟨-, hrows⟩ := mem_groupRows.mp hg
  show (g.2.map fun row => row.1.amount.val).sum = b.collectedSum inPeriod g.1
  rw [hrows, ← sumWhere_collected]
  rfl

/-- A group that the subquery does not have has nothing collected. -/
theorem collectedSum_of_not_mem (h : k ∉ (b.collectionsSubq inPeriod).map (·.key)) :
    b.collectedSum inPeriod k = 0 := by
  rw [← sumWhere_collected, sumWhere, List.filter_eq_nil_iff.mpr]
  · rfl
  · intro row hrow hkey
    apply h
    unfold FeeBooks.collectionsSubq
    rw [List.map_map]
    show k ∈ (groupRows _ _).map Prod.fst
    rw [map_fst_groupRows, List.mem_dedup]
    exact List.mem_map.mpr ⟨row, hrow, by simpa using hkey⟩

/-- What the outer join puts beside a group. -/
theorem collected_beside (k : FeeKey) :
    (((b.collectionsSubq inPeriod).find? fun c => c.key = k).map (·.collectedTotal)).getD 0
      = b.collectedSum inPeriod k := by
  cases hfind : (b.collectionsSubq inPeriod).find? fun c => c.key = k with
  | none =>
    rw [List.find?_eq_none] at hfind
    rw [collectedSum_of_not_mem]
    · rfl
    · intro hmem
      obtain ⟨c, hc, hkey⟩ := List.mem_map.mp hmem
      exact hfind c hc (decide_eq_true hkey)
  | some c =>
    have hkey : c.key = k := by simpa using List.find?_some hfind
    rw [← hkey]
    exact collectedTotal_eq (List.mem_of_find?_eq_some hfind)

/-! ## The query -/

/-- The rows that the query groups. -/
def FeeBooks.joined (b : FeeBooks) (inPeriod : Instant → Bool) :
    List ((FeeType × FeeAssessment) × Option CollectedGroup) :=
  ((innerJoin (fun (t : FeeType) (a : FeeAssessment) => a.feeTypeId = t.id)
    b.tables.feeTypes b.tables.feeAssessments).filter fun row => inPeriod (b.assessedAt row.2.id)).map
      fun row => (row, (b.collectionsSubq inPeriod).find? fun c => c.key = (row.1.id, row.2.targetType))

/-- What the query groups by. -/
def groupKey (row : (FeeType × FeeAssessment) × Option CollectedGroup) :
    Uuid × String × String × Option ℚ :=
  (row.1.1.id, row.1.1.name, row.1.2.targetType, row.2.map (·.collectedTotal))

/-- The outer join leaves the rows as they are. -/
theorem leftJoin_collectionsSubq (rows : List (FeeType × FeeAssessment)) :
    leftJoin (fun (row : FeeType × FeeAssessment) (c : CollectedGroup) =>
        c.feeTypeId = row.1.id ∧ c.targetType = row.2.targetType) rows (b.collectionsSubq inPeriod)
      = rows.map fun row =>
          (row, (b.collectionsSubq inPeriod).find? fun c => c.key = (row.1.id, row.2.targetType)) := by
  rw [← leftJoin_key nodup_collectionsSubq]
  congr 1
  funext row c
  simp [CollectedGroup.key, Prod.ext_iff]

theorem mem_joined {row : (FeeType × FeeAssessment) × Option CollectedGroup}
    (h : row ∈ b.joined inPeriod) :
    row.1.1 ∈ b.tables.feeTypes ∧ row.1.2 ∈ b.assessedIn inPeriod ∧ row.1.2.feeTypeId = row.1.1.id ∧
      row.2 = (b.collectionsSubq inPeriod).find? fun c => c.key = feeKey row.1.2 := by
  obtain ⟨⟨t, a⟩, hrow, rfl⟩ := List.mem_map.mp h
  obtain ⟨hjoin, hperiod⟩ := List.mem_filter.mp hrow
  obtain ⟨ht, ha, hon⟩ := mem_innerJoin.mp hjoin
  have hid : a.feeTypeId = t.id := by simpa using hon
  refine ⟨ht, List.mem_filter.mpr ⟨ha, hperiod⟩, hid, ?_⟩
  show _ = (b.collectionsSubq inPeriod).find? fun c => c.key = (a.feeTypeId, a.targetType)
  rw [hid]

/-- Every assessment in question is joined with its fee type. -/
theorem exists_joined {a : FeeAssessment} (ha : a ∈ b.assessedIn inPeriod) :
    ∃ row ∈ b.joined inPeriod, row.1.2 = a := by
  obtain ⟨hmem, hperiod⟩ := List.mem_filter.mp ha
  obtain ⟨t, ht, hid⟩ := List.mem_map.mp (b.fk_fa_fee_type a hmem)
  refine ⟨_, List.mem_map.mpr ⟨(t, a), List.mem_filter.mpr ⟨?_, hperiod⟩, rfl⟩, rfl⟩
  rw [mem_innerJoin]
  exact ⟨ht, hmem, decide_eq_true hid.symm⟩

/-- Rows are grouped together exactly when fee type and target type agree: the name and the
collected total follow from them. -/
theorem groupKey_eq_iff {row row₀ : (FeeType × FeeAssessment) × Option CollectedGroup}
    (h : row ∈ b.joined inPeriod) (h₀ : row₀ ∈ b.joined inPeriod) :
    groupKey row = groupKey row₀ ↔ feeKey row.1.2 = feeKey row₀.1.2 := by
  obtain ⟨ht, -, hid, hbeside⟩ := mem_joined h
  obtain ⟨ht₀, -, hid₀, hbeside₀⟩ := mem_joined h₀
  constructor
  · intro heq
    simp only [groupKey, Prod.mk.injEq] at heq
    unfold feeKey
    rw [hid, hid₀, heq.1, heq.2.2.1]
  · intro heq
    obtain ⟨htype, htarget⟩ := Prod.mk.inj heq
    rw [hid, hid₀] at htype
    have hsame : row.1.1 = row₀.1.1 := List.inj_on_of_nodup_map b.fee_types_pkey ht ht₀ htype
    unfold groupKey
    rw [hbeside, hbeside₀, heq, hsame, htarget]

/-- A sum over a group of the query is a sum over its assessments. -/
theorem sumWhere_joined {row₀ : (FeeType × FeeAssessment) × Option CollectedGroup}
    (h₀ : row₀ ∈ b.joined inPeriod) (q : FeeAssessment → Bool) :
    sumWhere (fun row => q row.1.2) (fun row => row.1.2.amount.val)
        ((b.joined inPeriod).filter fun row => groupKey row = groupKey row₀)
      = sumWhere (fun a => feeKey a = feeKey row₀.1.2 && q a) (·.amount.val)
          (b.assessedIn inPeriod) := by
  have hgroup : sumWhere (fun row => q row.1.2) (fun row => row.1.2.amount.val)
        ((b.joined inPeriod).filter fun row => groupKey row = groupKey row₀)
      = sumWhere (fun row => feeKey row.1.2 = feeKey row₀.1.2 && q row.1.2)
          (fun row => row.1.2.amount.val) (b.joined inPeriod) := by
    rw [sumWhere_filter]
    apply sumWhere_congr
    intro row hrow
    rw [decide_eq_decide.mpr (groupKey_eq_iff hrow h₀), Bool.and_comm]
  rw [hgroup]
  unfold FeeBooks.joined FeeBooks.assessedIn
  rw [sumWhere_map, sumWhere_filter, sumWhere_filter]
  exact @sumWhere_innerJoin_right FeeType FeeAssessment Uuid ℚ _ _ (·.id) (·.feeTypeId) _ _
    b.fee_types_pkey b.fk_fa_fee_type _ _ (·.amount.val) fun _ _ _ => rfl

/-- What the query says of a group. -/
structure FeeBooks.TotalsOf (b : FeeBooks) (inPeriod : Instant → Bool) (t : FeeTotals) : Prop where
  assessed : t.assessedTotal = b.assessedSum inPeriod (t.feeTypeId, t.targetType)
  waived : t.waivedTotal = b.waivedSum inPeriod (t.feeTypeId, t.targetType)
  collected : t.collectedTotal = b.collectedSum inPeriod (t.feeTypeId, t.targetType)
  name : ∃ type ∈ b.tables.feeTypes, type.id = t.feeTypeId ∧ type.name = t.feeTypeName

/-- The groups before they are ordered. -/
theorem feeTotals_perm : (b.feeTotals inPeriod).Perm
    ((groupRows groupKey (b.joined inPeriod)).map fun g =>
      { feeTypeId := g.1.1
        feeTypeName := g.1.2.1
        targetType := g.1.2.2.1
        assessedTotal := (g.2.map fun row => row.1.2.amount.val).sum
        waivedTotal := sumWhere (fun row => row.1.2.status = .waived)
          (fun row => row.1.2.amount.val) g.2
        collectedTotal := g.1.2.2.2.getD 0 : FeeTotals }) := by
  refine (List.perm_insertionSort _ _).trans (List.Perm.of_eq ?_)
  rw [leftJoin_collectionsSubq, List.filter_map]
  rfl

theorem totalsOf_feeTotals {t : FeeTotals} (ht : t ∈ b.feeTotals inPeriod) :
    b.TotalsOf inPeriod t := by
  obtain ⟨g, hg, rfl⟩ := List.mem_map.mp (feeTotals_perm.mem_iff.mp ht)
  obtain ⟨⟨row, hrow, hkey⟩, hrows⟩ := mem_groupRows.mp hg
  obtain ⟨htype, -, hid, hbeside⟩ := mem_joined hrow
  obtain ⟨⟨type, a⟩, beside⟩ := row
  rw [← hkey] at hrows ⊢
  have hfee : feeKey a = (type.id, a.targetType) := by
    unfold feeKey
    rw [hid]
  refine ⟨?_, ?_, ?_, type, htype, rfl, rfl⟩
  · show (g.2.map fun row => row.1.2.amount.val).sum = b.assessedSum inPeriod (type.id, a.targetType)
    have hsum := sumWhere_joined hrow fun _ => true
    simp only [Bool.and_true, hfee] at hsum
    rw [FeeBooks.assessedSum, ← hsum, hrows, sumWhere, List.filter_true]
  · show sumWhere (fun row => row.1.2.status = .waived) _ g.2
      = b.waivedSum inPeriod (type.id, a.targetType)
    have hsum := sumWhere_joined hrow fun a => a.status = .waived
    simp only [hfee] at hsum
    rw [hrows, hsum, FeeBooks.waivedSum]
    simp only [Bool.decide_and]
  · show (beside.map (·.collectedTotal)).getD 0 = b.collectedSum inPeriod (type.id, a.targetType)
    rw [← hfee, ← collected_beside]
    exact congrArg (fun o : Option CollectedGroup => (o.map (·.collectedTotal)).getD 0) hbeside

/-- The groups of the query are those of the assessments in question, each once. -/
theorem keys_feeTotals (b : FeeBooks) (inPeriod : Instant → Bool) :
    ((b.feeTotals inPeriod).map fun t => (t.feeTypeId, t.targetType)).Nodup ∧
      ∀ k, k ∈ (b.feeTotals inPeriod).map (fun t => (t.feeTypeId, t.targetType)) ↔
        ∃ a ∈ b.assessedIn inPeriod, feeKey a = k := by
  have hperm := (@feeTotals_perm b inPeriod).map fun t : FeeTotals => (t.feeTypeId, t.targetType)
  rw [List.map_map] at hperm
  constructor
  · rw [hperm.nodup_iff]
    refine List.Nodup.map_on ?_ (List.Nodup.of_map Prod.fst ?_)
    · intro g hg g' hg' heq
      obtain ⟨⟨row, hrow, hkey⟩, hrows⟩ := mem_groupRows.mp hg
      obtain ⟨⟨row', hrow', hkey'⟩, hrows'⟩ := mem_groupRows.mp hg'
      have hfee : groupKey row = groupKey row' := by
        rw [groupKey_eq_iff hrow hrow']
        have hgroup : (g.1.1, g.1.2.2.1) = (g'.1.1, g'.1.2.2.1) := heq
        rw [← hkey, ← hkey'] at hgroup
        unfold feeKey
        rw [(mem_joined hrow).2.2.1, (mem_joined hrow').2.2.1]
        exact hgroup
      rw [hkey, hkey'] at hfee
      exact Prod.ext hfee (by rw [hrows, hrows', hfee])
    · rw [map_fst_groupRows]
      exact List.nodup_dedup _
  · intro k
    rw [hperm.mem_iff]
    constructor
    · intro hk
      obtain ⟨g, hg, rfl⟩ := List.mem_map.mp hk
      obtain ⟨⟨row, hrow, hkey⟩, -⟩ := mem_groupRows.mp hg
      obtain ⟨-, ha, hid, -⟩ := mem_joined hrow
      refine ⟨row.1.2, ha, ?_⟩
      show feeKey row.1.2 = (g.1.1, g.1.2.2.1)
      rw [← hkey]
      unfold feeKey
      rw [hid]
      rfl
    · rintro ⟨a, ha, rfl⟩
      obtain ⟨row, hrow, rfl⟩ := exists_joined ha
      refine List.mem_map.mpr ⟨⟨groupKey row, (b.joined inPeriod).filter fun r =>
        groupKey r = groupKey row⟩, mem_groupRows.mpr ⟨⟨row, hrow, rfl⟩, rfl⟩, ?_⟩
      show (row.1.1.id, row.1.2.targetType) = feeKey row.1.2
      unfold feeKey
      rw [(mem_joined hrow).2.2.1]

/-! ## The report -/

theorem collectedSum_mem_grid : b.collectedSum inPeriod k ∈ grid 4 := by
  apply list_sum_mem
  intro q hq
  obtain ⟨c, -, rfl⟩ := List.mem_map.mp hq
  exact c.amount.onGrid

theorem assessed_mem_grid (p : FeeAssessment → Bool) :
    sumWhere p (·.amount.val) (b.assessedIn inPeriod) ∈ grid 4 := by
  apply list_sum_mem
  intro q hq
  obtain ⟨a, -, rfl⟩ := List.mem_map.mp hq
  exact a.amount.onGrid

/-- What a row says, next to the plain sums of its group. -/
structure FeeBooks.RowOf (b : FeeBooks) (inPeriod : Instant → Bool) (r : FeeCollectionRow) : Prop where
  assessed : r.assessedTotal.val = b.assessedSum inPeriod r.key
  waived : r.waivedTotal.val = b.waivedSum inPeriod r.key
  collected : r.collectedTotal.val = b.collectedSum inPeriod r.key
  outstanding : r.outstandingTotal.val
    = b.assessedSum inPeriod r.key - b.collectedSum inPeriod r.key - b.waivedSum inPeriod r.key
  name : ∃ type ∈ b.tables.feeTypes, type.id = r.feeTypeId ∧ type.name = r.feeTypeName

theorem key_feeCollectionRow? {t : FeeTotals} {r : FeeCollectionRow}
    (h : feeCollectionRow? t = some r) : r.key = (t.feeTypeId, t.targetType) := by
  simp only [feeCollectionRow?, Option.bind_eq_bind, Option.bind_eq_some_iff, Option.pure_def,
    Option.some.injEq] at h
  obtain ⟨_, -, _, -, _, -, _, -, rfl⟩ := h
  rfl

theorem rowOf_feeTotals {t : FeeTotals} {r : FeeCollectionRow} (ht : t ∈ b.feeTotals inPeriod)
    (h : feeCollectionRow? t = some r) : b.RowOf inPeriod r := by
  obtain ⟨hassessed, hwaived, hcollected, hname⟩ := totalsOf_feeTotals ht
  have ha : b.assessedSum inPeriod (t.feeTypeId, t.targetType) ∈ grid 4 := assessed_mem_grid _
  have hw : b.waivedSum inPeriod (t.feeTypeId, t.targetType) ∈ grid 4 := assessed_mem_grid _
  have hc : b.collectedSum inPeriod (t.feeTypeId, t.targetType) ∈ grid 4 := collectedSum_mem_grid
  simp only [feeCollectionRow?, Option.bind_eq_bind, Option.bind_eq_some_iff, Option.pure_def,
    Option.some.injEq, hassessed, hwaived, hcollected] at h
  obtain ⟨assessed, hassessed', collected, hcollected', outstanding, houtstanding, waived, hwaived',
    rfl⟩ := h
  exact ⟨Numeric.val_of_ofRat?_mem ha hassessed', Numeric.val_of_ofRat?_mem hw hwaived',
    Numeric.val_of_ofRat?_mem hc hcollected',
    Numeric.val_of_ofRat?_mem (sub_mem (sub_mem ha hc) hw) houtstanding, hname⟩

theorem select_eq_ok {period : Period} {b' : FeeBooks} {rows : List FeeCollectionRow} :
    FeeCollectionService.select period b = .ok rows b' ↔
      period.periodEnd.ordinal < maxOrdinal ∧
        (b.feeTotals period.covers).mapM feeCollectionRow? = some rows ∧ b' = b := by
  unfold FeeCollectionService.select
  simp only [orRaise_bind_eq_ok, get_bind_eq_ok, orAbort_eq_ok, Date.nextMidnight?_eq_some]
  constructor
  · rintro ⟨_, ⟨hlast, rfl⟩, hrows, hb⟩
    exact ⟨hlast, hrows, hb⟩
  · rintro ⟨hlast, hrows, hb⟩
    exact ⟨_, ⟨hlast, rfl⟩, hrows, hb⟩

/-- The report has one row for each fee type and target type with an assessment in the period, and
none else; the figures of a row are the plain sums over the assessments of its group and over what
was collected on these. -/
theorem feeCollection_sums {period : Period} {b' : FeeBooks} {rows : List FeeCollectionRow}
    (h : FeeCollectionService.select period b = .ok rows b') :
    (rows.map (·.key)).Nodup ∧
      (∀ k, k ∈ rows.map (·.key) ↔ ∃ a ∈ b.assessedIn period.covers, feeKey a = k) ∧
      ∀ r ∈ rows, b.RowOf period.covers r := by
  obtain ⟨-, hrows, -⟩ := select_eq_ok.mp h
  obtain ⟨hnodup, hkeys⟩ := keys_feeTotals b period.covers
  rw [map_mapM hrows fun _ _ hrow => key_feeCollectionRow? hrow]
  refine ⟨hnodup, hkeys, ?_⟩
  intro r hr
  obtain ⟨t, ht, hrow⟩ := forall₂_exists_left (mapM_eq_some.mp hrows) hr
  exact rowOf_feeTotals ht hrow

end

/-- A membership fee that is paid in two parts and one that is waived, both in the last microsecond
of January, and one a microsecond later. -/
def sampleFees : FeeBooks where
  tables := { Tables.empty with
    feeTypes := [⟨1, "MEMBERSHIP", "Membership", (Numeric.ofRat? 100).getD 0, "4000", "1300", true⟩]
    feeAssessments :=
      [⟨2, 1, "member", 7, .ofOrdinal 739647, (Numeric.ofRat? 100).getD 0, .paid, 3⟩,
       ⟨4, 1, "member", 8, .ofOrdinal 739647, (Numeric.ofRat? 100).getD 0, .waived, 5⟩,
       ⟨6, 1, "member", 9, .ofOrdinal 739648, (Numeric.ofRat? 100).getD 0, .assessed, 7⟩]
    feeCollections := [⟨8, 2, (Numeric.ofRat? 60).getD 0, .cash, 9, "c1"⟩,
      ⟨10, 2, (Numeric.ofRat? 40).getD 0, .cash, 11, "c2"⟩] }
  assessedAt id := if id = 6 then (Date.ofOrdinal 739648).midnight
    else (Date.ofOrdinal 739648).midnight - 1
  fee_types_pkey := by decide
  fee_assessments_pkey := by decide
  fk_fa_fee_type := by decide

theorem exists_select_sampleFees {period : Period}
    (h : period.periodEnd.ordinal < maxOrdinal ∧
      ((sampleFees.feeTotals period.covers).mapM feeCollectionRow?).isSome = true) :
    ∃ rows, FeeCollectionService.select period sampleFees = .ok rows sampleFees := by
  obtain ⟨rows, hrows⟩ := Option.isSome_iff_exists.mp h.2
  exact ⟨rows, select_eq_ok.mpr ⟨h.1, hrows, rfl⟩⟩

/-- The report of the last day of January. -/
theorem feeCollection_sums_sampleFees : ∃ rows,
    FeeCollectionService.select ⟨.ofOrdinal 739647, .ofOrdinal 739647⟩ sampleFees
        = .ok rows sampleFees ∧
      (rows.map (·.key)).Nodup ∧
      ∀ r ∈ rows, sampleFees.RowOf (Period.covers ⟨.ofOrdinal 739647, .ofOrdinal 739647⟩) r := by
  obtain ⟨rows, hrows⟩ := @exists_select_sampleFees ⟨.ofOrdinal 739647, .ofOrdinal 739647⟩
    (by decide +kernel)
  obtain ⟨hnodup, -, hrow⟩ := feeCollection_sums hrows
  exact ⟨rows, hrows, hnodup, hrow⟩

/-! ## Adjacent periods -/

section

variable {b : FeeBooks} {inPeriod : Instant → Bool} {k : FeeKey}

/-- The figure that a report states for a group, zero for one that it leaves out. -/
def figureOf (column : FeeCollectionRow → Money) (rows : List FeeCollectionRow) (k : FeeKey) : ℚ :=
  sumWhere (·.key = k) (fun r => (column r).val) rows

/-- Where every row states a figure that is zero without assessments, the report states it for every
group. -/
theorem figureOf_eq {period : Period} {b' : FeeBooks} {rows : List FeeCollectionRow}
    (h : FeeCollectionService.select period b = .ok rows b') {column : FeeCollectionRow → Money}
    {plain : FeeKey → ℚ} (hrow : ∀ r ∈ rows, (column r).val = plain r.key)
    (hzero : (∀ a ∈ b.assessedIn period.covers, feeKey a ≠ k) → plain k = 0) :
    figureOf column rows k = plain k := by
  obtain ⟨hnodup, hkeys, -⟩ := feeCollection_sums h
  by_cases hk : k ∈ rows.map (·.key)
  · obtain ⟨r, hr, rfl⟩ := List.mem_map.mp hk
    rw [figureOf, sumWhere_key hnodup hr, hrow r hr]
  · rw [figureOf, sumWhere, List.filter_eq_nil_iff.mpr]
    · exact (hzero fun a ha hkey => hk ((hkeys k).mpr ⟨a, ha, hkey⟩)).symm
    · intro r hr hkey
      exact hk (List.mem_map.mpr ⟨r, hr, by simpa using hkey⟩)

theorem assessedSum_eq_zero (h : ∀ a ∈ b.assessedIn inPeriod, feeKey a ≠ k) :
    b.assessedSum inPeriod k = 0 := by
  rw [FeeBooks.assessedSum, sumWhere, List.filter_eq_nil_iff.mpr]
  · rfl
  · intro a ha
    simpa using h a ha

theorem waivedSum_eq_zero (h : ∀ a ∈ b.assessedIn inPeriod, feeKey a ≠ k) :
    b.waivedSum inPeriod k = 0 := by
  rw [FeeBooks.waivedSum, sumWhere, List.filter_eq_nil_iff.mpr]
  · rfl
  · intro a ha
    simp [h a ha]

theorem collectedSum_eq_zero (h : ∀ a ∈ b.assessedIn inPeriod, feeKey a ≠ k) :
    b.collectedSum inPeriod k = 0 := by
  rw [FeeBooks.collectedSum, sumWhere, List.filter_eq_nil_iff.mpr]
  · rfl
  · intro c _ hany
    obtain ⟨a, ha, hkey⟩ := List.any_eq_true.mp hany
    rw [decide_eq_true_eq] at hkey
    exact h a ha hkey.2

section

variable {whole first second : Instant → Bool}

theorem assessed_split (hwhole : ∀ i, whole i = (first i || second i))
    (hdisjoint : ∀ i, ¬ (first i = true ∧ second i = true)) (p : FeeAssessment → Bool) :
    sumWhere p (·.amount.val) (b.assessedIn whole)
      = sumWhere p (·.amount.val) (b.assessedIn first)
        + sumWhere p (·.amount.val) (b.assessedIn second) := by
  unfold FeeBooks.assessedIn
  rw [sumWhere_filter, sumWhere_filter, sumWhere_filter]
  apply sumWhere_split
  · intro a _
    rw [hwhole, Bool.and_or_distrib_left]
  · intro a _ hboth
    simp only [Bool.and_eq_true] at hboth
    exact hdisjoint _ ⟨hboth.1.2, hboth.2.2⟩

/-- A collection counts in the period of its assessment, and in no other. -/
theorem collectedSum_split (hwhole : ∀ i, whole i = (first i || second i))
    (hdisjoint : ∀ i, ¬ (first i = true ∧ second i = true)) :
    b.collectedSum whole k = b.collectedSum first k + b.collectedSum second k := by
  apply sumWhere_split
  · intro c _
    unfold FeeBooks.assessedIn
    simp only [List.any_filter, hwhole, Bool.and_or_distrib_right]
    induction b.tables.feeAssessments with
    | nil => rfl
    | cons a rest ih =>
      rw [List.any_cons, List.any_cons, List.any_cons, ih]
      simp only [Bool.or_assoc, Bool.or_left_comm]
  · intro c _ hboth
    obtain ⟨a, ha, hon⟩ := List.any_eq_true.mp hboth.1
    obtain ⟨a', ha', hon'⟩ := List.any_eq_true.mp hboth.2
    rw [decide_eq_true_eq] at hon hon'
    obtain ⟨hmem, hfirst⟩ := List.mem_filter.mp ha
    obtain ⟨hmem', hsecond⟩ := List.mem_filter.mp ha'
    -- the two are one row
    have hsame : a = a' :=
      List.inj_on_of_nodup_map b.fee_assessments_pkey hmem hmem' (hon.1.trans hon'.1.symm)
    rw [← hsame] at hsecond
    exact hdisjoint _ ⟨hfirst, hsecond⟩

end

/-- Adjacent periods cover what the period from the first to the last day covers, without a gap and
without an overlap. -/
theorem covers_adjacent {d₁ d₂ e d₃ : Date} (h₁ : d₁ ≤ d₂) (he : d₂.addDays? 1 = some e) (h₃ : e ≤ d₃)
    (i : Instant) :
    Period.covers ⟨d₁, d₃⟩ i = (Period.covers ⟨d₁, d₂⟩ i || Period.covers ⟨e, d₃⟩ i) ∧
      ¬ (Period.covers ⟨d₁, d₂⟩ i = true ∧ Period.covers ⟨e, d₃⟩ i = true) := by
  have hnext := Date.midnight_succ he
  have hfirst := Date.midnight_mono h₁
  have hlast := Date.midnight_mono h₃
  have hday : (0 : ℤ) < microsPerDay := by decide
  simp only [Period.covers, ← Bool.decide_or, decide_eq_decide, decide_eq_true_eq]
  constructor
  · constructor
    · rintro ⟨hstart, hend⟩
      by_cases hi : i < e.midnight
      · exact .inl ⟨hstart, by linarith⟩
      · exact .inr ⟨not_lt.mp hi, hend⟩
    · rintro (⟨hstart, hend⟩ | ⟨hstart, hend⟩)
      · exact ⟨hstart, by linarith⟩
      · exact ⟨by linarith, hend⟩
  · rintro ⟨⟨-, hend⟩, hstart, -⟩
    linarith

/-- The reports of two adjacent periods add up to the report of both, in every figure of every
group. -/
theorem feeCollection_additive {d₁ d₂ e d₃ : Date} (h₁ : d₁ ≤ d₂) (he : d₂.addDays? 1 = some e)
    (h₃ : e ≤ d₃) {b₁ b₂ b' : FeeBooks} {rows₁ rows₂ rows : List FeeCollectionRow}
    (hrows₁ : FeeCollectionService.select ⟨d₁, d₂⟩ b = .ok rows₁ b₁)
    (hrows₂ : FeeCollectionService.select ⟨e, d₃⟩ b = .ok rows₂ b₂)
    (hrows : FeeCollectionService.select ⟨d₁, d₃⟩ b = .ok rows b') (k : FeeKey)
    (column : FeeCollectionRow → Money)
    (hcolumn : column ∈ [FeeCollectionRow.assessedTotal, FeeCollectionRow.collectedTotal,
      FeeCollectionRow.outstandingTotal, FeeCollectionRow.waivedTotal]) :
    figureOf column rows k = figureOf column rows₁ k + figureOf column rows₂ k := by
  have hwhole := fun i => (covers_adjacent h₁ he h₃ i).1
  have hdisjoint := fun i => (covers_adjacent h₁ he h₃ i).2
  have hassessed : b.assessedSum (Period.covers ⟨d₁, d₃⟩) k
      = b.assessedSum (Period.covers ⟨d₁, d₂⟩) k + b.assessedSum (Period.covers ⟨e, d₃⟩) k :=
    assessed_split hwhole hdisjoint _
  have hwaived : b.waivedSum (Period.covers ⟨d₁, d₃⟩) k
      = b.waivedSum (Period.covers ⟨d₁, d₂⟩) k + b.waivedSum (Period.covers ⟨e, d₃⟩) k :=
    assessed_split hwhole hdisjoint _
  have hcollected : b.collectedSum (Period.covers ⟨d₁, d₃⟩) k
      = b.collectedSum (Period.covers ⟨d₁, d₂⟩) k + b.collectedSum (Period.covers ⟨e, d₃⟩) k :=
    collectedSum_split hwhole hdisjoint
  have hfigures : ∀ {period : Period} {b' : FeeBooks} {rows : List FeeCollectionRow},
      FeeCollectionService.select period b = .ok rows b' →
      figureOf (·.assessedTotal) rows k = b.assessedSum period.covers k ∧
      figureOf (·.collectedTotal) rows k = b.collectedSum period.covers k ∧
      figureOf (·.outstandingTotal) rows k = b.assessedSum period.covers k
        - b.collectedSum period.covers k - b.waivedSum period.covers k ∧
      figureOf (·.waivedTotal) rows k = b.waivedSum period.covers k := by
    intro period b' rows h
    have hrow := (feeCollection_sums h).2.2
    refine ⟨figureOf_eq h (fun r hr => (hrow r hr).assessed) assessedSum_eq_zero,
      figureOf_eq h (fun r hr => (hrow r hr).collected) collectedSum_eq_zero, ?_,
      figureOf_eq h (fun r hr => (hrow r hr).waived) waivedSum_eq_zero⟩
    let outstanding (k : FeeKey) : ℚ := b.assessedSum period.covers k
      - b.collectedSum period.covers k - b.waivedSum period.covers k
    have hplain : ∀ r ∈ rows, r.outstandingTotal.val = outstanding r.key :=
      fun r hr => (hrow r hr).outstanding
    apply figureOf_eq h hplain
    intro hnone
    show b.assessedSum period.covers k - _ - _ = 0
    rw [assessedSum_eq_zero hnone, collectedSum_eq_zero hnone, waivedSum_eq_zero hnone]
    norm_num
  obtain ⟨a, c, o, w⟩ := hfigures hrows
  obtain ⟨a₁, c₁, o₁, w₁⟩ := hfigures hrows₁
  obtain ⟨a₂, c₂, o₂, w₂⟩ := hfigures hrows₂
  simp only [List.mem_cons, List.not_mem_nil, or_false] at hcolumn
  rcases hcolumn with rfl | rfl | rfl | rfl
  · rw [a, a₁, a₂, hassessed]
  · rw [c, c₁, c₂, hcollected]
  · rw [o, o₁, o₂, hassessed, hcollected, hwaived]
    ring
  · rw [w, w₁, w₂, hwaived]

end

/-- The last day of January and the first of February. -/
theorem feeCollection_additive_sampleFees : ∃ rows₁ rows₂ rows,
    FeeCollectionService.select ⟨.ofOrdinal 739647, .ofOrdinal 739647⟩ sampleFees
        = .ok rows₁ sampleFees ∧
      FeeCollectionService.select ⟨.ofOrdinal 739648, .ofOrdinal 739648⟩ sampleFees
        = .ok rows₂ sampleFees ∧
      FeeCollectionService.select ⟨.ofOrdinal 739647, .ofOrdinal 739648⟩ sampleFees
        = .ok rows sampleFees ∧
      figureOf (·.assessedTotal) rows (1, "member")
        = figureOf (·.assessedTotal) rows₁ (1, "member")
          + figureOf (·.assessedTotal) rows₂ (1, "member") := by
  obtain ⟨rows₁, h₁⟩ := @exists_select_sampleFees ⟨.ofOrdinal 739647, .ofOrdinal 739647⟩
    (by decide +kernel)
  obtain ⟨rows₂, h₂⟩ := @exists_select_sampleFees ⟨.ofOrdinal 739648, .ofOrdinal 739648⟩
    (by decide +kernel)
  obtain ⟨rows, h⟩ := @exists_select_sampleFees ⟨.ofOrdinal 739647, .ofOrdinal 739648⟩
    (by decide +kernel)
  exact ⟨rows₁, rows₂, rows, h₁, h₂, h, feeCollection_additive (by decide) (by decide) (by decide)
    h₁ h₂ h (1, "member") _ List.mem_cons_self⟩

end SaccoPlatform.Reporting
