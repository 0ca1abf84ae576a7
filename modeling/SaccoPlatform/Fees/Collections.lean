import SaccoPlatform.Fees.Service
import SaccoPlatform.Credit.Operations
import Mathlib.Algebra.Group.Submonoid.BigOperators

/-!
# Collections and the status of an assessment

What was collected of a fee should never exceed its amount, and the status should say whether all,
a part or nothing of it was collected. The collection by hand takes any amount. The automatic one
asks the savings for the whole amount each time and judges this attempt alone: the retry of an
assessment that is paid in part collects too much as soon as the savings reach what is left of it,
and replaying a movement that has its key sets the status to `paid` for any amount.

The statements below say when a collection is safe, and that the status is right as long as all
are.
-/

namespace SaccoPlatform

open Lib Session

/-- What was collected of the assessment. -/
def Tables.collected (t : Tables) (assessmentId : Uuid) : ℚ :=
  ((t.collectionsOf assessmentId).map (·.amount.val)).sum

/-- No more than the amount was collected, and the status says how much. -/
def FeeAssessment.Accounted (a : FeeAssessment) (collected : ℚ) : Prop :=
  collected ≤ a.amount.val ∧ (a.status = .paid ↔ collected = a.amount.val) ∧
    (a.status = .partiallyPaid ↔ 0 < collected ∧ collected < a.amount.val)

instance (a : FeeAssessment) (collected : ℚ) : Decidable (a.Accounted collected) :=
  inferInstanceAs (Decidable (_ ∧ _ ∧ _))

def Tables.FeesAccounted (t : Tables) : Prop :=
  ∀ a ∈ t.feeAssessments, a.Accounted (t.collected a.id)

instance (t : Tables) : Decidable t.FeesAccounted :=
  inferInstanceAs (Decidable (∀ a ∈ t.feeAssessments, _))

/-! ## Runs -/

/-- A committed transaction; `elsewhere` stands for what the other modules do. -/
inductive FeeOp where
  | assess (a : AssessIn)
  | retryPartial (today : Date)
  | collect (c : CollectIn)
  | deposit (d : DepositIn)
  | elsewhere (data : Tables)

def FeeOp.step (t : Tables) : FeeOp → Tables
  | assess a => commit (SaccoPlatform.assess a) t
  | retryPartial today => commit (SaccoPlatform.retryPartial today) t
  | collect c => commit (SaccoPlatform.collect c) t
  | deposit d => commit (SaccoPlatform.deposit d) t
  | elsewhere data => data

/-- The automatic collection under this key is safe: nothing was collected before, or the savings
do not reach what is left; and a movement that it replays is for exactly what is left. -/
def Tables.AllowsAutoCollect (t : Tables) (memberId : Uuid) (amount collected : ℚ) (key : String) :
    Prop :=
  ∀ account ∈ t.primaryAccount? memberId,
    (∀ tx ∈ t.savingsTransactions, tx.idempotencyKey = "fee-collect-" ++ key →
      tx.savingsAccountId = account.id →
      (∀ c ∈ t.feeCollections, c.idempotencyKey ≠ "fee-collect-" ++ key) →
        collected + tx.amount.val = amount) ∧
    ((∀ tx ∈ t.savingsTransactions, tx.idempotencyKey ≠ "fee-collect-" ++ key) →
      t.savingsBalance account.id ≤ 0 ∨ collected = 0 ∨
        collected + t.savingsBalance account.id < amount)

instance (t : Tables) (memberId : Uuid) (amount collected : ℚ) (key : String) :
    Decidable (t.AllowsAutoCollect memberId amount collected key) :=
  inferInstanceAs (Decidable (∀ account ∈ t.primaryAccount? memberId, _))

/-- The round of the retry for the assessment is safe. -/
def Tables.AllowsRetry (t : Tables) (today : Date) (assessmentId : Uuid) : Prop :=
  ∀ a ∈ t.assessment? assessmentId, t.AllowsAutoCollect a.targetId a.amount.val (t.collected a.id)
    s!"retry-{a.id}-{today.isoformat}"

instance (t : Tables) (today : Date) (assessmentId : Uuid) :
    Decidable (t.AllowsRetry today assessmentId) :=
  inferInstanceAs (Decidable (∀ a ∈ t.assessment? assessmentId, _))

/-- The collection by hand is safe: what is stored of its amount is at most what is left, and an
amount that settles the assessment was not rounded up. -/
def Tables.AllowsCollect (t : Tables) (c : CollectIn) : Prop :=
  (∀ old ∈ t.feeCollections, old.idempotencyKey ≠ c.idempotencyKey) →
    ∀ a ∈ t.assessment? c.assessmentId, a.status ∉ [.paid, .waived, .cancelled] →
      t.collected a.id + roundAt 4 c.amount ≤ a.amount.val ∧
      (t.collected a.id + roundAt 4 c.amount = a.amount.val → roundAt 4 c.amount ≤ c.amount)

instance (t : Tables) (c : CollectIn) : Decidable (t.AllowsCollect c) :=
  inferInstanceAs (Decidable ((∀ old ∈ t.feeCollections, _) → _))

/-- Every collection of the step is safe; the rounds of the retry are judged one after another.
What happens elsewhere leaves the fees alone and takes new ids. -/
def FeeOp.Safe (t : Tables) : FeeOp → Prop
  | assess a => a.feeType.requiresCollection = true →
      t.AllowsAutoCollect a.targetId a.feeType.amount.val 0 a.idempotencyKey
  | retryPartial today => Along (fun t a => commit (retryAssessment today a.id) t)
      (fun t (a : FeeAssessment) => t.AllowsRetry today a.id) t t.retried
  | collect c => t.AllowsCollect c
  | deposit _ => True
  | elsewhere data => data.feeAssessments = t.feeAssessments ∧
      data.feeCollections = t.feeCollections ∧ t.nextId ≤ data.nextId

instance FeeOp.decidableSafe (t : Tables) (op : FeeOp) : Decidable (FeeOp.Safe t op) := by
  unfold FeeOp.Safe
  cases op <;> infer_instance

/-! ## The invariant -/

/-- The status of every assessment is right, and ids are new. -/
structure Tables.FeesOk (t : Tables) : Prop where
  ids : (t.feeAssessments.map (·.id)).Nodup
  known : ∀ a ∈ t.feeAssessments, a.id < t.nextId ∧ 0 < a.amount.val
  collections : ∀ c ∈ t.feeCollections, c.feeAssessmentId < t.nextId ∧ 0 < c.amount.val
  accounted : t.FeesAccounted

theorem feesOk_of_no_fees {t : Tables} (h : t.feeAssessments = []) (h' : t.feeCollections = []) :
    t.FeesOk := by
  refine ⟨?_, ?_, ?_, ?_⟩
  · rw [h]
    exact List.nodup_nil
  · rw [h]
    exact fun _ => nofun
  · rw [h']
    exact fun _ => nofun
  · unfold Tables.FeesAccounted
    rw [h]
    exact fun _ => nofun

/-- The fees are as they were. -/
structure SameFees (t t' : Tables) : Prop where
  assessments : t'.feeAssessments = t.feeAssessments
  collections : t'.feeCollections = t.feeCollections
  nextId : t.nextId ≤ t'.nextId

/-- A part of the assessment was collected. -/
structure Collected (a : FeeAssessment) (amount : ℚ) (status : AssessmentStatus) (t t' : Tables) :
    Prop where
  positive : 0 < amount
  row : ∃ c : FeeCollection, c.feeAssessmentId = a.id ∧ c.amount.val = amount ∧
    t'.feeCollections = t.feeCollections ++ [c]
  assessments : t'.feeAssessments = t.feeAssessments.map fun r =>
    if r.id = a.id then { a with status := status } else r
  nextId : t.nextId ≤ t'.nextId

section

variable {t t' : Tables}

theorem SameFees.collected_eq (h : SameFees t t') (assessmentId : Uuid) :
    t'.collected assessmentId = t.collected assessmentId := by
  unfold Tables.collected Tables.collectionsOf
  rw [h.collections]

theorem Tables.FeesOk.same (h : t.FeesOk) (hsame : SameFees t t') : t'.FeesOk := by
  have hnext := hsame.nextId
  refine ⟨by rw [hsame.assessments]; exact h.ids, ?_, ?_, ?_⟩
  · intro a ha
    rw [hsame.assessments] at ha
    have hknown := h.known a ha
    exact ⟨hknown.1.trans_le hnext, hknown.2⟩
  · intro c hc
    rw [hsame.collections] at hc
    have hknown := h.collections c hc
    exact ⟨hknown.1.trans_le hnext, hknown.2⟩
  · intro a ha
    rw [hsame.assessments] at ha
    rw [hsame.collected_eq]
    exact h.accounted a ha

theorem collected_append {c : FeeCollection} (h : t'.feeCollections = t.feeCollections ++ [c])
    (assessmentId : Uuid) : t'.collected assessmentId
      = t.collected assessmentId + if c.feeAssessmentId = assessmentId then c.amount.val else 0 := by
  unfold Tables.collected Tables.collectionsOf
  rw [h]
  by_cases heq : c.feeAssessmentId = assessmentId <;> simp [heq]

theorem Tables.FeesOk.collected_nonneg (h : t.FeesOk) (assessmentId : Uuid) :
    0 ≤ t.collected assessmentId := by
  apply List.sum_nonneg
  intro q hq
  obtain ⟨c, hc, rfl⟩ := List.mem_map.mp hq
  exact (h.collections c (List.mem_filter.mp hc).1).2.le

/-- A collection keeps the fees in order when it leaves its own assessment in order. -/
theorem Tables.FeesOk.collected_ok {a : FeeAssessment} {amount : ℚ} {status : AssessmentStatus}
    (h : t.FeesOk) (ha : a ∈ t.feeAssessments) (hcollected : Collected a amount status t t')
    (haccounted : { a with status := status }.Accounted (t.collected a.id + amount)) : t'.FeesOk := by
  obtain ⟨c, hid, hamount, hrows⟩ := hcollected.row
  have hnext := hcollected.nextId
  have hids : t'.feeAssessments.map (·.id) = t.feeAssessments.map (·.id) := by
    rw [hcollected.assessments, List.map_map]
    apply List.map_congr_left
    intro r _
    by_cases hr : r.id = a.id
    · rw [Function.comp_apply, if_pos hr]
      exact hr.symm
    · rw [Function.comp_apply, if_neg hr]
  refine ⟨by rw [hids]; exact h.ids, ?_, ?_, ?_⟩
  · intro r hr
    rw [hcollected.assessments] at hr
    obtain ⟨old, hold, rfl⟩ := List.mem_map.mp hr
    have hknown := h.known old hold
    have hknownA := h.known a ha
    split
    · exact ⟨hknownA.1.trans_le hnext, hknownA.2⟩
    · exact ⟨hknown.1.trans_le hnext, hknown.2⟩
  · intro x hx
    rw [hrows, List.mem_append, List.mem_singleton] at hx
    rcases hx with hold | rfl
    · have hknown := h.collections x hold
      exact ⟨hknown.1.trans_le hnext, hknown.2⟩
    · have hknown := h.known a ha
      rw [hid, hamount]
      exact ⟨hknown.1.trans_le hnext, hcollected.positive⟩
  · intro r hr
    rw [hcollected.assessments] at hr
    obtain ⟨old, hold, rfl⟩ := List.mem_map.mp hr
    rw [collected_append hrows, hid, hamount]
    by_cases heq : old.id = a.id
    · rw [if_pos heq, if_pos rfl]
      exact haccounted
    · rw [if_neg heq, if_neg (Ne.symm heq), add_zero]
      exact h.accounted old hold

/-! ## Automatic collections -/

theorem insertFeeCollection_ok {assessmentId entryId id : Uuid} {amount : ℚ}
    {method : CollectionMethod} {key : String}
    (h : insertFeeCollection assessmentId amount method entryId key t = .ok id t') :
    (∀ c ∈ t.feeCollections, c.idempotencyKey ≠ key) ∧ 0 < roundAt 4 amount ∧
    ∃ c : FeeCollection, c.feeAssessmentId = assessmentId ∧ c.amount.val = roundAt 4 amount ∧
      c.idempotencyKey = key ∧
      t' = { t with nextId := t.nextId + 1, feeCollections := t.feeCollections ++ [c] } := by
  simp only [insertFeeCollection, writeMoney_bind_eq_ok, constraint_bind_eq_ok, get_bind_eq_ok,
    freshId_bind_eq_ok, modify_bind_eq_ok, pure_eq_ok] at h
  obtain ⟨stored, hstored, hpos, hkey, -, rfl⟩ := h
  rw [Numeric.val_of_ofRat? hstored] at hpos
  exact ⟨hkey, hpos, _, rfl, Numeric.val_of_ofRat? hstored, rfl, rfl⟩

theorem Recorded.sameFees {entryKey key : String} {lines : List LineIn} {accountId : Uuid}
    {type : SavingsTransactionType} {amount : ℚ}
    (h : Recorded entryKey lines accountId type amount key t t') : SameFees t t' := by
  obtain ⟨n, es, txs, hrest⟩ := h.rest
  exact ⟨by rw [hrest], by rw [hrest], h.nextId⟩

/-- The collection and the new status, behind a debit that left the fees alone. -/
theorem collected_of_ok {a : FeeAssessment} {amount : ℚ} {method : CollectionMethod}
    {entryId id : Uuid} {key : String} {status : AssessmentStatus} {t₁ t₂ : Tables}
    (hsame : SameFees t t₁) (h : insertFeeCollection a.id amount method entryId key t₁ = .ok id t₂)
    (hput : t' = t₂.putAssessment { a with status := status }) :
    (∀ c ∈ t.feeCollections, c.idempotencyKey ≠ key) ∧
      Collected a (roundAt 4 amount) status t t' := by
  obtain ⟨hkey, hpos, c, hid, hamount, -, rfl⟩ := insertFeeCollection_ok h
  subst hput
  rw [hsame.collections] at hkey
  refine ⟨hkey, hpos, ⟨c, hid, hamount, ?_⟩, ?_, hsame.nextId.trans (Nat.le_succ _)⟩
  · show t₁.feeCollections ++ [c] = _
    rw [hsame.collections]
  · show t₁.feeAssessments.map _ = _
    rw [hsame.assessments]

/-- An automatic collection does nothing to the fees, replays a movement as full payment, or takes
what the savings hold of the amount. -/
theorem autoCollect_ok {a : FeeAssessment} {feeType : FeeType} {receivableId : Uuid} {key : String}
    {result : Option Uuid} (h : autoCollect a feeType receivableId key t = .ok result t') :
    SameFees t t' ∨ ∃ account, t.primaryAccount? a.targetId = some account ∧
      (∀ c ∈ t.feeCollections, c.idempotencyKey ≠ "fee-collect-" ++ key) ∧
      ((∃ tx ∈ t.savingsTransactions, tx.idempotencyKey = "fee-collect-" ++ key ∧
        tx.savingsAccountId = account.id ∧ Collected a (roundAt 4 tx.amount.val) .paid t t') ∨
      ((∀ tx ∈ t.savingsTransactions, tx.idempotencyKey ≠ "fee-collect-" ++ key) ∧
        0 < t.savingsBalance account.id ∧
        Collected a (roundAt 4 (min (t.savingsBalance account.id) a.amount.val))
          (if a.amount.val - min (t.savingsBalance account.id) a.amount.val = 0 then .paid
            else .partiallyPaid) t t')) := by
  simp only [autoCollect, get_bind_eq_ok] at h
  cases haccount : t.primaryAccount? a.targetId with
  | none =>
    simp only [haccount, pure_eq_ok] at h
    obtain ⟨-, rfl⟩ := h
    exact .inl ⟨rfl, rfl, le_rfl⟩
  | some account =>
    simp only [haccount] at h
    obtain ⟨debited, t₁, hdebit, hrest⟩ := bind_eq_ok.mp h
    rcases systemDebit_ok hdebit with ⟨rfl, tx, htx, hkey, hid, rfl⟩ | ⟨rfl, rfl, -⟩ |
      ⟨_, entryId, -, rfl, hfunds, hrec⟩
    · obtain ⟨id, t₂, hinsert, hput⟩ := bind_eq_ok.mp hrest
      simp only [modify_bind_eq_ok, pure_eq_ok] at hput
      obtain ⟨-, rfl⟩ := hput
      obtain ⟨hunused, hcollected⟩ := collected_of_ok ⟨rfl, rfl, le_rfl⟩ hinsert rfl
      exact .inr ⟨account, rfl, hunused, .inl ⟨tx, htx, hkey, hid, hcollected⟩⟩
    · obtain ⟨-, rfl⟩ := pure_eq_ok.mp hrest
      exact .inl ⟨rfl, rfl, le_rfl⟩
    · obtain ⟨id, t₂, hinsert, hput⟩ := bind_eq_ok.mp hrest
      simp only [modify_bind_eq_ok, pure_eq_ok] at hput
      obtain ⟨-, rfl⟩ := hput
      obtain ⟨hunused, hcollected⟩ := collected_of_ok hrec.sameFees hinsert rfl
      exact .inr ⟨account, rfl, hunused, .inr ⟨hrec.unused, hfunds rfl, hcollected⟩⟩

theorem savingsBalance_mem_grid (t : Tables) (accountId : Uuid) :
    t.savingsBalance accountId ∈ grid 4 := by
  have hsum : ∀ types, t.sumSavings accountId types ∈ grid 4 := by
    intro types
    apply list_sum_mem
    intro q hq
    obtain ⟨tx, -, rfl⟩ := List.mem_map.mp hq
    exact tx.amount.onGrid
  exact sub_mem (hsum _) (hsum _)

/-- A safe automatic collection keeps the fees in order. -/
theorem autoCollect_feesOk {a : FeeAssessment} {feeType : FeeType} {receivableId : Uuid}
    {key : String} {result : Option Uuid} (h : t.FeesOk) (ha : a ∈ t.feeAssessments)
    (hsafe : t.AllowsAutoCollect a.targetId a.amount.val (t.collected a.id) key)
    (hok : autoCollect a feeType receivableId key t = .ok result t') : t'.FeesOk := by
  have hpos := (h.known a ha).2
  have hnonneg := h.collected_nonneg a.id
  rcases autoCollect_ok hok with hsame | ⟨account, haccount, hunused, hcollected⟩
  · exact h.same hsame
  obtain ⟨hreplay, hfresh⟩ := hsafe account haccount
  rcases hcollected with ⟨tx, htx, hkey, hid, hcollected⟩ | ⟨hnew, hfunds, hcollected⟩
  · have hleft := hreplay tx htx hkey hid hunused
    rw [roundAt_of_mem tx.amount.onGrid] at hcollected
    refine h.collected_ok ha hcollected ?_
    rw [hleft]
    exact ⟨le_rfl, ⟨fun _ => rfl, fun _ => rfl⟩, ⟨nofun, fun hlt => absurd hlt.2 (lt_irrefl _)⟩⟩
  · rw [roundAt_of_mem (min_mem_grid (savingsBalance_mem_grid t _) a.amount.onGrid)] at hcollected
    refine h.collected_ok ha hcollected ?_
    rcases le_or_gt a.amount.val (t.savingsBalance account.id) with hle | hlt
    · -- the savings cover the whole amount, so nothing was collected before
      have hzero : t.collected a.id = 0 := by
        rcases hfresh hnew with hempty | hzero | hshort
        · exact absurd hfunds (not_lt.mpr hempty)
        · exact hzero
        · linarith
      rw [min_eq_right hle, sub_self, if_pos rfl, hzero, zero_add]
      exact ⟨le_rfl, ⟨fun _ => rfl, fun _ => rfl⟩, ⟨nofun, fun hlt => absurd hlt.2 (lt_irrefl _)⟩⟩
    · have hshort : t.collected a.id + t.savingsBalance account.id < a.amount.val := by
        rcases hfresh hnew with hempty | hzero | hshort
        · exact absurd hfunds (not_lt.mpr hempty)
        · rw [hzero, zero_add]
          exact hlt
        · exact hshort
      have hne : a.amount.val - t.savingsBalance account.id ≠ 0 := by linarith [sub_pos.mpr hlt]
      rw [min_eq_left hlt.le, if_neg hne]
      refine ⟨hshort.le, ⟨nofun, fun heq => absurd heq hshort.ne⟩, ⟨fun _ => ⟨?_, hshort⟩, fun _ => rfl⟩⟩
      linarith

/-! ## Collections by hand -/

theorem assessment?_some {assessmentId : Uuid} {a : FeeAssessment}
    (h : t.assessment? assessmentId = some a) : a ∈ t.feeAssessments ∧ a.id = assessmentId :=
  ⟨List.mem_of_find?_eq_some h, by simpa using List.find?_some h⟩

theorem collect_ok {c : CollectIn} {id : Uuid} (h : collect c t = .ok id t') :
    (t' = t ∧ ∃ old ∈ t.feeCollections, old.idempotencyKey = c.idempotencyKey) ∨
    ∃ a, t.assessment? c.assessmentId = some a ∧ a.status ∉ [.paid, .waived, .cancelled] ∧
      (∀ old ∈ t.feeCollections, old.idempotencyKey ≠ c.idempotencyKey) ∧
      Collected a (roundAt 4 c.amount)
        (if a.amount.val ≤ t.totalCollected a.id c.amount then .paid else .partiallyPaid) t t' := by
  simp only [collect, get_bind_eq_ok] at h
  cases hfind : t.feeCollections.find? (·.idempotencyKey = c.idempotencyKey) with
  | some existing =>
    simp only [hfind, pure_eq_ok] at h
    have hkey : existing.idempotencyKey = c.idempotencyKey := by simpa using List.find?_some hfind
    exact .inl ⟨h.2.symm, existing, List.mem_of_find?_eq_some hfind, hkey⟩
  | none =>
    simp only [hfind, orRaise_bind_eq_ok, require_bind_eq_ok] at h
    obtain ⟨a, hfound, hstatus, _, -, _, -, hrest⟩ := h
    obtain ⟨-, hid⟩ := assessment?_some hfound
    rw [← hid] at hrest
    obtain ⟨entryId, t₁, hpost, hwrite⟩ := bind_eq_ok.mp hrest
    have hsame : SameFees t t₁ := by
      rcases postJournalEntry_ok hpost with ⟨rfl, -⟩ | hposted
      · exact ⟨rfl, rfl, le_rfl⟩
      · obtain ⟨e, -, -, rfl⟩ := hposted.entry
        exact ⟨rfl, rfl, Nat.le_succ _⟩
    obtain ⟨_, t₂, hinsert, hput⟩ := bind_eq_ok.mp hwrite
    simp only [modify_bind_eq_ok, pure_eq_ok] at hput
    obtain ⟨-, rfl⟩ := hput
    obtain ⟨hunused, hcollected⟩ := collected_of_ok hsame hinsert rfl
    exact .inr ⟨a, hfound, hstatus, hunused, hcollected⟩

/-- What was collected is far from the limits of the decimals, so that only the last addition is
rounded. -/
theorem Tables.FeesOk.totalCollected_eq {a : FeeAssessment} (h : t.FeesOk)
    (ha : a ∈ t.feeAssessments) (amount : ℚ) :
    t.totalCollected a.id amount = inContext 28 (t.collected a.id + amount) := by
  have hexact : sumInContext 28 ((t.collectionsOf a.id).map (·.amount.val)) = t.collected a.id := by
    have hfits : t.collected a.id < 10 ^ 15 :=
      lt_of_le_of_lt ((h.accounted a ha).1.trans (le_abs_self _)) a.amount.fits
    apply sumInContext_of_mem (s := 4)
    · intro q hq
      obtain ⟨c, -, rfl⟩ := List.mem_map.mp hq
      exact c.amount.onGrid
    · intro q hq
      obtain ⟨c, hc, rfl⟩ := List.mem_map.mp hq
      exact (h.collections c (List.mem_filter.mp hc).1).2.le
    · show t.collected a.id * 10 ^ 4 < 10 ^ 28
      linarith
  unfold Tables.totalCollected decimalSum
  rw [sumInContext, List.foldl_append, ← sumInContext, hexact]
  rfl

/-- A safe collection by hand reaches the amount of the assessment in decimals exactly when it
settles it. -/
theorem Tables.FeesOk.settles_iff {a : FeeAssessment} {amount : ℚ} (h : t.FeesOk)
    (ha : a ∈ t.feeAssessments) (hpos : 0 < roundAt 4 amount)
    (hle : t.collected a.id + roundAt 4 amount ≤ a.amount.val)
    (hdown : t.collected a.id + roundAt 4 amount = a.amount.val → roundAt 4 amount ≤ amount) :
    a.amount.val ≤ t.totalCollected a.id amount ↔
      t.collected a.id + roundAt 4 amount = a.amount.val := by
  have hnonneg := h.collected_nonneg a.id
  have hamount : 0 < amount := pos_of_roundAt_pos hpos
  have hnear : amount < roundAt 4 amount + 1 / (2 * 10 ^ 4) := lt_roundAt_add_half hamount.le
  have hfits : a.amount.val < 10 ^ 15 := lt_of_le_of_lt (le_abs_self _) a.amount.fits
  have hlt : t.collected a.id + amount < 10 ^ 16 := by linarith
  have hsum : 0 < t.collected a.id + amount := by linarith
  have hcollected : t.collected a.id ∈ grid 4 := by
    apply list_sum_mem
    intro q hq
    obtain ⟨c, -, rfl⟩ := List.mem_map.mp hq
    exact c.amount.onGrid
  rw [h.totalCollected_eq ha]
  constructor
  · intro hreached
    by_contra hne
    -- a whole unit is missing, more than rounding can make up for
    have hunit := add_unit_le_of_lt (add_mem hcollected (roundAt_mem_grid 4 amount)) a.amount.onGrid
      (lt_of_le_of_ne hle hne)
    refine absurd hreached (not_le.mpr (inContext_lt hsum hlt (by norm_num) a.amount.onGrid ?_))
    linarith
  · intro hsettled
    have hround := hdown hsettled
    exact le_inContext hsum hlt (by norm_num) a.amount.onGrid (by linarith)

theorem collect_feesOk {c : CollectIn} {id : Uuid} (h : t.FeesOk) (hsafe : t.AllowsCollect c)
    (hok : collect c t = .ok id t') : t'.FeesOk := by
  rcases collect_ok hok with ⟨rfl, -⟩ | ⟨a, hfound, hstatus, hunused, hcollected⟩
  · exact h
  · obtain ⟨ha, -⟩ := assessment?_some hfound
    obtain ⟨hle, hdown⟩ := hsafe hunused a hfound hstatus
    have hpos := hcollected.positive
    have hnonneg := h.collected_nonneg a.id
    have hiff := h.settles_iff ha hpos hle hdown
    refine h.collected_ok ha hcollected ?_
    by_cases hsettled : t.collected a.id + roundAt 4 c.amount = a.amount.val
    · rw [if_pos (hiff.mpr hsettled), hsettled]
      exact ⟨le_rfl, ⟨fun _ => rfl, fun _ => rfl⟩, ⟨nofun, fun hlt => absurd hlt.2 (lt_irrefl _)⟩⟩
    · rw [if_neg (mt hiff.mp hsettled)]
      have hlt := lt_of_le_of_ne hle hsettled
      refine ⟨hle, ⟨nofun, fun heq => absurd heq hsettled⟩, ⟨fun _ => ⟨?_, hlt⟩, fun _ => rfl⟩⟩
      linarith

/-! ## Assessments and the retry -/

/-- The assessment is for this fee, target and period. -/
def AssessIn.Matches (x : AssessIn) (r : FeeAssessment) : Prop :=
  r.feeTypeId = x.feeType.id ∧ r.targetType = x.targetType ∧ r.targetId = x.targetId ∧
    r.periodStart = x.periodStart

instance (x : AssessIn) : DecidablePred x.Matches := fun _ => inferInstanceAs (Decidable (_ ∧ _))

theorem insertAssessment_ok {x : AssessIn} {receivableId incomeId : Uuid} {row : FeeAssessment}
    (h : insertAssessment x receivableId incomeId t = .ok row t') :
    ∃ n es, t.nextId ≤ row.id ∧ row.id < n ∧ x.Matches row ∧
      row.amount = x.feeType.amount ∧ row.status = .assessed ∧ 0 < row.amount.val ∧
      t' = { t with nextId := n, entries := es, feeAssessments := t.feeAssessments ++ [row] } := by
  obtain ⟨entryId, t₁, hpost, hrest⟩ := bind_eq_ok.mp h
  simp only [constraint_bind_eq_ok, freshId_bind_eq_ok, modify_bind_eq_ok, pure_eq_ok] at hrest
  obtain ⟨hpos, rfl, rfl⟩ := hrest
  rcases postJournalEntry_ok hpost with ⟨rfl, -⟩ | hposted
  · exact ⟨_, _, le_rfl, Nat.lt_succ_self _, ⟨rfl, rfl, rfl, rfl⟩, rfl, rfl, hpos, rfl⟩
  · obtain ⟨e, -, -, rfl⟩ := hposted.entry
    exact ⟨_, _, Nat.le_succ _, Nat.lt_succ_self _, ⟨rfl, rfl, rfl, rfl⟩, rfl, rfl, hpos, rfl⟩

/-- Whatever the collection finds, the assessment still counts. -/
theorem autoCollect_counts {a : FeeAssessment} {feeType : FeeType} {receivableId : Uuid} {key : String}
    {result : Option Uuid} (h : autoCollect a feeType receivableId key t = .ok result t') :
    SameFees t t' ∨ ∃ amount status, status ∈ [.assessed, .partiallyPaid, .paid] ∧
      Collected a amount status t t' := by
  rcases autoCollect_ok h with hsame | ⟨account, -, -, ⟨tx, -, -, -, hdone⟩ | ⟨-, -, hdone⟩⟩
  · exact .inl hsame
  · exact .inr ⟨_, _, by simp, hdone⟩
  · refine .inr ⟨_, _, ?_, hdone⟩
    split
    · simp
    · simp

/-- An assessment is found again, or it is new and the last row. -/
theorem assess_ok {x : AssessIn} {id : Uuid} (hids : ∀ r ∈ t.feeAssessments, r.id < t.nextId)
    (h : assess x t = .ok id t') :
    (t' = t ∧ ∃ r ∈ t.feeAssessments, r.id = id ∧ x.Matches r) ∨
      (∀ r ∈ t.feeAssessments, ¬ x.Matches r) ∧
      ∃ r, r.id = id ∧ x.Matches r ∧ r.status ∈ [.assessed, .partiallyPaid, .paid] ∧
        t.nextId ≤ id ∧ id < t'.nextId ∧ t'.feeAssessments = t.feeAssessments ++ [r] := by
  simp only [assess, get_bind_eq_ok] at h
  cases hfind : t.feeAssessments.find? fun r => r.feeTypeId = x.feeType.id ∧
      r.targetType = x.targetType ∧ r.targetId = x.targetId ∧ r.periodStart = x.periodStart with
  | some existing =>
    simp only [hfind, pure_eq_ok] at h
    have hmatches := List.find?_some hfind
    exact .inl ⟨h.2.symm, existing, List.mem_of_find?_eq_some hfind, h.1, of_decide_eq_true hmatches⟩
  | none =>
    simp only [hfind, orRaise_bind_eq_ok] at h
    obtain ⟨income, -, receivable, -, hwrite⟩ := h
    obtain ⟨row, t₁, hinsert, hrest⟩ := bind_eq_ok.mp hwrite
    obtain ⟨n, es, hfresh, hnew, hmatches, -, hstatus, -, rfl⟩ := insertAssessment_ok hinsert
    obtain ⟨_, t₂, hcollect, hpure⟩ := bind_eq_ok.mp hrest
    obtain ⟨rfl, rfl⟩ := pure_eq_ok.mp hpure
    have hunmatched : ∀ r ∈ t.feeAssessments, ¬ x.Matches r := by
      intro r hr hx
      exact List.find?_eq_none.mp hfind r hr (decide_eq_true hx)
    have hcounted : row.status ∈ [.assessed, .partiallyPaid, .paid] := by
      rw [hstatus]
      exact List.mem_cons_self
    refine .inr ⟨hunmatched, ?_⟩
    unfold Session.when at hcollect
    split at hcollect
    · obtain ⟨result, t₃, hauto, hunit⟩ := bind_eq_ok.mp hcollect
      obtain ⟨-, rfl⟩ := pure_eq_ok.mp hunit
      rcases autoCollect_counts hauto with hsame | ⟨amount, status, hmem, hdone⟩
      · exact ⟨row, rfl, hmatches, hcounted, hfresh, hnew.trans_le hsame.nextId, hsame.assessments⟩
      · -- the collection writes the status of the row that was just inserted
        refine ⟨{ row with status := status }, rfl, hmatches, hmem, hfresh,
          hnew.trans_le hdone.nextId, hdone.assessments.trans ?_⟩
        rw [List.map_append, List.map_singleton, if_pos rfl]
        congr 1
        conv_rhs => rw [← List.map_id t.feeAssessments]
        apply List.map_congr_left
        intro r hr
        have hne : r.id ≠ row.id := ((hids r hr).trans_le hfresh).ne
        rw [if_neg hne, id]
    · obtain ⟨-, rfl⟩ := pure_eq_ok.mp hcollect
      exact ⟨row, rfl, hmatches, hcounted, hfresh, hnew, rfl⟩

/-- Nothing was collected of an id that is not in use. -/
theorem Tables.FeesOk.collected_fresh (h : t.FeesOk) {assessmentId : Uuid}
    (hfresh : t.nextId ≤ assessmentId) : t.collected assessmentId = 0 := by
  have hnone : t.collectionsOf assessmentId = [] := by
    unfold Tables.collectionsOf
    rw [List.filter_eq_nil_iff]
    intro c hc heq
    have hlt := (h.collections c hc).1
    rw [of_decide_eq_true heq] at hlt
    exact absurd hlt (not_lt.mpr hfresh)
  rw [Tables.collected, hnone]
  rfl

/-- A new assessment, of which nothing is collected yet. -/
theorem Tables.FeesOk.assessed (h : t.FeesOk) {row : FeeAssessment} {n : Uuid}
    (es : List JournalEntry) (hfresh : t.nextId ≤ row.id) (hnew : row.id < n)
    (hstatus : row.status = .assessed) (hpos : 0 < row.amount.val) :
    ({ t with
      nextId := n, entries := es, feeAssessments := t.feeAssessments ++ [row] } : Tables).FeesOk := by
  refine ⟨?_, ?_, ?_, ?_⟩
  · show ((t.feeAssessments ++ [row]).map (·.id)).Nodup
    rw [List.map_append, List.nodup_append]
    refine ⟨h.ids, List.nodup_singleton _, ?_⟩
    intro i hi j hj heq
    obtain ⟨a, ha, rfl⟩ := List.mem_map.mp hi
    have hsame : a.id = row.id := heq.trans (List.mem_singleton.mp hj)
    exact absurd (hsame ▸ (h.known a ha).1) (not_lt.mpr hfresh)
  · intro a ha
    rcases List.mem_append.mp ha with hold | hone
    · have hknown := h.known a hold
      exact ⟨hknown.1.trans (hfresh.trans_lt hnew), hknown.2⟩
    · rw [List.mem_singleton.mp hone]
      exact ⟨hnew, hpos⟩
  · intro c hc
    have hknown := h.collections c hc
    exact ⟨hknown.1.trans (hfresh.trans_lt hnew), hknown.2⟩
  · intro a ha
    rcases List.mem_append.mp ha with hold | hone
    · exact h.accounted a hold
    · rw [List.mem_singleton.mp hone]
      show row.Accounted (t.collected row.id)
      rw [h.collected_fresh hfresh]
      refine ⟨hpos.le, ?_, ?_⟩
      · rw [hstatus]
        exact ⟨nofun, fun heq => absurd heq hpos.ne⟩
      · rw [hstatus]
        exact ⟨nofun, fun hlt => absurd hlt.1 (lt_irrefl _)⟩

theorem assess_feesOk {x : AssessIn} {id : Uuid} (h : t.FeesOk)
    (hsafe : (FeeOp.assess x).Safe t) (hok : assess x t = .ok id t') : t'.FeesOk := by
  simp only [assess, get_bind_eq_ok] at hok
  cases hfind : t.feeAssessments.find? fun r => r.feeTypeId = x.feeType.id ∧
      r.targetType = x.targetType ∧ r.targetId = x.targetId ∧ r.periodStart = x.periodStart with
  | some existing =>
    simp only [hfind, pure_eq_ok] at hok
    exact hok.2 ▸ h
  | none =>
    simp only [hfind, orRaise_bind_eq_ok] at hok
    obtain ⟨income, -, receivable, -, hwrite⟩ := hok
    obtain ⟨row, t₁, hinsert, hrest⟩ := bind_eq_ok.mp hwrite
    obtain ⟨n, es, hfresh, hnew, hmatches, hamount, hstatus, hpos, rfl⟩ := insertAssessment_ok hinsert
    have hzero : t.collected row.id = 0 := h.collected_fresh hfresh
    have hrow := h.assessed es hfresh hnew hstatus hpos
    obtain ⟨_, t₂, hcollect, hpure⟩ := bind_eq_ok.mp hrest
    obtain ⟨-, rfl⟩ := pure_eq_ok.mp hpure
    by_cases hrequired : x.feeType.requiresCollection = true
    · -- the fee is collected at once, of the row just written
      rw [when, if_pos hrequired] at hcollect
      obtain ⟨_, t₃, hauto, hunit⟩ := bind_eq_ok.mp hcollect
      obtain ⟨-, rfl⟩ := pure_eq_ok.mp hunit
      refine autoCollect_feesOk hrow (List.mem_append_right _ (List.mem_singleton_self _)) ?_ hauto
      have hallows := hsafe hrequired
      rw [← hmatches.2.2.1, ← hamount, ← hzero] at hallows
      exact hallows
    · rw [when, if_neg hrequired] at hcollect
      obtain ⟨-, rfl⟩ := pure_eq_ok.mp hcollect
      exact hrow

theorem retryAssessment_feesOk {today : Date} {assessmentId : Uuid} {u : Unit} (h : t.FeesOk)
    (hsafe : t.AllowsRetry today assessmentId)
    (hok : retryAssessment today assessmentId t = .ok u t') : t'.FeesOk := by
  simp only [retryAssessment, get_bind_eq_ok] at hok
  cases hfound : t.assessment? assessmentId with
  | none =>
    simp only [hfound, pure_eq_ok] at hok
    exact hok.2 ▸ h
  | some a =>
    simp only [hfound] at hok
    cases hlookup : (t.feeType? a.feeTypeId).bind fun f =>
        (t.account? f.glReceivableAccountCode).map (f, ·) with
    | none =>
      simp only [hlookup, pure_eq_ok] at hok
      exact hok.2 ▸ h
    | some found =>
      simp only [hlookup] at hok
      obtain ⟨_, t₁, hauto, hunit⟩ := bind_eq_ok.mp hok
      obtain ⟨-, rfl⟩ := pure_eq_ok.mp hunit
      exact autoCollect_feesOk h (assessment?_some hfound).1 (hsafe a hfound) hauto

/-- The retry is a run of its rounds. -/
theorem retryPartial_eq (today : Date) (t : Tables) :
    retryPartial today t
      = .ok () (run (fun t a => commit (retryAssessment today a.id) t) t t.retried) :=
  forEach_savepoint (fun a : FeeAssessment => retryAssessment today a.id) t.retried t

theorem retryPartial_feesOk {today : Date} (h : t.FeesOk)
    (hsafe : (FeeOp.retryPartial today).Safe t) : ((FeeOp.retryPartial today).step t).FeesOk := by
  have hstep : (FeeOp.retryPartial today).step t
      = run (fun t a => commit (retryAssessment today a.id) t) t t.retried :=
    commit_of_ok (retryPartial_eq today t)
  have hround : ∀ (s : Tables) (a : FeeAssessment), s.FeesOk → s.AllowsRetry today a.id →
      (commit (retryAssessment today a.id) s).FeesOk := by
    intro s a hs hallows
    exact commit_keeps hs fun _ _ hok => retryAssessment_feesOk hs hallows hok
  rw [hstep]
  exact run_invariant hround h hsafe

/-! ## Runs -/

theorem FeeOp.step_feesOk {op : FeeOp} (h : t.FeesOk) (hsafe : op.Safe t) : (op.step t).FeesOk := by
  cases op with
  | assess x => exact commit_keeps h fun _ _ hok => assess_feesOk h hsafe hok
  | retryPartial today => exact retryPartial_feesOk h hsafe
  | collect c => exact commit_keeps h fun _ _ hok => collect_feesOk h hsafe hok
  | deposit d =>
    refine commit_keeps h fun _ _ hok => ?_
    rcases deposit_ok hok with rfl | ⟨account, -, hrec⟩
    · exact h
    · exact h.same hrec.sameFees
  | elsewhere data => exact h.same ⟨hsafe.1, hsafe.2.1, hsafe.2.2⟩

end

/-- In every run of safe collections, no more is ever collected of an assessment than its amount,
and its status says whether all, a part or nothing was. -/
theorem fees_accounted {t : Tables} (h : t.FeesOk) {ops : List FeeOp}
    (hops : Along FeeOp.step FeeOp.Safe t ops) : (run FeeOp.step t ops).FeesAccounted :=
  (run_invariant (fun _ _ hs hsafe => FeeOp.step_feesOk hs hsafe) h hops).accounted

/-- A tenant with cash, savings, fee receivables and fee income, and the savings account of
member 9. -/
def feeTenant : Tables :=
  { Tables.empty with
    nextId := 11
    accounts := [⟨1, "1000"⟩, ⟨2, "2000"⟩, ⟨3, "1300"⟩, ⟨4, "4000"⟩]
    feeTypes := [⟨6, "ANNUAL", "Annual fee", money 100, "4000", "1300", true⟩]
    savingsAccounts := [⟨5, 9, money 0, 2⟩] }

/-- Savings of 60 when a fee of 100 is assessed, and another deposit before the retry. -/
def feeHistory (amount : ℚ) : List FeeOp :=
  [.deposit ⟨5, 60, 1, 7, "a"⟩,
    .assess ⟨⟨6, "ANNUAL", "Annual fee", money 100, "4000", "1300", true⟩, "member", 9,
      sampleDay, 7, "f"⟩,
    .deposit ⟨5, amount, 1, 7, "b"⟩, .retryPartial ⟨739648, by decide⟩]

/-- Another 30 are collected by the retry, and the last 10 in cash. -/
def feeInParts : List FeeOp := feeHistory 30 ++ [.collect ⟨14, 10, .cash, 7, "c", 1⟩]

theorem fees_accounted_in_parts :
    (run FeeOp.step feeTenant feeInParts).feeAssessments.map (fun a => (a.id, a.status))
      = [(14, .paid)] ∧
    (run FeeOp.step feeTenant feeInParts).feeCollections.map (·.amount.val) = [60, 30, 10] ∧
    (run FeeOp.step feeTenant feeInParts).FeesAccounted := by
  refine ⟨by decide +kernel, by decide +kernel, ?_⟩
  exact fees_accounted (feesOk_of_no_fees rfl rfl) (by decide +kernel)

/-- With 100 in savings at the retry, it takes the whole amount again. -/
theorem fees_collected_twice :
    (run FeeOp.step feeTenant (feeHistory 100)).feeAssessments.map
      (fun a => (a.amount.val, a.status)) = [(100, .paid)] ∧
    (run FeeOp.step feeTenant (feeHistory 100)).feeCollections.map (·.amount.val) = [60, 100] ∧
    ¬ (run FeeOp.step feeTenant (feeHistory 100)).FeesAccounted := by
  refine ⟨?_, ?_, ?_⟩
  · decide +kernel
  · decide +kernel
  · decide +kernel

end SaccoPlatform
