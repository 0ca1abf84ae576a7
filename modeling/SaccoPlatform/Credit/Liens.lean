import SaccoPlatform.Credit.Movements
import Mathlib.Data.List.Perm.Lattice

/-!
# The liens behind a loan

Guarantors and liens as the operations of the guarantor service leave them, in exact
arithmetic. `Guarantees.Secures` says how they stand behind a loan: equal shares of the
outstanding principal while it runs, released once it is over. Every operation is an update in
place of the rows of one loan, except for `place_liens`, which ties free guarantors to a new
loan and appends their liens.
-/

namespace SaccoPlatform

open Lib Session

namespace Guarantees

/-! ## Ties between loans, guarantors and liens -/

/-- The guarantors tied to the loan: `place_liens` sets `loan_id` on every guarantor that had
accepted when the loan was disbursed. -/
def tied (gs : Guarantees) (loanId : Uuid) : List LoanGuarantor :=
  gs.guarantors.filter fun g => g.loanId = some loanId

/-- The liens of the loan. -/
def liensOf (gs : Guarantees) (loanId : Uuid) : List LoanGuarantorLien :=
  gs.liens.filter fun lien => gs.LienOf loanId lien

/-- What the active liens of the loan cover. -/
def covered (gs : Guarantees) (loanId : Uuid) : ℚ :=
  (((gs.liensOf loanId).filter fun lien => lien.isActive).map (·.currentLien)).sum

/-- Ids are distinct, and the tied guarantors and the liens belong together one to one. -/
structure Ok (gs : Guarantees) : Prop where
  guarantorIds : (gs.guarantors.map (·.id)).Nodup
  lienIds : (gs.liens.map (·.id)).Nodup
  oneLien : (gs.liens.map (·.loanGuarantorId)).Nodup
  secured : ∀ g ∈ gs.guarantors, g.loanId ≠ none → ∃ lien ∈ gs.liens, lien.loanGuarantorId = g.id
  tied : ∀ lien ∈ gs.liens, ∃ g ∈ gs.guarantors, g.id = lien.loanGuarantorId ∧ g.loanId ≠ none

variable {gs gs' : Guarantees} {i : Uuid}

theorem Ok.guarantor_unique (h : gs.Ok) {g r : LoanGuarantor} (hg : g ∈ gs.guarantors)
    (hr : r ∈ gs.guarantors) (hid : r.id = g.id) : r = g :=
  List.inj_on_of_nodup_map h.guarantorIds hr hg hid

/-- A lien is a lien of one loan only. -/
theorem Ok.lienOf_unique (h : gs.Ok) {lien : LoanGuarantorLien} {j : Uuid}
    (hi : gs.LienOf i lien) (hj : gs.LienOf j lien) : i = j := by
  obtain ⟨g, hg, hgid, hgi⟩ := hi
  obtain ⟨r, hr, hrid, hrj⟩ := hj
  have heq : r = g := h.guarantor_unique hg hr (hrid.trans hgid.symm)
  rw [heq, hgi] at hrj
  exact Option.some.inj hrj

/-- As many liens as guarantors. -/
theorem Ok.length_liensOf (h : gs.Ok) (i : Uuid) :
    (gs.liensOf i).length = (gs.tied i).length := by
  have hperm : ((gs.liensOf i).map (·.loanGuarantorId)).Perm ((gs.tied i).map (·.id)) := by
    rw [List.perm_ext_iff_of_nodup]
    · intro k
      simp only [liensOf, Guarantees.tied, List.mem_map, List.mem_filter, decide_eq_true_eq]
      constructor
      · rintro ⟨lien, ⟨-, g, hg, hid, hi⟩, rfl⟩
        exact ⟨g, ⟨hg, hi⟩, hid⟩
      · rintro ⟨g, ⟨hg, hi⟩, rfl⟩
        obtain ⟨lien, hlien, hid⟩ := h.secured g hg (by rw [hi]; simp)
        exact ⟨lien, ⟨hlien, g, hg, hid.symm, hi⟩, hid⟩
    · exact h.oneLien.sublist (List.filter_sublist.map _)
    · exact h.guarantorIds.sublist (List.filter_sublist.map _)
  have hlen := hperm.length_eq
  rwa [List.length_map, List.length_map] at hlen

/-! ## Updates in place -/

/-- The rows were updated in place; ids, ties and original liens are as they were, and only
rows that belong to the loan `i` changed. -/
structure UpdatedBy (gs gs' : Guarantees) (i : Uuid) (fg : LoanGuarantor → LoanGuarantor)
    (fl : LoanGuarantorLien → LoanGuarantorLien) : Prop where
  guarantors : gs'.guarantors = gs.guarantors.map fg
  liens : gs'.liens = gs.liens.map fl
  guarantor_keeps : ∀ g, (fg g).id = g.id ∧ (fg g).loanId = g.loanId ∧
    (fg g).loanApplicationId = g.loanApplicationId
  lien_keeps : ∀ lien, (fl lien).id = lien.id ∧ (fl lien).loanGuarantorId = lien.loanGuarantorId ∧
    (fl lien).originalLien = lien.originalLien
  guarantor_frame : ∀ g ∈ gs.guarantors, g.loanId ≠ some i → fg g = g
  lien_frame : ∀ lien ∈ gs.liens, ¬ gs.LienOf i lien → fl lien = lien

section

variable {fg : LoanGuarantor → LoanGuarantor} {fl : LoanGuarantorLien → LoanGuarantorLien}

theorem UpdatedBy.lienOf (h : gs.UpdatedBy gs' i fg fl) (j : Uuid) (lien : LoanGuarantorLien) :
    gs'.LienOf j (fl lien) ↔ gs.LienOf j lien := by
  unfold LienOf
  rw [h.guarantors, (h.lien_keeps lien).2.1]
  constructor
  · rintro ⟨g', hg', hid, hj⟩
    obtain ⟨g, hg, rfl⟩ := List.mem_map.mp hg'
    rw [(h.guarantor_keeps g).1] at hid
    rw [(h.guarantor_keeps g).2.1] at hj
    exact ⟨g, hg, hid, hj⟩
  · rintro ⟨g, hg, hid, hj⟩
    refine ⟨fg g, List.mem_map_of_mem hg, ?_, ?_⟩
    · rw [(h.guarantor_keeps g).1, hid]
    · rw [(h.guarantor_keeps g).2.1, hj]

theorem UpdatedBy.length_tied (h : gs.UpdatedBy gs' i fg fl) (j : Uuid) :
    (gs'.tied j).length = (gs.tied j).length := by
  unfold Guarantees.tied
  rw [h.guarantors, List.filter_map, List.length_map]
  congr 2
  funext g
  simp [(h.guarantor_keeps g).2.1]

theorem UpdatedBy.ok (h : gs.UpdatedBy gs' i fg fl) (hok : gs.Ok) : gs'.Ok := by
  refine ⟨?_, ?_, ?_, ?_, ?_⟩
  · rw [h.guarantors, List.map_map]
    have heq : (fun g : LoanGuarantor => g.id) ∘ fg = fun g => g.id :=
      funext fun g => (h.guarantor_keeps g).1
    rw [heq]
    exact hok.guarantorIds
  · rw [h.liens, List.map_map]
    have heq : (fun lien : LoanGuarantorLien => lien.id) ∘ fl = fun lien => lien.id :=
      funext fun lien => (h.lien_keeps lien).1
    rw [heq]
    exact hok.lienIds
  · rw [h.liens, List.map_map]
    have heq : (fun lien : LoanGuarantorLien => lien.loanGuarantorId) ∘ fl
        = fun lien => lien.loanGuarantorId := funext fun lien => (h.lien_keeps lien).2.1
    rw [heq]
    exact hok.oneLien
  · intro g' hg' htied
    rw [h.guarantors] at hg'
    obtain ⟨g, hg, rfl⟩ := List.mem_map.mp hg'
    rw [(h.guarantor_keeps g).2.1] at htied
    obtain ⟨lien, hlien, hid⟩ := hok.secured g hg htied
    refine ⟨fl lien, ?_, ?_⟩
    · rw [h.liens]
      exact List.mem_map_of_mem hlien
    · rw [(h.lien_keeps lien).2.1, (h.guarantor_keeps g).1, hid]
  · intro lien' hlien'
    rw [h.liens] at hlien'
    obtain ⟨lien, hlien, rfl⟩ := List.mem_map.mp hlien'
    obtain ⟨g, hg, hid, htied⟩ := hok.tied lien hlien
    refine ⟨fg g, ?_, ?_, ?_⟩
    · rw [h.guarantors]
      exact List.mem_map_of_mem hg
    · rw [(h.guarantor_keeps g).1, (h.lien_keeps lien).2.1, hid]
    · rw [(h.guarantor_keeps g).2.1]
      exact htied

end

/-! ## Closed forms of the operations -/

/-- What `release_liens` makes of a guarantor and of a lien. -/
def releasedGuarantor (i : Uuid) (g : LoanGuarantor) : LoanGuarantor :=
  if g.loanId = some i ∧ g.status = .accepted then { g with status := .released } else g

def releasedLien (gs : Guarantees) (i : Uuid) (lien : LoanGuarantorLien) : LoanGuarantorLien :=
  if gs.LienOf i lien ∧ lien.isActive then { lien with isActive := false, currentLien := 0 }
  else lien

theorem releaseLiens_updatedBy (gs : Guarantees) (i : Uuid) :
    gs.UpdatedBy (gs.releaseLiens i) i (releasedGuarantor i) (gs.releasedLien i) where
  guarantors := rfl
  liens := rfl
  guarantor_keeps := by
    intro g
    unfold releasedGuarantor
    split_ifs <;> exact ⟨rfl, rfl, rfl⟩
  lien_keeps := by
    intro lien
    unfold releasedLien
    split_ifs <;> exact ⟨rfl, rfl, rfl⟩
  guarantor_frame := fun g _ hne => if_neg fun h => hne h.1
  lien_frame := fun lien _ hne => if_neg fun h => hne h.1

/-- What `adjust_liens` makes of a lien, in exact arithmetic. -/
def adjustedLien (gs : Guarantees) (i : Uuid) (fraction : ℚ) (lien : LoanGuarantorLien) :
    LoanGuarantorLien :=
  if gs.LienOf i lien ∧ lien.isActive then
    { lien with currentLien := max 0 (lien.currentLien - lien.originalLien * fraction) }
  else lien

theorem adjustLiens_updatedBy (gs : Guarantees) (i : Uuid) {applied principal : ℚ}
    (happlied : 0 < applied) (hprincipal : 0 < principal) :
    gs.UpdatedBy (gs.adjustLiens .exact i applied principal) i id
      (gs.adjustedLien i (applied / principal)) := by
  have hnot : ¬ (applied ≤ 0 ∨ principal ≤ 0) := by
    rintro (h | h) <;> linarith
  unfold adjustLiens
  rw [if_neg hnot]
  refine ⟨(List.map_id _).symm, rfl, fun g => ⟨rfl, rfl, rfl⟩, ?_, fun _ _ _ => rfl,
    fun lien _ hne => if_neg fun h => hne h.1⟩
  intro lien
  unfold adjustedLien
  split_ifs <;> exact ⟨rfl, rfl, rfl⟩

/-- What `reactivate_liens` makes of a guarantor and of a lien, for the guarantors `ids`. -/
def acceptedGuarantor (ids : List Uuid) (g : LoanGuarantor) : LoanGuarantor :=
  if g.id ∈ ids then { g with status := .accepted } else g

def reactivatedLien (ids : List Uuid) (share : ℚ) (lien : LoanGuarantorLien) :
    LoanGuarantorLien :=
  if lien.loanGuarantorId ∈ ids ∧ lien.isActive = false then
    { lien with currentLien := share, isActive := true }
  else lien

def reactivated (gs : Guarantees) (ids : List Uuid) (share : ℚ) : Guarantees :=
  ⟨gs.guarantors.map (acceptedGuarantor ids), gs.liens.map (reactivatedLien ids share)⟩

/-- A guarantor has at most one inactive lien, so the last one is the one. -/
theorem lastInactiveLien?_eq_some (hone : (gs.liens.map (·.loanGuarantorId)).Nodup)
    {g : LoanGuarantor} {lien : LoanGuarantorLien} :
    gs.lastInactiveLien? g.id = some lien ↔
      lien ∈ gs.liens ∧ lien.loanGuarantorId = g.id ∧ lien.isActive = false := by
  unfold lastInactiveLien?
  constructor
  · intro h
    have hmem := List.mem_of_getLast? h
    simpa using hmem
  · rintro ⟨hmem, hid, hinactive⟩
    have hin : lien ∈ gs.liens.filter fun lien =>
        lien.loanGuarantorId = g.id ∧ lien.isActive = false := by
      simp [hmem, hid, hinactive]
    cases hlast : (gs.liens.filter fun lien =>
        lien.loanGuarantorId = g.id ∧ lien.isActive = false).getLast? with
    | none =>
      rw [List.getLast?_eq_none_iff] at hlast
      rw [hlast] at hin
      cases hin
    | some other =>
      have hother := List.mem_of_getLast? hlast
      simp only [List.mem_filter, decide_eq_true_eq] at hother
      have heq : other = lien :=
        List.inj_on_of_nodup_map hone hother.1 hmem (hother.2.1.trans hid.symm)
      rw [heq]

/-- One round of `reactivate_liens` in closed form. -/
theorem reactivate_eq {share : ℚ} {g : LoanGuarantor}
    (hids : (gs.guarantors.map (·.id)).Nodup) (hlids : (gs.liens.map (·.id)).Nodup)
    (hone : (gs.liens.map (·.loanGuarantorId)).Nodup) (hg : g ∈ gs.guarantors) :
    reactivate .exact share gs g = gs.reactivated [g.id] share := by
  have hguarantors : (gs.putGuarantor { g with status := .accepted }).guarantors
      = gs.guarantors.map (acceptedGuarantor [g.id]) := by
    have h := map_put_eq hids hg fun r => { r with status := .accepted }
    unfold putGuarantor acceptedGuarantor
    simp only [List.mem_singleton]
    exact h
  have hliens : (gs.putGuarantor { g with status := .accepted }).liens = gs.liens := rfl
  have hlast : (gs.putGuarantor { g with status := .accepted }).lastInactiveLien? g.id
      = gs.lastInactiveLien? g.id := rfl
  unfold reactivate reactivated
  simp only [hlast]
  cases hfound : gs.lastInactiveLien? g.id with
  | none =>
    -- No inactive lien: the lien rows are as they were.
    have hsame : gs.liens.map (reactivatedLien [g.id] share) = gs.liens := by
      conv_rhs => rw [← List.map_id gs.liens]
      apply List.map_congr_left
      intro lien hlien
      apply if_neg
      rintro ⟨hid, hinactive⟩
      have hsome := (lastInactiveLien?_eq_some hone).mpr
        ⟨hlien, List.mem_singleton.mp hid, hinactive⟩
      rw [hfound] at hsome
      cases hsome
    simp only
    rw [hsame, ← hguarantors]
    rfl
  | some lien =>
    obtain ⟨hmem, hid, hinactive⟩ := (lastInactiveLien?_eq_some hone).mp hfound
    have hput : (gs.liens.map fun r =>
        if r.id = lien.id then { lien with currentLien := share, isActive := true } else r)
        = gs.liens.map (reactivatedLien [g.id] share) := by
      have h := map_put_eq hlids hmem fun r => { r with currentLien := share, isActive := true }
      refine h.trans (List.map_congr_left ?_)
      intro r hr
      unfold reactivatedLien
      by_cases heq : r.id = lien.id
      · have hrl : r = lien := List.inj_on_of_nodup_map hlids hr hmem heq
        rw [if_pos heq, hrl, if_pos ⟨List.mem_singleton.mpr hid, hinactive⟩]
      · rw [if_neg heq]
        symm
        apply if_neg
        rintro ⟨hrid, -⟩
        apply heq
        have hrl : r = lien :=
          List.inj_on_of_nodup_map hone hr hmem ((List.mem_singleton.mp hrid).trans hid.symm)
        rw [hrl]
    simp only
    rw [← hput, ← hguarantors]
    rfl

theorem map_id_reactivated (gs : Guarantees) (ids : List Uuid) (share : ℚ) :
    (gs.reactivated ids share).guarantors.map (·.id) = gs.guarantors.map (·.id) ∧
      (gs.reactivated ids share).liens.map (·.id) = gs.liens.map (·.id) ∧
      (gs.reactivated ids share).liens.map (·.loanGuarantorId)
        = gs.liens.map (·.loanGuarantorId) := by
  unfold reactivated
  simp only [List.map_map]
  refine ⟨?_, ?_, ?_⟩ <;> apply List.map_congr_left <;> intro r _
  · show (acceptedGuarantor ids r).id = r.id
    unfold acceptedGuarantor
    split_ifs <;> rfl
  · show (reactivatedLien ids share r).id = r.id
    unfold reactivatedLien
    split_ifs <;> rfl
  · show (reactivatedLien ids share r).loanGuarantorId = r.loanGuarantorId
    unfold reactivatedLien
    split_ifs <;> rfl

/-- Reactivating one guarantor and then others is reactivating them all. -/
theorem reactivated_cons (gs : Guarantees) (i : Uuid) (ids : List Uuid) (share : ℚ) :
    (gs.reactivated [i] share).reactivated ids share = gs.reactivated (i :: ids) share := by
  unfold reactivated
  simp only [List.map_map, Guarantees.mk.injEq]
  refine ⟨?_, ?_⟩ <;> apply List.map_congr_left <;> intro r _
  · show acceptedGuarantor ids (acceptedGuarantor [i] r) = acceptedGuarantor (i :: ids) r
    unfold acceptedGuarantor
    by_cases h : r.id = i
    · simp [h]
    · simp [h]
  · show reactivatedLien ids share (reactivatedLien [i] share r) = reactivatedLien (i :: ids) share r
    unfold reactivatedLien
    by_cases h : r.loanGuarantorId = i
    · by_cases ha : r.isActive = false
      · simp [h, ha]
      · simp [ha]
    · simp [h]

/-- The loop of `reactivate_liens` in closed form. -/
theorem foldl_reactivate {share : ℚ} {released : List LoanGuarantor}
    (hids : (gs.guarantors.map (·.id)).Nodup) (hlids : (gs.liens.map (·.id)).Nodup)
    (hone : (gs.liens.map (·.loanGuarantorId)).Nodup)
    (hmem : ∀ g ∈ released, g ∈ gs.guarantors) (hnodup : (released.map (·.id)).Nodup) :
    released.foldl (reactivate .exact share) gs = gs.reactivated (released.map (·.id)) share := by
  induction released generalizing gs with
  | nil =>
    unfold reactivated acceptedGuarantor reactivatedLien
    simp
  | cons g rest ih =>
    obtain ⟨hnotin, hrest⟩ := List.nodup_cons.mp hnodup
    obtain ⟨hg, hl, ho⟩ := map_id_reactivated gs [g.id] share
    rw [List.foldl_cons, reactivate_eq hids hlids hone (hmem g List.mem_cons_self),
      ih (by rwa [hg]) (by rwa [hl]) (by rwa [ho]) ?_ hrest, reactivated_cons]
    · rfl
    · -- The guarantors still to come were not touched by this round.
      intro r hr
      have hne : r.id ∉ [g.id] := by
        intro h
        apply hnotin
        show g.id ∈ rest.map (·.id)
        rw [← List.mem_singleton.mp h]
        exact List.mem_map_of_mem hr
      have hsame : acceptedGuarantor [g.id] r = r := if_neg hne
      rw [← hsame]
      exact List.mem_map_of_mem (hmem r (List.mem_cons_of_mem _ hr))

/-- The released guarantors of the loan. -/
def releasedOf (gs : Guarantees) (i : Uuid) : List LoanGuarantor :=
  gs.guarantors.filter fun g => g.loanId = some i ∧ g.status = .released

theorem reactivateLiens_eq (hok : gs.Ok) (i : Uuid) (amount : ℚ) :
    gs.reactivateLiens .exact i amount = gs.reactivated ((gs.releasedOf i).map (·.id))
      (amount / (gs.releasedOf i).length) := by
  apply foldl_reactivate hok.guarantorIds hok.lienIds hok.oneLien
  · intro g hg
    exact List.mem_of_mem_filter hg
  · exact hok.guarantorIds.sublist (List.filter_sublist.map _)

theorem reactivateLiens_updatedBy (hok : gs.Ok) (i : Uuid) (amount : ℚ) :
    gs.UpdatedBy (gs.reactivateLiens .exact i amount) i
      (acceptedGuarantor ((gs.releasedOf i).map (·.id)))
      (reactivatedLien ((gs.releasedOf i).map (·.id)) (amount / (gs.releasedOf i).length)) := by
  rw [reactivateLiens_eq hok]
  refine ⟨rfl, rfl, ?_, ?_, ?_, ?_⟩
  · intro g
    unfold acceptedGuarantor
    split_ifs <;> exact ⟨rfl, rfl, rfl⟩
  · intro lien
    unfold reactivatedLien
    split_ifs <;> exact ⟨rfl, rfl, rfl⟩
  · intro g hg hne
    apply if_neg
    intro hin
    obtain ⟨r, hr, hid⟩ := List.mem_map.mp hin
    simp only [releasedOf, List.mem_filter, decide_eq_true_eq] at hr
    have heq : r = g := hok.guarantor_unique hg hr.1 hid
    exact hne (heq ▸ hr.2.1)
  · intro lien hlien hne
    apply if_neg
    rintro ⟨hin, -⟩
    obtain ⟨r, hr, hid⟩ := List.mem_map.mp hin
    simp only [releasedOf, List.mem_filter, decide_eq_true_eq] at hr
    exact hne ⟨r, hr.1, hid, hr.2.1⟩

/-! ## How guarantees stand behind a loan -/

/-- Every lien of the loan was placed for an equal share of its principal; while the loan runs
it is active and holds an equal share of the outstanding principal; once the loan is closed or
written off it is released. -/
structure Secures (gs : Guarantees) (l : Loan) : Prop where
  original : ∀ lien ∈ gs.liens, gs.LienOf l.id lien →
    lien.originalLien = l.principalAmount.val / (gs.tied l.id).length
  accepted : l.Active → ∀ g ∈ gs.guarantors, g.loanId = some l.id → g.status = .accepted
  active : l.Active → ∀ lien ∈ gs.liens, gs.LienOf l.id lien → lien.isActive = true ∧
    lien.currentLien = l.outstandingPrincipal.val / (gs.tied l.id).length
  released : l.status = .closed ∨ l.status = .writtenOff →
    ∀ g ∈ gs.guarantors, g.loanId = some l.id → g.status = .released
  inactive : l.status = .closed ∨ l.status = .writtenOff →
    ∀ lien ∈ gs.liens, gs.LienOf l.id lien → lien.isActive = false

section

variable {fg : LoanGuarantor → LoanGuarantor} {fl : LoanGuarantorLien → LoanGuarantorLien}
  {l row : Loan}

/-- The guarantees after an update, for a row with the same id and principal. -/
theorem UpdatedBy.secures (h : gs.UpdatedBy gs' i fg fl) (hl : gs.Secures l)
    (hid : row.id = l.id) (hprincipal : row.principalAmount = l.principalAmount)
    (haccepted : row.Active → ∀ g ∈ gs.guarantors, g.loanId = some l.id → (fg g).status = .accepted)
    (hactive : row.Active → ∀ lien ∈ gs.liens, gs.LienOf l.id lien → (fl lien).isActive = true ∧
      (fl lien).currentLien = row.outstandingPrincipal.val / (gs.tied l.id).length)
    (hreleased : row.status = .closed ∨ row.status = .writtenOff →
      ∀ g ∈ gs.guarantors, g.loanId = some l.id → (fg g).status = .released)
    (hinactive : row.status = .closed ∨ row.status = .writtenOff →
      ∀ lien ∈ gs.liens, gs.LienOf l.id lien → (fl lien).isActive = false) : gs'.Secures row := by
  have hguarantor : ∀ {p : LoanGuarantor → Prop},
      (∀ g ∈ gs.guarantors, g.loanId = some l.id → p (fg g)) →
      ∀ g ∈ gs'.guarantors, g.loanId = some row.id → p g := by
    intro p hp g' hg' hi
    rw [h.guarantors] at hg'
    obtain ⟨g, hg, rfl⟩ := List.mem_map.mp hg'
    rw [(h.guarantor_keeps g).2.1, hid] at hi
    exact hp g hg hi
  have hlien : ∀ {p : LoanGuarantorLien → Prop},
      (∀ lien ∈ gs.liens, gs.LienOf l.id lien → p (fl lien)) →
      ∀ lien ∈ gs'.liens, gs'.LienOf row.id lien → p lien := by
    intro p hp lien' hlien' hof
    rw [h.liens] at hlien'
    obtain ⟨lien, hlien, rfl⟩ := List.mem_map.mp hlien'
    rw [h.lienOf, hid] at hof
    exact hp lien hlien hof
  refine ⟨?_, fun ha => hguarantor (haccepted ha), ?_, fun hs => hguarantor (hreleased hs),
    fun hs => hlien (hinactive hs)⟩
  · apply hlien
    intro lien hmem hof
    rw [(h.lien_keeps lien).2.2, h.length_tied, hid, hprincipal]
    exact hl.original lien hmem hof
  · intro ha
    rw [h.length_tied, hid]
    rw [hid] at hlien
    exact hlien (p := fun lien => lien.isActive = true ∧
      lien.currentLien = row.outstandingPrincipal.val / (gs.tied l.id).length) (hactive ha)

/-- An update for one loan leaves what stands behind another. -/
theorem UpdatedBy.secures_of_ne (h : gs.UpdatedBy gs' i fg fl) (hok : gs.Ok) (hl : gs.Secures l)
    (hne : l.id ≠ i) : gs'.Secures l := by
  have hfg : ∀ g ∈ gs.guarantors, g.loanId = some l.id → fg g = g := by
    intro g hg hi
    apply h.guarantor_frame g hg
    rw [hi]
    exact fun heq => hne (Option.some.inj heq)
  have hfl : ∀ lien ∈ gs.liens, gs.LienOf l.id lien → fl lien = lien := by
    intro lien hlien hof
    exact h.lien_frame lien hlien fun hi => hne (hok.lienOf_unique hof hi)
  refine h.secures hl rfl rfl ?_ ?_ ?_ ?_
  · intro ha g hg hi
    rw [hfg g hg hi]
    exact hl.accepted ha g hg hi
  · intro ha lien hlien hof
    rw [hfl lien hlien hof]
    exact hl.active ha lien hlien hof
  · intro hs g hg hi
    rw [hfg g hg hi]
    exact hl.released hs g hg hi
  · intro hs lien hlien hof
    rw [hfl lien hlien hof]
    exact hl.inactive hs lien hlien hof

/-- Liens that each hold an equal share cover the outstanding principal together. -/
theorem Secures.covered_eq (hok : gs.Ok) (hl : gs.Secures l) (ha : l.Active)
    (htied : gs.tied l.id ≠ []) : gs.covered l.id = l.outstandingPrincipal.val := by
  have hall : (gs.liensOf l.id).filter (fun lien => lien.isActive) = gs.liensOf l.id := by
    rw [List.filter_eq_self]
    intro lien hlien
    simp only [liensOf, List.mem_filter, decide_eq_true_eq] at hlien
    exact (hl.active ha lien hlien.1 hlien.2).1
  have hshare : (gs.liensOf l.id).map (·.currentLien)
      = List.replicate (gs.tied l.id).length
          (l.outstandingPrincipal.val / (gs.tied l.id).length) := by
    rw [← hok.length_liensOf, List.eq_replicate_iff]
    refine ⟨List.length_map _, ?_⟩
    intro q hq
    obtain ⟨lien, hlien, rfl⟩ := List.mem_map.mp hq
    simp only [liensOf, List.mem_filter, decide_eq_true_eq] at hlien
    rw [hok.length_liensOf]
    exact (hl.active ha lien hlien.1 hlien.2).2
  have hcount : ((gs.tied l.id).length : ℚ) ≠ 0 := by
    rw [Nat.cast_ne_zero]
    exact fun h => htied (List.length_eq_zero_iff.mp h)
  unfold covered
  rw [hall, hshare, List.sum_replicate, nsmul_eq_mul]
  field_simp

end

/-! ## Guarantees touched for one loan -/

/-- The guarantees changed for the loan `i` alone. -/
structure Touched (gs gs' : Guarantees) (i : Uuid) : Prop where
  ok : gs'.Ok
  others : ∀ r : Loan, r.id ≠ i → gs.Secures r → gs'.Secures r
  ties : gs'.guarantors.map (fun g => (g.loanId, g.loanApplicationId))
    = gs.guarantors.map fun g => (g.loanId, g.loanApplicationId)
  lienIds : gs'.liens.map (·.id) = gs.liens.map (·.id)

theorem Touched.refl (hok : gs.Ok) (i : Uuid) : gs.Touched gs i :=
  ⟨hok, fun _ _ h => h, rfl, rfl⟩

theorem Touched.trans {gs₁ : Guarantees} (h : gs.Touched gs₁ i) (h' : gs₁.Touched gs' i) :
    gs.Touched gs' i :=
  ⟨h'.ok, fun r hr hs => h'.others r hr (h.others r hr hs), h'.ties.trans h.ties,
    h'.lienIds.trans h.lienIds⟩

theorem UpdatedBy.touched {fg : LoanGuarantor → LoanGuarantor}
    {fl : LoanGuarantorLien → LoanGuarantorLien} (h : gs.UpdatedBy gs' i fg fl) (hok : gs.Ok) :
    gs.Touched gs' i := by
  refine ⟨h.ok hok, fun r hr hs => h.secures_of_ne hok hs hr, ?_, ?_⟩
  · rw [h.guarantors, List.map_map]
    apply List.map_congr_left
    intro g _
    show ((fg g).loanId, (fg g).loanApplicationId) = _
    rw [(h.guarantor_keeps g).2.1, (h.guarantor_keeps g).2.2]
  · rw [h.liens, List.map_map]
    apply List.map_congr_left
    intro lien _
    exact (h.lien_keeps lien).1

section

variable {l row : Loan}

/-- Only these columns of the loan matter. -/
theorem Secures.of_eq (h : gs.Secures l) (hid : row.id = l.id)
    (hprincipal : row.principalAmount = l.principalAmount) (hstatus : row.status = l.status)
    (hout : row.outstandingPrincipal.val = l.outstandingPrincipal.val) : gs.Secures row := by
  refine ⟨?_, ?_, ?_, ?_, ?_⟩
  · rw [hid, hprincipal]
    exact h.original
  · unfold Loan.Active
    rw [hid, hstatus]
    exact h.accepted
  · unfold Loan.Active
    rw [hid, hstatus, hout]
    exact h.active
  · rw [hid, hstatus]
    exact h.released
  · rw [hid, hstatus]
    exact h.inactive

/-- A loan without guarantors has nothing to secure. -/
theorem secures_of_untied (h : gs.tied l.id = []) : gs.Secures l := by
  have hnone : ∀ g ∈ gs.guarantors, g.loanId ≠ some l.id := by
    intro g hg hi
    have hmem : g ∈ gs.tied l.id := by simp [Guarantees.tied, hg, hi]
    rw [h] at hmem
    cases hmem
  have hnolien : ∀ lien, ¬ gs.LienOf l.id lien := by
    rintro lien ⟨g, hg, -, hi⟩
    exact hnone g hg hi
  exact ⟨fun lien _ hof => absurd hof (hnolien lien), fun _ g hg hi => absurd hi (hnone g hg),
    fun _ lien _ hof => absurd hof (hnolien lien), fun _ g hg hi => absurd hi (hnone g hg),
    fun _ lien _ hof => absurd hof (hnolien lien)⟩

/-- Releasing the liens of a running loan secures the closed or written-off row. -/
theorem releaseLiens_secures (h : gs.Secures l) (ha : l.Active) (hid : row.id = l.id)
    (hprincipal : row.principalAmount = l.principalAmount)
    (hover : row.status = .closed ∨ row.status = .writtenOff) :
    (gs.releaseLiens l.id).Secures row := by
  have hnot : ¬ row.Active := by
    unfold Loan.Active
    rcases hover with h | h <;> rw [h] <;> decide
  refine (gs.releaseLiens_updatedBy l.id).secures h hid hprincipal (fun hr => absurd hr hnot)
    (fun hr => absurd hr hnot) ?_ ?_
  · intro _ g hg hi
    rw [releasedGuarantor, if_pos ⟨hi, h.accepted ha g hg hi⟩]
  · intro _ lien hlien hof
    rw [releasedLien, if_pos ⟨hof, (h.active ha lien hlien hof).1⟩]

/-- A repayment of principal lowers every lien by its share. -/
theorem adjustLiens_secures (h : gs.Secures l) (ha : l.Active) {applied : ℚ}
    (hpos : 0 < applied) (hle : applied ≤ l.outstandingPrincipal.val)
    (hprincipal_pos : 0 < l.principalAmount.val) (hid : row.id = l.id)
    (hprincipal : row.principalAmount = l.principalAmount) (hstatus : row.status = l.status)
    (hout : row.outstandingPrincipal.val = l.outstandingPrincipal.val - applied) :
    (gs.adjustLiens .exact l.id applied l.principalAmount.val).Secures row := by
  have hnot : ¬ (row.status = .closed ∨ row.status = .writtenOff) := by
    rw [hstatus]
    rcases ha with h | h <;> rw [h] <;> decide
  refine (gs.adjustLiens_updatedBy l.id hpos hprincipal_pos).secures h hid hprincipal
    (fun _ => h.accepted ha) ?_ (fun hr => absurd hr hnot) (fun hr => absurd hr hnot)
  intro _ lien hlien hof
  obtain ⟨hactive, hcurrent⟩ := h.active ha lien hlien hof
  rw [adjustedLien, if_pos ⟨hof, hactive⟩]
  refine ⟨hactive, ?_⟩
  -- The share of the principal times the fraction paid is the share of the payment.
  have hshare : lien.currentLien - lien.originalLien * (applied / l.principalAmount.val)
      = (l.outstandingPrincipal.val - applied) / (gs.tied l.id).length := by
    rw [hcurrent, h.original lien hlien hof]
    field_simp
  have hnonneg : 0 ≤ (l.outstandingPrincipal.val - applied) / (gs.tied l.id).length :=
    div_nonneg (sub_nonneg.mpr hle) (Nat.cast_nonneg _)
  show max 0 (lien.currentLien - lien.originalLien * (applied / l.principalAmount.val)) = _
  rw [hshare, max_eq_right hnonneg, hout]

/-- A recovery on a written-off loan gives every lien an equal share of the amount. -/
theorem reactivateLiens_secures (hok : gs.Ok) (h : gs.Secures l) (hwo : l.status = .writtenOff)
    {amount : ℚ} (hid : row.id = l.id) (hprincipal : row.principalAmount = l.principalAmount)
    (hstatus : row.status = .inArrears) (hout : row.outstandingPrincipal.val = amount) :
    (gs.reactivateLiens .exact l.id amount).Secures row := by
  have hnot : ¬ (row.status = .closed ∨ row.status = .writtenOff) := by
    rw [hstatus]
    decide
  -- All guarantors of a written-off loan are released.
  have hall : gs.releasedOf l.id = gs.tied l.id := by
    apply List.filter_congr
    intro g hg
    by_cases hi : g.loanId = some l.id
    · simp [hi, h.released (.inr hwo) g hg hi]
    · simp [hi]
  refine (reactivateLiens_updatedBy hok l.id amount).secures h hid hprincipal ?_ ?_
    (fun hr => absurd hr hnot) (fun hr => absurd hr hnot)
  · intro _ g hg hi
    have hin : g.id ∈ (gs.releasedOf l.id).map (·.id) := by
      rw [hall]
      exact List.mem_map_of_mem (by simp [Guarantees.tied, hg, hi])
    rw [acceptedGuarantor, if_pos hin]
  · intro _ lien hlien hof
    have hin : lien.loanGuarantorId ∈ (gs.releasedOf l.id).map (·.id) := by
      obtain ⟨g, hg, hgid, hi⟩ := hof
      rw [hall, ← hgid]
      exact List.mem_map_of_mem (by simp [Guarantees.tied, hg, hi])
    rw [reactivatedLien, if_pos ⟨hin, h.inactive (.inr hwo) lien hlien hof⟩, hall, hout]
    exact ⟨rfl, rfl⟩

end

end Guarantees

/-! ## Disbursement -/

/-- What `place_liens` makes of a guarantor, for the guarantors `ids`. -/
def tiedGuarantor (ids : List Uuid) (i : Uuid) (g : LoanGuarantor) : LoanGuarantor :=
  if g.id ∈ ids then { g with loanId := some i } else g

theorem tiedGuarantor_keeps (ids : List Uuid) (i : Uuid) (g : LoanGuarantor) :
    (tiedGuarantor ids i g).id = g.id ∧ (tiedGuarantor ids i g).status = g.status ∧
      (tiedGuarantor ids i g).loanApplicationId = g.loanApplicationId := by
  unfold tiedGuarantor
  split_ifs <;> exact ⟨rfl, rfl, rfl⟩

/-- The liens that `place_liens` adds, for these guarantors. -/
structure NewLiens (ids : List Uuid) (share : ℚ) (n n' : ℕ) (new : List LoanGuarantorLien) :
    Prop where
  guarantors : new.map (·.loanGuarantorId) = ids
  nodup : (new.map (·.id)).Nodup
  shares : ∀ lien ∈ new, lien.originalLien = share ∧ lien.currentLien = share ∧
    lien.isActive = true
  drawn : ∀ lien ∈ new, n ≤ lien.id ∧ lien.id < n'

theorem placeLien_ok {i : Uuid} {share : ℚ} {g : LoanGuarantor} {t t' : Tables} {u : Unit}
    (h : placeLien .exact i share g t = .ok u t') :
    ∃ account : Uuid, t'.nextId = t.nextId + 1 ∧
      t'.guarantees = ⟨t.guarantors.map fun r => if r.id = g.id then { g with loanId := some i } else r,
        t.liens ++ [⟨t.nextId, g.id, account, share, share, true⟩]⟩ := by
  simp only [placeLien, modifyGuarantees, modify_bind_eq_ok, get_bind_eq_ok, orRaise_bind_eq_ok,
    freshId_bind_eq_ok, constraint_bind_eq_ok, modify_eq_ok] at h
  obtain ⟨account, -, -, rfl⟩ := h
  exact ⟨account.id, rfl, rfl⟩

theorem forEach_placeLien_ok {i : Uuid} {share : ℚ} {gl : List LoanGuarantor} {t t' : Tables}
    {u : Unit} (h : forEach (placeLien .exact i share) gl t = .ok u t')
    (hids : (t.guarantors.map (·.id)).Nodup) (hmem : ∀ g ∈ gl, g ∈ t.guarantors)
    (hnodup : (gl.map (·.id)).Nodup) :
    t.nextId ≤ t'.nextId ∧ ∃ new, NewLiens (gl.map (·.id)) share t.nextId t'.nextId new ∧
      t'.guarantees = ⟨t.guarantors.map (tiedGuarantor (gl.map (·.id)) i), t.liens ++ new⟩ := by
  induction gl generalizing t with
  | nil =>
    obtain ⟨-, rfl⟩ := pure_eq_ok.mp h
    refine ⟨le_rfl, [], ⟨rfl, List.nodup_nil, nofun, nofun⟩, ?_⟩
    unfold tiedGuarantor Tables.guarantees
    simp
  | cons g rest ih =>
    obtain ⟨hnotin, hrest⟩ := List.nodup_cons.mp hnodup
    obtain ⟨_, t₁, hplace, hloop⟩ := bind_eq_ok.mp h
    obtain ⟨account, hn₁, hgs₁⟩ := placeLien_ok hplace
    -- after the first lien the remaining guarantors are rows of the new table, under the same ids
    have hput := map_put_eq hids (hmem g List.mem_cons_self) fun r => { r with loanId := some i }
    have hg₁ : t₁.guarantors = t.guarantors.map (tiedGuarantor [g.id] i) := by
      have hfst := congrArg Guarantees.guarantors hgs₁
      refine hfst.trans (hput.trans ?_)
      unfold tiedGuarantor
      simp only [List.mem_singleton]
    have hl₁ : t₁.liens = t.liens ++ [⟨t.nextId, g.id, account, share, share, true⟩] :=
      congrArg Guarantees.liens hgs₁
    have hids₁ : (t₁.guarantors.map (·.id)).Nodup := by
      rw [hg₁, List.map_map]
      have heq : (fun r : LoanGuarantor => r.id) ∘ tiedGuarantor [g.id] i = fun r => r.id :=
        funext fun r => (tiedGuarantor_keeps [g.id] i r).1
      rw [heq]
      exact hids
    have hmem₁ : ∀ r ∈ rest, r ∈ t₁.guarantors := by
      intro r hr
      have hne : r.id ∉ [g.id] := by
        intro hin
        apply hnotin
        show g.id ∈ rest.map (·.id)
        rw [← List.mem_singleton.mp hin]
        exact List.mem_map_of_mem hr
      have hsame : tiedGuarantor [g.id] i r = r := if_neg hne
      rw [hg₁, ← hsame]
      exact List.mem_map_of_mem (hmem r (List.mem_cons_of_mem _ hr))
    -- its lien comes before those of the rest
    obtain ⟨hn, new, hnew, hgs⟩ := ih hloop hids₁ hmem₁ hrest
    refine ⟨by omega, ⟨t.nextId, g.id, account, share, share, true⟩ :: new, ⟨?_, ?_, ?_, ?_⟩, ?_⟩
    · rw [List.map_cons, List.map_cons, hnew.guarantors]
    · rw [List.map_cons, List.nodup_cons]
      refine ⟨?_, hnew.nodup⟩
      -- later liens drew later ids
      intro hin
      obtain ⟨lien, hlien, hid⟩ := List.mem_map.mp hin
      have hdrawn := (hnew.drawn lien hlien).1
      have hid : lien.id = t.nextId := hid
      rw [hid, hn₁] at hdrawn
      exact absurd hdrawn (Nat.not_succ_le_self _)
    · intro lien hlien
      rcases List.mem_cons.mp hlien with rfl | hlien
      · exact ⟨rfl, rfl, rfl⟩
      · exact hnew.shares lien hlien
    · intro lien hlien
      rcases List.mem_cons.mp hlien with rfl | hlien
      · refine ⟨le_rfl, ?_⟩
        show t.nextId < t'.nextId
        omega
      · obtain ⟨hlow, hhigh⟩ := hnew.drawn lien hlien
        rw [hn₁] at hlow
        exact ⟨(Nat.le_succ _).trans hlow, hhigh⟩
    · rw [hgs, hg₁, hl₁, List.map_map, List.append_assoc, List.singleton_append]
      congr 1
      apply List.map_congr_left
      intro r _
      show tiedGuarantor _ i (tiedGuarantor [g.id] i r) = _
      unfold tiedGuarantor
      by_cases hr : r.id = g.id
      · simp [hr]
      · simp [hr]

namespace Guarantees

/-- The guarantees once liens were placed for the loan `i` on the guarantors `ids`. -/
def placed (gs : Guarantees) (ids : List Uuid) (i : Uuid) (new : List LoanGuarantorLien) :
    Guarantees :=
  ⟨gs.guarantors.map (tiedGuarantor ids i), gs.liens ++ new⟩

/-- The liens are placed on guarantors that were not tied yet, for a loan that had none. -/
structure Placement (gs : Guarantees) (ids : List Uuid) (i : Uuid) (share : ℚ) (n n' : ℕ)
    (new : List LoanGuarantorLien) : Prop where
  ok : gs.Ok
  new : NewLiens ids share n n' new
  nodup : ids.Nodup
  known : ∀ k ∈ ids, ∃ g ∈ gs.guarantors, g.id = k
  free : ∀ g ∈ gs.guarantors, g.id ∈ ids → g.loanId = none
  drawn : ∀ lien ∈ gs.liens, lien.id < n
  fresh : ∀ g ∈ gs.guarantors, g.loanId ≠ some i

section

variable {gs : Guarantees} {ids : List Uuid} {i j : Uuid} {share : ℚ} {n n' : ℕ}
  {new : List LoanGuarantorLien}

/-- The liens there were belong to other guarantors. -/
theorem Placement.old_not_mem (h : gs.Placement ids i share n n' new) {lien : LoanGuarantorLien}
    (hlien : lien ∈ gs.liens) : lien.loanGuarantorId ∉ ids := by
  intro hin
  obtain ⟨g, hg, hid, htied⟩ := h.ok.tied lien hlien
  exact htied (h.free g hg (hid ▸ hin))

theorem Placement.new_mem (h : gs.Placement ids i share n n' new) {lien : LoanGuarantorLien}
    (hlien : lien ∈ new) : lien.loanGuarantorId ∈ ids := by
  rw [← h.new.guarantors]
  exact List.mem_map_of_mem hlien

/-- Which liens are whose, after liens were placed. -/
theorem Placement.lienOf_old (h : gs.Placement ids i share n n' new) {lien : LoanGuarantorLien}
    (hlien : lien ∈ gs.liens) : (gs.placed ids i new).LienOf j lien ↔ gs.LienOf j lien := by
  have hold := h.old_not_mem hlien
  constructor
  · rintro ⟨g', hg', hid, hj⟩
    obtain ⟨g, hg, rfl⟩ := List.mem_map.mp hg'
    have hgid : g.id = lien.loanGuarantorId := (tiedGuarantor_keeps ids i g).1 ▸ hid
    have hsame : tiedGuarantor ids i g = g := if_neg (hgid ▸ hold)
    rw [hsame] at hj
    exact ⟨g, hg, hgid, hj⟩
  · rintro ⟨g, hg, hid, hj⟩
    have hsame : tiedGuarantor ids i g = g := if_neg (hid ▸ hold)
    refine ⟨tiedGuarantor ids i g, List.mem_map_of_mem hg, ?_, ?_⟩
    · rw [hsame, hid]
    · rw [hsame, hj]

theorem Placement.lienOf_new (h : gs.Placement ids i share n n' new) {lien : LoanGuarantorLien}
    (hlien : lien ∈ new) (hof : (gs.placed ids i new).LienOf j lien) : j = i := by
  obtain ⟨g', hg', hid, hj⟩ := hof
  obtain ⟨g, hg, rfl⟩ := List.mem_map.mp hg'
  have hin : g.id ∈ ids := by
    rw [← (tiedGuarantor_keeps ids i g).1, hid]
    exact h.new_mem hlien
  rw [tiedGuarantor, if_pos hin] at hj
  exact (Option.some.inj hj).symm

theorem Placement.lienOf_fresh (h : gs.Placement ids i share n n' new) {lien : LoanGuarantorLien}
    (hlien : lien ∈ gs.liens) : ¬ (gs.placed ids i new).LienOf i lien := by
  rw [h.lienOf_old hlien]
  rintro ⟨g, hg, -, hi⟩
  exact h.fresh g hg hi

/-- A guarantor is tied to another loan exactly as before. -/
theorem Placement.tied_of_ne (h : gs.Placement ids i share n n' new) (hne : j ≠ i)
    {g : LoanGuarantor} (hg : g ∈ gs.guarantors) :
    (tiedGuarantor ids i g).loanId = some j ↔ g.loanId = some j := by
  unfold tiedGuarantor
  by_cases hin : g.id ∈ ids
  · rw [if_pos hin, h.free g hg hin]
    simp [hne.symm]
  · rw [if_neg hin]

theorem Placement.length_tied_of_ne (h : gs.Placement ids i share n n' new) (hne : j ≠ i) :
    ((gs.placed ids i new).tied j).length = (gs.tied j).length := by
  unfold Guarantees.tied placed
  rw [List.filter_map, List.length_map]
  congr 1
  apply List.filter_congr
  intro g hg
  simp only [Function.comp, decide_eq_decide]
  exact h.tied_of_ne hne hg

theorem Placement.ok_placed (h : gs.Placement ids i share n n' new) :
    (gs.placed ids i new).Ok := by
  have hkeep : (gs.placed ids i new).guarantors.map (·.id) = gs.guarantors.map (·.id) := by
    unfold placed
    rw [List.map_map]
    exact List.map_congr_left fun g _ => (tiedGuarantor_keeps ids i g).1
  refine ⟨hkeep ▸ h.ok.guarantorIds, ?_, ?_, ?_, ?_⟩
  · -- New ids are drawn after the old ones.
    unfold placed
    rw [List.map_append]
    refine List.Nodup.append h.ok.lienIds h.new.nodup ?_
    intro k hold hnew
    obtain ⟨x, hx, rfl⟩ := List.mem_map.mp hold
    obtain ⟨y, hy, hxy⟩ := List.mem_map.mp hnew
    have hlt := h.drawn x hx
    have hle := (h.new.drawn y hy).1
    have hxy : y.id = x.id := hxy
    rw [hxy] at hle
    exact absurd hlt (not_lt.mpr hle)
  · unfold placed
    rw [List.map_append, h.new.guarantors]
    refine List.Nodup.append h.ok.oneLien h.nodup ?_
    intro k hold hin
    obtain ⟨x, hx, rfl⟩ := List.mem_map.mp hold
    exact h.old_not_mem hx hin
  · intro g' hg' htied
    obtain ⟨g, hg, rfl⟩ := List.mem_map.mp hg'
    rw [(tiedGuarantor_keeps ids i g).1]
    by_cases hin : g.id ∈ ids
    · rw [← h.new.guarantors] at hin
      obtain ⟨lien, hlien, hid⟩ := List.mem_map.mp hin
      exact ⟨lien, List.mem_append_right _ hlien, hid⟩
    · rw [tiedGuarantor, if_neg hin] at htied
      obtain ⟨lien, hlien, hid⟩ := h.ok.secured g hg htied
      exact ⟨lien, List.mem_append_left _ hlien, hid⟩
  · intro lien hlien
    rcases List.mem_append.mp hlien with hlien | hlien
    · obtain ⟨g, hg, hid, htied⟩ := h.ok.tied lien hlien
      have hsame : tiedGuarantor ids i g = g := if_neg (hid ▸ h.old_not_mem hlien)
      exact ⟨g, List.mem_map.mpr ⟨g, hg, hsame⟩, hid, htied⟩
    · obtain ⟨g, hg, hid⟩ := h.known _ (h.new_mem hlien)
      refine ⟨tiedGuarantor ids i g, List.mem_map_of_mem hg, ?_, ?_⟩
      · rw [(tiedGuarantor_keeps ids i g).1, hid]
      · rw [tiedGuarantor, if_pos (hid ▸ h.new_mem hlien)]
        simp

/-- Placing liens for one loan leaves what stands behind another. -/
theorem Placement.others (h : gs.Placement ids i share n n' new) {r : Loan} (hne : r.id ≠ i)
    (hr : gs.Secures r) : (gs.placed ids i new).Secures r := by
  have hguarantor : ∀ {p : LoanGuarantor → Prop},
      (∀ g ∈ gs.guarantors, g.loanId = some r.id → p g) →
      ∀ g ∈ (gs.placed ids i new).guarantors, g.loanId = some r.id → p g := by
    intro p hp g' hg' hj
    obtain ⟨g, hg, rfl⟩ := List.mem_map.mp hg'
    have hgj := (h.tied_of_ne hne hg).mp hj
    have hnotin : g.id ∉ ids := by
      intro hin
      rw [h.free g hg hin] at hgj
      cases hgj
    have hsame : tiedGuarantor ids i g = g := if_neg hnotin
    rw [hsame]
    exact hp g hg hgj
  have hlien : ∀ {p : LoanGuarantorLien → Prop},
      (∀ lien ∈ gs.liens, gs.LienOf r.id lien → p lien) →
      ∀ lien ∈ (gs.placed ids i new).liens, (gs.placed ids i new).LienOf r.id lien → p lien := by
    intro p hp lien hmem hof
    rcases List.mem_append.mp hmem with hold | hnew
    · exact hp lien hold ((h.lienOf_old hold).mp hof)
    · exact absurd (h.lienOf_new hnew hof) hne
  refine ⟨?_, fun ha => hguarantor (hr.accepted ha), ?_, fun hs => hguarantor (hr.released hs),
    fun hs => hlien (hr.inactive hs)⟩
  · rw [h.length_tied_of_ne hne]
    exact hlien hr.original
  · intro ha
    rw [h.length_tied_of_ne hne]
    exact hlien (hr.active ha)

/-- As many guarantors are tied to the new loan as liens were placed. -/
theorem Placement.length_tied (h : gs.Placement ids i share n n' new) :
    ((gs.placed ids i new).tied i).length = ids.length := by
  rw [← h.ok_placed.length_liensOf i]
  have hliens : (gs.placed ids i new).liensOf i = new := by
    unfold liensOf
    show (gs.liens ++ new).filter _ = new
    rw [List.filter_append]
    have hold : (gs.liens.filter fun lien => decide ((gs.placed ids i new).LienOf i lien)) = [] := by
      rw [List.filter_eq_nil_iff]
      intro lien hlien hof
      exact h.lienOf_fresh hlien (of_decide_eq_true hof)
    have hnew : (new.filter fun lien => decide ((gs.placed ids i new).LienOf i lien)) = new := by
      rw [List.filter_eq_self]
      intro lien hlien
      apply decide_eq_true
      obtain ⟨g, hg, hid⟩ := h.known _ (h.new_mem hlien)
      refine ⟨tiedGuarantor ids i g, List.mem_map_of_mem hg, ?_, ?_⟩
      · rw [(tiedGuarantor_keeps ids i g).1, hid]
      · rw [tiedGuarantor, if_pos (hid ▸ h.new_mem hlien)]
    rw [hold, hnew, List.nil_append]
  rw [hliens, ← h.new.guarantors, List.length_map]

/-- The new liens stand behind the new loan. -/
theorem Placement.secures {l : Loan} (h : gs.Placement ids l.id share n n' new)
    (hshare : share = l.principalAmount.val / ids.length) (hl : Opened l)
    (haccepted : ∀ g ∈ gs.guarantors, g.id ∈ ids → g.status = .accepted) :
    (gs.placed ids l.id new).Secures l := by
  have hnot : ¬ (l.status = .closed ∨ l.status = .writtenOff) := by
    rw [hl.status]
    decide
  have hshares : ∀ lien ∈ (gs.placed ids l.id new).liens,
      (gs.placed ids l.id new).LienOf l.id lien →
        lien.originalLien = share ∧ lien.currentLien = share ∧ lien.isActive = true := by
    intro lien hlien hof
    rcases List.mem_append.mp hlien with hold | hnew
    · exact absurd hof (h.lienOf_fresh hold)
    · exact h.new.shares lien hnew
  refine ⟨?_, ?_, ?_, fun hs => absurd hs hnot, fun hs => absurd hs hnot⟩
  · intro lien hlien hof
    rw [h.length_tied, ← hshare]
    exact (hshares lien hlien hof).1
  · intro _ g' hg' hi
    obtain ⟨g, hg, rfl⟩ := List.mem_map.mp hg'
    rw [(tiedGuarantor_keeps ids l.id g).2.1]
    apply haccepted g hg
    by_contra hnotin
    rw [tiedGuarantor, if_neg hnotin] at hi
    exact h.fresh g hg hi
  · intro _ lien hlien hof
    rw [h.length_tied, hl.columns.1, ← hshare]
    exact ⟨(hshares lien hlien hof).2.2, (hshares lien hlien hof).2.1⟩

end

end Guarantees

end SaccoPlatform
