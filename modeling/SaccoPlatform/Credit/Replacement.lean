import SaccoPlatform.Credit.Overshoot
import SaccoPlatform.Credit.Superseded

/-!
# What a restructuring leaves behind

A restructuring replaces the unpaid instalments of a loan. A term extension schedules the
outstanding principal anew after the last paid period, so the new instalments add up to it and
their numbers follow on. A payment holiday copies the unpaid instalments under higher numbers, but
not what has been paid on them, and it moves the term whether or not there is an instalment at its
end.
-/

namespace SaccoPlatform

open Lib Session

/-! ## Schedules that returned -/

/-- The instalments of a schedule over `n` periods from `i + 1` on pay the balance. -/
structure PaysPrincipal (i : ℕ) (balance : ℚ) (n : ℕ) (rows : List ScheduledInstallment) : Prop where
  length : rows.length = n
  numbered : Numbered i rows
  onGrid : ∀ row ∈ rows, row.principalDue ∈ grid 4
  sum : (rows.map (·.principalDue)).sum = balance

theorem PaysPrincipal.cons {i n : ℕ} {balance : ℚ} {row : ScheduledInstallment}
    {rows : List ScheduledInstallment}
    (h : PaysPrincipal (i + 1) (balance - row.principalDue) n rows)
    (hnumber : row.periodNumber = i + 1) (hgrid : row.principalDue ∈ grid 4) :
    PaysPrincipal i balance (n + 1) (row :: rows) := by
  refine ⟨congrArg (· + 1) h.length, numbered_cons hnumber h.numbered, ?_, ?_⟩
  · intro other hother
    rcases List.mem_cons.mp hother with rfl | hother
    · exact hgrid
    · exact h.onGrid other hother
  · rw [List.map_cons, List.sum_cons, h.sum]
    ring

/-- An annuity whose instalments are payable never overpays, so its subtractions are exact. -/
theorem annuityRows_paysPrincipal {rate annuity : ℚ} (due : Date) (rest : List Date) (i : ℕ)
    {balance : ℚ} (hgrid : balance ∈ grid 4) (hle : balance ≤ 10 ^ 22)
    {rows : List ScheduledInstallment}
    (h : annuityRows rate annuity i balance (due :: rest) = .ok rows)
    (hnonneg : ∀ row ∈ rows, 0 ≤ roundAt 4 row.principalDue) :
    0 ≤ balance ∧ PaysPrincipal i balance (rest.length + 1) rows := by
  induction rest generalizing due i balance rows with
  | nil =>
    obtain rfl := annuityRows_last h
    have hlast : roundAt 4 balance = balance := roundAt_of_mem hgrid
    have hpaid := hnonneg _ List.mem_cons_self
    dsimp only at hpaid
    rw [hlast] at hpaid ⊢
    rw [hlast] at hpaid
    refine ⟨hpaid, PaysPrincipal.cons ⟨rfl, ?_, ?_, ?_⟩ rfl hgrid⟩
    · intro k row hrow
      cases hrow
    · intro row hrow
      cases hrow
    · simp
  | cons due' rest ih =>
    obtain ⟨later, hlater, rfl⟩ := annuityRows_next h
    have hpay : roundAt 4 (decimal (annuity - periodInterest rate balance)) ∈ grid 4 :=
      roundAt_mem_grid 4 _
    have hpaid := hnonneg _ List.mem_cons_self
    dsimp only at hpaid
    rw [roundAt_of_mem hpay] at hpaid
    generalize roundAt 4 (decimal (annuity - periodInterest rate balance)) = principal at *
    have hnext : balance - principal ∈ grid 4 := sub_mem hgrid hpay
    have hbound : decimal (balance - principal) ≤ 10 ^ 22 := by
      rcases le_or_gt 0 (balance - principal) with hsign | hsign
      · rw [decimal_of_mem hnext]
        · linarith
        · rw [abs_of_nonneg hsign]
          norm_num at hle ⊢
          linarith
      · have := inContext_lt_zero (by norm_num : 1 ≤ 28) hsign
        have hlow : (0 : ℚ) ≤ 10 ^ 22 := by norm_num
        exact this.le.trans hlow
    obtain ⟨hrest, hpays⟩ := ih due' (i + 1) (decimal_mem_grid hnext) hbound hlater
      fun row hrow => hnonneg row (List.mem_cons_of_mem _ hrow)
    -- an overpaid balance would have left a negative one
    have hsign : 0 ≤ balance - principal := by
      by_contra hneg
      have := inContext_lt_zero (by norm_num : 1 ≤ 28) (not_le.mp hneg)
      exact absurd hrest (not_le.mpr this)
    have hexact : decimal (balance - principal) = balance - principal := by
      apply decimal_of_mem hnext
      rw [abs_of_nonneg hsign]
      norm_num at hle ⊢
      linarith
    rw [hexact] at hpays
    exact ⟨by linarith, hpays.cons rfl hpay⟩

section

variable {principal rate : ℚ} {method : InterestMethod} {frequency : RepaymentFrequency} {n : ℤ}
  {d : Date} {dates : List Date} {rows : List ScheduledInstallment}

theorem splitRows_paysPrincipal {interest interestResidual : ℚ} (hgrid : principal ∈ grid 4)
    (hprincipal : 0 ≤ principal) (hle : principal ≤ 10 ^ 22) (hn : 1 ≤ n)
    (hlength : dates.length = n.toNat) :
    PaysPrincipal 0 principal n.toNat (splitRows (equalPart principal n)
      (decimal (principal - decimal (equalPart principal n * (n - 1 : ℤ)))) interest
      interestResidual 0 dates) := by
  obtain ⟨-, -, hres⟩ := split_exact hgrid hprincipal (hle.trans (by norm_num)) hn
  rw [hres]
  cases dates with
  | nil =>
    rw [List.length_nil] at hlength
    omega
  | cons due rest =>
    have hrest : (rest.length : ℚ) = (n - 1 : ℤ) := by
      have hint : (rest.length : ℤ) = n - 1 := by
        rw [List.length_cons] at hlength
        omega
      exact_mod_cast hint
    refine ⟨?_, splitRows_numbered 0 _, ?_, ?_⟩
    · rw [splitRows_length, hlength]
    · intro row hrow
      obtain ⟨⟨hdue, -⟩ | ⟨hdue, -⟩, -⟩ := splitRows_mem hrow
      · rw [hdue]
        exact equalPart_mem_grid _ _
      · rw [hdue]
        exact residue_mem_grid hgrid n
    · rw [(splitRows_sums 0 due rest).1, hrest, residue]
      ring

/-- A schedule that returned and that the table accepts pays the principal. -/
theorem computeSchedule_paysPrincipal (hgrid : principal ∈ grid 4) (hprincipal : 0 ≤ principal)
    (hle : principal ≤ 10 ^ 22) (hn : 1 ≤ n)
    (h : computeSchedule principal rate method frequency n d = .ok rows)
    (hnonneg : ∀ row ∈ rows, 0 ≤ roundAt 4 row.principalDue) :
    PaysPrincipal 0 principal n.toNat rows := by
  cases method with
  | flat =>
    obtain ⟨dates, interest, interestResidual, hdates, rfl⟩ := flatSchedule_eq_ok h
    exact splitRows_paysPrincipal hgrid hprincipal hle hn (dueDates_length hdates)
  | reducingBalance =>
    cases hper : periodsPerYear frequency with
    | error e =>
      rw [computeSchedule, reducingSchedule, hper] at h
      cases h
    | ok perYear =>
      obtain ⟨dates, hdates, hzero, hannuity⟩ := reducingSchedule_eq_ok hper h
      have hlength := dueDates_length hdates
      by_cases hrate : periodRate rate perYear = 0
      · rw [hzero hrate]
        exact splitRows_paysPrincipal hgrid hprincipal hle hn hlength
      · obtain ⟨-, -, hrows⟩ := hannuity hrate
        cases dates with
        | nil =>
          rw [List.length_nil] at hlength
          omega
        | cons due rest =>
          obtain ⟨-, hpays⟩ := annuityRows_paysPrincipal due rest 0 hgrid hle hrows hnonneg
          rw [← hlength]
          exact hpays

end

/-! ## Inserted instalments -/

/-- The row that stands for a scheduled instalment of the loan. -/
structure InstallmentOf (l : Uuid) (row : ScheduledInstallment) (inst : LoanInstallment) : Prop where
  loanId : inst.loanId = l
  periodNumber : inst.periodNumber = row.periodNumber
  principalDue : inst.principalDue.val = roundAt 4 row.principalDue
  principalDue_nonneg : 0 ≤ inst.principalDue.val
  principalPaid : inst.principalPaid = 0
  status : inst.status = .pending
  isSuperseded : inst.isSuperseded = false

def Tables.withInstallments (t : Tables) (new : List LoanInstallment) : Tables :=
  { t with nextId := t.nextId + new.length, installments := t.installments ++ new }

theorem withInstallments_nil (t : Tables) : t.withInstallments [] = t := by
  unfold Tables.withInstallments
  rw [List.append_nil]
  rfl

theorem withInstallments_cons (t : Tables) (inst : LoanInstallment) (new : List LoanInstallment) :
    (t.withInstallments [inst]).withInstallments new = t.withInstallments (inst :: new) := by
  simp only [Tables.withInstallments, List.append_assoc, List.singleton_append, List.length_cons,
    List.length_nil]
  congr 1
  omega

theorem insertInstallment_ok {l id : Uuid} {restructuringId : Option Uuid}
    {row : ScheduledInstallment} {t t' : Tables}
    (h : insertInstallment l restructuringId row t = .ok id t') :
    ∃ inst, InstallmentOf l row inst ∧ inst.id = id ∧ id = t.nextId ∧ t' = t.withInstallments [inst] := by
  unfold insertInstallment at h
  rw [writeInteger_bind_eq_ok] at h
  simp only [writeMoney_bind_eq_ok, constraint_bind_eq_ok, freshId_bind_eq_ok, modify_bind_eq_ok,
    pure_eq_ok] at h
  obtain ⟨-, principalDue, hprincipal, interestDue, -, totalDue, -, hnonneg, -, -, rfl, rfl⟩ := h
  exact ⟨⟨t.nextId, l, row.periodNumber, row.dueDate, principalDue, interestDue, totalDue, 0, 0,
    .pending, restructuringId, false⟩, ⟨rfl, rfl, Numeric.val_of_ofRat? hprincipal, hnonneg, rfl, rfl,
    rfl⟩, rfl, rfl, rfl⟩

/-- A loop that inserts an instalment in every round. -/
theorem foldEach_inserts {α β : Type} {step : β → α → Call β} (R : α → LoanInstallment → Prop)
    (ids : β → List Uuid)
    (hstep : ∀ acc x t acc' t', step acc x t = .ok acc' t' → ∃ inst, R x inst ∧
      inst.id = t.nextId ∧ ids acc' = ids acc ++ [inst.id] ∧ t' = t.withInstallments [inst])
    {xs : List α} {acc acc' : β} {t t' : Tables} (h : foldEach step xs acc t = .ok acc' t') :
    ∃ new, List.Forall₂ R xs new ∧ (∀ inst ∈ new, t.nextId ≤ inst.id) ∧
      ids acc' = ids acc ++ new.map (·.id) ∧ t' = t.withInstallments new := by
  induction xs generalizing acc t with
  | nil =>
    obtain ⟨rfl, rfl⟩ := pure_eq_ok.mp h
    refine ⟨[], .nil, ?_, ?_, (withInstallments_nil _).symm⟩
    · intro inst hinst
      cases hinst
    · rw [List.map_nil, List.append_nil]
  | cons x xs ih =>
    obtain ⟨acc₁, t₁, hone, hrest⟩ := bind_eq_ok.mp h
    obtain ⟨inst, hrel, hid, hids, rfl⟩ := hstep acc x t acc₁ t₁ hone
    obtain ⟨new, hall, hfresh, hids', rfl⟩ := ih hrest
    refine ⟨inst :: new, .cons hrel hall, ?_, ?_, withInstallments_cons t inst new⟩
    · intro other hother
      rcases List.mem_cons.mp hother with rfl | hother
      · exact hid.ge
      · exact (Nat.le_add_right _ _).trans (hfresh other hother)
    · rw [hids', hids, List.append_assoc]
      rfl

/-- The new instalments of a loan. -/
structure NewInstallments (t : Tables) (l : Uuid) (new : List LoanInstallment) : Prop where
  fresh : ∀ inst ∈ new, t.nextId ≤ inst.id
  loanId : ∀ inst ∈ new, inst.loanId = l
  status : ∀ inst ∈ new, inst.status = .pending
  isSuperseded : ∀ inst ∈ new, inst.isSuperseded = false
  principalPaid : ∀ inst ∈ new, inst.principalPaid = 0

theorem forall₂_map_eq {α β γ : Type} {R : α → β → Prop} {f : α → γ} {g : β → γ}
    (hR : ∀ a b, R a b → f a = g b) {as : List α} {bs : List β} (h : List.Forall₂ R as bs) :
    as.map f = bs.map g := by
  induction h with
  | nil => rfl
  | cons hab _ ih => rw [List.map_cons, List.map_cons, hR _ _ hab, ih]

theorem forall₂_left {α β : Type} {R : α → β → Prop} {as : List α} {bs : List β}
    (h : List.Forall₂ R as bs) {a : α} (ha : a ∈ as) : ∃ b ∈ bs, R a b := by
  induction h with
  | nil => cases ha
  | cons hab _ ih =>
    rcases List.mem_cons.mp ha with rfl | ha
    · exact ⟨_, List.mem_cons_self, hab⟩
    · obtain ⟨b, hb, hR⟩ := ih ha
      exact ⟨b, List.mem_cons_of_mem _ hb, hR⟩

theorem forall₂_getElem? {α β : Type} {R : α → β → Prop} {as : List α} {bs : List β}
    (h : List.Forall₂ R as bs) {k : ℕ} {b : β} (hb : bs[k]? = some b) : ∃ a, as[k]? = some a ∧ R a b := by
  induction h generalizing k with
  | nil => cases hb
  | cons hab _ ih =>
    cases k with
    | zero =>
      obtain rfl : _ = b := by simpa using hb
      exact ⟨_, rfl, hab⟩
    | succ k => exact ih (by simpa using hb)

theorem forall₂_right {α β : Type} {R : α → β → Prop} {as : List α} {bs : List β}
    (h : List.Forall₂ R as bs) {b : β} (hb : b ∈ bs) : ∃ a ∈ as, R a b := by
  induction h with
  | nil => cases hb
  | cons hab _ ih =>
    rcases List.mem_cons.mp hb with rfl | hb
    · exact ⟨_, List.mem_cons_self, hab⟩
    · obtain ⟨a, ha, hR⟩ := ih hb
      exact ⟨a, List.mem_cons_of_mem _ ha, hR⟩

theorem newInstallments_of_forall₂ {α : Type} {t : Tables} {l : Uuid}
    {R : α → LoanInstallment → Prop} (hR : ∀ x inst, R x inst → ∃ row, InstallmentOf l row inst)
    {xs : List α} {new : List LoanInstallment} (hfresh : ∀ inst ∈ new, t.nextId ≤ inst.id)
    (h : List.Forall₂ R xs new) : NewInstallments t l new := by
  have hof : ∀ inst ∈ new, ∃ row, InstallmentOf l row inst := by
    intro inst hinst
    obtain ⟨x, -, hx⟩ := forall₂_right h hinst
    exact hR x inst hx
  refine ⟨hfresh, ?_, ?_, ?_, ?_⟩
  all_goals
    intro inst hinst
    obtain ⟨row, hrow⟩ := hof inst hinst
  · exact hrow.loanId
  · exact hrow.status
  · exact hrow.isSuperseded
  · exact hrow.principalPaid

section

variable {today : Date} {loan : Loan} {lastPaid periodsAdded : ℤ} {unpaid : List LoanInstallment}
  {schedule : NewSchedule} {t t' : Tables}

/-- A term extension inserts instalments that pay the outstanding principal, numbered from the last
paid period on. -/
theorem extendTerm_ok (hprincipal : 0 ≤ loan.outstandingPrincipal.val) (hadded : 1 ≤ periodsAdded)
    (h : extendTerm today loan lastPaid unpaid periodsAdded t = .ok schedule t') :
    ∃ new, NewInstallments t loan.id new ∧ t' = t.withInstallments new ∧
      schedule.ids = new.map (·.id) ∧
      schedule.termPeriods = lastPaid + (unpaid.length + periodsAdded) ∧
      (new.length : ℤ) = unpaid.length + periodsAdded ∧
      (∀ (k : ℕ) (inst : LoanInstallment), new[k]? = some inst →
        inst.periodNumber = lastPaid + (k + 1)) ∧
      (new.map (·.principalDue.val)).sum = loan.outstandingPrincipal.val := by
  unfold extendTerm at h
  rw [ofExcept_bind_eq_ok] at h
  obtain ⟨rows, hrows, h⟩ := h
  obtain ⟨ids, t₁, hfold, h⟩ := bind_eq_ok.mp h
  obtain ⟨rfl, rfl⟩ := pure_eq_ok.mp h
  obtain ⟨new, hall, hfresh, hids, rfl⟩ := foldEach_inserts
    (fun row inst =>
      InstallmentOf loan.id { row with periodNumber := lastPaid + row.periodNumber } inst) id
    (by
      intro acc row t acc' t' hstep
      obtain ⟨id', t₁, hinsert, hpure⟩ := bind_eq_ok.mp hstep
      obtain ⟨rfl, rfl⟩ := pure_eq_ok.mp hpure
      obtain ⟨inst, hof, rfl, hid, rfl⟩ := insertInstallment_ok hinsert
      exact ⟨inst, hof, hid, rfl, rfl⟩) hfold
  have hdue : ∀ row ∈ rows, 0 ≤ roundAt 4 row.principalDue := by
    intro row hrow
    obtain ⟨inst, -, hof⟩ := forall₂_left hall hrow
    exact hof.principalDue ▸ hof.principalDue_nonneg
  have hfits : loan.outstandingPrincipal.val ≤ 10 ^ 22 := by
    have := (abs_lt.mp loan.outstandingPrincipal.fits).2
    norm_num at this ⊢
    linarith
  have hpays := computeSchedule_paysPrincipal loan.outstandingPrincipal.onGrid hprincipal hfits
    (by omega) hrows hdue
  refine ⟨new, newInstallments_of_forall₂ (fun row inst hof => ⟨_, hof⟩) hfresh hall, rfl, ?_, rfl,
    ?_, ?_, ?_⟩
  · rw [id, id, List.nil_append] at hids
    exact hids
  · rw [← hall.length_eq, hpays.length]
    omega
  · intro k inst hinst
    obtain ⟨row, hrow, hof⟩ := forall₂_getElem? hall hinst
    have hnumber := hpays.numbered k row hrow
    rw [hof.periodNumber]
    push_cast at hnumber ⊢
    omega
  · have hsame : rows.map (fun row => roundAt 4 row.principalDue) = new.map (·.principalDue.val) :=
      forall₂_map_eq (fun row inst hof => hof.principalDue.symm) hall
    have hkept : rows.map (fun row => roundAt 4 row.principalDue) = rows.map (·.principalDue) :=
      List.map_congr_left fun row hrow => roundAt_of_mem (hpays.onGrid row hrow)
    rw [← hsame, hkept, hpays.sum]

/-- A payment holiday copies the unpaid instalments under higher numbers. -/
theorem shiftUnpaid_ok (h : shiftUnpaid today loan unpaid periodsAdded t = .ok schedule t') :
    ∃ new, NewInstallments t loan.id new ∧ t' = t.withInstallments new ∧
      schedule.ids = new.map (·.id) ∧ schedule.termPeriods = loan.termPeriods + periodsAdded ∧
      new.map (·.periodNumber) = unpaid.map (fun inst => inst.periodNumber + periodsAdded) ∧
      new.map (·.principalDue.val) = unpaid.map (·.principalDue.val) := by
  unfold shiftUnpaid at h
  obtain ⟨⟨ids, maturityDate⟩, t₁, hfold, h⟩ := bind_eq_ok.mp h
  obtain ⟨rfl, rfl⟩ := pure_eq_ok.mp h
  obtain ⟨new, hall, hfresh, hids, rfl⟩ := foldEach_inserts
    (fun orig inst => ∃ dueDate, InstallmentOf loan.id ⟨orig.periodNumber + periodsAdded, dueDate,
      orig.principalDue.val, orig.interestDue.val, orig.totalDue.val⟩ inst) Prod.fst
    (by
      intro acc orig t acc' t' hstep
      rw [ofExcept_bind_eq_ok] at hstep
      obtain ⟨dueDate, -, hstep⟩ := hstep
      obtain ⟨id', t₁, hinsert, hpure⟩ := bind_eq_ok.mp hstep
      obtain ⟨rfl, rfl⟩ := pure_eq_ok.mp hpure
      obtain ⟨inst, hof, rfl, hid, rfl⟩ := insertInstallment_ok hinsert
      exact ⟨inst, ⟨dueDate, hof⟩, hid, rfl, rfl⟩) hfold
  refine ⟨new, newInstallments_of_forall₂ (fun orig inst ⟨_, hof⟩ => ⟨_, hof⟩) hfresh hall, rfl, ?_,
    rfl, ?_, ?_⟩
  · exact hids
  · exact (forall₂_map_eq (fun orig inst ⟨_, hof⟩ => hof.periodNumber.symm) hall).symm
  · refine (forall₂_map_eq (fun orig inst ⟨_, hof⟩ => ?_) hall).symm
    rw [hof.principalDue, roundAt_of_mem orig.principalDue.onGrid]

end

/-! ## The active instalments -/

def Tables.paidInstallments (t : Tables) (loanId : Uuid) : List LoanInstallment :=
  (t.activeInstallments loanId).filter (·.status = .paid)

def Tables.unpaidInstallments (t : Tables) (loanId : Uuid) : List LoanInstallment :=
  (t.activeInstallments loanId).filter (·.status ≠ .paid)

/-- What is still to be paid of the principal. -/
def unpaidPrincipal (insts : List LoanInstallment) : ℚ :=
  (insts.map fun inst => inst.principalDue.val - inst.principalPaid.val).sum

/-- The rows of a restructured loan that stay active. -/
def Tables.keptInstallments (t : Tables) (loanId : Uuid) : List LoanInstallment :=
  t.installments.filter fun inst =>
    (inst.loanId = loanId ∧ inst.isSuperseded = false) ∧ inst.status = .paid

/-- The tables when the new rows have been tagged. -/
structure Swapped (t t' : Tables) (loanId : Uuid) (tagged : List LoanInstallment) : Prop where
  installments : t'.installments = (t.supersede loanId).installments ++ tagged
  loanId_eq : ∀ inst ∈ tagged, inst.loanId = loanId
  isSuperseded : ∀ inst ∈ tagged, inst.isSuperseded = false
  status : ∀ inst ∈ tagged, inst.status = .pending
  principalPaid : ∀ inst ∈ tagged, inst.principalPaid = 0

theorem activeInstallments_perm (t : Tables) (loanId : Uuid) :
    (t.activeInstallments loanId).Perm
      (t.installments.filter fun inst => inst.loanId = loanId ∧ inst.isSuperseded = false) :=
  List.perm_insertionSort _ _

theorem paidInstallments_perm (t : Tables) (loanId : Uuid) :
    (t.paidInstallments loanId).Perm (t.keptInstallments loanId) := by
  refine ((activeInstallments_perm t loanId).filter _).trans (List.Perm.of_eq ?_)
  rw [List.filter_filter]
  unfold Tables.keptInstallments
  apply List.filter_congr
  intro inst _
  rw [← Bool.decide_and]
  exact decide_eq_decide.mpr and_comm

/-- What superseding makes of one row. -/
def LoanInstallment.supersedeFor (loanId : Uuid) (inst : LoanInstallment) : LoanInstallment :=
  if inst.loanId = loanId ∧ inst.isSuperseded = false ∧ inst.status ≠ .paid then
    { inst with isSuperseded := true }
  else inst

theorem supersedeFor_of_paid {loanId : Uuid} {inst : LoanInstallment} (h : inst.status = .paid) :
    inst.supersedeFor loanId = inst := if_neg fun hunpaid => hunpaid.2.2 h

theorem supersedeFor_of_inactive {loanId : Uuid} {inst : LoanInstallment}
    (h : ¬ (inst.loanId = loanId ∧ inst.isSuperseded = false)) : inst.supersedeFor loanId = inst :=
  if_neg fun hactive => h ⟨hactive.1, hactive.2.1⟩

theorem supersedeFor_isSuperseded {loanId : Uuid} {inst : LoanInstallment}
    (h : inst.loanId = loanId ∧ inst.isSuperseded = false) (hunpaid : inst.status ≠ .paid) :
    (inst.supersedeFor loanId).isSuperseded = true := by
  unfold LoanInstallment.supersedeFor
  rw [if_pos ⟨h.1, h.2, hunpaid⟩]

theorem supersedeFor_status (loanId : Uuid) (inst : LoanInstallment) :
    (inst.supersedeFor loanId).status = inst.status := by
  unfold LoanInstallment.supersedeFor
  split <;> rfl

theorem supersedeFor_id (loanId : Uuid) (inst : LoanInstallment) :
    (inst.supersedeFor loanId).id = inst.id := by
  unfold LoanInstallment.supersedeFor
  split <;> rfl

theorem supersede_installments (t : Tables) (loanId : Uuid) :
    (t.supersede loanId).installments = t.installments.map (·.supersedeFor loanId) := rfl

/-- Of the old rows only the paid ones are still active. -/
theorem supersede_active (t : Tables) (loanId : Uuid) :
    ((t.supersede loanId).installments.filter fun inst =>
      inst.loanId = loanId ∧ inst.isSuperseded = false) = t.keptInstallments loanId := by
  rw [supersede_installments, Tables.keptInstallments]
  induction t.installments with
  | nil => rfl
  | cons inst rest ih =>
    rw [List.map_cons, List.filter_cons, List.filter_cons, ih]
    by_cases hactive : inst.loanId = loanId ∧ inst.isSuperseded = false
    · by_cases hpaid : inst.status = .paid
      · simp [supersedeFor_of_paid hpaid, hactive, hpaid]
      · simp [supersedeFor_isSuperseded hactive hpaid, hpaid]
    · simp [supersedeFor_of_inactive hactive, hactive]

/-- Superseding touches no paid row. -/
theorem supersede_paid (t : Tables) (loanId : Uuid) :
    (t.supersede loanId).installments.filter (·.status = .paid) =
      t.installments.filter (·.status = .paid) := by
  rw [supersede_installments]
  induction t.installments with
  | nil => rfl
  | cons inst rest ih =>
    rw [List.map_cons, List.filter_cons, List.filter_cons, ih, supersedeFor_status]
    by_cases hpaid : inst.status = .paid
    · rw [supersedeFor_of_paid hpaid]
    · simp [hpaid]

namespace Swapped

variable {t t' : Tables} {loanId : Uuid} {tagged : List LoanInstallment}

theorem active (h : Swapped t t' loanId tagged) :
    (t'.activeInstallments loanId).Perm (t.keptInstallments loanId ++ tagged) := by
  have hall : tagged.filter (fun inst => inst.loanId = loanId ∧ inst.isSuperseded = false) = tagged := by
    apply List.filter_eq_self.mpr
    intro inst hinst
    simp [h.loanId_eq inst hinst, h.isSuperseded inst hinst]
  refine (activeInstallments_perm t' loanId).trans (List.Perm.of_eq ?_)
  rw [h.installments, List.filter_append, supersede_active, hall]

theorem unpaid (h : Swapped t t' loanId tagged) : (t'.unpaidInstallments loanId).Perm tagged := by
  refine (h.active.filter _).trans (List.Perm.of_eq ?_)
  have hkept : (t.keptInstallments loanId).filter (fun inst => inst.status ≠ .paid) = [] := by
    apply List.filter_eq_nil_iff.mpr
    intro inst hinst
    have := (List.mem_filter.mp hinst).2
    simp_all
  have hall : tagged.filter (fun inst => inst.status ≠ .paid) = tagged := by
    apply List.filter_eq_self.mpr
    intro inst hinst
    simp [h.status inst hinst]
  rw [List.filter_append, hkept, hall, List.nil_append]

theorem paid (h : Swapped t t' loanId tagged) :
    t'.installments.filter (·.status = .paid) = t.installments.filter (·.status = .paid) := by
  have hnone : tagged.filter (fun inst => inst.status = .paid) = [] := by
    apply List.filter_eq_nil_iff.mpr
    intro inst hinst
    simp [h.status inst hinst]
  rw [h.installments, List.filter_append, supersede_paid, hnone, List.append_nil]

/-- Nothing has been paid on the new rows. -/
theorem unpaidPrincipal_eq (h : Swapped t t' loanId tagged) :
    unpaidPrincipal (t'.unpaidInstallments loanId) = (tagged.map (·.principalDue.val)).sum := by
  rw [unpaidPrincipal, (h.unpaid.map _).sum_eq]
  congr 1
  apply List.map_congr_left
  intro inst hinst
  rw [h.principalPaid inst hinst, Numeric.val_zero, sub_zero]

theorem numbers (h : Swapped t t' loanId tagged) :
    ((t'.activeInstallments loanId).map (·.periodNumber)).Perm
      ((t.paidInstallments loanId).map (·.periodNumber) ++ tagged.map (·.periodNumber)) := by
  rw [← List.map_append]
  exact (h.active.trans ((paidInstallments_perm t loanId).symm.append_right tagged)).map _

end Swapped

/-! ## One restructuring -/

/-- A new row of the restructuring `id`. -/
def LoanInstallment.tag (id : Uuid) (inst : LoanInstallment) : LoanInstallment :=
  { inst with restructuringId := some id }

/-- Recording a restructuring tags the new rows and writes the loan's term. -/
theorem recordRestructuring_tags {loan : Loan} {type key : String} {periodsAdded : ℤ}
    {schedule : NewSchedule} {approvalRequestId : Option Uuid} {id : Uuid} {t t' : Tables}
    (h : recordRestructuring loan type periodsAdded schedule approvalRequestId key t = .ok id t') :
    ∃ row : Loan, row.id = loan.id ∧ row.termPeriods = schedule.termPeriods ∧
      row.outstandingPrincipal.val = loan.outstandingPrincipal.val ∧
      0 ≤ loan.outstandingPrincipal.val ∧ t'.loans = (t.putLoan row).loans ∧
      t'.installments = t.installments.map fun inst =>
        if inst.id ∈ schedule.ids then inst.tag id else inst := by
  obtain ⟨row, n, rows, events, hsaved, hterm, -, rfl⟩ := recordRestructuring_rows h
  have houtstanding : row.outstandingPrincipal.val = loan.outstandingPrincipal.val := by
    have hround := congrArg Balances.outstandingPrincipal hsaved.balances
    exact hround.trans (roundAt_of_mem loan.outstandingPrincipal.onGrid)
  exact ⟨row, hsaved.terms.id, hterm, houtstanding, houtstanding ▸ hsaved.outstanding_nonneg, rfl, rfl⟩

/-- The rows that a term extension leaves. -/
structure Extended (t : Tables) (loan : Loan) (periodsAdded : ℤ) (new : List LoanInstallment)
    (term : ℤ) : Prop where
  count : (new.length : ℤ) = (t.unpaidInstallments loan.id).length + periodsAdded
  numbers : ∀ (k : ℕ) (inst : LoanInstallment), new[k]? = some inst →
    inst.periodNumber = lastPaidPeriod (t.paidInstallments loan.id) + (k + 1)
  principal : (new.map (·.principalDue.val)).sum = loan.outstandingPrincipal.val
  term_eq : term = lastPaidPeriod (t.paidInstallments loan.id) + new.length

/-- The rows that a payment holiday leaves. -/
structure Shifted (t : Tables) (loan : Loan) (periodsAdded : ℤ) (new : List LoanInstallment)
    (term : ℤ) : Prop where
  numbers : new.map (·.periodNumber) =
    (t.unpaidInstallments loan.id).map fun inst => inst.periodNumber + periodsAdded
  principal : new.map (·.principalDue.val) = (t.unpaidInstallments loan.id).map (·.principalDue.val)
  term_eq : term = loan.termPeriods + periodsAdded

theorem Extended.tag {t : Tables} {loan : Loan} {periodsAdded term : ℤ} {new : List LoanInstallment}
    (h : Extended t loan periodsAdded new term) (id : Uuid) :
    Extended t loan periodsAdded (new.map (·.tag id)) term := by
  refine ⟨?_, ?_, ?_, ?_⟩
  · rw [List.length_map]
    exact h.count
  · intro k inst hinst
    rw [List.getElem?_map, Option.map_eq_some_iff] at hinst
    obtain ⟨orig, horig, rfl⟩ := hinst
    exact h.numbers k orig horig
  · rw [List.map_map]
    exact h.principal
  · rw [List.length_map]
    exact h.term_eq

theorem Shifted.tag {t : Tables} {loan : Loan} {periodsAdded term : ℤ} {new : List LoanInstallment}
    (h : Shifted t loan periodsAdded new term) (id : Uuid) :
    Shifted t loan periodsAdded (new.map (·.tag id)) term := by
  refine ⟨?_, ?_, h.term_eq⟩
  · rw [List.map_map]
    exact h.numbers
  · rw [List.map_map]
    exact h.principal

section

variable {today : Date} {loanId : Uuid} {type key : String} {periodsAdded : ℤ}
  {approvalRequestId : Option Uuid} {id : Uuid} {loan : Loan} {schedule : NewSchedule} {t t' : Tables}

theorem replaceSchedule_ok (hprincipal : 0 ≤ loan.outstandingPrincipal.val) (hadded : 1 ≤ periodsAdded)
    (h : replaceSchedule today loan type periodsAdded t = .ok schedule t') :
    ∃ new, NewInstallments t loan.id new ∧ t' = (t.supersede loan.id).withInstallments new ∧
      schedule.ids = new.map (·.id) ∧
      (type = "term_extension" → Extended t loan periodsAdded new schedule.termPeriods) ∧
      (type ≠ "term_extension" → Shifted t loan periodsAdded new schedule.termPeriods) := by
  simp only [replaceSchedule, get_bind_eq_ok, modify_bind_eq_ok] at h
  split at h
  · next htype =>
    obtain ⟨new, hnew, rfl, hids, hterm, hcount, hnumbers, hsum⟩ := extendTerm_ok hprincipal hadded h
    refine ⟨new, ⟨hnew.fresh, hnew.loanId, hnew.status, hnew.isSuperseded, hnew.principalPaid⟩, rfl,
      hids, fun _ => ⟨hcount, hnumbers, hsum, ?_⟩, fun hne => absurd htype hne⟩
    rw [hterm, hcount]
    rfl
  · next htype =>
    obtain ⟨new, hnew, rfl, hids, hterm, hnumbers, hdues⟩ := shiftUnpaid_ok h
    exact ⟨new, ⟨hnew.fresh, hnew.loanId, hnew.status, hnew.isSuperseded, hnew.principalPaid⟩, rfl,
      hids, fun heq => absurd heq htype, fun _ => ⟨hnumbers, hdues, hterm⟩⟩

/-- Tagging reaches the new rows only. -/
theorem tag_new {new : List LoanInstallment} (hdrawn : ∀ inst ∈ t.installments, inst.id < t.nextId)
    (hnew : ∀ inst ∈ new, t.nextId ≤ inst.id) :
    ((t.supersede loanId).installments ++ new).map (fun inst =>
      if inst.id ∈ new.map (·.id) then inst.tag id else inst) =
      (t.supersede loanId).installments ++ new.map (·.tag id) := by
  rw [List.map_append]
  congr 1
  · apply (List.map_congr_left _).trans (List.map_id _)
    intro inst hinst
    apply if_neg
    intro hmem
    obtain ⟨other, hother, hid⟩ := List.mem_map.mp hmem
    obtain ⟨orig, horig, rfl⟩ := List.mem_map.mp hinst
    have hdrawn' := hdrawn orig horig
    have hlater := hnew other hother
    have hsame : (orig.supersedeFor loanId).id = orig.id := supersedeFor_id loanId orig
    rw [hid] at hlater
    exact absurd hdrawn' (not_lt.mpr (hsame ▸ hlater))
  · apply List.map_congr_left
    intro inst hinst
    exact if_pos (List.mem_map_of_mem hinst)

/-- What a new restructuring does to the loan and its instalments. -/
theorem executeRestructuringOn_swaps (hids : t.InstallmentIds) (hfresh : t.restructuring? key = none)
    (hloan : t.loan? loanId = some loan) (hadded : 1 ≤ periodsAdded)
    (h : executeRestructuringOn today loanId type periodsAdded key approvalRequestId t = .ok id t') :
    ∃ row new, t'.loan? loanId = some row ∧
      row.outstandingPrincipal.val = loan.outstandingPrincipal.val ∧ Swapped t t' loanId new ∧
      (type = "term_extension" → Extended t loan periodsAdded new row.termPeriods) ∧
      (type ≠ "term_extension" → Shifted t loan periodsAdded new row.termPeriods) := by
  simp only [executeRestructuringOn, get_bind_eq_ok, hfresh, orRaise_bind_eq_ok] at h
  obtain ⟨loan', hfound, h⟩ := h
  obtain rfl : loan = loan' := Option.some.inj (hloan.symm.trans hfound)
  obtain ⟨-, rfl⟩ := loan?_eq_some hloan
  obtain ⟨schedule, t₁, hreplace, hrecord⟩ := bind_eq_ok.mp h
  obtain ⟨row, hid, hterm, houtstanding, hnonneg, hloans, hinstallments⟩ :=
    recordRestructuring_tags hrecord
  obtain ⟨new, hnew, rfl, hnewIds, hextended, hshifted⟩ := replaceSchedule_ok hnonneg hadded hreplace
  rw [← hterm] at hextended hshifted
  refine ⟨row, new.map (·.tag id), ?_, houtstanding, ⟨?_, ?_, ?_, ?_, ?_⟩, ?_, ?_⟩
  · have hput : t'.loan? loan.id = (t.putLoan row).loan? loan.id := by
      unfold Tables.loan?
      rw [hloans]
      rfl
    rw [hput, loan?_putLoan, hloan, Option.map_some, if_pos hid.symm]
  · rw [hinstallments, hnewIds]
    exact tag_new hids.drawn hnew.fresh
  · intro inst hinst
    obtain ⟨orig, horig, rfl⟩ := List.mem_map.mp hinst
    exact hnew.loanId orig horig
  · intro inst hinst
    obtain ⟨orig, horig, rfl⟩ := List.mem_map.mp hinst
    exact hnew.isSuperseded orig horig
  · intro inst hinst
    obtain ⟨orig, horig, rfl⟩ := List.mem_map.mp hinst
    exact hnew.status orig horig
  · intro inst hinst
    obtain ⟨orig, horig, rfl⟩ := List.mem_map.mp hinst
    exact hnew.principalPaid orig horig
  · intro htype
    exact (hextended htype).tag id
  · intro htype
    exact (hshifted htype).tag id

end

/-! ## The invariant of a loan's instalments -/

/-- What a restructuring should leave: the unpaid instalments pay the outstanding principal, the
active ones have distinct numbers up to the term of the loan, and no paid row was touched. -/
structure Restructured (t t' : Tables) (loan : Loan) : Prop where
  principal : unpaidPrincipal (t'.unpaidInstallments loan.id) = loan.outstandingPrincipal.val
  distinct : ((t'.activeInstallments loan.id).map (·.periodNumber)).Nodup
  paid : t'.installments.filter (·.status = .paid) = t.installments.filter (·.status = .paid)
  term : IsGreatest {n | n ∈ (t'.activeInstallments loan.id).map (·.periodNumber)} loan.termPeriods

/-- When a payment holiday keeps it: nothing has been paid on an unpaid instalment, and moving the
numbers of the unpaid ones keeps them apart and ends at the new term. -/
structure HolidayFits (t : Tables) (loan : Loan) (periodsAdded : ℤ) : Prop where
  nothing_paid : ((t.unpaidInstallments loan.id).map (·.principalPaid.val)).sum = 0
  distinct : ((t.unpaidInstallments loan.id).map (·.periodNumber)).Nodup
  apart : ∀ p ∈ t.paidInstallments loan.id, ∀ u ∈ t.unpaidInstallments loan.id,
    p.periodNumber ≠ u.periodNumber + periodsAdded
  unpaid_le : ∀ u ∈ t.unpaidInstallments loan.id, u.periodNumber ≤ loan.termPeriods
  paid_le : ∀ p ∈ t.paidInstallments loan.id, p.periodNumber ≤ loan.termPeriods + periodsAdded
  reached : (∃ u ∈ t.unpaidInstallments loan.id, u.periodNumber = loan.termPeriods) ∨
    ∃ p ∈ t.paidInstallments loan.id, p.periodNumber = loan.termPeriods + periodsAdded

theorem le_lastPaidPeriod {paid : List LoanInstallment} {inst : LoanInstallment} (h : inst ∈ paid) :
    inst.periodNumber ≤ lastPaidPeriod paid := by
  have hfold : ∀ (ns : List ℤ) (m : ℤ), m ≤ ns.foldl max m ∧ ∀ n ∈ ns, n ≤ ns.foldl max m := by
    intro ns
    induction ns with
    | nil =>
      intro m
      exact ⟨le_rfl, fun n hn => nomatch hn⟩
    | cons a ns ih =>
      intro m
      obtain ⟨hstart, hrest⟩ := ih (max m a)
      refine ⟨(le_max_left m a).trans hstart, ?_⟩
      intro n hn
      rcases List.mem_cons.mp hn with rfl | hn
      · exact (le_max_right m n).trans hstart
      · exact hrest n hn
  cases paid with
  | nil => cases h
  | cons first rest =>
    obtain ⟨hstart, hrest⟩ := hfold (rest.map (·.periodNumber)) first.periodNumber
    rcases List.mem_cons.mp h with rfl | h
    · exact hstart
    · exact hrest _ (List.mem_map_of_mem h)

theorem unpaidPrincipal_eq_sub (insts : List LoanInstallment) :
    unpaidPrincipal insts =
      (insts.map (·.principalDue.val)).sum - (insts.map (·.principalPaid.val)).sum := by
  unfold unpaidPrincipal
  induction insts with
  | nil => simp
  | cons inst rest ih =>
    simp only [List.map_cons, List.sum_cons, ih]
    ring

section

variable {t t' : Tables} {loan row : Loan} {periodsAdded : ℤ} {new : List LoanInstallment}

/-- The numbers after the last paid period. -/
theorem Extended.numbers_eq {term : ℤ} (h : Extended t loan periodsAdded new term) :
    new.map (·.periodNumber) =
      (List.range new.length).map fun k : ℕ => lastPaidPeriod (t.paidInstallments loan.id) + (k + 1) := by
  apply List.ext_getElem?
  intro k
  rw [List.getElem?_map, List.getElem?_map]
  by_cases hk : k < new.length
  · rw [List.getElem?_eq_getElem hk, List.getElem?_range hk]
    exact congrArg some (h.numbers k _ (List.getElem?_eq_getElem hk))
  · rw [List.getElem?_eq_none (by omega), List.getElem?_eq_none (by rw [List.length_range]; omega)]
    rfl

/-- A term extension keeps the invariant just when the paid numbers are distinct. -/
theorem Extended.restructured_iff (hid : row.id = loan.id)
    (houtstanding : row.outstandingPrincipal.val = loan.outstandingPrincipal.val)
    (hadded : 1 ≤ periodsAdded) (hswapped : Swapped t t' loan.id new)
    (h : Extended t loan periodsAdded new row.termPeriods) :
    Restructured t t' row ↔ ((t.paidInstallments loan.id).map (·.periodNumber)).Nodup := by
  have hnumbers := hswapped.numbers
  rw [h.numbers_eq] at hnumbers
  have hcount := h.count
  have hpaidLe : ∀ n ∈ (t.paidInstallments loan.id).map (·.periodNumber),
      n ≤ lastPaidPeriod (t.paidInstallments loan.id) := by
    intro n hn
    obtain ⟨inst, hinst, rfl⟩ := List.mem_map.mp hn
    exact le_lastPaidPeriod hinst
  constructor
  · intro hres
    have hdistinct := hres.distinct
    rw [hid, hnumbers.nodup_iff] at hdistinct
    exact hdistinct.of_append_left
  · intro hpaid
    refine ⟨?_, ?_, hswapped.paid, ?_⟩
    · rw [hid, hswapped.unpaidPrincipal_eq, h.principal, houtstanding]
    · rw [hid, hnumbers.nodup_iff, List.nodup_append]
      refine ⟨hpaid, List.nodup_range.map ?_, ?_⟩
      · intro j k hjk
        dsimp only at hjk
        omega
      · intro m hm n hn
        obtain ⟨k, -, rfl⟩ := List.mem_map.mp hn
        have := hpaidLe m hm
        omega
    · rw [hid, h.term_eq]
      constructor
      · apply hnumbers.mem_iff.mpr
        apply List.mem_append_right
        apply List.mem_map.mpr
        refine ⟨new.length - 1, List.mem_range.mpr (by omega), ?_⟩
        omega
      · intro n hn
        rcases List.mem_append.mp (hnumbers.mem_iff.mp hn) with hn | hn
        · have := hpaidLe n hn
          omega
        · obtain ⟨k, hk, rfl⟩ := List.mem_map.mp hn
          have := List.mem_range.mp hk
          omega

/-- A payment holiday keeps it just when nothing was paid on what it moves, and the numbers fit. -/
theorem Shifted.restructured_iff (hid : row.id = loan.id)
    (houtstanding : row.outstandingPrincipal.val = loan.outstandingPrincipal.val)
    (hbefore : unpaidPrincipal (t.unpaidInstallments loan.id) = loan.outstandingPrincipal.val)
    (hswapped : Swapped t t' loan.id new) (h : Shifted t loan periodsAdded new row.termPeriods) :
    Restructured t t' row ↔ ((t.paidInstallments loan.id).map (·.periodNumber)).Nodup ∧
      HolidayFits t loan periodsAdded := by
  have hnumbers := hswapped.numbers
  rw [h.numbers] at hnumbers
  have hprincipal : unpaidPrincipal (t'.unpaidInstallments loan.id) = row.outstandingPrincipal.val ↔
      ((t.unpaidInstallments loan.id).map (·.principalPaid.val)).sum = 0 := by
    rw [hswapped.unpaidPrincipal_eq, h.principal, houtstanding, ← hbefore, unpaidPrincipal_eq_sub]
    constructor <;> intro heq <;> linarith
  have hmem (n : ℤ) : n ∈ (t'.activeInstallments loan.id).map (·.periodNumber) ↔
      (∃ p ∈ t.paidInstallments loan.id, p.periodNumber = n) ∨
        ∃ u ∈ t.unpaidInstallments loan.id, u.periodNumber + periodsAdded = n := by
    rw [hnumbers.mem_iff, List.mem_append, List.mem_map, List.mem_map]
  constructor
  · intro hres
    have hdistinct := hres.distinct
    rw [hid, hnumbers.nodup_iff, List.nodup_append] at hdistinct
    obtain ⟨hpaid, hunpaid, happart⟩ := hdistinct
    have hterm := hres.term
    rw [hid, h.term_eq] at hterm
    obtain ⟨hreached, hbound⟩ := hterm
    refine ⟨hpaid, hprincipal.mp (hid ▸ hres.principal), ?_, ?_, ?_, ?_, ?_⟩
    · have hcomp : (t.unpaidInstallments loan.id).map (fun inst => inst.periodNumber + periodsAdded) =
          ((t.unpaidInstallments loan.id).map (·.periodNumber)).map (· + periodsAdded) := by
        rw [List.map_map]
        rfl
      rw [hcomp] at hunpaid
      exact hunpaid.of_map _
    · intro p hp u hu
      exact happart _ (List.mem_map_of_mem hp) _ (List.mem_map_of_mem hu)
    · intro u hu
      have := hbound ((hmem _).mpr (.inr ⟨u, hu, rfl⟩))
      omega
    · intro p hp
      exact hbound ((hmem _).mpr (.inl ⟨p, hp, rfl⟩))
    · rcases (hmem _).mp hreached with ⟨p, hp, heq⟩ | ⟨u, hu, heq⟩
      · exact .inr ⟨p, hp, heq⟩
      · exact .inl ⟨u, hu, by omega⟩
  · intro hfits
    obtain ⟨hpaid, hfits⟩ := hfits
    refine ⟨?_, ?_, hswapped.paid, ?_⟩
    · rw [hid]
      exact hprincipal.mpr hfits.nothing_paid
    · rw [hid, hnumbers.nodup_iff, List.nodup_append]
      refine ⟨hpaid, ?_, ?_⟩
      · have hmoved := hfits.distinct.map (add_left_injective periodsAdded)
        rw [List.map_map] at hmoved
        exact hmoved
      · intro m hm n hn
        obtain ⟨p, hp, rfl⟩ := List.mem_map.mp hm
        obtain ⟨u, hu, rfl⟩ := List.mem_map.mp hn
        exact hfits.apart p hp u hu
    · rw [hid, h.term_eq]
      constructor
      · apply (hmem _).mpr
        rcases hfits.reached with ⟨u, hu, heq⟩ | ⟨p, hp, heq⟩
        · exact .inr ⟨u, hu, by omega⟩
        · exact .inl ⟨p, hp, heq⟩
      · intro n hn
        rcases (hmem n).mp hn with ⟨p, hp, rfl⟩ | ⟨u, hu, rfl⟩
        · exact hfits.paid_le p hp
        · have := hfits.unpaid_le u hu
          omega

end

/-- A restructuring keeps the invariant just when the paid numbers are distinct and, for a payment
holiday, nothing was paid on an unpaid instalment and the moved numbers fit. -/
theorem executeRestructuringOn_keeps_iff {today : Date} {loanId : Uuid} {type key : String}
    {periodsAdded : ℤ} {approvalRequestId : Option Uuid} {id : Uuid} {loan : Loan} {t t' : Tables}
    (hids : t.InstallmentIds) (hfresh : t.restructuring? key = none)
    (hloan : t.loan? loanId = some loan) (hadded : 1 ≤ periodsAdded)
    (hbefore : unpaidPrincipal (t.unpaidInstallments loanId) = loan.outstandingPrincipal.val)
    (h : executeRestructuringOn today loanId type periodsAdded key approvalRequestId t = .ok id t') :
    ∃ row, t'.loan? loanId = some row ∧
      (Restructured t t' row ↔ ((t.paidInstallments loanId).map (·.periodNumber)).Nodup ∧
        (type ≠ "term_extension" → HolidayFits t loan periodsAdded)) := by
  obtain ⟨row, new, hrow, houtstanding, hswapped, hextended, hshifted⟩ :=
    executeRestructuringOn_swaps hids hfresh hloan hadded h
  obtain ⟨-, rfl⟩ := loan?_eq_some hloan
  obtain ⟨-, hid⟩ := loan?_eq_some hrow
  refine ⟨row, hrow, ?_⟩
  by_cases htype : type = "term_extension"
  · rw [(hextended htype).restructured_iff hid houtstanding hadded hswapped]
    simp [htype]
  · rw [(hshifted htype).restructured_iff hid houtstanding hbefore hswapped]
    simp [htype]

/-- A restructuring whose key is in use changes nothing. -/
theorem executeRestructuringOn_replay {today : Date} {loanId : Uuid} {type key : String}
    {periodsAdded : ℤ} {approvalRequestId : Option Uuid} {existing : LoanRestructuring} {t : Tables}
    (h : t.restructuring? key = some existing) :
    executeRestructuringOn today loanId type periodsAdded key approvalRequestId t =
      .ok existing.id t := by
  unfold executeRestructuringOn
  rw [bind_apply, get_apply]
  dsimp only
  rw [h]
  rfl

/-- The sample loan, disbursed, after some repayments. -/
def unpaidTenant (repayments : List CreditOp) : Tables :=
  run (CreditOp.step .python) (sampleTenant .flat) (sampleDisbursement :: repayments)

theorem executeRestructuringOn_keeps_iff_sample :
    ∃ loan id t' row, (unpaidTenant []).loan? 11 = some loan ∧
      executeRestructuringOn sampleDay 11 "payment_holiday" 1 "r" none (unpaidTenant []) = .ok id t' ∧
      t'.loan? 11 = some row ∧
      (Restructured (unpaidTenant []) t' row ↔
        (((unpaidTenant []).paidInstallments 11).map (·.periodNumber)).Nodup ∧
        ("payment_holiday" ≠ "term_extension" → HolidayFits (unpaidTenant []) loan 1)) := by
  have hsome : ((unpaidTenant []).loan? 11).isSome := by decide +kernel
  have hrun : executeRestructuringOn sampleDay 11 "payment_holiday" 1 "r" none (unpaidTenant []) =
      .ok 19 (commit (executeRestructuringOn sampleDay 11 "payment_holiday" 1 "r" none)
        (unpaidTenant [])) := by decide +kernel
  have hbefore : ((unpaidTenant []).loan? 11).map (·.outstandingPrincipal.val) =
      some (unpaidPrincipal ((unpaidTenant []).unpaidInstallments 11)) := by decide +kernel
  obtain ⟨loan, hloan⟩ := Option.isSome_iff_exists.mp hsome
  rw [hloan] at hbefore
  obtain ⟨row, hrow, hiff⟩ := executeRestructuringOn_keeps_iff
    ⟨by decide +kernel, by decide +kernel⟩ (by decide +kernel) hloan (by decide)
    (Option.some.inj hbefore).symm hrun
  exact ⟨loan, _, _, row, hloan, hrun, hrow, hiff⟩

/-- A payment holiday after 100 was paid schedules that principal again. -/
theorem executeRestructuringOn_reschedules_paid :
    ((unpaidTenant [.repay (sampleRepayment 100 "p")]).loan? 11).map (·.outstandingPrincipal.val) =
      some (unpaidPrincipal ((unpaidTenant [.repay (sampleRepayment 100 "p")]).unpaidInstallments 11)) ∧
    executeRestructuringOn sampleDay 11 "payment_holiday" 1 "r" none
        (unpaidTenant [.repay (sampleRepayment 100 "p")]) =
      .ok 22 (commit (executeRestructuringOn sampleDay 11 "payment_holiday" 1 "r" none)
        (unpaidTenant [.repay (sampleRepayment 100 "p")])) ∧
    ((commit (executeRestructuringOn sampleDay 11 "payment_holiday" 1 "r" none)
        (unpaidTenant [.repay (sampleRepayment 100 "p")])).loan? 11).map
          (·.outstandingPrincipal.val) ≠
      some (unpaidPrincipal ((commit (executeRestructuringOn sampleDay 11 "payment_holiday" 1 "r" none)
        (unpaidTenant [.repay (sampleRepayment 100 "p")])).unpaidInstallments 11)) := by
  decide +kernel

end SaccoPlatform
