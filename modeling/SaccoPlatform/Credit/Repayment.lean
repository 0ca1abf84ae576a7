import SaccoPlatform.Credit.Balances
import SaccoPlatform.Credit.Guarantor
import SaccoPlatform.Savings.Transactions
import Mathlib.Data.List.Sort

/-!
# Repayments

`LoanRepaymentService.apply_repayment` (`app/modules/credit/services/repayment.py`): the
amount goes to accrued interest, then principal, then penalties; what is left over is an
overpayment. The journal entry credits principal and interest only, so an allocation that
reaches the penalties is not balanced and the ledger refuses it.
-/

namespace SaccoPlatform

open Lib Session

/-! ## Allocation -/

/-- How one payment is split. -/
structure Allocation where
  interestApplied : ℚ
  principalApplied : ℚ
  penaltiesApplied : ℚ
  overpayment : ℚ
deriving DecidableEq, Repr

/-- Interest first, then principal, then penalties. -/
def allocate (amount : ℚ) (b : Balances) : Allocation :=
  let interestApplied := min amount b.accruedInterest
  let remaining := decimal (amount - interestApplied)
  let principalApplied := min remaining b.outstandingPrincipal
  let remaining := decimal (remaining - principalApplied)
  let penaltiesApplied := min remaining b.accruedPenalties
  ⟨interestApplied, principalApplied, penaltiesApplied, decimal (remaining - penaltiesApplied)⟩

def Allocation.totalApplied (a : Allocation) : ℚ :=
  decimal (decimal (a.interestApplied + a.principalApplied) + a.penaltiesApplied)

/-! ### Properties of an allocation -/

section

variable {amount : ℚ} {b : Balances}

theorem allocate_interest_nonneg (hamount : 0 ≤ amount) (hb : 0 ≤ b.accruedInterest) :
    0 ≤ (allocate amount b).interestApplied := le_min hamount hb

theorem allocate_principal_nonneg (hb : 0 ≤ b.outstandingPrincipal) :
    0 ≤ (allocate amount b).principalApplied :=
  le_min (decimal_nonneg (sub_nonneg.mpr (min_le_left _ _))) hb

theorem allocate_penalties_nonneg (hb : 0 ≤ b.accruedPenalties) :
    0 ≤ (allocate amount b).penaltiesApplied :=
  le_min (decimal_nonneg (sub_nonneg.mpr (min_le_left _ _))) hb

/-- An amount with four decimals is split into amounts with four decimals. -/
theorem allocate_mem_grid (hamount : amount ∈ grid 4) (hb : b.OnGrid) :
    (allocate amount b).interestApplied ∈ grid 4 ∧
      (allocate amount b).principalApplied ∈ grid 4 ∧
      (allocate amount b).penaltiesApplied ∈ grid 4 := by
  have hi : min amount b.accruedInterest ∈ grid 4 := min_mem_grid hamount hb.accruedInterest
  have hrest : decimal (amount - min amount b.accruedInterest) ∈ grid 4 :=
    decimal_mem_grid (sub_mem hamount hi)
  have hp : min (decimal (amount - min amount b.accruedInterest)) b.outstandingPrincipal ∈ grid 4 :=
    min_mem_grid hrest hb.outstandingPrincipal
  exact ⟨hi, hp, min_mem_grid (decimal_mem_grid (sub_mem hrest hp)) hb.accruedPenalties⟩

/-- Something was applied when one of the parts is positive. -/
theorem Allocation.totalApplied_pos {a : Allocation} (hi : 0 ≤ a.interestApplied)
    (hp : 0 ≤ a.principalApplied) (hx : 0 ≤ a.penaltiesApplied)
    (h : 0 < a.interestApplied + a.principalApplied + a.penaltiesApplied) : 0 < a.totalApplied := by
  apply decimal_pos
  rcases (add_nonneg hi hp).lt_or_eq with hpos | hzero
  · exact add_pos_of_pos_of_nonneg (decimal_pos hpos) hx
  · rw [← hzero, decimal_zero, zero_add]
    rwa [← hzero, zero_add] at h

end

/-- The lines of the journal entry. When nothing is applied, two zero lines stand in. -/
def repaymentLines (loan : Loan) (paymentAccountId : Uuid) (a : Allocation) : List LineIn :=
  if 0 < a.totalApplied then
    [.loanDebit paymentAccountId a.totalApplied loan.id]
      ++ (if 0 < a.principalApplied then
            [.loanCredit loan.glPrincipalReceivableId a.principalApplied loan.id] else [])
      ++ (if 0 < a.interestApplied then
            [.loanCredit loan.glInterestReceivableId a.interestApplied loan.id] else [])
  else
    [.loanDebit paymentAccountId 0 loan.id, .loanDebit loan.glPrincipalReceivableId 0 loan.id]

def Balances.repay (b : Balances) (a : Allocation) : Balances :=
  { b with
    accruedInterest := decimal (b.accruedInterest - a.interestApplied)
    outstandingPrincipal := decimal (b.outstandingPrincipal - a.principalApplied)
    accruedPenalties := decimal (b.accruedPenalties - a.penaltiesApplied)
    totalPaidInterest := decimal (b.totalPaidInterest + a.interestApplied)
    totalPaidPrincipal := decimal (b.totalPaidPrincipal + a.principalApplied)
    totalPaidPenalties := decimal (b.totalPaidPenalties + a.penaltiesApplied) }

/-- The sums and differences of money columns are exact. -/
theorem decimal_money {q : ℚ} (hq : q ∈ grid 4) (hfits : |q| < 2 * 10 ^ 15) : decimal q = q := by
  apply decimal_of_mem hq
  norm_num at hfits ⊢
  linarith

theorem decimal_val (x : Money) : decimal x.val = x.val := by
  apply decimal_money x.onGrid
  have hx : |x.val| < 10 ^ 15 := x.fits
  linarith

theorem decimal_sub_money (x y : Money) : decimal (x.val - y.val) = x.val - y.val := by
  apply decimal_money (sub_mem x.onGrid y.onGrid)
  have hx : |x.val| < 10 ^ 15 := x.fits
  have hy : |y.val| < 10 ^ 15 := y.fits
  have hsub : |x.val - y.val| ≤ |x.val| + |y.val| := abs_sub _ _
  linarith

/-- An amount of four decimals is taken off a column and added to another exactly. -/
theorem decimal_move (x y : Money) {q : ℚ} (hq : q ∈ grid 4) (h0 : 0 ≤ q) (hle : q ≤ x.val) :
    decimal (x.val - q) = x.val - q ∧ decimal (y.val + q) = y.val + q := by
  have hx : |x.val| < 10 ^ 15 := x.fits
  have hy : |y.val| < 10 ^ 15 := y.fits
  rw [abs_lt] at hx hy
  constructor
  · apply decimal_money (sub_mem x.onGrid hq)
    rw [abs_lt]
    constructor <;> linarith
  · apply decimal_money (add_mem y.onGrid hq)
    rw [abs_lt]
    constructor <;> linarith

/-- A column that is not negative covers what was taken off it. -/
theorem le_of_column_nonneg {x : Money} {q : ℚ} (hq : q ∈ grid 4)
    (h : 0 ≤ roundAt 4 (decimal (x.val - q))) : q ≤ x.val := by
  rw [roundAt_of_mem (decimal_mem_grid (sub_mem x.onGrid hq))] at h
  by_contra hlt
  have hover := decimal_pos (sub_pos.mpr (not_le.mp hlt))
  rw [← neg_sub, decimal_neg] at h
  linarith

/-- Principal with four decimals is taken off the balance and added to what was paid exactly. -/
theorem repay_principal {l : Loan} {a : Allocation} (hmem : a.principalApplied ∈ grid 4)
    (h0 : 0 ≤ a.principalApplied) (hle : a.principalApplied ≤ l.outstandingPrincipal.val) :
    (l.balances.repay a).outstandingPrincipal = l.outstandingPrincipal.val - a.principalApplied ∧
      (l.balances.repay a).totalPaidPrincipal = l.totalPaidPrincipal.val + a.principalApplied :=
  decimal_move l.outstandingPrincipal l.totalPaidPrincipal hmem h0 hle

theorem allocate_principal_exact {l : Loan} {amount : ℚ} (hamount : amount ∈ grid 4)
    (hl : 0 ≤ l.outstandingPrincipal.val) :
    (l.balances.repay (allocate amount l.balances)).outstandingPrincipal =
        l.outstandingPrincipal.val - (allocate amount l.balances).principalApplied ∧
      (l.balances.repay (allocate amount l.balances)).totalPaidPrincipal =
        l.totalPaidPrincipal.val + (allocate amount l.balances).principalApplied :=
  repay_principal (allocate_mem_grid hamount l.balances_onGrid).2.1 (allocate_principal_nonneg hl)
    (min_le_right _ _)

/-- The column takes off what the part of it that was paid is stored as, unless the rest tips over. -/
theorem roundAt_rest_iff (x : Money) {part : ℚ} (h0 : 0 ≤ part) (hle : part ≤ x.val) :
    roundAt 4 (decimal (x.val - part)) = x.val - roundAt 4 part ↔ ¬ TipsOver 28 4 (x.val - part) := by
  have hfits : |x.val| < 10 ^ 15 := x.fits
  rw [abs_lt] at hfits
  exact roundAt_inContext_sub_iff (by norm_num) x.onGrid (by norm_num at hfits ⊢; linarith) h0 hle

/-- A repayment takes off the interest what is stored as applied, unless a part payment tips the rest
over. -/
theorem repay_interest {l : Loan} {amount : ℚ} (hamount : 0 ≤ amount)
    (hround : amount < l.accruedInterest.val → ¬ TipsOver 28 4 (l.accruedInterest.val - amount)) :
    roundAt 4 (l.balances.repay (allocate amount l.balances)).accruedInterest =
      l.accruedInterest.val - roundAt 4 (min amount l.accruedInterest.val) := by
  show roundAt 4 (decimal (l.accruedInterest.val - min amount l.accruedInterest.val)) = _
  rcases lt_or_ge amount l.accruedInterest.val with hlt | hge
  · rw [min_eq_left hlt.le]
    exact (roundAt_rest_iff _ hamount hlt.le).mpr (hround hlt)
  · rw [min_eq_right hge, sub_self, decimal_zero, roundAt_of_mem (zero_mem _),
      roundAt_of_mem l.accruedInterest.onGrid, sub_self]

/-- Closure detection. -/
def Balances.Settled (b : Balances) : Prop :=
  b.outstandingPrincipal ≤ 0 ∧ b.accruedInterest ≤ 0 ∧ b.accruedPenalties ≤ 0

instance (b : Balances) : Decidable b.Settled := inferInstanceAs (Decidable (_ ∧ _ ∧ _))

/-- A settled loan owes exactly nothing. -/
theorem repay_settled {amount : ℚ} {b : Balances} (hsettled : (b.repay (allocate amount b)).Settled) :
    (b.repay (allocate amount b)).outstandingPrincipal = 0 ∧
      (b.repay (allocate amount b)).accruedInterest = 0 ∧
      (b.repay (allocate amount b)).accruedPenalties = 0 := by
  have hnonneg : ∀ x y : ℚ, 0 ≤ decimal (y - min x y) := fun x y =>
    decimal_nonneg (sub_nonneg.mpr (min_le_right _ _))
  obtain ⟨ho, hi, hp⟩ := hsettled
  exact ⟨le_antisymm ho (hnonneg _ _), le_antisymm hi (hnonneg _ _), le_antisymm hp (hnonneg _ _)⟩

/-! ## Instalments -/

/-- `status IN ('pending', 'partial', 'overdue')`. -/
def LoanInstallment.Open (inst : LoanInstallment) : Prop :=
  inst.status = .pending ∨ inst.status = .partiallyPaid ∨ inst.status = .overdue

instance (inst : LoanInstallment) : Decidable inst.Open :=
  inferInstanceAs (Decidable (_ ∨ _ ∨ _))

/-- The instalments a repayment goes to, oldest period first. -/
def Tables.openInstallments (t : Tables) (loanId : Uuid) : List LoanInstallment :=
  (t.installments.filter fun inst => inst.loanId = loanId ∧ inst.Open).insertionSort
    fun a b => a.periodNumber ≤ b.periodNumber

theorem mem_openInstallments {t : Tables} {loanId : Uuid} {inst : LoanInstallment} :
    inst ∈ t.openInstallments loanId ↔
      inst ∈ t.installments ∧ inst.loanId = loanId ∧ inst.Open := by
  simp [Tables.openInstallments]

/-- One round of the loop of `_update_installments`: the instalment takes interest first,
then principal. `left` is what is still to be allocated of both. -/
def payInstallment (left : ℚ × ℚ) (inst : LoanInstallment) : Call (ℚ × ℚ) := do
  let interestForInst := min left.1 (decimal (inst.interestDue.val - inst.interestPaid.val))
  let principalForInst := min left.2 (decimal (inst.principalDue.val - inst.principalPaid.val))
  let interestPaid := if 0 < interestForInst then decimal (inst.interestPaid.val + interestForInst)
    else inst.interestPaid.val
  let principalPaid := if 0 < principalForInst then decimal (inst.principalPaid.val + principalForInst)
    else inst.principalPaid.val
  let status :=
    if inst.interestDue.val ≤ interestPaid ∧ inst.principalDue.val ≤ principalPaid then
      InstallmentStatus.paid
    else if 0 < interestPaid ∨ 0 < principalPaid then .partiallyPaid
    else inst.status
  let interestPaid ← writeMoney interestPaid
  let principalPaid ← writeMoney principalPaid
  modify (·.putInstallment { inst with interestPaid, principalPaid, status })
  pure (if 0 < interestForInst then decimal (left.1 - interestForInst) else left.1,
    if 0 < principalForInst then decimal (left.2 - principalForInst) else left.2)

/-- The loop breaks when nothing is left to allocate, which is the same as passing over the
remaining rows. -/
def allocateRound (left : ℚ × ℚ) (inst : LoanInstallment) : Call (ℚ × ℚ) :=
  if left.1 ≤ 0 ∧ left.2 ≤ 0 then pure left else payInstallment left inst

/-- `_update_installments`. -/
def updateInstallments (loanId : Uuid) (interest principal : ℚ) : Call Unit := do
  let t ← get
  let _ ← foldEach allocateRound (t.openInstallments loanId) (interest, principal)

/-! ## The service method -/

/-- Insert the `loan_repayments` row. -/
def insertRepayment (loanId : Uuid) (amount : ℚ) (a : Allocation) (paymentAccountId : Uuid)
    (journalEntryId : Uuid) (idempotencyKey : String) : Call Uuid := do
  let amount ← writeMoney amount
  let principalApplied ← writeMoney a.principalApplied
  let interestApplied ← writeMoney a.interestApplied
  let penaltiesApplied ← writeMoney a.penaltiesApplied
  let overpayment ← writeMoney a.overpayment
  constraint (0 < amount.val) (.integrityError "ck_lr_amount")
  constraint (0 ≤ principalApplied.val) (.integrityError "ck_lr_principal_applied")
  constraint (0 ≤ interestApplied.val) (.integrityError "ck_lr_interest_applied")
  constraint (0 ≤ penaltiesApplied.val) (.integrityError "ck_lr_penalties_applied")
  constraint (0 ≤ overpayment.val) (.integrityError "ck_lr_overpayment")
  let id ← freshId
  modify fun t => { t with
    repayments := t.repayments ++ [⟨id, loanId, amount, principalApplied, interestApplied,
      penaltiesApplied, overpayment, paymentAccountId, journalEntryId, idempotencyKey⟩] }
  pure id

/-- The arguments of `apply_repayment`. -/
structure RepaymentIn where
  loanId : Uuid
  amount : ℚ
  paymentAccountId : Uuid
  postedBy : Uuid
  narration : Option String
  idempotencyKey : String
  savingsAccountId : Option Uuid
deriving DecidableEq, Repr

/-- `narration or f"Loan repayment: ..."`: an empty narration is replaced too. -/
def RepaymentIn.description (r : RepaymentIn) (loan : Loan) : String :=
  match r.narration with
  | some text => if text = "" then s!"Loan repayment: {loan.loanReference}" else text
  | none => s!"Loan repayment: {loan.loanReference}"

/-- The lien steps of a repayment: adjust them for the principal paid, and release them
when the loan closes. -/
def Guarantees.repay (ar : LienArithmetic) (gs : Guarantees) (loan : Loan) (a : Allocation) :
    Guarantees :=
  let gs := if 0 < a.principalApplied then
      gs.adjustLiens ar loan.id a.principalApplied loan.principalAmount.val else gs
  if (loan.balances.repay a).Settled then gs.releaseLiens loan.id else gs

/-- The status after a repayment: closure is detected on the unrounded balances. -/
def Loan.statusAfter (loan : Loan) (a : Allocation) : LoanStatus :=
  if (loan.balances.repay a).Settled then .closed else loan.status

/-- Step 9b: the savings statement row. -/
def debitSavings (r : RepaymentIn) (journalEntryId : Uuid) : Call Unit :=
  match r.savingsAccountId with
  | none => pure ()
  | some account => do
    let _ ← recordExternalDebit account r.amount journalEntryId
      ("loan-rpy-savings-" ++ r.idempotencyKey)

/-- Steps 6 to 10 of `apply_repayment`: the snapshot, the liens, the repayment row, the
instalments, the savings row and the events. -/
def recordRepayment (ar : LienArithmetic) (r : RepaymentIn) (loan : Loan) (a : Allocation)
    (journalEntryId : Uuid) : Call Uuid := do
  let _ ← saveLoan loan (loan.balances.repay a) (loan.statusAfter a)
  modifyGuarantees (·.repay ar loan a)
  let id ← insertRepayment loan.id r.amount a r.paymentAccountId journalEntryId r.idempotencyKey
  updateInstallments loan.id a.interestApplied a.principalApplied
  debitSavings r journalEntryId
  publish (.loanRepaymentPosted loan.id r.amount)
  when ((loan.balances.repay a).Settled) (publish (.loanClosed loan.id))
  pure id

def Tables.repayment? (t : Tables) (key : String) : Option LoanRepayment :=
  t.repayments.find? (·.idempotencyKey = key)

/-- `LoanRepaymentService.apply_repayment`; returns the id of the repayment. -/
def applyRepayment (ar : LienArithmetic) (r : RepaymentIn) : Call Uuid := do
  let t ← get
  match t.repayment? r.idempotencyKey with
  | some existing => pure existing.id
  | none =>
    let loan ← orRaise (t.loan? r.loanId) (.valueError s!"Loan '{r.loanId}' not found")
    require (loan.status ≠ .closed ∧ loan.status ≠ .writtenOff)
      (.valueError s!"Cannot apply repayment: loan '{r.loanId}' is {loan.status.text}")
    require (loan.status ≠ .disbursing)
      (.valueError s!"Cannot apply repayment: loan '{r.loanId}' is still disbursing")
    let a := allocate r.amount loan.balances
    let entryId ← postJournalEntry s!"LOAN-RPY-{r.loanId}" (r.description loan) r.postedBy
      (creditKey .repayment r.idempotencyKey) (repaymentLines loan r.paymentAccountId a)
    recordRepayment ar r loan a entryId

/-! ## What a repayment does -/

/-- Nothing but the instalments changed. -/
def OnlyInstallments (t t' : Tables) : Prop := ∃ rows, t' = { t with installments := rows }

instance : Std.Refl OnlyInstallments := ⟨fun t => ⟨t.installments, rfl⟩⟩

instance : IsPreorder Tables OnlyInstallments where
  trans t t₁ t₂ h h' := by
    obtain ⟨rows, rfl⟩ := h
    obtain ⟨rows', rfl⟩ := h'
    exact ⟨rows', rfl⟩

theorem payInstallment_moves (left : ℚ × ℚ) (inst : LoanInstallment) :
    Moves OnlyInstallments (payInstallment left inst) := by
  unfold payInstallment
  apply moves_bind (moves_writeMoney _)
  intro interestPaid
  apply moves_bind (moves_writeMoney _)
  intro principalPaid
  apply moves_bind
  · exact moves_modify fun t => ⟨_, rfl⟩
  · intro _
    exact moves_pure _

theorem updateInstallments_moves (loanId : Uuid) (interest principal : ℚ) :
    Moves OnlyInstallments (updateInstallments loanId interest principal) := by
  unfold updateInstallments
  apply moves_bind moves_get
  intro t
  apply moves_bind
  · apply moves_foldEach
    intro left inst _
    unfold allocateRound
    split
    · exact moves_pure left
    · exact payInstallment_moves left inst
  · intro _
    exact moves_pure ()

theorem recordExternalDebit_sameCredit (account : Uuid) (amount : ℚ) (entryId : Uuid)
    (key : String) : Moves SameCredit (recordExternalDebit account amount entryId key) := by
  unfold recordExternalDebit
  apply moves_bind moves_get
  intro t
  split
  · exact moves_pure _
  · apply moves_bind (moves_orRaise _ _)
    intro _
    apply moves_bind (moves_writeMoney _)
    intro _
    apply moves_bind (moves_constraint _ _)
    intro _
    apply moves_bind moves_get
    intro _
    apply moves_bind (moves_constraint _ _)
    intro _
    apply moves_bind freshId_sameCredit
    intro _
    apply moves_bind
    · exact moves_modify fun _ => ⟨le_rfl, rfl, rfl, rfl, rfl, rfl⟩
    · intro _
      exact moves_pure _

theorem debitSavings_sameCredit (r : RepaymentIn) (entryId : Uuid) :
    Moves SameCredit (debitSavings r entryId) := by
  unfold debitSavings
  split
  · exact moves_pure ()
  · apply moves_bind (recordExternalDebit_sameCredit _ _ _ _)
    intro _
    exact moves_pure ()

/-- A `loan_repayments` row of this allocation. -/
structure RepaymentRow (loanId : Uuid) (a : Allocation) (key : String) (rp : LoanRepayment) :
    Prop where
  loanId : rp.loanId = loanId
  idempotencyKey : rp.idempotencyKey = key
  interestApplied : rp.interestApplied.val = roundAt 4 a.interestApplied
  interest_nonneg : 0 ≤ rp.interestApplied.val

/-- What inserting the repayment row leaves. -/
theorem insertRepayment_ok {loanId account entryId id : Uuid} {amount : ℚ} {a : Allocation}
    {key : String} {t t' : Tables}
    (h : insertRepayment loanId amount a account entryId key t = .ok id t') :
    0 < roundAt 4 amount ∧ ∃ rp, RepaymentRow loanId a key rp ∧
      t' = { t with nextId := t.nextId + 1, repayments := t.repayments ++ [rp] } := by
  simp only [insertRepayment, writeMoney_bind_eq_ok, constraint_bind_eq_ok, freshId_bind_eq_ok,
    modify_bind_eq_ok, pure_eq_ok] at h
  obtain ⟨m, hm, _, -, i, hi, _, -, _, -, hpos, -, hinterest, -, -, -, rfl⟩ := h
  rw [Numeric.val_of_ofRat? hm] at hpos
  exact ⟨hpos, _, ⟨rfl, rfl, Numeric.val_of_ofRat? hi, hinterest⟩, rfl⟩

/-- The tables after steps 6 to 10 of a repayment. -/
structure RepaymentRecorded (ar : LienArithmetic) (r : RepaymentIn) (loan : Loan)
    (a : Allocation) (row : Loan) (t t' : Tables) : Prop where
  saved : Saved loan (loan.balances.repay a) (loan.statusAfter a) row
  amount_pos : 0 < roundAt 4 r.amount
  nextId : t.nextId ≤ t'.nextId
  loans : t'.loans = (t.putLoan row).loans
  entries : t'.entries = t.entries
  repayments : ∃ rp, RepaymentRow loan.id a r.idempotencyKey rp ∧
    t'.repayments = t.repayments ++ [rp]
  guarantees : t'.guarantees = t.guarantees.repay ar loan a

theorem recordRepayment_ok {ar : LienArithmetic} {r : RepaymentIn} {loan : Loan} {a : Allocation}
    {entryId id : Uuid} {t t' : Tables} (h : recordRepayment ar r loan a entryId t = .ok id t') :
    ∃ row, RepaymentRecorded ar r loan a row t t' := by
  unfold recordRepayment at h
  obtain ⟨row, t₁, h₁, h⟩ := bind_eq_ok.mp h
  obtain ⟨rfl, hsaved⟩ := saveLoan_ok h₁
  obtain ⟨_, t₂, h₂, h⟩ := bind_eq_ok.mp h
  rw [modifyGuarantees, modify_eq_ok] at h₂
  obtain ⟨_, t₃, h₃, h⟩ := bind_eq_ok.mp h
  obtain ⟨hpos, rp, hrp, h₃⟩ := insertRepayment_ok h₃
  obtain ⟨_, t₄, h₄, h⟩ := bind_eq_ok.mp h
  obtain ⟨rows, h₄⟩ := (updateInstallments_moves _ _ _).ok h₄
  have hrest : SameCredit t₄ t' := by
    refine Moves.ok ?_ h
    apply moves_bind (debitSavings_sameCredit r entryId)
    intro _
    apply moves_bind (publish_sameCredit _)
    intro _
    apply moves_bind (moves_when (publish_sameCredit _))
    intro _
    exact moves_pure _
  subst h₄ h₃ h₂
  exact ⟨row, hsaved, hpos, (Nat.le_succ _).trans hrest.nextId, hrest.loans, hrest.entries,
    ⟨rp, hrp, hrest.repayments⟩, hrest.guarantees⟩

/-- A repayment returns the one found under its key, or posts and records a new one for a
loan that is disbursed or in arrears. -/
theorem applyRepayment_ok {ar : LienArithmetic} {r : RepaymentIn} {t t' : Tables} {id : Uuid}
    (h : applyRepayment ar r t = .ok id t') :
    t' = t ∨ ∃ loan row entryId t₁,
      (∀ rp ∈ t.repayments, rp.idempotencyKey ≠ r.idempotencyKey) ∧
      t.loan? r.loanId = some loan ∧ (loan.status = .disbursed ∨ loan.status = .inArrears) ∧
      postJournalEntry s!"LOAN-RPY-{r.loanId}" (r.description loan) r.postedBy
        (creditKey .repayment r.idempotencyKey)
        (repaymentLines loan r.paymentAccountId (allocate r.amount loan.balances)) t
          = .ok entryId t₁ ∧
      RepaymentRecorded ar r loan (allocate r.amount loan.balances) row t₁ t' := by
  simp only [applyRepayment, get_bind_eq_ok] at h
  cases hfind : t.repayment? r.idempotencyKey with
  | some existing =>
    rw [hfind] at h
    exact .inl (pure_eq_ok.mp h).2.symm
  | none =>
    simp only [hfind, orRaise_bind_eq_ok, require_bind_eq_ok] at h
    obtain ⟨loan, hloan, hterminal, hdisbursing, h⟩ := h
    obtain ⟨entryId, t₁, hpost, h⟩ := bind_eq_ok.mp h
    obtain ⟨row, hrec⟩ := recordRepayment_ok h
    have hnew : ∀ rp ∈ t.repayments, rp.idempotencyKey ≠ r.idempotencyKey := by
      simpa [Tables.repayment?] using hfind
    have hactive : loan.status = .disbursed ∨ loan.status = .inArrears := by
      cases hs : loan.status <;> simp_all
    exact .inr ⟨loan, row, entryId, t₁, hnew, hloan, hactive, hpost, hrec⟩

end SaccoPlatform
