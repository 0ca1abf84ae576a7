import SaccoPlatform.Credit.Operations
import SaccoPlatform.Lib.DecimalError
import SaccoPlatform.Lib.Returns

/-!
# When a repayment goes through

`apply_repayment` builds a journal entry from its allocation and hands it to the ledger, which has
its own balance test and its own `CHECK`. The debit is what was applied of all three buckets, the
credits are principal and interest only: a payment that reaches the penalties is not balanced. And a
payment on a loan that owes nothing is written as two lines of zero, which `ck_jl_amounts` refuses.
-/

namespace SaccoPlatform

open Lib Session

/-! ## Writing -/

theorem exists_ofRat? {q : ℚ} (h : |roundAt 4 q| < 10 ^ 15) :
    ∃ m : Money, Numeric.ofRat? q = some m ∧ m.val = roundAt 4 q :=
  ⟨⟨roundAt 4 q, roundAt_mem_grid 4 q, h⟩, dif_pos h, rfl⟩

/-- A column can take what lies between two values it has. -/
theorem fits_of_between {q : ℚ} (low high : Money) (hlow : low.val ≤ q) (hhigh : q ≤ high.val) :
    |roundAt 4 q| < 10 ^ 15 := by
  have hl : low.val ≤ roundAt 4 q := by
    rw [← roundAt_of_mem low.onGrid]
    exact roundAt_mono hlow
  have hh : roundAt 4 q ≤ high.val := by
    rw [← roundAt_of_mem high.onGrid]
    exact roundAt_mono hhigh
  have hlow' : |low.val| < 10 ^ 15 := low.fits
  have hhigh' : |high.val| < 10 ^ 15 := high.fits
  rw [abs_lt] at hlow' hhigh' ⊢
  exact ⟨by linarith, by linarith⟩

theorem fits_of_decimal {q : ℚ} (low high : Money) (hlow : low.val ≤ q) (hhigh : q ≤ high.val) :
    |roundAt 4 (decimal q)| < 10 ^ 15 := by
  have hkept : ∀ x : Money, |x.val| < 10 ^ 23 := by
    intro x
    have hx : |x.val| < 10 ^ 15 := x.fits
    norm_num at hx ⊢
    linarith
  exact fits_of_between low high (le_decimal (grid_mono (by omega) low.onGrid) (hkept low) hlow)
    (decimal_le (grid_mono (by omega) high.onGrid) (hkept high) hhigh)

theorem returns_writeMoney_bind {β : Type} {q : ℚ} {f : Money → Call β} {t : Tables}
    (hfits : |roundAt 4 q| < 10 ^ 15)
    (hf : ∀ m : Money, Numeric.ofRat? q = some m → m.val = roundAt 4 q → Returns (f m) t) :
    Returns (writeMoney q >>= f) t := by
  obtain ⟨m, hm, hval⟩ := exists_ofRat? hfits
  exact returns_bind.mpr ⟨m, t, writeMoney_eq_ok.mpr ⟨hm, rfl⟩, hf m hm hval⟩

/-- `ck_jl_amounts`, of the line as it is stored. -/
def LineIn.Check (l : LineIn) : Prop :=
  0 ≤ roundAt 4 l.debitAmount ∧ 0 ≤ roundAt 4 l.creditAmount ∧
    (0 < roundAt 4 l.debitAmount ∨ 0 < roundAt 4 l.creditAmount) ∧
    ¬ (0 < roundAt 4 l.debitAmount ∧ 0 < roundAt 4 l.creditAmount)

/-- A line that `journal_lines` takes. -/
structure LineIn.Storable (t : Tables) (l : LineIn) : Prop where
  account : ∃ a ∈ t.accounts, a.id = l.accountId
  debitFits : |roundAt 4 l.debitAmount| < 10 ^ 15
  creditFits : |roundAt 4 l.creditAmount| < 10 ^ 15
  check : l.Check

theorem returns_storeLine {l : LineIn} {t : Tables} (h : l.Storable t) :
    Returns (storeLine l) t := by
  refine returns_get_bind.mpr (returns_constraint_bind.mpr ⟨h.account, ?_⟩)
  refine returns_writeMoney_bind h.debitFits fun debit _ hdebit => ?_
  refine returns_writeMoney_bind h.creditFits fun credit _ hcredit => ?_
  rw [returns_constraint_bind, hdebit, hcredit]
  exact ⟨h.check, returns_pure _ _⟩

theorem returns_storeLines {ls : List LineIn} {t : Tables} (h : ∀ l ∈ ls, l.Storable t) :
    Returns (storeLines ls) t := by
  induction ls with
  | nil => exact returns_pure _ _
  | cons l ls ih =>
    obtain ⟨row, t₁, hrow⟩ := returns_storeLine (h l List.mem_cons_self)
    obtain ⟨rfl, -⟩ := storeLine_ok hrow
    obtain ⟨rows, t₂, hrows⟩ := ih fun l' hl' => h l' (List.mem_cons_of_mem _ hl')
    exact ⟨_, _, bind_eq_ok.mpr ⟨row, t₁, hrow, bind_eq_ok.mpr ⟨rows, t₂, hrows, rfl⟩⟩⟩

/-- The ledger takes a balanced entry of at least two lines that the table takes. -/
theorem returns_postJournalEntry {reference description key : String} {postedBy : Uuid}
    {lines : List LineIn} {t : Tables} (hkey : t.entry? key = none) (htwo : 2 ≤ lines.length)
    (hbalanced : totalDebit lines = totalCredit lines) (hlines : ∀ l ∈ lines, l.Storable t) :
    Returns (postJournalEntry reference description postedBy key lines) t := by
  refine returns_get_bind.mpr ?_
  rw [hkey]
  refine returns_require_bind.mpr ⟨htwo, returns_require_bind.mpr ⟨hbalanced, ?_⟩⟩
  have hnext : ∀ l ∈ lines, l.Storable { t with nextId := t.nextId + 1 } := fun l hl =>
    ⟨(hlines l hl).account, (hlines l hl).debitFits, (hlines l hl).creditFits, (hlines l hl).check⟩
  obtain ⟨rows, t₁, hrows⟩ := returns_storeLines hnext
  exact ⟨_, _, freshId_bind_eq_ok.mpr (bind_eq_ok.mpr ⟨rows, t₁, hrows, rfl⟩)⟩

theorem returns_saveLoan {l : Loan} {b : Balances} {status : LoanStatus} {t : Tables}
    (hfits : ∀ q ∈ [b.outstandingPrincipal, b.accruedInterest, b.accruedPenalties,
      b.totalPaidPrincipal, b.totalPaidInterest, b.totalPaidPenalties, b.totalWrittenOff],
        |roundAt 4 q| < 10 ^ 15)
    (ho : 0 ≤ b.outstandingPrincipal) (hi : 0 ≤ b.accruedInterest) (hp : 0 ≤ b.accruedPenalties) :
    Returns (saveLoan l b status) t := by
  refine returns_writeMoney_bind (hfits _ (by simp)) fun o _ hoval => ?_
  refine returns_writeMoney_bind (hfits _ (by simp)) fun i _ hival => ?_
  refine returns_writeMoney_bind (hfits _ (by simp)) fun p _ hpval => ?_
  refine returns_writeMoney_bind (hfits _ (by simp)) fun _ _ _ => ?_
  refine returns_writeMoney_bind (hfits _ (by simp)) fun _ _ _ => ?_
  refine returns_writeMoney_bind (hfits _ (by simp)) fun _ _ _ => ?_
  refine returns_writeMoney_bind (hfits _ (by simp)) fun _ _ _ => ?_
  rw [returns_constraint_bind, returns_constraint_bind, returns_constraint_bind, hoval, hival, hpval]
  exact ⟨roundAt_nonneg ho, roundAt_nonneg hi, roundAt_nonneg hp, _, _, rfl⟩

/-- A loop round of `_update_installments` always goes through: no instalment is paid beyond what is
due. -/
theorem returns_payInstallment (left : ℚ × ℚ) (inst : LoanInstallment) (t : Tables) :
    Returns (payInstallment left inst) t := by
  have hfits : ∀ (due paid : Money) (part : ℚ), |roundAt 4
      (if 0 < min part (decimal (due.val - paid.val)) then
          decimal (paid.val + min part (decimal (due.val - paid.val)))
        else paid.val)| < 10 ^ 15 := by
    intro due paid part
    rw [decimal_sub_money]
    split
    · next hpos =>
      have hle : min part (due.val - paid.val) ≤ due.val - paid.val := min_le_right _ _
      exact fits_of_decimal paid due (by linarith) (by linarith)
    · exact fits_of_between paid paid le_rfl le_rfl
  refine returns_writeMoney_bind (hfits _ _ _) fun _ _ _ => ?_
  refine returns_writeMoney_bind (hfits _ _ _) fun _ _ _ => ?_
  exact ⟨_, _, rfl⟩

theorem returns_updateInstallments (loanId : Uuid) (interest principal : ℚ) (t : Tables) :
    Returns (updateInstallments loanId interest principal) t := by
  refine returns_get_bind.mpr (returns_bind.mpr ?_)
  have hround : ∀ left, ∀ inst ∈ t.openInstallments loanId, ∀ s,
      Returns (allocateRound left inst) s := by
    intro left inst _ s
    unfold allocateRound
    split
    · exact returns_pure left s
    · exact returns_payInstallment left inst s
  obtain ⟨left, t', hloop⟩ := returns_foldEach hround (interest, principal) t
  exact ⟨left, t', hloop, returns_pure _ _⟩

/-- The amounts of a `loan_repayments` row. -/
structure RepaymentAmounts (amount : ℚ) (a : Allocation) (rp : LoanRepayment) : Prop where
  amount : rp.amount.val = roundAt 4 amount
  interest : rp.interestApplied.val = roundAt 4 a.interestApplied
  principal : rp.principalApplied.val = roundAt 4 a.principalApplied
  penalties : rp.penaltiesApplied.val = roundAt 4 a.penaltiesApplied
  overpayment : rp.overpayment.val = roundAt 4 a.overpayment

theorem insertRepayment_amounts {loanId account entryId id : Uuid} {amount : ℚ} {a : Allocation}
    {key : String} {t t' : Tables}
    (h : insertRepayment loanId amount a account entryId key t = .ok id t') :
    ∃ rp, RepaymentAmounts amount a rp ∧
      t' = { t with nextId := t.nextId + 1, repayments := t.repayments ++ [rp] } := by
  simp only [insertRepayment, writeMoney_bind_eq_ok, constraint_bind_eq_ok, freshId_bind_eq_ok,
    modify_bind_eq_ok, pure_eq_ok] at h
  obtain ⟨_, h₁, _, h₂, _, h₃, _, h₄, _, h₅, -, -, -, -, -, -, rfl⟩ := h
  exact ⟨_, ⟨Numeric.val_of_ofRat? h₁, Numeric.val_of_ofRat? h₃, Numeric.val_of_ofRat? h₂,
    Numeric.val_of_ofRat? h₄, Numeric.val_of_ofRat? h₅⟩, rfl⟩

theorem recordRepayment_amounts {ar : LienArithmetic} {r : RepaymentIn} {loan : Loan}
    {a : Allocation} {entryId id : Uuid} {t t' : Tables}
    (h : recordRepayment ar r loan a entryId t = .ok id t') :
    ∃ rp, RepaymentAmounts r.amount a rp ∧ t'.repayments = t.repayments ++ [rp] := by
  unfold recordRepayment at h
  obtain ⟨row, t₁, h₁, h⟩ := bind_eq_ok.mp h
  obtain ⟨rfl, -⟩ := saveLoan_ok h₁
  obtain ⟨_, t₂, h₂, h⟩ := bind_eq_ok.mp h
  rw [modifyGuarantees, modify_eq_ok] at h₂
  obtain ⟨_, t₃, h₃, h⟩ := bind_eq_ok.mp h
  obtain ⟨rp, hrp, rfl⟩ := insertRepayment_amounts h₃
  obtain ⟨_, t₄, h₄, h⟩ := bind_eq_ok.mp h
  obtain ⟨rows, rfl⟩ := (updateInstallments_moves _ _ _).ok h₄
  obtain ⟨_, t₅, h₅, h⟩ := bind_eq_ok.mp h
  have hsavings := (debitSavings_sameCredit r entryId).ok h₅
  have hrest : SameCredit t₅ t' := by
    refine Moves.ok ?_ h
    apply moves_bind (publish_sameCredit _)
    intro _
    apply moves_bind (moves_when (publish_sameCredit _))
    intro _
    exact moves_pure _
  subst h₂
  exact ⟨rp, hrp, hrest.repayments.trans hsavings.repayments⟩

theorem returns_insertRepayment {loanId account entryId : Uuid} {amount : ℚ} {a : Allocation}
    {key : String} {t : Tables}
    (hfits : ∀ q ∈ [amount, a.principalApplied, a.interestApplied, a.penaltiesApplied,
      a.overpayment], |roundAt 4 q| < 10 ^ 15)
    (hamount : 0 < roundAt 4 amount) (hp : 0 ≤ a.principalApplied) (hi : 0 ≤ a.interestApplied)
    (hx : 0 ≤ a.penaltiesApplied) (ho : 0 ≤ a.overpayment) :
    Returns (insertRepayment loanId amount a account entryId key) t := by
  refine returns_writeMoney_bind (hfits _ (by simp)) fun _ _ hamountVal => ?_
  refine returns_writeMoney_bind (hfits _ (by simp)) fun _ _ hpval => ?_
  refine returns_writeMoney_bind (hfits _ (by simp)) fun _ _ hival => ?_
  refine returns_writeMoney_bind (hfits _ (by simp)) fun _ _ hxval => ?_
  refine returns_writeMoney_bind (hfits _ (by simp)) fun _ _ hoval => ?_
  simp only [returns_constraint_bind, hamountVal, hpval, hival, hxval, hoval]
  exact ⟨hamount, roundAt_nonneg hp, roundAt_nonneg hi, roundAt_nonneg hx, roundAt_nonneg ho,
    _, _, rfl⟩

/-- The savings statement takes the row. -/
structure RepaymentIn.SavingsReady (r : RepaymentIn) (t : Tables) : Prop where
  key : ∀ tx ∈ t.savingsTransactions, tx.idempotencyKey ≠ "loan-rpy-savings-" ++ r.idempotencyKey
  account : ∀ id ∈ r.savingsAccountId, ∃ account, t.savingsAccount? id = some account

theorem returns_debitSavings {r : RepaymentIn} {entryId : Uuid} {t : Tables}
    (h : r.SavingsReady t) (hamount : 0 < roundAt 4 r.amount)
    (hfits : |roundAt 4 r.amount| < 10 ^ 15) : Returns (debitSavings r entryId) t := by
  unfold debitSavings
  cases hsavings : r.savingsAccountId with
  | none => exact returns_pure _ _
  | some id =>
    obtain ⟨account, haccount⟩ := h.account id hsavings
    have hnone : (t.savingsTransactions.find? fun tx =>
        tx.idempotencyKey = "loan-rpy-savings-" ++ r.idempotencyKey ∧
          tx.savingsAccountId = id) = none := by
      rw [List.find?_eq_none]
      intro tx htx
      simpa using fun hkey => absurd hkey (h.key tx htx)
    have hreturns : Returns (recordExternalDebit id r.amount entryId
        ("loan-rpy-savings-" ++ r.idempotencyKey)) t := by
      refine returns_get_bind.mpr ?_
      rw [hnone]
      refine returns_orRaise_bind.mpr ⟨account, haccount, ?_⟩
      refine returns_writeMoney_bind hfits fun _ _ hval => ?_
      rw [returns_constraint_bind, hval]
      refine ⟨hamount, returns_get_bind.mpr (returns_constraint_bind.mpr ⟨h.key, ?_⟩)⟩
      exact ⟨_, _, rfl⟩
    obtain ⟨tx, t', hok⟩ := hreturns
    exact returns_bind.mpr ⟨tx, t', hok, returns_pure _ _⟩

/-- Every column that a repayment writes has room for its value. -/
structure Allocation.Fits (a : Allocation) (amount : ℚ) (b : Balances) : Prop where
  amounts : ∀ q ∈ [amount, a.principalApplied, a.interestApplied, a.penaltiesApplied,
    a.overpayment], |roundAt 4 q| < 10 ^ 15
  balances : ∀ q ∈ [(b.repay a).outstandingPrincipal, (b.repay a).accruedInterest,
    (b.repay a).accruedPenalties, (b.repay a).totalPaidPrincipal, (b.repay a).totalPaidInterest,
    (b.repay a).totalPaidPenalties, (b.repay a).totalWrittenOff], |roundAt 4 q| < 10 ^ 15

/-- Nothing is taken that is not there. -/
structure Allocation.Within (a : Allocation) (b : Balances) : Prop where
  interest : 0 ≤ a.interestApplied ∧ a.interestApplied ≤ b.accruedInterest
  principal : 0 ≤ a.principalApplied ∧ a.principalApplied ≤ b.outstandingPrincipal
  penalties : 0 ≤ a.penaltiesApplied ∧ a.penaltiesApplied ≤ b.accruedPenalties
  overpayment : 0 ≤ a.overpayment

theorem returns_recordRepayment {ar : LienArithmetic} {r : RepaymentIn} {loan : Loan}
    {a : Allocation} {entryId : Uuid} {t : Tables} (hfits : a.Fits r.amount loan.balances)
    (hwithin : a.Within loan.balances) (hamount : 0 < roundAt 4 r.amount)
    (hsavings : r.SavingsReady t) : Returns (recordRepayment ar r loan a entryId) t := by
  have hsave : Returns (saveLoan loan (loan.balances.repay a) (loan.statusAfter a)) t :=
    returns_saveLoan hfits.balances (decimal_nonneg (sub_nonneg.mpr hwithin.principal.2))
      (decimal_nonneg (sub_nonneg.mpr hwithin.interest.2))
      (decimal_nonneg (sub_nonneg.mpr hwithin.penalties.2))
  refine hsave.bind fun row t₁ h₁ => returns_modify_bind.mpr ?_
  obtain ⟨rfl, -⟩ := saveLoan_ok h₁
  have hinsert (t₂ : Tables) : Returns (insertRepayment loan.id r.amount a r.paymentAccountId
      entryId r.idempotencyKey) t₂ :=
    returns_insertRepayment hfits.amounts hamount hwithin.principal.1 hwithin.interest.1
      hwithin.penalties.1 hwithin.overpayment
  refine (hinsert _).bind fun id t₂ h₂ => ?_
  obtain ⟨rp, -, rfl⟩ := insertRepayment_amounts h₂
  refine (returns_updateInstallments _ _ _ _).bind fun _ t₃ h₃ => ?_
  obtain ⟨rows, rfl⟩ := (updateInstallments_moves _ _ _).ok h₃
  have hfit : |roundAt 4 r.amount| < 10 ^ 15 := hfits.amounts r.amount List.mem_cons_self
  refine Returns.bind (returns_debitSavings ?_ hamount hfit) fun _ t₄ _ => ?_
  · -- nothing so far has written the savings tables
    exact ⟨hsavings.key, hsavings.account⟩
  · unfold Session.when
    split <;> exact ⟨_, _, rfl⟩

/-! ## The journal entry -/

section

variable {loan : Loan} {account : Uuid} {a : Allocation} {s : ℕ}

/-- The parts of an allocation, in so few digits that their sums are exact. -/
structure Allocation.Exact (a : Allocation) (s : ℕ) : Prop where
  interest : a.interestApplied ∈ grid s ∧ 0 ≤ a.interestApplied
  principal : a.principalApplied ∈ grid s ∧ 0 ≤ a.principalApplied
  penalties : a.penaltiesApplied ∈ grid s ∧ 0 ≤ a.penaltiesApplied
  fits : (a.interestApplied + a.principalApplied + a.penaltiesApplied) * 10 ^ s < 10 ^ 28

theorem Allocation.Exact.totalApplied_eq (h : a.Exact s) :
    a.totalApplied = a.interestApplied + a.principalApplied + a.penaltiesApplied := by
  have hp : (0 : ℚ) < 10 ^ s := by positivity
  have hsum : 0 ≤ a.interestApplied + a.principalApplied := add_nonneg h.interest.2 h.principal.2
  have hfits := h.fits
  have hpart : (a.interestApplied + a.principalApplied) * 10 ^ s < 10 ^ 28 :=
    lt_of_le_of_lt (mul_le_mul_of_nonneg_right (by linarith [h.penalties.2]) hp.le) hfits
  have hfirst : decimal (a.interestApplied + a.principalApplied) = _ :=
    inContext_of_mem (add_mem h.interest.1 h.principal.1) (by rwa [abs_of_nonneg hsum])
  have hwhole : decimal (a.interestApplied + a.principalApplied + a.penaltiesApplied) = _ :=
    inContext_of_mem (add_mem (add_mem h.interest.1 h.principal.1) h.penalties.1)
      (by rwa [abs_of_nonneg (add_nonneg hsum h.penalties.2)])
  rw [Allocation.totalApplied, hfirst, hwhole]

theorem decimalSum_of_mem {qs : List ℚ} (hmem : ∀ q ∈ qs, q ∈ grid s ∧ 0 ≤ q)
    (hfits : qs.sum * 10 ^ s < 10 ^ 28) : decimalSum qs = qs.sum :=
  sumInContext_of_mem (fun q hq => (hmem q hq).1) (fun q hq => (hmem q hq).2) hfits

/-- The credits are principal and interest, whatever else was applied. -/
theorem totalCredit_repaymentLines (hpos : 0 < a.totalApplied)
    (hinterest : a.interestApplied ∈ grid s ∧ 0 ≤ a.interestApplied)
    (hprincipal : a.principalApplied ∈ grid s ∧ 0 ≤ a.principalApplied)
    (hfits : (a.principalApplied + a.interestApplied) * 10 ^ s < 10 ^ 28) :
    totalCredit (repaymentLines loan account a) = a.principalApplied + a.interestApplied := by
  have hsum : ((repaymentLines loan account a).map (·.creditAmount)).sum =
      a.principalApplied + a.interestApplied := by
    have hp : ¬ 0 < a.principalApplied → a.principalApplied = 0 := fun hnot =>
      le_antisymm (not_lt.mp hnot) hprincipal.2
    have hi : ¬ 0 < a.interestApplied → a.interestApplied = 0 := fun hnot =>
      le_antisymm (not_lt.mp hnot) hinterest.2
    unfold repaymentLines
    rw [if_pos hpos]
    split <;> split <;> simp [LineIn.loanDebit, LineIn.loanCredit, *]
  have hmem : ∀ q ∈ (repaymentLines loan account a).map (·.creditAmount), q ∈ grid s ∧ 0 ≤ q := by
    unfold repaymentLines
    rw [if_pos hpos]
    split <;> split <;> simp [LineIn.loanDebit, LineIn.loanCredit, hprincipal, hinterest]
  rw [totalCredit, decimalSum_of_mem hmem (hsum ▸ hfits), hsum]

/-- The debit is the whole of what was applied, the credits leave the penalties out. -/
theorem repaymentLines_totals (h : a.Exact s) (hpos : 0 < a.totalApplied) :
    totalDebit (repaymentLines loan account a) = a.totalApplied ∧
      totalCredit (repaymentLines loan account a) = a.principalApplied + a.interestApplied := by
  have htotal : a.totalApplied ∈ grid s :=
    h.totalApplied_eq ▸ add_mem (add_mem h.interest.1 h.principal.1) h.penalties.1
  have hfits : a.totalApplied * 10 ^ s < 10 ^ 28 := h.totalApplied_eq ▸ h.fits
  have hcredits : (a.principalApplied + a.interestApplied) * 10 ^ s < 10 ^ 28 := by
    refine lt_of_le_of_lt (mul_le_mul_of_nonneg_right ?_ (by positivity)) h.fits
    linarith [h.penalties.2]
  refine ⟨?_, totalCredit_repaymentLines hpos h.interest h.principal hcredits⟩
  have hsum : ((repaymentLines loan account a).map (·.debitAmount)).sum = a.totalApplied := by
    unfold repaymentLines
    rw [if_pos hpos]
    split <;> split <;> simp [LineIn.loanDebit, LineIn.loanCredit]
  have hmem : ∀ q ∈ (repaymentLines loan account a).map (·.debitAmount), q ∈ grid s ∧ 0 ≤ q := by
    unfold repaymentLines
    rw [if_pos hpos]
    split <;> split <;> simp [LineIn.loanDebit, LineIn.loanCredit, htotal, hpos.le]
  rw [totalDebit, decimalSum_of_mem hmem (hsum ▸ hfits), hsum]

end

/-! ## The allocation, case by case -/

section

variable {amount : ℚ} {b : Balances}

/-- A balance that none of the three buckets is below zero. -/
structure Balances.Nonneg (b : Balances) : Prop where
  interest : 0 ≤ b.accruedInterest
  principal : 0 ≤ b.outstandingPrincipal
  penalties : 0 ≤ b.accruedPenalties

theorem allocate_within (hb : b.Nonneg) (hamount : 0 ≤ amount) :
    (allocate amount b).Within b where
  interest := ⟨allocate_interest_nonneg hamount hb.interest, min_le_right _ _⟩
  principal := ⟨allocate_principal_nonneg hb.principal, min_le_right _ _⟩
  penalties := ⟨allocate_penalties_nonneg hb.penalties, min_le_right _ _⟩
  overpayment := decimal_nonneg (sub_nonneg.mpr (min_le_left _ _))

/-- The amount has so few digits that what is left of it after each part is exact. -/
structure InDigits (amount : ℚ) (s : ℕ) : Prop where
  four_le : 4 ≤ s
  mem : amount ∈ grid s
  fits : amount * 10 ^ s < 10 ^ 28

theorem InDigits.kept {s : ℕ} {q : ℚ} (h : InDigits amount s) (hq : q ∈ grid s) (h0 : 0 ≤ q)
    (hle : q ≤ amount) : decimal q = q := by
  apply inContext_of_mem hq
  rw [abs_of_nonneg h0]
  exact lt_of_le_of_lt (mul_le_mul_of_nonneg_right hle (by positivity)) h.fits

theorem InDigits.rest {s : ℕ} (h : InDigits amount s) (hb : b.Nonneg) (hgrid : b.OnGrid)
    (hamount : 0 ≤ amount) :
    decimal (amount - min amount b.accruedInterest) = amount - min amount b.accruedInterest := by
  apply h.kept (sub_mem h.mem (min_mem_grid h.mem (grid_mono h.four_le hgrid.accruedInterest)))
  · exact sub_nonneg.mpr (min_le_left _ _)
  · exact sub_le_self _ (le_min hamount hb.interest)

/-- The payment ends in the interest, in the principal, or beyond them. -/
theorem allocate_cases {s : ℕ} (hdigits : InDigits amount s) (hb : b.Nonneg) (hgrid : b.OnGrid) :
    (amount ≤ b.accruedInterest ∧ allocate amount b = ⟨amount, 0, 0, 0⟩) ∨
    (b.accruedInterest < amount ∧ amount ≤ b.accruedInterest + b.outstandingPrincipal ∧
      allocate amount b = ⟨b.accruedInterest, amount - b.accruedInterest, 0, 0⟩) ∨
    (b.accruedInterest + b.outstandingPrincipal < amount ∧
      allocate amount b = ⟨b.accruedInterest, b.outstandingPrincipal,
        min (amount - b.accruedInterest - b.outstandingPrincipal) b.accruedPenalties,
        amount - b.accruedInterest - b.outstandingPrincipal -
          min (amount - b.accruedInterest - b.outstandingPrincipal) b.accruedPenalties⟩) := by
  have hi := hb.interest
  have hp := hb.principal
  have hx := hb.penalties
  have hI : amount - b.accruedInterest ∈ grid s :=
    sub_mem hdigits.mem (grid_mono hdigits.four_le hgrid.accruedInterest)
  unfold allocate
  rcases le_or_gt amount b.accruedInterest with hle | hgt
  · refine .inl ⟨hle, ?_⟩
    simp [min_eq_left hle, min_eq_left hp, min_eq_left hx, decimal_zero]
  · have hkept := hdigits.kept hI (by linarith) (by linarith)
    rcases le_or_gt amount (b.accruedInterest + b.outstandingPrincipal) with hle' | hgt'
    · have hrest : amount - b.accruedInterest ≤ b.outstandingPrincipal := by linarith
      refine .inr (.inl ⟨hgt, hle', ?_⟩)
      simp [min_eq_right hgt.le, hkept, min_eq_left hrest, min_eq_left hx, decimal_zero]
    · have hrest : b.outstandingPrincipal ≤ amount - b.accruedInterest := by linarith
      have hP : amount - b.accruedInterest - b.outstandingPrincipal ∈ grid s :=
        sub_mem hI (grid_mono hdigits.four_le hgrid.outstandingPrincipal)
      have hkept' := hdigits.kept hP (by linarith) (by linarith)
      have hmin := min_le_left (amount - b.accruedInterest - b.outstandingPrincipal) b.accruedPenalties
      have hlast := hdigits.kept
        (sub_mem hP (min_mem_grid hP (grid_mono hdigits.four_le hgrid.accruedPenalties)))
        (by linarith) (by linarith [le_min (by linarith : 0 ≤ amount - b.accruedInterest -
          b.outstandingPrincipal) hx])
      refine .inr (.inr ⟨hgt', ?_⟩)
      simp [min_eq_right hgt.le, hkept, min_eq_right hrest, hkept', hlast]

/-- Nothing of such an amount is lost. -/
theorem allocate_sum {s : ℕ} (hdigits : InDigits amount s) (hb : b.Nonneg) (hgrid : b.OnGrid) :
    (allocate amount b).interestApplied + (allocate amount b).principalApplied +
      (allocate amount b).penaltiesApplied + (allocate amount b).overpayment = amount := by
  rcases allocate_cases hdigits hb hgrid with ⟨-, heq⟩ | ⟨-, -, heq⟩ | ⟨-, heq⟩ <;> rw [heq] <;> ring

theorem inDigits_of_kept (hamount : 0 < amount) (hkept : inContext 28 amount = amount)
    (hlt : amount < 10 ^ 16) : ∃ s, InDigits amount s := by
  obtain ⟨s, hs, hmem, hfits⟩ := exists_grid_of_inContext (s := 4) hamount hkept hlt (by norm_num)
  exact ⟨s, hs, hmem, hfits⟩

/-- An amount of at most 28 digits is allocated in so few digits that the ledger's sums are exact. -/
theorem allocate_exact {s : ℕ} (hdigits : InDigits amount s) (hb : b.Nonneg) (hgrid : b.OnGrid)
    (hamount : 0 < amount) : (allocate amount b).Exact s := by
  have hwithin := allocate_within hb hamount.le
  have hI := grid_mono hdigits.four_le hgrid.accruedInterest
  have hP := grid_mono hdigits.four_le hgrid.outstandingPrincipal
  have hi : min amount b.accruedInterest ∈ grid s := min_mem_grid hdigits.mem hI
  have hrest : decimal (amount - min amount b.accruedInterest) ∈ grid s :=
    inContext_mem_grid (sub_mem hdigits.mem hi)
  have hp : (allocate amount b).principalApplied ∈ grid s := min_mem_grid hrest hP
  have hx : (allocate amount b).penaltiesApplied ∈ grid s :=
    min_mem_grid (inContext_mem_grid (sub_mem hrest hp))
      (grid_mono hdigits.four_le hgrid.accruedPenalties)
  refine ⟨⟨hi, hwithin.interest.1⟩, ⟨hp, hwithin.principal.1⟩, ⟨hx, hwithin.penalties.1⟩, ?_⟩
  refine lt_of_le_of_lt (mul_le_mul_of_nonneg_right ?_ (by positivity)) hdigits.fits
  linarith [allocate_sum hdigits hb hgrid, hwithin.overpayment]

end

/-! ## What a repayment should do -/

/-- The stored repayment adds up, and the balances drop by what it says was applied. -/
structure Repaid (r : RepaymentIn) (t t' : Tables) (loan row : Loan) (rp : LoanRepayment) :
    Prop where
  found : t'.loan? r.loanId = some row
  repayment : t'.repayments = t.repayments ++ [rp]
  whole : rp.amount.val = rp.interestApplied.val + rp.principalApplied.val +
    rp.penaltiesApplied.val + rp.overpayment.val
  interest : row.accruedInterest.val = loan.accruedInterest.val - rp.interestApplied.val
  principal : row.outstandingPrincipal.val = loan.outstandingPrincipal.val - rp.principalApplied.val
  penalties : row.accruedPenalties.val = loan.accruedPenalties.val - rp.penaltiesApplied.val

/-- The journal lines pass the ledger's balance test and the table's `CHECK`, the repayment returns,
and it is stored as it should be. -/
def RepaysExactly (ar : LienArithmetic) (r : RepaymentIn) (t : Tables) (loan : Loan) : Prop :=
  let lines := repaymentLines loan r.paymentAccountId (allocate r.amount loan.balances)
  (totalDebit lines = totalCredit lines ∧ ∀ l ∈ lines, l.Check) ∧
    ∃ id t' row rp, applyRepayment ar r t = .ok id t' ∧ Repaid r t t' loan row rp

/-- A repayment of a running loan under a fresh key, to accounts that exist. The amount is a decimal
of at most 28 digits. -/
structure RepaymentIn.Ready (r : RepaymentIn) (t : Tables) (loan : Loan) : Prop where
  found : t.loan? r.loanId = some loan
  status : loan.status = .disbursed ∨ loan.status = .inArrears
  nonneg : loan.Nonneg
  positive : 0 < r.amount
  digits : inContext 28 r.amount = r.amount
  repaymentKey : ∀ rp ∈ t.repayments, rp.idempotencyKey ≠ r.idempotencyKey
  entryKey : ∀ e ∈ t.entries, e.idempotencyKey ≠ creditKey .repayment r.idempotencyKey
  accounts : ∀ id ∈ [r.paymentAccountId, loan.glPrincipalReceivableId, loan.glInterestReceivableId],
    ∃ a ∈ t.accounts, a.id = id
  savings : r.SavingsReady t

/-- The loan owes interest or principal, and the payment stays clear of the penalties. A payment
that ends within a balance does not leave the rest of it halfway between two amounts of four decimals,
and pays so much of it that it does not round to nothing. The columns have room. -/
structure Loan.Accepts (loan : Loan) (amount : ℚ) : Prop where
  owes : 0 < loan.accruedInterest.val + loan.outstandingPrincipal.val
  penalties : loan.accruedPenalties.val = 0 ∨
    amount ≤ loan.accruedInterest.val + loan.outstandingPrincipal.val
  rounding : amount < loan.accruedInterest.val + loan.outstandingPrincipal.val →
    ¬ TipsOver 28 4 (if amount ≤ loan.accruedInterest.val then loan.accruedInterest.val - amount
      else loan.outstandingPrincipal.val - (amount - loan.accruedInterest.val)) ∧
    0 < roundAt 4 (if amount ≤ loan.accruedInterest.val then amount
      else amount - loan.accruedInterest.val)
  amountFits : roundAt 4 amount < 10 ^ 15
  interestFits :
    |roundAt 4 (decimal (loan.totalPaidInterest.val + min amount loan.accruedInterest.val))| < 10 ^ 15
  principalFits : |roundAt 4 (decimal (loan.totalPaidPrincipal.val +
    min (amount - min amount loan.accruedInterest.val) loan.outstandingPrincipal.val))| < 10 ^ 15

section

variable {ar : LienArithmetic} {r : RepaymentIn} {t t' : Tables} {loan : Loan} {id : Uuid}

theorem RepaymentIn.Ready.balances (h : r.Ready t loan) : loan.balances.Nonneg :=
  ⟨h.nonneg.interest, h.nonneg.outstanding, h.nonneg.penalties⟩

theorem RepaymentIn.Ready.within (h : r.Ready t loan) :
    (allocate r.amount loan.balances).Within loan.balances :=
  allocate_within h.balances h.positive.le

/-- A repayment under a fresh key posts its entry and records it. -/
theorem applyRepayment_new (h : r.Ready t loan) (hok : applyRepayment ar r t = .ok id t') :
    ∃ entryId t₁, t₁.loans = t.loans ∧ t₁.repayments = t.repayments ∧
      recordRepayment ar r loan (allocate r.amount loan.balances) entryId t₁ = .ok id t' := by
  have hfresh : t.repayment? r.idempotencyKey = none := by
    simpa [Tables.repayment?] using h.repaymentKey
  simp only [applyRepayment, get_bind_eq_ok, hfresh, h.found, orRaise_bind_eq_ok,
    require_bind_eq_ok] at hok
  obtain ⟨_, hloan, -, -, hok⟩ := hok
  cases hloan
  obtain ⟨entryId, t₁, hpost, hrecord⟩ := bind_eq_ok.mp hok
  obtain ⟨e, -, -, ht₁⟩ := (postJournalEntry_new h.entryKey hpost).entry
  exact ⟨entryId, t₁, by rw [ht₁], by rw [ht₁], hrecord⟩

/-- What a repayment that returned has stored. -/
theorem applyRepayment_stored (h : r.Ready t loan) (hok : applyRepayment ar r t = .ok id t') :
    ∃ row rp, t'.loan? r.loanId = some row ∧ t'.repayments = t.repayments ++ [rp] ∧
      RepaymentAmounts r.amount (allocate r.amount loan.balances) rp ∧
      row.balances = (loan.balances.repay (allocate r.amount loan.balances)).round := by
  obtain ⟨entryId, t₁, hloans, hreps, hrecord⟩ := applyRepayment_new h hok
  obtain ⟨row, hrow⟩ := recordRepayment_ok hrecord
  obtain ⟨rp, hrp, hreps'⟩ := recordRepayment_amounts hrecord
  refine ⟨row, rp, ?_, by rw [hreps', hreps], hrp, hrow.saved.balances⟩
  obtain ⟨-, hid⟩ := loan?_eq_some h.found
  have hlook : t'.loan? r.loanId = (t₁.putLoan row).loan? r.loanId := by
    unfold Tables.loan?
    rw [hrow.loans]
  have hlook₁ : t₁.loan? r.loanId = t.loan? r.loanId := by
    unfold Tables.loan?
    rw [hloans]
  rw [hlook, loan?_putLoan, hlook₁, h.found, Option.map_some, if_pos hrow.saved.terms.id.symm]

/-- What the columns make of an allocation that leaves the penalties alone. -/
structure Allocation.Clean (a : Allocation) (amount : ℚ) (b : Balances) : Prop where
  penalties : a.penaltiesApplied = 0
  interestPos : 0 < a.interestApplied → 0 < roundAt 4 a.interestApplied
  principalPos : 0 < a.principalApplied → 0 < roundAt 4 a.principalApplied
  applied : 0 < a.interestApplied ∨ 0 < a.principalApplied
  whole : roundAt 4 amount = roundAt 4 a.interestApplied + roundAt 4 a.principalApplied +
    roundAt 4 a.overpayment
  interest : roundAt 4 (decimal (b.accruedInterest - a.interestApplied)) =
    b.accruedInterest - roundAt 4 a.interestApplied
  principal : roundAt 4 (decimal (b.outstandingPrincipal - a.principalApplied)) =
    b.outstandingPrincipal - roundAt 4 a.principalApplied

theorem Loan.Accepts.clean {amount : ℚ} {s : ℕ} (h : loan.Accepts amount)
    (hdigits : InDigits amount s) (hb : loan.balances.Nonneg) (hpos : 0 < amount) :
    (allocate amount loan.balances).Clean amount loan.balances := by
  have hI : loan.balances.accruedInterest ∈ grid 4 := loan.accruedInterest.onGrid
  have hP : loan.balances.outstandingPrincipal ∈ grid 4 := loan.outstandingPrincipal.onGrid
  have hkeptP : decimal loan.balances.outstandingPrincipal = loan.balances.outstandingPrincipal :=
    decimal_val loan.outstandingPrincipal
  have hzero : roundAt 4 (0 : ℚ) = 0 := roundAt_of_mem (zero_mem _)
  have howes : 0 < loan.balances.accruedInterest + loan.balances.outstandingPrincipal := h.owes
  have hround := h.rounding
  rcases allocate_cases hdigits hb loan.balances_onGrid with
    ⟨hle, heq⟩ | ⟨hgt, hle, heq⟩ | ⟨hgt, heq⟩
  · -- the payment ends in the interest
    have hlast : roundAt 4 (decimal (loan.balances.accruedInterest - amount)) =
        loan.balances.accruedInterest - roundAt 4 amount ∧ 0 < roundAt 4 amount := by
      rcases lt_or_ge amount (loan.balances.accruedInterest + loan.balances.outstandingPrincipal)
        with hlt | hge
      · have hcut := hround hlt
        rw [if_pos (show amount ≤ loan.accruedInterest.val from hle),
          if_pos (show amount ≤ loan.accruedInterest.val from hle)] at hcut
        exact ⟨(roundAt_rest_iff loan.accruedInterest hpos.le hle).mpr hcut.1, hcut.2⟩
      · have hall : amount = loan.balances.accruedInterest := le_antisymm hle (by linarith [hb.principal])
        rw [← hall] at hI ⊢
        rw [sub_self, decimal_zero, hzero, roundAt_of_mem hI, sub_self]
        exact ⟨rfl, hpos⟩
    rw [heq]
    refine ⟨rfl, fun _ => hlast.2, fun h0 => absurd h0 (lt_irrefl _), .inl hpos, ?_, hlast.1, ?_⟩
    · simp [hzero]
    · simp [hzero, hkeptP, roundAt_of_mem hP]
  · -- the payment ends in the principal
    have hrest : 0 < amount - loan.balances.accruedInterest := by linarith
    have hlast : roundAt 4 (decimal (loan.balances.outstandingPrincipal -
          (amount - loan.balances.accruedInterest))) =
        loan.balances.outstandingPrincipal - roundAt 4 (amount - loan.balances.accruedInterest) ∧
        0 < roundAt 4 (amount - loan.balances.accruedInterest) := by
      rcases lt_or_eq_of_le hle with hlt | hall
      · have hcut := hround hlt
        rw [if_neg (show ¬ amount ≤ loan.accruedInterest.val from not_le.mpr hgt),
          if_neg (show ¬ amount ≤ loan.accruedInterest.val from not_le.mpr hgt)] at hcut
        have hpart : amount - loan.balances.accruedInterest ≤ loan.outstandingPrincipal.val := by
          have hsum : amount ≤ loan.balances.accruedInterest + loan.outstandingPrincipal.val := hle
          linarith
        exact ⟨(roundAt_rest_iff loan.outstandingPrincipal hrest.le hpart).mpr hcut.1, hcut.2⟩
      · have hwhole : amount - loan.balances.accruedInterest = loan.balances.outstandingPrincipal := by
          linarith
        rw [hwhole] at hrest ⊢
        rw [sub_self, decimal_zero, hzero, roundAt_of_mem hP, sub_self]
        exact ⟨rfl, hrest⟩
    rw [heq]
    refine ⟨rfl, fun hi => (roundAt_of_mem hI).symm ▸ hi, fun _ => hlast.2, .inr hrest, ?_, ?_, hlast.1⟩
    · have hsplit := roundAt_add_mem hI hb.interest hrest.le
      rw [add_sub_cancel] at hsplit
      simp [hsplit, roundAt_of_mem hI, hzero]
    · simp [roundAt_of_mem hI, hzero, decimal_zero]
  · -- the payment goes beyond both, and there are no penalties
    have hX : loan.balances.accruedPenalties = 0 := by
      rcases h.penalties with hX | hle
      · exact hX
      · exact absurd hle (not_le.mpr hgt)
    have hover : 0 < amount - loan.balances.accruedInterest - loan.balances.outstandingPrincipal := by
      linarith
    rw [heq, hX, min_eq_right hover.le, sub_zero]
    refine ⟨rfl, fun hi => (roundAt_of_mem hI).symm ▸ hi, fun hp => (roundAt_of_mem hP).symm ▸ hp, ?_, ?_, ?_, ?_⟩
    · rcases hb.interest.lt_or_eq with hi | hi
      · exact .inl hi
      · exact .inr (by linarith)
    · have hsplit := roundAt_add_mem (add_mem hI hP) howes.le hover.le
      have hsum : loan.balances.accruedInterest + loan.balances.outstandingPrincipal +
          (amount - loan.balances.accruedInterest - loan.balances.outstandingPrincipal) = amount := by
        ring
      rw [hsum] at hsplit
      simp [hsplit, roundAt_of_mem hI, roundAt_of_mem hP]
    · simp [roundAt_of_mem hI, hzero, decimal_zero]
    · simp [roundAt_of_mem hP, hzero, decimal_zero]

theorem RepaymentIn.Ready.inDigits (hready : r.Ready t loan) (hfits : roundAt 4 r.amount < 10 ^ 15) :
    ∃ s, InDigits r.amount s := by
  have hround := lt_roundAt_add_half (s := 4) hready.positive.le
  apply inDigits_of_kept hready.positive hready.digits
  norm_num at hround hfits ⊢
  linarith

/-- The payment's parts are none of them larger than the payment. -/
theorem Loan.Accepts.fits (h : loan.Accepts r.amount) (hready : r.Ready t loan) :
    (allocate r.amount loan.balances).Fits r.amount loan.balances := by
  have hwithin := hready.within
  obtain ⟨s, hdigits⟩ := hready.inDigits h.amountFits
  have hsum := allocate_sum hdigits hready.balances loan.balances_onGrid
  have hclean := h.clean hdigits hready.balances hready.positive
  have hpart : ∀ q : ℚ, 0 ≤ q → q ≤ r.amount → |roundAt 4 q| < 10 ^ 15 := by
    intro q hq hle
    rw [abs_of_nonneg (roundAt_nonneg hq)]
    exact lt_of_le_of_lt (roundAt_mono hle) h.amountFits
  have hi := hwithin.interest
  have hp := hwithin.principal
  have hx := hwithin.penalties
  have ho := hwithin.overpayment
  constructor
  · intro q hq
    simp only [List.mem_cons, List.not_mem_nil, or_false] at hq
    rcases hq with rfl | rfl | rfl | rfl | rfl
    · exact hpart _ hready.positive.le le_rfl
    · exact hpart _ hp.1 (by linarith)
    · exact hpart _ hi.1 (by linarith)
    · exact hpart _ hx.1 (by linarith)
    · exact hpart _ ho (by linarith)
  · intro q hq
    simp only [Balances.repay, hclean.penalties, sub_zero, add_zero, List.mem_cons,
      List.not_mem_nil, or_false] at hq
    rcases hq with rfl | rfl | rfl | rfl | rfl | rfl | rfl
    · refine fits_of_decimal 0 loan.outstandingPrincipal (sub_nonneg.mpr hp.2) ?_
      exact sub_le_self _ hp.1
    · refine fits_of_decimal 0 loan.accruedInterest (sub_nonneg.mpr hi.2) ?_
      exact sub_le_self _ hi.1
    · exact fits_of_decimal loan.accruedPenalties loan.accruedPenalties le_rfl le_rfl
    · have hrest := hdigits.rest hready.balances loan.balances_onGrid hready.positive.le
      show |roundAt 4 (decimal (loan.totalPaidPrincipal.val +
        min (decimal (r.amount - min r.amount loan.balances.accruedInterest))
          loan.outstandingPrincipal.val))| < 10 ^ 15
      rw [hrest]
      exact h.principalFits
    · exact h.interestFits
    · exact fits_of_decimal loan.totalPaidPenalties loan.totalPaidPenalties le_rfl le_rfl
    · exact fits_of_between loan.totalWrittenOff loan.totalWrittenOff le_rfl le_rfl

/-- The journal lines of a payment that the loan accepts. -/
theorem Loan.Accepts.lines (h : loan.Accepts r.amount) (hready : r.Ready t loan) :
    let lines := repaymentLines loan r.paymentAccountId (allocate r.amount loan.balances)
    2 ≤ lines.length ∧ totalDebit lines = totalCredit lines ∧ ∀ l ∈ lines, l.Storable t := by
  intro lines
  have hwithin := hready.within
  obtain ⟨s, hdigits⟩ := hready.inDigits h.amountFits
  have hclean := h.clean hdigits hready.balances hready.positive
  have hfits := h.fits hready
  have hsum := allocate_sum hdigits hready.balances loan.balances_onGrid
  have hexact := allocate_exact hdigits hready.balances loan.balances_onGrid hready.positive
  have htotal : (allocate r.amount loan.balances).totalApplied =
      (allocate r.amount loan.balances).interestApplied +
        (allocate r.amount loan.balances).principalApplied := by
    rw [hexact.totalApplied_eq, hclean.penalties, add_zero]
  have hi := hwithin.interest
  have hp := hwithin.principal
  have hpos : 0 < (allocate r.amount loan.balances).totalApplied := by
    rw [htotal]
    rcases hclean.applied with hpart | hpart <;> linarith
  have hzero : roundAt 4 (0 : ℚ) = 0 := roundAt_of_mem (zero_mem _)
  have htotalPos : 0 < roundAt 4 (allocate r.amount loan.balances).totalApplied := by
    rcases hclean.applied with hpart | hpart
    · exact lt_of_lt_of_le (hclean.interestPos hpart) (roundAt_mono (by linarith))
    · exact lt_of_lt_of_le (hclean.principalPos hpart) (roundAt_mono (by linarith))
  have htotalFits : |roundAt 4 (allocate r.amount loan.balances).totalApplied| < 10 ^ 15 := by
    rw [abs_of_pos htotalPos, htotal]
    exact lt_of_le_of_lt (roundAt_mono (by linarith [hwithin.overpayment, hclean.penalties]))
      h.amountFits
  have hcredit : ∀ (account : Uuid) (q : ℚ), 0 < roundAt 4 q → |roundAt 4 q| < 10 ^ 15 →
      (∃ a ∈ t.accounts, a.id = account) → (LineIn.loanCredit account q loan.id).Storable t := by
    intro account q hq hfit haccount
    refine ⟨haccount, by simp [LineIn.loanCredit, hzero], hfit, ?_⟩
    simp [LineIn.Check, LineIn.loanCredit, hzero, hq, hq.le]
  refine ⟨?_, ?_, ?_⟩
  · rcases hclean.applied with hpart | hpart
    all_goals
      simp only [lines, repaymentLines, if_pos hpos, if_pos hpart]
      split <;> simp
  · have htotals : totalDebit lines = _ ∧ totalCredit lines = _ := repaymentLines_totals hexact hpos
    rw [htotals.1, htotals.2, htotal, add_comm]
  · intro l hl
    simp only [lines, repaymentLines, if_pos hpos, List.mem_append, List.mem_singleton] at hl
    rcases hl with (rfl | hl) | hl
    · refine ⟨hready.accounts r.paymentAccountId (by simp), htotalFits,
        by simp [LineIn.loanDebit, hzero], ?_⟩
      simp [LineIn.Check, LineIn.loanDebit, hzero, htotalPos, htotalPos.le]
    · split at hl
      · next hpart =>
        rw [List.mem_singleton.mp hl]
        exact hcredit _ _ (hclean.principalPos hpart) (hfits.amounts _ (by simp))
          (hready.accounts _ (by simp))
      · cases hl
    · split at hl
      · next hpart =>
        rw [List.mem_singleton.mp hl]
        exact hcredit _ _ (hclean.interestPos hpart) (hfits.amounts _ (by simp))
          (hready.accounts _ (by simp))
      · cases hl

theorem Loan.Accepts.returns (h : loan.Accepts r.amount) (hready : r.Ready t loan) :
    Returns (applyRepayment ar r) t := by
  have hfresh : t.repayment? r.idempotencyKey = none := by
    simpa [Tables.repayment?] using hready.repaymentKey
  obtain ⟨htwo, hbalanced, hlines⟩ := h.lines hready
  obtain ⟨s, hdigits⟩ := hready.inDigits h.amountFits
  have hclean := h.clean hdigits hready.balances hready.positive
  have hamount : 0 < roundAt 4 r.amount := by
    have hi := roundAt_nonneg (s := 4) hready.within.interest.1
    have hp := roundAt_nonneg (s := 4) hready.within.principal.1
    have ho := roundAt_nonneg (s := 4) hready.within.overpayment
    rw [hclean.whole]
    rcases hclean.applied with hpart | hpart
    · linarith [hclean.interestPos hpart]
    · linarith [hclean.principalPos hpart]
  refine returns_get_bind.mpr ?_
  rw [hfresh]
  refine returns_orRaise_bind.mpr ⟨loan, hready.found, ?_⟩
  have hrunning : (loan.status ≠ .closed ∧ loan.status ≠ .writtenOff) ∧ loan.status ≠ .disbursing := by
    rcases hready.status with hs | hs <;> simp [hs]
  refine returns_require_bind.mpr ⟨hrunning.1, returns_require_bind.mpr ⟨hrunning.2, ?_⟩⟩
  refine Returns.bind (returns_postJournalEntry (entry?_eq_none.mpr hready.entryKey) htwo hbalanced
    hlines) fun entryId t₁ ht₁ => ?_
  obtain ⟨e, -, -, rfl⟩ := (postJournalEntry_new hready.entryKey ht₁).entry
  exact returns_recordRepayment (h.fits hready) hready.within hamount
    ⟨hready.savings.key, hready.savings.account⟩

/-- A payment that the loan accepts is stored as it should be. -/
theorem Loan.Accepts.repays (h : loan.Accepts r.amount) (hready : r.Ready t loan) :
    RepaysExactly ar r t loan := by
  obtain ⟨-, hbalanced, hlines⟩ := h.lines hready
  refine ⟨⟨hbalanced, fun l hl => (hlines l hl).check⟩, ?_⟩
  obtain ⟨id, t', hok⟩ : Returns (applyRepayment ar r) t := h.returns hready
  obtain ⟨row, rp, hrow, hreps, hrp, hbalances⟩ := applyRepayment_stored hready hok
  obtain ⟨s, hdigits⟩ := hready.inDigits h.amountFits
  have hclean := h.clean hdigits hready.balances hready.positive
  have hzero : roundAt 4 (0 : ℚ) = 0 := roundAt_of_mem (zero_mem _)
  refine ⟨id, t', row, rp, hok, hrow, hreps, ?_, ?_, ?_, ?_⟩
  · rw [hrp.amount, hrp.interest, hrp.principal, hrp.penalties, hrp.overpayment, hclean.whole,
      hclean.penalties, hzero, add_zero]
  · have hcol := congrArg Balances.accruedInterest hbalances
    rw [hrp.interest]
    exact hcol.trans hclean.interest
  · have hcol := congrArg Balances.outstandingPrincipal hbalances
    rw [hrp.principal]
    exact hcol.trans hclean.principal
  · have hcol := congrArg Balances.accruedPenalties hbalances
    simp only [Balances.round, Balances.repay, hclean.penalties, sub_zero] at hcol
    rw [hrp.penalties, hclean.penalties, hzero, sub_zero]
    have hkept : decimal loan.balances.accruedPenalties = loan.accruedPenalties.val :=
      decimal_val loan.accruedPenalties
    rw [hkept, roundAt_of_mem loan.accruedPenalties.onGrid] at hcol
    exact hcol

/-- An entry that balances leaves the penalties alone, and one that passes the `CHECK` applies
something. -/
theorem applied_of_lines {a : Allocation} {account : Uuid} {s : ℕ} (hexact : a.Exact s)
    (hbalanced : totalDebit (repaymentLines loan account a) =
      totalCredit (repaymentLines loan account a))
    (hcheck : ∀ l ∈ repaymentLines loan account a, l.Check) :
    0 < a.totalApplied ∧ a.penaltiesApplied = 0 := by
  have hpos : 0 < a.totalApplied := by
    by_contra hnot
    have hmem : LineIn.loanDebit account 0 loan.id ∈ repaymentLines loan account a := by
      rw [repaymentLines, if_neg hnot]
      exact List.mem_cons_self
    have hzero : roundAt 4 (0 : ℚ) = 0 := roundAt_of_mem (zero_mem _)
    have hline := hcheck _ hmem
    simp [LineIn.Check, LineIn.loanDebit, hzero] at hline
  have htotals : totalDebit (repaymentLines loan account a) = _ ∧
      totalCredit (repaymentLines loan account a) = _ := repaymentLines_totals hexact hpos
  rw [htotals.1, htotals.2, hexact.totalApplied_eq] at hbalanced
  exact ⟨hpos, by linarith⟩

/-- The part that a credit line carries does not round to nothing. -/
theorem credited_of_lines {a : Allocation} {account : Uuid} (hpos : 0 < a.totalApplied)
    (hcheck : ∀ l ∈ repaymentLines loan account a, l.Check) :
    (0 < a.principalApplied → 0 < roundAt 4 a.principalApplied) ∧
      (0 < a.interestApplied → 0 < roundAt 4 a.interestApplied) := by
  have hzero : roundAt 4 (0 : ℚ) = 0 := roundAt_of_mem (zero_mem _)
  have hcredit : ∀ (id : Uuid) (q : ℚ), LineIn.loanCredit id q loan.id ∈ repaymentLines loan account a →
      0 < roundAt 4 q := by
    intro id q hmem
    have hline := hcheck _ hmem
    simp only [LineIn.Check, LineIn.loanCredit, hzero, lt_irrefl, false_or] at hline
    exact hline.2.2.1
  constructor
  · intro hp
    apply hcredit loan.glPrincipalReceivableId
    simp [repaymentLines, hpos, hp]
  · intro hi
    apply hcredit loan.glInterestReceivableId
    simp [repaymentLines, hpos, hi]

theorem RepaysExactly.accepts (hready : r.Ready t loan) (h : RepaysExactly ar r t loan) :
    loan.Accepts r.amount := by
  obtain ⟨⟨hbalanced, hcheck⟩, id, t', row, rp, hok, hrepaid⟩ := h
  obtain ⟨row', rp', hrow, hreps, hrp, hbalances⟩ := applyRepayment_stored hready hok
  obtain rfl : row = row' := Option.some.inj (hrepaid.found.symm.trans hrow)
  obtain rfl : rp = rp' := by
    have heq := hrepaid.repayment.symm.trans hreps
    simpa using heq
  have hb := hready.balances
  have hamountFits : roundAt 4 r.amount < 10 ^ 15 := hrp.amount ▸ (abs_lt.mp rp.amount.fits).2
  obtain ⟨s, hdigits⟩ := hready.inDigits hamountFits
  have hexact := allocate_exact hdigits hb loan.balances_onGrid hready.positive
  obtain ⟨hpos, hnone⟩ := applied_of_lines hexact hbalanced hcheck
  have hcredited := credited_of_lines hpos hcheck
  refine ⟨?_, ?_, ?_, hamountFits, ?_, ?_⟩
  · have hwithin := hready.within
    rw [hexact.totalApplied_eq, hnone] at hpos
    have howes : 0 < loan.balances.accruedInterest + loan.balances.outstandingPrincipal := by
      linarith [hwithin.interest.2, hwithin.principal.2]
    exact howes
  · rcases allocate_cases hdigits hb loan.balances_onGrid with ⟨hle, -⟩ | ⟨-, hle, -⟩ | ⟨hgt, heq⟩
    · exact .inr (le_add_of_le_of_nonneg hle hb.principal)
    · exact .inr hle
    · -- a payment beyond both takes from the penalties what there is
      rw [heq] at hnone
      rcases min_choice (r.amount - loan.balances.accruedInterest - loan.balances.outstandingPrincipal)
        loan.balances.accruedPenalties with hmin | hmin
      · rw [hmin] at hnone
        have hover : r.amount - loan.balances.accruedInterest
          - loan.balances.outstandingPrincipal = 0 := hnone
        linarith
      · rw [hmin] at hnone
        exact .inl hnone
  · intro hshort
    have hinterest := (congrArg Balances.accruedInterest hbalances).symm.trans hrepaid.interest
    have hprincipal := (congrArg Balances.outstandingPrincipal hbalances).symm.trans hrepaid.principal
    rw [hrp.interest] at hinterest
    rw [hrp.principal] at hprincipal
    rcases allocate_cases hdigits hb loan.balances_onGrid with
      ⟨hle, heq⟩ | ⟨hgt, hle, heq⟩ | ⟨hgt, -⟩
    · rw [heq] at hcredited hinterest
      have hend : r.amount ≤ loan.accruedInterest.val := hle
      rw [if_pos hend, if_pos hend]
      exact ⟨(roundAt_rest_iff loan.accruedInterest hready.positive.le hle).mp hinterest,
        hcredited.2 hready.positive⟩
    · have hrest : 0 < r.amount - loan.balances.accruedInterest := by linarith
      have hpart : r.amount - loan.balances.accruedInterest ≤ loan.balances.outstandingPrincipal := by
        linarith
      rw [heq] at hcredited hprincipal
      have hend : ¬ r.amount ≤ loan.accruedInterest.val := not_le.mpr hgt
      rw [if_neg hend, if_neg hend]
      exact ⟨(roundAt_rest_iff loan.outstandingPrincipal hrest.le hpart).mp hprincipal,
        hcredited.1 hrest⟩
    · exact absurd hshort (not_lt.mpr hgt.le)
  · have hcol : row.totalPaidInterest.val =
        roundAt 4 (decimal (loan.totalPaidInterest.val + min r.amount loan.accruedInterest.val)) :=
      congrArg Balances.totalPaidInterest hbalances
    exact hcol ▸ row.totalPaidInterest.fits
  · have hcol : row.totalPaidPrincipal.val = roundAt 4 (decimal (loan.totalPaidPrincipal.val +
        min (decimal (r.amount - min r.amount loan.balances.accruedInterest))
          loan.outstandingPrincipal.val)) := congrArg Balances.totalPaidPrincipal hbalances
    rw [hdigits.rest hb loan.balances_onGrid hready.positive.le] at hcol
    exact hcol ▸ row.totalPaidPrincipal.fits

end

/-- A repayment of a running loan under a fresh key goes through and is stored exactly if and only
if the loan accepts it. -/
theorem repayment_exact_iff (ar : LienArithmetic) (r : RepaymentIn) (t : Tables) (loan : Loan)
    (hready : r.Ready t loan) : RepaysExactly ar r t loan ↔ loan.Accepts r.amount :=
  ⟨fun h => h.accepts hready, fun h => h.repays hready⟩

/-- The sample loan, disbursed, with these balances. -/
def runningLoan (principal interest penalties : ℚ) : Loan :=
  { id := 11, loanReference := "L", loanApplicationId := 7, loanProductId := 6, memberId := 20
    status := .inArrears, principalAmount := money 1000, interestMethod := .reducingBalance
    annualInterestRate := money 12, repaymentFrequency := .monthly, termPeriods := 2
    glPrincipalReceivableId := 1, glInterestReceivableId := 2, glInterestIncomeId := 3
    glLoanLossExpenseId := none, outstandingPrincipal := money principal
    accruedInterest := money interest, accruedPenalties := money penalties
    totalPaidPrincipal := 0, totalPaidInterest := 0, totalPaidPenalties := 0, totalWrittenOff := 0
    maturityDate := none, idempotencyKey := "d" }

def runningTenant (loan : Loan) : Tables :=
  { sampleTenant .reducingBalance with loans := [loan] }

theorem ready_sampleRepayment {principal interest penalties amount : ℚ}
    (hnonneg : (runningLoan principal interest penalties).Nonneg) (hpositive : 0 < amount)
    (hdigits : inContext 28 amount = amount) :
    (sampleRepayment amount "r").Ready (runningTenant (runningLoan principal interest penalties))
      (runningLoan principal interest penalties) where
  found := rfl
  status := .inr rfl
  nonneg := hnonneg
  positive := hpositive
  digits := hdigits
  repaymentKey := by
    intro rp hrp
    cases hrp
  entryKey := by
    intro e he
    cases he
  accounts := by
    show ∀ id ∈ [5, 1, 2], ∃ a ∈ (sampleTenant .reducingBalance).accounts, a.id = id
    decide
  savings := by
    constructor
    · intro tx htx
      cases htx
    · intro id hid
      cases hid

/-- 30.5 on a loan that owes 20 of interest and 400 of principal. -/
theorem repayment_exact_thirty :
    RepaysExactly .python (sampleRepayment (61 / 2) "r") (runningTenant (runningLoan 400 20 0))
      (runningLoan 400 20 0) := by
  refine (repayment_exact_iff .python _ _ _ (ready_sampleRepayment ?_ ?_ ?_)).mpr ?_
  · constructor <;> decide +kernel
  · norm_num
  · decide +kernel
  · constructor <;> decide +kernel

/-- 25 on a loan that owes 20 and 10 of penalties is not balanced, and 25 on a loan that owes nothing
is two lines of zero. -/
theorem repayment_not_exact :
    ((sampleRepayment 25 "r").Ready (runningTenant (runningLoan 20 0 10)) (runningLoan 20 0 10) ∧
      ¬ RepaysExactly .python (sampleRepayment 25 "r") (runningTenant (runningLoan 20 0 10))
        (runningLoan 20 0 10)) ∧
    (sampleRepayment 25 "r").Ready (runningTenant (runningLoan 0 0 0)) (runningLoan 0 0 0) ∧
      ¬ RepaysExactly .python (sampleRepayment 25 "r") (runningTenant (runningLoan 0 0 0))
        (runningLoan 0 0 0) := by
  refine ⟨⟨ready_sampleRepayment ?_ ?_ ?_, ?_⟩, ready_sampleRepayment ?_ ?_ ?_, ?_⟩
  · constructor <;> decide +kernel
  · norm_num
  · decide +kernel
  · intro h
    exact absurd h.1.1 (by decide +kernel)
  · constructor <;> decide +kernel
  · norm_num
  · decide +kernel
  · intro h
    have hline := h.1.2 (LineIn.loanDebit 5 0 11) (by decide +kernel)
    exact absurd hline.2.2.1 (by decide +kernel)

end SaccoPlatform
