import SaccoPlatform.Credit.Operations

/-!
# The interest of a loan

The accrued interest of a loan is meant to be its balance on the interest receivable: the
accrual task raises both, a repayment lowers both. Disbursement is the exception. For the flat
method it posts the interest of the whole term and leaves the column at zero, so the two agree
only as long as no flat interest is booked.
-/

namespace SaccoPlatform

open Lib Session

/-! ## One movement -/

/-- The other accounts of the loan differ from its interest receivable. -/
structure Loan.InterestApart (l : Loan) : Prop where
  principalReceivable : l.glPrincipalReceivableId ≠ l.glInterestReceivableId
  interestIncome : l.glInterestIncomeId ≠ l.glInterestReceivableId
  loanLoss : ∀ a, l.glLoanLossExpenseId = some a → a ≠ l.glInterestReceivableId

/-- A part payment of interest does not leave the rest halfway between two values of the column: the
amount would be rounded up in the ledger and the rest rounded up in the snapshot. -/
def Movement.InterestRounds (l : Loan) : Movement → Prop
  | repay _ amount =>
    amount < l.accruedInterest.val → ¬ TipsOver 28 4 (l.accruedInterest.val - amount)
  | _ => True

/-- The account on the other side of the movement is not the interest receivable, and the
movement rounds alike on both sides. -/
def Movement.InterestSafe (l : Loan) (m : Movement) : Prop :=
  (∀ a ∈ m.counterAccount, a ≠ l.glInterestReceivableId) ∧ m.InterestRounds l

/-- What the entries of a movement add to the interest receivable, as stored. -/
def Movement.interestPosted (l : Loan) (key : String) (m : Movement) : ℚ :=
  ((m.entries l key).map fun p => p.round.net l.id l.glInterestReceivableId).sum

/-- A repayment credits the interest receivable with the interest applied. -/
theorem repay_interestPosted {l : Loan} {account : Uuid} {amount : ℚ} (key : String)
    (hl : l.Nonneg) (happart : l.InterestApart) (haccount : account ≠ l.glInterestReceivableId)
    (hamount : 0 < amount) :
    (Movement.repay account amount).interestPosted l key
      = -roundAt 4 (min amount l.accruedInterest.val) := by
  have hi : 0 ≤ (allocate amount l.balances).interestApplied :=
    allocate_interest_nonneg hamount.le hl.interest
  have hp : 0 ≤ (allocate amount l.balances).principalApplied :=
    allocate_principal_nonneg hl.outstanding
  have hpen : 0 ≤ (allocate amount l.balances).penaltiesApplied :=
    allocate_penalties_nonneg hl.penalties
  have hround : roundAt 4 0 = 0 := roundAt_of_mem (zero_mem _)
  have hprincipal := happart.principalReceivable
  show _ = -roundAt 4 (allocate amount l.balances).interestApplied
  simp only [Movement.interestPosted, Movement.entries, List.map_cons, List.map_nil,
    List.sum_singleton, EntryIn.round, EntryIn.net, repaymentLines]
  by_cases htotal : 0 < (allocate amount l.balances).totalApplied
  · rw [if_pos htotal]
    by_cases hpos : 0 < (allocate amount l.balances).interestApplied
    · rw [if_pos hpos]
      split_ifs <;> simp [haccount, hprincipal]
    · have hzero : (allocate amount l.balances).interestApplied = 0 := by linarith
      rw [if_neg hpos, hzero, hround]
      split_ifs <;> simp [haccount, hprincipal]
  · have hzero : (allocate amount l.balances).interestApplied = 0 := by
      by_contra hne
      have hpos := lt_of_le_of_ne hi (Ne.symm hne)
      exact htotal (Allocation.totalApplied_pos hi hp hpen (by linarith))
    rw [if_neg htotal, hzero, hround]
    simp [haccount, hprincipal]

/-- What a movement posts on the interest receivable is what it adds to the column. -/
theorem Movement.interestPosted_eq {l : Loan} {m : Movement} (key : String) (hl : l.Nonneg)
    (happart : l.InterestApart) (hm : m.InterestSafe l) (henabled : m.Enabled l) :
    l.accruedInterest.val + m.interestPosted l key = roundAt 4 (m.balances l).accruedInterest := by
  have hkeep : roundAt 4 l.accruedInterest.val = l.accruedInterest.val :=
    roundAt_of_mem l.accruedInterest.onGrid
  cases m with
  | repay account amount =>
    have hamount : 0 < amount := pos_of_roundAt_pos henabled.2
    rw [repay_interestPosted key hl happart (hm.1 account rfl) hamount, ← sub_eq_add_neg]
    exact (repay_interest hamount.le hm.2).symm
  | writeOff loanLossId amount =>
    have hne : loanLossId ≠ l.glInterestReceivableId := hm.1 loanLossId rfl
    have hposted : (Movement.writeOff loanLossId amount).interestPosted l key = 0 := by
      simp [Movement.interestPosted, Movement.entries, EntryIn.round, EntryIn.net, writeOffLines,
        hne, happart.principalReceivable]
    rw [hposted, add_zero]
    exact hkeep.symm
  | recover loanLossId amount =>
    have hne : loanLossId ≠ l.glInterestReceivableId := hm.1 loanLossId rfl
    have hposted : (Movement.recover loanLossId amount).interestPosted l key = 0 := by
      simp [Movement.interestPosted, Movement.entries, EntryIn.round, EntryIn.net, recoveryLines,
        hne, happart.principalReceivable]
    rw [hposted, add_zero]
    exact hkeep.symm
  | accrue interest =>
    obtain ⟨-, hgrid, -⟩ := henabled
    have hposted : (Movement.accrue interest).interestPosted l key = interest := by
      simp [Movement.interestPosted, Movement.entries, EntryIn.round, EntryIn.net, interestLines,
        happart.interestIncome, roundAt_of_mem hgrid]
    rw [hposted]
    exact (roundAt_of_mem (add_mem l.accruedInterest.onGrid hgrid)).symm
  | mark status => exact (add_zero _).trans hkeep.symm
  | assess amount => exact (add_zero _).trans hkeep.symm
  | collect amount => exact (add_zero _).trans hkeep.symm
  | reschedule => exact (add_zero _).trans hkeep.symm

/-- A movement leaves a loan closed only when no interest is left. -/
theorem Movement.closed_interest {l : Loan} {m : Movement} (henabled : m.Enabled l)
    (hl : l.status = .closed → l.accruedInterest.val = 0) (hclosed : m.status l = .closed) :
    (m.balances l).accruedInterest ≤ 0 := by
  cases m with
  | repay account amount =>
    have hstatus : l.statusAfter (allocate amount l.balances) = .closed := hclosed
    unfold Loan.statusAfter at hstatus
    split_ifs at hstatus with hsettled
    · exact hsettled.2.1
    · exact absurd hstatus henabled.1.ne_closed
  | writeOff loanLossId amount =>
    have hstatus : l.statusAfterWriteOff amount = .closed := hclosed
    unfold Loan.statusAfterWriteOff at hstatus
    split_ifs at hstatus
    exact (hl hstatus).le
  | recover loanLossId amount => cases hclosed
  | accrue interest => exact absurd hclosed henabled.1.ne_closed
  | mark status =>
    have hstatus : status = .closed := hclosed
    rcases henabled with ⟨-, h⟩ | ⟨-, h⟩ <;> rw [h] at hstatus <;> cases hstatus
  | assess amount => exact (hl hclosed).le
  | collect amount => exact (hl hclosed).le
  | reschedule => exact (hl hclosed).le

/-! ## The invariant -/

/-- The interest of a loan in its row and in the ledger. -/
structure Tables.InterestOk (t : Tables) (l : Loan) : Prop where
  ledger : l.accruedInterest.val = t.subLedgerNet l.id l.glInterestReceivableId
  closed : l.status = .closed → t.subLedgerNet l.id l.glInterestReceivableId = 0

instance (t : Tables) (l : Loan) : Decidable (t.InterestOk l) :=
  decidable_of_iff (l.accruedInterest.val = t.subLedgerNet l.id l.glInterestReceivableId ∧
      (l.status = .closed → t.subLedgerNet l.id l.glInterestReceivableId = 0))
    ⟨fun h => ⟨h.1, h.2⟩, fun h => ⟨h.ledger, h.closed⟩⟩

/-- What holds of every loan between operations. -/
structure Tables.InterestInvariant (t : Tables) (l : Loan) : Prop where
  interest : t.InterestOk l
  nonneg : l.Nonneg
  apart : l.InterestApart

theorem SameTerms.interestApart {l row : Loan} (h : SameTerms l row) (hl : l.InterestApart) :
    row.InterestApart := by
  refine ⟨?_, ?_, ?_⟩
  · rw [h.glPrincipalReceivableId, h.glInterestReceivableId]
    exact hl.principalReceivable
  · rw [h.glInterestIncomeId, h.glInterestReceivableId]
    exact hl.interestIncome
  · rw [h.glLoanLossExpenseId, h.glInterestReceivableId]
    exact hl.loanLoss

/-- A disbursement that books no interest at once. -/
def DisbursedUnbooked (l : Loan) (account : Uuid) (booked : ℚ) : Prop :=
  l.InterestApart ∧ account ≠ l.glInterestReceivableId ∧ booked ≤ 0

/-- A loan on the books may make the movement. -/
def Movement.InterestAllowed (l : Loan) (m : Movement) : Prop :=
  l.InterestApart → m.InterestSafe l

/-- A balance that saw no posting keeps its value. -/
theorem Tables.InterestOk.of_net {t t' : Tables} {l : Loan} (h : t.InterestOk l)
    (hnet : t'.subLedgerNet l.id l.glInterestReceivableId
      = t.subLedgerNet l.id l.glInterestReceivableId) : t'.InterestOk l := by
  refine ⟨?_, ?_⟩
  · rw [hnet]
    exact h.ledger
  · rw [hnet]
    exact h.closed

/-- The row that a movement leaves. -/
theorem Saved.interestOk {l row : Loan} {m : Movement} {key : String} {t t' : Tables}
    (hinv : t.InterestOk l) (hl : l.Nonneg) (happart : l.InterestApart)
    (hm : m.InterestSafe l) (henabled : m.Enabled l)
    (hsaved : Saved l (m.balances l) (m.status l) row)
    (hentries : Appends (m.entries l key) t t') : t'.InterestOk row := by
  have hcolumn : row.accruedInterest.val = roundAt 4 (m.balances l).accruedInterest :=
    congrArg Balances.accruedInterest hsaved.balances
  have hnet : t'.subLedgerNet row.id row.glInterestReceivableId = row.accruedInterest.val := by
    rw [hsaved.terms.id, hsaved.terms.glInterestReceivableId, hentries.subLedgerNet_round,
      ← hinv.ledger, hcolumn]
    exact Movement.interestPosted_eq key hl happart hm henabled
  refine ⟨hnet.symm, ?_⟩
  intro hclosed
  have hzero : l.status = .closed → l.accruedInterest.val = 0 := fun h => by
    rw [hinv.ledger, hinv.closed h]
  have hle := Movement.closed_interest henabled hzero (hsaved.status.symm.trans hclosed)
  -- What is left is not positive, and no column is negative.
  have hnonpos : row.accruedInterest.val ≤ 0 := by
    by_contra hpos
    rw [hcolumn, not_le] at hpos
    exact absurd (pos_of_roundAt_pos hpos) (not_lt.mpr hle)
  rw [hnet]
  exact le_antisymm hnonpos hsaved.interest_nonneg

/-- The interest of a loan that was just disbursed. -/
theorem Opened.interestOk {l : Loan} {account : Uuid} {booked : ℚ} {t t' : Tables}
    (hbooks : BooksOk t) (hopened : Opened l) (hunbooked : DisbursedUnbooked l account booked)
    (hid : l.id = t.nextId) (hentries : Appends (openingEntries l account booked) t t') :
    t'.InterestOk l := by
  obtain ⟨happart, haccount, hbooked⟩ := hunbooked
  have hcolumn : l.accruedInterest.val = 0 := hopened.columns.2.1
  have hposted : ((openingEntries l account booked).map fun p =>
      p.round.net l.id l.glInterestReceivableId).sum = 0 := by
    rw [openingEntries, if_neg (not_lt.mpr hbooked)]
    simp [EntryIn.round, EntryIn.net, disbursementLines, haccount, happart.principalReceivable]
  have hnet : t'.subLedgerNet l.id l.glInterestReceivableId = 0 := by
    rw [hentries.subLedgerNet_round, hbooks.subLedgerNet_fresh hid.ge, hposted, add_zero]
  exact ⟨by rw [hcolumn, hnet], fun _ => hnet⟩

/-- Every safe move keeps the interest of every loan in step with the ledger. -/
theorem interestInvariant_kept :
    Kept Movement.InterestAllowed DisbursedUnbooked Tables.InterestInvariant where
  frame := by
    intro t t' l hl hnet
    exact { hl with interest := hl.interest.of_net (hnet _) }
  change := by
    intro t t' l row m key allowed enabled saved entries hl
    exact ⟨saved.interestOk hl.interest hl.nonneg hl.apart (allowed hl.apart) enabled entries,
      saved.nonneg, saved.terms.interestApart hl.apart⟩
  opened := by
    intro t t' l account booked hbooks allowed opened id entries
    exact ⟨opened.interestOk hbooks allowed id entries, opened.nonneg, allowed.1⟩

/-! ## Runs -/

/-- The codes of the accounts that stand next to the interest receivable. -/
def LoanProduct.besideInterest (p : LoanProduct) : List String :=
  p.glPrincipalReceivableCode :: p.glInterestIncomeCode :: p.glLoanLossExpenseCode.toList

/-- A part payment of interest does not leave the rest halfway between two values of the column. -/
def CreditOp.InterestRounds (t : Tables) : CreditOp → Prop
  | repay r => ∀ l ∈ t.loan? r.loanId, r.amount < l.accruedInterest.val →
      ¬ TipsOver 28 4 (l.accruedInterest.val - r.amount)
  | _ => True

/-- The operation books no interest at once: what it disburses is on the reducing-balance
method, or the flat schedule carries no interest. -/
def CreditOp.BooksNoInterest (t : Tables) : CreditOp → Prop
  | disburse today d => ∀ a ∈ t.application? d.loanApplicationId, ∀ p ∈ t.product? a.loanProductId,
      p.interestMethod = .flat → ∀ terms ∈ a.approvedTerms,
        ∀ schedule ∈ (computeSchedule terms.1.val p.annualInterestRate.val p.interestMethod
          p.repaymentFrequency terms.2 today).toOption, totalInterest schedule ≤ 0
  | _ => True

/-- The condition on one operation. -/
def CreditOp.InterestSafe (t : Tables) (op : CreditOp) : Prop :=
  op.BooksNoInterest t ∧ op.InterestRounds t ∧ op.ForeignKeys ∧
    op.CounterApart (·.glInterestReceivableId) t ∧
    op.DisbursesApart (·.glInterestReceivableCode) LoanProduct.besideInterest t

instance (t : Tables) (op : CreditOp) : Decidable (op.InterestSafe t) := by
  induction op using CreditOp.casesOn <;>
    unfold CreditOp.InterestSafe CreditOp.BooksNoInterest CreditOp.InterestRounds <;> infer_instance

theorem CreditOp.InterestRounds.movement {t : Tables} {op : CreditOp} (h : op.InterestRounds t)
    {l : Loan} {m : Movement} (hm : op.Allows t l m) : m.InterestRounds l := by
  by_cases hrepay : ∃ account amount, m = .repay account amount
  · obtain ⟨account, amount, rfl⟩ := hrepay
    obtain ⟨r, rfl, hloan, rfl⟩ := hm.repay
    exact h l hloan
  · cases m with
    | repay account amount => exact absurd ⟨account, amount, rfl⟩ hrepay
    | _ => trivial

/-- What such an operation opens has no interest booked. -/
theorem CreditOp.InterestSafe.opened {t : Tables} {op : CreditOp} (h : op.InterestSafe t)
    {l : Loan} {account : Uuid} {booked : ℚ} (ho : op.Opens t l account booked) :
    DisbursedUnbooked l account booked := by
  obtain ⟨hbooks, -, -, -, hapart⟩ := h
  obtain ⟨today, d, rfl, hfrom⟩ := ho.disburse
  obtain ⟨a, p, gl, terms, schedule, ha, hp, hterms, hgl, haccount, hschedule, hbooked, id,
    reference, maturity, rfl⟩ := hfrom.source
  obtain ⟨-, hres⟩ := resolveAccounts_ok hgl
  obtain ⟨interest, hinterest, hiid⟩ := hres.interestReceivable
  obtain ⟨hdisb, hothers⟩ := hapart a ha p hp interest hinterest
  unfold LoanProduct.besideInterest at hothers
  refine ⟨⟨?_, ?_, ?_⟩, ?_, ?_⟩
  · obtain ⟨x, hx, hid⟩ := hres.principalReceivable
    show gl.principalReceivable ≠ gl.interestReceivable
    rw [hid, hiid]
    exact hothers _ (by simp) x hx
  · obtain ⟨x, hx, hid⟩ := hres.interestIncome
    show gl.interestIncome ≠ gl.interestReceivable
    rw [hid, hiid]
    exact hothers _ (by simp) x hx
  · intro i hi
    obtain ⟨code, x, hcode, hx, rfl⟩ := hres.loanLossExpense i hi
    show x.id ≠ gl.interestReceivable
    rw [hiid]
    exact hothers code (by simp [hcode]) x hx
  · show account ≠ gl.interestReceivable
    rw [hiid]
    exact hdisb account haccount
  · rw [hbooked]
    split_ifs with hflat
    · exact hbooks a ha p hp hflat terms hterms schedule (by rw [hschedule]; rfl)
    · exact le_rfl

theorem CreditOp.InterestSafe.within {t : Tables} {op : CreditOp} (h : op.InterestSafe t) :
    op.Within Movement.InterestAllowed DisbursedUnbooked t :=
  ⟨h.2.2.1, fun _ _ hm hl => ⟨h.2.2.2.1.movement hm hl.loanLoss, h.2.1.movement hm⟩,
    fun _ _ _ ho => h.opened ho⟩

/-- In every run that books no interest at disbursement, the accrued interest of every loan is
its balance on the interest receivable, and that balance is zero once the loan is closed. -/
theorem interest_reconciles (ar : LienArithmetic) {t : Tables} (hgenesis : t.Genesis)
    {ops : List CreditOp} (hops : Along (CreditOp.step ar) CreditOp.InterestSafe t ops) :
    ∀ l ∈ (run (CreditOp.step ar) t ops).loans, (run (CreditOp.step ar) t ops).InterestOk l := by
  have hinv : Loanwise Tables.InterestInvariant (run (CreditOp.step ar) t ops) :=
    interestInvariant_kept.run hgenesis (hops.mono fun _ _ h => h.within)
  exact fun l hl => (hinv.loans l hl).interest

/-- The sample loan accrues, is paid in two parts and closes. -/
def payOffRun : List CreditOp :=
  [sampleDisbursement, .accrueInterest ⟨739676, by decide⟩,
    .repay ⟨11, 15 / 2, 5, 30, none, "r1", none⟩, .repay ⟨11, 2005 / 2, 5, 30, none, "r2", none⟩]

theorem interest_reconciles_payOffRun :
    Along (CreditOp.step .python) CreditOp.InterestSafe (sampleTenant .reducingBalance) payOffRun ∧
      (run (CreditOp.step .python) (sampleTenant .reducingBalance) payOffRun).loans.map (·.status)
        = [.closed] ∧
      ∀ l ∈ (run (CreditOp.step .python) (sampleTenant .reducingBalance) payOffRun).loans,
        (run (CreditOp.step .python) (sampleTenant .reducingBalance) payOffRun).InterestOk l :=
  have hops : Along (CreditOp.step .python) CreditOp.InterestSafe
      (sampleTenant .reducingBalance) payOffRun := by decide +kernel
  ⟨hops, by decide +kernel, interest_reconciles .python (genesis_sampleTenant _) hops⟩

/-- The sample loan on the flat method, repaid with its principal. -/
def flatRun : List CreditOp :=
  [sampleDisbursement, .repay ⟨11, 1000, 5, 30, none, "r1", none⟩]

/-- A flat loan of 1000 with 20 of interest, repaid with 1000: it is closed, nothing was ever
accrued, and 20 stand on the interest receivable. -/
theorem interest_drifts_flatRun :
    (sampleTenant .flat).Genesis ∧
      (run (CreditOp.step .python) (sampleTenant .flat) flatRun).loans.map
        (fun l => (l.status, l.accruedInterest.val)) = [(.closed, 0)] ∧
      (run (CreditOp.step .python) (sampleTenant .flat) flatRun).subLedgerNet 11 2 = 20 ∧
      ¬ ∀ l ∈ (run (CreditOp.step .python) (sampleTenant .flat) flatRun).loans,
        (run (CreditOp.step .python) (sampleTenant .flat) flatRun).InterestOk l :=
  ⟨genesis_sampleTenant _, by decide +kernel, by decide +kernel, by decide +kernel⟩

end SaccoPlatform
