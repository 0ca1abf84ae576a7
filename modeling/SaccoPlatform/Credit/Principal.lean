import SaccoPlatform.Credit.Operations

/-!
# The principal of a loan

A loan's principal is outstanding, paid or written off, and the ledger agrees: the net of
the lines tagged with the loan on its principal-receivable account is what is outstanding.
The accounts on the other side of the postings have to differ from that account, and amounts
have four decimals; a repayment of a fraction of a column unit would be rounded differently
in the snapshot and in the ledger.
-/

namespace SaccoPlatform

open Lib Session

/-! ## One movement -/

/-- The other accounts of the loan differ from its principal receivable. -/
structure Loan.PrincipalApart (l : Loan) : Prop where
  interestReceivable : l.glInterestReceivableId ≠ l.glPrincipalReceivableId
  interestIncome : l.glInterestIncomeId ≠ l.glPrincipalReceivableId
  loanLoss : ∀ a, l.glLoanLossExpenseId = some a → a ≠ l.glPrincipalReceivableId

/-- The account on the other side of the movement is not the principal receivable. -/
def Movement.PrincipalApart (l : Loan) (m : Movement) : Prop :=
  ∀ a ∈ m.counterAccount, a ≠ l.glPrincipalReceivableId

/-- The amounts that move principal have four decimals. -/
def Movement.PrincipalOnGrid : Movement → Prop
  | repay _ amount => amount ∈ grid 4
  | writeOff _ amount => amount ∈ grid 4
  | recover _ amount => amount ∈ grid 4
  | _ => True

/-- A repayment credits the principal receivable with the principal applied. -/
theorem repaymentLines_principal {l : Loan} {account : Uuid} {amount : ℚ} (key : String)
    (hl : l.Nonneg) (happart : l.PrincipalApart) (haccount : account ≠ l.glPrincipalReceivableId)
    (hamount : 0 < amount) :
    EntryIn.net l.id l.glPrincipalReceivableId
        ⟨key, repaymentLines l account (allocate amount l.balances)⟩
      = -(allocate amount l.balances).principalApplied := by
  have hi : 0 ≤ (allocate amount l.balances).interestApplied :=
    allocate_interest_nonneg hamount.le hl.interest
  have hp : 0 ≤ (allocate amount l.balances).principalApplied :=
    allocate_principal_nonneg hl.outstanding
  have hpen : 0 ≤ (allocate amount l.balances).penaltiesApplied :=
    allocate_penalties_nonneg hl.penalties
  unfold EntryIn.net repaymentLines
  by_cases htotal : 0 < (allocate amount l.balances).totalApplied
  · rw [if_pos htotal]
    by_cases hpos : 0 < (allocate amount l.balances).principalApplied
    · rw [if_pos hpos]
      split_ifs <;> simp [haccount, happart.interestReceivable]
    · have hzero : (allocate amount l.balances).principalApplied = 0 := by linarith
      rw [if_neg hpos, hzero]
      split_ifs <;> simp [haccount, happart.interestReceivable]
  · -- Nothing was applied: the two stand-in lines carry no amount.
    have hzero : (allocate amount l.balances).principalApplied = 0 := by
      by_contra hne
      have hpos := lt_of_le_of_ne hp (Ne.symm hne)
      exact htotal (Allocation.totalApplied_pos hi hp hpen (by linarith))
    rw [if_neg htotal, hzero]
    simp

/-- A write-off and a recovery are within the column that they are taken from. -/
def Movement.Covered (l : Loan) : Movement → Prop
  | writeOff _ amount => 0 ≤ amount ∧ amount ≤ l.outstandingPrincipal.val
  | recover _ amount => 0 ≤ amount ∧ amount ≤ l.totalWrittenOff.val
  | _ => True

theorem Saved.covered {l row : Loan} {m : Movement} {key : String} {t t' : Tables}
    (hgrid : m.PrincipalOnGrid) (henabled : m.Enabled l)
    (hsaved : Saved l (m.balances l) (m.status l) row)
    (hentries : Appends (m.entries l key) t t') : m.Covered l := by
  cases m with
  | writeOff loanLossId amount =>
    have hcolumn : row.outstandingPrincipal.val =
        roundAt 4 (decimal (l.outstandingPrincipal.val - amount)) :=
      congrArg Balances.outstandingPrincipal hsaved.balances
    exact ⟨(pos_of_roundAt_pos (posted_pos hentries)).le,
      le_of_column_nonneg hgrid (hcolumn ▸ hsaved.outstanding_nonneg)⟩
  | recover loanLossId amount => exact ⟨henabled.2.1.le, henabled.2.2⟩
  | _ => trivial

theorem writeOff_exact {l : Loan} {loanLossId : Uuid} {amount : ℚ} (hmem : amount ∈ grid 4)
    (hcovered : (Movement.writeOff loanLossId amount).Covered l) :
    (l.balances.writeOff amount).outstandingPrincipal = l.outstandingPrincipal.val - amount ∧
      (l.balances.writeOff amount).totalWrittenOff = l.totalWrittenOff.val + amount :=
  decimal_move l.outstandingPrincipal l.totalWrittenOff hmem hcovered.1 hcovered.2

theorem recover_exact {l : Loan} {loanLossId : Uuid} {amount : ℚ} (hmem : amount ∈ grid 4)
    (hcovered : (Movement.recover loanLossId amount).Covered l) :
    (l.balances.recover amount).totalWrittenOff = l.totalWrittenOff.val - amount ∧
      (l.balances.recover amount).outstandingPrincipal = l.outstandingPrincipal.val + amount :=
  decimal_move l.totalWrittenOff l.outstandingPrincipal hmem hcovered.1 hcovered.2

/-- What a movement posts on the principal receivable is what it adds to the outstanding
principal. -/
theorem Movement.net_principal {l : Loan} {m : Movement} (key : String) (hl : l.Nonneg)
    (happart : l.PrincipalApart) (hm : m.PrincipalApart l) (hgrid : m.PrincipalOnGrid)
    (henabled : m.Enabled l) (hcovered : m.Covered l) :
    ((m.entries l key).map (EntryIn.net l.id l.glPrincipalReceivableId)).sum
      = (m.balances l).outstandingPrincipal - l.outstandingPrincipal.val := by
  cases m with
  | repay account amount =>
    have hamount : 0 < amount := pos_of_roundAt_pos henabled.2
    have hnet := repaymentLines_principal key hl happart (hm account rfl) hamount
    simp only [Movement.entries, List.map_cons, List.map_nil, List.sum_singleton, hnet]
    have hrest : (Movement.balances l (.repay account amount)).outstandingPrincipal = _ :=
      (allocate_principal_exact hgrid hl.outstanding).1
    rw [hrest]
    ring
  | writeOff loanLossId amount =>
    have hne : loanLossId ≠ l.glPrincipalReceivableId := hm loanLossId rfl
    have hrest : (Movement.balances l (.writeOff loanLossId amount)).outstandingPrincipal = _ :=
      (writeOff_exact hgrid hcovered).1
    rw [hrest]
    simp [Movement.entries, EntryIn.net, writeOffLines, hne]
  | recover loanLossId amount =>
    have hne : loanLossId ≠ l.glPrincipalReceivableId := hm loanLossId rfl
    have hrest : (Movement.balances l (.recover loanLossId amount)).outstandingPrincipal = _ :=
      (recover_exact hgrid hcovered).2
    rw [hrest]
    simp [Movement.entries, EntryIn.net, recoveryLines, hne]
  | accrue interest =>
    simp [Movement.entries, EntryIn.net, interestLines, happart.interestReceivable,
      happart.interestIncome, Movement.balances, Balances.accrue, Loan.balances]
  | mark status => simp [Movement.entries, Movement.balances, Loan.balances]
  | assess amount => simp [Movement.entries, Movement.balances, Balances.assess, Loan.balances]
  | collect amount => simp [Movement.entries, Movement.balances, Balances.collect, Loan.balances]
  | reschedule => simp [Movement.entries, Movement.balances, Loan.balances]

/-- The amounts posted on the principal receivable have four decimals. -/
theorem Movement.entries_principalOnGrid {l : Loan} {m : Movement} (key : String)
    (happart : l.PrincipalApart) (hm : m.PrincipalApart l) (hgrid : m.PrincipalOnGrid) :
    ∀ p ∈ m.entries l key, p.OnGrid l.id l.glPrincipalReceivableId := by
  have hzero : (0 : ℚ) ∈ grid 4 := zero_mem _
  cases m <;> simp only [Movement.entries, List.forall_mem_singleton]
  case repay account amount =>
    have halloc := allocate_mem_grid hgrid l.balances_onGrid
    have hne : account ≠ l.glPrincipalReceivableId := hm account rfl
    unfold EntryIn.OnGrid repaymentLines
    split_ifs <;> simp [hne, happart.interestReceivable, halloc.2.1, hzero]
  case writeOff loanLossId amount =>
    have hne : loanLossId ≠ l.glPrincipalReceivableId := hm loanLossId rfl
    have hamount : amount ∈ grid 4 := hgrid
    simp [EntryIn.OnGrid, writeOffLines, hne, hamount, hzero]
  case recover loanLossId amount =>
    have hne : loanLossId ≠ l.glPrincipalReceivableId := hm loanLossId rfl
    have hamount : amount ∈ grid 4 := hgrid
    simp [EntryIn.OnGrid, recoveryLines, hne, hamount, hzero]
  case accrue interest =>
    simp [EntryIn.OnGrid, interestLines, happart.interestReceivable, happart.interestIncome]
  all_goals
    intro p hp
    cases hp

/-- The parts of the principal have four decimals after the movement. -/
theorem Movement.balances_principalOnGrid {l : Loan} {m : Movement} (hgrid : m.PrincipalOnGrid) :
    (m.balances l).outstandingPrincipal ∈ grid 4 ∧ (m.balances l).totalPaidPrincipal ∈ grid 4 ∧
      (m.balances l).totalWrittenOff ∈ grid 4 := by
  have hb := l.balances_onGrid
  cases m
  case repay account amount =>
    obtain ⟨-, hp, -⟩ := allocate_mem_grid hgrid hb
    exact ⟨decimal_mem_grid (sub_mem hb.outstandingPrincipal hp),
      decimal_mem_grid (add_mem hb.totalPaidPrincipal hp), hb.totalWrittenOff⟩
  case writeOff loanLossId amount =>
    exact ⟨decimal_mem_grid (sub_mem hb.outstandingPrincipal hgrid), hb.totalPaidPrincipal,
      decimal_mem_grid (add_mem hb.totalWrittenOff hgrid)⟩
  case recover loanLossId amount =>
    exact ⟨decimal_mem_grid (add_mem hb.outstandingPrincipal hgrid), hb.totalPaidPrincipal,
      decimal_mem_grid (sub_mem hb.totalWrittenOff hgrid)⟩
  all_goals exact ⟨hb.outstandingPrincipal, hb.totalPaidPrincipal, hb.totalWrittenOff⟩

/-- A movement shifts principal between the three parts and loses none. -/
theorem Movement.balances_split {l : Loan} {m : Movement} (hl : l.Nonneg) (hgrid : m.PrincipalOnGrid)
    (hcovered : m.Covered l) :
    (m.balances l).outstandingPrincipal + (m.balances l).totalPaidPrincipal
        + (m.balances l).totalWrittenOff
      = l.outstandingPrincipal.val + l.totalPaidPrincipal.val + l.totalWrittenOff.val := by
  cases m
  case repay account amount =>
    obtain ⟨hrest, hpaid⟩ := allocate_principal_exact hgrid hl.outstanding
    show (l.balances.repay _).outstandingPrincipal + (l.balances.repay _).totalPaidPrincipal +
      l.totalWrittenOff.val = _
    rw [hrest, hpaid]
    ring
  case writeOff loanLossId amount =>
    obtain ⟨hrest, hoff⟩ := writeOff_exact hgrid hcovered
    show (l.balances.writeOff amount).outstandingPrincipal + l.totalPaidPrincipal.val +
      (l.balances.writeOff amount).totalWrittenOff = _
    rw [hrest, hoff]
    ring
  case recover loanLossId amount =>
    obtain ⟨hoff, hrest⟩ := recover_exact hgrid hcovered
    show (l.balances.recover amount).outstandingPrincipal + l.totalPaidPrincipal.val +
      (l.balances.recover amount).totalWrittenOff = _
    rw [hrest, hoff]
    ring
  all_goals rfl

theorem Movement.paid_nonneg {l : Loan} {m : Movement} (hl : l.Nonneg)
    (hpaid : 0 ≤ l.totalPaidPrincipal.val) : 0 ≤ (m.balances l).totalPaidPrincipal := by
  cases m
  case repay account amount =>
    exact decimal_nonneg (add_nonneg hpaid (allocate_principal_nonneg hl.outstanding))
  all_goals exact hpaid

theorem Movement.writtenOff_nonneg {l : Loan} {m : Movement} {key : String} {t t' : Tables}
    (henabled : m.Enabled l) (hentries : Appends (m.entries l key) t t')
    (hwo : 0 ≤ l.totalWrittenOff.val) : 0 ≤ (m.balances l).totalWrittenOff := by
  cases m
  case writeOff loanLossId amount =>
    exact decimal_nonneg (add_nonneg hwo (pos_of_roundAt_pos (posted_pos hentries)).le)
  case recover loanLossId amount => exact decimal_nonneg (sub_nonneg.mpr henabled.2.2)
  all_goals exact hwo

/-! ## The invariant -/

/-- The principal of a loan in its row and in the ledger. -/
structure Tables.PrincipalOk (t : Tables) (l : Loan) : Prop where
  split : l.principalAmount.val
    = l.outstandingPrincipal.val + l.totalPaidPrincipal.val + l.totalWrittenOff.val
  outstanding_nonneg : 0 ≤ l.outstandingPrincipal.val
  paid_nonneg : 0 ≤ l.totalPaidPrincipal.val
  writtenOff_nonneg : 0 ≤ l.totalWrittenOff.val
  ledger : t.subLedgerNet l.id l.glPrincipalReceivableId = l.outstandingPrincipal.val

/-- What holds of every loan between operations. -/
structure Tables.PrincipalInvariant (t : Tables) (l : Loan) : Prop where
  principal : t.PrincipalOk l
  nonneg : l.Nonneg
  apart : l.PrincipalApart

theorem SameTerms.principalApart {l row : Loan} (h : SameTerms l row) (hl : l.PrincipalApart) :
    row.PrincipalApart := by
  refine ⟨?_, ?_, ?_⟩
  · rw [h.glInterestReceivableId, h.glPrincipalReceivableId]
    exact hl.interestReceivable
  · rw [h.glInterestIncomeId, h.glPrincipalReceivableId]
    exact hl.interestIncome
  · rw [h.glLoanLossExpenseId, h.glPrincipalReceivableId]
    exact hl.loanLoss

/-- The movements and disbursements that the invariant is stated for. -/
def Movement.PrincipalSafe (l : Loan) (m : Movement) : Prop :=
  l.PrincipalApart → m.PrincipalApart l ∧ m.PrincipalOnGrid

def DisbursedApart (l : Loan) (account : Uuid) (_ : ℚ) : Prop :=
  l.PrincipalApart ∧ account ≠ l.glPrincipalReceivableId

/-- The row that a movement leaves. -/
theorem Saved.principalOk {l row : Loan} {m : Movement} {key : String} {t t' : Tables}
    (hinv : t.PrincipalOk l) (hl : l.Nonneg) (happart : l.PrincipalApart)
    (hm : m.PrincipalApart l) (hgrid : m.PrincipalOnGrid) (henabled : m.Enabled l)
    (hsaved : Saved l (m.balances l) (m.status l) row)
    (hentries : Appends (m.entries l key) t t') : t'.PrincipalOk row := by
  obtain ⟨ho, hp, hw⟩ := Movement.balances_principalOnGrid (l := l) hgrid
  have hcovered := hsaved.covered hgrid henabled hentries
  have houtstanding : row.outstandingPrincipal.val = (m.balances l).outstandingPrincipal := by
    have h := congrArg Balances.outstandingPrincipal hsaved.balances
    exact h.trans (roundAt_of_mem ho)
  have hpaid : row.totalPaidPrincipal.val = (m.balances l).totalPaidPrincipal := by
    have h := congrArg Balances.totalPaidPrincipal hsaved.balances
    exact h.trans (roundAt_of_mem hp)
  have hwritten : row.totalWrittenOff.val = (m.balances l).totalWrittenOff := by
    have h := congrArg Balances.totalWrittenOff hsaved.balances
    exact h.trans (roundAt_of_mem hw)
  refine ⟨?_, hsaved.outstanding_nonneg, ?_, ?_, ?_⟩
  · rw [hsaved.terms.principalAmount, houtstanding, hpaid, hwritten,
      Movement.balances_split hl hgrid hcovered]
    exact hinv.split
  · rw [hpaid]
    exact Movement.paid_nonneg hl hinv.paid_nonneg
  · rw [hwritten]
    exact Movement.writtenOff_nonneg henabled hentries hinv.writtenOff_nonneg
  · rw [hsaved.terms.id, hsaved.terms.glPrincipalReceivableId, houtstanding,
      hentries.subLedgerNet_eq (Movement.entries_principalOnGrid key happart hm hgrid),
      hinv.ledger, Movement.net_principal key hl happart hm hgrid henabled hcovered]
    ring

/-- A balance that saw no posting keeps its value. -/
theorem Tables.PrincipalOk.of_net {t t' : Tables} {l : Loan} (h : t.PrincipalOk l)
    (hnet : t'.subLedgerNet l.id l.glPrincipalReceivableId
      = t.subLedgerNet l.id l.glPrincipalReceivableId) : t'.PrincipalOk l :=
  { h with ledger := hnet.trans h.ledger }

/-- The principal of a loan that was just disbursed. -/
theorem Opened.principalOk {l : Loan} {account : Uuid} {booked : ℚ} {t t' : Tables}
    (hbooks : BooksOk t) (hopened : Opened l) (hapart : DisbursedApart l account booked)
    (hid : l.id = t.nextId) (hentries : Appends (openingEntries l account booked) t t') :
    t'.PrincipalOk l := by
  obtain ⟨houtstanding, -, -, hpaid, hwritten⟩ := hopened.columns
  obtain ⟨happart, haccount⟩ := hapart
  have hgrid : ∀ p ∈ openingEntries l account booked, p.OnGrid l.id l.glPrincipalReceivableId := by
    have hzero : (0 : ℚ) ∈ grid 4 := zero_mem _
    have hprincipal : l.principalAmount.val ∈ grid 4 := l.principalAmount.onGrid
    unfold openingEntries EntryIn.OnGrid
    split_ifs <;> simp [disbursementLines, interestLines, haccount, happart.interestReceivable,
      happart.interestIncome, hzero, hprincipal]
  have hnet : ((openingEntries l account booked).map
      (EntryIn.net l.id l.glPrincipalReceivableId)).sum = l.principalAmount.val := by
    unfold openingEntries EntryIn.net
    split_ifs <;> simp [disbursementLines, interestLines, haccount, happart.interestReceivable,
      happart.interestIncome]
  refine ⟨?_, hopened.nonneg.outstanding, hpaid.ge, hwritten.ge, ?_⟩
  · rw [houtstanding, hpaid, hwritten]
    ring
  · rw [hentries.subLedgerNet_eq hgrid, hbooks.subLedgerNet_fresh hid.ge, hnet, houtstanding,
      zero_add]

/-- Every safe move keeps the principal of every loan in step with the ledger. -/
theorem principalInvariant_kept :
    Kept Movement.PrincipalSafe DisbursedApart Tables.PrincipalInvariant where
  frame := by
    intro t t' l hl hnet
    exact { hl with principal := hl.principal.of_net (hnet _) }
  change := by
    intro t t' l row m key allowed enabled saved entries hl
    obtain ⟨hapart, hgrid⟩ := allowed hl.apart
    exact ⟨saved.principalOk hl.principal hl.nonneg hl.apart hapart hgrid enabled entries,
      saved.nonneg, saved.terms.principalApart hl.apart⟩
  opened := by
    intro t t' l account booked hbooks allowed opened id entries
    exact ⟨opened.principalOk hbooks allowed id entries, opened.nonneg, allowed.1⟩

/-! ## Runs -/

/-- The codes of the accounts that stand next to the principal receivable. -/
def LoanProduct.besidePrincipal (p : LoanProduct) : List String :=
  p.glInterestReceivableCode :: p.glInterestIncomeCode :: p.glLoanLossExpenseCode.toList

/-- The assumptions on one operation: amounts have four decimals, the payment, disbursement,
loan-loss and interest accounts differ from the principal receivable, and entries of other
modules stay away from the keys of this one. -/
def CreditOp.PrincipalSafe (t : Tables) (op : CreditOp) : Prop :=
  op.ForeignKeys ∧ op.FourDecimals ∧ op.CounterApart (·.glPrincipalReceivableId) t ∧
    op.DisbursesApart (·.glPrincipalReceivableCode) LoanProduct.besidePrincipal t

instance (t : Tables) (op : CreditOp) : Decidable (op.PrincipalSafe t) :=
  inferInstanceAs (Decidable (_ ∧ _ ∧ _ ∧ _))

theorem CreditOp.FourDecimals.movement {t : Tables} {op : CreditOp} (h : op.FourDecimals)
    {l : Loan} {m : Movement} (hm : op.Allows t l m) : m.PrincipalOnGrid := by
  cases op with
  | repay r =>
    obtain ⟨-, rfl⟩ := hm
    exact h
  | writeOff w =>
    obtain ⟨-, a, -, rfl⟩ := hm
    exact h
  | executeWriteOff payload =>
    obtain ⟨-, a, amount, -, hamount, rfl⟩ := hm
    exact h amount hamount
  | recover w =>
    obtain ⟨-, a, -, rfl⟩ := hm
    exact h
  | accrueInterest today =>
    obtain ⟨interest, rfl⟩ := hm
    trivial
  | markArrears today =>
    obtain ⟨status, rfl⟩ := hm
    trivial
  | restructure today payload =>
    have hres : m = .reschedule := hm
    rw [hres]
    trivial
  | consumeEvents =>
    obtain ⟨_, _, _, -, -, hm⟩ := hm
    obtain ⟨_, rfl | rfl⟩ := EventBody.movement?_eq_some hm <;> trivial
  | disburse today d => exact hm.elim
  | feeEvent body => exact hm.elim
  | foreignEntry e => exact hm.elim
  | reference data => exact hm.elim

theorem CreditOp.PrincipalSafe.opened {t : Tables} {op : CreditOp} (h : op.PrincipalSafe t)
    {l : Loan} {account : Uuid} {booked : ℚ} (ho : op.Opens t l account booked) :
    DisbursedApart l account booked := by
  obtain ⟨-, -, -, hapart⟩ := h
  obtain ⟨today, d, rfl, hfrom⟩ := ho.disburse
  obtain ⟨a, p, gl, terms, schedule, ha, hp, -, hgl, haccount, -, -, id, reference, maturity,
    rfl⟩ := hfrom.source
  obtain ⟨-, hres⟩ := resolveAccounts_ok hgl
  obtain ⟨principal, hprincipal, hpid⟩ := hres.principalReceivable
  obtain ⟨hdisb, hothers⟩ := hapart a ha p hp principal hprincipal
  unfold LoanProduct.besidePrincipal at hothers
  refine ⟨⟨?_, ?_, ?_⟩, ?_⟩
  · obtain ⟨x, hx, hid⟩ := hres.interestReceivable
    show gl.interestReceivable ≠ gl.principalReceivable
    rw [hid, hpid]
    exact hothers _ (by simp) x hx
  · obtain ⟨x, hx, hid⟩ := hres.interestIncome
    show gl.interestIncome ≠ gl.principalReceivable
    rw [hid, hpid]
    exact hothers _ (by simp) x hx
  · intro i hi
    obtain ⟨code, x, hcode, hx, rfl⟩ := hres.loanLossExpense i hi
    show x.id ≠ gl.principalReceivable
    rw [hpid]
    exact hothers code (by simp [hcode]) x hx
  · show account ≠ gl.principalReceivable
    rw [hpid]
    exact hdisb account haccount

theorem CreditOp.PrincipalSafe.within {t : Tables} {op : CreditOp} (h : op.PrincipalSafe t) :
    op.Within Movement.PrincipalSafe DisbursedApart t :=
  ⟨h.1, fun _ _ hm hl => ⟨h.2.2.1.movement hm hl.loanLoss, h.2.1.movement hm⟩,
    fun _ _ _ ho => h.opened ho⟩

/-- A loan whose ledger balance is its snapshot has not drifted. -/
theorem Tables.PrincipalOk.not_drifted {t : Tables} {l : Loan} (h : t.PrincipalOk l) :
    ¬ t.Drifted l := by
  unfold Tables.Drifted
  rw [h.ledger, sub_self, abs_zero]
  norm_num

/-- In every run, every loan's principal is outstanding, paid or written off, the ledger
agrees with the outstanding part, and reconciliation finds no drift. -/
theorem principal_reconciles (ar : LienArithmetic) {t : Tables} (hgenesis : t.Genesis)
    {ops : List CreditOp} (hops : Along (CreditOp.step ar) CreditOp.PrincipalSafe t ops) :
    (∀ l ∈ (run (CreditOp.step ar) t ops).loans, (run (CreditOp.step ar) t ops).PrincipalOk l) ∧
      (run (CreditOp.step ar) t ops).reconcileForTenant = 0 := by
  have hinv : Loanwise Tables.PrincipalInvariant (run (CreditOp.step ar) t ops) :=
    principalInvariant_kept.run hgenesis (hops.mono fun _ _ h => h.within)
  refine ⟨fun l hl => (hinv.loans l hl).principal, ?_⟩
  unfold Tables.reconcileForTenant
  rw [List.length_eq_zero_iff, List.filter_eq_nil_iff]
  intro l hl hdrift
  simp only [decide_eq_true_eq] at hdrift
  exact (hinv.loans l hl).principal.not_drifted hdrift.2

/-- Every kind of operation on the sample loan, with a partial and a full write-off. -/
def sampleRun : List CreditOp :=
  [sampleDisbursement, .accrueInterest (.ofOrdinal 739676), .markArrears ⟨739707, by decide⟩,
    .repay ⟨11, 300, 5, 30, none, "r1", none⟩, .writeOff ⟨11, 50, "bad", 30, "w1", "5100"⟩,
    .restructure ⟨739707, by decide⟩ ⟨some 11, some "term_extension", some 1, some "hardship", some "x",
      none⟩,
    .feeEvent (.feeAssessmentCreated ⟨some "loan", some 11, some 5⟩), .consumeEvents,
    .executeWriteOff ⟨some 11, some 660, some "bad", some "w2", none⟩,
    .recover ⟨11, 100, "found", 30, "c1"⟩]

theorem principal_reconciles_sampleRun :
    Along (CreditOp.step .python) CreditOp.PrincipalSafe (sampleTenant .reducingBalance) sampleRun ∧
      (run (CreditOp.step .python) (sampleTenant .reducingBalance) sampleRun).loans.map
        (fun l => (l.outstandingPrincipal.val, l.totalPaidPrincipal.val, l.totalWrittenOff.val))
          = [(100, 290, 610)] ∧
      (run (CreditOp.step .python) (sampleTenant .reducingBalance) sampleRun).reconcileForTenant
        = 0 :=
  have hops : Along (CreditOp.step .python) CreditOp.PrincipalSafe
      (sampleTenant .reducingBalance) sampleRun := by decide +kernel
  ⟨hops, by decide +kernel, (principal_reconciles .python (genesis_sampleTenant _) hops).2⟩

end SaccoPlatform
