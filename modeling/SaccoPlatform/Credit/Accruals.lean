import SaccoPlatform.Credit.Statement
import SaccoPlatform.Lib.Charges

/-!
# Interest by due date

The accrual task (`_accrue_for_tenant`) posts the interest of an instalment under a key of its loan and
due date. So the interest of a loan is a list of charges, each under its date, and a run of the task
makes those that are due and not made yet. `Accruing` is what this keeps of a loan: its charges stay as
they are, and what was posted and accrued is what they have charged.
-/

namespace SaccoPlatform

open Lib Session

def Tables.loanInstallments (t : Tables) (loanId : Uuid) : List LoanInstallment :=
  t.installments.filter fun inst => inst.loanId = loanId

/-- The interest of the instalments of the loan, by due date. -/
def Tables.interestCharges (t : Tables) (loanId : Uuid) : List (Date × ℚ) :=
  ((t.loanInstallments loanId).filter fun inst => 0 < inst.interestDue.val).map
    fun inst => (inst.dueDate, inst.interestDue.val)

/-- The interest of this date was accrued. -/
def Tables.Accrued (t : Tables) (loanId : Uuid) (due : Date) : Prop :=
  ∃ e ∈ t.entries, e.idempotencyKey = accrualKey loanId due

instance (t : Tables) (loanId : Uuid) : DecidablePred (t.Accrued loanId) :=
  fun _ => inferInstanceAs (Decidable (∃ e ∈ t.entries, _))

/-- What the lines of the loan debit. -/
def Tables.loanDebits (t : Tables) (loanId : Uuid) : ℚ :=
  ((t.loanLines loanId).map fun r => r.2.debitAmount.val).sum

theorem mem_loanInstallments {t : Tables} {loanId : Uuid} {inst : LoanInstallment} :
    inst ∈ t.loanInstallments loanId ↔ inst ∈ t.installments ∧ inst.loanId = loanId := by
  simp [Tables.loanInstallments]

theorem mem_interestCharges {t : Tables} {loanId : Uuid} {c : Date × ℚ} :
    c ∈ t.interestCharges loanId ↔ ∃ inst ∈ t.loanInstallments loanId, 0 < inst.interestDue.val ∧
      (inst.dueDate, inst.interestDue.val) = c := by
  simp [Tables.interestCharges, and_assoc]

/-! ## When an accrual is posted -/

/-- A loan that the task can accrue interest on. -/
structure Loan.Accruable (l : Loan) (t : Tables) : Prop where
  method : l.interestMethod = .reducingBalance
  active : l.Active
  nonneg : l.Nonneg
  receivable : ∃ a ∈ t.accounts, a.id = l.glInterestReceivableId
  income : ∃ a ∈ t.accounts, a.id = l.glInterestIncomeId

/-- A column can take what it has. -/
theorem fits_column (m : Money) : |roundAt 4 m.val| < 10 ^ 15 := by
  rw [roundAt_of_mem m.onGrid]
  exact m.fits

/-- Positive interest of an accruable loan is posted while the column of the accrued interest has room. -/
theorem returns_postAccrual {loan : Loan} {inst : LoanInstallment} {t : Tables} (h : loan.Accruable t)
    (hkey : t.entry? (accrualKey loan.id inst.dueDate) = none) (hpos : 0 < inst.interestDue.val)
    (hroom : loan.accruedInterest.val + inst.interestDue.val < 10 ^ 15) :
    Returns (postAccrual loan inst) t := by
  have hgrid : inst.interestDue.val ∈ grid 4 := inst.interestDue.onGrid
  have hfits : inst.interestDue.val < 10 ^ 15 := (abs_lt.mp inst.interestDue.fits).2
  have hround : roundAt 4 inst.interestDue.val = inst.interestDue.val := roundAt_of_mem hgrid
  have hzero : roundAt 4 (0 : ℚ) = 0 := roundAt_of_mem (zero_mem _)
  have hsum : ∀ qs : List ℚ, (∀ q ∈ qs, q ∈ grid 4 ∧ 0 ≤ q) → qs.sum = inst.interestDue.val →
      decimalSum qs = inst.interestDue.val := by
    intro qs hqs heq
    rw [decimalSum_of_mem hqs, heq]
    rw [heq]
    norm_num at hfits ⊢
    linarith
  have hentry : Returns (postJournalEntry s!"LOAN-ACCRUE-{loan.id}-P{inst.periodNumber}"
      s!"Interest accrual: {loan.loanReference} period {inst.periodNumber}" systemActor
      (accrualKey loan.id inst.dueDate) (interestLines loan inst.interestDue.val)) t := by
    apply returns_postJournalEntry hkey le_rfl
    · have hdebit : totalDebit (interestLines loan inst.interestDue.val) = inst.interestDue.val :=
        hsum [inst.interestDue.val, 0] (by simp [hgrid, hpos.le, zero_mem]) (by simp)
      have hcredit : totalCredit (interestLines loan inst.interestDue.val) = inst.interestDue.val :=
        hsum [0, inst.interestDue.val] (by simp [hgrid, hpos.le, zero_mem]) (by simp)
      rw [hdebit, hcredit]
    · intro l hl
      rcases List.mem_cons.mp hl with rfl | hl
      · refine ⟨h.receivable, fits_column inst.interestDue, ?_, ?_⟩
        · show |roundAt 4 (0 : ℚ)| < 10 ^ 15
          rw [hzero]
          norm_num
        · simp [LineIn.Check, LineIn.loanDebit, hround, hzero, hpos, hpos.le]
      · rw [List.mem_singleton.mp hl]
        refine ⟨h.income, ?_, fits_column inst.interestDue, ?_⟩
        · show |roundAt 4 (0 : ℚ)| < 10 ^ 15
          rw [hzero]
          norm_num
        · simp [LineIn.Check, LineIn.loanCredit, hround, hzero, hpos, hpos.le]
  refine hentry.bind fun id t₁ _ => ?_
  have hsaved : Returns (saveLoan loan (loan.balances.accrue inst.interestDue.val) loan.status) t₁ := by
    have hinterest := h.nonneg.interest
    apply returns_saveLoan
    · have haccrued : |roundAt 4 (loan.accruedInterest.val + inst.interestDue.val)| < 10 ^ 15 := by
        rw [roundAt_of_mem (add_mem loan.accruedInterest.onGrid hgrid), abs_lt]
        constructor
        · linarith
        · exact hroom
      intro q hq
      simp only [List.mem_cons, List.not_mem_nil, or_false] at hq
      rcases hq with rfl | rfl | rfl | rfl | rfl | rfl | rfl
      · exact fits_column loan.outstandingPrincipal
      · exact haccrued
      · exact fits_column loan.accruedPenalties
      · exact fits_column loan.totalPaidPrincipal
      · exact fits_column loan.totalPaidInterest
      · exact fits_column loan.totalPaidPenalties
      · exact fits_column loan.totalWrittenOff
    · exact h.nonneg.outstanding
    · show 0 ≤ loan.accruedInterest.val + inst.interestDue.val
      linarith
    · exact h.nonneg.penalties
  exact hsaved.bind fun _ _ _ => returns_pure _ _

/-- An instalment whose accrual goes through is accrued. -/
theorem accrueInstallment_posts {loan : Loan} {inst : LoanInstallment} {count n : ℕ} {t t' : Tables}
    (hloan : t.loan? loan.id = some loan) (hkey : t.entry? (accrualKey loan.id inst.dueDate) = none)
    (hpos : 0 < inst.interestDue.val) (hreturns : Returns (postAccrual loan inst) t)
    (hok : accrueInstallment loan.id count inst t = .ok n t') : postAccrual loan inst t = .ok () t' := by
  obtain ⟨u, t₁, hpost⟩ := hreturns
  unfold accrueInstallment at hok
  simp only [get_bind_eq_ok, hkey, hloan, if_neg hpos.not_ge] at hok
  obtain ⟨posted, t₂, hsave, hpure⟩ := bind_eq_ok.mp hok
  obtain ⟨-, rfl⟩ := pure_eq_ok.mp hpure
  unfold savepoint at hsave
  rw [hpost] at hsave
  cases hsave
  exact hpost

/-! ## What leaves a loan alone -/

/-- The row of a loan was written back with its terms and balances, and it is still active. -/
structure Loan.Alike (l l' : Loan) : Prop where
  terms : SameTerms l l'
  active : l.Active → l'.Active
  balances : l'.balances = l.balances

theorem Loan.Alike.refl (l : Loan) : l.Alike l :=
  ⟨⟨rfl, rfl, rfl, rfl, rfl, rfl, rfl, rfl, rfl, rfl⟩, fun h => h, rfl⟩

theorem SameTerms.trans {l l' l'' : Loan} (h : SameTerms l l') (h' : SameTerms l' l'') :
    SameTerms l l'' :=
  ⟨h'.id.trans h.id, h'.principalAmount.trans h.principalAmount,
    h'.interestMethod.trans h.interestMethod, h'.loanApplicationId.trans h.loanApplicationId,
    h'.loanProductId.trans h.loanProductId,
    h'.glPrincipalReceivableId.trans h.glPrincipalReceivableId,
    h'.glInterestReceivableId.trans h.glInterestReceivableId,
    h'.glInterestIncomeId.trans h.glInterestIncomeId,
    h'.glLoanLossExpenseId.trans h.glLoanLossExpenseId, h'.idempotencyKey.trans h.idempotencyKey⟩

theorem Saved.alike {l row : Loan} {status : LoanStatus} (h : Saved l l.balances status row)
    (hactive : l.Active → status = .disbursed ∨ status = .inArrears) : l.Alike row := by
  have hstatus : l.Active → row.Active := by
    intro hl
    unfold Loan.Active
    rw [h.status]
    exact hactive hl
  refine ⟨h.terms, hstatus, h.balances.trans ?_⟩
  have hgrid := l.balances_onGrid
  unfold Balances.round
  rw [roundAt_of_mem hgrid.outstandingPrincipal, roundAt_of_mem hgrid.accruedInterest,
    roundAt_of_mem hgrid.accruedPenalties, roundAt_of_mem hgrid.totalPaidPrincipal,
    roundAt_of_mem hgrid.totalPaidInterest, roundAt_of_mem hgrid.totalPaidPenalties,
    roundAt_of_mem hgrid.totalWrittenOff]

/-- Nothing that the accrual of the loan looks at or writes has changed. -/
structure Untouched (loanId : Uuid) (t t' : Tables) : Prop where
  charges : t'.interestCharges loanId = t.interestCharges loanId
  opened : (∀ inst ∈ t.loanInstallments loanId, inst.Open) →
    ∀ inst ∈ t'.loanInstallments loanId, inst.Open
  loan : ∀ l, t.loan? loanId = some l → ∃ l', t'.loan? loanId = some l' ∧ l.Alike l'
  accrued : ∀ d, t'.Accrued loanId d ↔ t.Accrued loanId d
  lines : t'.loanLines loanId = t.loanLines loanId
  accounts : t'.accounts = t.accounts

instance (loanId : Uuid) : IsPreorder Tables (Untouched loanId) where
  refl _ := ⟨rfl, fun h => h, fun l hl => ⟨l, hl, .refl l⟩, fun _ => Iff.rfl, rfl, rfl⟩
  trans t t₁ t₂ h h' := by
    refine ⟨h'.charges.trans h.charges, fun hopen => h'.opened (h.opened hopen), ?_,
      fun d => (h'.accrued d).trans (h.accrued d), h'.lines.trans h.lines, h'.accounts.trans h.accounts⟩
    intro l hl
    obtain ⟨l₁, hl₁, hsame⟩ := h.loan l hl
    obtain ⟨l₂, hl₂, hsame'⟩ := h'.loan l₁ hl₁
    exact ⟨l₂, hl₂, hsame.terms.trans hsame'.terms, fun hactive => hsame'.active (hsame.active hactive),
      hsame'.balances.trans hsame.balances⟩

theorem loanInstallments_eq {t t' : Tables} (h : t'.installments = t.installments) (loanId : Uuid) :
    t'.loanInstallments loanId = t.loanInstallments loanId := by
  unfold Tables.loanInstallments
  rw [h]

/-- Only the journal and the row of another loan changed. -/
theorem untouched_of_post {loanId : Uuid} {t t' : Tables} {e : JournalEntry} {row : Loan}
    (hinst : t'.installments = t.installments) (hentries : t'.entries = t.entries ++ [e])
    (hkey : ∀ d, e.idempotencyKey ≠ accrualKey loanId d)
    (htag : ∀ line ∈ e.lines, ¬ line.TaggedWith loanId) (hloans : t'.loans = (t.putLoan row).loans)
    (hrow : row.id ≠ loanId) (haccounts : t'.accounts = t.accounts) : Untouched loanId t t' := by
  have hrows := loanInstallments_eq hinst loanId
  refine ⟨?_, ?_, ?_, ?_, ?_, haccounts⟩
  · unfold Tables.interestCharges
    rw [hrows]
  · rw [hrows]
    exact fun h => h
  · intro l hl
    refine ⟨l, ?_, .refl l⟩
    have hput := loan?_putLoan t row loanId
    rw [hl, Option.map_some, if_neg ((loan?_eq_some hl).2 ▸ hrow.symm)] at hput
    unfold Tables.loan? at hput ⊢
    rw [hloans]
    exact hput
  · intro d
    unfold Tables.Accrued
    rw [hentries]
    simp [hkey d]
  · unfold Tables.loanLines
    rw [hentries, List.flatMap_append]
    have hnone : e.lines.filter (fun l => l.TaggedWith loanId) = [] := by
      rw [List.filter_eq_nil_iff]
      intro line hline
      simpa using htag line hline
    simp [hnone]

theorem interestLines_tagged (l : Loan) (amount : ℚ) :
    ∀ line ∈ interestLines l amount, line.TaggedWith l.id := by
  simp [interestLines]

/-- The accrual of another loan. -/
theorem accrueInstallment_untouched {loanId other : Uuid} (hother : other ≠ loanId) (count : ℕ)
    (inst : LoanInstallment) : Moves (Untouched loanId) (accrueInstallment other count inst) := by
  apply (neverRaises_accrueInstallment other count inst).moves
  intro t n t' h
  rcases accrueInstallment_ok h with ⟨-, rfl⟩ | ⟨-, loan, hloan, hkey, -, hpost⟩
  · exact refl_of (Untouched loanId) _
  · obtain ⟨-, rfl⟩ := loan?_eq_some hloan
    obtain ⟨row, t₁, hposted, hsaved, rfl⟩ := postAccrual_ok hkey hpost
    obtain ⟨e, hekey, hlines, rfl⟩ := hposted.entry
    refine @untouched_of_post loanId _ _ e row rfl rfl ?_ ?_ rfl (hsaved.terms.id ▸ hother) rfl
    · intro d heq
      exact hother (accrualKey_inj (hekey.symm.trans heq)).1
    · intro line hline htag
      obtain ⟨l, hl, hst⟩ := forall₂_exists_left hlines hline
      have htagged := interestLines_tagged loan inst.interestDue.val l hl
      have hid : some loan.id = some loanId := by
        rw [← htagged.2, ← hst.subLedgerId]
        exact htag.2
      exact hother (Option.some.inj hid)

/-! ## The accrual of a loan -/

/-- Charges that the accrued interest can take. -/
structure Chargeable (due : List (Date × ℚ)) : Prop where
  nodup : (due.map (·.1)).Nodup
  fits : (due.map (·.2)).sum < 10 ^ 15

/-- The loan has these charges. What was posted, since its lines debited `before`, and what is accrued
is what they have charged. -/
structure Accruing (loanId : Uuid) (due : List (Date × ℚ)) (before : ℚ) (t : Tables) : Prop where
  charges : t.interestCharges loanId = due
  opened : ∀ inst ∈ t.loanInstallments loanId, inst.Open
  loan : ∃ l, t.loan? loanId = some l ∧ l.Accruable t ∧
    l.accruedInterest.val = charged (t.Accrued loanId) due
  posted : t.loanDebits loanId = before + charged (t.Accrued loanId) due

section

variable {loanId : Uuid} {due : List (Date × ℚ)} {before : ℚ} {t t' : Tables}

theorem Accruing.untouched (h : Accruing loanId due before t) (hsame : Untouched loanId t t') :
    Accruing loanId due before t' := by
  obtain ⟨l, hl, haccruable, haccrued⟩ := h.loan
  obtain ⟨l', hl', halike⟩ := hsame.loan l hl
  have hcharged : charged (t'.Accrued loanId) due = charged (t.Accrued loanId) due :=
    charged_congr fun c _ => hsame.accrued c.1
  have hinterest : l'.accruedInterest.val = l.accruedInterest.val :=
    congrArg Balances.accruedInterest halike.balances
  refine ⟨hsame.charges.trans h.charges, hsame.opened h.opened, ⟨l', hl', ?_, ?_⟩, ?_⟩
  · refine ⟨halike.terms.interestMethod.trans haccruable.method, halike.active haccruable.active,
      ?_, ?_, ?_⟩
    · have houtstanding : l'.outstandingPrincipal.val = l.outstandingPrincipal.val :=
        congrArg Balances.outstandingPrincipal halike.balances
      have hpenalties : l'.accruedPenalties.val = l.accruedPenalties.val :=
        congrArg Balances.accruedPenalties halike.balances
      exact ⟨houtstanding ▸ haccruable.nonneg.outstanding, hinterest ▸ haccruable.nonneg.interest,
        hpenalties ▸ haccruable.nonneg.penalties⟩
    · rw [hsame.accounts, halike.terms.glInterestReceivableId]
      exact haccruable.receivable
    · rw [hsame.accounts, halike.terms.glInterestIncomeId]
      exact haccruable.income
  · rw [hinterest, hcharged, haccrued]
  · unfold Tables.loanDebits
    rw [hsame.lines, hcharged]
    exact h.posted

/-- A posted accrual shows in the lines of its loan. -/
theorem loanDebits_interest {loan : Loan} {amount : ℚ} {e : JournalEntry} (hamount : amount ∈ grid 4)
    (hentries : t'.entries = t.entries ++ [e])
    (hlines : List.Forall₂ Stored (interestLines loan amount) e.lines) :
    t'.loanDebits loan.id = t.loanDebits loan.id + amount := by
  obtain ⟨debit, rest, hdebit, hrest, hcons⟩ := List.forall₂_cons_left_iff.mp hlines
  obtain ⟨credit, rest', hcredit, hnil, rfl⟩ := List.forall₂_cons_left_iff.mp hrest
  rw [List.forall₂_nil_left_iff.mp hnil] at hcons
  have htagged : ∀ line ∈ e.lines, line.TaggedWith loan.id := by
    intro line hline
    obtain ⟨l, hl, hst⟩ := forall₂_exists_left hlines hline
    have htag := interestLines_tagged loan amount l hl
    exact ⟨hst.subLedgerType.trans htag.1, hst.subLedgerId.trans htag.2⟩
  have hall : e.lines.filter (fun l => l.TaggedWith loan.id) = e.lines := by
    rw [List.filter_eq_self]
    intro line hline
    simpa using htagged line hline
  have hfirst : debit.debitAmount.val = amount := hdebit.debitAmount.trans (roundAt_of_mem hamount)
  have hsecond : credit.debitAmount.val = 0 := hcredit.debitAmount.trans (roundAt_of_mem (zero_mem _))
  unfold Tables.loanDebits Tables.loanLines
  rw [hentries, List.flatMap_append, List.map_append, List.sum_append, List.flatMap_singleton, hall,
    hcons]
  simp [hfirst, hsecond]

/-- A charge of the loan: it is made now or was made before. -/
theorem Accruing.charge (hdue : Chargeable due) (h : Accruing loanId due before t)
    {inst : LoanInstallment} (hinst : (inst.dueDate, inst.interestDue.val) ∈ due) {count n : ℕ}
    (hok : accrueInstallment loanId count inst t = .ok n t') :
    Accruing loanId due before t' ∧
      ∀ d, t'.Accrued loanId d ↔ d = inst.dueDate ∨ t.Accrued loanId d := by
  have hpositive : ∀ c ∈ due, 0 < c.2 := by
    intro c hc
    rw [← h.charges] at hc
    obtain ⟨r, -, hr, rfl⟩ := mem_interestCharges.mp hc
    exact hr
  have hpos : 0 < inst.interestDue.val := hpositive _ hinst
  by_cases haccrued : t.Accrued loanId inst.dueDate
  · obtain ⟨e, he, hkey⟩ := haccrued
    rcases accrueInstallment_ok hok with ⟨-, rfl⟩ | ⟨-, loan, -, hnew, -, -⟩
    · refine ⟨h, fun d => ⟨.inr, ?_⟩⟩
      intro hd
      rcases hd with rfl | hd
      · exact ⟨e, he, hkey⟩
      · exact hd
    · exact absurd hkey (hnew e he)
  · obtain ⟨loan, hloan, haccruable, hinterest⟩ := h.loan
    obtain ⟨-, rfl⟩ := loan?_eq_some hloan
    have hnew : ∀ e ∈ t.entries, e.idempotencyKey ≠ accrualKey loan.id inst.dueDate :=
      fun e he hkey => haccrued ⟨e, he, hkey⟩
    have hroom : loan.accruedInterest.val + inst.interestDue.val < 10 ^ 15 := by
      rw [hinterest]
      have hle := charged_add_le (fun c hc => (hpositive c hc).le) hdue.nodup hinst haccrued
      exact hle.trans_lt hdue.fits
    have hpost := accrueInstallment_posts hloan (entry?_eq_none.mpr hnew) hpos
      (returns_postAccrual haccruable (entry?_eq_none.mpr hnew) hpos hroom) hok
    obtain ⟨row, t₁, hposted, hsaved, rfl⟩ := postAccrual_ok hnew hpost
    obtain ⟨e, hekey, hlines, rfl⟩ := hposted.entry
    have hiff : ∀ d, (Tables.putLoan { t with nextId := t.nextId + 1, entries := t.entries ++ [e] }
        row).Accrued loan.id d ↔ d = inst.dueDate ∨ t.Accrued loan.id d := by
      intro d
      show (∃ e' ∈ t.entries ++ [e], e'.idempotencyKey = accrualKey loan.id d) ↔ _
      constructor
      · intro ⟨e', he', hkey⟩
        rcases List.mem_append.mp he' with he' | he'
        · exact .inr ⟨e', he', hkey⟩
        · rw [List.mem_singleton.mp he', hekey] at hkey
          exact .inl (accrualKey_inj hkey).2.symm
      · intro hd
        rcases hd with rfl | ⟨e', he', hkey⟩
        · exact ⟨e, by simp, hekey⟩
        · exact ⟨e', List.mem_append_left _ he', hkey⟩
    have hcharged := charged_use hdue.nodup hinst haccrued hiff
    have hrow : row.accruedInterest.val = loan.accruedInterest.val + inst.interestDue.val := by
      have hcol := congrArg Balances.accruedInterest hsaved.balances
      exact hcol.trans (roundAt_of_mem (add_mem loan.accruedInterest.onGrid inst.interestDue.onGrid))
    refine ⟨⟨h.charges, h.opened, ⟨row, ?_, ?_, ?_⟩, ?_⟩, hiff⟩
    · rw [loan?_putLoan]
      show (t.loan? loan.id).map _ = some row
      rw [hloan, Option.map_some, if_pos hsaved.terms.id.symm]
    · refine ⟨hsaved.terms.interestMethod.trans haccruable.method, ?_, hsaved.nonneg, ?_, ?_⟩
      · unfold Loan.Active
        rw [hsaved.status]
        exact haccruable.active
      · rw [hsaved.terms.glInterestReceivableId]
        exact haccruable.receivable
      · rw [hsaved.terms.glInterestIncomeId]
        exact haccruable.income
    · rw [hrow, hcharged, hinterest]
    · rw [hcharged, ← add_assoc, ← h.posted]
      exact loanDebits_interest inst.interestDue.onGrid rfl hlines

/-- The charges made among `rows`. -/
theorem Accruing.chargeRows (hdue : Chargeable due) {rows : List LoanInstallment} {count n : ℕ}
    (hrows : ∀ inst ∈ rows, 0 < inst.interestDue.val → (inst.dueDate, inst.interestDue.val) ∈ due)
    (h : Accruing loanId due before t)
    (hok : foldEach (accrueInstallment loanId) rows count t = .ok n t') :
    Accruing loanId due before t' ∧ (∀ d, t.Accrued loanId d → t'.Accrued loanId d) ∧
      ∀ inst ∈ rows, 0 < inst.interestDue.val → t'.Accrued loanId inst.dueDate := by
  induction rows generalizing t count with
  | nil =>
    obtain ⟨-, rfl⟩ := pure_eq_ok.mp hok
    exact ⟨h, fun d hd => hd, fun inst hinst => absurd hinst List.not_mem_nil⟩
  | cons inst rows ih =>
    obtain ⟨count₁, t₁, hround, hrest⟩ := bind_eq_ok.mp hok
    have hfirst : Accruing loanId due before t₁ ∧ (∀ d, t.Accrued loanId d → t₁.Accrued loanId d) ∧
        (0 < inst.interestDue.val → t₁.Accrued loanId inst.dueDate) := by
      by_cases hpos : 0 < inst.interestDue.val
      · obtain ⟨hnext, hiff⟩ := h.charge hdue (hrows inst List.mem_cons_self hpos) hround
        exact ⟨hnext, fun d hd => (hiff d).mpr (.inr hd), fun _ => (hiff _).mpr (.inl rfl)⟩
      · rcases accrueInstallment_ok hround with ⟨-, rfl⟩ | ⟨-, loan, -, -, hinterest, -⟩
        · exact ⟨h, fun d hd => hd, fun hinterest => absurd hinterest hpos⟩
        · exact absurd hinterest hpos
    obtain ⟨hnext, hmono, hdone⟩ := hfirst
    obtain ⟨hend, hmono', hall⟩ := ih (fun i hi => hrows i (List.mem_cons_of_mem _ hi)) hnext hrest
    refine ⟨hend, fun d hd => hmono' d (hmono d hd), ?_⟩
    intro i hi hpos
    rcases List.mem_cons.mp hi with rfl | hi
    · exact hmono' _ (hdone hpos)
    · exact hall i hi hpos

/-- The round of the loan makes every charge that is due. -/
theorem Accruing.chargeLoan (hdue : Chargeable due) {today : Date} {loan : Loan} {count n : ℕ}
    (hid : loan.id = loanId) (h : Accruing loanId due before t)
    (hok : accrueLoan today count loan t = .ok n t') :
    Accruing loanId due before t' ∧ (∀ d, t.Accrued loanId d → t'.Accrued loanId d) ∧
      ∀ c ∈ due, c.1 ≤ today → t'.Accrued loanId c.1 := by
  unfold accrueLoan at hok
  rw [get_bind_eq_ok, hid] at hok
  have hrows : ∀ inst ∈ t.dueInstallments today loanId, 0 < inst.interestDue.val →
      (inst.dueDate, inst.interestDue.val) ∈ due := by
    intro inst hinst hpos
    rw [Tables.dueInstallments, List.mem_insertionSort, List.mem_filter] at hinst
    have hloan : inst.loanId = loanId := by
      have hparts := hinst.2
      simp only [decide_eq_true_eq] at hparts
      exact hparts.1
    rw [← h.charges]
    exact mem_interestCharges.mpr ⟨inst, mem_loanInstallments.mpr ⟨hinst.1, hloan⟩, hpos, rfl⟩
  obtain ⟨hend, hmono, hall⟩ := h.chargeRows hdue hrows hok
  refine ⟨hend, hmono, ?_⟩
  intro c hc htoday
  rw [← h.charges] at hc
  obtain ⟨inst, hinst, hpos, rfl⟩ := mem_interestCharges.mp hc
  obtain ⟨hmem, hloan⟩ := mem_loanInstallments.mp hinst
  refine hall inst ?_ hpos
  rw [Tables.dueInstallments, List.mem_insertionSort, List.mem_filter]
  exact ⟨hmem, by simpa using ⟨hloan, htoday, h.opened inst hinst⟩⟩

theorem Accruing.chargeLoans (hdue : Chargeable due) {today : Date} {loans : List Loan} {count n : ℕ}
    (h : Accruing loanId due before t) (hok : foldEach (accrueLoan today) loans count t = .ok n t') :
    Accruing loanId due before t' ∧ (∀ d, t.Accrued loanId d → t'.Accrued loanId d) ∧
      ((∃ l ∈ loans, l.id = loanId) → ∀ c ∈ due, c.1 ≤ today → t'.Accrued loanId c.1) := by
  induction loans generalizing t count with
  | nil =>
    obtain ⟨-, rfl⟩ := pure_eq_ok.mp hok
    refine ⟨h, fun d hd => hd, ?_⟩
    intro ⟨l, hl, _⟩
    cases hl
  | cons loan loans ih =>
    obtain ⟨count₁, t₁, hround, hrest⟩ := bind_eq_ok.mp hok
    have hfirst : Accruing loanId due before t₁ ∧ (∀ d, t.Accrued loanId d → t₁.Accrued loanId d) ∧
        (loan.id = loanId → ∀ c ∈ due, c.1 ≤ today → t₁.Accrued loanId c.1) := by
      by_cases hid : loan.id = loanId
      · obtain ⟨hnext, hmono, hall⟩ := h.chargeLoan hdue hid hround
        exact ⟨hnext, hmono, fun _ => hall⟩
      · have hmoves : Moves (Untouched loanId) (accrueLoan today count loan) := by
          apply moves_bind moves_get
          intro s
          apply moves_foldEach
          intro k inst _
          exact accrueInstallment_untouched hid k inst
        have hsame := hmoves.ok hround
        exact ⟨h.untouched hsame, fun d hd => (hsame.accrued d).mpr hd, fun heq => absurd heq hid⟩
    obtain ⟨hnext, hmono, hown⟩ := hfirst
    obtain ⟨hend, hmono', hall⟩ := ih hnext hrest
    refine ⟨hend, fun d hd => hmono' d (hmono d hd), ?_⟩
    intro ⟨l, hl, hid⟩ c hc htoday
    rcases List.mem_cons.mp hl with rfl | hl
    · exact hmono' _ (hown hid c hc htoday)
    · exact hall ⟨l, hl, hid⟩ c hc htoday

theorem returns_accrueForTenant (today : Date) (t : Tables) : Returns (accrueForTenant today) t := by
  have hsavepoint : ∀ (x : Call Unit) (s : Tables), Returns (savepoint x) s := by
    intro x s
    rcases savepoint_cases x s with ⟨a, s', -, heq⟩ | heq
    · exact ⟨_, _, heq⟩
    · exact ⟨_, _, heq⟩
  have hround : ∀ (loanId : Uuid) (count : ℕ) (inst : LoanInstallment) (s : Tables),
      Returns (accrueInstallment loanId count inst) s := by
    intro loanId count inst s
    refine returns_get_bind.mpr ?_
    split
    · split
      · exact returns_pure _ _
      · exact (hsavepoint _ s).bind fun _ _ _ => returns_pure _ _
    · exact returns_pure _ _
  refine returns_get_bind.mpr (returns_foldEach ?_ 0 t)
  intro count loan _ s
  exact returns_get_bind.mpr (returns_foldEach (fun k inst _ s' => hround loan.id k inst s') count s)

/-- A run of the task makes every charge of the loan that is due. -/
theorem Accruing.accrueInterest (hdue : Chargeable due) (ar : LienArithmetic) {today : Date}
    (h : Accruing loanId due before t) :
    Accruing loanId due before ((CreditOp.accrueInterest today).step ar t) ∧
      (∀ d, t.Accrued loanId d → ((CreditOp.accrueInterest today).step ar t).Accrued loanId d) ∧
      ∀ c ∈ due, c.1 ≤ today → ((CreditOp.accrueInterest today).step ar t).Accrued loanId c.1 := by
  obtain ⟨n, t', hok⟩ := returns_accrueForTenant today t
  have hstep : (CreditOp.accrueInterest today).step ar t = t' := commit_of_ok hok
  rw [hstep]
  unfold accrueForTenant at hok
  rw [get_bind_eq_ok] at hok
  obtain ⟨hend, hmono, hall⟩ := h.chargeLoans hdue hok
  refine ⟨hend, hmono, hall ?_⟩
  obtain ⟨l, hl, haccruable, -⟩ := h.loan
  obtain ⟨hmem, hid⟩ := loan?_eq_some hl
  exact ⟨l, List.mem_filter.mpr ⟨hmem, by simpa using ⟨haccruable.method, haccruable.active⟩⟩, hid⟩

end

end SaccoPlatform
