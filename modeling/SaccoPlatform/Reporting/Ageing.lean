import SaccoPlatform.Credit.Arrears
import SaccoPlatform.Lib.Grouping
import SaccoPlatform.Reporting.Coherence
import SaccoPlatform.Reporting.LoanPortfolio

/-!
# Ageing

The loan portfolio reads the days in arrears from the instalments that are marked overdue, not from the
due dates. The two agree where the arrears task and the repayments left the marks in agreement with the
dates, and only there.
-/

namespace SaccoPlatform.Reporting

open Lib Session

/-- The days since the earliest of the dates, zero if there is none. -/
def daysSince (today : Date) (ds : List Date) : ℤ :=
  match earliest ds with
  | some due => (today.ordinal : ℤ) - due.ordinal
  | none => 0

/-- The days since the earliest late instalment of the loan was due. -/
def daysLate (t : Tables) (today : Date) (loanId : Uuid) : ℤ :=
  daysSince today ((lateInstallments today (t.loanInstallments loanId)).map (·.dueDate))

/-- The bucket is for this number of days. -/
def AgingBucket.Covers : AgingBucket → ℤ → Prop
  | .current, days => days = 0
  | .upTo30, days => 1 ≤ days ∧ days ≤ 30
  | .upTo60, days => 31 ≤ days ∧ days ≤ 60
  | .upTo90, days => 61 ≤ days ∧ days ≤ 90
  | .over90, days => 91 ≤ days

/-- Each loan that is disbursed or in arrears has one row, with the days since its earliest late
instalment was due, in the bucket for them. -/
def Books.Ages (b : Books) (today : Date) (rows : List LoanPortfolioRow) : Prop :=
  ∀ loan ∈ b.tables.loans, loan.Active → ∃ row, rows.filter (·.loanId = loan.id) = [row] ∧
    row.daysInArrears = daysLate b.tables today loan.id ∧
    row.agingBucket.Covers (daysLate b.tables today loan.id)

/-! ## Days -/

theorem daysSince_nonneg {today : Date} {ds : List Date} (h : ∀ d ∈ ds, d < today) :
    0 ≤ daysSince today ds := by
  unfold daysSince
  cases hfirst : earliest ds with
  | none => exact le_refl _
  | some d =>
    have hlt : d.ordinal < today.ordinal := h d (earliest_eq_some.mp hfirst).1
    show 0 ≤ (today.ordinal : ℤ) - d.ordinal
    omega

/-- Some of the dates give the same days as all of them when they go back as far. -/
theorem daysSince_eq_iff {today : Date} {fewer all : List Date} (hsub : fewer ⊆ all)
    (hpast : ∀ d ∈ all, d < today) :
    daysSince today fewer = daysSince today all ↔ ∀ d ∈ all, ∃ e ∈ fewer, e ≤ d := by
  cases hall : earliest all with
  | none =>
    have hnil := earliest_eq_none.mp hall
    subst hnil
    rw [List.subset_nil.mp hsub]
    simp
  | some first =>
    obtain ⟨hfirst, hmin⟩ := earliest_eq_some.mp hall
    have hlt : first.ordinal < today.ordinal := hpast first hfirst
    unfold daysSince
    rw [hall]
    cases hsome : earliest fewer with
    | none =>
      rw [earliest_eq_none.mp hsome]
      refine iff_of_false ?_ ?_
      · show ¬ (0 : ℤ) = (today.ordinal : ℤ) - first.ordinal
        omega
      · intro h
        obtain ⟨e, he, -⟩ := h first hfirst
        exact absurd he List.not_mem_nil
    | some e =>
      obtain ⟨he, hemin⟩ := earliest_eq_some.mp hsome
      have hle : first.ordinal ≤ e.ordinal := hmin e (hsub he)
      show (today.ordinal : ℤ) - e.ordinal = (today.ordinal : ℤ) - first.ordinal ↔ _
      constructor
      · intro heq d hd
        have hd' : first.ordinal ≤ d.ordinal := hmin d hd
        refine ⟨e, he, ?_⟩
        show e.ordinal ≤ d.ordinal
        omega
      · intro h
        obtain ⟨c, hc, hcle⟩ := h first hfirst
        have hec : e.ordinal ≤ c.ordinal := hemin c hc
        have hcf : c.ordinal ≤ first.ordinal := hcle
        omega

theorem agingBucket_covers {days : ℤ} (h : 0 ≤ days) : (agingBucket days).Covers days := by
  unfold agingBucket
  split_ifs
  · assumption
  all_goals
    simp only [AgingBucket.Covers]
    omega

/-! ## Rows -/

/-- Every loan has its row at most once. -/
theorem portfolioLoans_nodup (b : Books) : ((portfolioLoans b.tables).map (·.1.id)).Nodup := by
  have hperm := (List.perm_insertionSort (fun x y : Loan × LoanProduct =>
    x.1.loanReference ≤ y.1.loanReference) ((b.tables.loans.filter fun loan =>
      loan.status = .disbursed ∨ loan.status = .inArrears ∨ loan.status = .writtenOff ∨
        loan.status = .closed).flatMap fun loan =>
      (b.tables.products.filter (·.id = loan.loanProductId)).map (loan, ·))).map (·.1.id)
  rw [portfolioLoans, hperm.nodup_iff, List.map_flatMap, List.nodup_flatMap]
  constructor
  · intro loan hloan
    obtain ⟨product, hproduct, hid⟩ :=
      List.mem_map.mp (b.fk_ln_product loan (List.mem_filter.mp hloan).1)
    have hone := filter_key_of_mem b.loan_products_pkey hproduct
    rw [hid] at hone
    rw [hone]
    exact List.nodup_singleton _
  · have hids : (b.tables.loans.filter fun loan => loan.status = .disbursed ∨ loan.status = .inArrears ∨
        loan.status = .writtenOff ∨ loan.status = .closed).Pairwise fun l r => l.id ≠ r.id :=
      (List.pairwise_map.mp b.loans_pkey).filter _
    refine hids.imp ?_
    intro l r hne x hx hx'
    obtain ⟨_, hl, rfl⟩ := List.mem_map.mp hx
    obtain ⟨_, hr, heq⟩ := List.mem_map.mp hx'
    obtain ⟨_, -, rfl⟩ := List.mem_map.mp hl
    obtain ⟨_, -, rfl⟩ := List.mem_map.mp hr
    exact hne heq.symm

theorem reports_loanPortfolio {b : Books} {asOfDate today : Date} {rows : List LoanPortfolioRow} :
    b.Reports .loanPortfolio (LoanPortfolioService.materialize asOfDate today) rows ↔
      rows = (portfolioLoans b.tables).map fun x => b.portfolioRow asOfDate today x.1 x.2 := by
  refine reports_iff.trans ?_
  constructor
  · rintro ⟨b', h⟩
    rw [LoanPortfolioService.select, get_bind_eq_ok, pure_eq_ok] at h
    exact h.1.symm
  · rintro rfl
    exact ⟨b, rfl⟩

/-- The row of a loan. -/
theorem filter_portfolioRows {b : Books} {asOfDate today : Date} {loan : Loan}
    (hloan : loan ∈ b.tables.loans) (hstatus : loan.status ≠ .disbursing) :
    ∃ product, ((portfolioLoans b.tables).map fun x => b.portfolioRow asOfDate today x.1 x.2).filter
      (·.loanId = loan.id) = [b.portfolioRow asOfDate today loan product] := by
  obtain ⟨product, hproduct, hid⟩ := List.mem_map.mp (b.fk_ln_product loan hloan)
  have hmem : (loan, product) ∈ portfolioLoans b.tables :=
    mem_portfolioLoans.mpr ⟨hloan, hstatus, hproduct, hid⟩
  have hone := filter_key_of_mem (portfolioLoans_nodup b) hmem
  refine ⟨product, ?_⟩
  rw [List.filter_map]
  show List.map _ ((portfolioLoans b.tables).filter fun x => x.1.id = loan.id) = _
  rw [hone]
  rfl

/-! ## The days that are reported -/

/-- The instalments that are marked among those of the loan. -/
theorem earliestOverdue_eq (t : Tables) (loanId : Uuid) : earliestOverdue t loanId =
    earliest (((t.loanInstallments loanId).filter fun inst =>
      inst.status = .overdue ∧ inst.isSuperseded = false).map (·.dueDate)) := by
  unfold earliestOverdue Tables.loanInstallments
  rw [List.filter_filter]
  congr 3
  funext inst
  simp only [Bool.decide_and, and_comm, Bool.and_comm]

/-- A loan is reported with the days since its earliest late instalment exactly when it is marked. -/
theorem daysInArrears_eq_iff {t : Tables} {today : Date} (hover : t.OverdueBefore today) {loan : Loan}
    (hactive : loan.Active) : daysInArrears t today loan = daysLate t today loan.id ↔
      MarkedLoan today loan.status (t.loanInstallments loan.id) := by
  have hpast : ∀ d ∈ (lateInstallments today (t.loanInstallments loan.id)).map (·.dueDate), d < today := by
    intro d hd
    obtain ⟨inst, hinst, rfl⟩ := List.mem_map.mp hd
    exact (mem_lateInstallments.mp hinst).2.2.2
  rcases hactive with hstatus | hstatus
  · -- nothing is reported for a loan that is not in arrears
    have hzero : daysInArrears t today loan = daysSince today [] := by
      unfold daysInArrears
      rw [hstatus]
      cases earliestOverdue t loan.id <;> rfl
    rw [hzero, daysLate, daysSince_eq_iff (List.nil_subset _) hpast]
    constructor
    · intro hnone
      refine ⟨fun _ => List.eq_nil_iff_forall_not_mem.mpr fun inst hinst => ?_, fun ha => ?_⟩
      · obtain ⟨e, he, -⟩ := hnone inst.dueDate (List.mem_map_of_mem hinst)
        exact absurd he List.not_mem_nil
      · rw [hstatus] at ha
        cases ha
    · intro hmarked d hd
      rw [hmarked.disbursed hstatus] at hd
      exact absurd hd List.not_mem_nil
  · have hdays : daysInArrears t today loan = daysSince today (((t.loanInstallments loan.id).filter
        fun inst => inst.status = .overdue ∧ inst.isSuperseded = false).map (·.dueDate)) := by
      unfold daysInArrears daysSince
      rw [earliestOverdue_eq]
      cases earliest (((t.loanInstallments loan.id).filter fun inst =>
        inst.status = .overdue ∧ inst.isSuperseded = false).map (·.dueDate)) with
      | none => rfl
      | some due => exact if_pos hstatus
    have hmem : ∀ inst, inst ∈ (t.loanInstallments loan.id).filter (fun inst =>
        inst.status = .overdue ∧ inst.isSuperseded = false) ↔
        inst ∈ lateInstallments today (t.loanInstallments loan.id) ∧ inst.status = .overdue := by
      intro inst
      rw [List.mem_filter, decide_eq_true_eq, mem_lateInstallments]
      constructor
      · rintro ⟨hinst, hmark, hactive⟩
        refine ⟨⟨hinst, hactive, ?_, hover inst (mem_loanInstallments.mp hinst).1 hmark⟩, hmark⟩
        rw [hmark]
        decide
      · rintro ⟨⟨hinst, hactive, -, -⟩, hmark⟩
        exact ⟨hinst, hmark, hactive⟩
    rw [hdays, daysLate, daysSince_eq_iff ?_ hpast]
    · constructor
      · intro hback
        refine ⟨fun hd => ?_, fun _ inst hinst => ?_⟩
        · rw [hstatus] at hd
          cases hd
        · obtain ⟨e, he, hle⟩ := hback inst.dueDate (List.mem_map_of_mem hinst)
          obtain ⟨first, hfirst, rfl⟩ := List.mem_map.mp he
          exact ⟨first, ((hmem first).mp hfirst).1, ((hmem first).mp hfirst).2, hle⟩
      · intro hmarked d hd
        obtain ⟨inst, hinst, rfl⟩ := List.mem_map.mp hd
        obtain ⟨first, hfirst, hmark, hle⟩ := hmarked.inArrears hstatus inst hinst
        exact ⟨_, List.mem_map_of_mem ((hmem first).mpr ⟨hfirst, hmark⟩), hle⟩
    · intro d hd
      obtain ⟨inst, hinst, rfl⟩ := List.mem_map.mp hd
      exact List.mem_map_of_mem ((hmem inst).mp hinst).1

theorem ages_iff_marked {b : Books} {today : Date} (hover : b.tables.OverdueBefore today)
    {rows : List LoanPortfolioRow}
    (hrows : b.Reports .loanPortfolio (LoanPortfolioService.materialize today today) rows) :
    b.Ages today rows ↔ b.tables.Marked today := by
  rw [reports_loanPortfolio] at hrows
  subst hrows
  have hbucket : ∀ loan : Loan, 0 ≤ daysLate b.tables today loan.id := by
    intro loan
    apply daysSince_nonneg
    intro d hd
    obtain ⟨inst, hinst, rfl⟩ := List.mem_map.mp hd
    exact (mem_lateInstallments.mp hinst).2.2.2
  constructor
  · intro hages loan hloan
    by_cases hactive : loan.Active
    · obtain ⟨row, hrow, hdays, -⟩ := hages loan hloan hactive
      have hstatus : loan.status ≠ .disbursing := by
        rcases hactive with h | h <;> rw [h] <;> decide
      obtain ⟨product, hone⟩ := @filter_portfolioRows b today today loan hloan hstatus
      rw [hone] at hrow
      cases hrow
      exact (daysInArrears_eq_iff hover hactive).mp hdays
    · exact ⟨fun hd => absurd (.inl hd) hactive, fun ha => absurd (.inr ha) hactive⟩
  · intro hmarked loan hloan hactive
    have hstatus : loan.status ≠ .disbursing := by
      rcases hactive with h | h <;> rw [h] <;> decide
    obtain ⟨product, hone⟩ := @filter_portfolioRows b today today loan hloan hstatus
    have hdays : daysInArrears b.tables today loan = daysLate b.tables today loan.id :=
      (daysInArrears_eq_iff hover hactive).mpr (hmarked loan hloan)
    refine ⟨_, hone, hdays, ?_⟩
    show (agingBucket (daysInArrears b.tables today loan)).Covers _
    rw [hdays]
    exact agingBucket_covers (hbucket loan)

/-- Whatever was disbursed, repaid, restructured and marked before: the portfolio of the day reports the
days since the earliest late instalment of every loan exactly when the loans are marked. After the arrears
run of the day they are when each loan that was in arrears before it had its earliest late instalment
marked. -/
theorem portfolio_ageing_iff {ar : LienArithmetic} {t : Tables} (hgenesis : t.Genesis)
    {ops : List CreditOp} (hops : Along (CreditOp.step ar) (fun _ op => op.ForeignKeys) t ops)
    {today : Date} (hdays : ∀ d, .markArrears d ∈ ops → d ≤ today) {b : Books}
    (hb : b.tables = run (CreditOp.step ar) t ops) {rows : List LoanPortfolioRow}
    (hrows : b.Reports .loanPortfolio (LoanPortfolioService.materialize today today) rows) :
    (b.Ages today rows ↔ b.tables.Marked today) ∧
      ∀ before, ops = before ++ [.markArrears today] →
        (b.tables.Marked today ↔ ∀ l ∈ (run (CreditOp.step ar) t before).loans, l.status = .inArrears →
          FirstMarked today ((run (CreditOp.step ar) t before).loanInstallments l.id)) := by
  constructor
  · refine ages_iff_marked ?_ hrows
    rw [hb]
    exact run_overdueBefore ar hgenesis hdays
  · intro before hsplit
    subst hsplit
    rw [hb, run_append, run_cons, run_nil]
    exact markArrears_marked ar (run_nonneg ar hgenesis (along_append.mp hops).1)

/-- 1 and 2 March 2026, after the first instalment of the sample loan was due. -/
def march1 : Date := .ofOrdinal 739676
def march2 : Date := ⟨739677, by decide⟩

/-- The tenant of the sample loan after these operations. -/
def sampleLoanTables (ops : List CreditOp) : Tables := run (CreditOp.step .python) (sampleTenant .flat) ops

/-- The sample loan is disbursed and runs into arrears. -/
def runIntoArrears : List CreditOp := [sampleDisbursement, .markArrears march1]

/-- Then a part of the first instalment is paid. -/
def payPart : List CreditOp :=
  runIntoArrears ++ [.repay (sampleRepayment 100 "r"), .markArrears march2]

def sampleLoanBooks (ops : List CreditOp) (hkeys : ((sampleLoanTables ops).accounts.map (·.id)).Nodup ∧
    (∀ e ∈ (sampleLoanTables ops).entries, ∀ l ∈ e.lines,
      l.accountId ∈ (sampleLoanTables ops).accounts.map (·.id)) ∧
    ((sampleLoanTables ops).loans.map (·.id)).Nodup ∧ ((sampleLoanTables ops).products.map (·.id)).Nodup ∧
    (∀ l ∈ (sampleLoanTables ops).loans, l.loanProductId ∈ (sampleLoanTables ops).products.map (·.id)) ∧
    ((sampleLoanTables ops).savingsAccounts.map (·.id)).Nodup ∧
    (sampleLoanTables ops).savingsTransactions = []) : Books where
  tables := sampleLoanTables ops
  columns := .blank
  accounts_pkey := hkeys.1
  fk_jl_account := hkeys.2.1
  loans_pkey := hkeys.2.2.1
  loan_products_pkey := hkeys.2.2.2.1
  fk_ln_product := hkeys.2.2.2.2.1
  savings_accounts_pkey := hkeys.2.2.2.2.2.1
  savings_transactions_pkey := by
    rw [hkeys.2.2.2.2.2.2]
    exact List.nodup_nil
  fk_savtx_account tx htx := by
    rw [hkeys.2.2.2.2.2.2] at htx
    exact absurd htx List.not_mem_nil

/-- On its first day in arrears the loan is reported with one day. -/
theorem portfolio_ageing_arrears : ∃ rows, (sampleLoanBooks runIntoArrears (by decide +kernel)).Reports
      .loanPortfolio (LoanPortfolioService.materialize march1 march1) rows ∧
    (sampleLoanBooks runIntoArrears (by decide +kernel)).Ages march1 rows ∧
    rows.map (fun row => (row.daysInArrears, row.agingBucket)) = [(1, .upTo30)] := by
  have hrows := (@reports_loanPortfolio (sampleLoanBooks runIntoArrears (by decide +kernel)) march1 march1
    _).mpr rfl
  have hops : Along (CreditOp.step .python) (fun _ op => op.ForeignKeys) (sampleTenant .flat)
      runIntoArrears := ⟨trivial, trivial, trivial⟩
  have hdays : ∀ d, .markArrears d ∈ runIntoArrears → d ≤ march1 := by
    intro d hd
    simp only [runIntoArrears, List.mem_cons, List.not_mem_nil, or_false, CreditOp.markArrears.injEq] at hd
    rcases hd with hd | rfl
    · cases hd
    · exact Nat.le_refl _
  obtain ⟨hages, hmarked⟩ := portfolio_ageing_iff (genesis_sampleTenant .flat) hops hdays rfl hrows
  refine ⟨_, hrows, hages.mpr ((hmarked [sampleDisbursement] rfl).mpr ?_), by decide +kernel⟩
  decide +kernel

/-- The day after, when a part of the late instalment was paid, the loan is reported with no days. -/
theorem portfolio_ageing_partPaid : ∃ rows, (sampleLoanBooks payPart (by decide +kernel)).Reports
      .loanPortfolio (LoanPortfolioService.materialize march2 march2) rows ∧
    rows.map (fun row => (row.loanId, row.status, row.daysInArrears, row.agingBucket)) =
      [(11, .inArrears, 0, .current)] ∧
    daysLate (sampleLoanBooks payPart (by decide +kernel)).tables march2 11 = 2 ∧
    ¬ (sampleLoanBooks payPart (by decide +kernel)).Ages march2 rows := by
  have hrows := (@reports_loanPortfolio (sampleLoanBooks payPart (by decide +kernel)) march2 march2
    _).mpr rfl
  have hlate : daysLate (sampleLoanBooks payPart (by decide +kernel)).tables march2 11 = 2 := by
    decide +kernel
  refine ⟨_, hrows, by decide +kernel, hlate, ?_⟩
  intro hages
  have hloans : ∀ loan ∈ (sampleLoanBooks payPart (by decide +kernel)).tables.loans,
      loan.id = 11 ∧ loan.Active := by decide +kernel
  have hone : (sampleLoanBooks payPart (by decide +kernel)).tables.loans ≠ [] := by decide +kernel
  obtain ⟨loan, hloan⟩ := List.exists_mem_of_ne_nil _ hone
  obtain ⟨hid, hactive⟩ := hloans loan hloan
  obtain ⟨row, hrow, hdays, -⟩ := hages loan hloan hactive
  rw [hid, hlate] at hdays
  have hnone : ∀ row ∈ (portfolioLoans (sampleLoanBooks payPart (by decide +kernel)).tables).map
      fun x => (sampleLoanBooks payPart (by decide +kernel)).portfolioRow march2 march2 x.1 x.2,
        row.daysInArrears = 0 := by decide +kernel
  have hmem : row ∈ (portfolioLoans (sampleLoanBooks payPart (by decide +kernel)).tables).map
      fun x => (sampleLoanBooks payPart (by decide +kernel)).portfolioRow march2 march2 x.1 x.2 := by
    apply List.mem_of_mem_filter (p := fun row => decide (row.loanId = loan.id))
    rw [hrow]
    exact List.mem_singleton_self row
  rw [hnone row hmem] at hdays
  exact absurd hdays (by decide)

end SaccoPlatform.Reporting
