import SaccoPlatform.Ledger.Balance
import SaccoPlatform.Lib.Grouping
import SaccoPlatform.Reporting.Materialize
import Mathlib.Algebra.Group.Submonoid.BigOperators

/-!
# Reports on the ledger

`TrialBalanceService` and `IncomeStatementService`
(`app/modules/reporting/services/trial_balance.py`, `income_statement.py`). Both sum the journal lines
of each account; an account without a line in question has no row. The sums are exact: `SUM` does not
round, and a total that the columns take has fewer digits than the decimal context.
-/

namespace SaccoPlatform.Reporting

open Lib Session

/-- The lines of the entries that were posted at an instant in question. -/
def Books.linesPosted (b : Books) (posted : Instant → Bool) : List JournalLine :=
  (b.tables.entries.filter fun e => posted (b.columns.entryPostedAt e.id)).flatMap (·.lines)

/-- A group of the query: an account and the sums over its lines. -/
structure AccountTotals where
  account : ChartOfAccount
  debitTotal : ℚ
  creditTotal : ℚ
deriving DecidableEq, Repr

/-- The accounts joined with the lines that were posted at an instant in question, grouped by
account and ordered by code. -/
def Books.accountTotals (b : Books) (which : ChartOfAccount → Bool) (posted : Instant → Bool) :
    List AccountTotals :=
  let lines := b.linesPosted posted
  ((b.tables.accounts.filter fun a => which a && lines.any (·.accountId = a.id)).map fun a =>
    { account := a
      debitTotal := sumWhere (·.accountId = a.id) (·.debitAmount.val) lines
      creditTotal := sumWhere (·.accountId = a.id) (·.creditAmount.val) lines }).insertionSort
    fun x y => x.account.code ≤ y.account.code

/-- The line of an account, when its figures fit the columns. -/
def Books.trialBalanceRow? (b : Books) (t : AccountTotals) : Option TrialBalanceRow := do
  let debitTotal ← Numeric.ofRat? t.debitTotal
  let creditTotal ← Numeric.ofRat? t.creditTotal
  let balance ← Numeric.ofRat? (t.debitTotal - t.creditTotal)
  pure {
    accountId := t.account.id
    accountCode := t.account.code
    accountName := b.columns.accountName t.account.id
    accountType := b.columns.accountType t.account.id
    debitTotal
    creditTotal
    balance }

def Books.incomeStatementRow? (b : Books) (t : AccountTotals) : Option IncomeStatementRow := do
  let debitTotal ← Numeric.ofRat? t.debitTotal
  let creditTotal ← Numeric.ofRat? t.creditTotal
  let netMovement ← Numeric.ofRat? (t.creditTotal - t.debitTotal)
  pure {
    accountId := t.account.id
    accountCode := t.account.code
    accountName := b.columns.accountName t.account.id
    accountType := b.columns.accountType t.account.id
    debitTotal
    creditTotal
    netMovement }

/-- `account_type.in_(["income", "expense"])`. -/
def Books.isIncomeOrExpense (b : Books) (a : ChartOfAccount) : Bool :=
  b.columns.accountType a.id = .income ∨ b.columns.accountType a.id = .expense

namespace TrialBalanceService

/-- The query of `materialize`. -/
def select (asOfDate : Date) : Session Books Err (List TrialBalanceRow) := do
  let dayEnd ← orRaise asOfDate.nextMidnight? .overflowError
  let b ← get
  orAbort ((b.accountTotals (fun _ => true) (· < dayEnd)).mapM b.trialBalanceRow?) .numericOverflow

def materialize (asOfDate : Date) : Session Db Err ReportRun :=
  Reporting.materialize .trialBalance asOfDate (select asOfDate)

/-- `get_trial_balance`. -/
def getTrialBalance (db : Db) (asOfDate : Option Date) :
    List (Option ReportRun × List (ReportLine .trialBalance)) :=
  db.reports.answers (newest (ofDate asOfDate (db.reports.doneRuns .trialBalance)))
    (fun _ => true) fun x y => x.row.accountCode ≤ y.row.accountCode

end TrialBalanceService

namespace IncomeStatementService

/-- The query of `materialize`. -/
def select (period : Period) : Session Books Err (List IncomeStatementRow) := do
  let dayEnd ← orRaise period.periodEnd.nextMidnight? .overflowError
  let b ← get
  orAbort ((b.accountTotals b.isIncomeOrExpense
    fun i => period.periodStart.midnight ≤ i ∧ i < dayEnd).mapM b.incomeStatementRow?) .numericOverflow

def materialize (periodStart periodEnd : Date) : Session Db Err ReportRun :=
  Reporting.materialize .incomeStatement ⟨periodStart, periodEnd⟩ (select ⟨periodStart, periodEnd⟩)

/-- `get_income_statement`. -/
def getIncomeStatement (db : Db) (periodEnd : Date) :
    List (Option ReportRun × List (ReportLine .incomeStatement)) :=
  db.reports.answers (newest (ofDate (some periodEnd) (db.reports.doneRuns .incomeStatement)))
    (fun _ => true) fun x y => x.row.accountCode ≤ y.row.accountCode

end IncomeStatementService

/-! ## The sums of an account -/

section

variable {b : Books}

/-- What the lines of an account add up to over the entries posted at an instant in question. -/
def Books.postedSum (b : Books) (posted : Instant → Bool) (f : JournalLine → ℚ) (accountId : Uuid) : ℚ :=
  sumWhere (·.accountId = accountId) f (b.linesPosted posted)

theorem postedSum_eq (posted : Instant → Bool) (f : JournalLine → ℚ) (accountId : Uuid) :
    b.postedSum posted f accountId = sumWhere (fun e => posted (b.columns.entryPostedAt e.id))
      (fun e => sumWhere (·.accountId = accountId) f e.lines) b.tables.entries :=
  sumWhere_flatMap _ _ _ _

/-- A span of time in two parts that no instant belongs to both of. -/
theorem postedSum_split {whole first second : Instant → Bool} (f : JournalLine → ℚ) (accountId : Uuid)
    (hwhole : ∀ i, whole i = (first i || second i))
    (hdisjoint : ∀ i, ¬ (first i = true ∧ second i = true)) :
    b.postedSum whole f accountId =
      b.postedSum first f accountId + b.postedSum second f accountId := by
  rw [postedSum_eq, postedSum_eq, postedSum_eq]
  exact sumWhere_split _ (fun _ _ => hwhole _) fun _ _ => hdisjoint _

theorem postedSum_sub (posted : Instant → Bool) (f g : JournalLine → ℚ) (accountId : Uuid) :
    b.postedSum posted (fun l => f l - g l) accountId =
      b.postedSum posted f accountId - b.postedSum posted g accountId := by
  have hadd : b.postedSum posted (fun l => f l - g l + g l) accountId =
      b.postedSum posted (fun l => f l - g l) accountId + b.postedSum posted g accountId :=
    List.sum_map_add
  simp only [sub_add_cancel] at hadd
  exact eq_sub_of_add_eq hadd.symm

theorem postedSum_mem_grid (posted : Instant → Bool) {f : JournalLine → ℚ} (hf : ∀ l, f l ∈ grid 4)
    (accountId : Uuid) : b.postedSum posted f accountId ∈ grid 4 := by
  apply list_sum_mem
  intro q hq
  obtain ⟨l, -, rfl⟩ := List.mem_map.mp hq
  exact hf l

/-- The group of an account, if any of its lines is in question. -/
def Books.totalsOf (b : Books) (posted : Instant → Bool) (a : ChartOfAccount) : AccountTotals where
  account := a
  debitTotal := b.postedSum posted (·.debitAmount.val) a.id
  creditTotal := b.postedSum posted (·.creditAmount.val) a.id

theorem accountTotals_perm (which : ChartOfAccount → Bool) (posted : Instant → Bool) :
    (b.accountTotals which posted).Perm
      ((b.tables.accounts.filter fun a =>
        which a && (b.linesPosted posted).any (·.accountId = a.id)).map (b.totalsOf posted)) :=
  List.perm_insertionSort _ _

/-- An account without a line in question has nothing to sum. -/
theorem totalsOf_of_none {posted : Instant → Bool} {a : ChartOfAccount}
    (h : (b.linesPosted posted).any (·.accountId = a.id) = false) :
    b.totalsOf posted a = ⟨a, 0, 0⟩ := by
  have hnone : (b.linesPosted posted).filter (·.accountId = a.id) = [] := by
    rw [List.filter_eq_nil_iff]
    intro l hl heq
    rw [List.any_eq_false] at h
    exact h l hl heq
  simp [Books.totalsOf, Books.postedSum, sumWhere, hnone]

/-- A figure that is zero for empty sums, over the groups of some accounts: the accounts without a
group may be counted in. -/
theorem sumWhere_accountTotals (which : ChartOfAccount → Bool) (posted : Instant → Bool)
    (p : Uuid → Bool) {f : AccountTotals → ℚ} (hzero : ∀ a, f ⟨a, 0, 0⟩ = 0) :
    sumWhere (fun t => p t.account.id) f (b.accountTotals which posted) =
      sumWhere (fun a => p a.id && which a) (fun a => f (b.totalsOf posted a)) b.tables.accounts := by
  let any (a : ChartOfAccount) : Bool := (b.linesPosted posted).any (·.accountId = a.id)
  rw [sumWhere_perm _ _ (accountTotals_perm which posted), sumWhere_map, sumWhere_filter]
  calc sumWhere (fun a => p a.id && (which a && any a)) (fun a => f (b.totalsOf posted a)) b.tables.accounts
    _ = sumWhere any (fun a => f (b.totalsOf posted a))
          (b.tables.accounts.filter fun a => p a.id && which a) := by
        rw [sumWhere_filter]
        apply sumWhere_congr
        intro a _
        cases p a.id <;> cases which a <;> cases any a <;> rfl
    _ = ((b.tables.accounts.filter fun a => p a.id && which a).map
          fun a => f (b.totalsOf posted a)).sum := by
        apply sumWhere_eq_sum
        intro a _ hnone
        rw [totalsOf_of_none hnone, hzero]

/-- The figure of an account that the report is about. -/
theorem figure_accountTotals {which : ChartOfAccount → Bool} (posted : Instant → Bool)
    {f : AccountTotals → ℚ} (hzero : ∀ a, f ⟨a, 0, 0⟩ = 0) {a : ChartOfAccount}
    (ha : a ∈ b.tables.accounts) (hwhich : which a = true) :
    sumWhere (fun t => t.account.id = a.id) f (b.accountTotals which posted) =
      f (b.totalsOf posted a) := by
  rw [sumWhere_accountTotals which posted (fun id => id = a.id) hzero]
  rw [← sumWhere_key b.accounts_pkey ha fun a => f (b.totalsOf posted a)]
  apply sumWhere_congr
  intro a' ha'
  by_cases heq : a'.id = a.id
  · rw [List.inj_on_of_nodup_map b.accounts_pkey ha' ha heq, hwhich, Bool.and_true]
  · simp [heq]

/-- The figure of an account that the report leaves out. -/
theorem figure_accountTotals_of_not {which : ChartOfAccount → Bool} (posted : Instant → Bool)
    {f : AccountTotals → ℚ} (hzero : ∀ a, f ⟨a, 0, 0⟩ = 0) {a : ChartOfAccount}
    (ha : a ∈ b.tables.accounts) (hwhich : which a = false) :
    sumWhere (fun t => t.account.id = a.id) f (b.accountTotals which posted) = 0 := by
  rw [sumWhere_accountTotals which posted (fun id => id = a.id) hzero]
  have hnone : b.tables.accounts.filter (fun a' => decide (a'.id = a.id) && which a') = [] := by
    rw [List.filter_eq_nil_iff]
    intro a' ha' hmem
    rw [Bool.and_eq_true, decide_eq_true_eq] at hmem
    rw [List.inj_on_of_nodup_map b.accounts_pkey ha' ha hmem.1, hwhich] at hmem
    cases hmem.2
  unfold sumWhere
  rw [hnone]
  rfl

/-- Over all accounts the groups leave out no line. -/
theorem sum_accountTotals (posted : Instant → Bool) (f : JournalLine → ℚ) :
    sumWhere (fun _ => true) (fun a => b.postedSum posted f a.id) b.tables.accounts =
      ((b.linesPosted posted).map f).sum := by
  have hcover : ∀ l ∈ b.linesPosted posted, l.accountId ∈ b.tables.accounts.map (·.id) := by
    intro l hl
    obtain ⟨e, he, hl⟩ := List.mem_flatMap.mp hl
    exact b.fk_jl_account e (List.mem_filter.mp he).1 l hl
  rw [← sum_groups (·.accountId) f b.accounts_pkey hcover, List.map_map, sumWhere, List.filter_true]
  rfl

/-! ## The columns -/

theorem totalsOf_mem_grid {which : ChartOfAccount → Bool} {posted : Instant → Bool} {t : AccountTotals}
    (ht : t ∈ b.accountTotals which posted) : t.debitTotal ∈ grid 4 ∧ t.creditTotal ∈ grid 4 := by
  obtain ⟨a, -, rfl⟩ := List.mem_map.mp ((accountTotals_perm which posted).mem_iff.mp ht)
  exact ⟨postedSum_mem_grid _ (fun l => l.debitAmount.onGrid) _,
    postedSum_mem_grid _ (fun l => l.creditAmount.onGrid) _⟩

/-- A line of the trial balance states the sums as they are. -/
theorem trialBalanceRow?_eq_some {t : AccountTotals} {row : TrialBalanceRow}
    (hdebit : t.debitTotal ∈ grid 4) (hcredit : t.creditTotal ∈ grid 4)
    (h : b.trialBalanceRow? t = some row) :
    row.accountId = t.account.id ∧ row.debitTotal.val = t.debitTotal ∧
      row.creditTotal.val = t.creditTotal ∧ row.balance.val = t.debitTotal - t.creditTotal := by
  simp only [Books.trialBalanceRow?, Option.bind_eq_bind, Option.bind_eq_some_iff, Option.pure_def,
    Option.some.injEq] at h
  obtain ⟨debitTotal, hd, creditTotal, hc, balance, hb, rfl⟩ := h
  exact ⟨rfl, Numeric.val_of_ofRat?_mem hdebit hd, Numeric.val_of_ofRat?_mem hcredit hc,
    Numeric.val_of_ofRat?_mem (sub_mem hdebit hcredit) hb⟩

theorem incomeStatementRow?_eq_some {t : AccountTotals} {row : IncomeStatementRow}
    (hdebit : t.debitTotal ∈ grid 4) (hcredit : t.creditTotal ∈ grid 4)
    (h : b.incomeStatementRow? t = some row) :
    row.accountId = t.account.id ∧ row.netMovement.val = t.creditTotal - t.debitTotal := by
  simp only [Books.incomeStatementRow?, Option.bind_eq_bind, Option.bind_eq_some_iff, Option.pure_def,
    Option.some.injEq] at h
  obtain ⟨debitTotal, hd, creditTotal, hc, netMovement, hn, rfl⟩ := h
  exact ⟨rfl, Numeric.val_of_ofRat?_mem (sub_mem hcredit hdebit) hn⟩

/-- What is summed over the groups is summed over their lines. -/
theorem sumWhere_rows {α : Type} {convert : AccountTotals → Option α} {totals : List AccountTotals}
    {rows : List α} (h : totals.mapM convert = some rows) {p : AccountTotals → Bool} {p' : α → Bool}
    {f : AccountTotals → ℚ} {f' : α → ℚ}
    (hrow : ∀ t ∈ totals, ∀ row, convert t = some row → p' row = p t ∧ f' row = f t) :
    sumWhere p' f' rows = sumWhere p f totals := by
  rw [mapM_eq_some] at h
  induction h with
  | nil => rfl
  | @cons t row totals rows hone _ ih =>
    have ih := ih fun t' ht' => hrow t' (List.mem_cons_of_mem _ ht')
    obtain ⟨hp, hf⟩ := hrow t List.mem_cons_self row hone
    rw [sumWhere_cons, sumWhere_cons, ih, hp, hf]

end

end SaccoPlatform.Reporting
