import SaccoPlatform.Reporting.Ledger

/-!
# Coherence of the ledger reports

The trial balance and the income statement are two queries over the same lines, with the opposite
sign and with one and two bounds in time. Both turn their dates into the same midnights, so the spans
they sum over fit together without a gap and without an overlap.
-/

namespace SaccoPlatform.Reporting

open Lib Session

/-- A successful call on the books wrote these rows, whatever reports were stored before. -/
def Books.Reports (b : Books) (r : ReportType) (call : Session Db Err ReportRun) (rows : List r.Row) :
    Prop :=
  ∃ db run db', db.books = b ∧ db.reports.Consistent ∧ call db = .ok run db' ∧
    (db'.reports.linesOf r run.id).map (·.row) = rows

/-- The balance that a trial balance states for an account, zero for one that it leaves out. -/
def balanceOf (rows : List TrialBalanceRow) (accountId : Uuid) : ℚ :=
  sumWhere (·.accountId = accountId) (·.balance.val) rows

/-- The net movement that an income statement states for an account, zero for one that it leaves
out. -/
def netMovementOf (rows : List IncomeStatementRow) (accountId : Uuid) : ℚ :=
  sumWhere (·.accountId = accountId) (·.netMovement.val) rows

section

variable {b : Books}

/-- The rows are those of the query. -/
theorem reports_iff {r : ReportType} {key : r.Key} {select : Session Books Err (List r.Row)}
    {rows : List r.Row} :
    b.Reports r (materialize r key select) rows ↔ ∃ b', select b = .ok rows b' := by
  constructor
  · rintro ⟨db, run, db', rfl, hconsistent, hok, hrows⟩
    obtain ⟨rows', b', hselect, rfl, rfl⟩ := materialize_eq_ok.mp hok
    rw [linesOf_materialized_new hconsistent, List.map_map] at hrows
    have hsame : rows' = rows := by
      rw [← hrows]
      exact (List.map_id rows').symm
    exact ⟨b', hsame ▸ hselect⟩
  · rintro ⟨b', hselect⟩
    refine ⟨⟨b, Reports.empty⟩, _, _, rfl, consistent_empty,
      materialize_eq_ok.mpr ⟨rows, b', hselect, rfl, rfl⟩, ?_⟩
    show (Reports.linesOf _ r Reports.empty.nextId).map _ = rows
    rw [linesOf_materialized_new consistent_empty, List.map_map]
    exact List.map_id rows

theorem reports_trialBalance {asOfDate : Date} {rows : List TrialBalanceRow} :
    b.Reports .trialBalance (TrialBalanceService.materialize asOfDate) rows ↔
      asOfDate.ordinal < maxOrdinal ∧ (b.accountTotals (fun _ => true)
        (· < asOfDate.midnight + microsPerDay)).mapM b.trialBalanceRow? = some rows := by
  refine reports_iff.trans ?_
  simp only [TrialBalanceService.select, orRaise_bind_eq_ok, get_bind_eq_ok, orAbort_eq_ok,
    Date.nextMidnight?_eq_some]
  constructor
  · rintro ⟨b', _, ⟨hlast, rfl⟩, hrows, -⟩
    exact ⟨hlast, hrows⟩
  · rintro ⟨hlast, hrows⟩
    exact ⟨b, _, ⟨hlast, rfl⟩, hrows, rfl⟩

theorem reports_incomeStatement {periodStart periodEnd : Date} {rows : List IncomeStatementRow} :
    b.Reports .incomeStatement (IncomeStatementService.materialize periodStart periodEnd) rows ↔
      periodEnd.ordinal < maxOrdinal ∧ (b.accountTotals b.isIncomeOrExpense
        fun i => periodStart.midnight ≤ i ∧ i < periodEnd.midnight + microsPerDay).mapM
          b.incomeStatementRow? = some rows := by
  refine reports_iff.trans ?_
  simp only [IncomeStatementService.select, orRaise_bind_eq_ok, get_bind_eq_ok, orAbort_eq_ok,
    Date.nextMidnight?_eq_some]
  constructor
  · rintro ⟨b', _, ⟨hlast, rfl⟩, hrows, -⟩
    exact ⟨hlast, hrows⟩
  · rintro ⟨hlast, hrows⟩
    exact ⟨b, _, ⟨hlast, rfl⟩, hrows, rfl⟩

/-! ## The figures of an account -/

variable {d d₁ d₂ d₃ e₁ e₂ : Date} {a : ChartOfAccount}

/-- The balance of an account: what was debited less what was credited until the end of the day. -/
theorem balanceOf_eq {rows : List TrialBalanceRow}
    (h : b.Reports .trialBalance (TrialBalanceService.materialize d) rows)
    (ha : a ∈ b.tables.accounts) :
    balanceOf rows a.id = b.postedSum (· < d.midnight + microsPerDay)
      (fun l => l.debitAmount.val - l.creditAmount.val) a.id := by
  obtain ⟨-, hrows⟩ := reports_trialBalance.mp h
  rw [postedSum_sub]
  have hfigure := @figure_accountTotals b (fun _ => true) (· < d.midnight + microsPerDay)
    (fun t => t.debitTotal - t.creditTotal) (fun _ => sub_zero 0) a ha rfl
  refine Eq.trans ?_ hfigure
  refine sumWhere_rows hrows ?_
  intro t ht row hrow
  obtain ⟨hdebit, hcredit⟩ := totalsOf_mem_grid ht
  obtain ⟨hid, -, -, hbalance⟩ := trialBalanceRow?_eq_some hdebit hcredit hrow
  rw [hid, hbalance]
  exact ⟨rfl, rfl⟩

/-- The net movement of an account: what was credited less what was debited in the period, for the
accounts that the statement is about. -/
theorem netMovementOf_eq {rows : List IncomeStatementRow}
    (h : b.Reports .incomeStatement (IncomeStatementService.materialize d₁ d₂) rows)
    (ha : a ∈ b.tables.accounts) :
    netMovementOf rows a.id = if b.isIncomeOrExpense a then
      - b.postedSum (fun i => d₁.midnight ≤ i ∧ i < d₂.midnight + microsPerDay)
        (fun l => l.debitAmount.val - l.creditAmount.val) a.id else 0 := by
  obtain ⟨-, hrows⟩ := reports_incomeStatement.mp h
  have hzero : ∀ a : ChartOfAccount, (⟨a, 0, 0⟩ : AccountTotals).creditTotal - 0 = 0 :=
    fun _ => sub_zero 0
  have htotals : netMovementOf rows a.id = sumWhere (fun t => t.account.id = a.id)
      (fun t => t.creditTotal - t.debitTotal) (b.accountTotals b.isIncomeOrExpense
        fun i => d₁.midnight ≤ i ∧ i < d₂.midnight + microsPerDay) := by
    refine sumWhere_rows hrows ?_
    intro t ht row hrow
    obtain ⟨hdebit, hcredit⟩ := totalsOf_mem_grid ht
    obtain ⟨hid, hnet⟩ := incomeStatementRow?_eq_some hdebit hcredit hrow
    rw [hid, hnet]
    exact ⟨rfl, rfl⟩
  rw [htotals]
  split
  · rename_i hwhich
    rw [figure_accountTotals _ hzero ha hwhich, postedSum_sub, neg_sub]
    rfl
  · rename_i hwhich
    exact figure_accountTotals_of_not _ hzero ha (by simpa using hwhich)

/-! ## How the figures fit together -/

/-- A column of the trial balance adds up to what the lines posted until the end of the day add up
to. -/
theorem sum_trialBalance {rows : List TrialBalanceRow}
    (h : b.Reports .trialBalance (TrialBalanceService.materialize d) rows) {column : TrialBalanceRow → ℚ}
    {total : AccountTotals → ℚ} {amount : JournalLine → ℚ}
    (hrow : ∀ t row, t.debitTotal ∈ grid 4 → t.creditTotal ∈ grid 4 →
      b.trialBalanceRow? t = some row → column row = total t)
    (hzero : ∀ a, total ⟨a, 0, 0⟩ = 0)
    (htotal : ∀ posted a, total (b.totalsOf posted a) = b.postedSum posted amount a.id) :
    (rows.map column).sum =
      ((b.linesPosted (· < d.midnight + microsPerDay)).map amount).sum := by
  obtain ⟨-, hrows⟩ := reports_trialBalance.mp h
  have hall : (rows.map column).sum = sumWhere (fun _ => true) column rows := by
    rw [sumWhere, List.filter_true]
  have htotals : sumWhere (fun _ => true) column rows = sumWhere (fun _ => true) total
      (b.accountTotals (fun _ => true) (· < d.midnight + microsPerDay)) := by
    refine sumWhere_rows hrows ?_
    intro t ht row hone
    obtain ⟨hdebit, hcredit⟩ := totalsOf_mem_grid ht
    exact ⟨rfl, hrow t row hdebit hcredit hone⟩
  rw [hall, htotals, sumWhere_accountTotals _ _ (fun _ => true) hzero, ← sum_accountTotals]
  simp only [htotal]
  rfl

/-- The lines of balanced entries balance. -/
theorem linesPosted_balanced (hbalanced : ∀ e ∈ b.tables.entries, e.Balanced) (posted : Instant → Bool) :
    ((b.linesPosted posted).map (·.debitAmount.val)).sum =
      ((b.linesPosted posted).map (·.creditAmount.val)).sum := by
  have hentries : ∀ es : List JournalEntry, (∀ e ∈ es, e.Balanced) →
      ((es.flatMap (·.lines)).map (·.debitAmount.val)).sum =
        ((es.flatMap (·.lines)).map (·.creditAmount.val)).sum := by
    intro es hes
    induction es with
    | nil => rfl
    | cons e es ih =>
      have hhead : e.debits = e.credits := hes e List.mem_cons_self
      have htail := ih fun e' he' => hes e' (List.mem_cons_of_mem _ he')
      simp only [List.flatMap_cons, List.map_append, List.sum_append]
      rw [htail]
      exact congrArg (· + _) hhead
  exact hentries _ fun e he => hbalanced e (List.mem_filter.mp he).1

/-- Debits and credits of the trial balance add up to the same. -/
theorem trialBalance_balanced {rows : List TrialBalanceRow}
    (hbalanced : ∀ e ∈ b.tables.entries, e.Balanced)
    (h : b.Reports .trialBalance (TrialBalanceService.materialize d) rows) :
    (rows.map (·.debitTotal.val)).sum = (rows.map (·.creditTotal.val)).sum := by
  have hdebits : (rows.map (·.debitTotal.val)).sum =
      ((b.linesPosted (· < d.midnight + microsPerDay)).map (·.debitAmount.val)).sum := by
    refine @sum_trialBalance b d rows h _ (·.debitTotal) _ ?_ (fun _ => rfl) fun _ _ => rfl
    intro t row hdebit hcredit hone
    exact (trialBalanceRow?_eq_some hdebit hcredit hone).2.1
  have hcredits : (rows.map (·.creditTotal.val)).sum =
      ((b.linesPosted (· < d.midnight + microsPerDay)).map (·.creditAmount.val)).sum := by
    refine @sum_trialBalance b d rows h _ (·.creditTotal) _ ?_ (fun _ => rfl) fun _ _ => rfl
    intro t row hdebit hcredit hone
    exact (trialBalanceRow?_eq_some hdebit hcredit hone).2.2.1
  rw [hdebits, hcredits, linesPosted_balanced hbalanced]

/-- What was posted until the end of a later day was posted until the end of the earlier one or from
the day after it on. -/
theorem postedSum_until (hlt : d₁ < d₂) (hnext : d₁.addDays? 1 = some e₁) (f : JournalLine → ℚ)
    (accountId : Uuid) :
    b.postedSum (· < d₂.midnight + microsPerDay) f accountId =
      b.postedSum (· < d₁.midnight + microsPerDay) f accountId +
        b.postedSum (fun i => e₁.midnight ≤ i ∧ i < d₂.midnight + microsPerDay) f accountId := by
  have hstart := Date.midnight_succ hnext
  have hends := Date.midnight_of_lt hlt
  apply postedSum_split
  · intro i
    by_cases hfirst : i < d₁.midnight + microsPerDay
    · have hday : 0 < microsPerDay := by decide
      have hsecond : i < d₂.midnight + microsPerDay := by linarith
      simp [hfirst, hsecond]
    · have hlater : e₁.midnight ≤ i := by
        rw [hstart]
        exact not_lt.mp hfirst
      simp [hfirst, hlater]
  · rintro i ⟨hfirst, hsecond⟩
    rw [decide_eq_true_eq] at hfirst hsecond
    have hlater := hsecond.1
    linarith

/-- A period followed by another one. -/
theorem postedSum_periods (hlt : d₁ < d₂) (hlt' : d₂ < d₃) (hnext : d₁.addDays? 1 = some e₁)
    (hnext' : d₂.addDays? 1 = some e₂) (f : JournalLine → ℚ) (accountId : Uuid) :
    b.postedSum (fun i => e₁.midnight ≤ i ∧ i < d₃.midnight + microsPerDay) f accountId =
      b.postedSum (fun i => e₁.midnight ≤ i ∧ i < d₂.midnight + microsPerDay) f accountId +
        b.postedSum (fun i => e₂.midnight ≤ i ∧ i < d₃.midnight + microsPerDay) f accountId := by
  have hfirst := postedSum_until (b := b) hlt hnext f accountId
  have hsecond := postedSum_until (b := b) hlt' hnext' f accountId
  have hlt'' : d₁ < d₃ := Nat.lt_trans hlt hlt'
  have hwhole := postedSum_until (b := b) hlt'' hnext f accountId
  linarith

end

/-- The trial balances and income statements of balanced books fit together: a trial balance
balances, the balance of an income or expense account changes by minus its net movement, and the net
movements of consecutive periods add up. -/
theorem reports_coherent {b : Books} (hbalanced : ∀ e ∈ b.tables.entries, e.Balanced) :
    (∀ d rows, b.Reports .trialBalance (TrialBalanceService.materialize d) rows →
      (rows.map (·.debitTotal.val)).sum = (rows.map (·.creditTotal.val)).sum) ∧
    (∀ (d₁ d₂ e₁ : Date), d₁ < d₂ → d₁.addDays? 1 = some e₁ → ∀ before after movements,
      b.Reports .trialBalance (TrialBalanceService.materialize d₁) before →
      b.Reports .trialBalance (TrialBalanceService.materialize d₂) after →
      b.Reports .incomeStatement (IncomeStatementService.materialize e₁ d₂) movements →
      ∀ a ∈ b.tables.accounts, b.isIncomeOrExpense a = true →
        balanceOf after a.id - balanceOf before a.id = - netMovementOf movements a.id) ∧
    (∀ (d₁ d₂ d₃ e₁ e₂ : Date), d₁ < d₂ → d₂ < d₃ → d₁.addDays? 1 = some e₁ → d₂.addDays? 1 = some e₂ →
      ∀ whole first second,
      b.Reports .incomeStatement (IncomeStatementService.materialize e₁ d₃) whole →
      b.Reports .incomeStatement (IncomeStatementService.materialize e₁ d₂) first →
      b.Reports .incomeStatement (IncomeStatementService.materialize e₂ d₃) second →
      ∀ a ∈ b.tables.accounts,
        netMovementOf whole a.id = netMovementOf first a.id + netMovementOf second a.id) := by
  refine ⟨fun d rows h => trialBalance_balanced hbalanced h, ?_, ?_⟩
  · intro d₁ d₂ e₁ hlt hnext before after movements hbefore hafter hmovements a ha hwhich
    rw [balanceOf_eq hbefore ha, balanceOf_eq hafter ha, netMovementOf_eq hmovements ha, if_pos hwhich,
      postedSum_until hlt hnext]
    ring
  · intro d₁ d₂ d₃ e₁ e₂ hlt hlt' hnext hnext' whole first second hwhole hfirst hsecond a ha
    rw [netMovementOf_eq hwhole ha, netMovementOf_eq hfirst ha, netMovementOf_eq hsecond ha]
    split
    · rw [postedSum_periods hlt hlt' hnext hnext']
      ring
    · ring

/-- 31 January 2026 and the two days after it. -/
def january31 : Date := .ofOrdinal 739647
def february1 : Date := .ofOrdinal 739648
def february2 : Date := ⟨739649, by decide⟩

/-- A fee that is paid in cash. -/
def cashFee (id : Uuid) (fee : ℚ) : JournalEntry where
  id := id
  reference := "FEE"
  description := "Membership fee"
  postedBy := 9
  idempotencyKey := toString id
  lines :=
    [⟨1, (Numeric.ofRat? fee).getD 0, 0, none, none, none⟩, ⟨2, 0, (Numeric.ofRat? fee).getD 0, none, none, none⟩]

/-- Fees around the end of January: one in its last microsecond, and one a microsecond later. -/
def feeBooks : Books where
  tables := { Tables.empty with
    accounts := [⟨1, "1000"⟩, ⟨2, "4000"⟩], entries := [cashFee 1 100, cashFee 2 250] }
  columns := { ReportColumns.blank with
    accountType := fun id => if id = 2 then .income else .asset
    entryPostedAt := fun id => if id = 1 then february1.midnight - 1 else february1.midnight }
  accounts_pkey := by decide
  fk_jl_account := by decide +kernel
  loans_pkey := List.nodup_nil
  loan_products_pkey := List.nodup_nil
  fk_ln_product _ hl := absurd hl List.not_mem_nil
  savings_accounts_pkey := List.nodup_nil
  savings_transactions_pkey := List.nodup_nil
  fk_savtx_account := nofun

/-- The figures of the fees around the end of January. -/
theorem reports_coherent_feeBooks : ∃ before after whole first second,
    feeBooks.Reports .trialBalance (TrialBalanceService.materialize january31) before ∧
    feeBooks.Reports .trialBalance (TrialBalanceService.materialize february1) after ∧
    feeBooks.Reports .incomeStatement (IncomeStatementService.materialize february1 february2) whole ∧
    feeBooks.Reports .incomeStatement (IncomeStatementService.materialize february1 february1) first ∧
    feeBooks.Reports .incomeStatement (IncomeStatementService.materialize february2 february2) second ∧
    (after.map (·.debitTotal.val)).sum = (after.map (·.creditTotal.val)).sum ∧
    balanceOf after 2 - balanceOf before 2 = - netMovementOf first 2 ∧
    netMovementOf whole 2 = netMovementOf first 2 + netMovementOf second 2 := by
  obtain ⟨hsums, hdifference, hperiods⟩ := @reports_coherent feeBooks (by decide +kernel)
  have hbooks : ∀ d ∈ [january31, february1], ∃ rows,
      feeBooks.Reports .trialBalance (TrialBalanceService.materialize d) rows := by
    intro d hd
    have hfits : d.ordinal < maxOrdinal ∧ ((feeBooks.accountTotals (fun _ => true)
        (· < d.midnight + microsPerDay)).mapM feeBooks.trialBalanceRow?).isSome := by
      revert d
      decide +kernel
    obtain ⟨rows, hrows⟩ := Option.isSome_iff_exists.mp hfits.2
    exact ⟨rows, reports_trialBalance.mpr ⟨hfits.1, hrows⟩⟩
  have hperiod : ∀ p ∈ [(february1, february2), (february1, february1), (february2, february2)], ∃ rows,
      feeBooks.Reports .incomeStatement (IncomeStatementService.materialize p.1 p.2) rows := by
    intro p hp
    have hfits : p.2.ordinal < maxOrdinal ∧ ((feeBooks.accountTotals feeBooks.isIncomeOrExpense
        fun i => p.1.midnight ≤ i ∧ i < p.2.midnight + microsPerDay).mapM
          feeBooks.incomeStatementRow?).isSome := by
      revert p
      decide +kernel
    obtain ⟨rows, hrows⟩ := Option.isSome_iff_exists.mp hfits.2
    exact ⟨rows, reports_incomeStatement.mpr ⟨hfits.1, hrows⟩⟩
  obtain ⟨before, hbefore⟩ := hbooks january31 (by simp)
  obtain ⟨after, hafter⟩ := hbooks february1 (by simp)
  obtain ⟨whole, hwhole⟩ := hperiod (february1, february2) (by simp)
  obtain ⟨first, hfirst⟩ := hperiod (february1, february1) (by simp)
  obtain ⟨second, hsecond⟩ := hperiod (february2, february2) (by simp)
  have hincome : (⟨2, "4000"⟩ : ChartOfAccount) ∈ feeBooks.tables.accounts := by decide
  refine ⟨before, after, whole, first, second, hbefore, hafter, hwhole, hfirst, hsecond,
    hsums _ _ hafter, ?_, ?_⟩
  · exact hdifference january31 february1 february1 (by decide) (by decide) before after first hbefore
      hafter hfirst _ hincome (by decide)
  · exact hperiods january31 february1 february2 february1 february2 (by decide) (by decide) (by decide)
      (by decide) whole first second hwhole hfirst hsecond _ hincome

end SaccoPlatform.Reporting
