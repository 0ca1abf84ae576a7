import SaccoPlatform.Lib.Returns
import SaccoPlatform.Lib.Runs
import SaccoPlatform.Reporting.Coherence
import SaccoPlatform.Reporting.LoanPortfolio
import SaccoPlatform.Reporting.SavingsStatement

/-!
# The latest materialisation

A getter picks any `done` run of the date. A materialisation clears the lines that earlier runs wrote
under its own key, and leaves these runs `done`: from the second one for a date on, the getter may
answer with a run that has no lines left, or, where the key is a period, with the lines of another
period that ends on the same day.
-/

namespace SaccoPlatform.Reporting

open Lib Session

/-- The tables, and for each report and date the lines that the last materialisation wrote. -/
structure Observed where
  db : Db
  latest : (r : ReportType) → Date → Option (List (ReportLine r))

/-- Books of which no report was made yet. -/
def Observed.start (books : Books) : Observed := ⟨⟨books, Reports.empty⟩, fun _ _ => none⟩

/-- What a committed call leaves: a call that fails is rolled back. -/
def Observed.after (o : Observed) (r : ReportType) (date : Date) (call : Session Db Err ReportRun) :
    Observed :=
  match call o.db with
  | .ok run db =>
    { db
      latest := Function.update o.latest r
        (Function.update (o.latest r) date (some (db.reports.linesOf r run.id))) }
  | .raised _ _ => o
  | .aborted _ => o

/-- A materialisation, or a change of the tables behind the reports. -/
inductive ReportOp where
  | trialBalance (asOfDate : Date)
  | loanPortfolio (asOfDate today : Date)
  | incomeStatement (periodStart periodEnd : Date)
  | savingsStatement (periodStart periodEnd : Date)
  | write (books : Books)

namespace ReportOp

def step (o : Observed) : ReportOp → Observed
  | trialBalance d => o.after .trialBalance d (TrialBalanceService.materialize d)
  | loanPortfolio d today => o.after .loanPortfolio d (LoanPortfolioService.materialize d today)
  | incomeStatement d d' => o.after .incomeStatement d' (IncomeStatementService.materialize d d')
  | savingsStatement d d' => o.after .savingsStatement d' (SavingsStatementService.materialize d d')
  | write books => { o with db := { o.db with books } }

/-- The call returns. -/
def Succeeds (o : Observed) : ReportOp → Prop
  | trialBalance d => Returns (TrialBalanceService.materialize d) o.db
  | loanPortfolio d today => Returns (LoanPortfolioService.materialize d today) o.db
  | incomeStatement d d' => Returns (IncomeStatementService.materialize d d') o.db
  | savingsStatement d d' => Returns (SavingsStatementService.materialize d d') o.db
  | write _ => True

instance (o : Observed) (op : ReportOp) : Decidable (op.Succeeds o) := by
  unfold Succeeds
  split <;> infer_instance

end ReportOp

/-- Every getter answers for a date with the lines that the last materialisation for it wrote,
whichever run the database picks. -/
def LatestWins (o : Observed) : Prop :=
  (∀ d lines, o.latest .trialBalance d = some lines →
    ∀ answer ∈ TrialBalanceService.getTrialBalance o.db (some d), answer.2.Perm lines) ∧
  (∀ d lines, o.latest .loanPortfolio d = some lines →
    ∀ status, ∀ answer ∈ LoanPortfolioService.getLoanPortfolio o.db (some d) status,
      answer.2.Perm (lines.filter (LoanPortfolioService.shown status))) ∧
  (∀ d lines, o.latest .incomeStatement d = some lines →
    ∀ answer ∈ IncomeStatementService.getIncomeStatement o.db d, answer.2.Perm lines)

/-- No run of the report for the date is stored as done. -/
def Reports.Unreported (s : Reports) (r : ReportType) (date : Date) : Prop :=
  ∀ run ∈ s.doneRuns r, run.asOfDate ≠ date

/-- The date is reported for the first time, or there is nothing to report and nothing stored that
could be taken for it. -/
def ReportOp.First (o : Observed) : ReportOp → Prop
  | trialBalance d => o.db.reports.Unreported .trialBalance d ∨
      o.db.books.linesPosted (· < d.midnight + microsPerDay) = []
  | loanPortfolio d _ => o.db.reports.Unreported .loanPortfolio d ∨
      ∀ loan ∈ o.db.books.tables.loans, loan.status = .disbursing
  | incomeStatement d d' => o.db.reports.Unreported .incomeStatement d' ∨
      ((∀ l ∈ o.db.books.linesPosted (fun i => d.midnight ≤ i ∧ i < d'.midnight + microsPerDay),
        ∀ a ∈ o.db.books.tables.accounts, a.id = l.accountId → o.db.books.isIncomeOrExpense a = false) ∧
      ∀ line ∈ o.db.reports.lines .incomeStatement, line.key.periodEnd = d' → line.key.periodStart = d)
  | savingsStatement _ _ => True
  | write _ => True

instance (s : Reports) (r : ReportType) (date : Date) : Decidable (s.Unreported r date) :=
  inferInstanceAs (Decidable (∀ run ∈ s.doneRuns r, run.asOfDate ≠ date))

instance (o : Observed) (op : ReportOp) : Decidable (op.First o) := by
  unfold ReportOp.First
  split <;> infer_instance

/-! ## One report -/

/-- Whichever run of a date is picked, its lines are those of the last materialisation. -/
def Observed.Wins (o : Observed) (r : ReportType) : Prop :=
  ∀ d lines, o.latest r d = some lines →
    ∀ run ∈ o.db.reports.doneRuns r, run.asOfDate = d → (o.db.reports.linesOf r run.id).Perm lines

/-- The stored runs are done, and a date that was materialised has one. -/
structure Observed.Stored (o : Observed) : Prop where
  consistent : o.db.reports.Consistent
  done : ∀ run ∈ o.db.reports.runs, run.status = .done
  recorded : ∀ r d lines, o.latest r d = some lines →
    ∃ run ∈ o.db.reports.doneRuns r, run.asOfDate = d

theorem stored_start (books : Books) : (Observed.start books).Stored where
  consistent := consistent_empty
  done _ hrun := absurd hrun List.not_mem_nil
  recorded _ _ _ h := absurd h (by simp [Observed.start])

section

variable {o : Observed} {r r' : ReportType} {key : r.Key}

theorem mem_doneRuns {s : Reports} {run : ReportRun} :
    run ∈ s.doneRuns r ↔ run ∈ s.runs ∧ run.reportType = r ∧ run.status = .done := by
  simp [Reports.doneRuns]

/-- The runs that a getter may pick for a date. -/
theorem mem_newest_ofDate {s : Reports} {d : Date} {run : ReportRun} :
    run ∈ newest (ofDate (some d) (s.doneRuns r)) ↔ run ∈ s.doneRuns r ∧ run.asOfDate = d := by
  have hsame : ∀ run ∈ ofDate (some d) (s.doneRuns r), run.asOfDate = d := by
    intro run hrun
    exact of_decide_eq_true (List.mem_filter.mp hrun).2
  rw [newest_of_same_date hsame, ofDate, List.mem_filter, decide_eq_true_eq]

/-- What wins is shown. -/
theorem answers_of_wins (hs : o.Stored) (h : o.Wins r) {d : Date} {lines : List (ReportLine r)}
    (hlatest : o.latest r d = some lines) (shown : ReportLine r → Bool)
    (order : ReportLine r → ReportLine r → Prop) [DecidableRel order]
    {answer : Option ReportRun × List (ReportLine r)}
    (hanswer : answer ∈ o.db.reports.answers (newest (ofDate (some d) (o.db.reports.doneRuns r)))
      shown order) : answer.2.Perm (lines.filter shown) := by
  rcases mem_answers.mp hanswer with ⟨hnone, -⟩ | ⟨run, hrun, rfl⟩
  · obtain ⟨run, hrun, hdate⟩ := hs.recorded r d lines hlatest
    have hpicked := mem_newest_ofDate.mpr ⟨hrun, hdate⟩
    rw [hnone] at hpicked
    cases hpicked
  · obtain ⟨hrun, hdate⟩ := mem_newest_ofDate.mp hrun
    exact (List.perm_insertionSort _ _).trans ((h d lines hlatest run hrun hdate).filter shown)

theorem wins_of_answers (order : ReportLine r → ReportLine r → Prop) [DecidableRel order]
    {shown : ReportLine r → Bool} (hall : ∀ line, shown line = true)
    (h : ∀ d lines, o.latest r d = some lines →
      ∀ answer ∈ o.db.reports.answers (newest (ofDate (some d) (o.db.reports.doneRuns r))) shown order,
        answer.2.Perm lines) : o.Wins r := by
  intro d lines hlatest run hrun hdate
  have hanswer := h d lines hlatest _ (mem_answers.mpr
    (.inr ⟨run, mem_newest_ofDate.mpr ⟨hrun, hdate⟩, rfl⟩))
  have hshown : (o.db.reports.linesOf r run.id).filter shown = o.db.reports.linesOf r run.id :=
    List.filter_eq_self.mpr fun line _ => hall line
  rw [hshown] at hanswer
  exact (List.perm_insertionSort _ _).symm.trans hanswer

/-- The getters answer with the latest lines when these win for every report. -/
theorem latestWins_iff (hs : o.Stored) :
    LatestWins o ↔ o.Wins .trialBalance ∧ o.Wins .loanPortfolio ∧ o.Wins .incomeStatement := by
  have htrue : ∀ {r : ReportType} (lines : List (ReportLine r)), lines.filter (fun _ => true) = lines :=
    fun lines => List.filter_true lines
  constructor
  · rintro ⟨htb, hlp, his⟩
    refine ⟨wins_of_answers _ (fun _ => rfl) htb, ?_, wins_of_answers _ (fun _ => rfl) his⟩
    refine @wins_of_answers o .loanPortfolio (fun x y => x.row.loanReference ≤ y.row.loanReference) _
      (LoanPortfolioService.shown none) (fun _ => rfl) ?_
    intro d lines hlatest answer hanswer
    have hperm := hlp d lines hlatest none answer hanswer
    have hall : lines.filter (LoanPortfolioService.shown none) = lines :=
      List.filter_eq_self.mpr fun _ _ => rfl
    rwa [hall] at hperm
  · rintro ⟨htb, hlp, his⟩
    refine ⟨?_, ?_, ?_⟩
    · intro d lines hlatest answer hanswer
      have hperm := answers_of_wins hs htb hlatest _ _ hanswer
      rwa [htrue] at hperm
    · intro d lines hlatest status answer hanswer
      exact answers_of_wins hs hlp hlatest _ _ hanswer
    · intro d lines hlatest answer hanswer
      have hperm := answers_of_wins hs his hlatest _ _ hanswer
      rwa [htrue] at hperm

end

/-! ## One call -/

section

variable {o : Observed} {r r' : ReportType} {key : r.Key} {select : Session Books Err (List r.Row)}

theorem returns_materialize_iff {db : Db} :
    Returns (materialize r key select) db ↔ Returns select db.books := by
  constructor
  · rintro ⟨run, db', h⟩
    obtain ⟨rows, books, hrows, -⟩ := materialize_eq_ok.mp h
    exact ⟨rows, books, hrows⟩
  · rintro ⟨rows, books, hrows⟩
    exact ⟨_, _, materialize_eq_ok.mpr ⟨rows, books, hrows, rfl, rfl⟩⟩

/-- The state after a materialisation of these rows. -/
def Observed.materialized (o : Observed) (r : ReportType) (key : r.Key) (rows : List r.Row) : Observed where
  db := { o.db with reports := o.db.reports.materialized r key rows }
  latest := Function.update o.latest r (Function.update (o.latest r) (r.asOf key)
    (some ((o.db.reports.materialized r key rows).linesOf r o.db.reports.nextId)))

/-- A call changes nothing, or it materialises the rows of its query. -/
theorem after_cases (o : Observed) (r : ReportType) (key : r.Key) (select : Session Books Err (List r.Row)) :
    (o.after r (r.asOf key) (materialize r key select) = o ∧ ¬ Returns (materialize r key select) o.db) ∨
      ∃ rows books, select o.db.books = .ok rows books ∧
        o.after r (r.asOf key) (materialize r key select) = o.materialized r key rows := by
  unfold Observed.after
  split
  · rename_i run db' hok
    obtain ⟨rows, books, hrows, rfl, rfl⟩ := materialize_eq_ok.mp hok
    exact .inr ⟨rows, books, hrows, rfl⟩
  · rename_i hraised
    refine .inl ⟨rfl, ?_⟩
    rintro ⟨run, db', hok⟩
    rw [hraised] at hok
    cases hok
  · rename_i haborted
    refine .inl ⟨rfl, ?_⟩
    rintro ⟨run, db', hok⟩
    rw [haborted] at hok
    cases hok

theorem materialized_latest_self {rows : List r.Row} {d : Date} :
    (o.materialized r key rows).latest r d = if d = r.asOf key then
      some ((o.db.reports.materialized r key rows).linesOf r o.db.reports.nextId) else o.latest r d := by
  simp [Observed.materialized, Function.update_apply]

theorem materialized_latest_of_ne {rows : List r.Row} (h : r' ≠ r) :
    (o.materialized r key rows).latest r' = o.latest r' := by
  simp [Observed.materialized, h]

theorem stored_materialized (hs : o.Stored) (rows : List r.Row) : (o.materialized r key rows).Stored where
  consistent := consistent_materialized hs.consistent key rows
  done := by
    intro run hrun
    rw [show (o.materialized r key rows).db.reports = o.db.reports.materialized r key rows from rfl,
      materialized_runs hs.consistent, List.mem_append, List.mem_singleton] at hrun
    rcases hrun with hrun | rfl
    · exact hs.done run hrun
    · rfl
  recorded := by
    intro r' d lines h
    show ∃ run ∈ (o.db.reports.materialized r key rows).doneRuns r', _
    rw [materialized_doneRuns hs.consistent]
    by_cases hr : r = r'
    · subst hr
      rw [materialized_latest_self] at h
      by_cases hd : d = r.asOf key
      · exact ⟨_, List.mem_append_right _ (by rw [if_pos rfl]; exact List.mem_cons_self), hd.symm⟩
      · rw [if_neg hd] at h
        obtain ⟨run, hrun, hdate⟩ := hs.recorded r d lines h
        exact ⟨run, List.mem_append_left _ hrun, hdate⟩
    · rw [materialized_latest_of_ne (Ne.symm hr)] at h
      obtain ⟨run, hrun, hdate⟩ := hs.recorded r' d lines h
      exact ⟨run, List.mem_append_left _ hrun, hdate⟩

/-- The other reports are as before. -/
theorem wins_materialized_of_ne (hs : o.Stored) {rows : List r.Row} (h : r' ≠ r) :
    (o.materialized r key rows).Wins r' ↔ o.Wins r' := by
  unfold Observed.Wins
  rw [materialized_latest_of_ne h]
  show (∀ d lines, _ → ∀ run ∈ (o.db.reports.materialized r key rows).doneRuns r', _ →
    ((o.db.reports.materialized r key rows).linesOf r' run.id).Perm lines) ↔ _
  rw [materialized_doneRuns hs.consistent, if_neg (Ne.symm h), List.append_nil]
  simp only [linesOf_materialized_of_ne h]

/-- The lines of a run are under keys of its date. -/
theorem asOf_key_of_mem_linesOf {s : Reports} (hs : s.Consistent) {run : ReportRun} (hrun : run ∈ s.runs)
    {line : ReportLine r} (hline : line ∈ s.linesOf r run.id) : r.asOf line.key = run.asOfDate := by
  rw [Reports.linesOf, List.mem_filter, decide_eq_true_eq] at hline
  obtain ⟨run', hrun', hid, -, hdate⟩ := hs.fk_run r line hline.1
  have hsame : run' = run := List.inj_on_of_nodup_map hs.pkey hrun' hrun (hid.trans hline.2)
  rw [← hdate, hsame]

/-- Lines of two runs are the same lines only if there are none. -/
theorem perm_linesOf_iff {lines lines' : List (ReportLine r)} {i j : Uuid} (hij : i ≠ j)
    (h : ∀ line ∈ lines, line.reportRunId = i) (h' : ∀ line ∈ lines', line.reportRunId = j) :
    lines.Perm lines' ↔ lines = [] ∧ lines' = [] := by
  constructor
  · intro hperm
    have hnone : lines = [] := by
      rw [List.eq_nil_iff_forall_not_mem]
      intro line hline
      exact hij ((h line hline).symm.trans (h' line (hperm.mem_iff.mp hline)))
    rw [hnone] at hperm
    exact ⟨hnone, List.nil_perm.mp hperm⟩
  · rintro ⟨rfl, rfl⟩
    exact List.Perm.nil

/-- The runs of other dates keep their lines. -/
theorem linesOf_materialized_of_date {s : Reports} (hs : s.Consistent) {rows : List r.Row}
    {run : ReportRun} (hrun : run ∈ s.runs) (hdate : run.asOfDate ≠ r.asOf key) :
    (s.materialized r key rows).linesOf r run.id = s.linesOf r run.id := by
  rw [linesOf_materialized_old (Nat.ne_of_lt (hs.fresh run hrun)), List.filter_eq_self]
  intro line hline
  rw [decide_eq_true_eq]
  intro hkey
  exact hdate (by rw [← asOf_key_of_mem_linesOf hs hrun hline, hkey])

/-- A run of the same date is taken for the new one only if neither has lines. -/
theorem perm_materialized_iff {s : Reports} (hs : s.Consistent) {rows : List r.Row} {run : ReportRun}
    (hrun : run ∈ s.runs) :
    ((s.materialized r key rows).linesOf r run.id).Perm ((s.materialized r key rows).linesOf r s.nextId) ↔
      rows = [] ∧ ∀ line ∈ s.linesOf r run.id, line.key = key := by
  have hne : run.id ≠ s.nextId := Nat.ne_of_lt (hs.fresh run hrun)
  rw [linesOf_materialized_old hne, linesOf_materialized_new hs, perm_linesOf_iff hne,
    List.filter_eq_nil_iff, List.map_eq_nil_iff, and_comm]
  · simp only [ne_eq, decide_not, Bool.not_eq_true', decide_eq_false_iff_not, not_not]
  · intro line hline
    exact of_decide_eq_true (List.mem_filter.mp (List.mem_filter.mp hline).1).2
  · intro line hline
    obtain ⟨row, -, rfl⟩ := List.mem_map.mp hline
    rfl

/-- The lines of a materialisation win when its date had no run yet, or when there are no lines, and
none that are left under another key of the date. -/
theorem wins_materialized_iff (hs : o.Stored) (hwins : o.Wins r) {rows : List r.Row} :
    (o.materialized r key rows).Wins r ↔ o.db.reports.Unreported r (r.asOf key) ∨
      (rows = [] ∧ ∀ line ∈ o.db.reports.lines r, r.asOf line.key = r.asOf key → line.key = key) := by
  have hruns : (o.materialized r key rows).db.reports.doneRuns r =
      o.db.reports.doneRuns r ++ [⟨o.db.reports.nextId, r, r.asOf key, .done⟩] := by
    show (o.db.reports.materialized r key rows).doneRuns r = _
    rw [materialized_doneRuns hs.consistent, if_pos rfl]
  constructor
  · intro hafter
    by_cases hfirst : o.db.reports.Unreported r (r.asOf key)
    · exact .inl hfirst
    · -- every earlier run of the date is a possible answer
      have hearlier : ∀ run ∈ o.db.reports.doneRuns r, run.asOfDate = r.asOf key →
          rows = [] ∧ ∀ line ∈ o.db.reports.linesOf r run.id, line.key = key := by
        intro run hrun hdate
        have hperm := hafter (r.asOf key) _ (by rw [materialized_latest_self, if_pos rfl]) run
          (by rw [hruns]; exact List.mem_append_left _ hrun) hdate
        exact (perm_materialized_iff hs.consistent (mem_doneRuns.mp hrun).1).mp hperm
      simp only [Reports.Unreported, ne_eq, not_forall, not_not] at hfirst
      obtain ⟨run, hrun, hdate⟩ := hfirst
      refine .inr ⟨(hearlier run hrun hdate).1, ?_⟩
      intro line hline hlineDate
      obtain ⟨run', hrun', hid, htype, hdate'⟩ := hs.consistent.fk_run r line hline
      have hdone : run' ∈ o.db.reports.doneRuns r := mem_doneRuns.mpr ⟨hrun', htype, hs.done run' hrun'⟩
      refine (hearlier run' hdone (hdate'.trans hlineDate)).2 line ?_
      exact List.mem_filter.mpr ⟨hline, decide_eq_true hid.symm⟩
  · intro hcase d lines hlatest run hrun hdate
    rw [hruns, List.mem_append, List.mem_singleton] at hrun
    rw [materialized_latest_self] at hlatest
    by_cases hd : d = r.asOf key
    · rw [if_pos hd] at hlatest
      cases hlatest
      rcases hrun with hrun | rfl
      · rcases hcase with hfirst | ⟨hrows, hkeys⟩
        · exact absurd (hdate.trans hd) (hfirst run hrun)
        · have hmem := (mem_doneRuns.mp hrun).1
          refine (perm_materialized_iff hs.consistent hmem).mpr ⟨hrows, ?_⟩
          intro line hline
          refine hkeys line (List.mem_filter.mp hline).1 ?_
          rw [asOf_key_of_mem_linesOf hs.consistent hmem hline, hdate, hd]
      · exact List.Perm.refl _
    · rw [if_neg hd] at hlatest
      rcases hrun with hrun | rfl
      · show ((o.db.reports.materialized r key rows).linesOf r run.id).Perm lines
        rw [linesOf_materialized_of_date hs.consistent (mem_doneRuns.mp hrun).1 (hdate ▸ hd)]
        exact hwins d lines hlatest run hrun hdate
      · exact absurd hdate.symm hd

end

/-! ## When there is nothing to report -/

section

variable {b : Books}

/-- No account has a row when no line in question is on one that the report is about. -/
theorem accountTotals_eq_nil {which : ChartOfAccount → Bool} {posted : Instant → Bool} :
    b.accountTotals which posted = [] ↔
      ∀ l ∈ b.linesPosted posted, ∀ a ∈ b.tables.accounts, a.id = l.accountId → which a = false := by
  have hnil : b.accountTotals which posted = [] ↔ (b.tables.accounts.filter fun a =>
      which a && (b.linesPosted posted).any (·.accountId = a.id)) = [] := by
    have hperm := @accountTotals_perm b which posted
    constructor
    · intro h
      rw [h] at hperm
      exact List.map_eq_nil_iff.mp (List.nil_perm.mp hperm)
    · intro h
      rw [h] at hperm
      exact List.perm_nil.mp hperm
  rw [hnil, List.filter_eq_nil_iff]
  simp only [Bool.and_eq_true, List.any_eq_true, decide_eq_true_eq, not_and, not_exists]
  constructor
  · intro h l hl a ha hid
    by_contra hwhich
    exact h a ha (by simpa using hwhich) l hl hid.symm
  · intro h a ha hwhich l hl hid
    rw [h l hl a ha hid.symm] at hwhich
    cases hwhich

theorem trialBalance_select_nil {d : Date} {rows : List TrialBalanceRow} {b' : Books}
    (h : TrialBalanceService.select d b = .ok rows b') :
    rows = [] ↔ b.linesPosted (· < d.midnight + microsPerDay) = [] := by
  simp only [TrialBalanceService.select, orRaise_bind_eq_ok, get_bind_eq_ok, orAbort_eq_ok,
    Date.nextMidnight?_eq_some] at h
  obtain ⟨_, ⟨-, rfl⟩, hrows, -⟩ := h
  rw [mapM_eq_nil hrows, accountTotals_eq_nil]
  constructor
  · intro hnone
    rw [List.eq_nil_iff_forall_not_mem]
    intro l hl
    -- the account of a line exists
    obtain ⟨e, he, hle⟩ := List.mem_flatMap.mp hl
    obtain ⟨a, ha, hid⟩ := List.mem_map.mp (b.fk_jl_account e (List.mem_filter.mp he).1 l hle)
    exact absurd (hnone l hl a ha hid) (by decide)
  · intro hnone l hl
    rw [hnone] at hl
    cases hl

theorem incomeStatement_select_nil {p : Period} {rows : List IncomeStatementRow} {b' : Books}
    (h : IncomeStatementService.select p b = .ok rows b') :
    rows = [] ↔ ∀ l ∈ b.linesPosted
        (fun i => p.periodStart.midnight ≤ i ∧ i < p.periodEnd.midnight + microsPerDay),
      ∀ a ∈ b.tables.accounts, a.id = l.accountId → b.isIncomeOrExpense a = false := by
  simp only [IncomeStatementService.select, orRaise_bind_eq_ok, get_bind_eq_ok, orAbort_eq_ok,
    Date.nextMidnight?_eq_some] at h
  obtain ⟨_, ⟨-, rfl⟩, hrows, -⟩ := h
  rw [mapM_eq_nil hrows, accountTotals_eq_nil]

theorem loanPortfolio_select_nil {d today : Date} {rows : List LoanPortfolioRow} {b' : Books}
    (h : LoanPortfolioService.select d today b = .ok rows b') :
    rows = [] ↔ ∀ loan ∈ b.tables.loans, loan.status = .disbursing := by
  simp only [LoanPortfolioService.select, get_bind_eq_ok, pure_eq_ok] at h
  obtain ⟨rfl, -⟩ := h
  rw [List.map_eq_nil_iff, List.eq_nil_iff_forall_not_mem]
  constructor
  · intro hnone loan hloan
    by_contra hstatus
    obtain ⟨product, hproduct, hid⟩ := List.mem_map.mp (b.fk_ln_product loan hloan)
    exact hnone (loan, product) (mem_portfolioLoans.mpr ⟨hloan, hstatus, hproduct, hid⟩)
  · rintro hall ⟨loan, product⟩ hmem
    obtain ⟨hloan, hstatus, -⟩ := mem_portfolioLoans.mp hmem
    exact hstatus (hall loan hloan)

end

/-! ## Runs -/

section

variable {o : Observed}

theorem stored_after (hs : o.Stored) (r : ReportType) (key : r.Key)
    (select : Session Books Err (List r.Row)) :
    (o.after r (r.asOf key) (materialize r key select)).Stored := by
  rcases after_cases o r key select with ⟨heq, -⟩ | ⟨rows, books, -, heq⟩
  · rw [heq]
    exact hs
  · rw [heq]
    exact stored_materialized hs rows

theorem step_stored (hs : o.Stored) (op : ReportOp) : (op.step o).Stored := by
  cases op with
  | trialBalance d => exact stored_after hs .trialBalance d _
  | loanPortfolio d today => exact stored_after hs .loanPortfolio d (LoanPortfolioService.select d today)
  | incomeStatement d d' => exact stored_after hs .incomeStatement ⟨d, d'⟩ _
  | savingsStatement d d' => exact stored_after hs .savingsStatement ⟨d, d'⟩ _
  | write books => exact ⟨hs.consistent, hs.done, hs.recorded⟩

/-- What a call leaves of its own report: `first` is when its rows, if it returns any, win. -/
theorem wins_after_iff (hs : o.Stored) {r : ReportType} (hwins : o.Wins r) {key : r.Key}
    {select : Session Books Err (List r.Row)} {first : Prop}
    (hfirst : ∀ rows books, select o.db.books = .ok rows books → (first ↔
      o.db.reports.Unreported r (r.asOf key) ∨
        (rows = [] ∧ ∀ line ∈ o.db.reports.lines r, r.asOf line.key = r.asOf key → line.key = key))) :
    (o.after r (r.asOf key) (materialize r key select)).Wins r ↔
      (Returns (materialize r key select) o.db → first) := by
  rcases after_cases o r key select with ⟨heq, hnot⟩ | ⟨rows, books, hrows, heq⟩
  · rw [heq]
    exact ⟨fun _ hreturns => absurd hreturns hnot, fun _ => hwins⟩
  · have hreturns : Returns (materialize r key select) o.db :=
      returns_materialize_iff.mpr ⟨rows, books, hrows⟩
    rw [heq, wins_materialized_iff hs hwins, ← hfirst rows books hrows]
    exact ⟨fun h _ => h, fun h => h hreturns⟩

/-- The other reports are left alone. -/
theorem wins_after_of_ne (hs : o.Stored) {r r' : ReportType} (h : r' ≠ r) (key : r.Key)
    (select : Session Books Err (List r.Row)) :
    (o.after r (r.asOf key) (materialize r key select)).Wins r' ↔ o.Wins r' := by
  rcases after_cases o r key select with ⟨heq, -⟩ | ⟨rows, books, -, heq⟩
  · rw [heq]
  · rw [heq, wins_materialized_of_ne hs h]

/-- One step. -/
theorem step_latestWins_iff (hs : o.Stored) (h : LatestWins o) (op : ReportOp) :
    LatestWins (op.step o) ↔ (op.Succeeds o → op.First o) := by
  obtain ⟨htb, hlp, his⟩ := (latestWins_iff hs).mp h
  rw [latestWins_iff (step_stored hs op)]
  cases op with
  | trialBalance d =>
    have hown := @wins_after_iff o hs .trialBalance htb d (TrialBalanceService.select d)
      (ReportOp.First o (.trialBalance d)) ?_
    · refine Iff.trans ?_ hown
      refine and_iff_left ⟨?_, ?_⟩
      · exact (@wins_after_of_ne o hs .trialBalance _ (by decide) d _).mpr hlp
      · exact (@wins_after_of_ne o hs .trialBalance _ (by decide) d _).mpr his
    · intro rows books hrows
      refine or_congr_right ?_
      rw [trialBalance_select_nil hrows]
      exact (and_iff_left fun line _ hdate => hdate).symm
  | loanPortfolio d today =>
    have hown := @wins_after_iff o hs .loanPortfolio hlp d (LoanPortfolioService.select d today)
      (ReportOp.First o (.loanPortfolio d today)) ?_
    · refine Iff.trans ?_ hown
      constructor
      · exact fun hall => hall.2.1
      · intro hlp'
        refine ⟨?_, hlp', ?_⟩
        · exact (@wins_after_of_ne o hs .loanPortfolio _ (by decide) d
          (LoanPortfolioService.select d today)).mpr htb
        · exact (@wins_after_of_ne o hs .loanPortfolio _ (by decide) d
          (LoanPortfolioService.select d today)).mpr his
    · intro rows books hrows
      refine or_congr_right ?_
      rw [loanPortfolio_select_nil hrows]
      exact (and_iff_left fun line _ hdate => hdate).symm
  | incomeStatement d d' =>
    have hown := @wins_after_iff o hs .incomeStatement his ⟨d, d'⟩ (IncomeStatementService.select ⟨d, d'⟩)
      (ReportOp.First o (.incomeStatement d d')) ?_
    · refine Iff.trans ?_ hown
      constructor
      · exact fun hall => hall.2.2
      · intro his'
        refine ⟨?_, ?_, his'⟩
        · exact (@wins_after_of_ne o hs .incomeStatement _ (by decide) ⟨d, d'⟩ _).mpr htb
        · exact (@wins_after_of_ne o hs .incomeStatement _ (by decide) ⟨d, d'⟩ _).mpr hlp
    · intro rows books hrows
      refine or_congr_right (and_congr (incomeStatement_select_nil hrows).symm ?_)
      refine forall₂_congr fun line _ => ?_
      show (line.key.periodEnd = d' → line.key.periodStart = d) ↔
        (line.key.periodEnd = d' → line.key = ⟨d, d'⟩)
      constructor
      · intro hkey hend
        exact congrArg₂ Period.mk (hkey hend) hend
      · intro hkey hend
        rw [hkey hend]
  | savingsStatement d d' =>
    refine ⟨fun _ _ => trivial, fun _ => ⟨?_, ?_, ?_⟩⟩
    · exact (@wins_after_of_ne o hs .savingsStatement _ (by decide) ⟨d, d'⟩ _).mpr htb
    · exact (@wins_after_of_ne o hs .savingsStatement _ (by decide) ⟨d, d'⟩ _).mpr hlp
    · exact (@wins_after_of_ne o hs .savingsStatement _ (by decide) ⟨d, d'⟩ _).mpr his
  | write books => exact ⟨fun _ _ => trivial, fun _ => ⟨htb, hlp, his⟩⟩

end

theorem latestWins_start (books : Books) : LatestWins (Observed.start books) :=
  ⟨nofun, nofun, nofun⟩

/-- After every call of a run of successful materialisations, among changes of the books, every getter
answers with the lines of the last materialisation for its date, exactly when every call is the first
for its date, or has nothing to report and leaves nothing stored that could be taken for it. -/
theorem latest_wins_iff (books : Books) {ops : List ReportOp}
    (hops : Along ReportOp.step ReportOp.Succeeds (Observed.start books) ops) :
    (∀ front, front <+: ops → LatestWins (run ReportOp.step (Observed.start books) front)) ↔
      Along ReportOp.step ReportOp.First (Observed.start books) ops := by
  have hiff := @always_iff_along Observed ReportOp ReportOp.step (fun o op => op.Succeeds o → op.First o)
    Observed.Stored LatestWins (fun _ op hs _ => step_stored hs op)
    (fun _ op hs h => step_latestWins_iff hs h op) _ (stored_start books) (latestWins_start books) ops
  rw [hiff]
  constructor
  · intro h
    have hboth := along_and.mpr ⟨hops, h⟩
    exact hboth.mono fun _ _ hop => hop.2 hop.1
  · intro h
    have himp : ∀ (o : Observed) (op : ReportOp), op.First o → op.Succeeds o → op.First o :=
      fun _ _ hop _ => hop
    exact h.mono himp

/-- Two trial balances and an income statement, each the first for its date. -/
def firstReports : List ReportOp :=
  [.trialBalance january31, .trialBalance february1, .incomeStatement february1 february1]

theorem latest_wins_firstReports :
    LatestWins (run ReportOp.step (Observed.start feeBooks) firstReports) :=
  (latest_wins_iff feeBooks (by decide +kernel)).mpr (by decide +kernel) firstReports
    (List.prefix_refl _)

/-- After a second trial balance for a date the getter may answer with the first run, which has no
lines left; and an income statement may be answered with the lines of a period that begins earlier. -/
theorem latest_loses :
    ¬ LatestWins (run ReportOp.step (Observed.start feeBooks)
      [.trialBalance february1, .trialBalance february1]) ∧
    ¬ LatestWins (run ReportOp.step (Observed.start feeBooks)
      [.incomeStatement january31 february1, .incomeStatement february1 february1]) := by
  constructor
  · intro h
    have hanswer : ∃ lines ∈ (run ReportOp.step (Observed.start feeBooks)
        [.trialBalance february1, .trialBalance february1]).latest .trialBalance february1,
      ∃ answer ∈ TrialBalanceService.getTrialBalance (run ReportOp.step (Observed.start feeBooks)
        [.trialBalance february1, .trialBalance february1]).db (some february1),
        ¬ answer.2.Perm lines := by decide +kernel
    obtain ⟨lines, hlines, answer, hmem, hne⟩ := hanswer
    exact hne (h.1 _ lines hlines answer hmem)
  · intro h
    have hanswer : ∃ lines ∈ (run ReportOp.step (Observed.start feeBooks)
        [.incomeStatement january31 february1, .incomeStatement february1 february1]).latest
          .incomeStatement february1,
      ∃ answer ∈ IncomeStatementService.getIncomeStatement (run ReportOp.step (Observed.start feeBooks)
        [.incomeStatement january31 february1, .incomeStatement february1 february1]).db february1,
        ¬ answer.2.Perm lines := by decide +kernel
    obtain ⟨lines, hlines, answer, hmem, hne⟩ := hanswer
    exact hne (h.2.2 _ lines hlines answer hmem)

end SaccoPlatform.Reporting
