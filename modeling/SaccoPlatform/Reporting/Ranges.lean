import SaccoPlatform.Lib.Runs
import SaccoPlatform.Reporting.Agreement
import SaccoPlatform.Reporting.Latest
import Mathlib.Data.List.MinMax

/-!
# Ranges of a savings statement

`get_savings_statement` takes the oldest run that does not end before the range and shows its lines if
the period of the run lies inside the range. So the run has to end with the range, and what was posted
before it began, or after it was made, is missing; a run that is larger than the range shows nothing.
-/

namespace SaccoPlatform.Reporting

open Lib Session

/-! ## Completed runs -/

/-- A completed run, its period and the books it was made on. -/
structure Completed where
  run : ReportRun
  period : Period
  books : Books

/-- The tables and the completed runs of the savings statement, in the order in which they were made. -/
structure StatementHistory where
  db : Db
  completed : List Completed

/-- A materialisation, or a change of the tables behind the reports. -/
inductive StatementOp where
  | materialize (periodStart periodEnd : Date)
  | write (books : Books)

/-- Transactions are only added: those of `b` are there in `b'` as they were. -/
structure Books.Extends (b b' : Books) : Prop where
  transactions : b.tables.savingsTransactions.Sublist b'.tables.savingsTransactions
  postedAt : ∀ tx ∈ b.tables.savingsTransactions, b'.columns.postedAt tx.id = b.columns.postedAt tx.id
  narration : ∀ tx ∈ b.tables.savingsTransactions, b'.columns.narration tx.id = b.columns.narration tx.id
  memberOf : ∀ tx ∈ b.tables.savingsTransactions,
    b'.memberOf tx.savingsAccountId = b.memberOf tx.savingsAccountId

namespace StatementOp

def step (h : StatementHistory) : StatementOp → StatementHistory
  | materialize periodStart periodEnd =>
    match SavingsStatementService.materialize periodStart periodEnd h.db with
    | .ok run db => ⟨db, h.completed ++ [⟨run, ⟨periodStart, periodEnd⟩, h.db.books⟩]⟩
    | .raised _ _ => h
    | .aborted _ => h
  | write books => { h with db := { h.db with books } }

/-- `savings_transactions` is append-only. -/
def Appends (h : StatementHistory) : StatementOp → Prop
  | materialize _ _ => True
  | write books => h.db.books.Extends books

end StatementOp

/-- Books of which no statement was made yet. -/
def StatementHistory.start (books : Books) : StatementHistory := ⟨⟨books, Reports.empty⟩, []⟩

/-! ## What a range asks for -/

/-- What a line says of its transaction. -/
structure StatementEntry where
  savingsAccountId : Uuid
  memberId : Uuid
  postedAt : Instant
  transactionType : SavingsTransactionType
  narration : Option String
  amount : Money
deriving DecidableEq, Repr

def SavingsStatementRow.entry (row : SavingsStatementRow) : StatementEntry :=
  ⟨row.savingsAccountId, row.memberId, row.postedAt, row.transactionType, row.narration, row.amount⟩

def Books.entry (b : Books) (tx : SavingsTransaction) : StatementEntry :=
  ⟨tx.savingsAccountId, b.memberOf tx.savingsAccountId, b.columns.postedAt tx.id, tx.transactionType,
    b.columns.narration tx.id, tx.amount⟩

/-- The member's transactions posted on a day of the range. -/
def Books.inRange (b : Books) (memberId : Uuid) (fromDate toDate : Date) : List SavingsTransaction :=
  b.tables.savingsTransactions.filter fun tx =>
    b.memberOf tx.savingsAccountId = memberId ∧ inWindow b fromDate toDate tx = true

/-- Whichever run the database picks, `get_savings_statement` has exactly one line for each of the
member's transactions in the range. -/
def ShowsRange (db : Db) (memberId : Uuid) (fromDate toDate : Date) : Prop :=
  ∀ answer ∈ SavingsStatementService.getSavingsStatement db memberId (some fromDate) (some toDate),
    (answer.2.map (·.row.entry)).Perm ((db.books.inRange memberId fromDate toDate).map db.books.entry)

/-- The run ends on the first day, from the end of the range on, on which a run ends. -/
def StatementHistory.Picked (h : StatementHistory) (toDate : Date) (c : Completed) : Prop :=
  toDate ≤ c.period.periodEnd ∧ ∀ c' ∈ h.completed, toDate ≤ c'.period.periodEnd →
    c.period.periodEnd ≤ c'.period.periodEnd

/-- The run covers the transaction: its period lies in the range, the transaction was posted in it and
stored before the run, and no later run replaced it. -/
def Completed.Covers (c : Completed) (later : List Completed) (fromDate toDate : Date)
    (tx : SavingsTransaction) : Prop :=
  fromDate ≤ c.period.periodStart ∧ c.period.periodEnd ≤ toDate ∧
    (∀ c' ∈ later, c'.period ≠ c.period) ∧
    inWindow c.books c.period.periodStart c.period.periodEnd tx = true ∧
    tx ∈ c.books.tables.savingsTransactions

/-! ## What is stored of the completed runs -/

/-- Every run that may be picked covers all that the member has in the range. -/
def StatementHistory.Covered (h : StatementHistory) (memberId : Uuid) (fromDate toDate : Date) : Prop :=
  ∀ front c later, h.completed = front ++ c :: later → h.Picked toDate c →
    ∀ tx ∈ h.db.books.inRange memberId fromDate toDate, c.Covers later fromDate toDate tx

/-- The rows of a completed run. -/
def Completed.Wrote (c : Completed) (rows : List SavingsStatementRow) : Prop :=
  c.books.statementRows? (fun _ => 0) (c.books.transactionsPosted fun i =>
    c.period.periodStart.midnight ≤ i ∧ i < c.period.periodEnd.midnight + microsPerDay) = some rows

/-- The done runs are the completed ones, each has its lines unless a later one has the same period, and
the books only grew since. -/
structure StatementHistory.Stored (h : StatementHistory) : Prop where
  consistent : h.db.reports.Consistent
  runs : h.db.reports.doneRuns .savingsStatement = h.completed.map (·.run)
  asOf : ∀ c ∈ h.completed, c.run.asOfDate = c.period.periodEnd
  lines : ∀ front c later, h.completed = front ++ c :: later → ∃ rows, c.Wrote rows ∧
    h.db.reports.linesOf .savingsStatement c.run.id =
      if ∃ c' ∈ later, c'.period = c.period then [] else
        rows.map fun row => ⟨c.run.id, c.period, row⟩
  grown : ∀ c ∈ h.completed, c.books.Extends h.db.books

theorem Books.Extends.refl (b : Books) : b.Extends b where
  transactions := List.Sublist.refl _
  postedAt _ _ := rfl
  narration _ _ := rfl
  memberOf _ _ := rfl

theorem Books.Extends.trans {b b' b'' : Books} (h : b.Extends b') (h' : b'.Extends b'') : b.Extends b'' where
  transactions := h.transactions.trans h'.transactions
  postedAt tx htx := (h'.postedAt tx (h.transactions.subset htx)).trans (h.postedAt tx htx)
  narration tx htx := (h'.narration tx (h.transactions.subset htx)).trans (h.narration tx htx)
  memberOf tx htx := (h'.memberOf tx (h.transactions.subset htx)).trans (h.memberOf tx htx)

theorem statementStored_start (books : Books) : (StatementHistory.start books).Stored where
  consistent := consistent_empty
  runs := rfl
  asOf _ hc := absurd hc List.not_mem_nil
  lines front c later h := by
    cases front <;> cases h
  grown _ hc := absurd hc List.not_mem_nil

section

variable {h : StatementHistory}

/-- Every completed run has its row. -/
theorem run_mem (hs : h.Stored) {c : Completed} (hc : c ∈ h.completed) :
    c.run ∈ h.db.reports.doneRuns .savingsStatement := by
  rw [hs.runs]
  exact List.mem_map_of_mem hc

/-- A new run comes after those that are there, and takes the lines of its period from them. -/
theorem statementStored_materialize (hs : h.Stored) {period : Period} {rows : List SavingsStatementRow}
    {run : ReportRun} (hrun : run = ⟨h.db.reports.nextId, .savingsStatement, period.periodEnd, .done⟩)
    (hwrote : (Completed.mk run period h.db.books).Wrote rows) :
    (StatementHistory.mk { h.db with reports := h.db.reports.materialized .savingsStatement period rows }
      (h.completed ++ [⟨run, period, h.db.books⟩])).Stored where
  consistent := @consistent_materialized _ .savingsStatement hs.consistent period rows
  runs := by
    show (h.db.reports.materialized .savingsStatement period rows).doneRuns .savingsStatement = _
    rw [materialized_doneRuns hs.consistent, if_pos rfl, hs.runs, List.map_append, hrun]
    rfl
  asOf c hc := by
    rcases List.mem_append.mp hc with hc | hc
    · exact hs.asOf c hc
    · rw [List.mem_singleton.mp hc, hrun]
  lines front c later hsplit := by
    show ∃ rows', c.Wrote rows' ∧
      (h.db.reports.materialized .savingsStatement period rows).linesOf .savingsStatement c.run.id = _
    rcases List.eq_nil_or_concat' later with rfl | ⟨later, last, rfl⟩
    · obtain ⟨-, hlast⟩ := List.append_inj' hsplit rfl
      obtain rfl : (⟨run, period, h.db.books⟩ : Completed) = c := (List.cons.inj hlast).1
      refine ⟨rows, hwrote, ?_⟩
      have hnone : ¬ ∃ c' ∈ ([] : List Completed), c'.period = period := by
        simp
      rw [if_neg hnone, hrun]
      exact linesOf_materialized_new hs.consistent
    · rw [← List.cons_append, ← List.append_assoc] at hsplit
      obtain ⟨hcompleted, hlast⟩ := List.append_inj' hsplit rfl
      obtain rfl : (⟨run, period, h.db.books⟩ : Completed) = last := (List.cons.inj hlast).1
      obtain ⟨rows', hwrote', hlines⟩ := hs.lines front c later hcompleted
      have hc : c ∈ h.completed := by
        rw [hcompleted]
        exact List.mem_append_right _ List.mem_cons_self
      have hold : c.run.id ≠ h.db.reports.nextId :=
        Nat.ne_of_lt (hs.consistent.fresh _ (mem_doneRuns.mp (run_mem hs hc)).1)
      refine ⟨rows', hwrote', ?_⟩
      rw [linesOf_materialized_old hold, hlines]
      -- replaced before, replaced now, or not yet
      by_cases hbefore : ∃ c' ∈ later, c'.period = c.period
      · obtain ⟨c', hc', hperiod⟩ := hbefore
        rw [if_pos ⟨c', hc', hperiod⟩, if_pos ⟨c', List.mem_append_left _ hc', hperiod⟩]
        rfl
      · rw [if_neg hbefore]
        by_cases hnow : period = c.period
        · rw [if_pos ⟨_, List.mem_append_right _ List.mem_cons_self, hnow⟩, List.filter_eq_nil_iff]
          intro line hline
          obtain ⟨row, -, rfl⟩ := List.mem_map.mp hline
          simp [hnow]
        · have hnever : ¬ ∃ c' ∈ later ++ [⟨run, period, h.db.books⟩], c'.period = c.period := by
            rintro ⟨c', hc', hperiod⟩
            rcases List.mem_append.mp hc' with hc' | hc'
            · exact hbefore ⟨c', hc', hperiod⟩
            · rw [List.mem_singleton.mp hc'] at hperiod
              exact hnow hperiod
          rw [if_neg hnever, List.filter_eq_self]
          intro line hline
          obtain ⟨row, -, rfl⟩ := List.mem_map.mp hline
          exact decide_eq_true (Ne.symm hnow)
  grown c hc := by
    rcases List.mem_append.mp hc with hc | hc
    · exact hs.grown c hc
    · rw [List.mem_singleton.mp hc]
      exact Books.Extends.refl _

/-- One step. -/
theorem step_statementStored (op : StatementOp) (hs : h.Stored) (hop : op.Appends h) :
    (op.step h).Stored := by
  cases op with
  | materialize periodStart periodEnd =>
    show (match SavingsStatementService.materialize periodStart periodEnd h.db with
      | .ok run db => _ | .raised _ _ => h | .aborted _ => h).Stored
    cases heq : SavingsStatementService.materialize periodStart periodEnd h.db with
    | ok run db =>
      obtain ⟨rows, books, hselect, hrun, hdb⟩ := materialize_eq_ok.mp heq
      rw [hdb]
      exact statementStored_materialize hs hrun (savingsStatement_select_eq_ok.mp hselect).2.1
    | raised e db => exact hs
    | aborted e => exact hs
  | write books =>
    exact { hs with grown := fun c hc => (hs.grown c hc).trans hop }

/-- A call that returns adds its run, and leaves the books. -/
theorem step_materialize {periodStart periodEnd : Date}
    (hreturns : Returns (SavingsStatementService.materialize periodStart periodEnd) h.db) :
    ∃ made reports, StatementOp.step h (.materialize periodStart periodEnd) =
      ⟨⟨h.db.books, reports⟩, h.completed ++ [⟨made, ⟨periodStart, periodEnd⟩, h.db.books⟩]⟩ := by
  obtain ⟨made, db, heq⟩ := hreturns
  obtain ⟨rows, books, -, -, hdb⟩ := materialize_eq_ok.mp heq
  refine ⟨made, db.reports, ?_⟩
  simp only [StatementOp.step, heq]
  rw [hdb]

/-! ## The lines of a run -/

/-- What the lines of a member say: his transactions of the period. -/
theorem entries_perm {c : Completed} {rows : List SavingsStatementRow} (hwrote : c.Wrote rows)
    (memberId : Uuid) : ((rows.filter (·.memberId = memberId)).map (·.entry)).Perm
      ((c.books.inRange memberId c.period.periodStart c.period.periodEnd).map c.books.entry) := by
  have hrows : rows.map (·.entry) = ((c.books.tables.savingsTransactions.filter
      (inWindow c.books c.period.periodStart c.period.periodEnd)).insertionSort
        c.books.StatementOrder).map c.books.entry := by
    have hforall := statementRows?_forall₂ hwrote
    rw [transactionsPosted_inWindow, List.forall₂_map_left_iff] at hforall
    refine List.forall₂_eq_eq_eq ▸ ?_
    rw [List.forall₂_map_left_iff, List.forall₂_map_right_iff]
    refine hforall.flip.imp ?_
    intro row tx hrow
    rw [hrow]
    rfl
  have hfilter : (rows.filter (·.memberId = memberId)).map (·.entry) =
      (rows.map (·.entry)).filter (·.memberId = memberId) := by
    rw [List.filter_map]
    rfl
  rw [hfilter, hrows, List.filter_map]
  refine List.Perm.map _ ?_
  have hsorted := (List.perm_insertionSort c.books.StatementOrder (c.books.tables.savingsTransactions.filter
    (inWindow c.books c.period.periodStart c.period.periodEnd))).filter
      ((fun e : StatementEntry => decide (e.memberId = memberId)) ∘ c.books.entry)
  refine hsorted.trans (List.Perm.of_eq ?_)
  rw [List.filter_filter]
  apply List.filter_congr
  intro tx _
  rw [Function.comp_apply, Bool.decide_and, Bool.decide_eq_true]
  rfl

/-- What the getter shows of a completed run. -/
theorem shown_perm (hs : h.Stored) {front later : List Completed} {c : Completed}
    (hsplit : h.completed = front ++ c :: later) (memberId : Uuid) (fromDate toDate : Date) :
    (((h.db.reports.linesOf .savingsStatement c.run.id).filter
      (SavingsStatementService.shown memberId (some fromDate) (some toDate))).map (·.row.entry)).Perm
      (if fromDate ≤ c.period.periodStart ∧ c.period.periodEnd ≤ toDate ∧
          ∀ c' ∈ later, c'.period ≠ c.period then
        (c.books.inRange memberId c.period.periodStart c.period.periodEnd).map c.books.entry else []) := by
  obtain ⟨rows, hwrote, hlines⟩ := hs.lines front c later hsplit
  rw [hlines]
  by_cases hreplaced : ∃ c' ∈ later, c'.period = c.period
  · have hnot : ¬ (fromDate ≤ c.period.periodStart ∧ c.period.periodEnd ≤ toDate ∧
        ∀ c' ∈ later, c'.period ≠ c.period) := by
      rintro ⟨-, -, hkept⟩
      obtain ⟨c', hc', hperiod⟩ := hreplaced
      exact hkept c' hc' hperiod
    rw [if_pos hreplaced, if_neg hnot]
    exact List.Perm.refl _
  · have hkept : ∀ c' ∈ later, c'.period ≠ c.period := by
      intro c' hc' hperiod
      exact hreplaced ⟨c', hc', hperiod⟩
    rw [if_neg hreplaced, List.filter_map, List.map_map]
    by_cases hinside : fromDate ≤ c.period.periodStart ∧ c.period.periodEnd ≤ toDate
    · rw [if_pos ⟨hinside.1, hinside.2, hkept⟩]
      have hshown : rows.filter (SavingsStatementService.shown memberId (some fromDate) (some toDate) ∘
          fun row => (⟨c.run.id, c.period, row⟩ : ReportLine .savingsStatement)) =
          rows.filter (·.memberId = memberId) := by
        apply List.filter_congr
        intro row _
        simp [SavingsStatementService.shown, hinside.1, hinside.2]
      rw [hshown]
      exact entries_perm hwrote memberId
    · have hnot : ¬ (fromDate ≤ c.period.periodStart ∧ c.period.periodEnd ≤ toDate ∧
          ∀ c' ∈ later, c'.period ≠ c.period) := fun hall => hinside ⟨hall.1, hall.2.1⟩
      have hnone : rows.filter (SavingsStatementService.shown memberId (some fromDate) (some toDate) ∘
          fun row => (⟨c.run.id, c.period, row⟩ : ReportLine .savingsStatement)) = [] := by
        rw [List.filter_eq_nil_iff]
        intro row _ hshow
        simp only [SavingsStatementService.shown, Function.comp_apply, Option.mem_some_iff,
          forall_eq', decide_eq_true_eq] at hshow
        exact hinside hshow.2
      rw [if_neg hnot, hnone]
      exact List.Perm.refl _

/-! ## What a range gets -/

/-- The transactions of a period inside the range, among those of the range. -/
theorem inRange_sublist {b b' : Books} (hext : b.Extends b') {memberId : Uuid}
    {fromDate toDate periodStart periodEnd : Date} (hfrom : fromDate ≤ periodStart)
    (hto : periodEnd ≤ toDate) : (b.inRange memberId periodStart periodEnd).Sublist
      (b'.inRange memberId fromDate toDate) := by
  have hmove : (b.inRange memberId periodStart periodEnd).Sublist
      (b.tables.savingsTransactions.filter fun tx =>
        b'.memberOf tx.savingsAccountId = memberId ∧ inWindow b' fromDate toDate tx = true) := by
    have hsub : (b.inRange memberId periodStart periodEnd) = (b.tables.savingsTransactions.filter fun tx =>
        b'.memberOf tx.savingsAccountId = memberId ∧ inWindow b' fromDate toDate tx = true).filter
        fun tx => inWindow b periodStart periodEnd tx = true := by
      rw [List.filter_filter]
      apply List.filter_congr
      intro tx htx
      have hstart : fromDate.midnight ≤ periodStart.midnight := Date.midnight_mono hfrom
      have hend : periodEnd.midnight ≤ toDate.midnight := Date.midnight_mono hto
      rw [Bool.eq_iff_iff]
      simp only [inWindow, hext.memberOf tx htx, hext.postedAt tx htx, Bool.and_eq_true,
        decide_eq_true_eq]
      constructor
      · rintro ⟨hmember, hge, hlt⟩
        exact ⟨⟨hge, hlt⟩, hmember, hstart.trans hge, by linarith⟩
      · rintro ⟨hin, hmember, -⟩
        exact ⟨hmember, hin⟩
    rw [hsub]
    exact List.filter_sublist
  exact hmove.trans (hext.transactions.filter _)

theorem oldest_eq_nil {runs : List ReportRun} : oldest runs = [] ↔ runs = [] := by
  constructor
  · intro h
    cases hmin : runs.argmin (fun run : ReportRun => run.asOfDate.ordinal) with
    | none => exact List.argmin_eq_none.mp hmin
    | some run =>
      have hrun : run ∈ oldest runs := by
        rw [oldest, List.mem_filter]
        refine ⟨List.argmin_mem hmin, decide_eq_true ?_⟩
        intro other hother
        exact List.le_of_mem_argmin hother hmin
      rw [h] at hrun
      exact absurd hrun List.not_mem_nil
  · rintro rfl
    rfl

/-- The runs that the getter may pick are those of the completed runs that it picks. -/
theorem mem_candidates (hs : h.Stored) {toDate : Date} {run : ReportRun} :
    run ∈ SavingsStatementService.candidates h.db.reports (some toDate) ↔
      ∃ c ∈ h.completed, c.run = run ∧ h.Picked toDate c := by
  have hafter : ∀ other : ReportRun, other ∈ (h.db.reports.doneRuns .savingsStatement).filter
      (fun run => toDate ≤ run.asOfDate) ↔ ∃ c ∈ h.completed, c.run = other ∧ toDate ≤ c.period.periodEnd := by
    intro other
    rw [List.mem_filter, hs.runs, List.mem_map, decide_eq_true_eq]
    constructor
    · rintro ⟨⟨c, hc, rfl⟩, hle⟩
      rw [hs.asOf c hc] at hle
      exact ⟨c, hc, rfl, hle⟩
    · rintro ⟨c, hc, rfl, hle⟩
      rw [hs.asOf c hc]
      exact ⟨⟨c, hc, rfl⟩, hle⟩
  show run ∈ oldest _ ↔ _
  rw [oldest, List.mem_filter, hafter, decide_eq_true_eq]
  constructor
  · rintro ⟨⟨c, hc, rfl, hle⟩, hfirst⟩
    refine ⟨c, hc, rfl, hle, ?_⟩
    intro c' hc' hle'
    have hother := hfirst c'.run ((hafter _).mpr ⟨c', hc', rfl, hle'⟩)
    rwa [hs.asOf c hc, hs.asOf c' hc'] at hother
  · rintro ⟨c, hc, rfl, hle, hfirst⟩
    refine ⟨⟨c, hc, rfl, hle⟩, ?_⟩
    intro other hother
    obtain ⟨c', hc', rfl, hle'⟩ := (hafter other).mp hother
    rw [hs.asOf c hc, hs.asOf c' hc']
    exact hfirst c' hc' hle'

/-- The entries of what was there then are as they are now. -/
theorem entry_eq {b b' : Books} (hext : b.Extends b') {tx : SavingsTransaction}
    (htx : tx ∈ b.tables.savingsTransactions) : b.entry tx = b'.entry tx := by
  unfold Books.entry
  rw [hext.memberOf tx htx, hext.postedAt tx htx, hext.narration tx htx]

/-- A run shows the range exactly when it covers every transaction of it. -/
theorem shown_perm_iff (hs : h.Stored) {front later : List Completed} {c : Completed}
    (hsplit : h.completed = front ++ c :: later) {memberId : Uuid} {fromDate toDate : Date} :
    (((h.db.reports.linesOf .savingsStatement c.run.id).filter
      (SavingsStatementService.shown memberId (some fromDate) (some toDate))).map (·.row.entry)).Perm
        ((h.db.books.inRange memberId fromDate toDate).map h.db.books.entry) ↔
      ∀ tx ∈ h.db.books.inRange memberId fromDate toDate, c.Covers later fromDate toDate tx := by
  have hc : c ∈ h.completed := by
    rw [hsplit]
    exact List.mem_append_right _ List.mem_cons_self
  have hext := hs.grown c hc
  have hshown := shown_perm hs hsplit memberId fromDate toDate
  have hmem : ∀ tx, tx ∈ c.books.inRange memberId c.period.periodStart c.period.periodEnd ↔
      tx ∈ c.books.tables.savingsTransactions ∧ c.books.memberOf tx.savingsAccountId = memberId ∧
        inWindow c.books c.period.periodStart c.period.periodEnd tx = true := by
    intro tx
    rw [Books.inRange, List.mem_filter, decide_eq_true_eq]
  by_cases hgood : fromDate ≤ c.period.periodStart ∧ c.period.periodEnd ≤ toDate ∧
      ∀ c' ∈ later, c'.period ≠ c.period
  · rw [if_pos hgood] at hshown
    have hsub : (c.books.inRange memberId c.period.periodStart c.period.periodEnd).Sublist
        (h.db.books.inRange memberId fromDate toDate) := inRange_sublist hext hgood.1 hgood.2.1
    have hentries : (c.books.inRange memberId c.period.periodStart c.period.periodEnd).map c.books.entry =
        (c.books.inRange memberId c.period.periodStart c.period.periodEnd).map h.db.books.entry := by
      apply List.map_congr_left
      intro tx htx
      exact entry_eq hext ((hmem tx).mp htx).1
    rw [hentries] at hshown
    constructor
    · intro hperm tx htx
      -- as many lines as transactions: none of the range is missing
      have hlength : (c.books.inRange memberId c.period.periodStart c.period.periodEnd).length =
          (h.db.books.inRange memberId fromDate toDate).length := by
        have hlen := (hshown.symm.trans hperm).length_eq
        rwa [List.length_map, List.length_map] at hlen
      rw [← hsub.eq_of_length hlength] at htx
      obtain ⟨hold, -, hwindow⟩ := (hmem tx).mp htx
      exact ⟨hgood.1, hgood.2.1, hgood.2.2, hwindow, hold⟩
    · intro hcovers
      refine hshown.trans (List.Perm.map _ ?_)
      have hnodup : (h.db.books.inRange memberId fromDate toDate).Nodup :=
        (List.Nodup.of_map _ h.db.books.savings_transactions_pkey).filter _
      refine (List.perm_ext_iff_of_nodup (hnodup.sublist hsub) hnodup).mpr fun tx => ?_
      constructor
      · exact fun htx => hsub.subset htx
      · intro htx
        obtain ⟨-, -, -, hwindow, hold⟩ := hcovers tx htx
        have hmember := (of_decide_eq_true (List.mem_filter.mp htx).2).1
        rw [hext.memberOf tx hold] at hmember
        exact (hmem tx).mpr ⟨hold, hmember, hwindow⟩
  · rw [if_neg hgood] at hshown
    rw [hshown.eq_nil]
    constructor
    · intro hperm tx htx
      rw [List.map_eq_nil_iff.mp hperm.symm.eq_nil] at htx
      exact absurd htx List.not_mem_nil
    · intro hcovers
      have hnone : h.db.books.inRange memberId fromDate toDate = [] := by
        rw [List.eq_nil_iff_forall_not_mem]
        intro tx htx
        obtain ⟨hfrom, hto, hkept, -⟩ := hcovers tx htx
        exact hgood ⟨hfrom, hto, hkept⟩
      rw [hnone]
      exact List.Perm.refl _

/-- For a range that some completed run reaches. -/
theorem showsRange_iff (hs : h.Stored) {memberId : Uuid} {fromDate toDate : Date}
    (hreached : ∃ c ∈ h.completed, toDate ≤ c.period.periodEnd) :
    ShowsRange h.db memberId fromDate toDate ↔ h.Covered memberId fromDate toDate := by
  unfold ShowsRange SavingsStatementService.getSavingsStatement
  constructor
  · intro hshows front c later hsplit hpicked
    have hc : c ∈ h.completed := by
      rw [hsplit]
      exact List.mem_append_right _ List.mem_cons_self
    have hperm := hshows _ (mem_answers.mpr (.inr ⟨c.run, (mem_candidates hs).mpr ⟨c, hc, rfl, hpicked⟩, rfl⟩))
    exact (shown_perm_iff hs hsplit).mp (((List.perm_insertionSort _ _).map _).symm.trans hperm)
  · intro hcovered answer hanswer
    rcases mem_answers.mp hanswer with ⟨hnone, -⟩ | ⟨run, hrun, rfl⟩
    · obtain ⟨c, hc, hle⟩ := hreached
      have hmem : c.run ∈ (h.db.reports.doneRuns .savingsStatement).filter (toDate ≤ ·.asOfDate) := by
        rw [List.mem_filter, decide_eq_true_eq, hs.asOf c hc]
        exact ⟨run_mem hs hc, hle⟩
      rw [oldest_eq_nil.mp hnone] at hmem
      exact absurd hmem List.not_mem_nil
    · obtain ⟨c, hc, rfl, hpicked⟩ := (mem_candidates hs).mp hrun
      obtain ⟨front, later, hsplit⟩ := List.append_of_mem hc
      exact ((List.perm_insertionSort _ _).map _).trans
        ((shown_perm_iff hs hsplit).mpr (hcovered front c later hsplit hpicked))

end

/-- Whatever statements were made, and whatever was posted in between: for a range inside the period of one
of them, `get_savings_statement` has exactly one line for each transaction of the member in the range,
exactly when every run that it may pick covers all of them. -/
theorem savings_statement_range_iff {books : Books} {ops : List StatementOp}
    (hops : Along StatementOp.step StatementOp.Appends (.start books) ops) {memberId : Uuid}
    {fromDate toDate : Date}
    (hwithin : ∃ c ∈ (run StatementOp.step (.start books) ops).completed,
      c.period.periodStart ≤ fromDate ∧ toDate ≤ c.period.periodEnd) :
    ShowsRange (run StatementOp.step (.start books) ops).db memberId fromDate toDate ↔
      (run StatementOp.step (.start books) ops).Covered memberId fromDate toDate := by
  have hs : (run StatementOp.step (.start books) ops).Stored :=
    run_invariant (fun _ op hs hop => step_statementStored op hs hop) (statementStored_start books) hops
  obtain ⟨c, hc, -, hto⟩ := hwithin
  exact showsRange_iff hs ⟨c, hc, hto⟩

/-- A statement from the last day of January to the first of February, with a deposit on either day. -/
def twoDays : List StatementOp := [.materialize january31 february1]

/-- The two days are shown when they are asked for together. -/
theorem savings_statement_twoDays :
    ShowsRange (run StatementOp.step (.start (savingsBooks (.deposit, .deposit))) twoDays).db 7
      january31 february1 := by
  refine (@savings_statement_range_iff (savingsBooks (.deposit, .deposit)) twoDays ⟨trivial, trivial⟩ 7
    january31 february1 (by decide +kernel)).mpr ?_
  have hreturns : Returns (SavingsStatementService.materialize january31 february1)
      ⟨savingsBooks (.deposit, .deposit), Reports.empty⟩ := by decide +kernel
  obtain ⟨made, reports, hstep⟩ := step_materialize
    (h := StatementHistory.start (savingsBooks (.deposit, .deposit))) hreturns
  rw [twoDays, run_cons, run_nil, hstep]
  intro front c later hsplit _ tx htx
  rcases List.singleton_eq_append_iff.mp hsplit with ⟨-, hrest⟩ | ⟨-, hrest⟩
  · obtain ⟨rfl, rfl⟩ := List.cons.inj hrest
    have hall : ∀ tx ∈ (savingsBooks (.deposit, .deposit)).inRange 7 january31 february1,
        inWindow (savingsBooks (.deposit, .deposit)) january31 february1 tx = true := by decide +kernel
    exact ⟨Nat.le_refl _, Nat.le_refl _, fun c' hc' => absurd hc' List.not_mem_nil, hall tx htx,
      (List.mem_filter.mp htx).1⟩
  · cases hrest

/-- Asked for alone, the deposit of 1 February is not shown. -/
theorem savings_statement_misses :
    SavingsStatementService.getSavingsStatement
        (run StatementOp.step (.start (savingsBooks (.deposit, .deposit))) twoDays).db 7 (some february1)
        (some february1) = [(some ⟨0, .savingsStatement, february1, .done⟩, [])] ∧
      (savingsBooks (.deposit, .deposit)).inRange 7 february1 february1 = [movement 2 .deposit 50] ∧
      ¬ ∀ (books : Books) (ops : List StatementOp) (memberId : Uuid) (fromDate toDate : Date),
        Along StatementOp.step StatementOp.Appends (.start books) ops →
        (∃ c ∈ (run StatementOp.step (.start books) ops).completed,
          c.period.periodStart ≤ fromDate ∧ toDate ≤ c.period.periodEnd) →
        ShowsRange (run StatementOp.step (.start books) ops).db memberId fromDate toDate := by
  have hanswers : SavingsStatementService.getSavingsStatement
      (run StatementOp.step (.start (savingsBooks (.deposit, .deposit))) twoDays).db 7 (some february1)
      (some february1) = [(some ⟨0, .savingsStatement, february1, .done⟩, [])] := by decide +kernel
  refine ⟨hanswers, by decide +kernel, ?_⟩
  intro hall
  have hshows := hall (savingsBooks (.deposit, .deposit)) twoDays 7 february1 february1 ⟨trivial, trivial⟩
    (by decide +kernel)
  unfold ShowsRange at hshows
  rw [hanswers] at hshows
  have hlength := (hshows _ List.mem_cons_self).length_eq
  have hposted : ((run StatementOp.step (.start (savingsBooks (.deposit, .deposit))) twoDays).db.books.inRange 7
    february1 february1).length = 1 := by decide +kernel
  rw [List.length_map, List.length_map, hposted] at hlength
  exact absurd hlength (by decide)

end SaccoPlatform.Reporting
