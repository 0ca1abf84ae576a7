import SaccoPlatform.Lib.Grouping
import SaccoPlatform.Savings.Service
import SaccoPlatform.Reporting.Materialize

/-!
# Statements of savings

`SavingsStatementService` and the savings part of `MemberStatementService`
(`app/modules/reporting/services/savings_statement.py`, `member_statement.py`). The first writes the
transactions of a period with a running balance for each account, the second lists the transactions
of one member's accounts when it is asked. Amounts have four decimals and sums of them fewer digits
than the decimal context has, so the sums are exact.
-/

namespace SaccoPlatform.Reporting

open Lib Session

/-- `_CREDIT_TYPES`. -/
def creditTypes : List SavingsTransactionType := [.deposit, .systemCredit, .externalCredit]

/-- `_signed`. -/
def signed (tx : SavingsTransaction) : ℚ :=
  if tx.transactionType ∈ creditTypes then tx.amount.val else - tx.amount.val

/-! ## Materialised statements -/

/-- `order_by(savings_account_id, posted_at)`. -/
def Books.StatementOrder (b : Books) (x y : SavingsTransaction) : Prop :=
  x.savingsAccountId < y.savingsAccountId ∨ (x.savingsAccountId = y.savingsAccountId ∧
    b.columns.postedAt x.id ≤ b.columns.postedAt y.id)

instance (b : Books) : DecidableRel b.StatementOrder := fun x y =>
  inferInstanceAs (Decidable (x.savingsAccountId < y.savingsAccountId ∨
    (x.savingsAccountId = y.savingsAccountId ∧ b.columns.postedAt x.id ≤ b.columns.postedAt y.id)))

/-- `order_by(posted_at)`. -/
def Books.PostedOrder (b : Books) (x y : SavingsTransaction) : Prop :=
  b.columns.postedAt x.id ≤ b.columns.postedAt y.id

instance (b : Books) : DecidableRel b.PostedOrder := fun x y =>
  inferInstanceAs (Decidable (b.columns.postedAt x.id ≤ b.columns.postedAt y.id))

/-- The transactions posted at an instant in question, each with the member of its account, in the
order of the statement. -/
def Books.transactionsPosted (b : Books) (posted : Instant → Bool) : List (SavingsTransaction × Uuid) :=
  ((b.tables.savingsTransactions.filter fun tx => posted (b.columns.postedAt tx.id)).flatMap fun tx =>
    (b.tables.savingsAccounts.filter (·.id = tx.savingsAccountId)).map fun a =>
      (tx, a.memberId)).insertionSort fun x y => b.StatementOrder x.1 y.1

def Books.statementRow (b : Books) (tx : SavingsTransaction) (memberId : Uuid) (runningBalance : Money) :
    SavingsStatementRow where
  savingsAccountId := tx.savingsAccountId
  memberId := memberId
  postedAt := b.columns.postedAt tx.id
  transactionType := tx.transactionType
  narration := b.columns.narration tx.id
  amount := tx.amount
  runningBalance := runningBalance

/-- The lines for the transactions, with the running balances of the accounts so far. -/
def Books.statementRows? (b : Books) : (Uuid → ℚ) → List (SavingsTransaction × Uuid) →
    Option (List SavingsStatementRow)
  | _, [] => some []
  | runningBalances, (tx, memberId) :: rest => do
    let balance := runningBalances tx.savingsAccountId + signed tx
    let runningBalance ← Numeric.ofRat? balance
    let rows ← b.statementRows? (Function.update runningBalances tx.savingsAccountId balance) rest
    pure (b.statementRow tx memberId runningBalance :: rows)

namespace SavingsStatementService

/-- The query of `materialize`. -/
def select (period : Period) : Session Books Err (List SavingsStatementRow) := do
  let dayEnd ← orRaise period.periodEnd.nextMidnight? .overflowError
  let b ← get
  orAbort (b.statementRows? (fun _ => 0)
    (b.transactionsPosted fun i => period.periodStart.midnight ≤ i ∧ i < dayEnd)) .numericOverflow

def materialize (periodStart periodEnd : Date) : Session Db Err ReportRun :=
  Reporting.materialize .savingsStatement ⟨periodStart, periodEnd⟩ (select ⟨periodStart, periodEnd⟩)

/-- The runs that `get_savings_statement` may pick: the oldest ones that are not before `to_date`. -/
def candidates (s : Reports) (toDate : Option Date) : List ReportRun :=
  match toDate with
  | some date => oldest ((s.doneRuns .savingsStatement).filter (date ≤ ·.asOfDate))
  | none => newest (s.doneRuns .savingsStatement)

/-- The lines of its run that `get_savings_statement` shows. -/
def shown (memberId : Uuid) (fromDate toDate : Option Date) (line : ReportLine .savingsStatement) : Bool :=
  line.row.memberId = memberId ∧ (∀ date ∈ fromDate, date ≤ line.key.periodStart) ∧
    ∀ date ∈ toDate, line.key.periodEnd ≤ date

/-- `get_savings_statement`. -/
def getSavingsStatement (db : Db) (memberId : Uuid) (fromDate toDate : Option Date) :
    List (Option ReportRun × List (ReportLine .savingsStatement)) :=
  db.reports.answers (candidates db.reports toDate) (shown memberId fromDate toDate)
    fun x y => x.row.savingsAccountId < y.row.savingsAccountId ∨
      (x.row.savingsAccountId = y.row.savingsAccountId ∧ x.row.postedAt ≤ y.row.postedAt)

end SavingsStatementService

/-! ## Statements on demand -/

structure StatementLine where
  txn : SavingsTransaction
  signed : ℚ
  running : ℚ
deriving DecidableEq, Repr

structure AccountStatement where
  account : SavingsAccount
  openingBalance : ℚ
  closingBalance : ℚ
  lines : List StatementLine
deriving DecidableEq, Repr

namespace MemberStatementService

/-- `from_date is not None and txn.posted_at < _day_start(from_date)`. -/
def isBefore (fromDate : Option Date) (i : Instant) : Bool := ∃ date ∈ fromDate, i < date.midnight

/-- `to_date is not None and txn.posted_at >= _day_end_exclusive(to_date)`. -/
def isAfter (toDate : Option Date) (i : Instant) : Except Err Bool :=
  match toDate with
  | none => .ok false
  | some date =>
    match date.nextMidnight? with
    | some dayEnd => .ok (dayEnd ≤ i)
    | none => .error .overflowError

/-- The loop over the transactions of an account: the opening balance and the lines. -/
def accountLines (b : Books) (fromDate toDate : Option Date) : ℚ → ℚ → List SavingsTransaction →
    Except Err (ℚ × List StatementLine)
  | opening, _, [] => .ok (opening, [])
  | opening, running, txn :: rest =>
    if isBefore fromDate (b.columns.postedAt txn.id) then
      accountLines b fromDate toDate (opening + signed txn) (running + signed txn) rest
    else do
      if ← isAfter toDate (b.columns.postedAt txn.id) then
        accountLines b fromDate toDate opening running rest
      else
        let (final, lines) ← accountLines b fromDate toDate opening (running + signed txn) rest
        pure (final, ⟨txn, signed txn, running + signed txn⟩ :: lines)

/-- `select(SavingsTransaction).where(...).order_by(posted_at)`. -/
def accountTransactions (b : Books) (accountId : Uuid) : List SavingsTransaction :=
  (b.tables.savingsTransactions.filter (·.savingsAccountId = accountId)).insertionSort b.PostedOrder

def accountStatement (b : Books) (fromDate toDate : Option Date) (account : SavingsAccount) :
    Except Err AccountStatement := do
  let (opening, lines) ← accountLines b fromDate toDate 0 0 (accountTransactions b account.id)
  pure ⟨account, opening, (lines.getLast?.map (·.running)).getD opening, lines⟩

/-- `_savings`: the accounts of the member, oldest first. -/
def savings (b : Books) (memberId : Uuid) (fromDate toDate : Option Date) :
    Except Err (List AccountStatement) :=
  (b.tables.savingsAccounts.filter (·.memberId = memberId)).mapM (accountStatement b fromDate toDate)

end MemberStatementService

/-! ## The lines of a materialised statement -/

section

variable {b : Books}

instance (b : Books) : Std.Total b.StatementOrder where
  total x y := by
    rcases Nat.lt_trichotomy x.savingsAccountId y.savingsAccountId with hlt | heq | hgt
    · exact .inl (.inl hlt)
    · rcases Int.le_total (b.columns.postedAt x.id) (b.columns.postedAt y.id) with hle | hle
      · exact .inl (.inr ⟨heq, hle⟩)
      · exact .inr (.inr ⟨heq.symm, hle⟩)
    · exact .inr (.inl hgt)

instance (b : Books) : IsTrans SavingsTransaction b.StatementOrder where
  trans x y z hxy hyz := by
    rcases hxy with hxy | ⟨hxy, hxy'⟩
    · rcases hyz with hyz | ⟨hyz, -⟩
      · exact .inl (Nat.lt_trans hxy hyz)
      · exact .inl (hyz ▸ hxy)
    · rcases hyz with hyz | ⟨hyz, hyz'⟩
      · exact .inl (hxy ▸ hyz)
      · exact .inr ⟨hxy.trans hyz, Int.le_trans hxy' hyz'⟩

instance (b : Books) : Std.Total b.PostedOrder where
  total _ _ := Int.le_total _ _

instance (b : Books) : IsTrans SavingsTransaction b.PostedOrder where
  trans _ _ _ := Int.le_trans

/-- The member of an account. -/
def Books.memberOf (b : Books) (accountId : Uuid) : Uuid :=
  ((b.tables.savingsAccounts.filter (·.id = accountId)).map (·.memberId)).headD 0

theorem memberOf_eq {a : SavingsAccount} (ha : a ∈ b.tables.savingsAccounts) :
    b.memberOf a.id = a.memberId := by
  unfold Books.memberOf
  rw [filter_key_of_mem b.savings_accounts_pkey ha]
  rfl

/-- Every transaction has one account, so the join leaves them as they are. -/
theorem transactionsPosted_eq (posted : Instant → Bool) : b.transactionsPosted posted =
    ((b.tables.savingsTransactions.filter fun tx => posted (b.columns.postedAt tx.id)).insertionSort
      b.StatementOrder).map fun tx => (tx, b.memberOf tx.savingsAccountId) := by
  rw [Books.transactionsPosted, List.map_insertionSort _ (fun x y => b.StatementOrder x.1 y.1)]
  · congr 1
    apply flatMap_eq_map
    intro tx htx
    obtain ⟨a, ha, hid⟩ := List.mem_map.mp (b.fk_savtx_account tx (List.mem_filter.mp htx).1)
    rw [← hid, filter_key_of_mem b.savings_accounts_pkey ha, memberOf_eq ha]
    rfl
  · exact fun _ _ _ _ => Iff.rfl

theorem signed_mem_grid (tx : SavingsTransaction) : signed tx ∈ grid 4 := by
  unfold signed
  split
  · exact tx.amount.onGrid
  · exact neg_mem tx.amount.onGrid

/-- A line for each transaction: its running balance is the balance of the account before, and the
transactions of the account up to this one. -/
theorem mem_statementRows? {balances : Uuid → ℚ} {txs : List (SavingsTransaction × Uuid)}
    {rows : List SavingsStatementRow} (hgrid : ∀ id, balances id ∈ grid 4)
    (h : b.statementRows? balances txs = some rows) {row : SavingsStatementRow} :
    row ∈ rows ↔ ∃ front x rest rb, txs = front ++ x :: rest ∧ row = b.statementRow x.1 x.2 rb ∧
      rb.val = balances x.1.savingsAccountId +
        sumWhere (fun y => y.1.savingsAccountId = x.1.savingsAccountId) (fun y => signed y.1)
          (front ++ [x]) := by
  induction txs generalizing balances rows with
  | nil =>
    obtain rfl : rows = [] := (Option.some.inj h).symm
    simp
  | cons x txs ih =>
    obtain ⟨tx, memberId⟩ := x
    simp only [Books.statementRows?, Option.bind_eq_bind, Option.bind_eq_some_iff, Option.pure_def,
      Option.some.injEq] at h
    obtain ⟨rb, hrb, rows, hrows, rfl⟩ := h
    have hbalance : balances tx.savingsAccountId + signed tx ∈ grid 4 :=
      add_mem (hgrid _) (signed_mem_grid tx)
    have hval : rb.val = balances tx.savingsAccountId + signed tx := Numeric.val_of_ofRat?_mem hbalance hrb
    have hgrid' : ∀ id, Function.update balances tx.savingsAccountId
        (balances tx.savingsAccountId + signed tx) id ∈ grid 4 := by
      intro id
      rw [Function.update_apply]
      split
      · exact hbalance
      · exact hgrid id
    -- what the first transaction adds is in the balances from then on
    have hsum : ∀ (front : List (SavingsTransaction × Uuid)) (y : SavingsTransaction × Uuid),
        Function.update balances tx.savingsAccountId (balances tx.savingsAccountId + signed tx)
          y.1.savingsAccountId + sumWhere (fun z => z.1.savingsAccountId = y.1.savingsAccountId)
            (fun z => signed z.1) (front ++ [y]) =
        balances y.1.savingsAccountId + sumWhere (fun z => z.1.savingsAccountId = y.1.savingsAccountId)
            (fun z => signed z.1) ((tx, memberId) :: front ++ [y]) := by
      intro front y
      rw [List.cons_append, sumWhere_cons, Function.update_apply]
      by_cases hsame : tx.savingsAccountId = y.1.savingsAccountId
      · rw [if_pos hsame.symm, if_pos (decide_eq_true hsame), hsame]
        ring
      · rw [if_neg (Ne.symm hsame), if_neg (by simpa using hsame)]
        ring
    rw [List.mem_cons, ih hgrid' hrows]
    constructor
    · rintro (rfl | ⟨front, y, rest, rb', rfl, rfl, hrb'⟩)
      · refine ⟨[], (tx, memberId), txs, rb, rfl, rfl, ?_⟩
        simpa [sumWhere] using hval
      · exact ⟨(tx, memberId) :: front, y, rest, rb', rfl, rfl, hrb'.trans (hsum front y)⟩
    · rintro ⟨front, y, rest, rb', heq, rfl, hrb'⟩
      cases front with
      | nil =>
        cases heq
        left
        have hsame : rb' = rb := by
          ext
          rw [hval, hrb']
          simp [sumWhere]
        rw [hsame]
      | cons z front =>
        cases heq
        exact .inr ⟨front, y, rest, rb', rfl, rfl, hrb'.trans (hsum front y).symm⟩

/-- The rows are those of the transactions, one each. -/
theorem statementRows?_forall₂ {balances : Uuid → ℚ} {txs : List (SavingsTransaction × Uuid)}
    {rows : List SavingsStatementRow} (h : b.statementRows? balances txs = some rows) :
    List.Forall₂ (fun x row => row = b.statementRow x.1 x.2 row.runningBalance) txs rows := by
  induction txs generalizing balances rows with
  | nil =>
    obtain rfl : rows = [] := (Option.some.inj h).symm
    exact .nil
  | cons x txs ih =>
    obtain ⟨tx, memberId⟩ := x
    simp only [Books.statementRows?, Option.bind_eq_bind, Option.bind_eq_some_iff, Option.pure_def,
      Option.some.injEq] at h
    obtain ⟨rb, -, rows, hrows, rfl⟩ := h
    exact .cons rfl (ih hrows)

/-! ## The lines of a statement on demand -/

theorem isBefore_some {d : Date} {i : Instant} :
    MemberStatementService.isBefore (some d) i = decide (i < d.midnight) := by
  simp [MemberStatementService.isBefore]

theorem isAfter_some {d : Date} (hlast : d.ordinal < maxOrdinal) {i : Instant} :
    MemberStatementService.isAfter (some d) i = .ok (decide (d.midnight + microsPerDay ≤ i)) := by
  have hnext : d.nextMidnight? = some (d.midnight + microsPerDay) :=
    Date.nextMidnight?_eq_some.mpr ⟨hlast, rfl⟩
  simp only [MemberStatementService.isAfter, hnext]

/-- With both dates given: a line for each transaction on the days in question. The running value
counts what was posted before them and on them, up to the transaction. -/
theorem mem_accountLines {fromDate toDate : Date} (hlast : toDate.ordinal < maxOrdinal)
    {opening running final : ℚ} {txs : List SavingsTransaction} {lines : List StatementLine}
    (h : MemberStatementService.accountLines b (some fromDate) (some toDate) opening running txs =
      .ok (final, lines)) {line : StatementLine} :
    line ∈ lines ↔ ∃ front rest, txs = front ++ line.txn :: rest ∧
      fromDate.midnight ≤ b.columns.postedAt line.txn.id ∧
      b.columns.postedAt line.txn.id < toDate.midnight + microsPerDay ∧
      line.signed = signed line.txn ∧ line.running = running + sumWhere
        (fun tx => b.columns.postedAt tx.id < fromDate.midnight ∨
          b.columns.postedAt tx.id < toDate.midnight + microsPerDay) signed (front ++ [line.txn]) := by
  induction txs generalizing opening running lines with
  | nil =>
    cases h
    simp
  | cons tx txs ih =>
    rw [MemberStatementService.accountLines, isBefore_some] at h
    simp only [exists_split_cons, List.cons_append, sumWhere_cons, ← add_assoc]
    by_cases hbefore : b.columns.postedAt tx.id < fromDate.midnight
    · rw [if_pos (decide_eq_true hbefore)] at h
      rw [ih h, if_pos (decide_eq_true (.inl hbefore)), or_iff_right]
      rintro ⟨rfl, hfrom, -⟩
      exact absurd hbefore (not_lt.mpr hfrom)
    · rw [if_neg (by simpa using hbefore), isAfter_some hlast] at h
      by_cases hafter : toDate.midnight + microsPerDay ≤ b.columns.postedAt tx.id
      · have hrest : MemberStatementService.accountLines b (some fromDate) (some toDate) opening running
            txs = .ok (final, lines) := by
          rwa [decide_eq_true hafter] at h
        have hskip : ¬ (b.columns.postedAt tx.id < fromDate.midnight ∨
            b.columns.postedAt tx.id < toDate.midnight + microsPerDay) :=
          not_or.mpr ⟨hbefore, not_lt.mpr hafter⟩
        rw [ih hrest, if_neg (by simpa using hskip), add_zero, or_iff_right]
        rintro ⟨rfl, -, hto, -⟩
        exact absurd hto (not_lt.mpr hafter)
      · have hin : b.columns.postedAt tx.id < toDate.midnight + microsPerDay := not_le.mp hafter
        rw [decide_eq_false hafter] at h
        have hkept : (MemberStatementService.accountLines b (some fromDate) (some toDate) opening
            (running + signed tx) txs >>= fun p => pure (p.1,
              (⟨tx, signed tx, running + signed tx⟩ : StatementLine) :: p.2)) = .ok (final, lines) := h
        obtain ⟨⟨final', lines'⟩, hrest, hlines⟩ := except_bind_eq_ok.mp hkept
        cases hlines
        rw [List.mem_cons, ih hrest, if_pos (decide_eq_true (.inr hin))]
        refine or_congr_left ?_
        -- the line of this transaction
        obtain ⟨txn, signedAmount, runningValue⟩ := line
        constructor
        · intro heq
          cases heq
          exact ⟨rfl, not_lt.mp hbefore, hin, rfl, by simp [sumWhere, hin]⟩
        · rintro ⟨rfl, -, -, hsigned, hrunning⟩
          have hrunning' : runningValue = running + signed tx := by
            simpa [sumWhere, hin] using hrunning
          have hsigned' : signedAmount = signed tx := hsigned
          rw [hsigned', hrunning']

end

end SaccoPlatform.Reporting
