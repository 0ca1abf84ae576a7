import SaccoPlatform.Reporting.Coherence
import SaccoPlatform.Reporting.SavingsStatement

/-!
# Running balances

The materialised statement begins every period at zero, the statement on demand with what was posted
before. Both count what other modules recorded (`EXTERNAL_CREDIT`, `EXTERNAL_DEBIT`), which a balance
leaves out.
-/

namespace SaccoPlatform.Reporting

open Lib Session

/-- The tables just after an instant: what was posted later is not there yet. -/
def Books.tablesAt (b : Books) (i : Instant) : Tables :=
  { b.tables with
    savingsTransactions := b.tables.savingsTransactions.filter fun tx => b.columns.postedAt tx.id ≤ i }

/-- Each materialised line of the account has its line on demand, and states the same value as this
and as `get_balance` just after the transaction. -/
def StatementsAgree (b : Books) (accountId : Uuid) (rows : List SavingsStatementRow)
    (statement : AccountStatement) : Prop :=
  ∀ row ∈ rows, row.savingsAccountId = accountId →
    (∃ line ∈ statement.lines, b.columns.postedAt line.txn.id = row.postedAt ∧
      line.running = row.runningBalance.val) ∧
    getSavingsBalance accountId (b.tablesAt row.postedAt) =
      .ok row.runningBalance.val (b.tablesAt row.postedAt)

/-- What was posted on the account before the day. -/
def Books.carriedIn (b : Books) (accountId : Uuid) (fromDate : Date) : ℚ :=
  sumWhere (fun tx => tx.savingsAccountId = accountId ∧ b.columns.postedAt tx.id < fromDate.midnight) signed
    b.tables.savingsTransactions

/-- What other modules recorded on the account up to the instant. -/
def Books.externalUntil (b : Books) (accountId : Uuid) (i : Instant) : ℚ :=
  sumWhere (fun tx => tx.savingsAccountId = accountId ∧ b.columns.postedAt tx.id ≤ i ∧
    (tx.transactionType = .externalCredit ∨ tx.transactionType = .externalDebit)) signed
    b.tables.savingsTransactions

/-- A transaction of the period on the account. -/
def Books.InPeriod (b : Books) (accountId : Uuid) (fromDate toDate : Date) (tx : SavingsTransaction) :
    Prop :=
  tx.savingsAccountId = accountId ∧ fromDate.midnight ≤ b.columns.postedAt tx.id ∧
    b.columns.postedAt tx.id < toDate.midnight + microsPerDay

instance (b : Books) (accountId : Uuid) (fromDate toDate : Date) :
    DecidablePred (b.InPeriod accountId fromDate toDate) := fun _ =>
  inferInstanceAs (Decidable (_ ∧ _ ∧ _))

/-- The account has no transaction in the period, or it comes into it with nothing, and what other
modules recorded cancels out up to each transaction of the period. -/
def Books.NothingCarried (b : Books) (accountId : Uuid) (fromDate toDate : Date) : Prop :=
  ∀ tx ∈ b.tables.savingsTransactions, b.InPeriod accountId fromDate toDate tx →
    b.carriedIn accountId fromDate = 0 ∧ b.externalUntil accountId (b.columns.postedAt tx.id) = 0

instance (b : Books) (accountId : Uuid) (fromDate toDate : Date) :
    Decidable (b.NothingCarried accountId fromDate toDate) :=
  inferInstanceAs (Decidable (∀ tx ∈ b.tables.savingsTransactions, _ → _ ∧ _))

section

variable {b : Books} {a : SavingsAccount} {fromDate toDate : Date}

/-- No two transactions of the account were posted at the same instant. -/
def Books.DistinctlyPosted (b : Books) (accountId : Uuid) : Prop :=
  ((b.tables.savingsTransactions.filter (·.savingsAccountId = accountId)).map
    fun tx => b.columns.postedAt tx.id).Nodup

instance (accountId : Uuid) : Decidable (b.DistinctlyPosted accountId) :=
  inferInstanceAs (Decidable (List.Nodup _))

/-- The query changes nothing. -/
theorem savingsStatement_select_eq_ok {period : Period} {rows : List SavingsStatementRow} {b' : Books} :
    SavingsStatementService.select period b = .ok rows b' ↔
      period.periodEnd.ordinal < maxOrdinal ∧ b.statementRows? (fun _ => 0) (b.transactionsPosted fun i =>
        period.periodStart.midnight ≤ i ∧ i < period.periodEnd.midnight + microsPerDay) = some rows ∧
      b' = b := by
  simp only [SavingsStatementService.select, orRaise_bind_eq_ok, get_bind_eq_ok, orAbort_eq_ok,
    Date.nextMidnight?_eq_some]
  constructor
  · rintro ⟨_, ⟨hlast, rfl⟩, hrows, hb⟩
    exact ⟨hlast, hrows, hb⟩
  · rintro ⟨hlast, hrows, hb⟩
    exact ⟨_, ⟨hlast, rfl⟩, hrows, hb⟩

theorem reports_savingsStatement {rows : List SavingsStatementRow} :
    b.Reports .savingsStatement (SavingsStatementService.materialize fromDate toDate) rows ↔
      toDate.ordinal < maxOrdinal ∧ b.statementRows? (fun _ => 0) (b.transactionsPosted fun i =>
        fromDate.midnight ≤ i ∧ i < toDate.midnight + microsPerDay) = some rows := by
  refine reports_iff.trans ?_
  constructor
  · rintro ⟨b', hselect⟩
    obtain ⟨hlast, hrows, -⟩ := savingsStatement_select_eq_ok.mp hselect
    exact ⟨hlast, hrows⟩
  · rintro ⟨hlast, hrows⟩
    exact ⟨b, savingsStatement_select_eq_ok.mpr ⟨hlast, hrows, rfl⟩⟩

/-! ## The three values of a transaction -/

/-- The transactions of an account among others, in strict order. -/
theorem pairwise_lt_of_perm (hdistinct : b.DistinctlyPosted a.id) {txs : List SavingsTransaction}
    {p : SavingsTransaction → Bool}
    (hperm : txs.Perm ((b.tables.savingsTransactions.filter (·.savingsAccountId = a.id)).filter p))
    (hsorted : txs.Pairwise b.PostedOrder) :
    txs.Pairwise fun x y => b.columns.postedAt x.id < b.columns.postedAt y.id := by
  refine pairwise_lt_of_nodup hsorted ?_
  rw [(hperm.map _).nodup_iff]
  exact hdistinct.sublist (List.filter_sublist.map _)

/-- The sum up to a transaction, over the transactions that were selected. -/
theorem sum_front (hdistinct : b.DistinctlyPosted a.id) {txs front rest : List SavingsTransaction}
    {p : SavingsTransaction → Bool} {x : SavingsTransaction}
    (hperm : txs.Perm ((b.tables.savingsTransactions.filter (·.savingsAccountId = a.id)).filter p))
    (hsorted : txs.Pairwise b.PostedOrder) (hsplit : txs = front ++ x :: rest) :
    ((front ++ [x]).map signed).sum = sumWhere (fun tx => tx.savingsAccountId = a.id ∧
      p tx = true ∧ b.columns.postedAt tx.id ≤ b.columns.postedAt x.id) signed
        b.tables.savingsTransactions := by
  have hstrict := pairwise_lt_of_perm hdistinct hperm hsorted
  rw [hsplit] at hstrict hperm
  rw [← sum_upTo hstrict, sumWhere_perm _ _ hperm, sumWhere_filter, sumWhere_filter]
  apply sumWhere_congr
  intro tx _
  by_cases hacct : tx.savingsAccountId = a.id <;>
    by_cases hp : p tx = true <;> simp [hacct, hp]

theorem accountTransactions_perm :
    (MemberStatementService.accountTransactions b a.id).Perm
      ((b.tables.savingsTransactions.filter (·.savingsAccountId = a.id)).filter fun _ => true) := by
  rw [List.filter_true]
  exact List.perm_insertionSort _ _

/-- The running value on demand: what was posted on the account up to the transaction. -/
theorem mem_accountStatement (hdistinct : b.DistinctlyPosted a.id) (hlast : toDate.ordinal < maxOrdinal)
    {statement : AccountStatement}
    (h : MemberStatementService.accountStatement b (some fromDate) (some toDate) a = .ok statement)
    {line : StatementLine} :
    line ∈ statement.lines ↔ line.txn ∈ b.tables.savingsTransactions ∧
      b.InPeriod a.id fromDate toDate line.txn ∧ line.signed = signed line.txn ∧
      line.running = sumWhere (fun tx => tx.savingsAccountId = a.id ∧
        b.columns.postedAt tx.id ≤ b.columns.postedAt line.txn.id) signed b.tables.savingsTransactions := by
  obtain ⟨⟨opening, lines⟩, hlines, hst⟩ := except_bind_eq_ok.mp h
  cases hst
  have hsorted := List.pairwise_insertionSort b.PostedOrder
    (b.tables.savingsTransactions.filter (·.savingsAccountId = a.id))
  have hsum : ∀ {front rest : List SavingsTransaction},
      MemberStatementService.accountTransactions b a.id = front ++ line.txn :: rest →
      b.columns.postedAt line.txn.id < toDate.midnight + microsPerDay →
      sumWhere (fun tx => b.columns.postedAt tx.id < fromDate.midnight ∨
          b.columns.postedAt tx.id < toDate.midnight + microsPerDay) signed (front ++ [line.txn]) =
        sumWhere (fun tx => tx.savingsAccountId = a.id ∧
          b.columns.postedAt tx.id ≤ b.columns.postedAt line.txn.id) signed
            b.tables.savingsTransactions := by
    intro front rest hsplit hto
    -- nothing before the transaction was posted after the period
    have hall : ∀ tx ∈ front ++ [line.txn], b.columns.postedAt tx.id < toDate.midnight + microsPerDay := by
      intro tx htx
      rw [MemberStatementService.accountTransactions] at hsplit
      rw [hsplit, List.pairwise_append] at hsorted
      rcases List.mem_append.mp htx with htx | htx
      · exact lt_of_le_of_lt (hsorted.2.2 tx htx _ List.mem_cons_self) hto
      · rwa [List.mem_singleton.mp htx]
    have hfront := sum_front hdistinct accountTransactions_perm hsorted hsplit
    simp only [true_and] at hfront
    rw [← hfront, sumWhere, List.filter_eq_self.mpr]
    intro tx htx
    exact decide_eq_true (.inr (hall tx htx))
  rw [mem_accountLines hlast hlines]
  constructor
  · rintro ⟨front, rest, hsplit, hfrom, hto, hsigned, hrunning⟩
    have hmem : line.txn ∈ MemberStatementService.accountTransactions b a.id := by
      rw [hsplit]
      exact List.mem_append_right _ List.mem_cons_self
    rw [MemberStatementService.accountTransactions, List.mem_insertionSort, List.mem_filter,
      decide_eq_true_eq] at hmem
    refine ⟨hmem.1, ⟨hmem.2, hfrom, hto⟩, hsigned, ?_⟩
    rw [hrunning, zero_add, hsum hsplit hto]
  · rintro ⟨hmem, ⟨hacct, hfrom, hto⟩, hsigned, hrunning⟩
    have hin : line.txn ∈ MemberStatementService.accountTransactions b a.id := by
      rw [MemberStatementService.accountTransactions, List.mem_insertionSort, List.mem_filter]
      exact ⟨hmem, decide_eq_true hacct⟩
    obtain ⟨front, rest, hsplit⟩ := List.append_of_mem hin
    refine ⟨front, rest, hsplit, hfrom, hto, hsigned, ?_⟩
    rw [hrunning, zero_add, hsum hsplit hto]

/-- The transactions posted in a period. -/
def inWindow (b : Books) (fromDate toDate : Date) (tx : SavingsTransaction) : Bool :=
  fromDate.midnight ≤ b.columns.postedAt tx.id ∧
    b.columns.postedAt tx.id < toDate.midnight + microsPerDay

/-- The transactions of a materialised statement, in its order. -/
theorem transactionsPosted_inWindow : b.transactionsPosted (fun i =>
      fromDate.midnight ≤ i ∧ i < toDate.midnight + microsPerDay) =
    ((b.tables.savingsTransactions.filter (inWindow b fromDate toDate)).insertionSort
      b.StatementOrder).map fun tx => (tx, b.memberOf tx.savingsAccountId) :=
  transactionsPosted_eq _

/-- The transactions of one account in the order of the materialised statement. -/
theorem statementOrder_account {txs : List SavingsTransaction} (hsorted : txs.Pairwise b.StatementOrder)
    (accountId : Uuid) : (txs.filter (·.savingsAccountId = accountId)).Pairwise b.PostedOrder := by
  refine (hsorted.filter _).imp_of_mem ?_
  intro x y hx hy hxy
  have hx' := of_decide_eq_true (List.mem_filter.mp hx).2
  have hy' := of_decide_eq_true (List.mem_filter.mp hy).2
  rcases hxy with hlt | ⟨-, hle⟩
  · rw [hx', hy'] at hlt
    exact absurd hlt (Nat.lt_irrefl _)
  · exact hle

/-- The materialised running balance: what was posted on the account in the period up to the
transaction. -/
theorem mem_savingsStatement (hdistinct : b.DistinctlyPosted a.id) {rows : List SavingsStatementRow}
    (h : b.statementRows? (fun _ => 0) (b.transactionsPosted fun i =>
      fromDate.midnight ≤ i ∧ i < toDate.midnight + microsPerDay) = some rows)
    {row : SavingsStatementRow} :
    row ∈ rows ∧ row.savingsAccountId = a.id ↔ ∃ tx ∈ b.tables.savingsTransactions,
      b.InPeriod a.id fromDate toDate tx ∧
      row = b.statementRow tx (b.memberOf a.id) row.runningBalance ∧
      row.runningBalance.val = sumWhere (fun y => y.savingsAccountId = a.id ∧
        inWindow b fromDate toDate y = true ∧
        b.columns.postedAt y.id ≤ b.columns.postedAt tx.id) signed b.tables.savingsTransactions := by
  let sorted := (b.tables.savingsTransactions.filter (inWindow b fromDate toDate)).insertionSort
    b.StatementOrder
  let withMember (tx : SavingsTransaction) := (tx, b.memberOf tx.savingsAccountId)
  have hsorted : sorted.Pairwise b.StatementOrder := List.pairwise_insertionSort _ _
  have hperm : (sorted.filter (·.savingsAccountId = a.id)).Perm
      ((b.tables.savingsTransactions.filter (·.savingsAccountId = a.id)).filter
        (inWindow b fromDate toDate)) := by
    rw [List.filter_comm]
    exact (List.perm_insertionSort _ _).filter _
  have hsum : ∀ {front rest : List SavingsTransaction} {tx : SavingsTransaction},
      sorted = front ++ tx :: rest → tx.savingsAccountId = a.id →
      sumWhere (fun y : SavingsTransaction × Uuid => y.1.savingsAccountId = tx.savingsAccountId)
          (fun y => signed y.1) (front.map withMember ++ [withMember tx]) =
        sumWhere (fun y => y.savingsAccountId = a.id ∧ inWindow b fromDate toDate y = true ∧
          b.columns.postedAt y.id ≤ b.columns.postedAt tx.id) signed b.tables.savingsTransactions := by
    intro front rest tx hsplit hacct
    have hsplit' : sorted.filter (·.savingsAccountId = a.id) =
        front.filter (·.savingsAccountId = a.id) ++ tx :: rest.filter (·.savingsAccountId = a.id) := by
      rw [hsplit, List.filter_append, List.filter_cons, if_pos (decide_eq_true hacct)]
    rw [← sum_front hdistinct hperm (statementOrder_account hsorted a.id) hsplit',
      show front.map withMember ++ [withMember tx] = (front ++ [tx]).map withMember by simp,
      sumWhere_map, hacct, sumWhere, List.filter_append, List.filter_cons, if_pos (decide_eq_true hacct)]
    rfl
  rw [transactionsPosted_inWindow] at h
  rw [mem_statementRows? (fun _ => zero_mem _) h]
  constructor
  · rintro ⟨⟨front, x, rest, rb, hsplit, rfl, hrb⟩, hacct⟩
    obtain ⟨front, later, hsorted', rfl, hlater⟩ := List.map_eq_append_iff.mp hsplit
    obtain ⟨tx, rest, rfl, rfl, -⟩ := List.map_eq_cons_iff.mp hlater
    have hmem : tx ∈ sorted := by
      rw [show sorted = front ++ tx :: rest from hsorted']
      exact List.mem_append_right _ List.mem_cons_self
    rw [List.mem_insertionSort, List.mem_filter, inWindow, decide_eq_true_eq] at hmem
    have hacct' : tx.savingsAccountId = a.id := hacct
    refine ⟨tx, hmem.1, ⟨hacct', hmem.2⟩, ?_, ?_⟩
    · rw [← hacct']
      rfl
    · show rb.val = _
      rw [hrb, zero_add]
      exact hsum hsorted' hacct'
  · rintro ⟨tx, htx, ⟨hacct, hwindow⟩, hrow, hval⟩
    have hmem : tx ∈ sorted := by
      rw [List.mem_insertionSort, List.mem_filter, inWindow, decide_eq_true_eq]
      exact ⟨htx, hwindow⟩
    obtain ⟨front, rest, hsplit⟩ := List.append_of_mem hmem
    refine ⟨⟨front.map withMember, withMember tx, rest.map withMember, row.runningBalance, ?_, ?_, ?_⟩, ?_⟩
    · show sorted.map withMember = _
      rw [hsplit, List.map_append, List.map_cons]
    · rw [hrow, ← hacct]
      rfl
    · rw [hval, zero_add]
      exact (hsum hsplit hacct).symm
    · rw [hrow]
      exact hacct

/-- Every transaction of the period on the account has its line. -/
theorem exists_row {rows : List SavingsStatementRow}
    (h : b.statementRows? (fun _ => 0) (b.transactionsPosted fun i =>
      fromDate.midnight ≤ i ∧ i < toDate.midnight + microsPerDay) = some rows) {tx : SavingsTransaction}
    (htx : tx ∈ b.tables.savingsTransactions) (hin : b.InPeriod a.id fromDate toDate tx) :
    ∃ row ∈ rows, row.savingsAccountId = a.id ∧ row.postedAt = b.columns.postedAt tx.id := by
  have hmem : (tx, b.memberOf tx.savingsAccountId) ∈ b.transactionsPosted (fun i =>
      fromDate.midnight ≤ i ∧ i < toDate.midnight + microsPerDay) := by
    rw [transactionsPosted_inWindow, List.mem_map]
    refine ⟨tx, ?_, rfl⟩
    rw [List.mem_insertionSort, List.mem_filter]
    exact ⟨htx, decide_eq_true hin.2⟩
  obtain ⟨row, hrow, heq⟩ := forall₂_exists_left (statementRows?_forall₂ h).flip hmem
  refine ⟨row, hrow, ?_, ?_⟩
  · rw [heq]
    exact hin.1
  · rw [heq]
    rfl

/-- The balance just after an instant: what was posted on the account up to it, other modules' rows left
out. -/
theorem savingsBalance_tablesAt (accountId : Uuid) (i : Instant) :
    (b.tablesAt i).savingsBalance accountId = sumWhere (fun tx => tx.savingsAccountId = accountId ∧
      b.columns.postedAt tx.id ≤ i) signed b.tables.savingsTransactions - b.externalUntil accountId i := by
  have hall : ∀ txs : List SavingsTransaction,
      sumWhere (fun tx => tx.savingsAccountId = accountId ∧
          tx.transactionType ∈ [SavingsTransactionType.deposit, .systemCredit]) (·.amount.val)
        (txs.filter fun tx => b.columns.postedAt tx.id ≤ i) -
      sumWhere (fun tx => tx.savingsAccountId = accountId ∧
          tx.transactionType ∈ [SavingsTransactionType.withdrawal, .systemDebit]) (·.amount.val)
        (txs.filter fun tx => b.columns.postedAt tx.id ≤ i) =
      sumWhere (fun tx => tx.savingsAccountId = accountId ∧ b.columns.postedAt tx.id ≤ i) signed txs -
      sumWhere (fun tx => tx.savingsAccountId = accountId ∧ b.columns.postedAt tx.id ≤ i ∧
        (tx.transactionType = .externalCredit ∨ tx.transactionType = .externalDebit)) signed txs := by
    intro txs
    induction txs with
    | nil => simp
    | cons tx txs ih =>
      simp only [sumWhere_filter, sumWhere_cons] at ih ⊢
      rw [add_sub_add_comm, add_sub_add_comm, ih]
      congr 1
      -- what this transaction adds on either side
      by_cases hacct : tx.savingsAccountId = accountId
      · by_cases hle : b.columns.postedAt tx.id ≤ i
        · cases htype : tx.transactionType <;> simp [hacct, hle, htype, signed, creditTypes]
        · simp [hle]
      · simp [hacct]
  exact hall b.tables.savingsTransactions

/-- The statements of a member are those of the accounts. -/
theorem accountStatement_of_mem {memberId : Uuid} {statements : List AccountStatement}
    (h : MemberStatementService.savings b memberId (some fromDate) (some toDate) = .ok statements)
    {statement : AccountStatement} (hmem : statement ∈ statements) :
    MemberStatementService.accountStatement b (some fromDate) (some toDate) statement.account =
      .ok statement := by
  obtain ⟨a, -, ha⟩ := forall₂_exists_left (mapM_eq_ok.mp h) hmem
  obtain ⟨⟨opening, lines⟩, -, hst⟩ := except_bind_eq_ok.mp ha
  have haccount : statement.account = a := by
    cases hst
    rfl
  rw [haccount]
  exact ha

theorem getSavingsBalance_tablesAt (ha : a ∈ b.tables.savingsAccounts) (i : Instant) :
    getSavingsBalance a.id (b.tablesAt i) =
      .ok ((b.tablesAt i).savingsBalance a.id) (b.tablesAt i) := by
  have hfound : ((b.tablesAt i).savingsAccount? a.id).isSome = true := by
    rw [Tables.savingsAccount?, List.find?_isSome]
    exact ⟨a, ha, decide_eq_true rfl⟩
  obtain ⟨account, haccount⟩ := Option.isSome_iff_exists.mp hfound
  unfold getSavingsBalance getSavingsAccount
  rw [bind_eq_ok]
  refine ⟨account, b.tablesAt i, ?_, rfl⟩
  rw [get_bind_eq_ok, orRaise_eq_ok]
  exact ⟨haccount, rfl⟩

/-! ## When they agree -/

/-- What was posted up to a transaction of the period: what was carried into the period, and the
transactions of the period up to this one. -/
theorem upTo_eq {tx : SavingsTransaction} (hin : b.InPeriod a.id fromDate toDate tx) :
    sumWhere (fun y => y.savingsAccountId = a.id ∧
        b.columns.postedAt y.id ≤ b.columns.postedAt tx.id) signed b.tables.savingsTransactions =
      b.carriedIn a.id fromDate + sumWhere (fun y => y.savingsAccountId = a.id ∧
        inWindow b fromDate toDate y = true ∧
        b.columns.postedAt y.id ≤ b.columns.postedAt tx.id) signed b.tables.savingsTransactions := by
  obtain ⟨-, hfrom, hto⟩ := hin
  apply sumWhere_split
  · intro y _
    by_cases hacct : y.savingsAccountId = a.id
    · by_cases hle : b.columns.postedAt y.id ≤ b.columns.postedAt tx.id
      · have hend : b.columns.postedAt y.id < toDate.midnight + microsPerDay := lt_of_le_of_lt hle hto
        by_cases hbefore : b.columns.postedAt y.id < fromDate.midnight
        · simp [hacct, hle, hbefore]
        · simp [hacct, hle, hbefore, inWindow, hend, not_lt.mp hbefore]
      · have hnot : ¬ b.columns.postedAt y.id < fromDate.midnight := by
          intro hlt
          exact hle (hlt.le.trans hfrom)
        simp [hle, hnot]
    · simp [hacct]
  · rintro y - ⟨hbefore, hwindow⟩
    simp only [inWindow, decide_eq_true_eq] at hbefore hwindow
    exact absurd hbefore.2 (not_lt.mpr hwindow.2.1.1)

end

/-- The two statements and the balance agree on every line of an account exactly when the account has no
transaction in the period, or comes into it with nothing and what other modules recorded cancels out. -/
theorem statements_agree_iff {b : Books} {a : SavingsAccount} (ha : a ∈ b.tables.savingsAccounts)
    (hdistinct : b.DistinctlyPosted a.id) {fromDate toDate : Date} {rows : List SavingsStatementRow}
    (hrows : b.Reports .savingsStatement (SavingsStatementService.materialize fromDate toDate) rows)
    {statement : AccountStatement} {statements : List AccountStatement}
    (hstatements : MemberStatementService.savings b a.memberId (some fromDate) (some toDate) =
      .ok statements) (hstatement : statement ∈ statements) (hacct : statement.account = a) :
    StatementsAgree b a.id rows statement ↔ b.NothingCarried a.id fromDate toDate := by
  obtain ⟨hlast, hrows⟩ := reports_savingsStatement.mp hrows
  have hlines := accountStatement_of_mem hstatements hstatement
  rw [hacct] at hlines
  constructor
  · intro hagree tx htx hin
    obtain ⟨row, hrow, hrowAcct, hrowPosted⟩ := exists_row hrows htx hin
    obtain ⟨⟨line, hline, hlinePosted, hrunning⟩, hbalance⟩ := hagree row hrow hrowAcct
    obtain ⟨-, -, -, hvalue⟩ := (mem_accountStatement hdistinct hlast hlines).mp hline
    obtain ⟨tx', -, -, hrowOf, hval⟩ := (mem_savingsStatement hdistinct hrows).mp ⟨hrow, hrowAcct⟩
    have hposted' : b.columns.postedAt tx'.id = b.columns.postedAt tx.id := by
      rw [← hrowPosted, hrowOf]
      rfl
    rw [hrunning, hlinePosted, hrowPosted] at hvalue
    rw [hposted'] at hval
    rw [getSavingsBalance_tablesAt ha, savingsBalance_tablesAt, hrowPosted, ← hvalue] at hbalance
    have hbalance' := (Outcome.ok.inj hbalance).1
    have hupTo := upTo_eq hin
    rw [← hvalue, ← hval] at hupTo
    exact ⟨by linarith, by linarith⟩
  · intro hnothing row hrow hacct
    obtain ⟨tx, htx, hin, hrowOf, hval⟩ := (mem_savingsStatement hdistinct hrows).mp ⟨hrow, hacct⟩
    obtain ⟨hcarried, hexternal⟩ := hnothing tx htx hin
    have hposted : row.postedAt = b.columns.postedAt tx.id := by
      rw [hrowOf]
      rfl
    have hupTo := upTo_eq hin
    rw [hcarried, zero_add, ← hval] at hupTo
    refine ⟨⟨⟨tx, signed tx, row.runningBalance.val⟩, ?_, hposted.symm, rfl⟩, ?_⟩
    · exact (mem_accountStatement hdistinct hlast hlines).mpr ⟨htx, hin, rfl, hupTo.symm⟩
    · rw [getSavingsBalance_tablesAt ha, savingsBalance_tablesAt, hposted, hexternal, sub_zero, hupTo]

/-- The savings account of a member. -/
def savingsAccount : SavingsAccount := ⟨1, 7, 0, 3⟩

/-- A transaction on it. -/
def movement (id : Uuid) (type : SavingsTransactionType) (amount : ℚ) : SavingsTransaction :=
  ⟨id, 1, type, (Numeric.ofRat? amount).getD 0, id, toString id⟩

/-- The account with two transactions, on the last day of January and on the day after. -/
def savingsBooks (types : SavingsTransactionType × SavingsTransactionType) : Books where
  tables := { Tables.empty with
    savingsAccounts := [savingsAccount]
    savingsTransactions := [movement 1 types.1 100, movement 2 types.2 50] }
  columns := { ReportColumns.blank with
    postedAt := fun id => if id = 1 then january31.midnight + 1 else february1.midnight + 1 }
  accounts_pkey := List.nodup_nil
  fk_jl_account := nofun
  loans_pkey := List.nodup_nil
  loan_products_pkey := List.nodup_nil
  fk_ln_product _ hl := absurd hl List.not_mem_nil
  savings_accounts_pkey := List.nodup_singleton 1
  savings_transactions_pkey := by
    show [1, 2].Nodup
    decide
  fk_savtx_account := by
    intro tx htx
    rcases List.mem_cons.mp htx with rfl | htx
    · exact List.mem_cons_self
    · rw [List.mem_singleton.mp htx]
      exact List.mem_cons_self

/-- Two deposits, in a period that begins with the first. -/
theorem statements_agree_deposits : ∃ rows statement,
    (savingsBooks (.deposit, .deposit)).Reports .savingsStatement
      (SavingsStatementService.materialize january31 february1) rows ∧
    MemberStatementService.savings (savingsBooks (.deposit, .deposit)) 7 (some january31)
      (some february1) = .ok [statement] ∧
    StatementsAgree (savingsBooks (.deposit, .deposit)) 1 rows statement := by
  have hfits : february1.ordinal < maxOrdinal ∧ ((savingsBooks (.deposit, .deposit)).statementRows?
      (fun _ => 0) ((savingsBooks (.deposit, .deposit)).transactionsPosted fun i =>
        january31.midnight ≤ i ∧ i < february1.midnight + microsPerDay)).isSome := by decide +kernel
  obtain ⟨rows, hrows⟩ := Option.isSome_iff_exists.mp hfits.2
  have hreports := reports_savingsStatement.mpr ⟨hfits.1, hrows⟩
  have hstatements : MemberStatementService.savings (savingsBooks (.deposit, .deposit)) 7 (some january31)
      (some february1) = .ok [⟨savingsAccount, 0, 150,
        [⟨movement 1 .deposit 100, 100, 100⟩, ⟨movement 2 .deposit 50, 50, 150⟩]⟩] := by decide +kernel
  refine ⟨rows, _, hreports, hstatements, ?_⟩
  exact (@statements_agree_iff (savingsBooks (.deposit, .deposit)) savingsAccount List.mem_cons_self
    (by decide +kernel) _ _ _ hreports _ _ hstatements List.mem_cons_self rfl).mpr (by decide +kernel)

/-- After a deposit of 100 in January, the materialised statement of 1 February shows a deposit of 50 with
a running balance of 50, the statement on demand and the balance have 150. After a loan of 100 was paid
out to the account, both statements show 150 where the balance is 50. -/
theorem statements_disagree :
    (savingsBooks (.deposit, .deposit)).statementRows? (fun _ => 0)
        ((savingsBooks (.deposit, .deposit)).transactionsPosted fun i =>
          february1.midnight ≤ i ∧ i < february1.midnight + microsPerDay) =
      some [(savingsBooks (.deposit, .deposit)).statementRow (movement 2 .deposit 50) 7
        (movement 2 .deposit 50).amount] ∧
    MemberStatementService.savings (savingsBooks (.deposit, .deposit)) 7 (some february1)
      (some february1) = .ok [⟨savingsAccount, 100, 150, [⟨movement 2 .deposit 50, 50, 150⟩]⟩] ∧
    ((savingsBooks (.deposit, .deposit)).tablesAt (february1.midnight + 1)).savingsBalance 1 = 150 ∧
    MemberStatementService.savings (savingsBooks (.externalCredit, .deposit)) 7 (some january31)
      (some february1) = .ok [⟨savingsAccount, 0, 150,
        [⟨movement 1 .externalCredit 100, 100, 100⟩, ⟨movement 2 .deposit 50, 50, 150⟩]⟩] ∧
    ((savingsBooks (.externalCredit, .deposit)).tablesAt (february1.midnight + 1)).savingsBalance 1 = 50 ∧
    ¬ ∀ (b : Books) (a : SavingsAccount) (fromDate toDate : Date) (rows : List SavingsStatementRow)
      (statement : AccountStatement), a ∈ b.tables.savingsAccounts → b.DistinctlyPosted a.id →
      b.Reports .savingsStatement (SavingsStatementService.materialize fromDate toDate) rows →
      MemberStatementService.accountStatement b (some fromDate) (some toDate) a = .ok statement →
      StatementsAgree b a.id rows statement := by
  refine ⟨by decide +kernel, by decide +kernel, by decide +kernel, by decide +kernel,
    by decide +kernel, ?_⟩
  intro hall
  have hrows : (savingsBooks (.deposit, .deposit)).statementRows? (fun _ => 0)
      ((savingsBooks (.deposit, .deposit)).transactionsPosted fun i =>
        february1.midnight ≤ i ∧ i < february1.midnight + microsPerDay) =
      some [(savingsBooks (.deposit, .deposit)).statementRow (movement 2 .deposit 50) 7
        (movement 2 .deposit 50).amount] := by decide +kernel
  have hstatement : MemberStatementService.accountStatement (savingsBooks (.deposit, .deposit))
      (some february1) (some february1) savingsAccount =
      .ok ⟨savingsAccount, 100, 150, [⟨movement 2 .deposit 50, 50, 150⟩]⟩ := by decide +kernel
  have hagree := hall _ savingsAccount february1 february1 _ _ List.mem_cons_self (by decide +kernel)
    (reports_savingsStatement.mpr ⟨by decide, hrows⟩) hstatement
  obtain ⟨⟨line, hline, -, hrunning⟩, -⟩ := hagree _ List.mem_cons_self rfl
  rw [List.mem_singleton.mp hline] at hrunning
  exact absurd hrunning (by decide +kernel)

end SaccoPlatform.Reporting
