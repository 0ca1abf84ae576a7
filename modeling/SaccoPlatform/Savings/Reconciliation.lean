import SaccoPlatform.Credit.Operations
import SaccoPlatform.MakerChecker.Footprints

/-!
# Savings and the general ledger

Every savings account has a snapshot of the liability account that its movements are posted to, so
the net credits on a liability account should be what the savings accounts on it hold. A repayment
that is paid from savings debits the liability account in the journal and writes an
`EXTERNAL_DEBIT` row; but `get_balance` and `total_balance_all_accounts` leave that row out (the
statements of `app/modules/reporting` subtract it), and from then on the two sides differ.

Apart from that the books agree: each movement posts to the liability account what it adds to the
balance, as long as the money does not come from or go to another liability account.
-/

namespace SaccoPlatform

open Lib Session

/-- Credits minus debits of the entry on the account. -/
def JournalEntry.netOn (accountId : Uuid) (e : JournalEntry) : ℚ :=
  (e.lines.map fun l =>
    if l.accountId = accountId then l.creditAmount.val - l.debitAmount.val else 0).sum

/-- Credits minus debits of the journal on the account. -/
def Tables.netOn (t : Tables) (accountId : Uuid) : ℚ :=
  (t.entries.map (JournalEntry.netOn accountId)).sum

/-- What the savings accounts on the liability account hold. -/
def Tables.savingsOn (t : Tables) (liabilityId : Uuid) : ℚ :=
  ((t.savingsAccounts.filter (·.liabilityAccountId = liabilityId)).map fun a =>
    t.savingsBalance a.id).sum

/-- A savings account is posted to this account. -/
def Tables.IsLiability (t : Tables) (accountId : Uuid) : Prop :=
  ∃ a ∈ t.savingsAccounts, a.liabilityAccountId = accountId

instance (t : Tables) (accountId : Uuid) : Decidable (t.IsLiability accountId) :=
  inferInstanceAs (Decidable (∃ a ∈ t.savingsAccounts, _))

/-- The journal and the balances agree on every liability account. -/
def Tables.Reconciled (t : Tables) : Prop :=
  ∀ a ∈ t.savingsAccounts, t.netOn a.liabilityAccountId = t.savingsOn a.liabilityAccountId

instance (t : Tables) : Decidable t.Reconciled :=
  inferInstanceAs (Decidable (∀ a ∈ t.savingsAccounts, _))

/-- The total of the dashboard is the sum of the balances. -/
def Tables.TotalAgrees (t : Tables) : Prop :=
  t.totalBalanceAllAccounts = (t.savingsAccounts.map fun a => t.savingsBalance a.id).sum

/-! ## Runs -/

/-- A committed movement; `withdraw` is the executor of an approved withdrawal. -/
inductive MovementOp where
  | deposit (d : DepositIn)
  | withdraw (payload : WithdrawPayload)
  | systemDebit (m : SystemMovementIn) (mode : OnInsufficientFunds)
  | systemCredit (m : SystemMovementIn)
  | repay (r : RepaymentIn)

def MovementOp.step (ar : LienArithmetic) (t : Tables) : MovementOp → Tables
  | deposit d => commit (SaccoPlatform.deposit d) t
  | withdraw payload => commit (executeWithdraw payload) t
  | systemDebit m mode => commit (SaccoPlatform.systemDebit m mode) t
  | systemCredit m => commit (SaccoPlatform.systemCredit m) t
  | repay r => commit (applyRepayment ar r) t

/-- A movement that is no replay touches no liability account but the one of its savings account,
and a repayment none at all. -/
def MovementOp.OwnLiability (t : Tables) : MovementOp → Prop
  | deposit d => t.savingsTransaction? d.idempotencyKey d.savingsAccountId = none →
      ¬ t.IsLiability d.paymentAccountId
  | withdraw payload =>
    (∀ tx ∈ t.savingsTransactions, some tx.idempotencyKey ≠ payload.idempotencyKey) →
      (∀ accountId ∈ payload.paymentAccountId, ¬ t.IsLiability accountId) ∧
      ∀ a ∈ t.savingsAccounts, some a.id = payload.savingsAccountId →
        some a.liabilityAccountId = payload.liabilityAccountId
  | systemDebit m _ => t.savingsTransaction? m.idempotencyKey m.savingsAccountId = none →
      ¬ t.IsLiability m.contraAccountId
  | systemCredit m => t.savingsTransaction? m.idempotencyKey m.savingsAccountId = none →
      ¬ t.IsLiability m.contraAccountId
  | repay r => t.repayment? r.idempotencyKey = none →
      ¬ t.IsLiability r.paymentAccountId ∧ ∀ loan ∈ t.loan? r.loanId,
        ¬ t.IsLiability loan.glPrincipalReceivableId ∧ ¬ t.IsLiability loan.glInterestReceivableId

instance (t : Tables) (op : MovementOp) : Decidable (op.OwnLiability t) := by
  unfold MovementOp.OwnLiability
  cases op <;> infer_instance

/-! ## The journal side -/

/-- Credits minus debits of lines as they are stored. -/
def linesOn (accountId : Uuid) (lines : List LineIn) : ℚ :=
  (lines.map fun l =>
    if l.accountId = accountId then roundAt 4 l.creditAmount - roundAt 4 l.debitAmount else 0).sum

theorem stored_netOn {lines : List LineIn} {e : JournalEntry}
    (h : List.Forall₂ Stored lines e.lines) (accountId : Uuid) :
    e.netOn accountId = linesOn accountId lines := by
  unfold JournalEntry.netOn linesOn
  generalize e.lines = rows at h
  induction h with
  | nil => rfl
  | cons hrow _ ih =>
    simp only [List.map_cons, List.sum_cons]
    rw [ih, hrow.accountId, hrow.debitAmount, hrow.creditAmount]

theorem Appends.netOn_eq {key : String} {lines : List LineIn} {t t' : Tables}
    (h : Appends [⟨key, lines⟩] t t') (accountId : Uuid) :
    t'.netOn accountId = t.netOn accountId + linesOn accountId lines := by
  obtain ⟨es, hes, hentries⟩ := h
  obtain ⟨e, rest, hst, hrest, rfl⟩ := List.forall₂_cons_left_iff.mp hes
  obtain rfl := List.forall₂_nil_left_iff.mp hrest
  unfold Tables.netOn
  rw [hentries, List.map_append, List.sum_append, List.map_singleton, List.sum_singleton,
    stored_netOn hst.lines]

theorem Appends.mem {key : String} {lines : List LineIn} {t t' : Tables}
    (h : Appends [⟨key, lines⟩] t t') {e : JournalEntry} (he : e ∈ t'.entries) :
    e ∈ t.entries ∨ e.idempotencyKey = key := by
  obtain ⟨es, hes, hentries⟩ := h
  rw [hentries, List.mem_append] at he
  rcases he with hold | hnew
  · exact .inl hold
  · obtain ⟨p, hp, hst⟩ := forall₂_exists_left hes hnew
    rw [List.mem_singleton.mp hp] at hst
    exact .inr hst.key

theorem linesOn_transferLines (accountId debit credit : Uuid) (amount : ℚ) :
    linesOn accountId (transferLines debit credit amount)
      = (if credit = accountId then roundAt 4 amount else 0)
        - (if debit = accountId then roundAt 4 amount else 0) := by
  have hzero : roundAt 4 0 = 0 := roundAt_of_mem (zero_mem _)
  unfold linesOn transferLines
  simp only [List.map_cons, List.map_nil, List.sum_cons, List.sum_nil, hzero]
  split <;> split <;> ring

/-- Lines on other accounts do not count. -/
theorem linesOn_eq_zero {accountId : Uuid} {lines : List LineIn}
    (h : ∀ l ∈ lines, l.accountId ≠ accountId) : linesOn accountId lines = 0 := by
  apply List.sum_eq_zero
  intro q hq
  obtain ⟨l, hl, rfl⟩ := List.mem_map.mp hq
  exact if_neg (h l hl)

/-! ## The savings side -/

section

variable {t t' : Tables} {tx : SavingsTransaction} {account : SavingsAccount}

/-- A row more adds its signed amount to what the account's liability holds. -/
theorem savingsOn_append (hids : (t.savingsAccounts.map (·.id)).Nodup)
    (haccount : account ∈ t.savingsAccounts) (hid : account.id = tx.savingsAccountId)
    (haccounts : t'.savingsAccounts = t.savingsAccounts)
    (hrows : t'.savingsTransactions = t.savingsTransactions ++ [tx]) (liabilityId : Uuid) :
    t'.savingsOn liabilityId = t.savingsOn liabilityId
      + if account.liabilityAccountId = liabilityId then tx.signed else 0 := by
  have hmap : ∀ accounts : List SavingsAccount, (accounts.map fun a => t'.savingsBalance a.id)
      = accounts.map fun a => t.savingsBalance a.id + if a.id = account.id then tx.signed else 0 := by
    intro accounts
    apply List.map_congr_left
    intro a _
    rw [savingsBalance_append hrows, hid]
    simp only [eq_comm]
  unfold Tables.savingsOn
  rw [haccounts, hmap]
  by_cases hliability : account.liabilityAccountId = liabilityId
  · rw [if_pos hliability]
    refine sum_map_add_one (fun a : SavingsAccount => a.id) ?_ ?_ _ _
    · exact hids.sublist (List.filter_sublist.map _)
    · exact List.mem_filter.mpr ⟨haccount, by simpa using hliability⟩
  · -- the account is not among the ones on this liability
    rw [if_neg hliability, add_zero]
    congr 1
    apply List.map_congr_left
    intro a ha
    obtain ⟨ha, hon⟩ := List.mem_filter.mp ha
    have hne : a.id ≠ account.id := by
      intro heq
      rw [List.inj_on_of_nodup_map hids ha haccount heq] at hon
      exact hliability (by simpa using hon)
    rw [if_neg hne, add_zero]

theorem totalAgrees_append (h : t.TotalAgrees) (hids : (t.savingsAccounts.map (·.id)).Nodup)
    (haccount : account ∈ t.savingsAccounts) (hid : account.id = tx.savingsAccountId)
    (haccounts : t'.savingsAccounts = t.savingsAccounts)
    (hrows : t'.savingsTransactions = t.savingsTransactions ++ [tx]) : t'.TotalAgrees := by
  have htotal : t'.totalBalanceAllAccounts = t.totalBalanceAllAccounts + tx.signed := by
    unfold Tables.totalBalanceAllAccounts
    rw [hrows, List.map_append, List.sum_append, List.map_singleton, List.sum_singleton]
  have hsum : (t.savingsAccounts.map fun a => t'.savingsBalance a.id).sum
      = (t.savingsAccounts.map fun a => t.savingsBalance a.id).sum + tx.signed := by
    rw [← sum_map_add_one (fun a : SavingsAccount => a.id) hids haccount]
    congr 1
    apply List.map_congr_left
    intro a _
    rw [savingsBalance_append hrows, hid]
    simp only [eq_comm]
  unfold Tables.TotalAgrees
  rw [htotal, haccounts, hsum, h]

end

/-! ## The invariant -/

/-- The journal entries of the savings module, by what they record. -/
inductive SavingsEntryKind where
  | deposit | withdrawal | systemDebit | systemCredit
deriving DecidableEq, Repr

/-- What the idempotency key of such an entry starts with. -/
def SavingsEntryKind.tag : SavingsEntryKind → String
  | deposit => "savings-deposit-"
  | withdrawal => "savings-withdraw-"
  | systemDebit => "sys-debit-"
  | systemCredit => "sys-credit-"

def savingsKey (kind : SavingsEntryKind) (rest : String) : String := kind.tag ++ rest

theorem savingsKey_inj {kind kind' : SavingsEntryKind} {rest rest' : String}
    (h : savingsKey kind rest = savingsKey kind' rest') : kind = kind' ∧ rest = rest' := by
  have hl : kind.tag.toList ++ rest.toList = kind'.tag.toList ++ rest'.toList := by
    rw [← String.toList_append, ← String.toList_append]
    exact congrArg String.toList h
  cases kind <;> cases kind' <;> simp_all [SavingsEntryKind.tag, String.toList_inj]

theorem savingsKey_ne_creditKey (kind : SavingsEntryKind) (kind' : EntryKind) (rest rest' : String) :
    savingsKey kind rest ≠ creditKey kind' rest' := by
  intro h
  have hl : kind.tag.toList ++ rest.toList = kind'.tag.toList ++ rest'.toList := by
    rw [← String.toList_append, ← String.toList_append]
    exact congrArg String.toList h
  cases kind <;> cases kind' <;> simp_all [SavingsEntryKind.tag, EntryKind.tag]

/-- The books agree, and every entry of a movement belongs to a row with its key, so that a movement
with a new key is really posted. -/
structure Tables.BooksOk (t : Tables) : Prop where
  ids : (t.savingsAccounts.map (·.id)).Nodup
  moved : ∀ e ∈ t.entries, ∀ kind key, e.idempotencyKey = savingsKey kind key →
    ∃ tx ∈ t.savingsTransactions, tx.idempotencyKey = key
  repaid : ∀ e ∈ t.entries, ∀ key, e.idempotencyKey = creditKey .repayment key →
    ∃ rp ∈ t.repayments, rp.idempotencyKey = key
  reconciled : t.Reconciled
  total : t.TotalAgrees

/-- Before the first movement, the books agree when nothing was posted to a liability account. -/
theorem booksOk_of_no_movement {t : Tables} (hids : (t.savingsAccounts.map (·.id)).Nodup)
    (hrows : t.savingsTransactions = [])
    (hkeys : ∀ e ∈ t.entries, ∃ kind rest, kind ≠ .repayment ∧
      e.idempotencyKey = creditKey kind rest)
    (hnet : ∀ a ∈ t.savingsAccounts, t.netOn a.liabilityAccountId = 0) : t.BooksOk := by
  have hbalance : ∀ accountId, t.savingsBalance accountId = 0 := by
    intro accountId
    simp [Tables.savingsBalance, Tables.sumSavings, hrows]
  refine ⟨hids, ?_, ?_, ?_, ?_⟩
  · intro e he kind key hkey
    obtain ⟨kind', rest, -, hcredit⟩ := hkeys e he
    exact absurd (hkey.symm.trans hcredit) (savingsKey_ne_creditKey _ _ _ _)
  · intro e he key hkey
    obtain ⟨kind', rest, hkind, hcredit⟩ := hkeys e he
    exact absurd (creditKey_inj (hkey.symm.trans hcredit)).1.symm hkind
  · intro a ha
    rw [hnet a ha]
    simp [Tables.savingsOn, hbalance]
  · simp [Tables.TotalAgrees, Tables.totalBalanceAllAccounts, hrows, hbalance]

section

variable {t t' : Tables}

/-- A movement keeps the books when its lines add to every liability account what its row adds to
the balances on it. -/
theorem Tables.BooksOk.recorded (kind : SavingsEntryKind) {key : String} {lines : List LineIn}
    {account : SavingsAccount} {type : SavingsTransactionType} {amount : ℚ} (h : t.BooksOk)
    (hrec : Recorded (savingsKey kind key) lines account.id type amount key t t')
    (haccount : account ∈ t.savingsAccounts)
    (hlines : ∀ tx : SavingsTransaction, tx.transactionType = type →
      tx.amount.val = roundAt 4 amount → ∀ a ∈ t.savingsAccounts,
        linesOn a.liabilityAccountId lines
          = if account.liabilityAccountId = a.liabilityAccountId then tx.signed else 0) :
    t'.BooksOk := by
  obtain ⟨tx, hid, htype, hamount, hkey, hrows⟩ := hrec.row
  obtain ⟨n, es, txs, hrest⟩ := hrec.rest
  have haccounts : t'.savingsAccounts = t.savingsAccounts := by rw [hrest]
  have hrepayments : t'.repayments = t.repayments := by rw [hrest]
  -- the key is new, so the entry was posted now
  have hposted : Appends [⟨savingsKey kind key, lines⟩] t t' := by
    rcases hrec.posted with ⟨-, e, he, hused⟩ | happends
    · obtain ⟨old, hold, hsame⟩ := h.moved e he kind key hused
      exact absurd hsame (hrec.unused old hold)
    · exact happends
  have hentries : ∀ e ∈ t'.entries, e ∈ t.entries ∨ e.idempotencyKey = savingsKey kind key :=
    fun e => hposted.mem
  refine ⟨by rw [haccounts]; exact h.ids, ?_, ?_, ?_, ?_⟩
  · intro e he kind' key' hkey'
    rw [hrows]
    rcases hentries e he with hold | hnew
    · obtain ⟨old, hold, hsame⟩ := h.moved e hold kind' key' hkey'
      exact ⟨old, List.mem_append_left _ hold, hsame⟩
    · obtain ⟨-, rfl⟩ := savingsKey_inj (hnew.symm.trans hkey')
      exact ⟨tx, by simp, hkey⟩
  · intro e he key' hkey'
    rw [hrepayments]
    rcases hentries e he with hold | hnew
    · exact h.repaid e hold key' hkey'
    · exact absurd (hnew.symm.trans hkey') (savingsKey_ne_creditKey _ _ _ _)
  · intro a ha
    rw [haccounts] at ha
    rw [hposted.netOn_eq, savingsOn_append h.ids haccount hid.symm haccounts hrows,
      h.reconciled a ha, hlines tx htype hamount a ha]
  · exact totalAgrees_append h.total h.ids haccount hid.symm haccounts hrows

/-! ## One step -/

/-- Money from an account that is no liability account. -/
theorem linesOn_credited {other liability : Uuid} {amount : ℚ} {a : SavingsAccount}
    (hother : ¬ t.IsLiability other) (ha : a ∈ t.savingsAccounts) :
    linesOn a.liabilityAccountId (transferLines other liability amount)
      = if liability = a.liabilityAccountId then roundAt 4 amount else 0 := by
  have hne : other ≠ a.liabilityAccountId := by
    rintro rfl
    exact hother ⟨a, ha, rfl⟩
  rw [linesOn_transferLines, if_neg hne, sub_zero]

/-- Money to an account that is no liability account. -/
theorem linesOn_debited {other liability : Uuid} {amount : ℚ} {a : SavingsAccount}
    (hother : ¬ t.IsLiability other) (ha : a ∈ t.savingsAccounts) :
    linesOn a.liabilityAccountId (transferLines liability other amount)
      = if liability = a.liabilityAccountId then - roundAt 4 amount else 0 := by
  have hne : other ≠ a.liabilityAccountId := by
    rintro rfl
    exact hother ⟨a, ha, rfl⟩
  rw [linesOn_transferLines, if_neg hne, zero_sub]
  split
  · rfl
  · exact neg_zero

theorem Recorded.no_replay {entryKey key : String} {lines : List LineIn} {accountId : Uuid}
    {type : SavingsTransactionType} {amount : ℚ}
    (h : Recorded entryKey lines accountId type amount key t t') :
    t.savingsTransaction? key accountId = none := by
  rw [Tables.savingsTransaction?, List.find?_eq_none]
  intro tx htx
  simp [h.unused tx htx]

theorem deposit_booksOk {d : DepositIn} {id : Uuid} (h : t.BooksOk)
    (hop : (MovementOp.deposit d).OwnLiability t) (hok : deposit d t = .ok id t') : t'.BooksOk := by
  rcases deposit_ok hok with rfl | ⟨account, hfound, hrec⟩
  · exact h
  · obtain ⟨haccount, hid⟩ := savingsAccount?_some hfound
    have hother := hop hrec.no_replay
    rw [← hid] at hrec
    refine h.recorded .deposit hrec haccount ?_
    intro tx htype hamount a ha
    rw [linesOn_credited hother ha, SavingsTransaction.signed, htype, hamount]

theorem executeWithdraw_booksOk {payload : WithdrawPayload} {u : Unit} (h : t.BooksOk)
    (hop : (MovementOp.withdraw payload).OwnLiability t)
    (hok : executeWithdraw payload t = .ok u t') : t'.BooksOk := by
  rcases executeWithdraw_ok hok with ⟨rfl, -⟩ | ⟨accountId, amount, paymentId, liabilityId, key,
    haccountId, -, hpayment, hliability, hkey, ⟨account, haccount, rfl⟩, hrec⟩
  · exact h
  · have hnew : ∀ tx ∈ t.savingsTransactions, some tx.idempotencyKey ≠ payload.idempotencyKey := by
      intro tx htx
      rw [hkey]
      exact fun heq => hrec.unused tx htx (Option.some.inj heq)
    obtain ⟨hother, hown⟩ := hop hnew
    -- the payload keeps the liability account that was looked up at the submission
    obtain rfl : account.liabilityAccountId = liabilityId := by
      have hsome := hown account haccount haccountId.symm
      rw [hliability] at hsome
      exact Option.some.inj hsome
    refine h.recorded .withdrawal hrec haccount ?_
    intro tx htype hamount a ha
    rw [linesOn_debited (hother paymentId hpayment) ha, SavingsTransaction.signed, htype, hamount]

theorem systemDebit_booksOk {m : SystemMovementIn} {mode : OnInsufficientFunds}
    {result : Option SystemDebitResult} (h : t.BooksOk)
    (hop : (MovementOp.systemDebit m mode).OwnLiability t)
    (hok : systemDebit m mode t = .ok result t') : t'.BooksOk := by
  rcases systemDebit_ok hok with ⟨rfl, -⟩ | ⟨rfl, -⟩ | ⟨account, entryId, hfound, -, -, hrec⟩
  · exact h
  · exact h
  · obtain ⟨haccount, hid⟩ := savingsAccount?_some hfound
    have hother := hop hrec.no_replay
    rw [← hid] at hrec
    refine h.recorded .systemDebit hrec haccount ?_
    intro tx htype hamount a ha
    rw [linesOn_debited hother ha, SavingsTransaction.signed, htype, hamount]

theorem systemCredit_booksOk {m : SystemMovementIn} {id : Uuid} (h : t.BooksOk)
    (hop : (MovementOp.systemCredit m).OwnLiability t) (hok : systemCredit m t = .ok id t') :
    t'.BooksOk := by
  rcases systemCredit_ok hok with rfl | ⟨account, hfound, hrec⟩
  · exact h
  · obtain ⟨haccount, hid⟩ := savingsAccount?_some hfound
    have hother := hop hrec.no_replay
    rw [← hid] at hrec
    refine h.recorded .systemCredit hrec haccount ?_
    intro tx htype hamount a ha
    rw [linesOn_credited hother ha, SavingsTransaction.signed, htype, hamount]

/-- The savings accounts have the same balances; the statements may be longer. -/
structure SameSavings (t t' : Tables) : Prop where
  accounts : t'.savingsAccounts = t.savingsAccounts
  balances : ∀ accountId, t'.savingsBalance accountId = t.savingsBalance accountId
  total : t'.totalBalanceAllAccounts = t.totalBalanceAllAccounts
  rows : t.savingsTransactions ⊆ t'.savingsTransactions

instance : IsPreorder Tables SameSavings where
  refl _ := ⟨rfl, fun _ => rfl, rfl, fun _ => id⟩
  trans _ _ _ h h' := ⟨h'.accounts.trans h.accounts, fun i => (h'.balances i).trans (h.balances i),
    h'.total.trans h.total, List.Subset.trans h.rows h'.rows⟩

/-- No balance takes an `EXTERNAL_DEBIT` into account. -/
theorem repaymentFrame_sameSavings : RepaymentFrame SameSavings where
  rows _ _ _ _ _ _ _ _ _ := ⟨rfl, fun _ => rfl, rfl, fun _ => id⟩
  debits t tx htype := by
    have hsigned : tx.signed = 0 := by rw [SavingsTransaction.signed, htype]
    refine ⟨rfl, ?_, ?_, List.subset_append_left _ _⟩
    · intro accountId
      rw [savingsBalance_append rfl, hsigned, ite_self, add_zero]
    · simp [Tables.totalBalanceAllAccounts, hsigned]
  events _ _ _ _ _ _ := ⟨rfl, fun _ => rfl, rfl, fun _ => id⟩

theorem SameSavings.savingsOn_eq (h : SameSavings t t') (liabilityId : Uuid) :
    t'.savingsOn liabilityId = t.savingsOn liabilityId := by
  unfold Tables.savingsOn
  simp only [h.accounts, h.balances]

theorem repaymentLines_accounts {loan : Loan} {paymentAccountId : Uuid} {a : Allocation}
    {l : LineIn} (h : l ∈ repaymentLines loan paymentAccountId a) :
    l.accountId = paymentAccountId ∨ l.accountId = loan.glPrincipalReceivableId ∨
      l.accountId = loan.glInterestReceivableId := by
  unfold repaymentLines at h
  split at h
  · simp only [List.mem_append, List.mem_singleton] at h
    rcases h with (rfl | h) | h
    · exact .inl rfl
    · split at h
      · exact .inr (.inl (by rw [List.mem_singleton.mp h]; rfl))
      · cases h
    · split at h
      · exact .inr (.inr (by rw [List.mem_singleton.mp h]; rfl))
      · cases h
  · simp only [List.mem_cons, List.not_mem_nil, or_false] at h
    rcases h with rfl | rfl
    · exact .inl rfl
    · exact .inr (.inl rfl)

theorem applyRepayment_booksOk {ar : LienArithmetic} {r : RepaymentIn} {id : Uuid} (h : t.BooksOk)
    (hop : (MovementOp.repay r).OwnLiability t) (hok : applyRepayment ar r t = .ok id t') :
    t'.BooksOk := by
  have hsavings : SameSavings t t' := (applyRepayment_writes repaymentFrame_sameSavings ar r).ok hok
  rcases applyRepayment_ok hok with rfl | ⟨loan, row, entryId, t₁, hnew, hloan, -, hpost, hrec⟩
  · exact h
  · -- the key is new to the ledger as well, so an entry was written
    have hposted := postJournalEntry_new (fun e he heq => by
      obtain ⟨rp, hrp, hsame⟩ := h.repaid e he _ heq
      exact hnew rp hrp hsame) hpost
    have happends : Appends [⟨creditKey .repayment r.idempotencyKey, repaymentLines loan
        r.paymentAccountId (allocate r.amount loan.balances)⟩] t t' := by
      obtain ⟨es, hes, hentries⟩ := hposted.appends
      exact ⟨es, hes, hrec.entries.trans hentries⟩
    have hreplay : t.repayment? r.idempotencyKey = none := by
      simpa [Tables.repayment?] using hnew
    obtain ⟨hpayment, hreceivables⟩ := hop hreplay
    -- a repayment books no line on a liability account of the savings
    have hoff : ∀ a ∈ t.savingsAccounts, linesOn a.liabilityAccountId (repaymentLines loan
        r.paymentAccountId (allocate r.amount loan.balances)) = 0 := by
      intro a ha
      apply linesOn_eq_zero
      intro l hl heq
      have hliability : t.IsLiability l.accountId := ⟨a, ha, heq.symm⟩
      rcases repaymentLines_accounts hl with haccount | haccount | haccount
      · exact hpayment (haccount ▸ hliability)
      · exact (hreceivables loan hloan).1 (haccount ▸ hliability)
      · exact (hreceivables loan hloan).2 (haccount ▸ hliability)
    obtain ⟨rp, hrp, hrepayments⟩ := hrec.repayments
    obtain ⟨e₀, -, -, ht₁⟩ := hposted.entry
    have hrows : t'.repayments = t.repayments ++ [rp] := by rw [hrepayments, ht₁]
    refine ⟨by rw [hsavings.accounts]; exact h.ids, ?_, ?_, ?_, ?_⟩
    · intro e he kind key hkey
      rcases happends.mem he with hold | hnewKey
      · obtain ⟨tx, htx, hsame⟩ := h.moved e hold kind key hkey
        exact ⟨tx, hsavings.rows htx, hsame⟩
      · exact absurd (hkey.symm.trans hnewKey) (savingsKey_ne_creditKey _ _ _ _)
    · intro e he key hkey
      rw [hrows]
      rcases happends.mem he with hold | hnewKey
      · obtain ⟨old, hold, hsame⟩ := h.repaid e hold key hkey
        exact ⟨old, List.mem_append_left _ hold, hsame⟩
      · obtain ⟨-, rfl⟩ := creditKey_inj (hnewKey.symm.trans hkey)
        exact ⟨rp, by simp, hrp.idempotencyKey⟩
    · intro a ha
      rw [hsavings.accounts] at ha
      rw [happends.netOn_eq, hoff a ha, add_zero, hsavings.savingsOn_eq, h.reconciled a ha]
    · unfold Tables.TotalAgrees
      simp only [hsavings.total, hsavings.accounts, hsavings.balances]
      exact h.total

theorem MovementOp.step_booksOk (ar : LienArithmetic) {op : MovementOp} (h : t.BooksOk)
    (hop : op.OwnLiability t) : (op.step ar t).BooksOk := by
  cases op with
  | deposit d => exact commit_keeps h fun _ _ hok => deposit_booksOk h hop hok
  | withdraw payload => exact commit_keeps h fun _ _ hok => executeWithdraw_booksOk h hop hok
  | systemDebit m mode => exact commit_keeps h fun _ _ hok => systemDebit_booksOk h hop hok
  | systemCredit m => exact commit_keeps h fun _ _ hok => systemCredit_booksOk h hop hok
  | repay r => exact commit_keeps h fun _ _ hok => applyRepayment_booksOk h hop hok

end

/-- In every run in which no repayment is paid from a liability account, and no other movement
touches a liability account but that of its savings account, the journal and the balances agree on
every liability account, and the total of the dashboard is the sum of the balances. -/
theorem savings_reconcile (ar : LienArithmetic) {t : Tables} (h : t.BooksOk) {ops : List MovementOp}
    (hops : Along (MovementOp.step ar) MovementOp.OwnLiability t ops) :
    (run (MovementOp.step ar) t ops).Reconciled ∧
      (run (MovementOp.step ar) t ops).TotalAgrees := by
  have hbooks : (run (MovementOp.step ar) t ops).BooksOk :=
    run_invariant (fun _ _ h hop => MovementOp.step_booksOk ar h hop) h hops
  exact ⟨hbooks.reconciled, hbooks.total⟩

/-- The sample tenant with the liability account of its savings account in the chart, after the
disbursement of its loan. -/
def repaymentTenant : Tables :=
  run (CreditOp.step .python)
    { sampleTenant .reducingBalance with
      accounts := (sampleTenant .reducingBalance).accounts ++ [⟨40, "2000"⟩] }
    [sampleDisbursement]

theorem booksOk_repaymentTenant : repaymentTenant.BooksOk := by
  have hkeys : repaymentTenant.entries.map (·.idempotencyKey) = [creditKey .disbursement "d"] := by
    decide +kernel
  refine booksOk_of_no_movement (by decide +kernel) (by decide +kernel) ?_ (by decide +kernel)
  intro e he
  have hkey := List.mem_map_of_mem (f := JournalEntry.idempotencyKey) he
  rw [hkeys] at hkey
  exact ⟨.disbursement, "d", nofun, List.mem_singleton.mp hkey⟩

/-- A deposit, a withdrawal, a partial system debit, a system credit and a cash repayment. -/
def everyMovement : List MovementOp :=
  [.deposit ⟨10, 500, 5, 30, "a"⟩, .withdraw ⟨some 10, some 100, some 5, some 40, some 30, some "b"⟩,
    .systemDebit ⟨10, 450, "fee", "fees", 30, "c", 3, none⟩ .partially,
    .systemCredit ⟨10, 50, "interest", "savings", 30, "e", 4, none⟩,
    .repay (sampleRepayment 300 "r")]

theorem savings_reconcile_everyMovement :
    (run (MovementOp.step .python) repaymentTenant everyMovement).netOn 40 = 50 ∧
    (run (MovementOp.step .python) repaymentTenant everyMovement).Reconciled ∧
    (run (MovementOp.step .python) repaymentTenant everyMovement).TotalAgrees :=
  ⟨by decide +kernel,
    savings_reconcile .python booksOk_repaymentTenant (by decide +kernel)⟩

/-- A repayment of 300 from savings of 500: the liability account is left with 200, the balance of
the savings account with 500. -/
theorem savings_drift_from_ledger :
    (run (MovementOp.step .python) repaymentTenant [.deposit ⟨10, 500, 5, 30, "a"⟩,
      .repay ⟨11, 300, 40, 30, none, "r", some 10⟩]).netOn 40 = 200 ∧
    (run (MovementOp.step .python) repaymentTenant [.deposit ⟨10, 500, 5, 30, "a"⟩,
      .repay ⟨11, 300, 40, 30, none, "r", some 10⟩]).savingsBalance 10 = 500 ∧
    ¬ (run (MovementOp.step .python) repaymentTenant [.deposit ⟨10, 500, 5, 30, "a"⟩,
      .repay ⟨11, 300, 40, 30, none, "r", some 10⟩]).Reconciled := by
  refine ⟨?_, ?_, ?_⟩
  · decide +kernel
  · decide +kernel
  · decide +kernel

end SaccoPlatform
