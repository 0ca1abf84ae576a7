import SaccoPlatform.Savings.Transactions
import SaccoPlatform.Ledger.Journal

/-!
# Savings accounts

`SavingsService` (`app/modules/savings/service.py`) and the executor of approved withdrawals
(`app/modules/savings/executors.py`). A balance is not stored: it is the sum of the deposits
and system credits minus the withdrawals and system debits. Rows that another module records
(`EXTERNAL_CREDIT`, `EXTERNAL_DEBIT`) count in none of the queries.
-/

namespace SaccoPlatform

open Lib Session

/-! ## Balances -/

/-- `SUM(amount)` of the account's transactions of the given types. -/
def Tables.sumSavings (t : Tables) (accountId : Uuid) (types : List SavingsTransactionType) : ℚ :=
  ((t.savingsTransactions.filter fun tx =>
    tx.savingsAccountId = accountId ∧ tx.transactionType ∈ types).map (·.amount.val)).sum

/-- The value of `SavingsService.get_balance` for an account that exists. -/
def Tables.savingsBalance (t : Tables) (accountId : Uuid) : ℚ :=
  t.sumSavings accountId [.deposit, .systemCredit]
    - t.sumSavings accountId [.withdrawal, .systemDebit]

def getSavingsAccount (accountId : Uuid) : Call SavingsAccount := do
  let t ← get
  orRaise (t.savingsAccount? accountId) (.valueError s!"Savings account '{accountId}' not found")

/-- `SavingsService.get_balance`. -/
def getSavingsBalance (accountId : Uuid) : Call ℚ := do
  let _ ← getSavingsAccount accountId
  let t ← get
  pure (t.savingsBalance accountId)

/-- The `CASE` of `total_balance_all_accounts`. -/
def SavingsTransaction.signed (tx : SavingsTransaction) : ℚ :=
  match tx.transactionType with
  | .deposit | .systemCredit => tx.amount.val
  | .withdrawal | .systemDebit => - tx.amount.val
  | .externalCredit | .externalDebit => 0

/-- `SavingsService.total_balance_all_accounts`. -/
def Tables.totalBalanceAllAccounts (t : Tables) : ℚ :=
  (t.savingsTransactions.map (·.signed)).sum

/-- The active guarantor liens on the account. -/
def Tables.activeLien (t : Tables) (accountId : Uuid) : ℚ :=
  ((t.liens.filter fun l => l.savingsAccountId = accountId ∧ l.isActive = true).map
    (·.currentLien)).sum

/-- The value of `SavingsService.get_available_balance`. -/
def Tables.availableBalance (t : Tables) (accountId : Uuid) : ℚ :=
  t.savingsBalance accountId - t.activeLien accountId

/-- A row more adds its signed amount to the balance of its account. -/
theorem savingsBalance_append {t t' : Tables} {tx : SavingsTransaction}
    (h : t'.savingsTransactions = t.savingsTransactions ++ [tx]) (accountId : Uuid) :
    t'.savingsBalance accountId
      = t.savingsBalance accountId + if tx.savingsAccountId = accountId then tx.signed else 0 := by
  unfold Tables.savingsBalance Tables.sumSavings SavingsTransaction.signed
  rw [h]
  simp only [List.filter_append, List.map_append, List.sum_append]
  by_cases haccount : tx.savingsAccountId = accountId
  · cases htype : tx.transactionType <;> simp [haccount, htype] <;> ring
  · simp [haccount]

/-! ## Movements -/

/-- An untagged pair of lines: Dr `debitAccount` / Cr `creditAccount`. -/
def transferLines (debitAccount creditAccount : Uuid) (amount : ℚ) : List LineIn :=
  [⟨debitAccount, amount, 0, none, none, none⟩, ⟨creditAccount, 0, amount, none, none, none⟩]

/-- The row of the account under the key, if there is one. -/
def Tables.savingsTransaction? (t : Tables) (key : String) (accountId : Uuid) :
    Option SavingsTransaction :=
  t.savingsTransactions.find? fun tx =>
    tx.idempotencyKey = key ∧ tx.savingsAccountId = accountId

/-- The arguments of `deposit`. -/
structure DepositIn where
  savingsAccountId : Uuid
  amount : ℚ
  paymentAccountId : Uuid
  postedBy : Uuid
  idempotencyKey : String
deriving DecidableEq, Repr

/-- `SavingsService.deposit`; returns the transaction. -/
def deposit (d : DepositIn) : Call Uuid := do
  let t ← get
  match t.savingsTransaction? d.idempotencyKey d.savingsAccountId with
  | some existing => pure existing.id
  | none =>
    let account ← getSavingsAccount d.savingsAccountId
    let entryId ← postJournalEntry s!"SAV-DEP-{d.savingsAccountId}"
      s!"Savings deposit: {d.amount}" d.postedBy ("savings-deposit-" ++ d.idempotencyKey)
      (transferLines d.paymentAccountId account.liabilityAccountId d.amount)
    insertSavingsTransaction d.savingsAccountId .deposit d.amount entryId d.idempotencyKey

/-- The payload of a `savings.withdraw` request. `none` is a key that is missing or does not
parse. -/
structure WithdrawPayload where
  savingsAccountId : Option Uuid
  amount : Option ℚ
  paymentAccountId : Option Uuid
  liabilityAccountId : Option Uuid
  postedBy : Option Uuid
  idempotencyKey : Option String
deriving DecidableEq, Repr

/-- `execute_withdraw`, the executor of an approved withdrawal. The row of the key is looked up
across all accounts. -/
def executeWithdraw (payload : WithdrawPayload) : Call Unit := do
  let savingsAccountId ← orRaise payload.savingsAccountId (.keyError "savings_account_id")
  let amount ← orRaise payload.amount (.keyError "amount")
  let paymentAccountId ← orRaise payload.paymentAccountId (.keyError "payment_account_id")
  let liabilityAccountId ← orRaise payload.liabilityAccountId (.keyError "liability_account_id")
  let postedBy ← orRaise payload.postedBy (.keyError "posted_by")
  let idempotencyKey ← orRaise payload.idempotencyKey (.keyError "idempotency_key")
  let t ← get
  match t.savingsTransactions.find? (·.idempotencyKey = idempotencyKey) with
  | some _ => pure ()
  | none =>
    let entryId ← postJournalEntry s!"SAV-WDR-{savingsAccountId}"
      s!"Savings withdrawal: {amount}" postedBy ("savings-withdraw-" ++ idempotencyKey)
      (transferLines liabilityAccountId paymentAccountId amount)
    constraint (∃ a ∈ t.savingsAccounts, a.id = savingsAccountId)
      (.integrityError "fk_savtx_account")
    let _ ← insertSavingsTransaction savingsAccountId .withdrawal amount entryId idempotencyKey

/-- `on_insufficient_funds`; no module is in `_ALLOW_NEGATIVE_MODULES`. -/
inductive OnInsufficientFunds where
  | fail | partially | allowNegative
deriving DecidableEq, Repr

/-- The arguments of `system_debit` and `system_credit`. -/
structure SystemMovementIn where
  savingsAccountId : Uuid
  amount : ℚ
  reason : String
  sourceModule : String
  actor : Uuid
  idempotencyKey : String
  contraAccountId : Uuid
  narration : Option String
deriving DecidableEq, Repr

/-- `narration or f"... {reason}"`. -/
def SystemMovementIn.description (m : SystemMovementIn) (kind : String) : String :=
  match m.narration.filter (· ≠ "") with
  | some narration => narration
  | none => s!"{kind}: {m.reason}"

/-- What `system_debit` returns: the amount debited, its journal entry, and the shortfall.
`none` is the status `zero`. -/
structure SystemDebitResult where
  journalEntryId : Uuid
  debitedAmount : ℚ
  shortfallAmount : ℚ
deriving DecidableEq, Repr

/-- `SavingsService.system_debit`. A replayed key returns the row it finds, with no
shortfall. -/
def systemDebit (m : SystemMovementIn) (mode : OnInsufficientFunds) :
    Call (Option SystemDebitResult) := do
  require (mode ≠ .allowNegative)
    (.valueError s!"'allow_negative' is not permitted for source_module='{m.sourceModule}'")
  let t ← get
  match t.savingsTransaction? m.idempotencyKey m.savingsAccountId with
  | some existing => pure (some ⟨existing.journalEntryId, existing.amount.val, 0⟩)
  | none =>
    let account ← getSavingsAccount m.savingsAccountId
    let balance ← getSavingsBalance m.savingsAccountId
    require (¬ (mode = .fail ∧ balance < m.amount))
      (.valueError (s!"Insufficient balance for system_debit: " ++
        s!"requested {m.amount}, available {balance}"))
    if mode = .partially ∧ balance ≤ 0 then pure none
    else
      let actual := if mode = .partially then min balance m.amount else m.amount
      let entryId ← postJournalEntry s!"SYS-DEB-{m.savingsAccountId}"
        (m.description "System debit") m.actor ("sys-debit-" ++ m.idempotencyKey)
        (transferLines account.liabilityAccountId m.contraAccountId actual)
      let _ ← insertSavingsTransaction m.savingsAccountId .systemDebit actual entryId
        m.idempotencyKey
      pure (some ⟨entryId, actual, m.amount - actual⟩)

/-- `SavingsService.system_credit`; returns the transaction. -/
def systemCredit (m : SystemMovementIn) : Call Uuid := do
  let t ← get
  match t.savingsTransaction? m.idempotencyKey m.savingsAccountId with
  | some existing => pure existing.id
  | none =>
    let account ← getSavingsAccount m.savingsAccountId
    let entryId ← postJournalEntry s!"SYS-CRD-{m.savingsAccountId}"
      (m.description "System credit") m.actor ("sys-credit-" ++ m.idempotencyKey)
      (transferLines m.contraAccountId account.liabilityAccountId m.amount)
    insertSavingsTransaction m.savingsAccountId .systemCredit m.amount entryId m.idempotencyKey

/-! ## What the movements do -/

theorem savingsAccount?_some {t : Tables} {accountId : Uuid} {account : SavingsAccount}
    (h : t.savingsAccount? accountId = some account) :
    account ∈ t.savingsAccounts ∧ account.id = accountId :=
  ⟨List.mem_of_find?_eq_some h, by simpa using List.find?_some h⟩

theorem getSavingsAccount_ok {accountId : Uuid} {t t' : Tables} {account : SavingsAccount}
    (h : getSavingsAccount accountId t = .ok account t') :
    t.savingsAccount? accountId = some account ∧ t' = t := by
  simp only [getSavingsAccount, get_bind_eq_ok, orRaise_eq_ok] at h
  exact h

theorem getSavingsAccount_bind_eq_ok {β : Type} {accountId : Uuid} {f : SavingsAccount → Call β}
    {t t' : Tables} {b : β} :
    (getSavingsAccount accountId >>= f) t = .ok b t' ↔
      ∃ account, t.savingsAccount? accountId = some account ∧ f account t = .ok b t' := by
  rw [bind_eq_ok]
  constructor
  · rintro ⟨account, t₁, hget, hf⟩
    obtain ⟨hfound, rfl⟩ := getSavingsAccount_ok hget
    exact ⟨account, hfound, hf⟩
  · rintro ⟨account, hfound, hf⟩
    refine ⟨account, t, ?_, hf⟩
    simp only [getSavingsAccount, get_bind_eq_ok, orRaise_eq_ok]
    exact ⟨hfound, trivial⟩

theorem getSavingsBalance_bind_eq_ok {β : Type} {accountId : Uuid} {f : ℚ → Call β}
    {t t' : Tables} {b : β} :
    (getSavingsBalance accountId >>= f) t = .ok b t' ↔
      (∃ account, t.savingsAccount? accountId = some account) ∧
        f (t.savingsBalance accountId) t = .ok b t' := by
  rw [bind_eq_ok]
  simp only [getSavingsBalance, getSavingsAccount_bind_eq_ok, get_bind_eq_ok, pure_eq_ok]
  constructor
  · rintro ⟨_, _, ⟨account, hfound, rfl, rfl⟩, hf⟩
    exact ⟨⟨account, hfound⟩, hf⟩
  · rintro ⟨⟨account, hfound⟩, hf⟩
    exact ⟨_, t, ⟨account, hfound, rfl, rfl⟩, hf⟩

/-- A row of the statement was written, with a journal entry of these lines. Under a key that the
journal has already, the lines are not posted again. -/
structure Recorded (entryKey : String) (lines : List LineIn) (accountId : Uuid)
    (type : SavingsTransactionType) (amount : ℚ) (key : String) (t t' : Tables) : Prop where
  unused : ∀ tx ∈ t.savingsTransactions, tx.idempotencyKey ≠ key
  row : ∃ tx : SavingsTransaction, tx.savingsAccountId = accountId ∧ tx.transactionType = type ∧
    tx.amount.val = roundAt 4 amount ∧ tx.idempotencyKey = key ∧
    t'.savingsTransactions = t.savingsTransactions ++ [tx]
  posted : (t'.entries = t.entries ∧ ∃ e ∈ t.entries, e.idempotencyKey = entryKey) ∨
    Appends [⟨entryKey, lines⟩] t t'
  rest : ∃ n es txs, t' = { t with nextId := n, entries := es, savingsTransactions := txs }
  nextId : t.nextId ≤ t'.nextId

/-- Post, then write the row. -/
theorem recorded_of_ok {reference description entryKey key : String} {postedBy entryId id : Uuid}
    {lines : List LineIn} {accountId : Uuid} {type : SavingsTransactionType} {amount : ℚ}
    {t t₁ t' : Tables}
    (hpost : postJournalEntry reference description postedBy entryKey lines t = .ok entryId t₁)
    (hinsert : insertSavingsTransaction accountId type amount entryId key t₁ = .ok id t') :
    Recorded entryKey lines accountId type amount key t t' := by
  obtain ⟨hunused, stored, hstored, -, rfl⟩ := insertSavingsTransaction_ok hinsert
  rcases postJournalEntry_ok hpost with ⟨rfl, hused⟩ | hposted
  · exact ⟨hunused, ⟨_, rfl, rfl, hstored, rfl, rfl⟩, .inl ⟨rfl, hused⟩, ⟨_, _, _, rfl⟩,
      Nat.le_succ _⟩
  · obtain ⟨e, hkey, hst, rfl⟩ := hposted.entry
    refine ⟨hunused, ⟨_, rfl, rfl, hstored, rfl, rfl⟩, .inr ?_, ⟨_, _, _, rfl⟩, ?_⟩
    · exact ⟨[e], .cons ⟨hkey, hposted.balanced, hst⟩ .nil, rfl⟩
    · show t.nextId ≤ t.nextId + 1 + 1
      omega

/-- A deposit finds the row of its key, or records a new one. -/
theorem deposit_ok {d : DepositIn} {t t' : Tables} {id : Uuid} (h : deposit d t = .ok id t') :
    t' = t ∨ ∃ account, t.savingsAccount? d.savingsAccountId = some account ∧
      Recorded ("savings-deposit-" ++ d.idempotencyKey)
        (transferLines d.paymentAccountId account.liabilityAccountId d.amount)
        d.savingsAccountId .deposit d.amount d.idempotencyKey t t' := by
  simp only [deposit, get_bind_eq_ok] at h
  cases hfind : t.savingsTransaction? d.idempotencyKey d.savingsAccountId with
  | some existing =>
    rw [hfind] at h
    exact .inl (pure_eq_ok.mp h).2.symm
  | none =>
    simp only [hfind, getSavingsAccount_bind_eq_ok] at h
    obtain ⟨account, hfound, h⟩ := h
    obtain ⟨entryId, t₁, hpost, hinsert⟩ := bind_eq_ok.mp h
    exact .inr ⟨account, hfound, recorded_of_ok hpost hinsert⟩

/-- The executor finds a row with its key, or records a withdrawal. -/
theorem executeWithdraw_ok {payload : WithdrawPayload} {t t' : Tables} {u : Unit}
    (h : executeWithdraw payload t = .ok u t') :
    (t' = t ∧ ∃ key, payload.idempotencyKey = some key ∧
      ∃ tx ∈ t.savingsTransactions, tx.idempotencyKey = key) ∨
    ∃ accountId amount paymentId liabilityId key, payload.savingsAccountId = some accountId ∧
      payload.amount = some amount ∧ payload.paymentAccountId = some paymentId ∧
      payload.liabilityAccountId = some liabilityId ∧ payload.idempotencyKey = some key ∧
      (∃ a ∈ t.savingsAccounts, a.id = accountId) ∧
      Recorded ("savings-withdraw-" ++ key) (transferLines liabilityId paymentId amount)
        accountId .withdrawal amount key t t' := by
  simp only [executeWithdraw, orRaise_bind_eq_ok, get_bind_eq_ok] at h
  obtain ⟨accountId, haccount, amount, hamount, paymentId, hpayment, liabilityId, hliability,
    postedBy, -, key, hkey, h⟩ := h
  cases hfind : t.savingsTransactions.find? (·.idempotencyKey = key) with
  | some existing =>
    rw [hfind] at h
    have hused : existing.idempotencyKey = key := by simpa using List.find?_some hfind
    exact .inl ⟨(pure_eq_ok.mp h).2.symm, key, hkey, existing, List.mem_of_find?_eq_some hfind,
      hused⟩
  | none =>
    rw [hfind] at h
    obtain ⟨entryId, t₁, hpost, h⟩ := bind_eq_ok.mp h
    rw [constraint_bind_eq_ok] at h
    obtain ⟨hexists, h⟩ := h
    obtain ⟨id, t₂, hinsert, h⟩ := bind_eq_ok.mp h
    obtain ⟨-, rfl⟩ := pure_eq_ok.mp h
    exact .inr ⟨accountId, amount, paymentId, liabilityId, key, haccount, hamount, hpayment,
      hliability, hkey, hexists, recorded_of_ok hpost hinsert⟩

/-- What `system_debit` takes from a balance. -/
def SystemMovementIn.actual (m : SystemMovementIn) (mode : OnInsufficientFunds) (balance : ℚ) : ℚ :=
  if mode = .partially then min balance m.amount else m.amount

/-- A system debit finds the row of its key, takes nothing from an empty account, or records what
it takes. -/
theorem systemDebit_ok {m : SystemMovementIn} {mode : OnInsufficientFunds} {t t' : Tables}
    {result : Option SystemDebitResult} (h : systemDebit m mode t = .ok result t') :
    (t' = t ∧ ∃ tx ∈ t.savingsTransactions, tx.idempotencyKey = m.idempotencyKey ∧
      tx.savingsAccountId = m.savingsAccountId ∧
      result = some ⟨tx.journalEntryId, tx.amount.val, 0⟩) ∨
    (t' = t ∧ result = none ∧ t.savingsBalance m.savingsAccountId ≤ 0) ∨
    ∃ account entryId, t.savingsAccount? m.savingsAccountId = some account ∧
      result = some ⟨entryId, m.actual mode (t.savingsBalance m.savingsAccountId),
        m.amount - m.actual mode (t.savingsBalance m.savingsAccountId)⟩ ∧
      (mode = .partially → 0 < t.savingsBalance m.savingsAccountId) ∧
      Recorded ("sys-debit-" ++ m.idempotencyKey)
        (transferLines account.liabilityAccountId m.contraAccountId
          (m.actual mode (t.savingsBalance m.savingsAccountId)))
        m.savingsAccountId .systemDebit (m.actual mode (t.savingsBalance m.savingsAccountId))
        m.idempotencyKey t t' := by
  simp only [systemDebit, require_bind_eq_ok, get_bind_eq_ok] at h
  obtain ⟨-, h⟩ := h
  cases hfind : t.savingsTransaction? m.idempotencyKey m.savingsAccountId with
  | some existing =>
    simp only [hfind, pure_eq_ok] at h
    have hkeys : existing.idempotencyKey = m.idempotencyKey ∧
        existing.savingsAccountId = m.savingsAccountId := by simpa using List.find?_some hfind
    exact .inl ⟨h.2.symm, existing, List.mem_of_find?_eq_some hfind, hkeys.1, hkeys.2, h.1.symm⟩
  | none =>
    simp only [hfind, getSavingsAccount_bind_eq_ok, getSavingsBalance_bind_eq_ok,
      require_bind_eq_ok] at h
    obtain ⟨account, hfound, -, -, h⟩ := h
    split at h
    · rename_i hempty
      obtain ⟨rfl, rfl⟩ := pure_eq_ok.mp h
      exact .inr (.inl ⟨rfl, rfl, hempty.2⟩)
    · rename_i hfunds
      obtain ⟨entryId, t₃, hpost, h⟩ := bind_eq_ok.mp h
      obtain ⟨id, t₄, hinsert, h⟩ := bind_eq_ok.mp h
      obtain ⟨rfl, rfl⟩ := pure_eq_ok.mp h
      refine .inr (.inr ⟨account, entryId, hfound, rfl, ?_, recorded_of_ok hpost hinsert⟩)
      intro hmode
      exact not_le.mp fun hle => hfunds ⟨hmode, hle⟩

theorem systemCredit_ok {m : SystemMovementIn} {t t' : Tables} {id : Uuid}
    (h : systemCredit m t = .ok id t') :
    t' = t ∨ ∃ account, t.savingsAccount? m.savingsAccountId = some account ∧
      Recorded ("sys-credit-" ++ m.idempotencyKey)
        (transferLines m.contraAccountId account.liabilityAccountId m.amount)
        m.savingsAccountId .systemCredit m.amount m.idempotencyKey t t' := by
  simp only [systemCredit, get_bind_eq_ok] at h
  cases hfind : t.savingsTransaction? m.idempotencyKey m.savingsAccountId with
  | some existing =>
    rw [hfind] at h
    exact .inl (pure_eq_ok.mp h).2.symm
  | none =>
    simp only [hfind, getSavingsAccount_bind_eq_ok] at h
    obtain ⟨account, hfound, h⟩ := h
    obtain ⟨entryId, t₁, hpost, hinsert⟩ := bind_eq_ok.mp h
    exact .inr ⟨account, hfound, recorded_of_ok hpost hinsert⟩

end SaccoPlatform
