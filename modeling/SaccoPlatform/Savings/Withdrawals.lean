import SaccoPlatform.MakerChecker.Executors
import SaccoPlatform.MakerChecker.Footprints

/-!
# Withdrawals

`SavingsService.submit_withdrawal` (`app/modules/savings/service.py`) checks the balance of the
account when a withdrawal is submitted for approval; `execute_withdraw` checks nothing. So a
withdrawal is safe exactly when its check would still pass at the moment its executor runs: after
other withdrawals that were pending at the same time, and after fees that were collected in
between, the account can end below its minimum balance or below zero.

The check looks at `get_balance` and not, as the design of the guarantor liens has it, at
`get_available_balance`; so a withdrawal can also take what is held for a guarantee.
-/

namespace SaccoPlatform

open Lib Session

/-! ## The service -/

/-- The arguments of `submit_withdrawal`. -/
structure WithdrawIn where
  savingsAccountId : Uuid
  amount : ℚ
  paymentAccountId : Uuid
  submittedBy : Uuid
  idempotencyKey : String
deriving DecidableEq, Repr

def WithdrawIn.payload (w : WithdrawIn) (liabilityAccountId : Uuid) : WithdrawPayload :=
  ⟨some w.savingsAccountId, some w.amount, some w.paymentAccountId, some liabilityAccountId,
    some w.submittedBy, some w.idempotencyKey⟩

/-- `payload["idempotency_key"]` of a `savings.withdraw` request. -/
def Operation.withdrawKey? : Operation → Option String
  | withdraw payload => payload.idempotencyKey
  | _ => none

/-- `SavingsService.submit_withdrawal`; returns the request. -/
def submitWithdrawal (env : Surroundings) (w : WithdrawIn) : ApprovalCall Uuid := do
  let account ← onData (getSavingsAccount w.savingsAccountId)
  let db ← get
  match db.requests.find? (·.operation.withdrawKey? = some w.idempotencyKey) with
  | some existing => pure existing.id
  | none =>
    let balance ← onData (getSavingsBalance w.savingsAccountId)
    require (w.amount ≤ balance)
      (.valueError s!"Insufficient balance: requested {w.amount}, available {balance}")
    let remaining := inContext 28 (balance - w.amount)
    require (account.minimumBalance.val ≤ remaining)
      (.valueError ("Withdrawal would breach minimum balance: " ++
        s!"balance after withdrawal {remaining} < minimum {account.minimumBalance.val}"))
    submit (tenantHooks env)
      ⟨.ok (.withdraw (w.payload account.liabilityAccountId)), w.submittedBy, 1, none⟩

/-! ## Runs -/

/-- A committed transaction: the savings and fee endpoints and tasks, or a call of the approval
endpoints; `elsewhere` stands for every other one. -/
inductive SavingsOp where
  | deposit (d : DepositIn)
  | submitWithdrawal (w : WithdrawIn)
  | assess (a : AssessIn)
  | retryPartial
  | approval (op : ApprovalOp Tables Operation)

def SavingsOp.step (db : ApprovalDb Tables Operation) :
    Surroundings × SavingsOp → ApprovalDb Tables Operation
  | (_, .deposit d) => commit (onData (SaccoPlatform.deposit d)) db
  | (env, .submitWithdrawal w) => commit (SaccoPlatform.submitWithdrawal env w) db
  | (_, .assess a) => commit (onData (SaccoPlatform.assess a)) db
  | (env, .retryPartial) => commit (onData (SaccoPlatform.retryPartial env.today)) db
  | (env, .approval op) => op.step (tenantHooks env) db

/-- The withdrawals executed so far. -/
def Tables.withdrawals (t : Tables) : List SavingsTransaction :=
  t.savingsTransactions.filter (·.transactionType = .withdrawal)

/-- A withdrawal from the account was executed. -/
def WithdrewFrom (t t' : Tables) (accountId : Uuid) : Prop :=
  ∃ tx ∈ t'.withdrawals, tx.savingsAccountId = accountId ∧ tx ∉ t.withdrawals

/-- No executed withdrawal left an account below its minimum balance or below zero. -/
def MinimumKept (t t' : Tables) : Prop :=
  ∀ account ∈ t'.savingsAccounts, WithdrewFrom t t' account.id →
    account.minimumBalance.val ≤ t'.savingsBalance account.id ∧ 0 ≤ t'.savingsBalance account.id

/-- No executed withdrawal left the available balance of an account negative. -/
def LiensKept (t t' : Tables) : Prop :=
  ∀ account ∈ t'.savingsAccounts, WithdrewFrom t t' account.id →
    0 ≤ t'.availableBalance account.id

/-- The withdrawal that the approval is about to execute: it completes the quorum of a pending
`savings.withdraw` request whose key is not used yet. -/
def ApprovalDb.withdrawal? (db : ApprovalDb Tables Operation) (requestId actor : Uuid) :
    Option (Uuid × ℚ) :=
  match db.request? requestId with
  | none => none
  | some r =>
    match r.operation with
    | .withdraw payload =>
      if db.MayVote r actor ∧
          r.requiredApprovals ≤ (db.vote r.id actor .approve).approvalCount r.id ∧
          ∀ tx ∈ db.data.savingsTransactions, some tx.idempotencyKey ≠ payload.idempotencyKey then
        payload.savingsAccountId.bind fun accountId => payload.amount.map (accountId, ·)
      else none
    | _ => none

/-- The check of `submit_withdrawal`, for the amount as it is stored. -/
def Tables.CoversMinimum (t : Tables) (w : Uuid × ℚ) : Prop :=
  ∀ account ∈ t.savingsAccounts, account.id = w.1 →
    roundAt 4 w.2 ≤ t.savingsBalance account.id ∧
    account.minimumBalance.val ≤ t.savingsBalance account.id - roundAt 4 w.2

/-- The same check against the available balance. -/
def Tables.CoversLiens (t : Tables) (w : Uuid × ℚ) : Prop :=
  ∀ account ∈ t.savingsAccounts, account.id = w.1 →
    roundAt 4 w.2 ≤ t.availableBalance account.id

/-- A withdrawal that is about to be executed meets `P`. -/
def SavingsOp.Covered (P : Tables → Uuid × ℚ → Prop) (db : ApprovalDb Tables Operation) :
    Surroundings × SavingsOp → Prop
  | (_, .approval (.approve requestId actor)) =>
    ∀ w ∈ db.withdrawal? requestId actor, P db.data w
  | _ => True

instance (t : Tables) (w : Uuid × ℚ) : Decidable (t.CoversMinimum w) :=
  inferInstanceAs (Decidable (∀ account ∈ t.savingsAccounts, _))

instance (t : Tables) (w : Uuid × ℚ) : Decidable (t.CoversLiens w) :=
  inferInstanceAs (Decidable (∀ account ∈ t.savingsAccounts, _))

instance (P : Tables → Uuid × ℚ → Prop) [∀ t w, Decidable (P t w)]
    (db : ApprovalDb Tables Operation) (op : Surroundings × SavingsOp) :
    Decidable (SavingsOp.Covered P db op) := by
  unfold SavingsOp.Covered
  split <;> infer_instance

/-! ## What an executed withdrawal does -/

/-- One withdrawal from the account was executed. -/
structure Withdrawn (t t' : Tables) (w : Uuid × ℚ) : Prop where
  row : ∃ tx : SavingsTransaction, tx.savingsAccountId = w.1 ∧ tx.transactionType = .withdrawal ∧
    tx.amount.val = roundAt 4 w.2 ∧ tx ∉ t.savingsTransactions ∧
    t'.savingsTransactions = t.savingsTransactions ++ [tx]
  accounts : t'.savingsAccounts = t.savingsAccounts
  liens : t'.liens = t.liens

theorem Recorded.withdrawn {entryKey key : String} {lines : List LineIn} {accountId : Uuid}
    {amount : ℚ} {t t' : Tables}
    (h : Recorded entryKey lines accountId .withdrawal amount key t t') :
    Withdrawn t t' (accountId, amount) := by
  obtain ⟨tx, haccount, htype, hamount, hkey, hrows⟩ := h.row
  obtain ⟨n, es, txs, hrest⟩ := h.rest
  refine ⟨⟨tx, haccount, htype, hamount, ?_, hrows⟩, ?_, ?_⟩
  · intro hmem
    exact h.unused tx hmem hkey
  · rw [hrest]
  · rw [hrest]

theorem Withdrawn.withdrewFrom {t t' : Tables} {w : Uuid × ℚ} (h : Withdrawn t t' w) :
    WithdrewFrom t t' w.1 := by
  obtain ⟨tx, haccount, htype, -, hnew, hrows⟩ := h.row
  refine ⟨tx, ?_, haccount, ?_⟩
  · unfold Tables.withdrawals
    rw [hrows]
    simp [htype]
  · intro hmem
    exact hnew (List.mem_filter.mp hmem).1

/-- Only the account of the withdrawal has a new one. -/
theorem Withdrawn.account_eq {t t' : Tables} {w : Uuid × ℚ} (h : Withdrawn t t' w)
    {accountId : Uuid} (hfrom : WithdrewFrom t t' accountId) : accountId = w.1 := by
  obtain ⟨tx, haccount, htype, -, -, hrows⟩ := h.row
  obtain ⟨tx', hmem, rfl, hnew⟩ := hfrom
  unfold Tables.withdrawals at hmem hnew
  rw [hrows, List.filter_append, List.mem_append] at hmem
  rcases hmem with hold | hone
  · exact absurd hold hnew
  · have hsame := List.mem_singleton.mp (List.mem_filter.mp hone).1
    rw [hsame, haccount]

theorem Withdrawn.balance_eq {t t' : Tables} {w : Uuid × ℚ} (h : Withdrawn t t' w) :
    t'.savingsBalance w.1 = t.savingsBalance w.1 - roundAt 4 w.2 := by
  obtain ⟨tx, haccount, htype, hamount, -, hrows⟩ := h.row
  have hsigned : tx.signed = - roundAt 4 w.2 := by
    unfold SavingsTransaction.signed
    rw [htype, hamount]
  rw [savingsBalance_append hrows, if_pos haccount, hsigned]
  ring

/-- The minimum is kept exactly when the check of the submission passes at the execution. -/
theorem Withdrawn.minimumKept_iff {t t' : Tables} {w : Uuid × ℚ} (h : Withdrawn t t' w) :
    MinimumKept t t' ↔ t.CoversMinimum w := by
  unfold MinimumKept Tables.CoversMinimum
  rw [h.accounts]
  constructor
  · intro hkept account haccount hid
    have hsafe := hkept account haccount (by rw [hid]; exact h.withdrewFrom)
    rw [hid, h.balance_eq] at hsafe
    rw [hid]
    exact ⟨by linarith [hsafe.2], hsafe.1⟩
  · intro hcovers account haccount hfrom
    have hid := h.account_eq hfrom
    have hcheck := hcovers account haccount hid
    rw [hid] at hcheck ⊢
    rw [h.balance_eq]
    exact ⟨hcheck.2, by linarith [hcheck.1]⟩

theorem Withdrawn.liensKept_iff {t t' : Tables} {w : Uuid × ℚ} (h : Withdrawn t t' w) :
    LiensKept t t' ↔ t.CoversLiens w := by
  have havailable : t'.availableBalance w.1 = t.availableBalance w.1 - roundAt 4 w.2 := by
    unfold Tables.availableBalance Tables.activeLien
    rw [h.liens, h.balance_eq]
    ring
  unfold LiensKept Tables.CoversLiens
  rw [h.accounts]
  constructor
  · intro hkept account haccount hid
    have hsafe := hkept account haccount (by rw [hid]; exact h.withdrewFrom)
    rw [hid, havailable] at hsafe
    rw [hid]
    linarith
  · intro hcovers account haccount hfrom
    have hid := h.account_eq hfrom
    have hcheck := hcovers account haccount hid
    rw [hid] at hcheck ⊢
    rw [havailable]
    linarith

/-! ## One step -/

theorem repaymentFrame_withdrawals : RepaymentFrame (Keeps Tables.withdrawals) where
  rows _ _ _ _ _ _ _ _ _ := rfl
  debits t tx htype := by simp [Keeps, Tables.withdrawals, htype]
  events _ _ _ _ _ _ := rfl

/-- Only the executor of withdrawals writes withdrawals. -/
theorem writes_withdrawals {op : Operation} (hop : ∀ payload, op ≠ .withdraw payload) :
    op.Writes (Keeps Tables.withdrawals) := by
  cases op with
  | withdraw payload => exact absurd rfl (hop payload)
  | writeOff payload => exact ⟨fun _ _ _ _ _ _ _ => rfl, fun _ _ _ _ _ _ => rfl⟩
  | restructureSchedule payload => exact ⟨fun _ _ _ _ _ _ => rfl, fun _ _ _ _ _ => rfl⟩
  | applyPayrollBatch payload => exact ⟨repaymentFrame_withdrawals, fun _ _ _ => rfl⟩
  | changeStatus payload => exact ⟨fun _ _ _ _ => rfl, fun _ _ _ _ _ => rfl⟩
  | approveApplication payload => exact fun _ _ => rfl
  | redeemShares payload => exact fun _ _ _ _ _ => rfl
  | _ => exact fun _ _ _ _ => rfl

theorem feeFrame_withdrawals : FeeFrame (Keeps Tables.withdrawals) where
  rows _ _ _ _ _ _ := rfl
  debits t tx htype := by simp [Keeps, Tables.withdrawals, htype]

theorem deposit_withdrawals (d : DepositIn) : Moves (Keeps Tables.withdrawals) (deposit d) := by
  refine deposit_writes (fun _ _ _ _ => rfl) ?_ d
  intro t tx htype
  simp [Keeps, Tables.withdrawals, htype]

/-- A submission finds a request with its key, or adds one. -/
theorem submitWithdrawal_ok {env : Surroundings} {w : WithdrawIn}
    {db db' : ApprovalDb Tables Operation} {id : Uuid}
    (h : submitWithdrawal env w db = .ok id db') :
    (∃ r ∈ db.requests, r.operation.withdrawKey? = some w.idempotencyKey ∧ id = r.id ∧ db' = db) ∨
    ∃ account, db.data.savingsAccount? w.savingsAccountId = some account ∧
      id = db.nextRequestId ∧ db' = { db with
        nextRequestId := db.nextRequestId + 1
        requests := db.requests ++ [⟨db.nextRequestId,
          .withdraw (w.payload account.liabilityAccountId), w.submittedBy, 1, .pending, none⟩] } := by
  simp only [submitWithdrawal, onData_bind_eq_ok, get_bind_eq_ok] at h
  obtain ⟨account, data, haccount, h⟩ := h
  obtain ⟨hfound, rfl⟩ := getSavingsAccount_ok haccount
  cases hfind : db.requests.find? (·.operation.withdrawKey? = some w.idempotencyKey) with
  | some existing =>
    simp only [hfind, pure_eq_ok] at h
    have hkey : existing.operation.withdrawKey? = some w.idempotencyKey := by
      simpa using List.find?_some hfind
    exact .inl ⟨existing, List.mem_of_find?_eq_some hfind, hkey, h.1.symm, h.2.symm⟩
  | none =>
    simp only [hfind] at h
    obtain ⟨balance, data, hbalance, hrest⟩ := onData_bind_eq_ok.mp h
    obtain ⟨_, data₁, hget, hbalance⟩ := bind_eq_ok.mp hbalance
    obtain ⟨-, rfl⟩ := getSavingsAccount_ok hget
    simp only [get_bind_eq_ok, pure_eq_ok] at hbalance
    obtain ⟨-, rfl⟩ := hbalance
    simp only [require_bind_eq_ok] at hrest
    obtain ⟨operation, data, hoperation, rfl, hnotify, rfl⟩ := submit_ok hrest.2.2
    cases hoperation
    obtain rfl := notifyPending_ok hnotify
    exact .inr ⟨account, hfound, rfl, rfl⟩

theorem submitWithdrawal_data {env : Surroundings} {w : WithdrawIn}
    {db db' : ApprovalDb Tables Operation} {id : Uuid}
    (h : submitWithdrawal env w db = .ok id db') : db'.data = db.data := by
  rcases submitWithdrawal_ok h with ⟨_, -, -, -, rfl⟩ | ⟨_, -, -, rfl⟩
  · rfl
  · rfl

/-- The execution of a request with a withdrawal to come. -/
theorem executorOutcome_withdrawn {env : Surroundings} {db : ApprovalDb Tables Operation}
    {r : ApprovalRequest Operation} {actor : Uuid} {t' : Tables} {status : RequestStatus}
    (hvote : db.MayVote r actor)
    (hquorum : r.requiredApprovals ≤ (db.vote r.id actor .approve).approvalCount r.id)
    (h : ExecutorOutcome (tenantHooks env) r db.data t' status) :
    t'.withdrawals = db.data.withdrawals ∨
      ∃ w, db.withdrawal? r.id actor = some w ∧ Withdrawn db.data t' w := by
  by_cases hop : ∃ payload, r.operation = .withdraw payload
  · obtain ⟨payload, hop⟩ := hop
    rcases h with ⟨hown, -⟩ | ⟨-, t₁, hleft, hnotify⟩
    · simp only [tenantHooks, hop, Operation.ownCommit] at hown
      cases hown
    · obtain rfl := notifyDecided_ok hnotify
      simp only [ExecutorLeft, tenantHooks, hop, Operation.execute] at hleft
      rcases hleft with ⟨hok, -⟩ | ⟨e, hraised, -⟩
      · rcases executeWithdraw_ok hok with ⟨rfl, -⟩ |
          ⟨accountId, amount, _, _, key, haccount, hamount, -, -, hkey, -, hrecorded⟩
        · exact .inl rfl
        · refine .inr ⟨(accountId, amount), ?_, hrecorded.withdrawn⟩
          have hunused : ∀ tx ∈ db.data.savingsTransactions,
              some tx.idempotencyKey ≠ payload.idempotencyKey := by
            intro tx htx heq
            rw [hkey] at heq
            exact hrecorded.unused tx htx (Option.some.inj heq)
          simp only [ApprovalDb.withdrawal?, hvote.found, hop]
          rw [if_pos ⟨hvote, hquorum, hunused⟩, haccount, hamount]
          rfl
      · rw [raisesClean_executeWithdraw payload _ _ _ hraised]
        exact .inl rfl
  · refine .inl (executorOutcome_writes (writes_withdrawals ?_) h)
    intro payload heq
    exact hop ⟨payload, heq⟩

/-- A step executes no withdrawal, or exactly the one that its approval is about to execute. -/
theorem step_withdrawn (db : ApprovalDb Tables Operation) (env : Surroundings) {op : SavingsOp}
    (hop : ∀ data, op ≠ .approval (.elsewhere data)) :
    (SavingsOp.step db (env, op)).data.withdrawals = db.data.withdrawals ∨
    ∃ requestId actor w, op = .approval (.approve requestId actor) ∧
      db.withdrawal? requestId actor = some w ∧
      Withdrawn db.data (SavingsOp.step db (env, op)).data w := by
  have hkeeps : ∀ {α : Type} {x : Call α}, Moves (Keeps Tables.withdrawals) x →
      (commit (onData x : ApprovalCall α) db).data.withdrawals = db.data.withdrawals := by
    intro α x hx
    rcases commit_cases (onData x : ApprovalCall α) db with ⟨a, db', hok, heq⟩ | heq
    · obtain ⟨data, hdata, rfl⟩ := onData_eq_ok.mp hok
      rw [heq]
      exact hx.ok hdata
    · rw [heq]
  cases op with
  | deposit d => exact .inl (hkeeps (deposit_withdrawals d))
  | submitWithdrawal w =>
    exact .inl (congrArg Tables.withdrawals (commit_data fun _ _ => submitWithdrawal_data))
  | assess a => exact .inl (hkeeps (assess_writes feeFrame_withdrawals a))
  | retryPartial => exact .inl (hkeeps (retryPartial_writes feeFrame_withdrawals env.today))
  | approval op =>
    -- of the steps of the approval service, only the executor of a withdrawal writes one
    rcases ApprovalOp.step_data env db fun data heq => hop data (congrArg SavingsOp.approval heq)
      with hsame | ⟨r, actor, data, status, rfl, hvote, hquorum, houtcome, heq⟩
    · exact .inl (congrArg Tables.withdrawals hsame)
    · show (ApprovalOp.step (tenantHooks env) db (.approve r.id actor)).data.withdrawals = _ ∨ _
      rcases executorOutcome_withdrawn hvote hquorum houtcome with hnone | ⟨w, hw, hwithdrawn⟩
      · rw [heq]
        exact .inl hnone
      · refine .inr ⟨r.id, actor, w, rfl, hw, ?_⟩
        show Withdrawn db.data (ApprovalOp.step (tenantHooks env) db (.approve r.id actor)).data w
        rw [heq]
        exact hwithdrawn

/-- Where nothing new was withdrawn, nothing is claimed. -/
theorem not_withdrewFrom {t t' : Tables} (h : t'.withdrawals = t.withdrawals) (accountId : Uuid) :
    ¬ WithdrewFrom t t' accountId := by
  rintro ⟨tx, hmem, -, hnew⟩
  rw [h] at hmem
  exact hnew hmem

/-! ## Runs -/

/-- What is kept by a step that executes a withdrawal meeting `P` is kept by every step of a run
whose executed withdrawals meet `P`. -/
theorem step_of_covered {P : Tables → Uuid × ℚ → Prop} {Q : Tables → Tables → Prop}
    (hnone : ∀ t t', t'.withdrawals = t.withdrawals → Q t t')
    (hiff : ∀ t t' w, Withdrawn t t' w → (Q t t' ↔ P t w))
    {db : ApprovalDb Tables Operation} {env : Surroundings} {op : SavingsOp}
    (hop : ∀ data, op ≠ .approval (.elsewhere data)) (hcovered : SavingsOp.Covered P db (env, op)) :
    Q db.data (SavingsOp.step db (env, op)).data := by
  rcases step_withdrawn db env hop with hsame | ⟨requestId, actor, w, rfl, hw, hwithdrawn⟩
  · exact hnone _ _ hsame
  · exact (hiff _ _ w hwithdrawn).mpr (hcovered w hw)

/-- In every run in which the check of the submission would still pass whenever a withdrawal is
executed, no executed withdrawal leaves an account below its minimum balance or below zero; and a
withdrawal that is executed where the check would fail does. -/
theorem withdrawal_keeps_minimum (db : ApprovalDb Tables Operation) :
    (∀ (ops before after : List (Surroundings × SavingsOp))
      (env : Surroundings) (op : SavingsOp),
      Along SavingsOp.step (SavingsOp.Covered Tables.CoversMinimum) db ops →
      ops = before ++ (env, op) :: after → (∀ data, op ≠ .approval (.elsewhere data)) →
      MinimumKept (run SavingsOp.step db before).data
        (SavingsOp.step (run SavingsOp.step db before) (env, op)).data) ∧
    ∀ (env : Surroundings) (op : SavingsOp) (accountId : Uuid),
      (∀ data, op ≠ .approval (.elsewhere data)) →
      WithdrewFrom db.data (SavingsOp.step db (env, op)).data accountId →
      (MinimumKept db.data (SavingsOp.step db (env, op)).data ↔
        SavingsOp.Covered Tables.CoversMinimum db (env, op)) := by
  constructor
  · rintro ops before after env op hops rfl hop
    have hcovered := (along_append.mp hops).2.1
    refine step_of_covered (Q := MinimumKept) ?_ (fun _ _ w h => h.minimumKept_iff) hop hcovered
    intro t t' hsame account _ hfrom
    exact absurd hfrom (not_withdrewFrom hsame _)
  · intro env op accountId hop hfrom
    rcases step_withdrawn db env hop with hsame | ⟨requestId, actor, w, rfl, hw, hwithdrawn⟩
    · exact absurd hfrom (not_withdrewFrom hsame _)
    · rw [hwithdrawn.minimumKept_iff]
      unfold SavingsOp.Covered
      simp [hw]

/-- A tenant with cash `1000` and savings `2000`, and one savings account with a minimum balance of
100. -/
def savingsTenant : ApprovalDb Tables Operation :=
  ⟨{ Tables.empty with
    nextId := 4
    accounts := [⟨1, "1000"⟩, ⟨2, "2000"⟩]
    savingsAccounts := [⟨3, 9, money 100, 2⟩] }, 0, [], [], []⟩

/-- A deposit of 1000 and two submitted withdrawals of 600. -/
def twoWithdrawals : List (Surroundings × SavingsOp) :=
  [.deposit ⟨3, 1000, 1, 7, "d"⟩, .submitWithdrawal ⟨3, 600, 1, 7, "a"⟩,
    .submitWithdrawal ⟨3, 600, 1, 7, "b"⟩].map (sampleSurroundings, ·)

/-- The approval of a request by user 8. -/
def approvedBy8 (requestId : Uuid) : Surroundings × SavingsOp :=
  (sampleSurroundings, .approval (.approve requestId 8))

/-- The first of the two can be executed. -/
theorem withdrawal_keeps_minimum_first :
    (SavingsOp.step (run SavingsOp.step savingsTenant twoWithdrawals)
      (approvedBy8 0)).data.savingsBalance 3 = 400 ∧
    MinimumKept (run SavingsOp.step savingsTenant twoWithdrawals).data
      (SavingsOp.step (run SavingsOp.step savingsTenant twoWithdrawals) (approvedBy8 0)).data := by
  refine ⟨by decide +kernel, ?_⟩
  exact (withdrawal_keeps_minimum savingsTenant).1 (twoWithdrawals ++ [approvedBy8 0]) twoWithdrawals []
    sampleSurroundings _ (by decide +kernel) rfl nofun

/-- Both were covered when they were submitted; the second leaves the account at -200. -/
theorem withdrawal_below_minimum :
    (SavingsOp.step (run SavingsOp.step savingsTenant (twoWithdrawals ++ [approvedBy8 0]))
      (approvedBy8 1)).data.savingsBalance 3 = -200 ∧
    ¬ MinimumKept (run SavingsOp.step savingsTenant (twoWithdrawals ++ [approvedBy8 0])).data
      (SavingsOp.step (run SavingsOp.step savingsTenant (twoWithdrawals ++ [approvedBy8 0]))
        (approvedBy8 1)).data := by
  have hbalance : (SavingsOp.step (run SavingsOp.step savingsTenant
      (twoWithdrawals ++ [approvedBy8 0])) (approvedBy8 1)).data.savingsBalance 3 = -200 := by
    decide +kernel
  have haccount : (⟨3, 9, money 100, 2⟩ : SavingsAccount) ∈ (SavingsOp.step
      (run SavingsOp.step savingsTenant (twoWithdrawals ++ [approvedBy8 0]))
      (approvedBy8 1)).data.savingsAccounts := by decide +kernel
  have hwithdrew : WithdrewFrom (run SavingsOp.step savingsTenant
      (twoWithdrawals ++ [approvedBy8 0])).data (SavingsOp.step
      (run SavingsOp.step savingsTenant (twoWithdrawals ++ [approvedBy8 0])) (approvedBy8 1)).data
      3 := by
    unfold WithdrewFrom
    decide +kernel
  refine ⟨hbalance, ?_⟩
  intro hkept
  have hsafe := (hkept _ haccount hwithdrew).2
  rw [hbalance] at hsafe
  exact absurd hsafe (by decide)

/-- In every run in which the available balance covers a withdrawal whenever one is executed, no
executed withdrawal leaves an available balance negative; and a withdrawal that is executed where
it is not covered does. -/
theorem withdrawal_keeps_liens (db : ApprovalDb Tables Operation) :
    (∀ (ops before after : List (Surroundings × SavingsOp))
      (env : Surroundings) (op : SavingsOp),
      Along SavingsOp.step (SavingsOp.Covered Tables.CoversLiens) db ops →
      ops = before ++ (env, op) :: after → (∀ data, op ≠ .approval (.elsewhere data)) →
      LiensKept (run SavingsOp.step db before).data
        (SavingsOp.step (run SavingsOp.step db before) (env, op)).data) ∧
    ∀ (env : Surroundings) (op : SavingsOp) (accountId : Uuid),
      (∀ data, op ≠ .approval (.elsewhere data)) →
      WithdrewFrom db.data (SavingsOp.step db (env, op)).data accountId →
      (LiensKept db.data (SavingsOp.step db (env, op)).data ↔
        SavingsOp.Covered Tables.CoversLiens db (env, op)) := by
  constructor
  · rintro ops before after env op hops rfl hop
    have hcovered := (along_append.mp hops).2.1
    refine step_of_covered (Q := LiensKept) ?_ (fun _ _ w h => h.liensKept_iff) hop hcovered
    intro t t' hsame account _ hfrom
    exact absurd hfrom (not_withdrewFrom hsame _)
  · intro env op accountId hop hfrom
    rcases step_withdrawn db env hop with hsame | ⟨requestId, actor, w, rfl, hw, hwithdrawn⟩
    · exact absurd hfrom (not_withdrewFrom hsame _)
    · rw [hwithdrawn.liensKept_iff]
      unfold SavingsOp.Covered
      simp [hw]

/-- The sample tenant after the disbursement of its loan: a lien of 1000 lies on the savings
account 10 of the guarantor. -/
def lienTenant : ApprovalDb Tables Operation :=
  ⟨sampleDisbursement.step .python { sampleTenant .reducingBalance with
    accounts := (sampleTenant .reducingBalance).accounts ++ [⟨40, "2000"⟩] }, 0, [], [], []⟩

/-- The guarantor deposits some money and submits a withdrawal of 600. -/
def guarantorWithdraws (deposited : ℚ) : List (Surroundings × SavingsOp) :=
  [.deposit ⟨10, deposited, 5, 7, "s"⟩, .submitWithdrawal ⟨10, 600, 5, 7, "a"⟩].map
    (sampleSurroundings, ·)

theorem withdrawal_keeps_liens_covered :
    (SavingsOp.step (run SavingsOp.step lienTenant (guarantorWithdraws 2000))
      (approvedBy8 0)).data.availableBalance 10 = 400 ∧
    LiensKept (run SavingsOp.step lienTenant (guarantorWithdraws 2000)).data
      (SavingsOp.step (run SavingsOp.step lienTenant (guarantorWithdraws 2000))
        (approvedBy8 0)).data := by
  refine ⟨by decide +kernel, ?_⟩
  exact (withdrawal_keeps_liens lienTenant).1 (guarantorWithdraws 2000 ++ [approvedBy8 0])
    (guarantorWithdraws 2000) [] sampleSurroundings _ (by decide +kernel) rfl nofun

/-- With 1000 on the account all of it is held, and 600 can be withdrawn. -/
theorem withdrawal_takes_lien :
    (run SavingsOp.step lienTenant (guarantorWithdraws 1000)).data.availableBalance 10 = 0 ∧
    (SavingsOp.step (run SavingsOp.step lienTenant (guarantorWithdraws 1000))
      (approvedBy8 0)).data.availableBalance 10 = -600 ∧
    ¬ LiensKept (run SavingsOp.step lienTenant (guarantorWithdraws 1000)).data
      (SavingsOp.step (run SavingsOp.step lienTenant (guarantorWithdraws 1000))
        (approvedBy8 0)).data := by
  have havailable : (SavingsOp.step (run SavingsOp.step lienTenant (guarantorWithdraws 1000))
      (approvedBy8 0)).data.availableBalance 10 = -600 := by decide +kernel
  have haccount : (⟨10, 9, money 0, 40⟩ : SavingsAccount) ∈ (SavingsOp.step
      (run SavingsOp.step lienTenant (guarantorWithdraws 1000))
      (approvedBy8 0)).data.savingsAccounts := by decide +kernel
  have hwithdrew : WithdrewFrom (run SavingsOp.step lienTenant (guarantorWithdraws 1000)).data
      (SavingsOp.step (run SavingsOp.step lienTenant (guarantorWithdraws 1000))
        (approvedBy8 0)).data 10 := by
    unfold WithdrewFrom
    decide +kernel
  refine ⟨by decide +kernel, havailable, ?_⟩
  intro hkept
  have hsafe := hkept _ haccount hwithdrew
  rw [havailable] at hsafe
  exact absurd hsafe (by decide)

end SaccoPlatform
