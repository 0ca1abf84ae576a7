import SaccoPlatform.MakerChecker.Executors
import SaccoPlatform.MakerChecker.Footprints

/-!
# Holdings of shares

`ShareService.purchase_shares` checks the maximum of the product and `submit_redemption` checks the
shares held (`app/modules/shares/service.py`), but neither check is made where the row is written:
a purchase writes later in its transaction, which locks nothing, and a redemption is written by
`execute_redeem_shares` (`app/modules/shares/executors.py`) when it is approved. So the holdings
stay between zero and the maximum exactly as long as every check would still pass at the moment of
its write.
-/

namespace SaccoPlatform

open Lib Session

/-! ## The service -/

/-- The arguments of `submit_redemption`. -/
structure RedemptionIn where
  shareAccountId : Uuid
  quantity : ℤ
  paymentAccountId : Uuid
  submittedBy : Uuid
  idempotencyKey : String
deriving DecidableEq, Repr

def RedemptionIn.payload (r : RedemptionIn) (product : ShareProduct) : RedeemPayload :=
  ⟨some r.shareAccountId, some r.quantity, some (r.quantity * product.parValue.val),
    some r.paymentAccountId, some product.shareCapitalAccountId, some r.submittedBy,
    some r.idempotencyKey⟩

/-- `payload["idempotency_key"]` of a `shares.redeem_shares` request. -/
def Operation.redeemKey? : Operation → Option String
  | redeemShares payload => payload.idempotencyKey
  | _ => none

/-- `ShareService.submit_redemption`; returns the request. -/
def submitRedemption (env : Surroundings) (r : RedemptionIn) : ApprovalCall Uuid := do
  let (_, product) ← onData (getShareAccount r.shareAccountId)
  let db ← get
  match db.requests.find? (·.operation.redeemKey? = some r.idempotencyKey) with
  | some existing => pure existing.id
  | none =>
    let held := db.data.sharesHeld r.shareAccountId
    require (r.quantity ≤ held)
      (.valueError s!"Insufficient shares: requested {r.quantity}, held {held}")
    submit (tenantHooks env) ⟨.ok (.redeemShares (r.payload product)), r.submittedBy, 1, none⟩

/-! ## Runs -/

/-- The database, and the purchases that passed their check and have not written yet. -/
structure ShareWorld where
  db : ApprovalDb Tables Operation
  buying : List (PurchaseIn × ShareProduct)

/-- A step of a tenant: a purchase reads, a purchase that has read writes and commits, a redemption
is submitted, or a call of the approval endpoints. -/
inductive ShareOp where
  | startPurchase (p : PurchaseIn)
  | finishPurchase (p : PurchaseIn) (product : ShareProduct)
  | submitRedemption (r : RedemptionIn)
  | approval (op : ApprovalOp Tables Operation)

def ShareOp.step (w : ShareWorld) : Surroundings × ShareOp → ShareWorld
  | (_, .startPurchase p) =>
    match checkPurchase p w.db.data with
    | .ok (.inr product) _ => { w with buying := (p, product) :: w.buying }
    | _ => w
  | (_, .finishPurchase p product) =>
    if (p, product) ∈ w.buying then
      ⟨commit (onData (writePurchase p product)) w.db, w.buying.erase (p, product)⟩
    else w
  | (env, .submitRedemption r) => { w with db := commit (SaccoPlatform.submitRedemption env r) w.db }
  | (env, .approval op) => { w with db := op.step (tenantHooks env) w.db }

/-- A purchase that nothing interrupts is `purchase_shares`. -/
theorem purchase_uninterrupted (env : Surroundings) (w : ShareWorld) (p : PurchaseIn) :
    ∃ ops, run ShareOp.step w ops
      = { w with db := commit (onData (purchaseShares p)) w.db } := by
  cases hcheck : checkPurchase p w.db.data with
  | ok found t =>
    obtain rfl := checkPurchase_ok hcheck
    cases found with
    | inl existing =>
      refine ⟨[], ?_⟩
      simp [commit, onData, purchaseShares, bind_apply, hcheck]
    | inr product =>
      refine ⟨[(env, .startPurchase p), (env, .finishPurchase p product)], ?_⟩
      simp [ShareOp.step, commit, onData, purchaseShares, bind_apply, hcheck]
  | raised e t =>
    refine ⟨[], ?_⟩
    simp [commit, onData, purchaseShares, bind_apply, hcheck]
  | aborted e =>
    refine ⟨[], ?_⟩
    simp [commit, onData, purchaseShares, bind_apply, hcheck]

/-- Every account holds at least nothing and at most the maximum of its product. -/
def Tables.HoldingsOk (t : Tables) : Prop :=
  ∀ account ∈ t.shareAccounts, 0 ≤ t.sharesHeld account.id ∧
    ∀ product ∈ t.shareProduct? account.shareProductId, ∀ maximum ∈ product.maximumShares,
      t.sharesHeld account.id ≤ maximum

instance (t : Tables) : Decidable t.HoldingsOk :=
  inferInstanceAs (Decidable (∀ account ∈ t.shareAccounts, _))

/-- The check of `purchase_shares` against the maximum. -/
def Tables.AllowsPurchase (t : Tables) (accountId : Uuid) (quantity : ℤ) : Prop :=
  ∀ account ∈ t.shareAccounts, account.id = accountId →
    ∀ product ∈ t.shareProduct? account.shareProductId, ∀ maximum ∈ product.maximumShares,
      t.sharesHeld account.id + quantity ≤ maximum

instance (t : Tables) (accountId : Uuid) (quantity : ℤ) :
    Decidable (t.AllowsPurchase accountId quantity) :=
  inferInstanceAs (Decidable (∀ account ∈ t.shareAccounts, _))

/-- The redemption that the approval is about to execute: it completes the quorum of a pending
`shares.redeem_shares` request whose key is not used yet. -/
def ApprovalDb.redemption? (db : ApprovalDb Tables Operation) (requestId actor : Uuid) :
    Option (Uuid × ℤ) :=
  match db.request? requestId with
  | none => none
  | some r =>
    match r.operation with
    | .redeemShares payload =>
      if db.MayVote r actor ∧
          r.requiredApprovals ≤ (db.vote r.id actor .approve).approvalCount r.id ∧
          ∀ tx ∈ db.data.shareTransactions, some tx.idempotencyKey ≠ payload.idempotencyKey then
        payload.shareAccountId.bind fun accountId => payload.quantity.map (accountId, ·)
      else none
    | _ => none

/-- The rows that decide what an account holds. -/
def Tables.shareRows (t : Tables) :
    List ShareProduct × List MemberShareAccount × List ShareTransaction :=
  (t.shareProducts, t.shareAccounts, t.shareTransactions)

/-- The check that was made earlier would still pass where the row is written. What happens
elsewhere leaves the shares alone. -/
def ShareOp.Covered (w : ShareWorld) : Surroundings × ShareOp → Prop
  | (_, .finishPurchase p product) => (p, product) ∈ w.buying →
    (∀ tx ∈ w.db.data.shareTransactions, tx.idempotencyKey ≠ p.idempotencyKey) →
      w.db.data.AllowsPurchase p.shareAccountId p.quantity
  | (_, .approval (.approve requestId actor)) =>
    ∀ r ∈ w.db.redemption? requestId actor, r.2 ≤ w.db.data.sharesHeld r.1
  | (_, .approval (.elsewhere data)) => data.shareRows = w.db.data.shareRows
  | _ => True

instance ShareOp.decidableCovered (w : ShareWorld) (op : Surroundings × ShareOp) :
    Decidable (ShareOp.Covered w op) := by
  unfold ShareOp.Covered
  split <;> infer_instance

/-! ## One row -/

section

variable {t t' : Tables} {accountId : Uuid} {quantity : ℤ} {key : String}

theorem SharesMoved.held_eq {type : ShareTransactionType}
    (h : SharesMoved type accountId quantity key t t') (account : Uuid) :
    t'.sharesHeld account = t.sharesHeld account
      + if accountId = account then (if type = .purchase then quantity else - quantity) else 0 := by
  obtain ⟨tx, haccount, htype, hquantity, -, hrows⟩ := h.row
  have hsigned : tx.signed = if type = .purchase then quantity else - quantity := by
    rw [ShareTransaction.signed, htype, hquantity]
    cases type <;> rfl
  rw [sharesHeld_append hrows, haccount, hsigned]

theorem SharesMoved.product_eq {type : ShareTransactionType}
    (h : SharesMoved type accountId quantity key t t') (id : Uuid) :
    t'.shareProduct? id = t.shareProduct? id := by
  unfold Tables.shareProduct?
  rw [h.products]

/-- A purchase keeps the holdings in bounds exactly when it passes the check where it is written. -/
theorem SharesMoved.purchase_iff (h : SharesMoved .purchase accountId quantity key t t')
    (hok : t.HoldingsOk) : t'.HoldingsOk ↔ t.AllowsPurchase accountId quantity := by
  have hpos := h.positive
  constructor
  · intro hok' account haccount hid product hproduct maximum hmaximum
    rw [← h.accounts] at haccount
    rw [← h.product_eq] at hproduct
    have hle := (hok' account haccount).2 product hproduct maximum hmaximum
    rw [h.held_eq, if_pos hid.symm] at hle
    exact hle
  · intro hallows account haccount
    rw [h.accounts] at haccount
    obtain ⟨hnonneg, hmax⟩ := hok account haccount
    rw [h.held_eq, h.product_eq]
    by_cases hid : accountId = account.id
    · rw [if_pos hid, if_pos rfl]
      exact ⟨by omega, hallows account haccount hid.symm⟩
    · rw [if_neg hid, add_zero]
      exact ⟨hnonneg, hmax⟩

/-- A redemption does exactly when the shares are still held. -/
theorem SharesMoved.redemption_iff (h : SharesMoved .redemption accountId quantity key t t')
    (hok : t.HoldingsOk) : t'.HoldingsOk ↔ quantity ≤ t.sharesHeld accountId := by
  have hpos := h.positive
  constructor
  · intro hok'
    obtain ⟨account, haccount, rfl⟩ := h.account
    rw [← h.accounts] at haccount
    have hnonneg := (hok' account haccount).1
    rw [h.held_eq, if_pos rfl, if_neg (by decide)] at hnonneg
    omega
  · intro hheld account haccount
    rw [h.accounts] at haccount
    obtain ⟨hnonneg, hmax⟩ := hok account haccount
    rw [h.held_eq, h.product_eq]
    by_cases hid : accountId = account.id
    · subst hid
      rw [if_pos rfl, if_neg (by decide)]
      refine ⟨by omega, ?_⟩
      intro product hproduct maximum hmaximum
      have hle := hmax product hproduct maximum hmaximum
      omega
    · rw [if_neg hid, add_zero]
      exact ⟨hnonneg, hmax⟩

theorem holdingsOk_iff_of_shareRows (h : t'.shareRows = t.shareRows) :
    t'.HoldingsOk ↔ t.HoldingsOk := by
  obtain ⟨hproducts, hrest⟩ := Prod.mk.inj h
  obtain ⟨haccounts, htransactions⟩ := Prod.mk.inj hrest
  unfold Tables.HoldingsOk Tables.sharesHeld Tables.sumShares Tables.shareProduct?
  rw [hproducts, haccounts, htransactions]

end

/-! ## One step -/

theorem repaymentFrame_shareRows : RepaymentFrame (Keeps Tables.shareRows) where
  rows _ _ _ _ _ _ _ _ _ := rfl
  debits _ _ _ := rfl
  events _ _ _ _ _ _ := rfl

/-- Only the executor of redemptions writes shares. -/
theorem writes_shareRows {op : Operation} (hop : ∀ payload, op ≠ .redeemShares payload) :
    op.Writes (Keeps Tables.shareRows) := by
  cases op with
  | redeemShares payload => exact absurd rfl (hop payload)
  | withdraw payload => exact ⟨fun _ _ _ _ => rfl, fun _ _ _ => rfl⟩
  | writeOff payload => exact ⟨fun _ _ _ _ _ _ _ => rfl, fun _ _ _ _ _ _ => rfl⟩
  | restructureSchedule payload => exact ⟨fun _ _ _ _ _ _ => rfl, fun _ _ _ _ _ => rfl⟩
  | applyPayrollBatch payload => exact ⟨repaymentFrame_shareRows, fun _ _ _ => rfl⟩
  | changeStatus payload => exact ⟨fun _ _ _ _ => rfl, fun _ _ _ _ _ => rfl⟩
  | approveApplication payload => exact fun _ _ => rfl
  | _ => exact fun _ _ _ _ => rfl

theorem submitRedemption_data {env : Surroundings} {r : RedemptionIn}
    {db db' : ApprovalDb Tables Operation} {id : Uuid}
    (h : submitRedemption env r db = .ok id db') : db'.data = db.data := by
  simp only [submitRedemption] at h
  obtain ⟨⟨account, product⟩, data, hget, hrest⟩ := onData_bind_eq_ok.mp h
  obtain ⟨-, -, rfl⟩ := getShareAccount_ok hget
  simp only [get_bind_eq_ok] at hrest
  cases hfind : db.requests.find? (·.operation.redeemKey? = some r.idempotencyKey) with
  | some existing =>
    simp only [hfind, pure_eq_ok] at hrest
    rw [← hrest.2]
  | none =>
    simp only [hfind, require_bind_eq_ok] at hrest
    exact submit_data hrest.2

/-- The execution of a request with a redemption to come. -/
theorem executorOutcome_redeemed {env : Surroundings} {db : ApprovalDb Tables Operation}
    {r : ApprovalRequest Operation} {actor : Uuid} {t' : Tables} {status : RequestStatus}
    (hvote : db.MayVote r actor)
    (hquorum : r.requiredApprovals ≤ (db.vote r.id actor .approve).approvalCount r.id)
    (h : ExecutorOutcome (tenantHooks env) r db.data t' status) :
    t'.shareRows = db.data.shareRows ∨ ∃ accountId quantity key,
      db.redemption? r.id actor = some (accountId, quantity) ∧
      SharesMoved .redemption accountId quantity key db.data t' := by
  by_cases hop : ∃ payload, r.operation = .redeemShares payload
  · obtain ⟨payload, hop⟩ := hop
    rcases h with ⟨hown, -⟩ | ⟨-, t₁, hleft, hnotify⟩
    · simp only [tenantHooks, hop, Operation.ownCommit] at hown
      cases hown
    · obtain rfl := notifyDecided_ok hnotify
      simp only [ExecutorLeft, tenantHooks, hop, Operation.execute] at hleft
      rcases hleft with ⟨hok, -⟩ | ⟨e, hraised, -⟩
      · obtain ⟨accountId, quantity, key, haccount, hquantity, hkey, hmoved⟩ :=
          executeRedeemShares_ok hok
        refine .inr ⟨accountId, quantity, key, ?_, hmoved⟩
        have hunused : ∀ tx ∈ db.data.shareTransactions,
            some tx.idempotencyKey ≠ payload.idempotencyKey := by
          intro tx htx heq
          rw [hkey] at heq
          exact hmoved.unused tx htx (Option.some.inj heq)
        simp only [ApprovalDb.redemption?, hvote.found, hop]
        rw [if_pos ⟨hvote, hquorum, hunused⟩, haccount, hquantity]
        rfl
      · rw [raisesClean_executeRedeemShares payload _ _ _ hraised]
        exact .inl rfl
  · refine .inl (executorOutcome_writes (writes_shareRows ?_) h)
    intro payload heq
    exact hop ⟨payload, heq⟩

/-- A step writes no row, or the row of the purchase that it finishes, or the row of the redemption
that its approval is about to execute. -/
theorem ShareOp.step_moved (w : ShareWorld) (env : Surroundings) {op : ShareOp}
    (hop : ∀ data, op ≠ .approval (.elsewhere data)) :
    (ShareOp.step w (env, op)).db.data.shareRows = w.db.data.shareRows ∨
    (∃ p product, op = .finishPurchase p product ∧ (p, product) ∈ w.buying ∧
      SharesMoved .purchase p.shareAccountId p.quantity p.idempotencyKey w.db.data
        (ShareOp.step w (env, op)).db.data) ∨
    ∃ requestId actor accountId quantity key, op = .approval (.approve requestId actor) ∧
      w.db.redemption? requestId actor = some (accountId, quantity) ∧
      SharesMoved .redemption accountId quantity key w.db.data
        (ShareOp.step w (env, op)).db.data := by
  cases op with
  | startPurchase p =>
    refine .inl ?_
    show (ShareOp.step w (env, .startPurchase p)).db.data.shareRows = _
    unfold ShareOp.step
    dsimp only
    split <;> rfl
  | finishPurchase p product =>
    by_cases hbuying : (p, product) ∈ w.buying
    · have hdb : (ShareOp.step w (env, .finishPurchase p product)).db
          = commit (onData (writePurchase p product)) w.db := by
        simp only [ShareOp.step, if_pos hbuying]
      rw [hdb]
      rcases commit_cases (onData (writePurchase p product) : ApprovalCall Uuid) w.db with
        ⟨id, db', hok, heq⟩ | heq
      · obtain ⟨data, hwrite, rfl⟩ := onData_eq_ok.mp hok
        rw [heq]
        exact .inr (.inl ⟨p, product, rfl, hbuying, writePurchase_ok hwrite⟩)
      · rw [heq]
        exact .inl rfl
    · refine .inl ?_
      simp only [ShareOp.step, if_neg hbuying]
  | submitRedemption r =>
    exact .inl (congrArg Tables.shareRows (commit_data fun _ _ => submitRedemption_data))
  | approval op =>
    -- of the steps of the approval service, only the executor of a redemption writes a row
    rcases ApprovalOp.step_data env w.db fun data heq => hop data (congrArg ShareOp.approval heq)
      with hsame | ⟨r, actor, data, status, rfl, hvote, hquorum, houtcome, heq⟩
    · exact .inl (congrArg Tables.shareRows hsame)
    · show (ApprovalOp.step (tenantHooks env) w.db (.approve r.id actor)).data.shareRows = _ ∨ _
      rcases executorOutcome_redeemed hvote hquorum houtcome with hnone |
        ⟨accountId, quantity, key, hredemption, hmoved⟩
      · rw [heq]
        exact .inl hnone
      · refine .inr (.inr ⟨r.id, actor, accountId, quantity, key, rfl, hredemption, ?_⟩)
        show SharesMoved _ _ _ _ _ (ApprovalOp.step (tenantHooks env) w.db (.approve r.id actor)).data
        rw [heq]
        exact hmoved

/-- Where a row is written, the holdings stay in bounds exactly when the check would still pass. -/
theorem ShareOp.step_holdingsOk_iff (w : ShareWorld) (env : Surroundings) {op : ShareOp}
    (hop : ∀ data, op ≠ .approval (.elsewhere data)) (h : w.db.data.HoldingsOk)
    (hwritten : (ShareOp.step w (env, op)).db.data.shareRows ≠ w.db.data.shareRows) :
    (ShareOp.step w (env, op)).db.data.HoldingsOk ↔ ShareOp.Covered w (env, op) := by
  rcases ShareOp.step_moved w env hop with hsame | ⟨p, product, rfl, hbuying, hmoved⟩ |
    ⟨requestId, actor, accountId, quantity, key, rfl, hredemption, hmoved⟩
  · exact absurd hsame hwritten
  · rw [hmoved.purchase_iff h]
    exact ⟨fun hallows _ _ => hallows, fun hcovered => hcovered hbuying hmoved.unused⟩
  · rw [hmoved.redemption_iff h]
    simp only [ShareOp.Covered, hredemption, Option.mem_some_iff, forall_eq']

theorem ShareOp.step_holdingsOk (w : ShareWorld) (op : Surroundings × ShareOp)
    (h : w.db.data.HoldingsOk) (hcovered : ShareOp.Covered w op) :
    (ShareOp.step w op).db.data.HoldingsOk := by
  obtain ⟨env, op⟩ := op
  by_cases hop : ∃ data, op = .approval (.elsewhere data)
  · obtain ⟨data, rfl⟩ := hop
    exact (holdingsOk_iff_of_shareRows hcovered).mpr h
  · have hop' : ∀ data, op ≠ .approval (.elsewhere data) := fun data heq => hop ⟨data, heq⟩
    by_cases hwritten : (ShareOp.step w (env, op)).db.data.shareRows = w.db.data.shareRows
    · exact (holdingsOk_iff_of_shareRows hwritten).mpr h
    · exact (ShareOp.step_holdingsOk_iff w env hop' h hwritten).mpr hcovered

/-! ## Runs -/

/-- In every run in which each check would still pass where the row is written, no account ever
holds less than nothing or more than the maximum of its product; and a row that is written where
the check would fail takes the holdings out of these bounds. -/
theorem holdings_in_bounds (w : ShareWorld) :
    (∀ ops : List (Surroundings × ShareOp), w.db.data.HoldingsOk →
      Along ShareOp.step ShareOp.Covered w ops → (run ShareOp.step w ops).db.data.HoldingsOk) ∧
    ∀ (env : Surroundings) (op : ShareOp), w.db.data.HoldingsOk →
      (∀ data, op ≠ .approval (.elsewhere data)) →
      (ShareOp.step w (env, op)).db.data.shareRows ≠ w.db.data.shareRows →
      ((ShareOp.step w (env, op)).db.data.HoldingsOk ↔ ShareOp.Covered w (env, op)) := by
  constructor
  · intro ops h hops
    exact @run_invariant _ _ _ _ (fun w : ShareWorld => w.db.data.HoldingsOk)
      (fun w op h hcovered => ShareOp.step_holdingsOk w op h hcovered) _ _ h hops
  · intro env op h hop hwritten
    exact ShareOp.step_holdingsOk_iff w env hop h hwritten

/-- A tenant with cash `1000` and share capital `3000`, a product of at most ten shares of 100, and
one share account. -/
def shareTenant : ShareWorld :=
  ⟨⟨{ Tables.empty with
    nextId := 5
    accounts := [⟨1, "1000"⟩, ⟨2, "3000"⟩]
    shareProducts := [⟨3, money 100, 1, some 10, 2, true⟩]
    shareAccounts := [⟨4, 9, 3⟩] }, 0, [], [], []⟩, []⟩

/-- The two halves of a purchase. -/
def purchaseSteps (quantity : ℤ) (key : String) : ShareOp × ShareOp :=
  (.startPurchase ⟨4, quantity, 1, 7, key⟩,
    .finishPurchase ⟨4, quantity, 1, 7, key⟩ ⟨3, money 100, 1, some 10, 2, true⟩)

/-- Five shares are bought, and two redemptions of all five are submitted. -/
def twoRedemptions : List (Surroundings × ShareOp) :=
  [(purchaseSteps 5 "p").1, (purchaseSteps 5 "p").2, .submitRedemption ⟨4, 5, 1, 7, "a"⟩,
    .submitRedemption ⟨4, 5, 1, 7, "b"⟩].map (sampleSurroundings, ·)

/-- The approval of a redemption by user 8. -/
def redeemedBy8 (requestId : Uuid) : Surroundings × ShareOp :=
  (sampleSurroundings, .approval (.approve requestId 8))

/-- The first redemption can be executed. -/
theorem holdings_in_bounds_first :
    (run ShareOp.step shareTenant twoRedemptions).db.data.sharesHeld 4 = 5 ∧
    (run ShareOp.step shareTenant (twoRedemptions ++ [redeemedBy8 0])).db.data.sharesHeld 4 = 0 ∧
    (run ShareOp.step shareTenant (twoRedemptions ++ [redeemedBy8 0])).db.data.HoldingsOk := by
  refine ⟨by decide +kernel, by decide +kernel, ?_⟩
  exact (holdings_in_bounds shareTenant).1 _ (by decide +kernel) (by decide +kernel)

/-- The shares were held when the second redemption was submitted, and are gone when it is
approved; and two purchases that both read before either writes exceed the maximum. -/
theorem holdings_out_of_bounds :
    (run ShareOp.step shareTenant
      (twoRedemptions ++ [redeemedBy8 0, redeemedBy8 1])).db.data.sharesHeld 4 = -5 ∧
    ¬ (run ShareOp.step shareTenant
      (twoRedemptions ++ [redeemedBy8 0, redeemedBy8 1])).db.data.HoldingsOk ∧
    (run ShareOp.step shareTenant ([(purchaseSteps 10 "p").1, (purchaseSteps 10 "q").1,
      (purchaseSteps 10 "p").2, (purchaseSteps 10 "q").2].map
        (sampleSurroundings, ·))).db.data.sharesHeld 4 = 20 := by
  refine ⟨?_, ?_, ?_⟩
  · decide +kernel
  · decide +kernel
  · decide +kernel

end SaccoPlatform
