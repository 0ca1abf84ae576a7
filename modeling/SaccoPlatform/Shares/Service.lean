import SaccoPlatform.Savings.Service

/-!
# Shares

`ShareService` (`app/modules/shares/service.py`) and the executor of approved redemptions
(`app/modules/shares/executors.py`). The shares held are the purchases minus the redemptions.
-/

namespace SaccoPlatform

open Lib Session

def Tables.shareAccount? (t : Tables) (id : Uuid) : Option MemberShareAccount :=
  t.shareAccounts.find? (·.id = id)

def Tables.shareProduct? (t : Tables) (id : Uuid) : Option ShareProduct :=
  t.shareProducts.find? (·.id = id)

/-- `SUM(quantity)` of the account's transactions of the given type. -/
def Tables.sumShares (t : Tables) (accountId : Uuid) (type : ShareTransactionType) : ℤ :=
  ((t.shareTransactions.filter fun tx =>
    tx.shareAccountId = accountId ∧ tx.transactionType = type).map (·.quantity)).sum

/-- The shares held of `ShareService.get_balance`. -/
def Tables.sharesHeld (t : Tables) (accountId : Uuid) : ℤ :=
  t.sumShares accountId .purchase - t.sumShares accountId .redemption

/-- `get_account` and the product of the account. -/
def getShareAccount (accountId : Uuid) : Call (MemberShareAccount × ShareProduct) := do
  let t ← get
  let account ← orRaise (t.shareAccount? accountId)
    (.valueError s!"Share account '{accountId}' not found")
  let product ← orRaise (t.shareProduct? account.shareProductId)
    (.valueError s!"Share product '{account.shareProductId}' not found")
  pure (account, product)

/-- Insert a row of `share_transactions`. -/
def insertShareTransaction (shareAccountId : Uuid) (type : ShareTransactionType) (quantity : ℤ)
    (amount : ℚ) (journalEntryId : Uuid) (idempotencyKey : String) : Call Uuid := do
  let t ← get
  constraint (∃ a ∈ t.shareAccounts, a.id = shareAccountId) (.integrityError "fk_st_share_account")
  constraint (∀ tx ∈ t.shareTransactions, tx.idempotencyKey ≠ idempotencyKey)
    (.integrityError "uq_st_idempotency_key")
  let quantity ← writeInteger quantity
  constraint (0 < quantity) (.integrityError "ck_st_quantity_positive")
  let amount ← writeMoney amount
  constraint (0 < amount.val) (.integrityError "ck_st_amount_positive")
  let id ← freshId
  modify fun t => { t with
    shareTransactions := t.shareTransactions ++
      [⟨id, shareAccountId, type, quantity, amount, journalEntryId, idempotencyKey⟩] }
  pure id

/-- The arguments of `purchase_shares`. -/
structure PurchaseIn where
  shareAccountId : Uuid
  quantity : ℤ
  paymentAccountId : Uuid
  postedBy : Uuid
  idempotencyKey : String
deriving DecidableEq, Repr

/-- The reads of `purchase_shares`: the transaction that has the key already, or the product under
which the shares are bought. -/
def checkPurchase (p : PurchaseIn) : Call (Uuid ⊕ ShareProduct) := do
  let t ← get
  match t.shareTransactions.find? (·.idempotencyKey = p.idempotencyKey) with
  | some existing => pure (.inl existing.id)
  | none =>
    let (_, product) ← getShareAccount p.shareAccountId
    require (product.isActive = true) (.valueError "Share product is not active")
    require (product.minimumShares ≤ p.quantity)
      (.valueError s!"quantity must be >= minimum_shares ({product.minimumShares})")
    require (∀ maximum ∈ product.maximumShares,
        t.sharesHeld p.shareAccountId + p.quantity ≤ maximum)
      (.valueError (s!"Purchase would exceed maximum_shares ({product.maximumShares}); " ++
        s!"currently holding {t.sharesHeld p.shareAccountId}"))
    pure (.inr product)

/-- The writes of `purchase_shares`. -/
def writePurchase (p : PurchaseIn) (product : ShareProduct) : Call Uuid := do
  let amount := p.quantity * product.parValue.val
  let entryId ← postJournalEntry s!"SHARES-{p.shareAccountId}"
    s!"Share purchase: {p.quantity} shares @ {product.parValue.val} each" p.postedBy
    ("share-purchase-" ++ p.idempotencyKey)
    (transferLines p.paymentAccountId product.shareCapitalAccountId amount)
  insertShareTransaction p.shareAccountId .purchase p.quantity amount entryId p.idempotencyKey

/-- `ShareService.purchase_shares`; returns the transaction. -/
def purchaseShares (p : PurchaseIn) : Call Uuid := do
  match ← checkPurchase p with
  | .inl existing => pure existing
  | .inr product => writePurchase p product

/-- The payload of a `shares.redeem_shares` request. `none` is a key that is missing or does
not parse. -/
structure RedeemPayload where
  shareAccountId : Option Uuid
  quantity : Option ℤ
  amount : Option ℚ
  paymentAccountId : Option Uuid
  shareCapitalAccountId : Option Uuid
  postedBy : Option Uuid
  idempotencyKey : Option String
deriving DecidableEq, Repr

/-- `execute_redeem_shares`, the executor of an approved redemption. -/
def executeRedeemShares (payload : RedeemPayload) : Call Unit := do
  let shareAccountId ← orRaise payload.shareAccountId (.keyError "share_account_id")
  let quantity ← orRaise payload.quantity (.keyError "quantity")
  let amount ← orRaise payload.amount (.keyError "amount")
  let paymentAccountId ← orRaise payload.paymentAccountId (.keyError "payment_account_id")
  let shareCapitalAccountId ← orRaise payload.shareCapitalAccountId
    (.keyError "share_capital_account_id")
  let postedBy ← orRaise payload.postedBy (.keyError "posted_by")
  let idempotencyKey ← orRaise payload.idempotencyKey (.keyError "idempotency_key")
  let entryId ← postJournalEntry s!"SHARES-REDEEM-{shareAccountId}"
    s!"Share redemption: {quantity} shares" postedBy ("share-redeem-" ++ idempotencyKey)
    (transferLines shareCapitalAccountId paymentAccountId amount)
  let _ ← insertShareTransaction shareAccountId .redemption quantity amount entryId
    idempotencyKey

/-! ## What the rows do to the holdings -/

/-- What a row adds to the shares held. -/
def ShareTransaction.signed (tx : ShareTransaction) : ℤ :=
  match tx.transactionType with
  | .purchase => tx.quantity
  | .redemption => - tx.quantity

/-- A row more adds its signed quantity to the shares of its account. -/
theorem sharesHeld_append {t t' : Tables} {tx : ShareTransaction}
    (h : t'.shareTransactions = t.shareTransactions ++ [tx]) (accountId : Uuid) :
    t'.sharesHeld accountId
      = t.sharesHeld accountId + if tx.shareAccountId = accountId then tx.signed else 0 := by
  unfold Tables.sharesHeld Tables.sumShares ShareTransaction.signed
  rw [h]
  simp only [List.filter_append, List.map_append, List.sum_append]
  by_cases haccount : tx.shareAccountId = accountId
  · cases htype : tx.transactionType <;> simp [haccount, htype] <;> omega
  · simp [haccount]

/-- One row was written for the account. -/
structure SharesMoved (type : ShareTransactionType) (accountId : Uuid) (quantity : ℤ) (key : String)
    (t t' : Tables) : Prop where
  unused : ∀ tx ∈ t.shareTransactions, tx.idempotencyKey ≠ key
  account : ∃ a ∈ t.shareAccounts, a.id = accountId
  positive : 0 < quantity
  row : ∃ tx : ShareTransaction, tx.shareAccountId = accountId ∧ tx.transactionType = type ∧
    tx.quantity = quantity ∧ tx.idempotencyKey = key ∧
    t'.shareTransactions = t.shareTransactions ++ [tx]
  accounts : t'.shareAccounts = t.shareAccounts
  products : t'.shareProducts = t.shareProducts

theorem insertShareTransaction_ok {accountId entryId id : Uuid} {type : ShareTransactionType}
    {quantity : ℤ} {amount : ℚ} {key : String} {t t' : Tables}
    (h : insertShareTransaction accountId type quantity amount entryId key t = .ok id t') :
    SharesMoved type accountId quantity key t t' := by
  simp only [insertShareTransaction, get_bind_eq_ok, constraint_bind_eq_ok, writeInteger_bind_eq_ok,
    writeMoney_bind_eq_ok, freshId_bind_eq_ok, modify_bind_eq_ok, pure_eq_ok] at h
  obtain ⟨haccount, hkey, -, hpos, _, -, -, -, rfl⟩ := h
  exact ⟨hkey, haccount, hpos, ⟨_, rfl, rfl, rfl, rfl, rfl⟩, rfl, rfl⟩

/-- Post, then write the row. -/
theorem sharesMoved_of_ok {reference description entryKey key : String} {postedBy entryId id : Uuid}
    {lines : List LineIn} {accountId : Uuid} {type : ShareTransactionType} {quantity : ℤ}
    {amount : ℚ} {t t₁ t' : Tables}
    (hpost : postJournalEntry reference description postedBy entryKey lines t = .ok entryId t₁)
    (hinsert : insertShareTransaction accountId type quantity amount entryId key t₁ = .ok id t') :
    SharesMoved type accountId quantity key t t' := by
  have hmoved := insertShareTransaction_ok hinsert
  rcases postJournalEntry_ok hpost with ⟨rfl, -⟩ | hposted
  · exact hmoved
  · obtain ⟨e, -, -, rfl⟩ := hposted.entry
    exact ⟨hmoved.unused, hmoved.account, hmoved.positive, hmoved.row, hmoved.accounts,
      hmoved.products⟩

theorem writePurchase_ok {p : PurchaseIn} {product : ShareProduct} {t t' : Tables} {id : Uuid}
    (h : writePurchase p product t = .ok id t') :
    SharesMoved .purchase p.shareAccountId p.quantity p.idempotencyKey t t' := by
  obtain ⟨entryId, t₁, hpost, hinsert⟩ := bind_eq_ok.mp h
  exact sharesMoved_of_ok hpost hinsert

theorem getShareAccount_ok {accountId : Uuid} {t t' : Tables}
    {found : MemberShareAccount × ShareProduct} (h : getShareAccount accountId t = .ok found t') :
    t.shareAccount? accountId = some found.1 ∧
      t.shareProduct? found.1.shareProductId = some found.2 ∧ t' = t := by
  simp only [getShareAccount, get_bind_eq_ok, orRaise_bind_eq_ok, pure_eq_ok] at h
  obtain ⟨account, haccount, product, hproduct, rfl, rfl⟩ := h
  exact ⟨haccount, hproduct, rfl⟩

/-- A check that passes leaves the tables alone. -/
theorem checkPurchase_ok {p : PurchaseIn} {t t' : Tables} {found : Uuid ⊕ ShareProduct}
    (h : checkPurchase p t = .ok found t') : t' = t := by
  simp only [checkPurchase, get_bind_eq_ok] at h
  cases hfind : t.shareTransactions.find? (·.idempotencyKey = p.idempotencyKey) with
  | some existing =>
    simp only [hfind, pure_eq_ok] at h
    exact h.2.symm
  | none =>
    simp only [hfind] at h
    obtain ⟨⟨account, product⟩, t₁, hget, hrest⟩ := bind_eq_ok.mp h
    obtain ⟨-, -, rfl⟩ := getShareAccount_ok hget
    simp only [require_bind_eq_ok, pure_eq_ok] at hrest
    exact hrest.2.2.2.2.symm

/-- The executor of a redemption writes its row. -/
theorem executeRedeemShares_ok {payload : RedeemPayload} {t t' : Tables} {u : Unit}
    (h : executeRedeemShares payload t = .ok u t') :
    ∃ accountId quantity key, payload.shareAccountId = some accountId ∧
      payload.quantity = some quantity ∧ payload.idempotencyKey = some key ∧
      SharesMoved .redemption accountId quantity key t t' := by
  simp only [executeRedeemShares, orRaise_bind_eq_ok] at h
  obtain ⟨accountId, haccount, quantity, hquantity, amount, -, paymentId, -, capitalId, -,
    postedBy, -, key, hkey, h⟩ := h
  obtain ⟨entryId, t₁, hpost, h⟩ := bind_eq_ok.mp h
  obtain ⟨id, t₂, hinsert, h⟩ := bind_eq_ok.mp h
  obtain ⟨-, rfl⟩ := pure_eq_ok.mp h
  exact ⟨accountId, quantity, key, haccount, hquantity, hkey, sharesMoved_of_ok hpost hinsert⟩

end SaccoPlatform
