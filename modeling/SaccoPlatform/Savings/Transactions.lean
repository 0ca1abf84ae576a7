import SaccoPlatform.Database

/-!
# Savings statement rows

The rows of `savings_transactions` that other modules write through `SavingsService`
(`app/modules/savings/service.py`).
-/

namespace SaccoPlatform

open Lib Session

def Tables.savingsAccount? (t : Tables) (id : Uuid) : Option SavingsAccount :=
  t.savingsAccounts.find? (·.id = id)

/-- Insert a row of `savings_transactions`. -/
def insertSavingsTransaction (savingsAccountId : Uuid) (type : SavingsTransactionType)
    (amount : ℚ) (journalEntryId : Uuid) (idempotencyKey : String) : Call Uuid := do
  let amount ← writeMoney amount
  constraint (0 < amount.val) (.integrityError "ck_savtx_amount_positive")
  let t ← get
  constraint (∀ tx ∈ t.savingsTransactions, tx.idempotencyKey ≠ idempotencyKey)
    (.integrityError "uq_savtx_idempotency_key")
  let id ← freshId
  modify fun t => { t with
    savingsTransactions := t.savingsTransactions ++
      [⟨id, savingsAccountId, type, amount, journalEntryId, idempotencyKey⟩] }
  pure id

theorem insertSavingsTransaction_ok {accountId entryId id : Uuid} {type : SavingsTransactionType}
    {amount : ℚ} {key : String} {t t' : Tables}
    (h : insertSavingsTransaction accountId type amount entryId key t = .ok id t') :
    (∀ tx ∈ t.savingsTransactions, tx.idempotencyKey ≠ key) ∧
    ∃ stored : Money, stored.val = roundAt 4 amount ∧ 0 < stored.val ∧ t' = { t with
      nextId := t.nextId + 1
      savingsTransactions := t.savingsTransactions ++
        [⟨t.nextId, accountId, type, stored, entryId, key⟩] } := by
  simp only [insertSavingsTransaction, writeMoney_bind_eq_ok, constraint_bind_eq_ok, get_bind_eq_ok,
    freshId_bind_eq_ok, modify_bind_eq_ok, pure_eq_ok] at h
  obtain ⟨stored, hstored, hpos, hkey, -, rfl⟩ := h
  exact ⟨hkey, stored, Numeric.val_of_ofRat? hstored, hpos, rfl⟩

/-- `SavingsService.record_external_debit`. -/
def recordExternalDebit (savingsAccountId : Uuid) (amount : ℚ) (journalEntryId : Uuid)
    (idempotencyKey : String) : Call Uuid := do
  let t ← get
  match t.savingsTransactions.find? fun tx =>
      tx.idempotencyKey = idempotencyKey ∧ tx.savingsAccountId = savingsAccountId with
  | some existing => pure existing.id
  | none =>
    let _ ← orRaise (t.savingsAccount? savingsAccountId)
      (.valueError s!"Savings account '{savingsAccountId}' not found")
    insertSavingsTransaction savingsAccountId .externalDebit amount journalEntryId idempotencyKey

end SaccoPlatform
