import SaccoPlatform.Credit.Beat
import SaccoPlatform.Credit.Consumer
import SaccoPlatform.Credit.Restructuring
import SaccoPlatform.Lib.Tables
import Mathlib.Logic.Relation

/-!
# Movements of a loan account

What the services of the credit module can do to a loan, seen from its books: a movement
sets new balances and a new status from the row it read, and hands lines to the ledger. Every
operation of the module is a sequence of such moves (`Credit.Operations`), and the invariants
of loans are proved once per movement.
-/

namespace SaccoPlatform

open Lib Session

/-- One change of the books of a loan. -/
inductive Movement where
  | repay (paymentAccountId : Uuid) (amount : ℚ)
  | writeOff (loanLossId : Uuid) (amount : ℚ)
  | recover (loanLossId : Uuid) (amount : ℚ)
  | accrue (interest : ℚ)
  | mark (status : LoanStatus)
  | assess (amount : ℚ)
  | collect (amount : ℚ)
  | reschedule
deriving DecidableEq, Repr

namespace Movement

/-- The balances the movement leaves. -/
def balances (l : Loan) : Movement → Balances
  | repay _ amount => l.balances.repay (allocate amount l.balances)
  | writeOff _ amount => l.balances.writeOff amount
  | recover _ amount => l.balances.recover amount
  | accrue interest => l.balances.accrue interest
  | mark _ => l.balances
  | assess amount => l.balances.assess amount
  | collect amount => l.balances.collect amount
  | reschedule => l.balances

/-- The status the movement leaves. -/
def status (l : Loan) : Movement → LoanStatus
  | repay _ amount => l.statusAfter (allocate amount l.balances)
  | writeOff _ amount => l.statusAfterWriteOff amount
  | recover _ _ => .inArrears
  | mark status => status
  | _ => l.status

/-- The entries the movement posts, under `key`. -/
def entries (l : Loan) (key : String) : Movement → List EntryIn
  | repay account amount => [⟨key, repaymentLines l account (allocate amount l.balances)⟩]
  | writeOff loanLossId amount => [⟨key, writeOffLines l loanLossId amount⟩]
  | recover loanLossId amount => [⟨key, recoveryLines l loanLossId amount⟩]
  | accrue interest => [⟨key, interestLines l interest⟩]
  | _ => []

/-- What the movement makes of the guarantees. -/
def guarantees (ar : LienArithmetic) (l : Loan) (gs : Guarantees) : Movement → Guarantees
  | repay _ amount => gs.repay ar l (allocate amount l.balances)
  | writeOff _ _ => gs.releaseLiens l.id
  | recover _ amount => gs.reactivateLiens ar l.id amount
  | _ => gs

/-- The account on the other side of the loan's own. -/
def counterAccount : Movement → Option Uuid
  | repay account _ => some account
  | writeOff loanLossId _ => some loanLossId
  | recover loanLossId _ => some loanLossId
  | _ => none

/-- What the code checks before it makes the movement. -/
def Enabled (l : Loan) : Movement → Prop
  | repay _ amount => l.Active ∧ 0 < roundAt 4 amount
  | recover _ amount => l.status = .writtenOff ∧ 0 < amount ∧ amount ≤ l.totalWrittenOff.val
  | accrue interest => l.Active ∧ interest ∈ grid 4 ∧ 0 < interest
  | mark status => (l.status = .disbursed ∧ status = .inArrears) ∨
      (l.status = .inArrears ∧ status = .disbursed)
  | _ => True

end Movement

theorem Movement.status_ne_disbursing {l : Loan} {m : Movement} (henabled : m.Enabled l)
    (hl : l.status ≠ .disbursing) : m.status l ≠ .disbursing := by
  cases m with
  | repay account amount =>
    show l.statusAfter _ ≠ .disbursing
    unfold Loan.statusAfter
    split_ifs
    · decide
    · exact hl
  | writeOff loanLossId amount =>
    show l.statusAfterWriteOff _ ≠ .disbursing
    unfold Loan.statusAfterWriteOff
    split_ifs
    · decide
    · exact hl
  | recover loanLossId amount => exact nofun
  | mark status =>
    show status ≠ .disbursing
    rcases henabled with ⟨-, h⟩ | ⟨-, h⟩ <;> rw [h] <;> decide
  | accrue interest => exact hl
  | assess amount => exact hl
  | collect amount => exact hl
  | reschedule => exact hl

/-- The movement that a fee event asks for, and the loan it names. -/
def EventBody.movement? : EventBody → Option (Uuid × Movement)
  | .feeAssessmentCreated payload =>
    if payload.targetType = some "loan" then
      payload.targetId.bind fun id => payload.amount.map fun amount => (id, .assess amount)
    else none
  | .feeCollectionCreated payload =>
    if payload.targetType = some "loan" then
      payload.targetId.bind fun id => payload.amount.map fun amount => (id, .collect amount)
    else none
  | _ => none

/-- Fee events ask for assessments and collections only. -/
theorem EventBody.movement?_eq_some {body : EventBody} {id : Uuid} {m : Movement}
    (h : body.movement? = some (id, m)) : ∃ amount, m = .assess amount ∨ m = .collect amount := by
  unfold EventBody.movement? at h
  split at h
  · split_ifs at h
    obtain ⟨i, -, h⟩ := Option.bind_eq_some_iff.mp h
    obtain ⟨amount, -, heq⟩ := Option.map_eq_some_iff.mp h
    cases heq
    exact ⟨amount, .inl rfl⟩
  · split_ifs at h
    obtain ⟨i, -, h⟩ := Option.bind_eq_some_iff.mp h
    obtain ⟨amount, -, heq⟩ := Option.map_eq_some_iff.mp h
    cases heq
    exact ⟨amount, .inr rfl⟩
  · cases h

/-! ## Keys in use -/

/-- The operation that posts entries of this kind under the key `k` left its own row. -/
def Tables.Issued (t : Tables) (k : String) : EntryKind → Prop
  | .repayment => ∃ rp ∈ t.repayments, rp.idempotencyKey = k
  | .disbursement => ∃ l ∈ t.loans, l.idempotencyKey = k
  | .interestBooking => ∃ l ∈ t.loans, l.idempotencyKey = k
  | _ => True

/-- Every entry of these keys belongs to an operation that was issued. -/
def AllIssued (ps : List EntryIn) (t : Tables) : Prop :=
  ∀ p ∈ ps, ∀ kind k, p.key = creditKey kind k → t.Issued k kind

/-- A loan as disbursement leaves it. -/
structure Opened (l : Loan) : Prop where
  status : l.status = .disbursed
  principal_pos : 0 < l.principalAmount.val
  balances : l.balances = ⟨l.principalAmount.val, 0, 0, 0, 0, 0, 0⟩

/-- The liens of a disbursed loan are placed on the guarantees as they were. -/
structure LiensPlaced (ar : LienArithmetic) (l : Loan) (t t' : Tables) : Prop where
  fresh : ∀ r ∈ t.loans, r.loanApplicationId ≠ l.loanApplicationId
  placed : ∃ t₁ t₂, t.nextId ≤ t₁.nextId ∧ t₁.guarantees = t.guarantees ∧
    placeLiens ar l.id l.loanApplicationId l.principalAmount.val t₁ = .ok () t₂ ∧
    t'.guarantees = t₂.guarantees ∧ t₂.nextId ≤ t'.nextId

/-- One move of the books. `P` bounds the movements that may occur, `D` the loans that may
be disbursed, with their disbursement account and the interest booked at once. -/
inductive Move (ar : LienArithmetic) (P : Loan → Movement → Prop) (D : Loan → Uuid → ℚ → Prop)
    (t t' : Tables) : Prop
  | change (l row : Loan) (m : Movement) (key : String)
      (found : t.loan? l.id = some l) (allowed : P l m) (enabled : m.Enabled l)
      (saved : Saved l (m.balances l) (m.status l) row)
      (nextId : t.nextId ≤ t'.nextId)
      (loans : t'.loans = (t.putLoan row).loans)
      (entries : Appends (m.entries l key) t t')
      (issued : AllIssued (m.entries l key) t')
      (repayments : t.repayments ⊆ t'.repayments)
      (guarantees : t'.guarantees = m.guarantees ar l t.guarantees)
  | opened (l : Loan) (account : Uuid) (booked : ℚ)
      (allowed : D l account booked) (opened : Opened l)
      (id : l.id = t.nextId) (nextId : t.nextId < t'.nextId)
      (loans : t'.loans = t.loans ++ [l])
      (entries : Appends (openingEntries l account booked) t t')
      (repayments : t'.repayments = t.repayments)
      (liens : LiensPlaced ar l t t')
  | foreign (e : JournalEntry) (key : ¬ IsCreditKey e.idempotencyKey)
      (untagged : ∀ line ∈ e.lines, line.subLedgerType = none)
      (nextId : t.nextId ≤ t'.nextId) (loans : t'.loans = t.loans)
      (entries : t'.entries = t.entries ++ [e]) (repayments : t'.repayments = t.repayments)
      (guarantees : t'.guarantees = t.guarantees)
  | same (nextId : t.nextId ≤ t'.nextId) (loans : t'.loans = t.loans)
      (entries : t'.entries = t.entries) (repayments : t'.repayments = t.repayments)
      (guarantees : t'.guarantees = t.guarantees)

/-- Any number of moves. -/
abbrev MovesBooks (ar : LienArithmetic) (P : Loan → Movement → Prop)
    (D : Loan → Uuid → ℚ → Prop) : Tables → Tables → Prop :=
  Relation.ReflTransGen (Move ar P D)

variable {ar : LienArithmetic} {P : Loan → Movement → Prop} {D : Loan → Uuid → ℚ → Prop}

theorem SameCredit.move {t t' : Tables} (h : SameCredit t t') : Move ar P D t t' :=
  .same h.nextId h.loans h.entries h.repayments h.guarantees

/-! ## What every move preserves -/

/-- Loan ids are distinct, the ids in use were drawn, and every entry under a key of the
module was issued. -/
structure BooksOk (t : Tables) : Prop where
  unique : (t.loans.map (·.id)).Nodup
  ids : ∀ l ∈ t.loans, l.id < t.nextId
  tags : ∀ e ∈ t.entries, ∀ line ∈ e.lines, line.subLedgerType = some "loan" →
    ∀ i, line.subLedgerId = some i → i < t.nextId
  issued : ∀ e ∈ t.entries, ∀ kind k, e.idempotencyKey = creditKey kind k → t.Issued k kind

theorem repaymentLines_tagged (l : Loan) (account : Uuid) (a : Allocation) :
    ∀ line ∈ repaymentLines l account a, line.TaggedWith l.id := by
  unfold repaymentLines
  split_ifs <;> simp

theorem Movement.entries_tagged (l : Loan) (key : String) (m : Movement) :
    ∀ p ∈ m.entries l key, ∀ line ∈ p.lines, line.TaggedWith l.id := by
  cases m <;> simp only [Movement.entries, List.forall_mem_singleton]
  case repay account amount => exact repaymentLines_tagged l account _
  all_goals simp [writeOffLines, recoveryLines, interestLines]

theorem openingEntries_tagged (l : Loan) (account : Uuid) (booked : ℚ) :
    ∀ p ∈ openingEntries l account booked, ∀ line ∈ p.lines, line.TaggedWith l.id := by
  unfold openingEntries
  split_ifs <;> simp [disbursementLines, interestLines]

/-- Appended entries keep the keys and the tags they were handed in with. -/
theorem Appends.mem_entries {ps : List EntryIn} {t t' : Tables} (h : Appends ps t t')
    {e : JournalEntry} (he : e ∈ t'.entries) :
    e ∈ t.entries ∨ ∃ p ∈ ps, e.idempotencyKey = p.key ∧
      ∀ loanId, (∀ line ∈ p.lines, line.TaggedWith loanId) →
        ∀ line ∈ e.lines, line.subLedgerId = some loanId := by
  obtain ⟨es, hes, heq⟩ := h
  rw [heq, List.mem_append] at he
  refine he.imp id ?_
  intro hnew
  obtain ⟨p, hp, hst⟩ := forall₂_exists_left hes hnew
  refine ⟨p, hp, hst.key, ?_⟩
  intro loanId htag line hline
  obtain ⟨l, hl, hstored⟩ := forall₂_exists_left hst.lines hline
  rw [hstored.subLedgerId]
  exact (htag l hl).2

/-- Writing a row back keeps the ids of the table. -/
theorem map_id_putLoan (t : Tables) (row : Loan) :
    (t.putLoan row).loans.map (·.id) = t.loans.map (·.id) := by
  simp only [Tables.putLoan, List.map_map]
  apply List.map_congr_left
  intro r _
  by_cases h : r.id = row.id
  · simp [h]
  · simp [h]

theorem BooksOk.loan_unique {t : Tables} (h : BooksOk t) {l r : Loan} (hl : l ∈ t.loans)
    (hr : r ∈ t.loans) (hid : r.id = l.id) : r = l :=
  List.inj_on_of_nodup_map h.unique hr hl hid

/-- An id that was never drawn has no balance. -/
theorem BooksOk.subLedgerNet_fresh {t : Tables} (h : BooksOk t) {i : Uuid} (hi : t.nextId ≤ i)
    (a : Uuid) : t.subLedgerNet i a = 0 := by
  apply List.sum_eq_zero
  intro q hq
  obtain ⟨e, he, rfl⟩ := List.mem_map.mp hq
  apply List.sum_eq_zero
  intro q hq
  obtain ⟨line, hline, rfl⟩ := List.mem_map.mp hq
  apply if_neg
  intro hon
  have hlt := h.tags e he line hline hon.1 i hon.2.1
  exact absurd hlt (not_lt.mpr hi)

/-- A loan keeps its idempotency key when the row is written back. -/
theorem BooksOk.key_putLoan {t : Tables} (h : BooksOk t) {l row : Loan} {k : String}
    (hl : l ∈ t.loans) (hrow : SameTerms l row) (hk : ∃ r ∈ t.loans, r.idempotencyKey = k) :
    ∃ r ∈ (t.putLoan row).loans, r.idempotencyKey = k := by
  obtain ⟨r, hr, hkr⟩ := hk
  by_cases hid : r.id = row.id
  · have hrl : r = l := h.loan_unique hl hr (hid.trans hrow.id)
    refine ⟨row, List.mem_map.mpr ⟨r, hr, if_pos hid⟩, ?_⟩
    rw [hrow.idempotencyKey, ← hrl, hkr]
  · exact ⟨r, List.mem_map.mpr ⟨r, hr, if_neg hid⟩, hkr⟩

/-- What was issued stays issued. -/
theorem Tables.Issued.mono {t t' : Tables} {kind : EntryKind} {k : String}
    (h : t.Issued k kind) (hr : t.repayments ⊆ t'.repayments)
    (hl : (∃ r ∈ t.loans, r.idempotencyKey = k) → ∃ r ∈ t'.loans, r.idempotencyKey = k) :
    t'.Issued k kind := by
  cases kind with
  | repayment =>
    obtain ⟨rp, hrp, hk⟩ := h
    exact ⟨rp, hr hrp, hk⟩
  | disbursement => exact hl h
  | interestBooking => exact hl h
  | writeOff => trivial
  | recovery => trivial
  | accrual => trivial

theorem BooksOk.change {t t' : Tables} (h : BooksOk t) {l row : Loan} {ps : List EntryIn}
    (hl : l ∈ t.loans) (hrow : SameTerms l row) (hnext : t.nextId ≤ t'.nextId)
    (hloans : t'.loans = (t.putLoan row).loans) (hentries : Appends ps t t')
    (htags : ∀ p ∈ ps, ∀ line ∈ p.lines, line.TaggedWith l.id) (hissued : AllIssued ps t')
    (hreps : t.repayments ⊆ t'.repayments) : BooksOk t' where
  unique := by
    rw [hloans, map_id_putLoan]
    exact h.unique
  ids := by
    intro r hr
    rw [hloans] at hr
    rcases mem_putLoan hr with rfl | ⟨hr, -⟩
    · rw [hrow.id]
      exact (h.ids l hl).trans_le hnext
    · exact (h.ids r hr).trans_le hnext
  tags := by
    intro e he line hline htype i hi
    rcases hentries.mem_entries he with he | ⟨p, hp, -, htag⟩
    · exact (h.tags e he line hline htype i hi).trans_le hnext
    · have hid := htag l.id (htags p hp) line hline
      rw [hid] at hi
      cases hi
      exact (h.ids l hl).trans_le hnext
  issued := by
    intro e he kind k hk
    rcases hentries.mem_entries he with he | ⟨p, hp, hkey, -⟩
    · apply (h.issued e he kind k hk).mono hreps
      rw [hloans]
      exact h.key_putLoan hl hrow
    · exact hissued p hp kind k (hkey ▸ hk)

theorem openingEntries_issued {l : Loan} {account : Uuid} {booked : ℚ} {t : Tables}
    (hl : l ∈ t.loans) : AllIssued (openingEntries l account booked) t := by
  intro p hp kind k hk
  have hkeys : p.key = creditKey .disbursement l.idempotencyKey ∨
      p.key = creditKey .interestBooking l.idempotencyKey := by
    unfold openingEntries at hp
    split_ifs at hp <;> simp at hp
    · rcases hp with rfl | rfl
      · exact .inl rfl
      · exact .inr rfl
    · exact .inl (by rw [hp])
  rcases hkeys with h | h <;> rw [h] at hk <;> obtain ⟨rfl, rfl⟩ := creditKey_inj hk <;>
    exact ⟨l, hl, rfl⟩

theorem BooksOk.opened {t t' : Tables} (h : BooksOk t) {l : Loan} {account : Uuid} {booked : ℚ}
    (hid : l.id = t.nextId) (hnext : t.nextId < t'.nextId) (hloans : t'.loans = t.loans ++ [l])
    (hentries : Appends (openingEntries l account booked) t t')
    (hreps : t'.repayments = t.repayments) : BooksOk t' where
  unique := by
    rw [hloans, List.map_append]
    apply List.Nodup.append h.unique (List.nodup_singleton _)
    -- the ids in use are below the one the loan drew
    intro i hi hi'
    obtain ⟨r, hr, rfl⟩ := List.mem_map.mp hi
    have hlt := h.ids r hr
    have heq : r.id = l.id := List.mem_singleton.mp hi'
    rw [heq, hid] at hlt
    exact lt_irrefl _ hlt
  ids := by
    intro r hr
    rw [hloans, List.mem_append, List.mem_singleton] at hr
    rcases hr with hr | rfl
    · exact (h.ids r hr).trans hnext
    · rw [hid]
      exact hnext
  tags := by
    intro e he line hline htype i hi
    rcases hentries.mem_entries he with he | ⟨p, hp, -, htag⟩
    · exact (h.tags e he line hline htype i hi).trans hnext
    · rw [htag l.id (openingEntries_tagged l account booked p hp) line hline] at hi
      cases hi
      rw [hid]
      exact hnext
  issued := by
    have hmem : l ∈ t'.loans := by
      rw [hloans]
      simp
    intro e he kind k hk
    rcases hentries.mem_entries he with he | ⟨p, hp, hkey, -⟩
    · apply (h.issued e he kind k hk).mono
      · rw [hreps]
        exact List.Subset.refl _
      · rintro ⟨r, hr, hkr⟩
        exact ⟨r, by rw [hloans]; exact List.mem_append_left _ hr, hkr⟩
    · exact openingEntries_issued hmem p hp kind k (hkey ▸ hk)

/-- Entries of the other modules have no loan on their lines and no key of this module. -/
theorem BooksOk.foreign {t t' : Tables} (h : BooksOk t) (hnext : t.nextId ≤ t'.nextId)
    (hloans : t'.loans = t.loans) (hreps : t'.repayments = t.repayments)
    (hentries : ∀ e ∈ t'.entries, e ∈ t.entries ∨
      ¬ IsCreditKey e.idempotencyKey ∧ ∀ line ∈ e.lines, line.subLedgerType = none) :
    BooksOk t' where
  unique := by
    rw [hloans]
    exact h.unique
  ids := by
    intro r hr
    rw [hloans] at hr
    exact (h.ids r hr).trans_le hnext
  tags := by
    intro e he line hline htype i hi
    rcases hentries e he with he | ⟨-, huntagged⟩
    · exact (h.tags e he line hline htype i hi).trans_le hnext
    · rw [huntagged line hline] at htype
      cases htype
  issued := by
    intro e he kind k hk
    rcases hentries e he with he | ⟨hkey, -⟩
    · apply (h.issued e he kind k hk).mono
      · rw [hreps]
        exact List.Subset.refl _
      · rw [hloans]
        exact id
    · exact absurd (hk ▸ isCreditKey_creditKey kind k) hkey

/-- Every move keeps the books in order. -/
theorem BooksOk.move {t t' : Tables} (h : BooksOk t) (hm : Move ar P D t t') : BooksOk t' := by
  cases hm with
  | change l row m key found _ _ saved nextId loans entries issued repayments _ =>
    exact h.change (loan?_eq_some found).1 saved.terms nextId loans entries
      (m.entries_tagged l key) issued repayments
  | opened l account booked _ _ id nextId loans entries repayments _ =>
    exact h.opened id nextId loans entries repayments
  | foreign e key untagged nextId loans entries repayments _ =>
    apply h.foreign nextId loans repayments
    intro e' he
    rw [entries, List.mem_append, List.mem_singleton] at he
    rcases he with he | rfl
    · exact .inl he
    · exact .inr ⟨key, untagged⟩
  | same nextId loans entries repayments _ =>
    apply h.foreign nextId loans repayments
    intro e he
    rw [entries] at he
    exact .inl he

/-- A property of a loan and its balances in the ledger that moves keep: it survives when the
loan sees no posting, it holds of the row a movement leaves, and of the loans that are
opened. -/
structure Kept (P : Loan → Movement → Prop) (D : Loan → Uuid → ℚ → Prop)
    (Ok : Tables → Loan → Prop) : Prop where
  frame : ∀ t t' l, Ok t l → (∀ a, t'.subLedgerNet l.id a = t.subLedgerNet l.id a) → Ok t' l
  change : ∀ t t' l row m key, P l m → m.Enabled l → Saved l (m.balances l) (m.status l) row →
    Appends (m.entries l key) t t' → Ok t l → Ok t' row
  opened : ∀ t t' l account booked, BooksOk t → D l account booked → Opened l →
    l.id = t.nextId → Appends (openingEntries l account booked) t t' → Ok t' l

theorem Kept.move {Ok : Tables → Loan → Prop} (hkept : Kept P D Ok) {t t' : Tables}
    (hbooks : BooksOk t) (h : ∀ l ∈ t.loans, Ok t l) (hm : Move ar P D t t') :
    ∀ l ∈ t'.loans, Ok t' l := by
  intro r hr
  cases hm with
  | change l row m key found allowed enabled saved _ loans entries _ _ _ =>
    obtain ⟨hl, -⟩ := loan?_eq_some found
    rw [loans] at hr
    rcases mem_putLoan hr with rfl | ⟨hr, hne⟩
    · exact hkept.change t t' l r m key allowed enabled saved entries (h l hl)
    · -- The lines are tagged with the loan that moved, not with this one.
      have hne' : l.id ≠ r.id := fun heq => hne (by rw [saved.terms.id, heq])
      exact hkept.frame t t' r (h r hr) fun a =>
        entries.subLedgerNet_of_ne (m.entries_tagged l key) hne'
  | opened l account booked allowed opened id _ loans entries _ _ =>
    rw [loans, List.mem_append, List.mem_singleton] at hr
    rcases hr with hr | rfl
    · have hne : l.id ≠ r.id := by
        rw [id]
        exact (hbooks.ids r hr).ne'
      exact hkept.frame t t' r (h r hr) fun a =>
        entries.subLedgerNet_of_ne (openingEntries_tagged l account booked) hne
    · exact hkept.opened t t' r account booked hbooks allowed opened id entries
  | foreign e _ untagged _ loans entries _ _ =>
    rw [loans] at hr
    exact hkept.frame t t' r (h r hr) fun a => subLedgerNet_untagged untagged entries
  | same _ loans entries _ _ =>
    rw [loans] at hr
    exact hkept.frame t t' r (h r hr) fun a => by unfold Tables.subLedgerNet; rw [entries]

/-- What the columns of a loan hold once it is disbursed. -/
theorem Opened.columns {l : Loan} (h : Opened l) :
    l.outstandingPrincipal.val = l.principalAmount.val ∧ l.accruedInterest.val = 0 ∧
      l.accruedPenalties.val = 0 ∧ l.totalPaidPrincipal.val = 0 ∧ l.totalWrittenOff.val = 0 :=
  ⟨congrArg Balances.outstandingPrincipal h.balances,
    congrArg Balances.accruedInterest h.balances, congrArg Balances.accruedPenalties h.balances,
    congrArg Balances.totalPaidPrincipal h.balances,
    congrArg Balances.totalWrittenOff h.balances⟩

theorem Opened.nonneg {l : Loan} (h : Opened l) : l.Nonneg := by
  obtain ⟨houtstanding, hinterest, hpenalties, -, -⟩ := h.columns
  refine ⟨?_, hinterest.ge, hpenalties.ge⟩
  rw [houtstanding]
  exact h.principal_pos.le

end SaccoPlatform
