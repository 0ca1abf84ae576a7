import SaccoPlatform.Platform.Payments
import SaccoPlatform.Lib.Runs

/-!
# What is paid on an invoice

`amount_paid` is the sum of the confirmed payments in every state of every run, and `paid` means
paid in full. A void invoice is safe from everything but a late confirmation: `confirm` does not
look at the status of the invoice, so a payment that was recorded before the invoice was voided
brings it back.
-/

namespace SaccoPlatform.Platform

open Lib Session

/-- What a payment adds to an invoice. -/
def PaymentRow.share (invoiceId : Uuid) (p : PaymentRow) : ℚ :=
  if p.invoiceId = invoiceId ∧ p.status = .confirmed then p.amount.val else 0

/-- The sum of the confirmed payments of an invoice. -/
def Db.confirmedSum (db : Db) (invoiceId : Uuid) : ℚ :=
  (db.payments.rows.map (PaymentRow.share invoiceId)).sum

/-- `amount_paid` is what was confirmed and no more than the total, and `paid` means in full. -/
structure Agrees (db : Db) (invoice : InvoiceRow) : Prop where
  sum : invoice.amountPaid.val = db.confirmedSum invoice.id
  bounded : invoice.amountPaid.val ≤ invoice.amountTotal.val
  paid_iff : invoice.status = .paid ↔ invoice.amountPaid.val = invoice.amountTotal.val

/-- The invoice agrees with its payments, none of which is negative. -/
structure Balanced (db : Db) (invoice : InvoiceRow) : Prop extends Agrees db invoice where
  positive : 0 < invoice.amountTotal.val
  nonneg : ∀ p ∈ db.payments.rows, 0 ≤ p.amount.val
  void_unpaid : invoice.status = .void → invoice.amountPaid.val = 0

/-- The invoice is there and balanced. -/
def Db.Balanced (db : Db) (id : Uuid) : Prop :=
  ∃ invoice, db.invoices.get? id = some invoice ∧ Platform.Balanced db invoice

/-- Payments are recorded with positive amounts: `PaymentRecordIn` refuses others. -/
def InvoiceOp.Positive : InvoiceOp → Prop
  | .record _ input => 0 < input.amount
  | _ => True

section

variable {db : Db} {invoice : InvoiceRow} {id : Uuid}

theorem Db.id_of_invoice (h : db.invoices.get? id = some invoice) : invoice.id = id := by
  have hkey := Keyed.key_of_get? h
  exact hkey

theorem Db.id_of_payment {pmt : PaymentRow} (h : db.payments.get? id = some pmt) : pmt.id = id := by
  have hkey := Keyed.key_of_get? h
  exact hkey

/-- Nothing negative was ever paid. -/
theorem Balanced.paid_nonneg (h : Balanced db invoice) : 0 ≤ invoice.amountPaid.val := by
  rw [h.sum]
  apply List.sum_nonneg
  intro q hq
  obtain ⟨p, hp, rfl⟩ := List.mem_map.mp hq
  unfold PaymentRow.share
  split
  · exact h.nonneg p hp
  · exact le_rfl

/-- A status that is neither `paid` nor `void`, for an invoice that is not paid in full. -/
theorem Balanced.withStatus (h : Balanced db invoice) (invoice' : InvoiceRow)
    (hid : invoice'.id = invoice.id) (hpaid : invoice'.amountPaid = invoice.amountPaid)
    (htotal : invoice'.amountTotal = invoice.amountTotal) (hopen : invoice.status ≠ .paid)
    (hstatus : invoice'.status ≠ .paid) (hvoid : invoice'.status = .void →
      invoice.amountPaid.val = 0) {invoices : Keyed (fun i : InvoiceRow => i.id)} :
    Balanced { db with invoices := invoices } invoice' where
  sum := by
    rw [hpaid, hid]
    exact h.sum
  bounded := by
    rw [hpaid, htotal]
    exact h.bounded
  paid_iff := by
    rw [hpaid, htotal, ← h.paid_iff]
    exact iff_of_false hstatus hopen
  positive := htotal ▸ h.positive
  nonneg := h.nonneg
  void_unpaid := fun hv => hpaid ▸ hvoid hv

/-- Other invoices and what is not confirmed do not matter. -/
theorem Balanced.transport (h : Balanced db invoice) {db' : Db}
    (hsum : db'.confirmedSum invoice.id = db.confirmedSum invoice.id)
    (hnonneg : ∀ p ∈ db'.payments.rows, 0 ≤ p.amount.val) : Balanced db' invoice where
  sum := h.sum.trans hsum.symm
  bounded := h.bounded
  paid_iff := h.paid_iff
  positive := h.positive
  nonneg := hnonneg
  void_unpaid := h.void_unpaid

/-- A payment that is written back adds the difference of its shares. -/
theorem confirmedSum_put {pmt pmt' : PaymentRow} (hpmt : db.payments.get? pmt'.id = some pmt)
    (invoices : Keyed (fun i : InvoiceRow => i.id)) (id : Uuid) :
    Db.confirmedSum { db with payments := db.payments.put pmt', invoices := invoices } id
      = db.confirmedSum id + (pmt'.share id - pmt.share id) :=
  Keyed.sum_put (PaymentRow.share id) hpmt

theorem nonneg_put {pmt pmt' : PaymentRow} (hpmt : db.payments.get? pmt'.id = some pmt)
    (hamount : pmt'.amount = pmt.amount) (h : ∀ p ∈ db.payments.rows, 0 ≤ p.amount.val) :
    ∀ p ∈ (db.payments.put pmt').rows, 0 ≤ p.amount.val := by
  intro p hp
  obtain ⟨hp, -⟩ | ⟨rfl, -⟩ := Keyed.mem_put.mp hp
  · exact h p hp
  · rw [hamount]
    exact h pmt (Keyed.mem_of_get? hpmt)

end

/-! ## One operation -/

section

variable {db db' : Db} {id : Uuid}

@[simp] theorem credited_id (invoice : InvoiceRow) (now : Timestamp) (newPaid : Money) :
    (invoice.credited now newPaid).id = invoice.id := rfl

@[simp] theorem credited_amountPaid (invoice : InvoiceRow) (now : Timestamp) (newPaid : Money) :
    (invoice.credited now newPaid).amountPaid = newPaid := rfl

@[simp] theorem credited_amountTotal (invoice : InvoiceRow) (now : Timestamp) (newPaid : Money) :
    (invoice.credited now newPaid).amountTotal = invoice.amountTotal := rfl

theorem credited_status (invoice : InvoiceRow) (now : Timestamp) (newPaid : Money) :
    (invoice.credited now newPaid).status =
      if newPaid.val = invoice.amountTotal.val then .paid
      else if 0 < newPaid.val then .partiallyPaid else invoice.status := rfl

theorem newPaid_val {invoice : InvoiceRow} {pmt : PaymentRow} {newPaid : Money}
    (h : Numeric.ofRat? (invoice.amountPaid.val + pmt.amount.val) = some newPaid) :
    newPaid.val = invoice.amountPaid.val + pmt.amount.val :=
  Numeric.val_of_ofRat?_mem (add_mem invoice.amountPaid.onGrid pmt.amount.onGrid) h

theorem balanced_record {m : Moment} {input : PaymentInput} {amount : Money}
    (hpos : 0 < input.amount) (hamount : Numeric.ofRat? input.amount = some amount)
    (h : db.Balanced id) :
    Db.Balanced { db with payments := db.payments.insertNew (input.pending m amount) fun _ => rfl }
      id := by
  obtain ⟨invoice, hinvoice, hbalanced⟩ := h
  have hstored : 0 ≤ amount.val := by
    rw [Numeric.val_of_ofRat? hamount]
    exact roundAt_nonneg hpos.le
  refine ⟨invoice, hinvoice, hbalanced.transport ?_ ?_⟩
  · -- a pending payment counts for nothing
    have hshare : (input.pending m amount db.payments.fresh).share invoice.id = 0 :=
      if_neg fun hconfirmed => nomatch hconfirmed.2
    show ((db.payments.rows ++ [input.pending m amount db.payments.fresh]).map
      (PaymentRow.share invoice.id)).sum = db.confirmedSum invoice.id
    rw [List.map_append, List.sum_append, List.map_singleton, List.sum_singleton, hshare, add_zero]
    rfl
  · show ∀ p ∈ db.payments.rows ++ [input.pending m amount db.payments.fresh], 0 ≤ p.amount.val
    intro p hp
    obtain hp | hp := List.mem_append.mp hp
    · exact hbalanced.nonneg p hp
    · rw [List.mem_singleton.mp hp]
      exact hstored

theorem balanced_reject {pmt : PaymentRow} {paymentId : Uuid}
    (hpmt : db.payments.get? paymentId = some pmt) (hpending : pmt.status = .pending)
    (h : db.Balanced id) :
    Db.Balanced { db with payments := db.payments.put { pmt with status := .rejected } } id := by
  obtain ⟨invoice, hinvoice, hbalanced⟩ := h
  have hkey : pmt.id = paymentId := Db.id_of_payment hpmt
  have hpmt' : db.payments.get? ({ pmt with status := .rejected } : PaymentRow).id = some pmt :=
    hkey.symm ▸ hpmt
  refine ⟨invoice, hinvoice, hbalanced.transport ?_ (nonneg_put hpmt' rfl hbalanced.nonneg)⟩
  refine (confirmedSum_put hpmt' db.invoices invoice.id).trans ?_
  simp [PaymentRow.share, hpending]

theorem balanced_confirmed {pmt : PaymentRow} {invoice : InvoiceRow} {paymentId : Uuid}
    {newPaid : Money} (now : Timestamp) (hpmt : db.payments.get? paymentId = some pmt)
    (hpending : pmt.status = .pending) (hinvoice : db.invoices.get? pmt.invoiceId = some invoice)
    (hle : invoice.amountPaid.val + pmt.amount.val ≤ invoice.amountTotal.val)
    (hpaid : Numeric.ofRat? (invoice.amountPaid.val + pmt.amount.val) = some newPaid)
    (h : db.Balanced id) : (db.confirmed now pmt invoice newPaid).Balanced id := by
  obtain ⟨invoice₀, hinvoice₀, hbalanced⟩ := h
  have hkey : pmt.id = paymentId := Db.id_of_payment hpmt
  have hpmt' : db.payments.get?
      ({ pmt with status := .confirmed, confirmedAt := some now } : PaymentRow).id = some pmt :=
    hkey.symm ▸ hpmt
  have hnonneg : ∀ p ∈ (db.confirmed now pmt invoice newPaid).payments.rows, 0 ≤ p.amount.val :=
    nonneg_put hpmt' rfl hbalanced.nonneg
  -- only a confirmed payment counts, so the sum grows on the invoice of this one
  have hsum : ∀ id, (db.confirmed now pmt invoice newPaid).confirmedSum id
      = db.confirmedSum id + if pmt.invoiceId = id then pmt.amount.val else 0 := by
    intro id
    refine (confirmedSum_put hpmt' _ id).trans ?_
    simp [PaymentRow.share, hpending]
  have hid₀ : invoice₀.id = id := Db.id_of_invoice hinvoice₀
  have hid : invoice.id = pmt.invoiceId := Db.id_of_invoice hinvoice
  by_cases hsame : pmt.invoiceId = id
  · -- the payment is for this invoice
    obtain rfl : invoice₀ = invoice := Option.some.inj (hinvoice₀.symm.trans (hsame ▸ hinvoice))
    have hval := newPaid_val hpaid
    have hamount : 0 ≤ pmt.amount.val := hbalanced.nonneg pmt (Keyed.mem_of_get? hpmt)
    have hbefore := hbalanced.paid_nonneg
    refine ⟨invoice₀.credited now newPaid, ?_, ?_⟩
    · have hcredited : (invoice₀.credited now newPaid).id = id := (credited_id _ _ _).trans hid₀
      exact Keyed.get?_put_self hinvoice₀ hcredited
    · refine ⟨⟨?_, ?_, ?_⟩, ?_, hnonneg, ?_⟩
      · rw [credited_amountPaid, credited_id, hsum, hval, hbalanced.sum, hid₀, if_pos hsame]
      · rw [credited_amountPaid, credited_amountTotal, hval]
        exact hle
      · -- the status follows the new sum, unless nothing is paid yet
        rw [credited_amountPaid, credited_amountTotal, credited_status]
        by_cases hfull : newPaid.val = invoice₀.amountTotal.val
        · simp [hfull]
        · rw [if_neg hfull]
          by_cases hpart : 0 < newPaid.val
          · simp [hpart, hfull]
          · have hnone : invoice₀.amountPaid.val ≠ invoice₀.amountTotal.val := by
              have hpositive := hbalanced.positive
              intro heq
              rw [hval] at hpart
              linarith
            rw [if_neg hpart, hbalanced.paid_iff]
            exact iff_of_false hnone hfull
      · rw [credited_amountTotal]
        exact hbalanced.positive
      · -- a void invoice that stays void was paid nothing
        rw [credited_status, credited_amountPaid]
        intro hvoid
        split_ifs at hvoid with hfull hpart
        rw [hval] at hpart ⊢
        linarith
  · refine ⟨invoice₀, ?_, hbalanced.transport ?_ hnonneg⟩
    · have hother : (invoice.credited now newPaid).id ≠ id := by
        rw [credited_id, hid]
        exact hsame
      refine (Keyed.get?_put_of_ne db.invoices hother).trans hinvoice₀
    · rw [hsum, hid₀, if_neg hsame, add_zero]

theorem balanced_void {invoice : InvoiceRow} {invoiceId : Uuid} (now : Timestamp)
    (reason : String) (hinvoice : db.invoices.get? invoiceId = some invoice)
    (hunpaid : ¬ 0 < invoice.amountPaid.val) (h : db.Balanced id) :
    Db.Balanced { db with invoices := db.invoices.put { invoice with
      status := .void, voidedAt := some now, voidReason := some reason } } id := by
  obtain ⟨invoice₀, hinvoice₀, hbalanced⟩ := h
  have hid : invoice.id = invoiceId := Db.id_of_invoice hinvoice
  by_cases hsame : invoiceId = id
  · obtain rfl : invoice₀ = invoice := Option.some.inj (hinvoice₀.symm.trans (hsame ▸ hinvoice))
    have hzero : invoice₀.amountPaid.val = 0 := le_antisymm (not_lt.mp hunpaid) hbalanced.paid_nonneg
    have hopen : invoice₀.status ≠ .paid := by
      rw [ne_eq, hbalanced.paid_iff, hzero]
      exact hbalanced.positive.ne
    refine ⟨_, Keyed.get?_put_self hinvoice₀ (hid.trans hsame), ?_⟩
    exact hbalanced.withStatus
      { invoice₀ with status := .void, voidedAt := some now, voidReason := some reason }
      rfl rfl rfl hopen nofun fun _ => hzero
  · have hother : invoice.id ≠ id := hid.symm ▸ hsame
    refine ⟨invoice₀, ?_, hbalanced.transport rfl hbalanced.nonneg⟩
    refine (Keyed.get?_put_of_ne db.invoices ?_).trans hinvoice₀
    exact hother

/-- Marking the lapsed invoices, or one of them, or none. -/
theorem balanced_overdue {invoices : Keyed (fun i : InvoiceRow => i.id)} (today : Date)
    (hinvoices : ∀ invoice, db.invoices.get? id = some invoice →
      invoices.get? id = some invoice ∨
        invoice.lapsed today = true ∧ invoices.get? id = some { invoice with status := .overdue })
    (h : db.Balanced id) : Db.Balanced { db with invoices := invoices } id := by
  obtain ⟨invoice, hinvoice, hbalanced⟩ := h
  obtain hkept | ⟨hlapsed, hmarked⟩ := hinvoices invoice hinvoice
  · exact ⟨invoice, hkept, hbalanced.transport rfl hbalanced.nonneg⟩
  · have hopen : invoice.status = .issued ∨ invoice.status = .partiallyPaid := by
      simp only [InvoiceRow.lapsed, Bool.and_eq_true, Bool.or_eq_true, decide_eq_true_eq] at hlapsed
      exact hlapsed.1
    have hunpaid : invoice.status ≠ .paid := by
      obtain hstatus | hstatus := hopen <;> simp [hstatus]
    exact ⟨_, hmarked, hbalanced.withStatus { invoice with status := .overdue } rfl rfl rfl
      hunpaid nofun nofun⟩

/-- Every operation keeps an invoice and its payments in agreement. -/
theorem balanced_step (db : Db) (op : InvoiceOp) (hop : op.Positive) (h : db.Balanced id) :
    (op.step db).Balanced id := by
  refine commit_keeps (P := fun db : Db => db.Balanced id) h ?_
  intro u db' hok
  have hconfirm : ∀ {m paymentId confirmedBy},
      PaymentService.confirm m paymentId confirmedBy db = .ok u db' → db'.Balanced id := by
    intro m paymentId confirmedBy hok
    obtain ⟨pmt, invoice, newPaid, hpmt, hpending, -, hinvoice, hle, hpaid, rfl⟩ :=
      confirm_eq_ok.mp hok
    exact balanced_confirmed m.now hpmt hpending hinvoice hle hpaid h
  have hvoid : ∀ {m invoiceId reason},
      InvoiceService.void m invoiceId reason db = .ok u db' → db'.Balanced id := by
    intro m invoiceId reason hok
    obtain ⟨invoice, hinvoice, -, hunpaid, rfl⟩ := void_eq_ok.mp hok
    exact balanced_void m.now reason hinvoice hunpaid h
  cases op with
  | record m input =>
    obtain ⟨pid, db₁, hrecord, hpure⟩ := bind_eq_ok.mp hok
    obtain ⟨-, rfl⟩ := pure_eq_ok.mp hpure
    obtain ⟨rfl, -⟩ | ⟨amount, hamount, -, rfl⟩ := record_eq_ok hrecord
    · exact h
    · exact balanced_record hop hamount h
  | confirm m paymentId confirmedBy => exact hconfirm hok
  | executeConfirm m paymentId =>
    rw [InvoiceOp.perform, executeConfirmPayment, get_bind_eq_ok] at hok
    split at hok
    · cases hok
      exact h
    · exact hconfirm hok
  | reject paymentId rejectedBy =>
    obtain ⟨pmt, hpmt, hpending, -, rfl⟩ := reject_eq_ok.mp hok
    exact balanced_reject hpmt hpending h
  | void m invoiceId reason => exact hvoid hok
  | executeVoid m invoiceId reason =>
    rw [InvoiceOp.perform, executeVoidInvoice, get_bind_eq_ok] at hok
    split at hok
    · cases hok
      exact h
    · exact hvoid hok
  | markOverdue today invoiceId =>
    obtain ⟨invoice, hinvoice, rfl⟩ := markOverdue_eq_ok.mp hok
    split
    · rename_i hlapsed
      refine balanced_overdue today ?_ h
      intro invoice₀ hinvoice₀
      -- a single invoice is marked, and only if it has lapsed
      have hid : invoice.id = invoiceId := Db.id_of_invoice hinvoice
      by_cases hsame : invoiceId = id
      · obtain rfl : invoice₀ = invoice :=
          Option.some.inj (hinvoice₀.symm.trans (hsame ▸ hinvoice))
        exact .inr ⟨hlapsed, Keyed.get?_put_self hinvoice₀ (hid.trans hsame)⟩
      · have hother : invoice.id ≠ id := hid.symm ▸ hsame
        refine .inl ((Keyed.get?_put_of_ne db.invoices ?_).trans hinvoice₀)
        exact hother
    · exact h
  | markOverdueBatch cutoff =>
    cases hok
    refine balanced_overdue cutoff ?_ h
    intro invoice hinvoice
    have hbatch := markOverdueBatch_eq cutoff db id
    rw [hinvoice, Option.map_some] at hbatch
    by_cases hlapsed : invoice.lapsed cutoff = true
    · rw [if_pos hlapsed] at hbatch
      exact .inr ⟨hlapsed, hbatch⟩
    · rw [if_neg hlapsed] at hbatch
      exact .inl hbatch

end

/-! ## Void invoices -/

section

variable {db db' : Db} {id : Uuid}

/-- The invoice is `void`. -/
def Db.IsVoid (db : Db) (id : Uuid) : Prop := (db.invoices.get? id).map (·.status) = some .void

instance (db : Db) (id : Uuid) : Decidable (db.IsVoid id) := inferInstanceAs (Decidable (_ = _))

/-- The operation confirms no payment of a positive amount on the invoice while it is void. -/
def InvoiceOp.SparesVoid (id : Uuid) (db : Db) : InvoiceOp → Prop
  | .confirm _ paymentId _ | .executeConfirm _ paymentId => ∀ pmt ∈ db.payments.get? paymentId,
      pmt.invoiceId = id → pmt.status = .pending → db.IsVoid id → ¬ 0 < pmt.amount.val
  | _ => True

/-- The operation is refused, or it spares the void invoice. -/
def InvoiceOp.RespectsVoid (id : Uuid) (db : Db) (op : InvoiceOp) : Prop :=
  (∃ u db', op.perform db = .ok u db') → op.SparesVoid id db

theorem isVoid_of_get? {invoice : InvoiceRow} (h : db.invoices.get? id = some invoice) :
    db.IsVoid id ↔ invoice.status = .void := by
  rw [Db.IsVoid, h, Option.map_some, Option.some.injEq]

/-- A confirmation leaves a void invoice void exactly when it adds nothing to it. -/
theorem isVoid_confirmed {pmt : PaymentRow} {invoice : InvoiceRow} {paymentId : Uuid}
    {newPaid : Money} (now : Timestamp) (hpmt : db.payments.get? paymentId = some pmt)
    (hpending : pmt.status = .pending) (hinvoice : db.invoices.get? pmt.invoiceId = some invoice)
    (hpaid : Numeric.ofRat? (invoice.amountPaid.val + pmt.amount.val) = some newPaid)
    (h : db.Balanced id) (hvoid : db.IsVoid id) :
    (db.confirmed now pmt invoice newPaid).IsVoid id ↔
      ∀ p ∈ db.payments.get? paymentId, p.invoiceId = id → p.status = .pending → db.IsVoid id →
        ¬ 0 < p.amount.val := by
  have hid : invoice.id = pmt.invoiceId := Db.id_of_invoice hinvoice
  simp only [hpmt, Option.mem_some_iff, forall_eq', hpending, hvoid, true_implies]
  by_cases hsame : pmt.invoiceId = id
  · obtain ⟨invoice₀, hinvoice₀, hbalanced⟩ := h
    obtain rfl : invoice₀ = invoice := Option.some.inj (hinvoice₀.symm.trans (hsame ▸ hinvoice))
    have hstatus : invoice₀.status = .void := (isVoid_of_get? hinvoice₀).mp hvoid
    have hval := newPaid_val hpaid
    rw [hbalanced.void_unpaid hstatus, zero_add] at hval
    have hcredited : (db.confirmed now pmt invoice₀ newPaid).invoices.get? id
        = some (invoice₀.credited now newPaid) := by
      have hkey : (invoice₀.credited now newPaid).id = id := hid.trans hsame
      exact Keyed.get?_put_self hinvoice₀ hkey
    rw [isVoid_of_get? hcredited, credited_status, hval, hstatus]
    have hpositive := hbalanced.positive
    have hamount : 0 ≤ pmt.amount.val := hbalanced.nonneg pmt (Keyed.mem_of_get? hpmt)
    constructor
    · intro hstill _ hpos
      split_ifs at hstill
    · intro hnone
      have hzero : ¬ 0 < pmt.amount.val := hnone hsame
      have hnotfull : pmt.amount.val ≠ invoice₀.amountTotal.val := by
        intro heq
        rw [heq] at hzero
        exact hzero hpositive
      rw [if_neg hnotfull, if_neg hzero]
  · refine iff_of_true ?_ fun heq => absurd heq hsame
    have hother : (db.confirmed now pmt invoice newPaid).invoices.get? id = db.invoices.get? id := by
      refine Keyed.get?_put_of_ne db.invoices ?_
      show invoice.id ≠ id
      rw [hid]
      exact hsame
    rw [Db.IsVoid, hother]
    exact hvoid

/-- Exactly the operations that respect a void invoice leave it void. -/
theorem isVoid_step (db : Db) (op : InvoiceOp) (h : db.Balanced id) (hvoid : db.IsVoid id) :
    (op.step db).IsVoid id ↔ op.RespectsVoid id db := by
  refine commit_iff (P := fun db : Db => db.IsVoid id) hvoid ?_
  intro u db' hok
  obtain ⟨invoice₀, hinvoice₀, hbalanced⟩ := h
  have hstatus₀ : invoice₀.status = .void := (isVoid_of_get? hinvoice₀).mp hvoid
  -- most operations do not touch the invoice
  have hsame : db'.invoices.get? id = db.invoices.get? id → db'.IsVoid id := by
    intro hinvoices
    rw [Db.IsVoid, hinvoices]
    exact hvoid
  have hother : ∀ {k invoice} (invoice' : InvoiceRow), db.invoices.get? k = some invoice →
      invoice'.id = invoice.id → invoice.status ≠ .void →
      (db.invoices.put invoice').get? id = db.invoices.get? id := by
    intro k invoice invoice' hinvoice hid hnot
    have hkey : invoice.id = k := Db.id_of_invoice hinvoice
    refine Keyed.get?_put_of_ne db.invoices ?_
    show invoice'.id ≠ id
    rintro rfl
    rw [← hkey, ← hid] at hinvoice
    exact hnot (Option.some.inj (hinvoice.symm.trans hinvoice₀) ▸ hstatus₀)
  have hvoided : ∀ {m invoiceId reason},
      InvoiceService.void m invoiceId reason db = .ok u db' → db'.IsVoid id := by
    intro m invoiceId reason hok
    obtain ⟨invoice, hinvoice, hnot, -, rfl⟩ := void_eq_ok.mp hok
    exact hsame (hother _ hinvoice rfl hnot)
  have hconfirm : ∀ {m paymentId confirmedBy},
      PaymentService.confirm m paymentId confirmedBy db = .ok u db' → (db'.IsVoid id ↔
        ∀ p ∈ db.payments.get? paymentId, p.invoiceId = id → p.status = .pending → db.IsVoid id →
          ¬ 0 < p.amount.val) := by
    intro m paymentId confirmedBy hok
    obtain ⟨pmt, invoice, newPaid, hpmt, hpending, -, hinvoice, -, hpaid, rfl⟩ :=
      confirm_eq_ok.mp hok
    exact isVoid_confirmed m.now hpmt hpending hinvoice hpaid ⟨invoice₀, hinvoice₀, hbalanced⟩ hvoid
  cases op with
  | record m input =>
    obtain ⟨pid, db₁, hrecord, hpure⟩ := bind_eq_ok.mp hok
    obtain ⟨-, rfl⟩ := pure_eq_ok.mp hpure
    obtain ⟨rfl, -⟩ | ⟨amount, -, -, rfl⟩ := record_eq_ok hrecord
    · exact iff_of_true hvoid trivial
    · exact iff_of_true (hsame rfl) trivial
  | confirm m paymentId confirmedBy => exact hconfirm hok
  | executeConfirm m paymentId =>
    rw [InvoiceOp.perform, executeConfirmPayment, get_bind_eq_ok] at hok
    split at hok
    · rename_i hdone
      cases hok
      refine iff_of_true hvoid ?_
      -- the payment is confirmed already
      intro p hp _ hpending
      rw [Option.mem_def] at hp
      rw [hp] at hdone
      simp [hpending] at hdone
    · exact hconfirm hok
  | reject paymentId rejectedBy =>
    obtain ⟨pmt, -, -, -, rfl⟩ := reject_eq_ok.mp hok
    exact iff_of_true (hsame rfl) trivial
  | void m invoiceId reason => exact iff_of_true (hvoided hok) trivial
  | executeVoid m invoiceId reason =>
    rw [InvoiceOp.perform, executeVoidInvoice, get_bind_eq_ok] at hok
    split at hok
    · cases hok
      exact iff_of_true hvoid trivial
    · exact iff_of_true (hvoided hok) trivial
  | markOverdue today invoiceId =>
    obtain ⟨invoice, hinvoice, rfl⟩ := markOverdue_eq_ok.mp hok
    refine iff_of_true ?_ trivial
    split
    · rename_i hlapsed
      have hnot : invoice.status ≠ .void := by
        intro hv
        simp [InvoiceRow.lapsed, hv] at hlapsed
      have hkept := hother { invoice with status := .overdue } hinvoice rfl hnot
      exact (isVoid_of_get? (hkept.trans hinvoice₀)).mpr hstatus₀
    · exact hvoid
  | markOverdueBatch cutoff =>
    cases hok
    refine iff_of_true ?_ trivial
    have hbatch := markOverdueBatch_eq cutoff db id
    have hnot : invoice₀.lapsed cutoff = false := by simp [InvoiceRow.lapsed, hstatus₀]
    rw [hinvoice₀, Option.map_some, hnot] at hbatch
    exact (isVoid_of_get? hbatch).mpr hstatus₀

theorem respectsVoid_of_not_isVoid (db : Db) (op : InvoiceOp) (h : ¬ db.IsVoid id) :
    op.RespectsVoid id db := by
  intro _
  cases op with
  | confirm m paymentId confirmedBy => exact fun _ _ _ _ hvoid => absurd hvoid h
  | executeConfirm m paymentId => exact fun _ _ _ _ hvoid => absurd hvoid h
  | _ => trivial

end

/-! ## Runs -/

/-- In every run, `amount_paid` is the sum of the confirmed payments and bounded by the total, and
`paid` means in full. A void invoice stays void and unpaid if and only if no payment of a positive
amount is confirmed on it. -/
theorem invoice_settles_iff {db : Db} {id : Uuid} (h : db.Balanced id) {ops : List InvoiceOp}
    (hpos : ∀ op ∈ ops, op.Positive) :
    ((∀ front, front <+: ops → ∃ invoice,
        (run InvoiceOp.step db front).invoices.get? id = some invoice ∧
          Agrees (run InvoiceOp.step db front) invoice) ∧
      (∀ front later, front ++ later <+: ops → (run InvoiceOp.step db front).IsVoid id →
        ∃ invoice, (run InvoiceOp.step db (front ++ later)).invoices.get? id = some invoice ∧
          invoice.status = .void ∧ invoice.amountPaid.val = 0)) ↔
      Along InvoiceOp.step (InvoiceOp.RespectsVoid id) db ops := by
  -- the agreement holds in every run
  have hbalanced : ∀ front, front <+: ops → (run InvoiceOp.step db front).Balanced id := by
    intro front hfront
    have hgood : ∀ op ∈ front, op.Positive := fun op hop => hpos op (hfront.subset hop)
    clear hfront
    induction front generalizing db with
    | nil => exact h
    | cons op front ih =>
      exact ih (balanced_step db op (hgood op List.mem_cons_self) h)
        fun op' hop' => hgood op' (List.mem_cons_of_mem _ hop')
  have hstep : ∀ (db : Db) (op : InvoiceOp), op.Positive → db.Balanced id →
      (op.step db).Balanced id := fun db op => balanced_step db op
  have hstays := stays_iff_along (P := fun db : Db => db.IsVoid id) hstep
    (fun db op => isVoid_step db op) respectsVoid_of_not_isVoid h hpos
  rw [← hstays]
  constructor
  · rintro ⟨-, hvoid⟩ front later hprefix hfront
    obtain ⟨invoice, hinvoice, hstatus, -⟩ := hvoid front later hprefix hfront
    exact (isVoid_of_get? hinvoice).mpr hstatus
  · intro hvoid
    refine ⟨?_, ?_⟩
    · intro front hfront
      obtain ⟨invoice, hinvoice, hagrees⟩ := hbalanced front hfront
      exact ⟨invoice, hinvoice, hagrees.toAgrees⟩
    · intro front later hprefix hfront
      obtain ⟨invoice, hinvoice, hagrees⟩ := hbalanced (front ++ later) hprefix
      have hstatus := (isVoid_of_get? hinvoice).mp (hvoid front later hprefix hfront)
      exact ⟨invoice, hinvoice, hstatus, hagrees.void_unpaid hstatus⟩

/-- An issued invoice over 50000. -/
def issuedInvoice : InvoiceRow where
  id := 5
  status := .issued
  amountTotal := (Numeric.ofRat? 50000).getD 0
  amountPaid := 0
  voidReason := none
  invoiceNumber := "INV-2024-000001"
  subscriptionId := 1
  tenantId := 1
  billingPeriodStart := dayOne
  billingPeriodEnd := ⟨739030, by decide⟩
  amountSubtotal := (Numeric.ofRat? 50000).getD 0
  amountTax := 0
  currency := "UGX"
  issuedAt := some 0
  dueAt := ⟨739007, by decide⟩
  paidAt := none
  voidedAt := none

/-- The platform with two operators and the invoice. -/
def invoicedDb : Db := { freshDb with users := [8, 9], invoices := ⟨[issuedInvoice], by decide⟩ }

/-- A part of the invoice, recorded by the second operator. -/
def partPayment : PaymentInput where
  invoiceId := 5
  amount := 20000
  currency := "UGX"
  paymentMethod := .mobileMoney
  recordedBy := 9
  idempotencyKey := "p-1"
  externalReference := none
  notes := none

theorem balanced_invoicedDb : invoicedDb.Balanced 5 := by
  refine ⟨issuedInvoice, by decide +kernel, ⟨by decide +kernel, by decide +kernel, ?_⟩,
    by decide +kernel, fun p hp => absurd hp List.not_mem_nil, nofun⟩
  exact iff_of_false nofun (by decide +kernel)

theorem invoice_settles_umoja :
    ∃ invoice, (run InvoiceOp.step invoicedDb
        [.record ⟨0, dayOne⟩ partPayment, .confirm ⟨1, dayOne⟩ 1 (some 8)]).invoices.get? 5
          = some invoice ∧
      Agrees (run InvoiceOp.step invoicedDb
        [.record ⟨0, dayOne⟩ partPayment, .confirm ⟨1, dayOne⟩ 1 (some 8)]) invoice ∧
      invoice.amountPaid.val = 20000 := by
  have hpos : ∀ op ∈ [InvoiceOp.record ⟨0, dayOne⟩ partPayment, .confirm ⟨1, dayOne⟩ 1 (some 8)],
      op.Positive := by
    simp [InvoiceOp.Positive, partPayment]
  have hopen : ¬ (run InvoiceOp.step invoicedDb [.record ⟨0, dayOne⟩ partPayment]).IsVoid 5 := by
    decide +kernel
  obtain ⟨hagrees, -⟩ := (invoice_settles_iff balanced_invoicedDb hpos).mpr
    ⟨fun _ => trivial, fun _ _ _ _ _ hvoid => absurd hvoid hopen, trivial⟩
  obtain ⟨invoice, hinvoice, hagree⟩ := hagrees _ (List.prefix_refl _)
  have hpaid : ((run InvoiceOp.step invoicedDb
      [.record ⟨0, dayOne⟩ partPayment, .confirm ⟨1, dayOne⟩ 1 (some 8)]).invoices.get? 5).map
        (fun i => i.amountPaid.val) = some 20000 := by decide +kernel
  rw [hinvoice, Option.map_some, Option.some.injEq] at hpaid
  exact ⟨invoice, hinvoice, hagree, hpaid⟩

/-- The payment is recorded, the invoice voided, and then the payment is confirmed. -/
theorem late_confirmation_revives_void :
    (run InvoiceOp.step invoicedDb
      [.record ⟨0, dayOne⟩ partPayment, .void ⟨1, dayOne⟩ 5 "issued twice"]).IsVoid 5 ∧
    ((run InvoiceOp.step invoicedDb
      [.record ⟨0, dayOne⟩ partPayment, .void ⟨1, dayOne⟩ 5 "issued twice",
        .confirm ⟨2, dayOne⟩ 1 (some 8)]).invoices.get? 5).map
          (fun i => (i.status, i.amountPaid.val)) = some (.partiallyPaid, 20000) := by
  decide +kernel

end SaccoPlatform.Platform
