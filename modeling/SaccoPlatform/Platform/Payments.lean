import SaccoPlatform.Platform.Schema

/-!
# Invoices and payments

`PaymentService` and the commands of `InvoiceService` that change an existing invoice. A payment is
recorded as `pending`, and only its confirmation touches the invoice: `confirm` adds the amount and
derives the status of the invoice from the new sum, whatever the status was before.
-/

namespace SaccoPlatform.Platform

open Lib Session

def paymentStatusText : PaymentStatus → String
  | .pending => "pending"
  | .confirmed => "confirmed"
  | .rejected => "rejected"

/-- A value is stored in a `NUMERIC(19,4)` column. -/
def storeMoney (q : ℚ) : PlatformCall Money :=
  match Numeric.ofRat? q with
  | some a => pure a
  | none => abort .numericOverflow

/-- `UPDATE platform.invoices`. -/
def writeInvoice (row : InvoiceRow) : PlatformCall Unit :=
  modify fun db => { db with invoices := db.invoices.put row }

/-- `UPDATE platform.payments`. -/
def writePayment (row : PaymentRow) : PlatformCall Unit :=
  modify fun db => { db with payments := db.payments.put row }

/-! ## `PaymentService` -/

/-- The arguments of `PaymentService.record`. -/
structure PaymentInput where
  invoiceId : Uuid
  amount : ℚ
  currency : String
  paymentMethod : PaymentMethod
  recordedBy : Uuid
  idempotencyKey : String
  externalReference : Option String
  notes : Option String
deriving DecidableEq

/-- The row that `record` adds, under the id it is given. -/
def PaymentInput.pending (input : PaymentInput) (m : Moment) (amount : Money) (id : Uuid) :
    PaymentRow where
  id := id
  invoiceId := input.invoiceId
  amount := amount
  status := .pending
  currency := input.currency
  paymentMethod := input.paymentMethod
  externalReference := input.externalReference
  notes := input.notes
  idempotencyKey := input.idempotencyKey
  recordedBy := input.recordedBy
  recordedAt := m.now
  confirmedAt := none

/-- `PaymentService.record`: the id of the new payment, or of the one that has the key. -/
def PaymentService.record (m : Moment) (input : PaymentInput) : PlatformCall Uuid := do
  let db ← get
  match db.payments.rows.find? fun p => p.idempotencyKey = input.idempotencyKey with
  | some existing => pure existing.id
  | none =>
    let invoice ← orRaise (db.invoices.get? input.invoiceId)
      (.valueError s!"Invoice {input.invoiceId} not found")
    require (input.currency = invoice.currency)
      (.valueError (s!"Currency mismatch: payment '{input.currency}' vs " ++
        s!"invoice '{invoice.currency}'"))
    constraint (input.recordedBy ∈ db.users) (.integrityError "fk_payments_recorded_by")
    let amount ← storeMoney input.amount
    modify fun db =>
      { db with payments := db.payments.insertNew (input.pending m amount) fun _ => rfl }
    pure db.payments.fresh

/-- The invoice after a confirmation has brought `amount_paid` to `newPaid`. -/
def InvoiceRow.credited (invoice : InvoiceRow) (now : Timestamp) (newPaid : Money) : InvoiceRow :=
  { invoice with
    amountPaid := newPaid
    status :=
      if newPaid.val = invoice.amountTotal.val then .paid
      else if 0 < newPaid.val then .partiallyPaid
      else invoice.status
    paidAt := if newPaid.val = invoice.amountTotal.val then some now else invoice.paidAt }

/-- `PaymentService.confirm`. Without `confirmedBy` the maker is not compared with the checker. -/
def PaymentService.confirm (m : Moment) (paymentId : Uuid) (confirmedBy : Option Uuid) :
    PlatformCall Unit := do
  let db ← get
  let pmt ← orRaise (db.payments.get? paymentId) (.valueError s!"Payment {paymentId} not found")
  require (pmt.status = .pending)
    (.billingError s!"Cannot confirm payment in status '{paymentStatusText pmt.status}'")
  require (confirmedBy ≠ some pmt.recordedBy)
    (.billingError "Maker cannot be checker (payment.recorded_by == confirmed_by)")
  let invoice ← orRaise (db.invoices.get? pmt.invoiceId)
    (.valueError s!"Invoice {pmt.invoiceId} not found")
  let newPaid := invoice.amountPaid.val + pmt.amount.val
  require (newPaid ≤ invoice.amountTotal.val)
    (.billingError (s!"Confirming would make amount_paid={newPaid} > " ++
      s!"amount_total={invoice.amountTotal.val}"))
  writePayment { pmt with status := .confirmed, confirmedAt := some m.now }
  let newPaid ← storeMoney newPaid
  writeInvoice (invoice.credited m.now newPaid)

/-- `PaymentService.reject`. The reason only goes to the log. -/
def PaymentService.reject (paymentId rejectedBy : Uuid) : PlatformCall Unit := do
  let db ← get
  let pmt ← orRaise (db.payments.get? paymentId) (.valueError s!"Payment {paymentId} not found")
  require (pmt.status = .pending)
    (.billingError s!"Cannot reject payment in status '{paymentStatusText pmt.status}'")
  require (pmt.recordedBy ≠ rejectedBy)
    (.billingError "Maker cannot be checker (payment.recorded_by == rejected_by)")
  writePayment { pmt with status := .rejected }

/-- `execute_confirm_payment`: a payment that is confirmed already is left alone. -/
def executeConfirmPayment (m : Moment) (paymentId : Uuid) : PlatformCall Unit := do
  let db ← get
  if (db.payments.get? paymentId).any (fun pmt => pmt.status = .confirmed) then pure ()
  else PaymentService.confirm m paymentId none

/-! ## `InvoiceService` -/

/-- `InvoiceService.void`. -/
def InvoiceService.void (m : Moment) (invoiceId : Uuid) (reason : String) : PlatformCall Unit := do
  let db ← get
  let invoice ← orRaise (db.invoices.get? invoiceId) (.valueError s!"Invoice {invoiceId} not found")
  require (invoice.status ≠ .void) (.billingError s!"Invoice {invoiceId} is already void")
  require (¬ 0 < invoice.amountPaid.val)
    (.billingError (s!"Invoice {invoiceId} has amount_paid={invoice.amountPaid.val}; " ++
      "reverse payments before voiding"))
  writeInvoice
    { invoice with status := .void, voidedAt := some m.now, voidReason := some reason }

/-- `execute_void_invoice`: an invoice that is void already is left alone. -/
def executeVoidInvoice (m : Moment) (invoiceId : Uuid) (reason : String) : PlatformCall Unit := do
  let db ← get
  if (db.invoices.get? invoiceId).any (fun invoice => invoice.status = .void) then pure ()
  else InvoiceService.void m invoiceId reason

/-- `status in {'issued', 'partial'}` and the due date has passed. -/
def InvoiceRow.lapsed (invoice : InvoiceRow) (today : Date) : Bool :=
  (invoice.status = .issued || invoice.status = .partiallyPaid) && invoice.dueAt < today

/-- `InvoiceService.mark_overdue`. -/
def InvoiceService.markOverdue (today : Date) (invoiceId : Uuid) : PlatformCall Unit := do
  let db ← get
  let invoice ← orRaise (db.invoices.get? invoiceId) (.valueError s!"Invoice {invoiceId} not found")
  when (invoice.lapsed today = true) do
    writeInvoice { invoice with status := .overdue }

/-- `InvoiceService.mark_overdue_batch`: one `UPDATE` over all invoices. -/
def InvoiceService.markOverdueBatch (cutoff : Date) : PlatformCall Unit :=
  modify fun db => { db with
    invoices := (db.invoices.rows.filter (·.lapsed cutoff)).foldl
      (fun invoices invoice => invoices.put { invoice with status := .overdue }) db.invoices }

/-! ## The operations -/

/-- An operation on payments and existing invoices, with what it reads of the clock. -/
inductive InvoiceOp where
  | record (m : Moment) (input : PaymentInput)
  | confirm (m : Moment) (paymentId : Uuid) (confirmedBy : Option Uuid)
  | executeConfirm (m : Moment) (paymentId : Uuid)
  | reject (paymentId rejectedBy : Uuid)
  | void (m : Moment) (invoiceId : Uuid) (reason : String)
  | executeVoid (m : Moment) (invoiceId : Uuid) (reason : String)
  | markOverdue (today : Date) (invoiceId : Uuid)
  | markOverdueBatch (cutoff : Date)
deriving DecidableEq

def InvoiceOp.perform : InvoiceOp → PlatformCall Unit
  | .record m input => do
    let _ ← PaymentService.record m input
  | .confirm m paymentId confirmedBy => PaymentService.confirm m paymentId confirmedBy
  | .executeConfirm m paymentId => executeConfirmPayment m paymentId
  | .reject paymentId rejectedBy => PaymentService.reject paymentId rejectedBy
  | .void m invoiceId reason => InvoiceService.void m invoiceId reason
  | .executeVoid m invoiceId reason => executeVoidInvoice m invoiceId reason
  | .markOverdue today invoiceId => InvoiceService.markOverdue today invoiceId
  | .markOverdueBatch cutoff => InvoiceService.markOverdueBatch cutoff

/-- One operation in a transaction of its own. -/
def InvoiceOp.step (db : Db) (op : InvoiceOp) : Db := commit op.perform db

/-! ## What the operations do when they return -/

section

variable {db db' : Db} {u : Unit}

theorem storeMoney_bind_eq_ok {α : Type} {q : ℚ} {f : Money → PlatformCall α} {a : α} :
    (storeMoney q >>= f) db = .ok a db' ↔
      ∃ amount, Numeric.ofRat? q = some amount ∧ f amount db = .ok a db' := by
  unfold storeMoney
  cases (Numeric.ofRat? q : Option Money) with
  | none => simp [bind_apply]
  | some amount => simp

/-- A confirmation writes the payment and the invoice. -/
def Db.confirmed (db : Db) (now : Timestamp) (pmt : PaymentRow) (invoice : InvoiceRow)
    (newPaid : Money) : Db :=
  { db with
    payments := db.payments.put { pmt with status := .confirmed, confirmedAt := some now }
    invoices := db.invoices.put (invoice.credited now newPaid) }

theorem confirm_eq_ok {m : Moment} {paymentId : Uuid} {confirmedBy : Option Uuid} :
    PaymentService.confirm m paymentId confirmedBy db = .ok u db' ↔
      ∃ pmt invoice newPaid, db.payments.get? paymentId = some pmt ∧ pmt.status = .pending ∧
        confirmedBy ≠ some pmt.recordedBy ∧ db.invoices.get? pmt.invoiceId = some invoice ∧
        invoice.amountPaid.val + pmt.amount.val ≤ invoice.amountTotal.val ∧
        Numeric.ofRat? (invoice.amountPaid.val + pmt.amount.val) = some newPaid ∧
        db' = db.confirmed m.now pmt invoice newPaid := by
  unfold PaymentService.confirm writePayment writeInvoice
  simp only [get_bind_eq_ok, orRaise_bind_eq_ok, require_bind_eq_ok, modify_bind_eq_ok,
    storeMoney_bind_eq_ok, modify_eq_ok]
  constructor
  · rintro ⟨pmt, hpmt, hpending, hmaker, invoice, hinvoice, hle, newPaid, hpaid, rfl⟩
    exact ⟨pmt, invoice, newPaid, hpmt, hpending, hmaker, hinvoice, hle, hpaid, rfl⟩
  · rintro ⟨pmt, invoice, newPaid, hpmt, hpending, hmaker, hinvoice, hle, hpaid, rfl⟩
    exact ⟨pmt, hpmt, hpending, hmaker, invoice, hinvoice, hle, newPaid, hpaid, rfl⟩

theorem reject_eq_ok {paymentId rejectedBy : Uuid} :
    PaymentService.reject paymentId rejectedBy db = .ok u db' ↔
      ∃ pmt, db.payments.get? paymentId = some pmt ∧ pmt.status = .pending ∧
        pmt.recordedBy ≠ rejectedBy ∧
        db' = { db with payments := db.payments.put { pmt with status := .rejected } } := by
  unfold PaymentService.reject writePayment
  simp only [get_bind_eq_ok, orRaise_bind_eq_ok, require_bind_eq_ok, modify_eq_ok]

theorem void_eq_ok {m : Moment} {invoiceId : Uuid} {reason : String} :
    InvoiceService.void m invoiceId reason db = .ok u db' ↔
      ∃ invoice, db.invoices.get? invoiceId = some invoice ∧ invoice.status ≠ .void ∧
        ¬ 0 < invoice.amountPaid.val ∧
        db' = { db with invoices := db.invoices.put { invoice with
          status := .void, voidedAt := some m.now, voidReason := some reason } } := by
  unfold InvoiceService.void writeInvoice
  simp only [get_bind_eq_ok, orRaise_bind_eq_ok, require_bind_eq_ok, modify_eq_ok]

/-- A payment is recorded, or the one that has the key is returned. -/
theorem record_eq_ok {m : Moment} {input : PaymentInput} {id : Uuid}
    (h : PaymentService.record m input db = .ok id db') :
    (db' = db ∧ ∃ p ∈ db.payments.rows, p.id = id) ∨
    ∃ amount, Numeric.ofRat? input.amount = some amount ∧ id = db.payments.fresh ∧
      db' = { db with payments := db.payments.insertNew (input.pending m amount) fun _ => rfl } := by
  unfold PaymentService.record at h
  rw [get_bind_eq_ok] at h
  cases hfind : db.payments.rows.find? fun p => p.idempotencyKey = input.idempotencyKey with
  | some existing =>
    simp only [hfind, pure_eq_ok] at h
    exact .inl ⟨h.2.symm, existing, List.mem_of_find?_eq_some hfind, h.1⟩
  | none =>
    simp only [hfind, orRaise_bind_eq_ok, require_bind_eq_ok, constraint_bind_eq_ok,
      storeMoney_bind_eq_ok, modify_bind_eq_ok, pure_eq_ok] at h
    obtain ⟨invoice, -, -, -, amount, hamount, rfl, rfl⟩ := h
    exact .inr ⟨amount, hamount, rfl, rfl⟩

theorem markOverdue_eq_ok {today : Date} {invoiceId : Uuid} :
    InvoiceService.markOverdue today invoiceId db = .ok u db' ↔
      ∃ invoice, db.invoices.get? invoiceId = some invoice ∧
        db' = if invoice.lapsed today = true then
          { db with invoices := db.invoices.put { invoice with status := .overdue } } else db := by
  unfold InvoiceService.markOverdue writeInvoice
  simp only [get_bind_eq_ok, orRaise_bind_eq_ok]
  refine exists_congr fun invoice => and_congr_right fun _ => ?_
  by_cases h : invoice.lapsed today = true
  · simp [when, h, eq_comm]
  · simp [when, h, eq_comm]

theorem markOverdueBatch_eq (cutoff : Date) (db : Db) (id : Uuid) :
    (commit (InvoiceService.markOverdueBatch cutoff) db).invoices.get? id =
      (db.invoices.get? id).map fun invoice =>
        if invoice.lapsed cutoff = true then { invoice with status := .overdue } else invoice :=
  Keyed.get?_foldl_put_filter (f := fun invoice : InvoiceRow => { invoice with status := .overdue })
    (fun _ => rfl) (·.lapsed cutoff) db.invoices id

end

end SaccoPlatform.Platform
