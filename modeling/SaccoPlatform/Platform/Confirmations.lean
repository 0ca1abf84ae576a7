import SaccoPlatform.Platform.Settlement
import SaccoPlatform.Lib.LostUpdates

/-!
# Concurrent confirmations

`PaymentService.confirm` reads the payment and the invoice without a lock and writes an absolute
`amount_paid`. Under `READ COMMITTED` each read sees what is committed at that moment; an `UPDATE`
waits for a transaction that has updated the row, and then writes its own values over the new row.
-/

namespace SaccoPlatform.Platform

open Lib Session

/-! ## The transactions -/

/-- How far a confirmation has come, with what it has read. -/
inductive ConfirmPhase where
  | begun
  | readPayment (pmt : PaymentRow)
  | readInvoice (pmt : PaymentRow) (invoice : InvoiceRow) (newPaid : Money)
  | written (pmt : PaymentRow) (invoice : InvoiceRow) (newPaid : Money)
  | committed
  | refused
deriving DecidableEq

structure Confirmation where
  now : Timestamp
  paymentId : Uuid
  confirmedBy : Option Uuid
  phase : ConfirmPhase
deriving DecidableEq

structure ConfirmWorld where
  db : Db
  workers : List Confirmation

/-- The `UPDATE` of the unit of work: only the columns that the session changed are set. -/
def InvoiceRow.patch (current read new : InvoiceRow) : InvoiceRow :=
  { current with
    amountPaid := if new.amountPaid = read.amountPaid then current.amountPaid else new.amountPaid
    status := if new.status = read.status then current.status else new.status
    paidAt := if new.paidAt = read.paidAt then current.paidAt else new.paidAt }

/-- What the first read makes of a confirmation. -/
def Confirmation.seePayment (c : Confirmation) (db : Db) : ConfirmPhase :=
  match db.payments.get? c.paymentId with
  | none => .refused
  | some pmt =>
    if pmt.status = .pending ∧ c.confirmedBy ≠ some pmt.recordedBy then .readPayment pmt
    else .refused

/-- What the second read makes of a confirmation: the overpayment is ruled out here. -/
def Confirmation.seeInvoice (pmt : PaymentRow) (db : Db) : ConfirmPhase :=
  match db.invoices.get? pmt.invoiceId with
  | none => .refused
  | some invoice =>
    if invoice.amountPaid.val + pmt.amount.val ≤ invoice.amountTotal.val then
      match Numeric.ofRat? (invoice.amountPaid.val + pmt.amount.val) with
      | some newPaid => .readInvoice pmt invoice newPaid
      | none => .refused
    else .refused

/-- The transaction has updated the invoice and holds its row until it ends. -/
def ConfirmPhase.holds (invoiceId : Uuid) : ConfirmPhase → Bool
  | .written _ invoice _ => invoice.id = invoiceId
  | _ => false

def ConfirmWorld.locked (w : ConfirmWorld) (invoiceId : Uuid) : Bool :=
  w.workers.any fun c => c.phase.holds invoiceId

/-- The tables once the transaction has committed. -/
def Db.published (db : Db) (now : Timestamp) (pmt : PaymentRow) (invoice : InvoiceRow)
    (newPaid : Money) : Db :=
  { db with
    payments := db.payments.put { pmt with status := .confirmed, confirmedAt := some now }
    invoices := match db.invoices.get? invoice.id with
      | some current => db.invoices.put (current.patch invoice (invoice.credited now newPaid))
      | none => db.invoices }

/-- The transaction at position `i` moves on. -/
def ConfirmWorld.step (w : ConfirmWorld) (i : ℕ) : ConfirmWorld :=
  match w.workers[i]? with
  | none => w
  | some c =>
    match c.phase with
    | .begun => { w with workers := w.workers.set i { c with phase := c.seePayment w.db } }
    | .readPayment pmt =>
      { w with workers := w.workers.set i { c with phase := Confirmation.seeInvoice pmt w.db } }
    | .readInvoice pmt invoice newPaid =>
      if w.locked invoice.id then w
      else { w with workers := w.workers.set i { c with phase := .written pmt invoice newPaid } }
    | .written pmt invoice newPaid =>
      { db := w.db.published c.now pmt invoice newPaid
        workers := w.workers.set i { c with phase := .committed } }
    | .committed => w
    | .refused => w

/-! ## A confirmation that runs alone -/

section

variable {w : ConfirmWorld} {i : ℕ} {c : Confirmation}

/-- The world in which the confirmation at `i` has come to `phase`. -/
def ConfirmWorld.withPhase (w : ConfirmWorld) (i : ℕ) (c : Confirmation) (phase : ConfirmPhase) :
    ConfirmWorld := { w with workers := w.workers.set i { c with phase := phase } }

theorem workers_withPhase (hc : w.workers[i]? = some c) (phase : ConfirmPhase) :
    (w.withPhase i c phase).workers[i]? = some { c with phase := phase } :=
  List.getElem?_set_self (List.getElem?_eq_some_iff.mp hc).1

theorem locked_withPhase (hfree : ∀ c ∈ w.workers, ∀ id, c.phase.holds id = false)
    (phase : ConfirmPhase) (hphase : ∀ id, phase.holds id = false) (id : Uuid) :
    (w.withPhase i c phase).locked id = false := by
  refine List.any_eq_false.mpr ?_
  intro c' hc'
  obtain hc' | rfl := List.mem_or_eq_of_mem_set hc'
  · simp [hfree c' hc' id]
  · simp [hphase id]

/-- Nothing has changed since the invoice was read. -/
theorem patch_self (invoice : InvoiceRow) (now : Timestamp) (newPaid : Money) :
    invoice.patch invoice (invoice.credited now newPaid) = invoice.credited now newPaid := by
  unfold InvoiceRow.patch
  simp only [InvoiceRow.credited]
  congr 1 <;> split_ifs <;> simp_all

theorem withPhase_withPhase (phase phase' : ConfirmPhase) :
    (w.withPhase i c phase).withPhase i { c with phase := phase } phase' = w.withPhase i c phase' := by
  unfold ConfirmWorld.withPhase
  rw [List.set_set]

/-- A confirmation that was refused does nothing more. -/
theorem step_refused (hc : w.workers[i]? = some c) (hphase : c.phase = .refused) : w.step i = w := by
  simp only [ConfirmWorld.step, hc, hphase]

/-- With no other confirmation in between, the four statements do what `PaymentService.confirm`
does in a transaction of its own. -/
theorem run_alone (hc : w.workers[i]? = some c) (hbegun : c.phase = .begun)
    (hfree : ∀ c ∈ w.workers, ∀ id, c.phase.holds id = false) (today : Date) :
    (run ConfirmWorld.step w [i, i, i, i]).db
      = commit (PaymentService.confirm ⟨c.now, today⟩ c.paymentId c.confirmedBy) w.db := by
  have hfirst : w.step i = w.withPhase i c (c.seePayment w.db) := by
    simp only [ConfirmWorld.step, hc, hbegun, ConfirmWorld.withPhase]
  have hrefused : (w.withPhase i c .refused).step i = w.withPhase i c .refused :=
    step_refused (workers_withPhase hc .refused) rfl
  -- what the service does when it does not return
  have hstays : (∀ u db', PaymentService.confirm ⟨c.now, today⟩ c.paymentId c.confirmedBy w.db
      ≠ .ok u db') →
      commit (PaymentService.confirm ⟨c.now, today⟩ c.paymentId c.confirmedBy) w.db = w.db := by
    intro hnot
    obtain ⟨u, db', hok, -⟩ | heq := commit_cases
      (PaymentService.confirm ⟨c.now, today⟩ c.paymentId c.confirmedBy) w.db
    · exact absurd hok (hnot u db')
    · exact heq
  simp only [run_cons, run_nil, hfirst]
  unfold Confirmation.seePayment
  cases hpmt : w.db.payments.get? c.paymentId with
  | none =>
    simp only [hrefused]
    refine (hstays ?_).symm
    intro u db' hok
    obtain ⟨pmt, -, -, hsome, -⟩ := confirm_eq_ok.mp hok
    exact nomatch hpmt.symm.trans hsome
  | some pmt =>
    by_cases hmay : pmt.status = .pending ∧ c.confirmedBy ≠ some pmt.recordedBy
    · simp only [if_pos hmay]
      have hsecond : (w.withPhase i c (.readPayment pmt)).step i
          = w.withPhase i c (Confirmation.seeInvoice pmt w.db) := by
        simp only [ConfirmWorld.step, workers_withPhase hc]
        exact withPhase_withPhase _ _
      rw [hsecond]
      unfold Confirmation.seeInvoice
      cases hinvoice : w.db.invoices.get? pmt.invoiceId with
      | none =>
        simp only [hrefused]
        refine (hstays ?_).symm
        intro u db' hok
        obtain ⟨pmt', invoice, -, hpmt', -, -, hsome, -⟩ := confirm_eq_ok.mp hok
        obtain rfl : pmt' = pmt := Option.some.inj (hpmt'.symm.trans hpmt)
        exact nomatch hinvoice.symm.trans hsome
      | some invoice =>
        by_cases hle : invoice.amountPaid.val + pmt.amount.val ≤ invoice.amountTotal.val
        · simp only [if_pos hle]
          cases hpaid : (Numeric.ofRat? (invoice.amountPaid.val + pmt.amount.val) : Option Money) with
          | none =>
            simp only [hrefused]
            refine (hstays ?_).symm
            intro u db' hok
            obtain ⟨pmt', invoice', newPaid, hpmt', -, -, hinvoice', -, hsome, -⟩ :=
              confirm_eq_ok.mp hok
            obtain rfl : pmt' = pmt := Option.some.inj (hpmt'.symm.trans hpmt)
            obtain rfl : invoice' = invoice := Option.some.inj (hinvoice'.symm.trans hinvoice)
            exact nomatch hpaid.symm.trans hsome
          | some newPaid =>
            have hid : invoice.id = pmt.invoiceId := Db.id_of_invoice hinvoice
            have hthird : (w.withPhase i c (.readInvoice pmt invoice newPaid)).step i
                = w.withPhase i c (.written pmt invoice newPaid) := by
              have hopen := locked_withPhase (c := c) (i := i) hfree
                (.readInvoice pmt invoice newPaid) (fun _ => rfl) invoice.id
              simp only [ConfirmWorld.step, workers_withPhase hc, hopen, Bool.false_eq_true,
                if_false]
              exact withPhase_withPhase _ _
            have hfourth : ((w.withPhase i c (.written pmt invoice newPaid)).step i).db
                = w.db.published c.now pmt invoice newPaid := by
              simp only [ConfirmWorld.step, workers_withPhase hc]
              rfl
            have hservice : PaymentService.confirm ⟨c.now, today⟩ c.paymentId c.confirmedBy w.db
                = .ok () (w.db.confirmed c.now pmt invoice newPaid) :=
              confirm_eq_ok.mpr ⟨pmt, invoice, newPaid, hpmt, hmay.1, hmay.2, hinvoice, hle, hpaid,
                rfl⟩
            simp only [hthird, hfourth]
            rw [commit_of_ok hservice, Db.published, hid, hinvoice]
            simp only [patch_self]
            rfl
        · simp only [if_neg hle, hrefused]
          refine (hstays ?_).symm
          intro u db' hok
          obtain ⟨pmt', invoice', newPaid, hpmt', -, -, hinvoice', hle', -⟩ := confirm_eq_ok.mp hok
          obtain rfl : pmt' = pmt := Option.some.inj (hpmt'.symm.trans hpmt)
          obtain rfl : invoice' = invoice := Option.some.inj (hinvoice'.symm.trans hinvoice)
          exact absurd hle' hle
    · simp only [if_neg hmay, hrefused]
      refine (hstays ?_).symm
      intro u db' hok
      obtain ⟨pmt', -, -, hpmt', hpending, hmaker, -⟩ := confirm_eq_ok.mp hok
      obtain rfl : pmt' = pmt := Option.some.inj (hpmt'.symm.trans hpmt)
      exact absurd ⟨hpending, hmaker⟩ hmay

end

/-! ## The register -/

/-- What a confirmation has read of `amount_paid` and not yet written over. -/
def ConfirmPhase.read? : ConfirmPhase → Option ℚ
  | .readInvoice _ invoice _ => some invoice.amountPaid.val
  | .written _ invoice _ => some invoice.amountPaid.val
  | _ => none

/-- `amount_paid` of the invoice as a shared sum. -/
def ConfirmWorld.register (w : ConfirmWorld) (id : Uuid) : Register ℕ ℚ where
  value := ((w.db.invoices.get? id).map fun i => i.amountPaid.val).getD 0
  sum := w.db.confirmedSum id
  reads := fun i => (w.workers[i]?).bind fun c => c.phase.read?

/-- What is known of a confirmation that has read its payment, and perhaps the invoice `id`. -/
def ConfirmPhase.Fits (db : Db) (id paymentId : Uuid) : ConfirmPhase → Prop
  | .readPayment pmt => db.payments.get? paymentId = some pmt ∧ pmt.status = .pending
  | .readInvoice pmt invoice newPaid | .written pmt invoice newPaid =>
    db.payments.get? paymentId = some pmt ∧ pmt.status = .pending ∧ invoice.id = id ∧
      newPaid.val = invoice.amountPaid.val + pmt.amount.val ∧
      newPaid.val ≤ invoice.amountTotal.val ∧
      ∃ current, db.invoices.get? id = some current ∧ current.amountTotal = invoice.amountTotal
  | _ => True

/-- Confirmations of different payments of one invoice, none of which is paid more than its
total. -/
structure ConfirmWorld.Consistent (id : Uuid) (w : ConfirmWorld) : Prop where
  distinct : (w.workers.map (·.paymentId)).Nodup
  same : ∀ c ∈ w.workers, ∀ pmt ∈ w.db.payments.get? c.paymentId, pmt.invoiceId = id
  fits : ∀ c ∈ w.workers, c.phase.Fits w.db id c.paymentId
  nonneg : ∀ p ∈ w.db.payments.rows, 0 ≤ p.amount.val
  bounded : ∃ invoice, w.db.invoices.get? id = some invoice ∧
    invoice.amountPaid.val ≤ invoice.amountTotal.val

section

variable {w : ConfirmWorld} {id : Uuid} {i : ℕ} {c : Confirmation}

/-- The phase of one confirmation changes. -/
theorem register_set (id : Uuid) (hc : w.workers[i]? = some c) (phase : ConfirmPhase) :
    (ConfirmWorld.register { w with workers := w.workers.set i { c with phase := phase } } id)
      = { w.register id with reads := Function.update (w.register id).reads i phase.read? } := by
  unfold ConfirmWorld.register
  congr 1
  funext j
  have hlt : i < w.workers.length := (List.getElem?_eq_some_iff.mp hc).1
  by_cases hij : j = i
  · subst hij
    simp [hlt]
  · rw [Function.update_of_ne hij, List.getElem?_set_ne (Ne.symm hij)]

theorem paymentIds_set (hc : w.workers[i]? = some c) (phase : ConfirmPhase) :
    (w.workers.set i { c with phase := phase }).map (·.paymentId) = w.workers.map (·.paymentId) := by
  rw [List.map_set]
  apply List.ext_getElem?
  intro j
  by_cases hij : i = j
  · subst hij
    rw [List.getElem?_set_self', List.getElem?_map, hc]
    rfl
  · rw [List.getElem?_set_ne hij]

/-- The confirmations after one of them has moved: it, and others with other payments. -/
theorem mem_set_cases (h : (w.workers.map (·.paymentId)).Nodup) (hc : w.workers[i]? = some c)
    {c' new : Confirmation} (hc' : c' ∈ w.workers.set i new) :
    c' = new ∨ c' ∈ w.workers ∧ c'.paymentId ≠ c.paymentId := by
  obtain ⟨j, hj⟩ := List.mem_iff_getElem?.mp hc'
  have hlt : i < w.workers.length := (List.getElem?_eq_some_iff.mp hc).1
  by_cases hij : i = j
  · subst hij
    rw [List.getElem?_set_self hlt] at hj
    exact .inl (Option.some.inj hj).symm
  · rw [List.getElem?_set_ne hij] at hj
    refine .inr ⟨List.mem_of_getElem? hj, fun heq => hij ?_⟩
    refine (List.getElem?_inj (by simpa using hlt) h).mp ?_
    rw [List.getElem?_map, List.getElem?_map, hc, hj, Option.map_some, Option.map_some, heq]

theorem ConfirmWorld.Consistent.set (h : w.Consistent id) (hc : w.workers[i]? = some c)
    {phase : ConfirmPhase} (hfits : phase.Fits w.db id c.paymentId) :
    ConfirmWorld.Consistent id { w with workers := w.workers.set i { c with phase := phase } } where
  distinct := by
    rw [paymentIds_set hc]
    exact h.distinct
  same := by
    intro c' hc'
    obtain hc' | rfl := List.mem_or_eq_of_mem_set hc'
    · exact h.same c' hc'
    · exact h.same c (List.mem_of_getElem? hc)
  fits := by
    intro c' hc'
    obtain hc' | rfl := List.mem_or_eq_of_mem_set hc'
    · exact h.fits c' hc'
    · exact hfits
  nonneg := h.nonneg
  bounded := h.bounded

variable {pmt : PaymentRow} {invoice current : InvoiceRow} {newPaid : Money} {db : Db}

theorem get?_published (now : Timestamp) (hid : invoice.id = id)
    (hcurrent : db.invoices.get? id = some current) :
    (db.published now pmt invoice newPaid).invoices.get? id
      = some (current.patch invoice (invoice.credited now newPaid)) := by
  have hkey : current.id = id := Db.id_of_invoice hcurrent
  unfold Db.published
  rw [hid, hcurrent]
  have hpatched : (current.patch invoice (invoice.credited now newPaid)).id = id := hkey
  exact Keyed.get?_put_self hcurrent hpatched

/-- An amount of zero leaves the column alone. -/
theorem amountPaid_patch (now : Timestamp)
    (hpaid : newPaid.val = invoice.amountPaid.val + pmt.amount.val) :
    (current.patch invoice (invoice.credited now newPaid)).amountPaid.val
      = if pmt.amount.val = 0 then current.amountPaid.val else newPaid.val := by
  have hsame : newPaid = invoice.amountPaid ↔ pmt.amount.val = 0 := by
    rw [Numeric.ext_iff, hpaid]
    exact add_eq_left
  show (if newPaid = invoice.amountPaid then current.amountPaid else newPaid).val = _
  by_cases hzero : pmt.amount.val = 0
  · rw [if_pos (hsame.mpr hzero), if_pos hzero]
  · rw [if_neg (mt hsame.mp hzero), if_neg hzero]

theorem confirmedSum_published (now : Timestamp) {paymentId : Uuid}
    (hpmt : db.payments.get? paymentId = some pmt) (hpending : pmt.status = .pending)
    (hinvoiceId : pmt.invoiceId = id) :
    (db.published now pmt invoice newPaid).confirmedSum id = db.confirmedSum id + pmt.amount.val := by
  have hkey : pmt.id = paymentId := Db.id_of_payment hpmt
  have hpmt' : db.payments.get?
      ({ pmt with status := .confirmed, confirmedAt := some now } : PaymentRow).id = some pmt :=
    hkey.symm ▸ hpmt
  refine (confirmedSum_put hpmt' _ id).trans ?_
  simp [PaymentRow.share, hpending, hinvoiceId]

/-- The commit of a confirmation, seen from the register. -/
theorem register_commit (h : w.Consistent id) (hc : w.workers[i]? = some c)
    (hphase : c.phase = .written pmt invoice newPaid) :
    (w.step i).register id =
      if pmt.amount.val = 0 then (w.register id).leave i
      else (w.register id).publish i invoice.amountPaid.val pmt.amount.val := by
  have hmem : c ∈ w.workers := List.mem_of_getElem? hc
  have hfits := h.fits c hmem
  rw [hphase] at hfits
  obtain ⟨hpmt, hpending, hid, hpaid, -, current, hcurrent, -⟩ := hfits
  have hinvoiceId : pmt.invoiceId = id := h.same c hmem pmt hpmt
  have hstep : w.step i = ⟨w.db.published c.now pmt invoice newPaid,
      w.workers.set i { c with phase := .committed }⟩ := by
    simp only [ConfirmWorld.step, hc, hphase]
  have hreads : ((w.step i).register id).reads
      = Function.update (w.register id).reads i none := by
    rw [hstep]
    exact congrArg Register.reads (register_set id hc .committed)
  have hvalue : ((w.step i).register id).value
      = if pmt.amount.val = 0 then current.amountPaid.val else newPaid.val := by
    rw [hstep]
    show ((Option.map _ ((w.db.published c.now pmt invoice newPaid).invoices.get? id)).getD 0) = _
    rw [get?_published c.now hid hcurrent]
    exact amountPaid_patch c.now hpaid
  have hsum : ((w.step i).register id).sum = w.db.confirmedSum id + pmt.amount.val := by
    rw [hstep]
    exact confirmedSum_published c.now hpmt hpending hinvoiceId
  have hbefore : (w.register id).value = current.amountPaid.val := by
    unfold ConfirmWorld.register
    rw [hcurrent]
    rfl
  by_cases hzero : pmt.amount.val = 0
  · rw [if_pos hzero] at hvalue ⊢
    rw [hzero, add_zero] at hsum
    exact Register.ext (hvalue.trans hbefore.symm) hsum hreads
  · rw [if_neg hzero] at hvalue ⊢
    exact Register.ext (hvalue.trans hpaid) hsum hreads

theorem consistent_commit (h : w.Consistent id) (hc : w.workers[i]? = some c)
    (hphase : c.phase = .written pmt invoice newPaid) : (w.step i).Consistent id := by
  have hmem : c ∈ w.workers := List.mem_of_getElem? hc
  have hfits := h.fits c hmem
  rw [hphase] at hfits
  obtain ⟨hpmt, hpending, hid, hpaid, hle, current, hcurrent, htotal⟩ := hfits
  have hkey : pmt.id = c.paymentId := Db.id_of_payment hpmt
  have hstep : w.step i = ⟨w.db.published c.now pmt invoice newPaid,
      w.workers.set i { c with phase := .committed }⟩ := by
    simp only [ConfirmWorld.step, hc, hphase]
  have hpmt' : w.db.payments.get?
      ({ pmt with status := .confirmed, confirmedAt := some c.now } : PaymentRow).id = some pmt :=
    hkey.symm ▸ hpmt
  -- the payments of the other confirmations are not touched
  have hother : ∀ c' : Confirmation, c'.paymentId ≠ c.paymentId →
      (w.db.published c.now pmt invoice newPaid).payments.get? c'.paymentId
        = w.db.payments.get? c'.paymentId := by
    intro c' hne
    refine Keyed.get?_put_of_ne w.db.payments ?_
    show pmt.id ≠ c'.paymentId
    rw [hkey]
    exact hne.symm
  rw [hstep]
  refine ⟨?_, ?_, ?_, ?_, ?_⟩
  · rw [paymentIds_set hc]
    exact h.distinct
  · intro c' hc'
    obtain rfl | ⟨hc', hne⟩ := mem_set_cases h.distinct hc hc'
    · have hself : (w.db.published c.now pmt invoice newPaid).payments.get? c.paymentId
          = some { pmt with status := .confirmed, confirmedAt := some c.now } :=
        Keyed.get?_put_self hpmt hkey
      show ∀ p ∈ (w.db.published c.now pmt invoice newPaid).payments.get? c.paymentId,
        p.invoiceId = id
      rw [hself]
      intro p hp
      rw [← Option.mem_some_iff.mp hp]
      exact h.same c hmem pmt hpmt
    · rw [hother c' hne]
      exact h.same c' hc'
  · intro c' hc'
    obtain rfl | ⟨hc', hne⟩ := mem_set_cases h.distinct hc hc'
    · trivial
    · have hold := h.fits c' hc'
      cases hphase' : c'.phase with
      | begun => trivial
      | readPayment pmt' =>
        rw [hphase'] at hold
        exact ⟨(hother c' hne).trans hold.1, hold.2⟩
      | readInvoice pmt' invoice' newPaid' =>
        rw [hphase'] at hold
        obtain ⟨hpmt₀, hpending₀, hid₀, hpaid₀, hle₀, current₀, hcurrent₀, htotal₀⟩ := hold
        obtain rfl : current₀ = current := Option.some.inj (hcurrent₀.symm.trans hcurrent)
        exact ⟨(hother c' hne).trans hpmt₀, hpending₀, hid₀, hpaid₀, hle₀, _,
          get?_published c.now hid hcurrent, htotal₀⟩
      | written pmt' invoice' newPaid' =>
        rw [hphase'] at hold
        obtain ⟨hpmt₀, hpending₀, hid₀, hpaid₀, hle₀, current₀, hcurrent₀, htotal₀⟩ := hold
        obtain rfl : current₀ = current := Option.some.inj (hcurrent₀.symm.trans hcurrent)
        exact ⟨(hother c' hne).trans hpmt₀, hpending₀, hid₀, hpaid₀, hle₀, _,
          get?_published c.now hid hcurrent, htotal₀⟩
      | committed => trivial
      | refused => trivial
  · exact nonneg_put hpmt' rfl h.nonneg
  · refine ⟨_, get?_published c.now hid hcurrent, ?_⟩
    rw [amountPaid_patch c.now hpaid]
    show _ ≤ current.amountTotal.val
    obtain ⟨current', hcurrent', hbounded⟩ := h.bounded
    obtain rfl : current' = current := Option.some.inj (hcurrent'.symm.trans hcurrent)
    split
    · exact hbounded
    · rw [htotal]
      exact hle

theorem seePayment_cases (c : Confirmation) (db : Db) (id : Uuid) :
    (c.seePayment db).Fits db id c.paymentId ∧ (c.seePayment db).read? = none := by
  unfold Confirmation.seePayment
  cases hpmt : db.payments.get? c.paymentId with
  | none => exact ⟨trivial, rfl⟩
  | some pmt =>
    by_cases hpending : pmt.status = .pending ∧ c.confirmedBy ≠ some pmt.recordedBy
    · simp only [if_pos hpending]
      exact ⟨⟨hpmt, hpending.1⟩, rfl⟩
    · simp only [if_neg hpending]
      exact ⟨trivial, rfl⟩

theorem seeInvoice_cases {paymentId : Uuid} (hpmt : db.payments.get? paymentId = some pmt)
    (hpending : pmt.status = .pending) (hcurrent : db.invoices.get? pmt.invoiceId = some current) :
    (Confirmation.seeInvoice pmt db).Fits db pmt.invoiceId paymentId ∧
      ((Confirmation.seeInvoice pmt db).read? = none ∨
        (Confirmation.seeInvoice pmt db).read? = some current.amountPaid.val) := by
  have hid : current.id = pmt.invoiceId := Db.id_of_invoice hcurrent
  unfold Confirmation.seeInvoice
  simp only [hcurrent]
  by_cases hle : current.amountPaid.val + pmt.amount.val ≤ current.amountTotal.val
  · rw [if_pos hle]
    cases hpaid : (Numeric.ofRat? (current.amountPaid.val + pmt.amount.val) : Option Money) with
    | none => exact ⟨trivial, .inl rfl⟩
    | some newPaid =>
      have hval := newPaid_val hpaid
      exact ⟨⟨hpmt, hpending, hid, hval, hval.trans_le hle, current, hcurrent, rfl⟩, .inr rfl⟩
  · rw [if_neg hle]
    exact ⟨trivial, .inl rfl⟩

/-- What a step does to the register: nothing, or a confirmation leaves, reads or commits. -/
theorem step_cases (h : w.Consistent id) (i : ℕ) :
    (w.step i).Consistent id ∧
      ((w.step i).register id = w.register id ∨
        (w.step i).register id = (w.register id).leave i ∨
        (w.step i).register id = (w.register id).read i ∨
        ∃ c pmt invoice newPaid, w.workers[i]? = some c ∧
          c.phase = .written pmt invoice newPaid) := by
  cases hc : w.workers[i]? with
  | none =>
    have hstep : w.step i = w := by simp only [ConfirmWorld.step, hc]
    rw [hstep]
    exact ⟨h, .inl rfl⟩
  | some c =>
    have hmem : c ∈ w.workers := List.mem_of_getElem? hc
    have hfits := h.fits c hmem
    cases hphase : c.phase with
    | begun =>
      have hstep : w.step i
          = { w with workers := w.workers.set i { c with phase := c.seePayment w.db } } := by
        simp only [ConfirmWorld.step, hc, hphase]
      obtain ⟨hfits', hread⟩ := seePayment_cases c w.db id
      rw [hstep, register_set id hc, hread]
      exact ⟨h.set hc hfits', .inr (.inl rfl)⟩
    | readPayment pmt =>
      rw [hphase] at hfits
      obtain ⟨hpmt, hpending⟩ := hfits
      obtain rfl : pmt.invoiceId = id := h.same c hmem pmt hpmt
      obtain ⟨current, hcurrent, -⟩ := h.bounded
      have hstep : w.step i = { w with
          workers := w.workers.set i { c with phase := Confirmation.seeInvoice pmt w.db } } := by
        simp only [ConfirmWorld.step, hc, hphase]
      have hvalue : (w.register pmt.invoiceId).value = current.amountPaid.val := by
        unfold ConfirmWorld.register
        rw [hcurrent]
        rfl
      obtain ⟨hfits', hread | hread⟩ := seeInvoice_cases hpmt hpending hcurrent
      · rw [hstep, register_set pmt.invoiceId hc, hread]
        exact ⟨h.set hc hfits', .inr (.inl rfl)⟩
      · rw [hstep, register_set pmt.invoiceId hc, hread, ← hvalue]
        exact ⟨h.set hc hfits', .inr (.inr (.inl rfl))⟩
    | readInvoice pmt invoice newPaid =>
      rw [hphase] at hfits
      by_cases hlocked : w.locked invoice.id = true
      · have hstep : w.step i = w := by simp only [ConfirmWorld.step, hc, hphase, hlocked, if_true]
        rw [hstep]
        exact ⟨h, .inl rfl⟩
      · have hstep : w.step i = { w with
            workers := w.workers.set i { c with phase := .written pmt invoice newPaid } } := by
          simp only [ConfirmWorld.step, hc, hphase, hlocked, if_false, Bool.false_eq_true]
        -- the value that was read stays the same
        have hread : (w.register id).reads i = some invoice.amountPaid.val := by
          unfold ConfirmWorld.register
          simp only [hc, Option.bind_some, hphase]
          rfl
        rw [hstep, register_set id hc]
        refine ⟨h.set hc hfits, .inl ?_⟩
        show { w.register id with
          reads := Function.update (w.register id).reads i (some invoice.amountPaid.val) } = _
        rw [← hread, Function.update_eq_self]
    | written pmt invoice newPaid =>
      exact ⟨consistent_commit h hc hphase, .inr (.inr (.inr ⟨c, pmt, invoice, newPaid, rfl, hphase⟩))⟩
    | committed =>
      have hstep : w.step i = w := by simp only [ConfirmWorld.step, hc, hphase]
      rw [hstep]
      exact ⟨h, .inl rfl⟩
    | refused =>
      have hstep : w.step i = w := by simp only [ConfirmWorld.step, hc, hphase]
      rw [hstep]
      exact ⟨h, .inl rfl⟩

end

/-! ## Interleavings -/

/-- A confirmation of a positive amount commits only while `amount_paid` is what it has read. -/
def ConfirmWorld.CommitsFresh (w : ConfirmWorld) (i : ℕ) : Prop :=
  ∀ c pmt invoice newPaid, w.workers[i]? = some c → c.phase = .written pmt invoice newPaid →
    0 < pmt.amount.val → ∀ current ∈ w.db.invoices.get? invoice.id,
      current.amountPaid = invoice.amountPaid

/-- No update has been lost. -/
structure ConfirmWorld.Good (id : Uuid) (w : ConfirmWorld) : Prop extends w.Consistent id where
  healthy : (w.register id).Healthy

/-- An update has been lost. -/
structure ConfirmWorld.Bad (id : Uuid) (w : ConfirmWorld) : Prop extends w.Consistent id where
  broken : (w.register id).Broken

section

variable {w : ConfirmWorld} {id : Uuid}

/-- What is known when a confirmation commits. -/
theorem commit_facts {i : ℕ} {c : Confirmation} {pmt : PaymentRow} {invoice : InvoiceRow}
    {newPaid : Money} (h : w.Consistent id) (hc : w.workers[i]? = some c)
    (hphase : c.phase = .written pmt invoice newPaid) :
    0 ≤ pmt.amount.val ∧ (w.register id).reads i = some invoice.amountPaid.val ∧
      ∃ current, w.db.invoices.get? invoice.id = some current ∧
        (w.register id).value = current.amountPaid.val := by
  have hmem : c ∈ w.workers := List.mem_of_getElem? hc
  have hfits := h.fits c hmem
  rw [hphase] at hfits
  obtain ⟨hpmt, -, hid, -, -, current, hcurrent, -⟩ := hfits
  refine ⟨h.nonneg pmt (Keyed.mem_of_get? hpmt), ?_, current, hid.symm ▸ hcurrent, ?_⟩
  · unfold ConfirmWorld.register
    simp only [hc, Option.bind_some, hphase]
    rfl
  · unfold ConfirmWorld.register
    rw [hcurrent]
    rfl

theorem ConfirmWorld.Good.step (h : w.Good id) (i : ℕ) (hfresh : w.CommitsFresh i) :
    (w.step i).Good id := by
  obtain ⟨hconsistent, hcases⟩ := step_cases h.toConsistent i
  refine ⟨hconsistent, ?_⟩
  obtain heq | heq | heq | ⟨c, pmt, invoice, newPaid, hc, hphase⟩ := hcases
  · rw [heq]
    exact h.healthy
  · rw [heq]
    exact h.healthy.leave i
  · rw [heq]
    exact h.healthy.read i
  · obtain ⟨hamount, -, current, hcurrent, hvalue⟩ := commit_facts h.toConsistent hc hphase
    rw [register_commit h.toConsistent hc hphase]
    by_cases hzero : pmt.amount.val = 0
    · rw [if_pos hzero]
      exact h.healthy.leave i
    · rw [if_neg hzero]
      have hpos : 0 < pmt.amount.val := hamount.lt_of_ne (Ne.symm hzero)
      have hsame := hfresh c pmt invoice newPaid hc hphase hpos current hcurrent
      exact h.healthy.publish hamount (hvalue.trans (congrArg Numeric.val hsame))

theorem ConfirmWorld.Good.lose (h : w.Good id) (i : ℕ) (hstale : ¬ w.CommitsFresh i) :
    (w.step i).Bad id := by
  obtain ⟨hconsistent, -⟩ := step_cases h.toConsistent i
  refine ⟨hconsistent, ?_⟩
  unfold ConfirmWorld.CommitsFresh at hstale
  push Not at hstale
  obtain ⟨c, pmt, invoice, newPaid, hc, hphase, hpos, current, hcurrent, hne⟩ := hstale
  obtain ⟨-, hread, current', hcurrent', hvalue⟩ := commit_facts h.toConsistent hc hphase
  obtain rfl : current' = current := Option.some.inj (hcurrent'.symm.trans hcurrent)
  rw [register_commit h.toConsistent hc hphase, if_neg hpos.ne']
  refine h.healthy.publish_lost hpos hread ?_
  rw [hvalue]
  exact fun heq => hne (Numeric.ext heq)

theorem ConfirmWorld.Bad.step (h : w.Bad id) (i : ℕ) : (w.step i).Bad id := by
  obtain ⟨hconsistent, hcases⟩ := step_cases h.toConsistent i
  refine ⟨hconsistent, ?_⟩
  obtain heq | heq | heq | ⟨c, pmt, invoice, newPaid, hc, hphase⟩ := hcases
  · rw [heq]
    exact h.broken
  · rw [heq]
    exact h.broken.leave i
  · rw [heq]
    exact h.broken.read i
  · obtain ⟨hamount, hread, -⟩ := commit_facts h.toConsistent hc hphase
    rw [register_commit h.toConsistent hc hphase]
    by_cases hzero : pmt.amount.val = 0
    · rw [if_pos hzero]
      exact h.broken.leave i
    · rw [if_neg hzero]
      exact h.broken.publish hamount hread

end

/-- Before the first statement the register is healthy. -/
theorem good_begin {db : Db} {id : Uuid} (h : db.Balanced id) {confirmations : List Confirmation}
    (hbegun : ∀ c ∈ confirmations, c.phase = .begun)
    (hdistinct : (confirmations.map (·.paymentId)).Nodup)
    (hsame : ∀ c ∈ confirmations, ∀ pmt ∈ db.payments.get? c.paymentId, pmt.invoiceId = id) :
    ConfirmWorld.Good id ⟨db, confirmations⟩ := by
  obtain ⟨invoice, hinvoice, hbalanced⟩ := h
  have hid : invoice.id = id := Db.id_of_invoice hinvoice
  refine ⟨⟨hdistinct, hsame, ?_, hbalanced.nonneg, invoice, hinvoice, hbalanced.bounded⟩, ?_, ?_⟩
  · intro c hc
    rw [hbegun c hc]
    trivial
  · unfold ConfirmWorld.register
    rw [hinvoice]
    exact hid ▸ hbalanced.sum
  · intro i seen hseen
    obtain ⟨c, hc, hread⟩ := Option.bind_eq_some_iff.mp hseen
    rw [hbegun c (List.mem_of_getElem? hc)] at hread
    cases hread

/-- In every interleaving of confirmations of different payments of an invoice, `amount_paid` stays
within the total, and it is the sum of the confirmed payments if and only if every confirmation has
committed while `amount_paid` was what it had read. -/
theorem concurrent_confirmations_iff {db : Db} {id : Uuid} (h : db.Balanced id)
    (confirmations : List Confirmation) (hbegun : ∀ c ∈ confirmations, c.phase = .begun)
    (hdistinct : (confirmations.map (·.paymentId)).Nodup)
    (hsame : ∀ c ∈ confirmations, ∀ pmt ∈ db.payments.get? c.paymentId, pmt.invoiceId = id)
    (schedule : List ℕ) :
    ∃ invoice, (run ConfirmWorld.step ⟨db, confirmations⟩ schedule).db.invoices.get? id
        = some invoice ∧
      invoice.amountPaid.val ≤ invoice.amountTotal.val ∧
      (invoice.amountPaid.val
          = (run ConfirmWorld.step ⟨db, confirmations⟩ schedule).db.confirmedSum id ↔
        Along ConfirmWorld.step ConfirmWorld.CommitsFresh ⟨db, confirmations⟩ schedule) := by
  have hend := along_good_or_bad (fun w i hgood hfresh => ConfirmWorld.Good.step hgood i hfresh)
    (fun w i hgood hstale => ConfirmWorld.Good.lose hgood i hstale)
    (fun w i hbad => ConfirmWorld.Bad.step hbad i)
    (good_begin h hbegun hdistinct hsame) schedule
  set w := run ConfirmWorld.step ⟨db, confirmations⟩ schedule
  have hvalue : ∀ {invoice}, w.db.invoices.get? id = some invoice →
      (w.register id).value = invoice.amountPaid.val := by
    intro invoice hinvoice
    unfold ConfirmWorld.register
    rw [hinvoice]
    rfl
  obtain ⟨halong, hgood⟩ | ⟨hnot, hbad⟩ := hend
  · obtain ⟨invoice, hinvoice, hle⟩ := hgood.bounded
    exact ⟨invoice, hinvoice, hle,
      iff_of_true ((hvalue hinvoice).symm.trans hgood.healthy.value) halong⟩
  · obtain ⟨invoice, hinvoice, hle⟩ := hbad.bounded
    refine ⟨invoice, hinvoice, hle, iff_of_false ?_ hnot⟩
    intro heq
    exact hbad.broken.value.ne ((hvalue hinvoice).trans heq)

/-- The rest of the invoice, recorded under another key. -/
def restPayment : PaymentInput := { partPayment with amount := 30000, idempotencyKey := "p-2" }

/-- Both payments are recorded. -/
def twoPaymentsDb : Db :=
  run InvoiceOp.step invoicedDb [.record ⟨0, dayOne⟩ partPayment, .record ⟨1, dayOne⟩ restPayment]

/-- Both payments are to be confirmed by the first operator. -/
def twoConfirmations : List Confirmation := [⟨2, 1, some 8, .begun⟩, ⟨3, 2, some 8, .begun⟩]

theorem balanced_twoPaymentsDb : twoPaymentsDb.Balanced 5 := by
  refine balanced_step _ _ ?_ (balanced_step _ _ ?_ balanced_invoicedDb)
  · show (0 : ℚ) < 30000
    decide +kernel
  · show (0 : ℚ) < 20000
    decide +kernel

/-- One after the other, both confirmations commit over what they have read. -/
theorem concurrent_confirmations_umoja :
    Along ConfirmWorld.step ConfirmWorld.CommitsFresh ⟨twoPaymentsDb, twoConfirmations⟩
      [0, 0, 0, 0, 1, 1, 1, 1] := by
  obtain ⟨invoice, hinvoice, -, hiff⟩ := concurrent_confirmations_iff balanced_twoPaymentsDb
    twoConfirmations (by decide) (by decide) (by decide +kernel)
    [0, 0, 0, 0, 1, 1, 1, 1]
  have hpaid : ((run ConfirmWorld.step ⟨twoPaymentsDb, twoConfirmations⟩
      [0, 0, 0, 0, 1, 1, 1, 1]).db.invoices.get? 5).map (fun i => i.amountPaid.val)
        = some 50000 := by decide +kernel
  have hsum : (run ConfirmWorld.step ⟨twoPaymentsDb, twoConfirmations⟩
      [0, 0, 0, 0, 1, 1, 1, 1]).db.confirmedSum 5 = 50000 := by decide +kernel
  rw [hinvoice, Option.map_some, Option.some.injEq] at hpaid
  exact hiff.mp (hpaid.trans hsum.symm)

/-- Both confirmations read the invoice before either commits: 50000 are confirmed and 30000 are
paid. -/
theorem lost_confirmation :
    (run ConfirmWorld.step ⟨twoPaymentsDb, twoConfirmations⟩ [0, 0, 1, 1, 0, 0, 1, 1]).workers.map
        (·.phase) = [.committed, .committed] ∧
      ((run ConfirmWorld.step ⟨twoPaymentsDb, twoConfirmations⟩
        [0, 0, 1, 1, 0, 0, 1, 1]).db.invoices.get? 5).map (fun i => i.amountPaid.val)
          = some 30000 ∧
      (run ConfirmWorld.step ⟨twoPaymentsDb, twoConfirmations⟩
        [0, 0, 1, 1, 0, 0, 1, 1]).db.confirmedSum 5 = 50000 := by
  decide +kernel

end SaccoPlatform.Platform
