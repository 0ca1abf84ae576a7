import SaccoPlatform.Savings.Withdrawals
import SaccoPlatform.Fees.Collections

/-!
# Idempotency keys

Eight calls of the services start with a guard: when their idempotency key is found, they return
what was found and do nothing. Most of the guards look for the key alone, in a table that other
requests write to as well: the repayments of all loans, the loans of all applications, the share and
the savings transactions of all accounts and kinds, the requests of all savings accounts, the journal
under a prefix. So a key that another request has used makes the call report a success that it did
not have. `deposit` and the system movements of the savings service look for the key and the account.
-/

namespace SaccoPlatform

open Lib Session

/-! ## The calls -/

/-- A call with an idempotency key. -/
inductive KeyedCall where
  | applyRepayment (r : RepaymentIn)
  | writeOff (w : WriteOffIn)
  | recover (w : RecoverIn)
  | disburse (d : DisburseIn)
  | purchaseShares (p : PurchaseIn)
  | collect (c : CollectIn)
  | submitWithdrawal (w : WithdrawIn)
  | executeWithdraw (payload : WithdrawPayload)

/-- What a call returns: it was executed, or submitted for approval. -/
inductive Reply where
  | executed | submitted
deriving DecidableEq, Repr

/-- `LoanWriteOffService.write_off`, with the request of a write-off above the threshold. -/
def submitWriteOff (env : Surroundings) (w : WriteOffIn) : ApprovalCall Reply := do
  match ← onData (writeOff w) with
  | .direct _ => pure .executed
  | .submit payload =>
    let _ ← submit (tenantHooks env) ⟨.ok (.writeOff payload), w.actorId, 2, none⟩
    pure .submitted

def KeyedCall.perform (env : Surroundings) : KeyedCall → ApprovalCall Reply
  | applyRepayment r => onData (SaccoPlatform.applyRepayment env.ar r) >>= fun _ => pure .executed
  | writeOff w => submitWriteOff env w
  | recover w => onData (SaccoPlatform.recover env.ar w) >>= fun _ => pure .executed
  | disburse d => onData (SaccoPlatform.disburse env.ar env.today d) >>= fun _ => pure .executed
  | purchaseShares p => onData (SaccoPlatform.purchaseShares p) >>= fun _ => pure .executed
  | collect c => onData (SaccoPlatform.collect c) >>= fun _ => pure .executed
  | submitWithdrawal w => SaccoPlatform.submitWithdrawal env w >>= fun _ => pure .submitted
  | executeWithdraw payload =>
    onData (SaccoPlatform.executeWithdraw payload) >>= fun _ => pure .executed

/-- Every key of the payload is there and parses. -/
def WithdrawPayload.complete (payload : WithdrawPayload) : Bool :=
  payload.savingsAccountId.isSome && payload.amount.isSome && payload.paymentAccountId.isSome &&
    payload.liabilityAccountId.isSome && payload.postedBy.isSome && payload.idempotencyKey.isSome

theorem WithdrawPayload.complete_iff (payload : WithdrawPayload) : payload.complete = true ↔
    ∃ accountId amount paymentId liabilityId postedBy key, payload =
      ⟨some accountId, some amount, some paymentId, some liabilityId, some postedBy, some key⟩ := by
  obtain ⟨accountId, amount, paymentId, liabilityId, postedBy, key⟩ := payload
  cases accountId <;> cases amount <;> cases paymentId <;> cases liabilityId <;> cases postedBy <;>
    cases key <;> simp [WithdrawPayload.complete]

/-- The guard of the call is reached and finds the key. -/
def KeyedCall.found (db : ApprovalDb Tables Operation) : KeyedCall → Bool
  | applyRepayment r => (db.data.repayment? r.idempotencyKey).isSome
  | writeOff w => (db.data.entry? (creditKey .writeOff w.idempotencyKey)).isSome
  | recover w => (db.data.entry? (creditKey .recovery w.idempotencyKey)).isSome
  | disburse d => (db.data.loanByKey? d.idempotencyKey).isSome
  | purchaseShares p =>
    (db.data.shareTransactions.find? (·.idempotencyKey = p.idempotencyKey)).isSome
  | collect c => (db.data.feeCollections.find? (·.idempotencyKey = c.idempotencyKey)).isSome
  | submitWithdrawal w =>
    (db.data.savingsAccount? w.savingsAccountId).isSome &&
      (db.requests.find? (·.operation.withdrawKey? = some w.idempotencyKey)).isSome
  | executeWithdraw payload =>
    payload.complete &&
      (db.data.savingsTransactions.find? (some ·.idempotencyKey = payload.idempotencyKey)).isSome

/-- What the call returns then. -/
def KeyedCall.foundReply : KeyedCall → Reply
  | submitWithdrawal _ => .submitted
  | _ => .executed

/-! ## Their records -/

/-- The journal has an entry with this reference under the key, all of it for the loan. -/
def Tables.LoanEntry (t : Tables) (reference key : String) (loanId : Uuid) : Prop :=
  ∃ e ∈ t.entries, e.idempotencyKey = key ∧ e.reference = reference ∧ e.lines ≠ [] ∧
    ∀ l ∈ e.lines, l.subLedgerType = some "loan" ∧ l.subLedgerId = some loanId

/-- There is a record of this kind of operation for the target of the call, under its key. -/
def KeyedCall.Recorded (db : ApprovalDb Tables Operation) : KeyedCall → Reply → Prop
  | applyRepayment r, _ =>
    ∃ rp ∈ db.data.repayments, rp.idempotencyKey = r.idempotencyKey ∧ rp.loanId = r.loanId
  | writeOff w, .executed =>
    db.data.LoanEntry s!"LOAN-WO-{w.loanId}" (creditKey .writeOff w.idempotencyKey) w.loanId
  | writeOff w, .submitted =>
    ∃ q ∈ db.requests, ∃ payload, q.operation = .writeOff payload ∧
      payload.idempotencyKey = some w.idempotencyKey ∧ payload.loanId = some w.loanId
  | recover w, _ =>
    db.data.LoanEntry s!"LOAN-REC-{w.loanId}" (creditKey .recovery w.idempotencyKey) w.loanId
  | disburse d, _ =>
    ∃ l ∈ db.data.loans, l.idempotencyKey = d.idempotencyKey ∧
      l.loanApplicationId = d.loanApplicationId
  | purchaseShares p, _ =>
    ∃ tx ∈ db.data.shareTransactions, tx.idempotencyKey = p.idempotencyKey ∧
      tx.transactionType = .purchase ∧ tx.shareAccountId = p.shareAccountId
  | collect c, _ =>
    ∃ row ∈ db.data.feeCollections, row.idempotencyKey = c.idempotencyKey ∧
      row.feeAssessmentId = c.assessmentId
  | submitWithdrawal w, _ =>
    ∃ q ∈ db.requests, ∃ payload, q.operation = .withdraw payload ∧
      payload.idempotencyKey = some w.idempotencyKey ∧
      payload.savingsAccountId = some w.savingsAccountId
  | executeWithdraw payload, _ =>
    ∃ tx ∈ db.data.savingsTransactions, some tx.idempotencyKey = payload.idempotencyKey ∧
      tx.transactionType = .withdrawal ∧ some tx.savingsAccountId = payload.savingsAccountId

/-! ## A key that is found -/

section

variable {t t' : Tables} {db db' : ApprovalDb Tables Operation} {env : Surroundings}

theorem onData_executed {α : Type} {x : Call α} {a : α} (h : x db.data = .ok a db.data) :
    (onData x >>= fun _ => pure Reply.executed : ApprovalCall Reply) db = .ok .executed db :=
  onData_bind_eq_ok.mpr ⟨a, db.data, h, rfl⟩

/-- A call whose key is found does nothing and reports a success. -/
theorem KeyedCall.perform_of_found {c : KeyedCall} (h : c.found db = true) :
    c.perform env db = .ok c.foundReply db := by
  cases c with
  | applyRepayment r =>
    obtain ⟨existing, hfind⟩ := Option.isSome_iff_exists.mp h
    refine onData_executed (a := existing.id) ?_
    simp only [SaccoPlatform.applyRepayment, get_bind_eq_ok, hfind, pure_eq_ok, and_self]
  | writeOff w =>
    obtain ⟨existing, hfind⟩ := Option.isSome_iff_exists.mp h
    refine onData_bind_eq_ok.mpr ⟨.direct existing.id, db.data, ?_, rfl⟩
    simp only [SaccoPlatform.writeOff, get_bind_eq_ok, hfind, pure_eq_ok, and_self]
  | recover w =>
    obtain ⟨existing, hfind⟩ := Option.isSome_iff_exists.mp h
    refine onData_executed (a := existing.id) ?_
    simp only [SaccoPlatform.recover, get_bind_eq_ok, hfind, pure_eq_ok, and_self]
  | disburse d =>
    obtain ⟨existing, hfind⟩ := Option.isSome_iff_exists.mp h
    refine onData_executed (a := existing.id) ?_
    simp only [SaccoPlatform.disburse, get_bind_eq_ok, hfind, pure_eq_ok, and_self]
  | purchaseShares p =>
    obtain ⟨existing, hfind⟩ := Option.isSome_iff_exists.mp h
    refine onData_executed (a := existing.id) (bind_eq_ok.mpr ⟨.inl existing.id, db.data, ?_, rfl⟩)
    simp only [checkPurchase, get_bind_eq_ok, hfind, pure_eq_ok, and_self]
  | collect c =>
    obtain ⟨existing, hfind⟩ := Option.isSome_iff_exists.mp h
    refine onData_executed (a := existing.id) ?_
    simp only [SaccoPlatform.collect, get_bind_eq_ok, hfind, pure_eq_ok, and_self]
  | submitWithdrawal w =>
    obtain ⟨haccount, hrequest⟩ := Bool.and_eq_true_iff.mp h
    obtain ⟨account, haccount⟩ := Option.isSome_iff_exists.mp haccount
    obtain ⟨existing, hfind⟩ := Option.isSome_iff_exists.mp hrequest
    refine bind_eq_ok.mpr ⟨existing.id, db, ?_, rfl⟩
    refine onData_bind_eq_ok.mpr ⟨account, db.data, ?_, ?_⟩
    · simp only [getSavingsAccount, get_bind_eq_ok, orRaise_eq_ok, haccount, and_self]
    · simp only [get_bind_eq_ok, hfind, pure_eq_ok, and_self]
  | executeWithdraw payload =>
    obtain ⟨hcomplete, hused⟩ := Bool.and_eq_true_iff.mp h
    obtain ⟨accountId, amount, paymentId, liabilityId, postedBy, key, rfl⟩ :=
      payload.complete_iff.mp hcomplete
    obtain ⟨existing, hfind⟩ := Option.isSome_iff_exists.mp hused
    simp only [Option.some.injEq] at hfind
    refine onData_executed (a := ()) ?_
    simp only [SaccoPlatform.executeWithdraw, orRaise_bind_eq_ok, Option.some.injEq,
      exists_eq_left', get_bind_eq_ok, hfind, pure_eq_ok, and_self]

/-! ## A key that is not found -/

theorem tagged_of_stored {lines : List LineIn} {rows : List JournalLine} {loanId : Uuid}
    (h : List.Forall₂ Stored lines rows) (htagged : ∀ l ∈ lines, l.TaggedWith loanId) :
    ∀ row ∈ rows, row.subLedgerType = some "loan" ∧ row.subLedgerId = some loanId := by
  induction h with
  | nil => exact fun _ => nofun
  | cons hstored _ ih =>
    intro row' hrow'
    rcases List.mem_cons.mp hrow' with rfl | hmem
    · have hl := htagged _ List.mem_cons_self
      exact ⟨hstored.subLedgerType.trans hl.1, hstored.subLedgerId.trans hl.2⟩
    · exact ih (fun l' hl' => htagged l' (List.mem_cons_of_mem _ hl')) row' hmem

theorem Tables.LoanEntry.of_posted {reference description key : String} {postedBy id : Uuid}
    {lines : List LineIn} {loanId : Uuid} {t₁ : Tables} (hkey : t.entry? key = none)
    (hlines : lines ≠ []) (htagged : ∀ l ∈ lines, l.TaggedWith loanId)
    (h : postJournalEntry reference description postedBy key lines t = .ok id t₁)
    (hentries : t'.entries = t₁.entries) : t'.LoanEntry reference key loanId := by
  obtain ⟨e, hekey, href, hstored, happ⟩ := postJournalEntry_entry hkey h
  refine ⟨e, ?_, hekey, href, ?_, tagged_of_stored hstored htagged⟩
  · rw [hentries, happ]
    exact List.mem_append_right _ (List.mem_singleton_self e)
  · intro hnil
    rw [hnil, List.forall₂_nil_right_iff] at hstored
    exact hlines hstored

theorem applyRepayment_recorded {r : RepaymentIn} {ar : LienArithmetic} {id : Uuid}
    (hkey : t.repayment? r.idempotencyKey = none) (h : applyRepayment ar r t = .ok id t') :
    ∃ rp ∈ t'.repayments, rp.idempotencyKey = r.idempotencyKey ∧ rp.loanId = r.loanId := by
  simp only [applyRepayment, get_bind_eq_ok, hkey, orRaise_bind_eq_ok, require_bind_eq_ok] at h
  obtain ⟨loan, hloan, -, -, hrest⟩ := h
  obtain ⟨entryId, t₁, -, hrecord⟩ := bind_eq_ok.mp hrest
  obtain ⟨row, hrecorded⟩ := recordRepayment_ok hrecord
  obtain ⟨rp, hrp, hrepayments⟩ := hrecorded.repayments
  refine ⟨rp, ?_, hrp.idempotencyKey, ?_⟩
  · rw [hrepayments]
    exact List.mem_append_right _ (List.mem_singleton_self rp)
  · rw [hrp.loanId, (loan?_eq_some hloan).2]

theorem executeWriteOffOn_recorded {loan : Loan} {amount : ℚ} {reason key code : String}
    {actorId id : Uuid} (hkey : t.entry? key = none)
    (h : executeWriteOffOn loan amount reason actorId key code t = .ok id t') :
    t'.LoanEntry s!"LOAN-WO-{loan.id}" key loan.id := by
  simp only [executeWriteOffOn, get_bind_eq_ok, orRaise_bind_eq_ok] at h
  obtain ⟨loanLoss, -, hrest⟩ := h
  obtain ⟨entryId, t₁, hpost, hsave⟩ := bind_eq_ok.mp hrest
  obtain ⟨row, hrecorded, -⟩ := saveAndPublish_ok hsave
  refine .of_posted hkey (List.cons_ne_nil _ _) ?_ hpost hrecorded.entries
  simp

theorem submitWriteOff_recorded {w : WriteOffIn} {reply : Reply}
    (hkey : db.data.entry? (creditKey .writeOff w.idempotencyKey) = none)
    (h : submitWriteOff env w db = .ok reply db') : (KeyedCall.writeOff w).Recorded db' reply := by
  obtain ⟨res, data, hres, hreply⟩ := onData_bind_eq_ok.mp h
  simp only [writeOff, get_bind_eq_ok, hkey, orRaise_bind_eq_ok, require_bind_eq_ok] at hres
  obtain ⟨loan, hloan, -, -, product, -, hres⟩ := hres
  by_cases hlarge : product.writeOffThreshold.val < w.amount
  · rw [if_pos hlarge] at hres
    obtain ⟨rfl, rfl⟩ := pure_eq_ok.mp hres
    obtain ⟨id, db₁, hsubmit, hpure⟩ := bind_eq_ok.mp hreply
    obtain ⟨rfl, rfl⟩ := pure_eq_ok.mp hpure
    obtain ⟨operation, data, hoperation, -, -, rfl⟩ := submit_ok hsubmit
    cases hoperation
    exact ⟨_, List.mem_append_right _ (List.mem_singleton_self _), _, rfl, rfl, rfl⟩
  · rw [if_neg hlarge] at hres
    obtain ⟨id, t₁, hexecute, hpure⟩ := bind_eq_ok.mp hres
    obtain ⟨rfl, rfl⟩ := pure_eq_ok.mp hpure
    obtain ⟨rfl, rfl⟩ := pure_eq_ok.mp hreply
    have hentry := executeWriteOffOn_recorded hkey hexecute
    rw [(loan?_eq_some hloan).2] at hentry
    exact hentry

theorem recover_recorded {w : RecoverIn} {ar : LienArithmetic} {id : Uuid}
    (hkey : t.entry? (creditKey .recovery w.idempotencyKey) = none)
    (h : recover ar w t = .ok id t') :
    t'.LoanEntry s!"LOAN-REC-{w.loanId}" (creditKey .recovery w.idempotencyKey) w.loanId := by
  simp only [recover, get_bind_eq_ok, hkey, orRaise_bind_eq_ok, require_bind_eq_ok] at h
  obtain ⟨loan, hloan, -, -, -, loanLossId, -, hrest⟩ := h
  obtain ⟨entryId, t₁, hpost, hsave⟩ := bind_eq_ok.mp hrest
  obtain ⟨row, hrecorded, -⟩ := saveAndPublish_ok hsave
  rw [← (loan?_eq_some hloan).2]
  refine .of_posted hkey (List.cons_ne_nil _ _) ?_ hpost hrecorded.entries
  simp

/-- The loans, which the rest of a disbursement leaves alone. -/
def SameLoans (t t' : Tables) : Prop := t'.loans = t.loans

instance : Std.Refl SameLoans := ⟨fun _ => rfl⟩

instance : IsPreorder Tables SameLoans where
  trans _ _ _ h h' := h'.trans h

theorem openLoan_recorded {ar : LienArithmetic} {today : Date} {d : DisburseIn} {loan : Loan}
    {account : Uuid} {u : Unit} (h : openLoan ar today d loan account t = .ok u t') :
    ∃ maturity, loan.disbursed maturity ∈ t'.loans := by
  have hledger : ∀ (reference description : String) (postedBy : Uuid) (key : String)
      (lines : List LineIn),
      Moves SameLoans (postJournalEntry reference description postedBy key lines) :=
    postJournalEntry_writes fun _ _ _ _ => rfl
  have hinstallments : ∀ schedule, Moves SameLoans
      (forEach (fun row => do let _ ← insertInstallment loan.id none row) schedule) := by
    intro schedule
    apply moves_forEach
    intro row _
    apply moves_bind
    · apply (insertInstallment_moves loan.id none row).mono
      rintro t t' ⟨n, rows, -, rfl⟩
      rfl
    · intro _
      exact moves_pure ()
  have hinterest : ∀ schedule, Moves SameLoans
      (bookFlatInterest loan d.actorId d.idempotencyKey schedule) := by
    intro schedule
    apply moves_when
    apply moves_bind (hledger _ _ _ _ _)
    intro _
    exact moves_pure ()
  unfold openLoan at h
  obtain ⟨_, t₁, hinsert, h⟩ := bind_eq_ok.mp h
  obtain ⟨-, -, rfl⟩ := insertLoan_ok hinsert
  obtain ⟨schedule, -, h⟩ := ofExcept_bind_eq_ok.mp h
  obtain ⟨_, t₂, hpost, h⟩ := bind_eq_ok.mp h
  obtain ⟨last, -, h⟩ := orRaise_bind_eq_ok.mp h
  obtain ⟨_, t₃, hrows, h⟩ := bind_eq_ok.mp h
  obtain ⟨_, t₄, hbook, h⟩ := bind_eq_ok.mp h
  have hloans : t₄.loans = t.loans ++ [loan] :=
    (((hinterest schedule).ok hbook).trans ((hinstallments schedule).ok hrows)).trans
      ((hledger _ _ _ _ _).ok hpost)
  simp only [modify_bind_eq_ok] at h
  obtain ⟨_, t₅, hplace, h⟩ := bind_eq_ok.mp h
  obtain ⟨n, gs, ls, -, rfl⟩ := (placeLiens_moves _ _ _ _).ok hplace
  rw [modify_eq_ok] at h
  subst h
  refine ⟨last.dueDate, ?_⟩
  show loan.disbursed last.dueDate ∈ t₄.loans.map _
  rw [hloans]
  refine List.mem_map.mpr ⟨loan, List.mem_append_right _ (List.mem_singleton_self loan), ?_⟩
  exact if_pos rfl

theorem disburse_recorded {ar : LienArithmetic} {today : Date} {d : DisburseIn} {id : Uuid}
    (hkey : t.loanByKey? d.idempotencyKey = none) (h : disburse ar today d t = .ok id t') :
    ∃ l ∈ t'.loans, l.idempotencyKey = d.idempotencyKey ∧
      l.loanApplicationId = d.loanApplicationId := by
  simp only [disburse, get_bind_eq_ok, hkey, orRaise_bind_eq_ok, require_bind_eq_ok] at h
  obtain ⟨application, happlication, -, product, -, terms, -, h⟩ := h
  obtain ⟨gl, t₁, -, h⟩ := bind_eq_ok.mp h
  simp only [require_bind_eq_ok, orRaise_bind_eq_ok] at h
  obtain ⟨-, account, -, h⟩ := h
  obtain ⟨reference, t₂, -, h⟩ := bind_eq_ok.mp h
  rw [freshId_bind_eq_ok] at h
  obtain ⟨_, t₃, hopen, h⟩ := bind_eq_ok.mp h
  obtain ⟨-, rfl⟩ := pure_eq_ok.mp h
  obtain ⟨maturity, hloan⟩ := openLoan_recorded hopen
  have hid : application.id = d.loanApplicationId := by
    simpa using List.find?_some happlication
  exact ⟨_, hloan, rfl, hid⟩

theorem purchaseShares_recorded {p : PurchaseIn} {id : Uuid}
    (hkey : t.shareTransactions.find? (·.idempotencyKey = p.idempotencyKey) = none)
    (h : purchaseShares p t = .ok id t') :
    ∃ tx ∈ t'.shareTransactions, tx.idempotencyKey = p.idempotencyKey ∧
      tx.transactionType = .purchase ∧ tx.shareAccountId = p.shareAccountId := by
  obtain ⟨found, t₁, hcheck, hwrite⟩ := bind_eq_ok.mp h
  obtain rfl := checkPurchase_ok hcheck
  cases found with
  | inl existing =>
    -- the guard found nothing
    simp only [checkPurchase, get_bind_eq_ok, hkey] at hcheck
    obtain ⟨⟨account, product⟩, t₂, -, hrest⟩ := bind_eq_ok.mp hcheck
    simp only [require_bind_eq_ok, pure_eq_ok] at hrest
    cases hrest.2.2.2.1
  | inr product =>
    obtain ⟨tx, haccount, htype, -, htxkey, hrows⟩ := (writePurchase_ok hwrite).row
    refine ⟨tx, ?_, htxkey, htype, haccount⟩
    rw [hrows]
    exact List.mem_append_right _ (List.mem_singleton_self tx)

theorem collect_recorded {c : CollectIn} {id : Uuid}
    (hkey : t.feeCollections.find? (·.idempotencyKey = c.idempotencyKey) = none)
    (h : collect c t = .ok id t') :
    ∃ row ∈ t'.feeCollections, row.idempotencyKey = c.idempotencyKey ∧
      row.feeAssessmentId = c.assessmentId := by
  simp only [collect, get_bind_eq_ok, hkey, orRaise_bind_eq_ok, require_bind_eq_ok] at h
  obtain ⟨a, -, -, _, -, _, -, hrest⟩ := h
  obtain ⟨entryId, t₁, -, hwrite⟩ := bind_eq_ok.mp hrest
  obtain ⟨_, t₂, hinsert, hput⟩ := bind_eq_ok.mp hwrite
  simp only [modify_bind_eq_ok, pure_eq_ok] at hput
  obtain ⟨-, rfl⟩ := hput
  obtain ⟨-, -, row, hassessment, -, hrowkey, rfl⟩ := insertFeeCollection_ok hinsert
  exact ⟨row, List.mem_append_right _ (List.mem_singleton_self row), hrowkey, hassessment⟩

theorem submitWithdrawal_recorded {w : WithdrawIn} {id : Uuid}
    (hnew : (KeyedCall.submitWithdrawal w).found db = false)
    (h : submitWithdrawal env w db = .ok id db') :
    ∃ q ∈ db'.requests, ∃ payload, q.operation = .withdraw payload ∧
      payload.idempotencyKey = some w.idempotencyKey ∧
      payload.savingsAccountId = some w.savingsAccountId := by
  rcases submitWithdrawal_ok h with ⟨q, hq, hkey, -, -⟩ | ⟨account, -, -, rfl⟩
  · -- the account was found, so the guard was reached
    obtain ⟨account, data, haccount, -⟩ := onData_bind_eq_ok.mp h
    obtain ⟨haccount, -⟩ := getSavingsAccount_ok haccount
    have hfound : (KeyedCall.submitWithdrawal w).found db = true := by
      simp only [KeyedCall.found, haccount, Option.isSome_some, Bool.true_and, List.find?_isSome]
      exact ⟨q, hq, by simpa using hkey⟩
    rw [hnew] at hfound
    cases hfound
  · exact ⟨_, List.mem_append_right _ (List.mem_singleton_self _), _, rfl, rfl, rfl⟩

theorem executeWithdraw_recorded {payload : WithdrawPayload} {u : Unit}
    (hnew : (KeyedCall.executeWithdraw payload).found db = false)
    (h : executeWithdraw payload db.data = .ok u t') :
    ∃ tx ∈ t'.savingsTransactions, some tx.idempotencyKey = payload.idempotencyKey ∧
      tx.transactionType = .withdrawal ∧ some tx.savingsAccountId = payload.savingsAccountId := by
  rcases executeWithdraw_ok h with ⟨-, key, hkey, tx, htx, htxkey⟩ |
    ⟨accountId, amount, paymentId, liabilityId, key, haccount, -, -, -, hkey, -, hrecorded⟩
  · have hfound : (KeyedCall.executeWithdraw payload).found db = true := by
      simp only [executeWithdraw, orRaise_bind_eq_ok] at h
      obtain ⟨_, h₁, _, h₂, _, h₃, _, h₄, _, h₅, _, h₆, -⟩ := h
      simp only [KeyedCall.found, WithdrawPayload.complete, h₁, h₂, h₃, h₄, h₅, hkey,
        Option.isSome_some, Bool.and_self, Bool.true_and, List.find?_isSome]
      exact ⟨tx, htx, by simpa using htxkey⟩
    rw [hnew] at hfound
    cases hfound
  · obtain ⟨tx, htxaccount, htype, -, htxkey, hrows⟩ := hrecorded.row
    refine ⟨tx, ?_, ?_, htype, ?_⟩
    · rw [hrows]
      exact List.mem_append_right _ (List.mem_singleton_self tx)
    · rw [htxkey, hkey]
    · rw [htxaccount, haccount]

theorem onData_executed_ok {α : Type} {x : Call α} {reply : Reply}
    (h : (onData x >>= fun _ => pure Reply.executed : ApprovalCall Reply) db = .ok reply db') :
    ∃ a, x db.data = .ok a db'.data := by
  obtain ⟨a, data, hx, hpure⟩ := onData_bind_eq_ok.mp h
  obtain ⟨-, rfl⟩ := pure_eq_ok.mp hpure
  exact ⟨a, hx⟩

/-- A call whose key is not found leaves a record when it returns. -/
theorem KeyedCall.recorded_of_not_found {c : KeyedCall} (hnew : c.found db = false) {reply : Reply}
    (h : c.perform env db = .ok reply db') : c.Recorded db' reply := by
  have hnone : ∀ {α : Type} {o : Option α}, o.isSome = false → o = none := by
    intro α o ho
    simpa using ho
  cases c with
  | applyRepayment r =>
    obtain ⟨id, hcall⟩ := onData_executed_ok h
    exact applyRepayment_recorded (hnone hnew) hcall
  | writeOff w => exact submitWriteOff_recorded (hnone hnew) h
  | recover w =>
    obtain ⟨id, hcall⟩ := onData_executed_ok h
    exact recover_recorded (hnone hnew) hcall
  | disburse d =>
    obtain ⟨id, hcall⟩ := onData_executed_ok h
    exact disburse_recorded (hnone hnew) hcall
  | purchaseShares p =>
    obtain ⟨id, hcall⟩ := onData_executed_ok h
    exact purchaseShares_recorded (hnone hnew) hcall
  | collect c =>
    obtain ⟨id, hcall⟩ := onData_executed_ok h
    exact collect_recorded (hnone hnew) hcall
  | submitWithdrawal w =>
    obtain ⟨id, db₁, hcall, hpure⟩ := bind_eq_ok.mp h
    obtain ⟨-, rfl⟩ := pure_eq_ok.mp hpure
    exact submitWithdrawal_recorded hnew hcall
  | executeWithdraw payload =>
    obtain ⟨u, hcall⟩ := onData_executed_ok h
    exact executeWithdraw_recorded hnew hcall

/-- A call that returns leaves a record for its target, if and only if its key is not found or was
found for this target. -/
theorem KeyedCall.success_recorded_iff {c : KeyedCall} :
    (∀ reply db', c.perform env db = .ok reply db' → c.Recorded db' reply) ↔
      (c.found db = true → c.Recorded db c.foundReply) := by
  constructor
  · intro hrecorded hfound
    exact hrecorded _ _ (c.perform_of_found hfound)
  · intro hown reply db' h
    cases hfound : c.found db with
    | false => exact c.recorded_of_not_found hfound h
    | true =>
      rw [c.perform_of_found hfound] at h
      cases h
      exact hown hfound

end

/-! ## Runs -/

/-- A transaction: a call with a key in its surroundings, or any other one, which may leave the
database in any state. -/
inductive KeyedOp where
  | call (env : Surroundings) (c : KeyedCall)
  | elsewhere (db : ApprovalDb Tables Operation)

def KeyedOp.step (db : ApprovalDb Tables Operation) : KeyedOp → ApprovalDb Tables Operation
  | call env c => commit (c.perform env) db
  | elsewhere db' => db'

/-- The call reports no success without a record of it. -/
def KeyedOp.Honest (db : ApprovalDb Tables Operation) : KeyedOp → Prop
  | call env c => ∀ reply db', c.perform env db = .ok reply db' → c.Recorded db' reply
  | elsewhere _ => True

/-- The key of the call is not found, or it stands for the same target and kind of operation. -/
def KeyedOp.OwnKey (db : ApprovalDb Tables Operation) : KeyedOp → Prop
  | call _ c => c.found db = true → c.Recorded db c.foundReply
  | elsewhere _ => True

/-- In every run, the calls report only what they did if and only if none of them is made with a key
that its guard finds for another target or another kind of operation. -/
theorem keyed_calls_honest_iff (db : ApprovalDb Tables Operation) (ops : List KeyedOp) :
    Along KeyedOp.step KeyedOp.Honest db ops ↔ Along KeyedOp.step KeyedOp.OwnKey db ops := by
  have hstep : ∀ db op, KeyedOp.Honest db op ↔ KeyedOp.OwnKey db op := by
    intro db op
    cases op with
    | call env c => exact KeyedCall.success_recorded_iff
    | elsewhere db' => exact Iff.rfl
  exact ⟨Along.mono fun db op => (hstep db op).mp, Along.mono fun db op => (hstep db op).mpr⟩

/-- 1000 are deposited under a key, and a withdrawal of 400 from the account is submitted under the
same key. -/
def depositKeyReused : List (Surroundings × SavingsOp) :=
  [.deposit ⟨3, 1000, 1, 7, "k"⟩, .submitWithdrawal ⟨3, 400, 1, 7, "k"⟩].map (sampleSurroundings, ·)

/-- The sample loan with a repayment under a key. -/
def repaidTenant : ApprovalDb Tables Operation :=
  ⟨run (CreditOp.step .python) (sampleTenant .reducingBalance)
    [sampleDisbursement, .repay (sampleRepayment 100 "k")], 0, [], [], []⟩

/-- The withdrawal is approved and executed, and nothing is withdrawn: `execute_withdraw` takes the
deposit for it. And under the key of the repayment, one of a loan that does not even exist is
accepted. -/
theorem keyed_calls_report_others :
    (SavingsOp.step (run SavingsOp.step savingsTenant depositKeyReused) (approvedBy8 0)).requests.map
        (·.status) = [.executed] ∧
      (SavingsOp.step (run SavingsOp.step savingsTenant depositKeyReused)
        (approvedBy8 0)).data.savingsBalance 3 = 1000 ∧
      ¬ KeyedOp.Honest (run SavingsOp.step savingsTenant depositKeyReused) (.call sampleSurroundings
        (.executeWithdraw ⟨some 3, some 400, some 1, some 2, some 7, some "k"⟩)) ∧
      ¬ KeyedOp.Honest repaidTenant (.call sampleSurroundings
        (.applyRepayment ⟨12, 100, 5, 30, none, "k", none⟩)) := by
  refine ⟨by decide +kernel, by decide +kernel, ?_, ?_⟩
  · intro hhonest
    have hreply := hhonest .executed (run SavingsOp.step savingsTenant depositKeyReused)
      (KeyedCall.perform_of_found (by decide +kernel))
    revert hreply
    unfold KeyedCall.Recorded
    decide +kernel
  · intro hhonest
    have hreply := hhonest .executed repaidTenant (KeyedCall.perform_of_found (by decide +kernel))
    revert hreply
    unfold KeyedCall.Recorded
    decide +kernel

end SaccoPlatform
