import SaccoPlatform.Credit.Operations

/-!
# The rows of a loan

What an operation of the credit module does to the instalments and to the journal concerns loans that
exist: it inserts and updates their instalments and accrues their interest. So a relation that allows
this, with any write to other tables, holds across every operation (`step_admitted`).

`loan_installments.id` is a primary key drawn when a row is inserted. Every operation of the
credit module keeps the ids of a tenant's instalments distinct.
-/

namespace SaccoPlatform

open Lib Session

/-- The relation allows a write to other tables, an entry that is no accrual of a loan outside `own`,
and rows of loans in `own`. -/
structure Tolerates (R : Tables → Tables → Prop) (own : Uuid → Prop) : Prop where
  other : ∀ {t t' : Tables}, t'.installments = t.installments → t'.entries = t.entries →
    t.nextId ≤ t'.nextId → R t t'
  post : ∀ {t t' : Tables} {e : JournalEntry}, t'.installments = t.installments →
    t'.entries = t.entries ++ [e] → t.nextId ≤ t'.nextId →
    (∀ i d, e.idempotencyKey = accrualKey i d → own i) → R t t'
  insert : ∀ {t : Tables} {inst : LoanInstallment}, inst.id = t.nextId → own inst.loanId →
    R t { t with nextId := t.nextId + 1, installments := t.installments ++ [inst] }
  put : ∀ (t : Tables) {row : LoanInstallment}, own row.loanId → R t (t.putInstallment row)
  map : ∀ (t : Tables) {f : LoanInstallment → LoanInstallment},
    (∀ r, (f r).id = r.id ∧ (f r).loanId = r.loanId) →
    R t { t with installments := t.installments.map f }

/-- The row is the same instalment, and as far paid. -/
structure LoanInstallment.SameDue (r r' : LoanInstallment) : Prop where
  id : r'.id = r.id
  loanId : r'.loanId = r.loanId
  dueDate : r'.dueDate = r.dueDate
  status : r'.status = r.status

/-- The row is the instalment after a payment, which marks no row overdue. -/
structure LoanInstallment.Pays (r r' : LoanInstallment) : Prop where
  id : r'.id = r.id
  loanId : r'.loanId = r.loanId
  dueDate : r'.dueDate = r.dueDate
  status : r'.status = r.status ∨ r'.status = .paid ∨ r'.status = .partiallyPaid

/-- What is needed at least: a new row is pending, a payment is made on a row in `Q`, and the arrears task
runs on one of the `days`. Nothing is asked of tables that have a row outside `Q`. -/
structure Admits (R : Tables → Tables → Prop) (own : Uuid → Prop) (Q : LoanInstallment → Prop)
    (days : Date → Prop) : Prop where
  other : ∀ {t t' : Tables}, t'.installments = t.installments → t'.entries = t.entries →
    t.nextId ≤ t'.nextId → R t t'
  post : ∀ {t t' : Tables} {e : JournalEntry}, t'.installments = t.installments →
    t'.entries = t.entries ++ [e] → t.nextId ≤ t'.nextId →
    (∀ i d, e.idempotencyKey = accrualKey i d → own i) → R t t'
  insert : ∀ {t : Tables} {inst : LoanInstallment}, inst.id = t.nextId → own inst.loanId →
    inst.status = .pending → R t { t with nextId := t.nextId + 1, installments := t.installments ++ [inst] }
  put : ∀ (t : Tables) {inst row : LoanInstallment}, own inst.loanId → Q inst → inst.Pays row →
    R t (t.putInstallment row)
  map : ∀ (t : Tables) {f : LoanInstallment → LoanInstallment}, (∀ r : LoanInstallment, r.SameDue (f r)) →
    R t { t with installments := t.installments.map f }
  mark : ∀ (t : Tables) {d : Date} (loanId : Uuid), days d → R t (t.markOverdue d loanId)
  outside : ∀ {t t' : Tables} {inst : LoanInstallment}, inst ∈ t.installments → ¬ Q inst → R t t'

theorem Tolerates.admits {R : Tables → Tables → Prop} {own : Uuid → Prop} (h : Tolerates R own) :
    Admits R own (fun _ => True) fun _ => True where
  other := h.other
  post := h.post
  insert hid hown _ := h.insert hid hown
  put t _ _ hown _ hpays := h.put t (hpays.loanId ▸ hown)
  map t _ hf := h.map t fun r => ⟨(hf r).id, (hf r).loanId⟩
  mark t d loanId _ := by
    apply h.map t
    intro r
    unfold LoanInstallment.markOverdue
    split
    · exact ⟨rfl, rfl⟩
    · exact ⟨rfl, rfl⟩
  outside _ hnot := absurd trivial hnot

/-! ## Calls that insert no instalment -/

section

variable {R : Tables → Tables → Prop} {own : Uuid → Prop} {Q : LoanInstallment → Prop}
  {days : Date → Prop}

/-- A write to other tables. -/
theorem modify_admitted (h : Admits R own Q days) {f : Tables → Tables}
    (hinst : ∀ t, (f t).installments = t.installments) (hentries : ∀ t, (f t).entries = t.entries)
    (hnext : ∀ t, (f t).nextId = t.nextId) : Moves R (modify f : Call Unit) :=
  moves_modify fun t => h.other (hinst t) (hentries t) (hnext t).ge

theorem freshId_admitted (h : Admits R own Q days) : Moves R freshId :=
  moves_freshId fun _ => h.other rfl rfl (Nat.le_succ _)

theorem sameCredit_admitted (h : Admits R own Q days) {α : Type} {x : Call α} (hx : Moves SameCredit x) :
    Moves R x :=
  hx.mono fun _ _ hsame => h.other hsame.installments hsame.entries hsame.nextId

theorem publish_admitted (h : Admits R own Q days) (body : EventBody) : Moves R (publish body) :=
  sameCredit_admitted h (publish_sameCredit body)

theorem saveLoan_admitted (h : Admits R own Q days) (l : Loan) (b : Balances) (status : LoanStatus) :
    Moves R (saveLoan l b status) := by
  apply (neverRaises_saveLoan l b status).moves
  intro t row t' hsave
  obtain ⟨rfl, -⟩ := saveLoan_ok hsave
  exact h.other rfl rfl le_rfl

theorem modifyGuarantees_admitted (h : Admits R own Q days) (f : Guarantees → Guarantees) :
    Moves R (modifyGuarantees f) :=
  modify_admitted h (fun _ => rfl) (fun _ => rfl) (fun _ => rfl)

variable [IsPreorder Tables R]

theorem postJournalEntry_admitted (h : Admits R own Q days) {key : String}
    (hkey : ∀ i d, key = accrualKey i d → own i) (reference description : String) (postedBy : Uuid)
    (lines : List LineIn) : Moves R (postJournalEntry reference description postedBy key lines) := by
  intro t
  refine ⟨?_, ?_⟩
  · intro id t' hok
    rcases postJournalEntry_ok hok with ⟨rfl, -⟩ | hposted
    · exact refl_of R _
    · obtain ⟨e, rfl, -, rfl⟩ := hposted.entry
      exact h.post rfl rfl (Nat.le_succ _) hkey
  · intro e t' hraised
    rw [raisesClean_postJournalEntry _ _ _ _ _ t e t' hraised]
    exact refl_of R t

/-- Only accruals are posted under their keys. -/
theorem creditKey_ne_accrualKey {kind : EntryKind} (hkind : kind ≠ .accrual) (k : String) :
    ∀ i d, creditKey kind k = accrualKey i d → own i :=
  fun _ _ heq => absurd (creditKey_inj heq).1 hkind

theorem payInstallment_admitted (h : Admits R own Q days) (left : ℚ × ℚ) {inst : LoanInstallment}
    (hown : own inst.loanId) (hinst : Q inst) : Moves R (payInstallment left inst) := by
  have hstatus : ∀ (p q : Prop) [Decidable p] [Decidable q] (s : InstallmentStatus),
      (if p then .paid else if q then .partiallyPaid else s) = s ∨
        (if p then .paid else if q then .partiallyPaid else s) = .paid ∨
        (if p then .paid else if q then .partiallyPaid else s) = .partiallyPaid := by
    intro p q _ _ s
    split_ifs
    · exact .inr (.inl rfl)
    · exact .inr (.inr rfl)
    · exact .inl rfl
  unfold payInstallment
  apply moves_bind (moves_writeMoney _)
  intro interestPaid
  apply moves_bind (moves_writeMoney _)
  intro principalPaid
  apply moves_bind
  · exact moves_modify fun t => h.put t hown hinst ⟨rfl, rfl, rfl, hstatus _ _ _⟩
  · intro _
    exact moves_pure _

theorem updateInstallments_admitted (h : Admits R own Q days) {loanId : Uuid} (hown : own loanId)
    (interest principal : ℚ) : Moves R (updateInstallments loanId interest principal) := by
  intro t
  by_cases hall : ∀ inst ∈ t.installments, Q inst
  · unfold updateInstallments
    apply movesFrom_get_bind
    refine (show Moves R _ from ?_) t
    apply moves_bind
    · apply moves_foldEach
      intro left inst hinst
      obtain ⟨hmem, hloan, -⟩ := mem_openInstallments.mp hinst
      unfold allocateRound
      split
      · exact moves_pure left
      · exact payInstallment_admitted h left (hloan ▸ hown) (hall inst hmem)
    · intro _
      exact moves_pure ()
  · -- nothing is asked of these tables
    obtain ⟨inst, hinst, hnot⟩ : ∃ inst ∈ t.installments, ¬ Q inst := by
      simpa using hall
    exact ⟨fun _ _ _ => h.outside hinst hnot, fun _ _ _ => h.outside hinst hnot⟩

theorem insertRepayment_admitted (h : Admits R own Q days) (loanId : Uuid) (amount : ℚ) (a : Allocation)
    (account entryId : Uuid) (key : String) :
    Moves R (insertRepayment loanId amount a account entryId key) := by
  unfold insertRepayment
  iterate 5
    apply moves_bind (moves_writeMoney _)
    intro _
  iterate 5
    apply moves_bind (moves_constraint _ _)
    intro _
  apply moves_bind (freshId_admitted h)
  intro id
  apply moves_bind
  · exact modify_admitted h (fun _ => rfl) (fun _ => rfl) (fun _ => rfl)
  · intro _
    exact moves_pure _

theorem applyRepayment_admitted (h : Admits R own Q days) (ar : LienArithmetic) (r : RepaymentIn)
    {t : Tables} (hloans : ∀ l ∈ t.loans, own l.id) : MovesFrom R (applyRepayment ar r) t := by
  unfold applyRepayment
  apply movesFrom_get_bind
  split
  · exact moves_pure _ t
  · apply movesFrom_orRaise_bind
    intro loan hloan
    have hown : own loan.id := hloans loan (loan?_eq_some hloan).1
    refine (show Moves R _ from ?_) t
    apply moves_bind (moves_require _ _)
    intro _
    apply moves_bind (moves_require _ _)
    intro _
    apply moves_bind (postJournalEntry_admitted h (creditKey_ne_accrualKey (by decide) _) _ _ _ _)
    intro entryId
    apply moves_bind (saveLoan_admitted h _ _ _)
    intro _
    apply moves_bind (modifyGuarantees_admitted h _)
    intro _
    apply moves_bind (insertRepayment_admitted h _ _ _ _ _ _)
    intro id
    apply moves_bind (updateInstallments_admitted h hown _ _)
    intro _
    apply moves_bind (sameCredit_admitted h (debitSavings_sameCredit r entryId))
    intro _
    apply moves_bind (publish_admitted h _)
    intro _
    apply moves_bind (moves_when (publish_admitted h _))
    intro _
    exact moves_pure _

theorem executeWriteOffOn_admitted (h : Admits R own Q days) (loan : Loan) (amount : ℚ) (reason : String)
    (actorId : Uuid) (k code : String) :
    Moves R (executeWriteOffOn loan amount reason actorId (creditKey .writeOff k) code) := by
  apply moves_bind moves_get
  intro t
  apply moves_bind (moves_orRaise _ _)
  intro loanLoss
  apply moves_bind (postJournalEntry_admitted h (creditKey_ne_accrualKey (by decide) _) _ _ _ _)
  intro entryId
  apply moves_bind (saveLoan_admitted h _ _ _)
  intro _
  apply moves_bind (modifyGuarantees_admitted h _)
  intro _
  apply moves_bind (publish_admitted h _)
  intro _
  exact moves_pure _

theorem writeOff_admitted (h : Admits R own Q days) (w : WriteOffIn) : Moves R (writeOff w) := by
  apply moves_bind moves_get
  intro t
  split
  · exact moves_pure _
  · apply moves_bind (moves_orRaise _ _)
    intro loan
    apply moves_bind (moves_require _ _)
    intro _
    apply moves_bind (moves_require _ _)
    intro _
    apply moves_bind (moves_orRaise _ _)
    intro product
    split
    · exact moves_pure _
    · apply moves_bind (executeWriteOffOn_admitted h _ _ _ _ _ _)
      intro _
      exact moves_pure _

theorem executeWriteOff_admitted (h : Admits R own Q days) (payload : WriteOffPayload) :
    Moves R (executeWriteOff payload) := by
  unfold executeWriteOff
  iterate 4
    apply moves_bind (moves_orRaise _ _)
    intro _
  apply moves_bind moves_get
  intro t
  split
  · exact moves_pure _
  · apply moves_bind (moves_orRaise _ _)
    intro loan
    apply moves_bind (executeWriteOffOn_admitted h _ _ _ _ _ _)
    intro _
    exact moves_pure _

theorem recover_admitted (h : Admits R own Q days) (ar : LienArithmetic) (w : RecoverIn) :
    Moves R (recover ar w) := by
  apply moves_bind moves_get
  intro t
  split
  · exact moves_pure _
  · apply moves_bind (moves_orRaise _ _)
    intro loan
    iterate 3
      apply moves_bind (moves_require _ _)
      intro _
    apply moves_bind (moves_orRaise _ _)
    intro loanLossId
    apply moves_bind (postJournalEntry_admitted h (creditKey_ne_accrualKey (by decide) _) _ _ _ _)
    intro entryId
    apply moves_bind (saveLoan_admitted h _ _ _)
    intro _
    apply moves_bind (modifyGuarantees_admitted h _)
    intro _
    apply moves_bind (publish_admitted h _)
    intro _
    exact moves_pure _

/-! ## The tasks and the consumer -/

theorem accrueInstallment_admitted (h : Admits R own Q days) {loanId : Uuid} (hown : own loanId)
    (count : ℕ) (inst : LoanInstallment) : Moves R (accrueInstallment loanId count inst) := by
  apply (neverRaises_accrueInstallment loanId count inst).moves
  intro t n t' hok
  rcases accrueInstallment_ok hok with ⟨-, rfl⟩ | ⟨-, loan, hloan, -, -, hpost⟩
  · exact refl_of R _
  · obtain ⟨-, rfl⟩ := loan?_eq_some hloan
    have hkey : ∀ i d, accrualKey loan.id inst.dueDate = accrualKey i d → own i := by
      intro i d heq
      exact (accrualKey_inj heq).1 ▸ hown
    refine Moves.ok ?_ hpost
    apply moves_bind (postJournalEntry_admitted h hkey _ _ _ _)
    intro _
    apply moves_bind (saveLoan_admitted h _ _ _)
    intro _
    exact moves_pure _

theorem accrueForTenant_admitted (h : Admits R own Q days) (today : Date) {t : Tables}
    (hloans : ∀ l ∈ t.loans, own l.id) : MovesFrom R (accrueForTenant today) t := by
  unfold accrueForTenant
  apply movesFrom_get_bind
  refine (show Moves R _ from ?_) t
  apply moves_foldEach
  intro count loan hloan
  have hown : own loan.id := hloans loan (List.mem_filter.mp hloan).1
  apply moves_bind moves_get
  intro t
  apply moves_foldEach
  intro count inst _
  exact accrueInstallment_admitted h hown count inst

theorem markArrearsForTenant_admitted (h : Admits R own Q days) {today : Date} (hday : days today) :
    Moves R (markArrearsForTenant today) := by
  apply moves_bind moves_get
  intro t
  apply moves_foldEach
  intro count loan _
  refine moves_bind ?_ fun _ => moves_pure _
  apply (neverRaises_savepoint _).moves
  intro t changed t' hok
  rcases savepoint_eq_ok hok with rfl | ⟨b, -, hmark⟩
  · exact refl_of R _
  · rcases markLoan_cases hmark with
      ⟨rfl, -⟩ | ⟨l, row, -, ⟨-, -, -, rfl⟩ | ⟨-, -, -, rfl⟩⟩
    · exact refl_of R _
    · have hmarked : R t (t.markOverdue today loan.id) := h.mark t loan.id hday
      have hput : R (t.markOverdue today loan.id) ((t.markOverdue today loan.id).putLoan row) :=
        h.other rfl rfl le_rfl
      exact trans_of R hmarked hput
    · exact h.other rfl rfl le_rfl

theorem consumeEvent_admitted (h : Admits R own Q days) (t : Tables) (event : OutboxEvent) :
    R t (consumeEvent t event) := by
  rcases commit_cases (processEvent event) t with ⟨done, t', hok, heq⟩ | heq
  · rw [consumeEvent, heq]
    rcases processEvent_ok hok with rfl | ⟨t₁, events, hhandle, rfl⟩
    · exact refl_of R _
    · rcases handleEvent_ok hhandle with rfl | ⟨loanId, f, loan, row, -, -, -, rfl⟩
      · exact h.other rfl rfl le_rfl
      · exact h.other rfl rfl le_rfl
  · rw [consumeEvent, heq]
    exact refl_of R t

/-! ## Calls that insert instalments -/

theorem insertInstallment_admitted (h : Admits R own Q days) {loanId : Uuid} (hown : own loanId)
    (restructuringId : Option Uuid) (row : ScheduledInstallment) :
    Moves R (insertInstallment loanId restructuringId row) := by
  unfold insertInstallment
  apply moves_bind (moves_bind (moves_constraint _ _) fun _ => moves_pure _)
  intro periodNumber
  iterate 3
    apply moves_bind (moves_writeMoney _)
    intro _
  iterate 3
    apply moves_bind (moves_constraint _ _)
    intro _
  -- the row is inserted under the id that was just drawn
  intro t
  refine ⟨?_, ?_⟩
  · intro id t' hok
    simp only [freshId_bind_eq_ok, modify_bind_eq_ok, pure_eq_ok] at hok
    obtain ⟨-, rfl⟩ := hok
    exact @Admits.insert R own Q days h t ⟨t.nextId, loanId, _, _, _, _, _, _, _, _, _, _⟩ rfl hown rfl
  · intro e t' hraised
    exact absurd hraised (neverRaises_bind neverRaises_freshId
      (fun _ => neverRaises_bind (neverRaises_modify _) fun _ => neverRaises_pure _) _ _ _)

theorem openLoan_admitted (h : Admits R own Q days) (ar : LienArithmetic) (today : Date) (d : DisburseIn)
    {loan : Loan} (hown : own loan.id) (account : Uuid) : Moves R (openLoan ar today d loan account) := by
  have hinsert : Moves R (insertLoan loan) := by
    apply moves_bind moves_get
    intro t
    iterate 3
      apply moves_bind (moves_constraint _ _)
      intro _
    exact modify_admitted h (fun _ => rfl) (fun _ => rfl) (fun _ => rfl)
  apply moves_bind hinsert
  intro _
  apply moves_bind (moves_ofExcept _)
  intro schedule
  apply moves_bind (postJournalEntry_admitted h (creditKey_ne_accrualKey (by decide) _) _ _ _ _)
  intro _
  apply moves_bind (moves_orRaise _ _)
  intro last
  apply moves_bind
  · apply moves_forEach
    intro row _
    apply moves_bind (insertInstallment_admitted h hown _ _)
    intro _
    exact moves_pure ()
  intro _
  apply moves_bind
  · apply moves_when
    apply moves_bind (postJournalEntry_admitted h (creditKey_ne_accrualKey (by decide) _) _ _ _ _)
    intro _
    exact moves_pure _
  intro _
  apply moves_bind
  · exact modify_admitted h (fun _ => rfl) (fun _ => rfl) (fun _ => rfl)
  intro _
  apply moves_bind
  · refine (placeLiens_moves ar _ _ _).mono ?_
    rintro t t' ⟨n, gs, ls, hn, rfl⟩
    exact h.other rfl rfl hn
  intro _
  exact modify_admitted h (fun _ => rfl) (fun _ => rfl) (fun _ => rfl)

/-- Ids are drawn upwards. -/
def Draws (t t' : Tables) : Prop := t.nextId ≤ t'.nextId

instance : IsPreorder Tables Draws where
  refl _ := le_refl _
  trans _ _ _ h h' := Nat.le_trans h h'

theorem draws_tolerates : Tolerates Draws fun _ => True where
  other _ _ hnext := hnext
  post _ _ hnext _ := hnext
  insert _ _ := Nat.le_succ _
  put _ _ _ := le_refl _
  map _ _ _ := le_refl _

/-- The loan that a disbursement opens has the id that is drawn next. -/
theorem disburse_admitted (h : Admits R own Q days) {ar : LienArithmetic} {today : Date} {d : DisburseIn}
    {t t' : Tables} {id : Uuid} (hok : disburse ar today d t = .ok id t')
    (hnext : t.nextId < t'.nextId → own t.nextId) : R t t' := by
  rcases disburse_opens hok with
    ⟨rfl, -⟩ | ⟨-, -, application, product, terms, gl, account, reference, -, -, -, -, -, hopen⟩
  · exact refl_of R _
  · have hdraws : Draws { t with nextId := t.nextId + 1, loanNumberSeq := t.loanNumberSeq + 1 } t' :=
      (openLoan_admitted draws_tolerates.admits ar today d trivial account).ok hopen
    have hnext := hnext (Nat.lt_of_succ_le hdraws)
    have hopened : R { t with nextId := t.nextId + 1, loanNumberSeq := t.loanNumberSeq + 1 } t' :=
      (openLoan_admitted h ar today d hnext account).ok hopen
    have hdrawn : R t { t with nextId := t.nextId + 1, loanNumberSeq := t.loanNumberSeq + 1 } :=
      h.other rfl rfl (Nat.le_succ t.nextId)
    exact trans_of R hdrawn hopened

theorem extendTerm_admitted (h : Admits R own Q days) (today : Date) {loan : Loan} (hown : own loan.id)
    (lastPaid : ℤ) (unpaid : List LoanInstallment) (periodsAdded : ℤ) :
    Moves R (extendTerm today loan lastPaid unpaid periodsAdded) := by
  apply moves_bind (moves_ofExcept _)
  intro schedule
  apply moves_bind
  · apply moves_foldEach
    intro ids row _
    apply moves_bind (insertInstallment_admitted h hown _ _)
    intro id
    exact moves_pure _
  · intro ids
    exact moves_pure _

theorem shiftUnpaid_admitted (h : Admits R own Q days) (today : Date) {loan : Loan} (hown : own loan.id)
    (unpaid : List LoanInstallment) (periodsAdded : ℤ) :
    Moves R (shiftUnpaid today loan unpaid periodsAdded) := by
  unfold shiftUnpaid
  apply moves_bind
  · apply moves_foldEach
    intro acc orig _
    apply moves_bind (moves_ofExcept _)
    intro dueDate
    apply moves_bind (insertInstallment_admitted h hown _ _)
    intro id
    exact moves_pure _
  · intro acc
    exact moves_pure _

theorem replaceSchedule_admitted (h : Admits R own Q days) (today : Date) {loan : Loan}
    (hown : own loan.id) (type : String) (periodsAdded : ℤ) :
    Moves R (replaceSchedule today loan type periodsAdded) := by
  apply moves_bind moves_get
  intro t
  apply moves_bind
  · refine moves_modify fun t => h.map t ?_
    intro r
    split
    · exact ⟨rfl, rfl, rfl, rfl⟩
    · exact ⟨rfl, rfl, rfl, rfl⟩
  intro _
  split
  · exact extendTerm_admitted h _ hown _ _ _
  · exact shiftUnpaid_admitted h _ hown _ _

theorem recordRestructuring_admitted (h : Admits R own Q days) (loan : Loan) (type : String)
    (periodsAdded : ℤ) (schedule : NewSchedule) (approvalRequestId : Option Uuid) (key : String) :
    Moves R (recordRestructuring loan type periodsAdded schedule approvalRequestId key) := by
  apply moves_bind (moves_bind (moves_constraint _ _) fun _ => moves_pure _)
  intro termPeriods
  apply moves_bind (saveLoan_admitted h _ _ _)
  intro _
  apply moves_bind
  · unfold insertRestructuring
    split
    · exact moves_abort
    · apply moves_bind (moves_bind (moves_constraint _ _) fun _ => moves_pure _)
      intro _
      apply moves_bind (moves_constraint _ _)
      intro _
      apply moves_bind (freshId_admitted h)
      intro id
      apply moves_bind
      · exact modify_admitted h (fun _ => rfl) (fun _ => rfl) (fun _ => rfl)
      intro _
      exact moves_pure _
  intro id
  apply moves_bind
  · refine moves_modify fun t => h.map t ?_
    intro r
    split
    · exact ⟨rfl, rfl, rfl, rfl⟩
    · exact ⟨rfl, rfl, rfl, rfl⟩
  intro _
  apply moves_bind (publish_admitted h _)
  intro _
  exact moves_pure _

theorem executeRestructureSchedule_admitted (h : Admits R own Q days) (today : Date)
    (payload : RestructurePayload) {t : Tables} (hloans : ∀ l ∈ t.loans, own l.id) :
    MovesFrom R (executeRestructureSchedule today payload) t := by
  unfold executeRestructureSchedule
  iterate 6
    apply movesFrom_orRaise_bind
    intro _ _
  refine MovesFrom.map ?_ fun _ => ()
  unfold executeRestructuringOn
  apply movesFrom_get_bind
  split
  · exact moves_pure _ t
  · apply movesFrom_orRaise_bind
    intro loan hloan
    refine (show Moves R _ from ?_) t
    apply moves_bind (replaceSchedule_admitted h _ (hloans loan (loan?_eq_some hloan).1) _ _)
    intro schedule
    exact recordRestructuring_admitted h _ _ _ _ _ _

/-! ## All operations -/

/-- Every operation is admitted when the loans that exist are in `own`, and the next one, if its id
is drawn. -/
theorem step_admitted (h : Admits R own Q days) (ar : LienArithmetic) {t : Tables} {op : CreditOp}
    (hdays : ∀ d, op = .markArrears d → days d) (hloans : ∀ l ∈ t.loans, own l.id)
    (hnext : t.nextId < (op.step ar t).nextId → own t.nextId)
    (hforeign : ∀ e, op = .foreignEntry e → ∀ i d, e.idempotencyKey = accrualKey i d → own i) :
    R t (op.step ar t) := by
  cases op with
  | disburse today d =>
    refine commit_keeps (refl_of R t) fun id t' hok => disburse_admitted h hok ?_
    intro hdrawn
    apply hnext
    show t.nextId < (commit (disburse ar today d) t).nextId
    rw [commit_of_ok hok]
    exact hdrawn
  | repay r => exact (applyRepayment_admitted h ar r hloans).commit
  | writeOff w => exact moves_commit (writeOff_admitted h w) t
  | executeWriteOff payload => exact moves_commit (moves_attempt (executeWriteOff_admitted h payload)) t
  | recover w => exact moves_commit (recover_admitted h ar w) t
  | accrueInterest today => exact (accrueForTenant_admitted h today hloans).commit
  | markArrears today => exact moves_commit (markArrearsForTenant_admitted h (hdays today rfl)) t
  | restructure today payload =>
    exact (executeRestructureSchedule_admitted h today payload hloans).commit_attempt
  | consumeEvents =>
    rcases commit_cases processTenantEvents t with ⟨n, t', hok, heq⟩ | heq
    · rw [CreditOp.step, heq, processTenantEvents_ok hok]
      exact @run_invariant_of_step _ _ consumeEvent (fun s => R t s)
        (fun s e hs => trans_of R hs (consumeEvent_admitted h s e)) t t.pendingEvents (refl_of R t)
    · rw [CreditOp.step, heq]
      exact refl_of R t
  | feeEvent body => exact moves_commit (publish_admitted h body) t
  | foreignEntry e => exact moves_commit (postJournalEntry_admitted h (hforeign e rfl) _ _ _ _) t
  | reference data => exact h.other rfl rfl le_rfl

theorem step_tolerated (h : Tolerates R own) (ar : LienArithmetic) {t : Tables} {op : CreditOp}
    (hloans : ∀ l ∈ t.loans, own l.id) (hnext : t.nextId < (op.step ar t).nextId → own t.nextId)
    (hforeign : ∀ e, op = .foreignEntry e → ∀ i d, e.idempotencyKey = accrualKey i d → own i) :
    R t (op.step ar t) :=
  step_admitted h.admits ar (fun _ _ => trivial) hloans hnext hforeign

end

/-! ## Primary keys -/

/-- Instalments have distinct ids, all of them drawn. -/
structure Tables.InstallmentIds (t : Tables) : Prop where
  nodup : (t.installments.map (·.id)).Nodup
  drawn : ∀ inst ∈ t.installments, inst.id < t.nextId

/-- The instalments keep distinct ids. -/
def KeepsIds (t t' : Tables) : Prop := t.InstallmentIds → t'.InstallmentIds

instance : IsPreorder Tables KeepsIds where
  refl _ h := h
  trans _ _ _ h h' hids := h' (h hids)

/-- Rows that stand for the same ids, while ids may have been drawn. -/
theorem keepsIds_of_ids {t t' : Tables}
    (hids : t'.installments.map (·.id) = t.installments.map (·.id)) (hnext : t.nextId ≤ t'.nextId) :
    KeepsIds t t' := by
  intro h
  refine ⟨hids ▸ h.nodup, ?_⟩
  intro inst hinst
  have hmem : inst.id ∈ t.installments.map (·.id) := hids ▸ List.mem_map_of_mem hinst
  obtain ⟨inst', hinst', heq⟩ := List.mem_map.mp hmem
  exact heq ▸ (h.drawn inst' hinst').trans_le hnext

theorem keepsIds_tolerates : Tolerates KeepsIds fun _ => True where
  other hsame _ hnext := keepsIds_of_ids (by rw [hsame]) hnext
  post hsame _ hnext _ := keepsIds_of_ids (by rw [hsame]) hnext
  insert := by
    intro t inst hid _ hids
    have hnew : ∀ i ∈ t.installments.map (·.id), i < t.nextId := by
      intro i hi
      obtain ⟨inst', hinst', rfl⟩ := List.mem_map.mp hi
      exact hids.drawn inst' hinst'
    refine ⟨?_, ?_⟩
    · show ((t.installments ++ [inst]).map (·.id)).Nodup
      rw [List.map_append]
      refine hids.nodup.append (List.nodup_singleton _) ?_
      intro i hi hi'
      have heq : i = t.nextId := by simpa [hid] using hi'
      rw [heq] at hi
      exact lt_irrefl _ (hnew _ hi)
    · intro inst' hinst'
      show inst'.id < t.nextId + 1
      rcases List.mem_append.mp hinst' with hinst' | hinst'
      · exact (hids.drawn inst' hinst').trans (Nat.lt_succ_self _)
      · rw [List.mem_singleton.mp hinst', hid]
        exact Nat.lt_succ_self _
  put t row _ := by
    apply keepsIds_of_ids
    · unfold Tables.putInstallment
      rw [List.map_map]
      apply List.map_congr_left
      intro r _
      show (if r.id = row.id then row else r).id = r.id
      split
      · next hid => exact hid.symm
      · rfl
    · exact le_rfl
  map t f hf := by
    apply keepsIds_of_ids
    · show (t.installments.map f).map (·.id) = _
      rw [List.map_map]
      exact List.map_congr_left fun r _ => (hf r).1
    · exact le_rfl

/-- Every operation keeps the ids of the instalments distinct. -/
theorem step_keepsIds (ar : LienArithmetic) (t : Tables) (op : CreditOp) :
    KeepsIds t (op.step ar t) :=
  step_tolerated keepsIds_tolerates ar (fun _ _ => trivial) (fun _ => trivial) fun _ _ _ _ _ => trivial

theorem Tables.Genesis.installmentIds {t : Tables} (h : t.Genesis) : t.InstallmentIds := by
  refine ⟨?_, ?_⟩
  · rw [h.installments]
    exact List.nodup_nil
  · rw [h.installments]
    intro inst hinst
    cases hinst

/-- Along every run the instalments keep distinct ids. -/
theorem run_installmentIds (ar : LienArithmetic) {t : Tables} (h : t.Genesis)
    (ops : List CreditOp) : (run (CreditOp.step ar) t ops).InstallmentIds :=
  run_invariant_of_step (fun t op hids => step_keepsIds ar t op hids) ops h.installmentIds

end SaccoPlatform
