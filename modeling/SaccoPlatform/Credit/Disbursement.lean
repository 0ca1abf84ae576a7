import SaccoPlatform.Credit.Balances
import SaccoPlatform.Credit.Guarantor
import SaccoPlatform.Credit.WriteOff

/-!
# Disbursement

`LoanDisbursementService.disburse` (`app/modules/credit/services/disbursement.py`): an
approved application becomes a loan with its schedule. The principal is posted at once. Flat
interest is posted at once as well, for the whole term; the loan's `accrued_interest` stays
at zero. Reducing-balance interest is left to the accrual task.
-/

namespace SaccoPlatform

open Lib Session

def Tables.application? (t : Tables) (id : Uuid) : Option LoanApplication :=
  t.applications.find? (·.id = id)

def Tables.loanByKey? (t : Tables) (key : String) : Option Loan :=
  t.loans.find? (·.idempotencyKey = key)

def ApplicationStatus.text : ApplicationStatus → String
  | draft => "draft"
  | submitted => "submitted"
  | underReview => "under_review"
  | approved => "approved"
  | rejected => "rejected"
  | withdrawn => "withdrawn"
  | cancelled => "cancelled"
  | disbursed => "disbursed"

/-- `approved_amount` and `approved_term_periods`, when both are set. -/
def LoanApplication.approvedTerms (application : LoanApplication) : Option (Money × ℤ) :=
  match application.approvedAmount, application.approvedTermPeriods with
  | some amount, some term => some (amount, term)
  | _, _ => none

/-- The accounts of a loan, resolved from the codes of its product. -/
structure GlAccounts where
  principalReceivable : Uuid
  interestReceivable : Uuid
  interestIncome : Uuid
  loanLossExpense : Option Uuid
deriving DecidableEq, Repr

/-- A required account. -/
def resolveAccount (code : String) : Call Uuid := do
  let t ← get
  let account ← orRaise (t.account? code) (.valueError s!"GL account '{code}' not found")
  pure account.id

/-- Step 3. The loan loss account is optional, and an empty code counts as none. -/
def resolveAccounts (product : LoanProduct) : Call GlAccounts := do
  let principalReceivable ← resolveAccount product.glPrincipalReceivableCode
  let interestReceivable ← resolveAccount product.glInterestReceivableCode
  let interestIncome ← resolveAccount product.glInterestIncomeCode
  let t ← get
  let loanLoss := (product.glLoanLossExpenseCode.filter (· ≠ "")).bind t.account?
  pure ⟨principalReceivable, interestReceivable, interestIncome, loanLoss.map (·.id)⟩

/-- Step 4: `LN-YYYYMM-NNNNNN` with the next value of `loan_number_seq`. -/
def nextLoanReference (today : Date) : Call String := do
  let t ← get
  modify fun t => { t with loanNumberSeq := t.loanNumberSeq + 1 }
  pure s!"LN-{today.yearMonth}-{Date.pad 6 (t.loanNumberSeq + 1)}"

/-- Insert a `loans` row. -/
def insertLoan (loan : Loan) : Call Unit := do
  let t ← get
  constraint (∀ l ∈ t.loans, l.loanReference ≠ loan.loanReference)
    (.integrityError "uq_ln_loan_reference")
  constraint (∀ l ∈ t.loans, l.loanApplicationId ≠ loan.loanApplicationId)
    (.integrityError "uq_ln_application_id")
  constraint (0 < loan.principalAmount.val) (.integrityError "ck_ln_principal_amount")
  modify fun t => { t with loans := t.loans ++ [loan] }

/-- Insert a `loan_installments` row; returns its id. -/
def insertInstallment (loanId : Uuid) (restructuringId : Option Uuid)
    (row : ScheduledInstallment) : Call Uuid := do
  let periodNumber ← writeInteger row.periodNumber
  let principalDue ← writeMoney row.principalDue
  let interestDue ← writeMoney row.interestDue
  let totalDue ← writeMoney row.totalDue
  constraint (0 ≤ principalDue.val) (.integrityError "ck_li_principal_due")
  constraint (0 ≤ interestDue.val) (.integrityError "ck_li_interest_due")
  constraint (1 ≤ periodNumber) (.integrityError "ck_li_period_number")
  let id ← freshId
  modify fun t => { t with
    installments := t.installments ++ [⟨id, loanId, periodNumber, row.dueDate, principalDue,
      interestDue, totalDue, 0, 0, .pending, restructuringId, false⟩] }
  pure id

/-- Dr principal receivable / Cr the disbursement account. -/
def disbursementLines (loan : Loan) (disbursementAccountId : Uuid) : List LineIn :=
  [.loanDebit loan.glPrincipalReceivableId loan.principalAmount.val loan.id,
    .loanCredit disbursementAccountId loan.principalAmount.val loan.id]

/-- Dr interest receivable / Cr interest income. -/
def interestLines (loan : Loan) (amount : ℚ) : List LineIn :=
  [.loanDebit loan.glInterestReceivableId amount loan.id,
    .loanCredit loan.glInterestIncomeId amount loan.id]

/-- `sum(i.interest_due for i in schedule)`. -/
def totalInterest (schedule : List ScheduledInstallment) : ℚ :=
  schedule.foldl (fun sum inst => decimal (sum + inst.interestDue)) 0

/-- Step 10: the flat method books the interest of the whole term. -/
def bookFlatInterest (loan : Loan) (actorId : Uuid) (key : String)
    (schedule : List ScheduledInstallment) : Call Unit :=
  when (loan.interestMethod = .flat ∧ 0 < totalInterest schedule) do
    let _ ← postJournalEntry s!"LOAN-INT-BOOK-{loan.id}"
      s!"Flat interest booking: {loan.loanReference}" actorId (creditKey .interestBooking key)
      (interestLines loan (totalInterest schedule))

/-- The arguments of `disburse`. -/
structure DisburseIn where
  loanApplicationId : Uuid
  actorId : Uuid
  idempotencyKey : String
deriving DecidableEq, Repr

/-- The `loans` row of step 5, with the column defaults. -/
def newLoan (id : Uuid) (reference : String) (application : LoanApplication)
    (product : LoanProduct) (principal : Money) (termPeriods : ℤ) (gl : GlAccounts)
    (key : String) : Loan where
  id := id
  loanReference := reference
  loanApplicationId := application.id
  loanProductId := product.id
  memberId := application.memberId
  status := .disbursing
  principalAmount := principal
  interestMethod := product.interestMethod
  annualInterestRate := product.annualInterestRate
  repaymentFrequency := product.repaymentFrequency
  termPeriods := termPeriods
  glPrincipalReceivableId := gl.principalReceivable
  glInterestReceivableId := gl.interestReceivable
  glInterestIncomeId := gl.interestIncome
  glLoanLossExpenseId := gl.loanLossExpense
  outstandingPrincipal := 0
  accruedInterest := 0
  accruedPenalties := 0
  totalPaidPrincipal := 0
  totalPaidInterest := 0
  totalPaidPenalties := 0
  totalWrittenOff := 0
  maturityDate := none
  idempotencyKey := key

/-- The row once the snapshot is set and the loan is disbursed (steps 9 and 11). -/
def Loan.disbursed (loan : Loan) (maturity : Date) : Loan :=
  { loan with
    status := .disbursed
    outstandingPrincipal := loan.principalAmount
    maturityDate := some maturity }

/-- Steps 5 to 11 of `disburse`, for a loan row that is not yet inserted. -/
def openLoan (ar : LienArithmetic) (today : Date) (d : DisburseIn) (loan : Loan)
    (disbursementAccountId : Uuid) : Call Unit := do
  insertLoan loan
  let schedule ← ofExcept (computeSchedule loan.principalAmount.val loan.annualInterestRate.val
    loan.interestMethod loan.repaymentFrequency loan.termPeriods today)
  let _ ← postJournalEntry s!"LOAN-DISB-{loan.id}" s!"Loan disbursement: {loan.loanReference}"
    d.actorId (creditKey .disbursement d.idempotencyKey)
    (disbursementLines loan disbursementAccountId)
  let last ← orRaise schedule.getLast? .indexError
  forEach (fun row => do let _ ← insertInstallment loan.id none row) schedule
  bookFlatInterest loan d.actorId d.idempotencyKey schedule
  modify (·.putLoan (loan.disbursed last.dueDate))
  placeLiens ar loan.id loan.loanApplicationId loan.principalAmount.val
  modify fun t => { t with
    applications := t.applications.map fun a =>
      if a.id = loan.loanApplicationId then { a with status := .disbursed } else a }

/-- `LoanDisbursementService.disburse`; returns the loan. -/
def disburse (ar : LienArithmetic) (today : Date) (d : DisburseIn) : Call Uuid := do
  let t ← get
  match t.loanByKey? d.idempotencyKey with
  | some existing => pure existing.id
  | none =>
    let application ← orRaise (t.application? d.loanApplicationId)
      (.valueError s!"LoanApplication '{d.loanApplicationId}' not found")
    require (application.status = .approved)
      (.valueError (s!"Cannot disburse application with status '{application.status.text}' — " ++
        "must be 'approved'"))
    let product ← orRaise (t.product? application.loanProductId)
      (.valueError s!"LoanProduct '{application.loanProductId}' not found")
    let terms ← orRaise application.approvedTerms
      (.valueError ("Application is missing approved_amount or approved_term_periods; " ++
        "cannot disburse before maker-checker approval has populated these."))
    let gl ← resolveAccounts product
    require (application.disbursementDestination ≠ .memberSavings)
      (.valueError ("member_savings disbursement requires a savings account — " ++
        "not supported in this version"))
    let disbursementAccountId ← orRaise application.disbursementAccountId
      (.valueError ("disbursement_account_id is required for 'cash' and 'internal_gl' " ++
        "destinations"))
    let reference ← nextLoanReference today
    let id ← freshId
    openLoan ar today d
      (newLoan id reference application product terms.1 terms.2 gl d.idempotencyKey)
      disbursementAccountId
    pure id

/-! ## What a disbursement does -/

/-- The entries of a disbursement: the principal, and booked interest when there is some. -/
def openingEntries (l : Loan) (disbursementAccountId : Uuid) (booked : ℚ) : List EntryIn :=
  ⟨creditKey .disbursement l.idempotencyKey, disbursementLines l disbursementAccountId⟩ ::
    if 0 < booked then
      [⟨creditKey .interestBooking l.idempotencyKey, interestLines l booked⟩]
    else []

/-- The interest a disbursement books at once. -/
def bookedInterest (loan : Loan) (schedule : List ScheduledInstallment) : ℚ :=
  if loan.interestMethod = .flat then totalInterest schedule else 0

theorem neverRaises_insertInstallment (loanId : Uuid) (restructuringId : Option Uuid)
    (row : ScheduledInstallment) :
    NeverRaises (insertInstallment loanId restructuringId row) := by
  unfold insertInstallment
  apply neverRaises_bind (neverRaises_writeInteger _)
  intro periodNumber
  iterate 3
    apply neverRaises_bind (neverRaises_writeMoney _)
    intro _
  iterate 3
    apply neverRaises_bind (neverRaises_constraint _ _)
    intro _
  apply neverRaises_bind neverRaises_freshId
  intro id
  apply neverRaises_bind (neverRaises_modify _)
  intro _
  exact neverRaises_pure _

/-- Nothing but the instalments changed; ids may have been drawn. -/
def OnlyNewInstallments (t t' : Tables) : Prop :=
  ∃ n rows, t.nextId ≤ n ∧ t' = { t with nextId := n, installments := rows }

instance : IsPreorder Tables OnlyNewInstallments where
  refl t := ⟨t.nextId, t.installments, le_rfl, rfl⟩
  trans t t₁ t₂ h h' := by
    obtain ⟨n, rows, hn, rfl⟩ := h
    obtain ⟨n', rows', hn', rfl⟩ := h'
    exact ⟨n', rows', hn.trans hn', rfl⟩

theorem insertInstallment_moves (loanId : Uuid) (restructuringId : Option Uuid)
    (row : ScheduledInstallment) :
    Moves OnlyNewInstallments (insertInstallment loanId restructuringId row) := by
  unfold insertInstallment writeInteger
  apply moves_bind (moves_bind (moves_constraint _ _) fun _ => moves_pure _)
  intro periodNumber
  apply moves_bind (moves_writeMoney _)
  intro principalDue
  apply moves_bind (moves_writeMoney _)
  intro interestDue
  apply moves_bind (moves_writeMoney _)
  intro totalDue
  apply moves_bind (moves_constraint _ _)
  intro _
  apply moves_bind (moves_constraint _ _)
  intro _
  apply moves_bind (moves_constraint _ _)
  intro _
  apply moves_bind (moves_freshId fun t => ⟨t.nextId + 1, t.installments, Nat.le_succ _, rfl⟩)
  intro id
  apply moves_bind (moves_modify fun t => ⟨t.nextId, _, le_rfl, rfl⟩)
  intro _
  exact moves_pure _

theorem insertLoan_ok {loan : Loan} {t t' : Tables} {u : Unit} (h : insertLoan loan t = .ok u t') :
    0 < loan.principalAmount.val ∧
      (∀ l ∈ t.loans, l.loanApplicationId ≠ loan.loanApplicationId) ∧
      t' = { t with loans := t.loans ++ [loan] } := by
  simp only [insertLoan, get_bind_eq_ok, constraint_bind_eq_ok, modify_eq_ok] at h
  obtain ⟨-, happ, hpos, rfl⟩ := h
  exact ⟨hpos, happ, rfl⟩

/-- Under a new key the flat interest is posted, when there is some. -/
theorem bookFlatInterest_ok {loan : Loan} {actorId : Uuid} {key : String}
    {schedule : List ScheduledInstallment} {t t' : Tables} {u : Unit}
    (hkey : ∀ e ∈ t.entries, e.idempotencyKey ≠ creditKey .interestBooking key)
    (h : bookFlatInterest loan actorId key schedule t = .ok u t') :
    t.nextId ≤ t'.nextId ∧
    Appends (if 0 < bookedInterest loan schedule then
        [⟨creditKey .interestBooking key, interestLines loan (bookedInterest loan schedule)⟩]
      else []) t t' ∧
    ∃ n es, t' = { t with nextId := n, entries := es } := by
  unfold bookFlatInterest Session.when at h
  unfold bookedInterest
  by_cases hflat : loan.interestMethod = .flat ∧ 0 < totalInterest schedule
  · rw [if_pos hflat] at h
    obtain ⟨id, t₁, hpost, h⟩ := bind_eq_ok.mp h
    obtain ⟨-, rfl⟩ := pure_eq_ok.mp h
    have hposted := postJournalEntry_new hkey hpost
    have happ := hposted.appends
    obtain ⟨e, -, -, rfl⟩ := hposted.entry
    rw [if_pos hflat.1, if_pos hflat.2]
    exact ⟨Nat.le_succ _, happ, _, _, rfl⟩
  · rw [if_neg hflat] at h
    obtain ⟨-, rfl⟩ := pure_eq_ok.mp h
    have hzero : ¬ 0 < (if loan.interestMethod = .flat then totalInterest schedule else 0) := by
      split
      · rename_i hf
        exact fun hp => hflat ⟨hf, hp⟩
      · exact lt_irrefl 0
    rw [if_neg hzero]
    exact ⟨le_rfl, appends_nil rfl, t.nextId, t.entries, rfl⟩

/-- The tables after a loan was opened: the disbursed loan, its entries, and liens placed by
`place_liens` on the guarantees as they were. -/
structure LoanOpened (ar : LienArithmetic) (loan : Loan) (disbursementAccountId : Uuid)
    (schedule : List ScheduledInstallment) (row : Loan) (t t' : Tables) : Prop where
  disbursed : ∃ maturity, row = loan.disbursed maturity
  principal_pos : 0 < loan.principalAmount.val
  fresh : ∀ l ∈ t.loans, l.loanApplicationId ≠ loan.loanApplicationId
  nextId : t.nextId ≤ t'.nextId
  loans : t'.loans = t.loans ++ [row]
  entries : Appends (openingEntries row disbursementAccountId (bookedInterest row schedule)) t t'
  repayments : t'.repayments = t.repayments
  guarantees : ∃ t₂ t₃, t.nextId ≤ t₂.nextId ∧ t₂.guarantees = t.guarantees ∧
    placeLiens ar loan.id loan.loanApplicationId loan.principalAmount.val t₂ = .ok () t₃ ∧
    t'.guarantees = t₃.guarantees ∧ t₃.nextId ≤ t'.nextId

/-- The last row of a table can be written back under its id. -/
theorem putLoan_append {t : Tables} {loan row : Loan} (hid : row.id = loan.id)
    (hids : ∀ l ∈ t.loans, l.id ≠ loan.id) :
    (t.loans ++ [loan]).map (fun r => if r.id = row.id then row else r) = t.loans ++ [row] := by
  rw [List.map_append]
  congr 1
  · conv_rhs => rw [← List.map_id t.loans]
    apply List.map_congr_left
    intro r hr
    have hne : r.id ≠ row.id := by rw [hid]; exact hids r hr
    rw [if_neg hne, id]
  · simp [hid]

theorem openLoan_ok {ar : LienArithmetic} {today : Date} {d : DisburseIn} {loan : Loan}
    {account : Uuid} {t t' : Tables} {u : Unit} (h : openLoan ar today d loan account t = .ok u t')
    (hids : ∀ l ∈ t.loans, l.id ≠ loan.id) (hkey : loan.idempotencyKey = d.idempotencyKey)
    (hdisb : ∀ e ∈ t.entries, e.idempotencyKey ≠ creditKey .disbursement d.idempotencyKey)
    (hbook : ∀ e ∈ t.entries, e.idempotencyKey ≠ creditKey .interestBooking d.idempotencyKey) :
    ∃ schedule row, computeSchedule loan.principalAmount.val loan.annualInterestRate.val
        loan.interestMethod loan.repaymentFrequency loan.termPeriods today = .ok schedule ∧
      LoanOpened ar loan account schedule row t t' := by
  unfold openLoan at h
  obtain ⟨_, t₁, h₁, h⟩ := bind_eq_ok.mp h
  obtain ⟨hpos, hfresh, rfl⟩ := insertLoan_ok h₁
  obtain ⟨schedule, hschedule, h⟩ := ofExcept_bind_eq_ok.mp h
  obtain ⟨_, t₂, h₂, h⟩ := bind_eq_ok.mp h
  have hposted := postJournalEntry_new (t := { t with loans := t.loans ++ [loan] }) hdisb h₂
  obtain ⟨e, hekey, hest, rfl⟩ := hposted.entry
  obtain ⟨last, hlast, h⟩ := orRaise_bind_eq_ok.mp h
  obtain ⟨_, t₃, h₃, h⟩ := bind_eq_ok.mp h
  have hinst : Moves OnlyNewInstallments
      (forEach (fun row => do let _ ← insertInstallment loan.id none row) schedule) := by
    apply moves_forEach
    intro row _
    apply moves_bind (insertInstallment_moves _ _ _)
    intro _
    exact moves_pure ()
  obtain ⟨n₃, rows, hn₃, rfl⟩ := hinst.ok h₃
  obtain ⟨_, t₄, h₄, h⟩ := bind_eq_ok.mp h
  have hbook' : ∀ e' ∈ t.entries ++ [e],
      e'.idempotencyKey ≠ creditKey .interestBooking d.idempotencyKey := by
    intro e' he'
    rcases List.mem_append.mp he' with he' | he'
    · exact hbook e' he'
    · rw [List.mem_singleton.mp he', hekey]
      intro heq
      exact absurd (creditKey_inj heq).1 (by decide)
  obtain ⟨hn₄, happ, n₄, es, rfl⟩ := bookFlatInterest_ok hbook' h₄
  simp only [modify_bind_eq_ok] at h
  obtain ⟨_, t₅, h₅, h⟩ := bind_eq_ok.mp h
  have hplace := (placeLiens_moves ar loan.id loan.loanApplicationId loan.principalAmount.val).ok h₅
  obtain ⟨n₅, gs, ls, hn₅, rfl⟩ := hplace
  rw [modify_eq_ok] at h
  subst h
  refine ⟨schedule, loan.disbursed last.dueDate, hschedule, ⟨_, rfl⟩, hpos, hfresh, ?_, ?_, ?_,
    rfl, ?_⟩
  · exact (Nat.le_succ _).trans (hn₃.trans (hn₄.trans hn₅))
  · exact putLoan_append rfl hids
  · have hfirst : Appends [⟨creditKey .disbursement d.idempotencyKey,
        disbursementLines loan account⟩] t { t with entries := t.entries ++ [e] } :=
      ⟨[e], .cons ⟨hekey, hposted.balanced, hest⟩ .nil, rfl⟩
    have hall : Appends _ t { t with entries := es } := hfirst.trans happ
    -- The entries only look at columns that the snapshot leaves alone.
    show Appends (⟨creditKey .disbursement loan.idempotencyKey, disbursementLines loan account⟩ ::
      if 0 < bookedInterest loan schedule then
        [⟨creditKey .interestBooking loan.idempotencyKey,
          interestLines loan (bookedInterest loan schedule)⟩]
      else []) t _
    rw [hkey]
    exact hall
  · refine ⟨_, _, ?_, ?_, h₅, rfl, le_rfl⟩
    · exact (Nat.le_succ _).trans (hn₃.trans hn₄)
    · rfl

theorem resolveAccount_bind_eq_ok {β : Type} {code : String} {f : Uuid → Call β} {t t' : Tables}
    {b : β} :
    (resolveAccount code >>= f) t = .ok b t' ↔
      ∃ a, t.account? code = some a ∧ f a.id t = .ok b t' := by
  constructor
  · intro h
    obtain ⟨id, t₁, hid, h⟩ := bind_eq_ok.mp h
    simp only [resolveAccount, get_bind_eq_ok, orRaise_bind_eq_ok, pure_eq_ok] at hid
    obtain ⟨a, ha, rfl, rfl⟩ := hid
    exact ⟨a, ha, h⟩
  · rintro ⟨a, ha, h⟩
    refine bind_eq_ok.mpr ⟨a.id, t, ?_, h⟩
    rw [resolveAccount, get_bind_eq_ok, orRaise_bind_eq_ok]
    exact ⟨a, ha, rfl⟩

/-- The accounts stand in the chart under the codes of the product. -/
structure ResolvedFrom (t : Tables) (product : LoanProduct) (gl : GlAccounts) : Prop where
  principalReceivable : ∃ a, t.account? product.glPrincipalReceivableCode = some a ∧
    gl.principalReceivable = a.id
  interestReceivable : ∃ a, t.account? product.glInterestReceivableCode = some a ∧
    gl.interestReceivable = a.id
  interestIncome : ∃ a, t.account? product.glInterestIncomeCode = some a ∧
    gl.interestIncome = a.id
  loanLossExpense : ∀ i, gl.loanLossExpense = some i → ∃ code a,
    product.glLoanLossExpenseCode = some code ∧ t.account? code = some a ∧ i = a.id

theorem resolveAccounts_ok {product : LoanProduct} {gl : GlAccounts} {t t' : Tables}
    (h : resolveAccounts product t = .ok gl t') : t' = t ∧ ResolvedFrom t product gl := by
  simp only [resolveAccounts, resolveAccount_bind_eq_ok, get_bind_eq_ok, pure_eq_ok] at h
  obtain ⟨p, hp, r, hr, i, hi, rfl, rfl⟩ := h
  refine ⟨rfl, ⟨p, hp, rfl⟩, ⟨r, hr, rfl⟩, ⟨i, hi, rfl⟩, ?_⟩
  intro loss hloss
  obtain ⟨a, ha, rfl⟩ := Option.map_eq_some_iff.mp hloss
  obtain ⟨code, hcode, ha⟩ := Option.bind_eq_some_iff.mp ha
  obtain ⟨hcode, -⟩ := Option.filter_eq_some_iff.mp hcode
  exact ⟨code, a, hcode, ha, rfl⟩

/-- Where the loan that `disburse` opens comes from. -/
structure DisbursedFrom (t : Tables) (today : Date) (d : DisburseIn) (row : Loan)
    (account : Uuid) (booked : ℚ) : Prop where
  source : ∃ application product gl terms schedule, 
    t.application? d.loanApplicationId = some application ∧
    t.product? application.loanProductId = some product ∧
    application.approvedTerms = some terms ∧
    resolveAccounts product t = .ok gl t ∧
    application.disbursementAccountId = some account ∧
    computeSchedule terms.1.val product.annualInterestRate.val product.interestMethod
      product.repaymentFrequency terms.2 today = .ok schedule ∧
    booked = (if product.interestMethod = .flat then totalInterest schedule else 0) ∧
    ∃ id reference maturity,
      row = (newLoan id reference application product terms.1 terms.2 gl
        d.idempotencyKey).disbursed maturity

/-- A disbursement returns the loan found under its key, or opens a new one under the next id. -/
theorem disburse_opens {ar : LienArithmetic} {today : Date} {d : DisburseIn} {t t' : Tables}
    {id : Uuid} (h : disburse ar today d t = .ok id t') :
    (t' = t ∧ ∃ l, t.loanByKey? d.idempotencyKey = some l) ∨
      t.loanByKey? d.idempotencyKey = none ∧ id = t.nextId ∧
        ∃ application product terms gl account reference,
          t.application? d.loanApplicationId = some application ∧
          t.product? application.loanProductId = some product ∧
          application.approvedTerms = some terms ∧ resolveAccounts product t = .ok gl t ∧
          application.disbursementAccountId = some account ∧
          openLoan ar today d
            (newLoan t.nextId reference application product terms.1 terms.2 gl d.idempotencyKey) account
            { t with nextId := t.nextId + 1, loanNumberSeq := t.loanNumberSeq + 1 } = .ok () t' := by
  simp only [disburse, get_bind_eq_ok] at h
  cases hfind : t.loanByKey? d.idempotencyKey with
  | some existing =>
    rw [hfind] at h
    exact .inl ⟨(pure_eq_ok.mp h).2.symm, existing, rfl⟩
  | none =>
    simp only [hfind, orRaise_bind_eq_ok, require_bind_eq_ok] at h
    obtain ⟨application, happ, -, product, hproduct, terms, hterms, h⟩ := h
    obtain ⟨gl, t₀, hgl, hrest⟩ := bind_eq_ok.mp h
    obtain ⟨rfl, -⟩ := resolveAccounts_ok hgl
    simp only [require_bind_eq_ok, orRaise_bind_eq_ok] at hrest
    obtain ⟨-, account, haccount, h⟩ := hrest
    obtain ⟨reference, t₁, href, h⟩ := bind_eq_ok.mp h
    simp only [nextLoanReference, get_bind_eq_ok, modify_bind_eq_ok, pure_eq_ok] at href
    obtain ⟨-, rfl⟩ := href
    rw [freshId_bind_eq_ok] at h
    obtain ⟨_, t₂, hopen, h⟩ := bind_eq_ok.mp h
    obtain ⟨rfl, rfl⟩ := pure_eq_ok.mp h
    exact .inr ⟨rfl, rfl, application, product, terms, gl, account, _, happ, hproduct, hterms, hgl,
      haccount, hopen⟩

/-- The books after a disbursement. -/
theorem disburse_ok {ar : LienArithmetic} {today : Date} {d : DisburseIn} {t t' : Tables}
    {id : Uuid} (hids : ∀ l ∈ t.loans, l.id < t.nextId)
    (hkeys : (∀ l ∈ t.loans, l.idempotencyKey ≠ d.idempotencyKey) → ∀ e ∈ t.entries,
      e.idempotencyKey ≠ creditKey .disbursement d.idempotencyKey ∧
      e.idempotencyKey ≠ creditKey .interestBooking d.idempotencyKey)
    (h : disburse ar today d t = .ok id t') :
    t' = t ∨ ∃ loan account schedule row t₁, loan.id = t.nextId ∧
      t₁ = { t with nextId := t.nextId + 1, loanNumberSeq := t.loanNumberSeq + 1 } ∧
      DisbursedFrom t today d row account (bookedInterest row schedule) ∧
      LoanOpened ar loan account schedule row t₁ t' := by
  rcases disburse_opens h with
    ⟨rfl, -⟩ | ⟨hfind, -, application, product, terms, gl, account, reference, happ, hproduct, hterms,
      hgl, haccount, hopen⟩
  · exact .inl rfl
  · have hnew : ∀ l ∈ t.loans, l.idempotencyKey ≠ d.idempotencyKey := by
      simpa [Tables.loanByKey?] using hfind
    have hfresh : ∀ l ∈ t.loans, l.id ≠ t.nextId := fun l hl => (hids l hl).ne
    obtain ⟨schedule, row, hschedule, hopened⟩ := openLoan_ok hopen hfresh rfl
      (fun e he => (hkeys hnew e he).1) (fun e he => (hkeys hnew e he).2)
    obtain ⟨maturity, hrow⟩ := hopened.disbursed
    refine .inr ⟨_, account, schedule, row, _, rfl, rfl, ⟨?_⟩, hopened⟩
    refine ⟨application, product, gl, terms, schedule, happ, hproduct, hterms, hgl, haccount,
      hschedule, ?_, _, _, maturity, hrow⟩
    rw [hrow]
    rfl

end SaccoPlatform
