import SaccoPlatform.Credit.Operations

/-!
# A beat task among repayments

The interest-accrual task and the arrears task each work in one long transaction: they read
the loans without a lock at its start, and an attribute they change is flushed as an absolute
value of that column. A repayment locks the loan row (`SELECT ... FOR UPDATE`) from its read
to its commit. Both run at READ COMMITTED: a statement sees what is committed when it runs, and
an `UPDATE` waits for a lock on its row and then holds one until the commit.

The model follows one loan. Its committed row is in `World.tables`; a repayment is its locking
read and its commit; the task is the read of the loans, the query of the instalments, one flush
for each change, and the commit. Any interleaving of these steps is a run.
-/

namespace SaccoPlatform

open Lib Session

/-! ## The task -/

inductive BeatTask where
  | accrueInterest (today : Date)
  | markArrears (today : Date)

/-- The loans that the task selects. -/
def BeatTask.Selects (l : Loan) : BeatTask → Prop
  | accrueInterest _ => l.interestMethod = .reducingBalance ∧ l.Active
  | markArrears _ => l.Active

instance (l : Loan) (task : BeatTask) : Decidable (task.Selects l) := by
  cases task <;> unfold BeatTask.Selects <;> infer_instance

/-- The session of the accrual task: its object of the loan, the due instalments once they are
queried, and what it has posted but not committed. -/
structure AccrualSession where
  today : Date
  loan : Loan
  todo : Option (List LoanInstallment)
  entries : List JournalEntry
  accrued : ℚ
  flushed : Bool

/-- The session of the arrears task: its object of the loan, what it saw of the instalments,
and the rows it marked. -/
structure ArrearsSession where
  today : Date
  loan : Loan
  hasOverdue : Option Bool
  marked : List Uuid
  done : Bool
  flushed : Bool

inductive Beat where
  | idle
  | accruing (s : AccrualSession)
  | marking (s : ArrearsSession)
  | finished

/-- The task has flushed a change and holds the lock on the row. -/
def Beat.HoldsLock : Beat → Prop
  | accruing s => s.flushed = true
  | marking s => s.flushed = true
  | _ => False

instance (b : Beat) : Decidable b.HoldsLock := by
  cases b <;> unfold Beat.HoldsLock <;> infer_instance

/-- What is committed, the task's session, the repayment that holds the row lock, and the
interest that the task has accrued and committed. -/
structure World where
  tables : Tables
  beat : Beat
  repaying : Option RepaymentIn
  accrued : ℚ

def World.start (t : Tables) : World := ⟨t, .idle, none, 0⟩

inductive BeatAction where
  | readLoans
  | queryInstallments
  | flush
  | commitTask
  | lockLoan (r : RepaymentIn)
  | commitRepayment

/-! ### Columns -/

/-- `UPDATE loans SET accrued_interest = ... WHERE id = ...`. -/
def Tables.setAccruedInterest (t : Tables) (loanId : Uuid) (value : Money) : Tables :=
  { t with loans := t.loans.map fun l =>
      if l.id = loanId then { l with accruedInterest := value } else l }

/-- `UPDATE loans SET status = ... WHERE id = ...`. -/
def Tables.setLoanStatus (t : Tables) (loanId : Uuid) (value : LoanStatus) : Tables :=
  { t with loans := t.loans.map fun l =>
      if l.id = loanId then { l with status := value } else l }

/-- `UPDATE loan_installments SET status = 'overdue'` on these rows. -/
def Tables.setOverdue (t : Tables) (ids : List Uuid) : Tables :=
  { t with installments := t.installments.map fun inst =>
      if inst.id ∈ ids then { inst with status := .overdue } else inst }

/-- The pending and partially paid instalments of the loan due before `today`. -/
def Tables.unmarkedOverdue (t : Tables) (today : Date) (loanId : Uuid) : List Uuid :=
  (t.installments.filter fun inst => inst.loanId = loanId ∧ inst.dueDate < today ∧
    (inst.status = .pending ∨ inst.status = .partiallyPaid)).map (·.id)

/-- What the accrual session sees: the committed tables, its own entries, and its own object of
the loan. -/
def AccrualSession.view (s : AccrualSession) (t : Tables) : Tables :=
  { t with entries := t.entries ++ s.entries }.putLoan s.loan

/-! ### Steps -/

section

variable (ar : LienArithmetic) (task : BeatTask) (loanId : Uuid)

/-- The read at the start of the task: the loan as committed, whoever holds its lock. -/
def BeatTask.begin (l : Loan) : BeatTask → Beat
  | accrueInterest today => .accruing ⟨today, l, none, [], 0, false⟩
  | markArrears today => .marking ⟨today, l, none, [], false, false⟩

def World.readLoans (w : World) : World :=
  match w.beat, w.tables.loan? loanId with
  | .idle, some l =>
    { w with beat := if task.Selects l then task.begin l else .finished }
  | _, _ => w

def World.queryInstallments (w : World) : World :=
  match w.beat with
  | .accruing s =>
    if s.todo = none then
      { w with beat := .accruing { s with todo := some (w.tables.dueInstallments s.today loanId) } }
    else w
  | .marking s =>
    if s.hasOverdue = none then
      { w with beat := .marking { s with
          hasOverdue := some (w.tables.overdueInstallments s.today loanId ≠ [])
          marked := w.tables.unmarkedOverdue s.today loanId } }
    else w
  | _ => w

/-- The next due instalment: `accrueInstallment` on what the session sees. -/
def World.flushAccrual (w : World) (s : AccrualSession) (inst : LoanInstallment)
    (rest : List LoanInstallment) : World :=
  match accrueInstallment loanId 0 inst (s.view w.tables) with
  | .ok count t =>
    { w with
      tables := { w.tables with nextId := t.nextId }
      beat := .accruing { s with
        todo := some rest
        loan := (t.loan? loanId).getD s.loan
        entries := t.entries.drop w.tables.entries.length
        accrued := if count = 1 then s.accrued + inst.interestDue.val else s.accrued
        flushed := if count = 1 then true else s.flushed } }
  | _ => w

/-- The loan's turn: its status moves by what the session saw, or stays. -/
def ArrearsSession.turn (s : ArrearsSession) (hasOverdue : Bool) : ArrearsSession :=
  if hasOverdue = true ∧ s.loan.status = .disbursed then
    { s with loan := { s.loan with status := .inArrears }, done := true, flushed := true }
  else if hasOverdue = false ∧ s.loan.status = .inArrears then
    { s with loan := { s.loan with status := .disbursed }, marked := [], done := true,
             flushed := true }
  else { s with marked := [], done := true }

/-- A flush waits for the lock of a repayment. -/
def World.flush (w : World) : World :=
  if w.repaying.isSome then w
  else
    match w.beat with
    | .accruing s =>
      match s.todo with
      | some (inst :: rest) => w.flushAccrual loanId s inst rest
      | _ => w
    | .marking s =>
      match s.hasOverdue with
      | some hasOverdue => if s.done then w else { w with beat := .marking (s.turn hasOverdue) }
      | none => w
    | _ => w

/-- The commit of the task: the columns it flushed, and its other rows. -/
def World.commitTask (w : World) : World :=
  match w.beat with
  | .accruing s =>
    if s.todo = some [] then
      { w with
        tables := if s.flushed then
            { w.tables with entries := w.tables.entries ++ s.entries }.setAccruedInterest loanId
              s.loan.accruedInterest
          else w.tables
        beat := .finished
        accrued := s.accrued }
    else w
  | .marking s =>
    if s.done then
      { w with
        tables := if s.flushed then
            (w.tables.setOverdue s.marked).setLoanStatus loanId s.loan.status
          else w.tables
        beat := .finished }
    else w
  | _ => w

/-- `SELECT ... FOR UPDATE` waits for any lock on the row. -/
def World.lockLoan (w : World) (r : RepaymentIn) : World :=
  if r.loanId = loanId ∧ w.repaying = none ∧ ¬ w.beat.HoldsLock then { w with repaying := some r }
  else w

/-- The repayment runs to its end and lets the lock go. Nothing else writes the loan while it
holds the lock, so it acts on what is committed. -/
def World.commitRepayment (w : World) : World :=
  match w.repaying with
  | some r => { w with tables := commit (applyRepayment ar r) w.tables, repaying := none }
  | none => w

def BeatAction.step (w : World) : BeatAction → World
  | readLoans => w.readLoans task loanId
  | queryInstallments => w.queryInstallments loanId
  | flush => w.flush loanId
  | commitTask => w.commitTask loanId
  | lockLoan r => w.lockLoan loanId r
  | commitRepayment => w.commitRepayment ar

end

/-! ## No lost update -/

/-- `interest_applied` over the repayments of the loan. -/
def Tables.interestApplied (t : Tables) (loanId : Uuid) : ℚ :=
  ((t.repayments.filter (·.loanId = loanId)).map (·.interestApplied.val)).sum

/-- After these steps the accrued interest of the loan `l₀` is what it was, plus the interest
the task accrued, minus the interest the repayments applied; and if the loan was closed on the
way, it is still closed. -/
structure NoLostUpdate (ar : LienArithmetic) (task : BeatTask) (t : Tables) (l₀ : Loan)
    (actions : List BeatAction) : Prop where
  interest : ∃ l ∈ (run (BeatAction.step ar task l₀.id) (World.start t) actions).tables.loan? l₀.id,
    l.accruedInterest.val = l₀.accruedInterest.val
      + (run (BeatAction.step ar task l₀.id) (World.start t) actions).accrued
      - ((run (BeatAction.step ar task l₀.id) (World.start t) actions).tables.interestApplied l₀.id
        - t.interestApplied l₀.id)
  closed : ∀ before after, actions = before ++ after →
    ∀ l ∈ (run (BeatAction.step ar task l₀.id) (World.start t) before).tables.loan? l₀.id,
      l.status = .closed →
      ∃ l' ∈ (run (BeatAction.step ar task l₀.id) (World.start t) actions).tables.loan? l₀.id,
        l'.status = .closed

/-! ## When no update is lost -/

/-- The next due instalment will be accrued: it carries interest and its key is not in use. -/
def AccrualSession.Accrues (s : AccrualSession) (t : Tables) : Prop :=
  ∃ inst ∈ s.todo.bind List.head?, 0 < inst.interestDue.val ∧
    ∀ e ∈ t.entries ++ s.entries, e.idempotencyKey ≠ accrualKey s.loan.id inst.dueDate

instance (s : AccrualSession) (t : Tables) : Decidable (s.Accrues t) := by
  unfold AccrualSession.Accrues
  infer_instance

/-- The loan's status will move. -/
def ArrearsSession.Moves (s : ArrearsSession) : Prop :=
  s.done = false ∧ ((s.hasOverdue = some true ∧ s.loan.status = .disbursed) ∨
    (s.hasOverdue = some false ∧ s.loan.status = .inArrears))

instance (s : ArrearsSession) : Decidable s.Moves := inferInstanceAs (Decidable (_ ∧ (_ ∨ _)))

/-- The column that the flush overwrites is still as the session read it: no repayment that
applies interest has committed since the accrual task read the loan, and none that closes the
loan since the arrears task did. -/
def Beat.Current (b : Beat) (t : Tables) (l : Loan) : Prop :=
  match b with
  | .accruing s =>
    s.flushed = false → s.Accrues t → l.accruedInterest = s.loan.accruedInterest
  | .marking s => s.Moves → l.status ≠ .closed
  | _ => True

instance (b : Beat) (t : Tables) (l : Loan) : Decidable (b.Current t l) := by
  cases b <;> unfold Beat.Current <;> infer_instance

/-- A flush overwrites nothing, and a part payment of interest does not leave the rest halfway
between two values of the column. -/
def BeatAction.Fresh (loanId : Uuid) (w : World) : BeatAction → Prop
  | flush => w.repaying = none → ∀ l ∈ w.tables.loan? loanId, w.beat.Current w.tables l
  | commitRepayment => ∀ r ∈ w.repaying, ∀ l ∈ w.tables.loan? loanId,
      r.amount < l.accruedInterest.val → ¬ TipsOver 28 4 (l.accruedInterest.val - r.amount)
  | _ => True

instance (loanId : Uuid) (w : World) (a : BeatAction) : Decidable (a.Fresh loanId w) := by
  cases a <;> unfold BeatAction.Fresh <;> infer_instance

/-! ### The invariant -/

/-- What the session holds fits the committed row `l`: once it has flushed it has the row to
itself, its object is the row plus the interest it accrued, and the loan it marks is not
closed. -/
def Beat.Fits (loanId : Uuid) (w : World) (l : Loan) : Beat → Prop
  | idle => w.accrued = 0
  | accruing s => w.accrued = 0 ∧ s.loan.id = loanId ∧
      (s.flushed = false → s.accrued = 0) ∧
      (s.flushed = true → w.repaying = none ∧
        s.loan.accruedInterest.val = l.accruedInterest.val + s.accrued)
  | marking s => w.accrued = 0 ∧ (s.flushed = true → w.repaying = none ∧ l.status ≠ .closed)
  | finished => True

structure World.Sound (loanId : Uuid) (t₀ : Tables) (l₀ : Loan) (w : World) (l : Loan) : Prop where
  row : w.tables.loan? loanId = some l
  interest : l.accruedInterest.val = l₀.accruedInterest.val + w.accrued
    - (w.tables.interestApplied loanId - t₀.interestApplied loanId)
  repaying : ∀ r ∈ w.repaying, r.loanId = loanId
  beat : w.beat.Fits loanId w l

section

variable {ar : LienArithmetic} {task : BeatTask} {loanId : Uuid} {t₀ : Tables} {l₀ l : Loan}
  {w : World}

theorem sound_start {t : Tables} (h : t.loan? loanId = some l) :
    (World.start t).Sound loanId t l l where
  row := h
  interest := by
    show l.accruedInterest.val = l.accruedInterest.val + 0
      - (t.interestApplied loanId - t.interestApplied loanId)
    ring
  repaying := by
    intro r hr
    cases hr
  beat := rfl

/-- A step that leaves the committed row and the sums alone. -/
theorem World.Sound.of_same {w' : World} (h : w.Sound loanId t₀ l₀ l)
    (hloans : w'.tables.loans = w.tables.loans)
    (hreps : w'.tables.repayments = w.tables.repayments) (haccrued : w'.accrued = w.accrued)
    (hrepaying : ∀ r ∈ w'.repaying, r.loanId = loanId) (hbeat : w'.beat.Fits loanId w' l) :
    w'.Sound loanId t₀ l₀ l where
  row := by
    unfold Tables.loan?
    rw [hloans]
    exact h.row
  interest := by
    unfold Tables.interestApplied
    rw [haccrued, hreps]
    exact h.interest
  repaying := hrepaying
  beat := hbeat

theorem World.Sound.readLoans (h : w.Sound loanId t₀ l₀ l) :
    (w.readLoans task loanId).Sound loanId t₀ l₀ l := by
  obtain ⟨-, hid⟩ := loan?_eq_some h.row
  have hbeat := h.beat
  unfold World.readLoans
  rw [h.row]
  cases hb : w.beat with
  | idle =>
    rw [hb] at hbeat
    have hzero : w.accrued = 0 := hbeat
    refine h.of_same rfl rfl rfl h.repaying ?_
    dsimp only
    split
    · cases task with
      | accrueInterest today =>
        exact ⟨hzero, hid, fun _ => rfl, fun hf => by cases hf⟩
      | markArrears today => exact ⟨hzero, fun hf => by cases hf⟩
    · trivial
  | accruing s => exact h
  | marking s => exact h
  | finished => exact h

theorem World.Sound.queryInstallments (h : w.Sound loanId t₀ l₀ l) :
    (w.queryInstallments loanId).Sound loanId t₀ l₀ l := by
  have hbeat := h.beat
  unfold World.queryInstallments
  cases hb : w.beat with
  | idle => exact h
  | accruing s =>
    rw [hb] at hbeat
    dsimp only
    split
    · exact h.of_same rfl rfl rfl h.repaying hbeat
    · exact h
  | marking s =>
    rw [hb] at hbeat
    dsimp only
    split
    · exact h.of_same rfl rfl rfl h.repaying hbeat
    · exact h
  | finished => exact h

theorem World.Sound.lockLoan (h : w.Sound loanId t₀ l₀ l) (r : RepaymentIn) :
    (w.lockLoan loanId r).Sound loanId t₀ l₀ l := by
  have hbeat := h.beat
  unfold World.lockLoan
  split
  · rename_i hfree
    obtain ⟨hr, -, hlock⟩ := hfree
    refine h.of_same rfl rfl rfl ?_ ?_
    · intro r' hr'
      cases hr'
      exact hr
    · cases hb : w.beat with
      | idle =>
        rw [hb] at hbeat
        exact hbeat
      | accruing s =>
        rw [hb] at hbeat hlock
        exact ⟨hbeat.1, hbeat.2.1, hbeat.2.2.1, fun hf => absurd hf hlock⟩
      | marking s =>
        rw [hb] at hbeat hlock
        exact ⟨hbeat.1, fun hf => absurd hf hlock⟩
      | finished => trivial
  · exact h

/-- The session sees its own object of the loan. -/
theorem AccrualSession.view_loan? {s : AccrualSession} {t : Tables} (hl : t.loan? loanId = some l)
    (hid : s.loan.id = loanId) : (s.view t).loan? loanId = some s.loan := by
  have hl' : ({ t with entries := t.entries ++ s.entries } : Tables).loan? loanId = some l := hl
  obtain ⟨-, hlid⟩ := loan?_eq_some hl
  unfold AccrualSession.view
  rw [loan?_putLoan, hl', Option.map_some, if_pos (hlid.trans hid.symm)]

/-- An accrual on what the session sees adds the interest to the session's own object. -/
theorem AccrualSession.accrued_view {s : AccrualSession} {t t' : Tables} {inst : LoanInstallment}
    (hview : (s.view t).loan? loanId = some s.loan) (hid : s.loan.id = loanId)
    (hkey : ∀ e ∈ (s.view t).entries, e.idempotencyKey ≠ accrualKey loanId inst.dueDate)
    (h : postAccrual s.loan inst (s.view t) = .ok () t') :
    ∃ row, t'.loan? loanId = some row ∧ row.id = loanId ∧
      row.accruedInterest.val = s.loan.accruedInterest.val + inst.interestDue.val := by
  rw [← hid] at hkey
  obtain ⟨row, t₁, hposted, hsaved, rfl⟩ := postAccrual_ok hkey h
  obtain ⟨hloans, -, -⟩ := hposted.frame
  have hrowid : row.id = loanId := hsaved.terms.id.trans hid
  refine ⟨row, ?_, hrowid, ?_⟩
  · have hfound : t₁.loan? loanId = some s.loan := by
      unfold Tables.loan? at hview ⊢
      rw [hloans, hview]
    rw [loan?_putLoan, hfound, Option.map_some, if_pos (hid.trans hrowid.symm)]
  · have hbal := congrArg Balances.accruedInterest hsaved.balances
    refine hbal.trans (roundAt_of_mem ?_)
    exact add_mem s.loan.accruedInterest.onGrid inst.interestDue.onGrid

/-- One instalment: the object of the loan stays, or it gains the interest that is accrued. -/
theorem World.Sound.flushAccrual (h : w.Sound loanId t₀ l₀ l) {s : AccrualSession}
    (hb : w.beat = .accruing s) {inst : LoanInstallment} {rest : List LoanInstallment}
    (htodo : s.todo = some (inst :: rest)) (hfree : w.repaying = none)
    (hcurrent : s.flushed = false → s.Accrues w.tables → l.accruedInterest = s.loan.accruedInterest) :
    (w.flushAccrual loanId s inst rest).Sound loanId t₀ l₀ l := by
  have hbeat := h.beat
  rw [hb] at hbeat
  obtain ⟨hzero, hid, hbefore, hafter⟩ := hbeat
  have hview := AccrualSession.view_loan? h.row hid
  unfold World.flushAccrual
  cases hx : accrueInstallment loanId 0 inst (s.view w.tables) with
  | ok n t =>
    refine h.of_same rfl rfl rfl h.repaying ?_
    rcases accrueInstallment_ok hx with ⟨rfl, rfl⟩ | ⟨rfl, loan, hloan, hkey, hpos, hpost⟩
    · show _ ∧ ((_ : Option Loan).getD s.loan).id = loanId ∧ _
      rw [hview]
      exact ⟨hzero, hid, hbefore, hafter⟩
    · obtain rfl : s.loan = loan := Option.some.inj (hview.symm.trans hloan)
      obtain ⟨row, hfound, hrowid, hrow⟩ := AccrualSession.accrued_view hview hid hkey hpost
      have haccrues : s.Accrues w.tables := by
        refine ⟨inst, ?_, hpos, ?_⟩
        · rw [htodo]
          rfl
        · rw [hid]
          exact hkey
      have hsum : s.loan.accruedInterest.val = l.accruedInterest.val + s.accrued := by
        cases hf : s.flushed with
        | true => exact (hafter hf).2
        | false => rw [hbefore hf, hcurrent hf haccrues, add_zero]
      show _ ∧ ((_ : Option Loan).getD s.loan).id = loanId ∧ _
      rw [hfound]
      refine ⟨hzero, hrowid, nofun, ?_⟩
      intro _
      refine ⟨hfree, ?_⟩
      show row.accruedInterest.val = l.accruedInterest.val + (s.accrued + inst.interestDue.val)
      rw [hrow, hsum]
      ring
  | raised e t => exact h
  | aborted e => exact h

theorem World.Sound.flush (h : w.Sound loanId t₀ l₀ l)
    (hfresh : BeatAction.Fresh loanId w .flush) : (w.flush loanId).Sound loanId t₀ l₀ l := by
  unfold World.flush
  split
  · exact h
  · rename_i hfree
    have hfree : w.repaying = none := by simpa using hfree
    have hcurrent := hfresh hfree l h.row
    have hbeat := h.beat
    cases hb : w.beat with
    | idle => exact h
    | finished => exact h
    | accruing s =>
      rw [hb] at hcurrent
      dsimp only
      split
      · rename_i inst rest htodo
        exact h.flushAccrual hb htodo hfree hcurrent
      · exact h
    | marking s =>
      rw [hb] at hcurrent hbeat
      dsimp only
      cases hover : s.hasOverdue with
      | none => exact h
      | some hasOverdue =>
        dsimp only
        by_cases hdone : s.done = true
        · rw [if_pos hdone]
          exact h
        · rw [if_neg hdone]
          refine h.of_same rfl rfl rfl h.repaying ⟨hbeat.1, ?_⟩
          -- a flush that moves the status finds the loan open
          intro hflushed
          refine ⟨hfree, ?_⟩
          by_cases hmoves : s.Moves
          · exact hcurrent hmoves
          · have hstays : (s.turn hasOverdue).flushed = s.flushed := by
              unfold ArrearsSession.turn
              rw [if_neg, if_neg]
              · rintro ⟨rfl, hst⟩
                exact hmoves ⟨by simpa using hdone, .inr ⟨hover, hst⟩⟩
              · rintro ⟨rfl, hst⟩
                exact hmoves ⟨by simpa using hdone, .inl ⟨hover, hst⟩⟩
            rw [hstays] at hflushed
            exact (hbeat.2 hflushed).2

theorem loan?_setAccruedInterest {t : Tables} (hl : t.loan? loanId = some l) (value : Money) :
    (t.setAccruedInterest loanId value).loan? loanId
      = some { l with accruedInterest := value } := by
  obtain ⟨-, hid⟩ := loan?_eq_some hl
  unfold Tables.loan? Tables.setAccruedInterest at *
  rw [List.find?_map]
  have hsame : (fun r : Loan => decide (r.id = loanId)) ∘ (fun r : Loan =>
      if r.id = loanId then { r with accruedInterest := value } else r)
      = fun r => decide (r.id = loanId) := by
    funext r
    by_cases hr : r.id = loanId <;> simp [hr]
  rw [hsame, hl, Option.map_some, if_pos hid]

theorem loan?_setLoanStatus {t : Tables} (hl : t.loan? loanId = some l) (value : LoanStatus) :
    (t.setLoanStatus loanId value).loan? loanId = some { l with status := value } := by
  obtain ⟨-, hid⟩ := loan?_eq_some hl
  unfold Tables.loan? Tables.setLoanStatus at *
  rw [List.find?_map]
  have hsame : (fun r : Loan => decide (r.id = loanId)) ∘ (fun r : Loan =>
      if r.id = loanId then { r with status := value } else r)
      = fun r => decide (r.id = loanId) := by
    funext r
    by_cases hr : r.id = loanId <;> simp [hr]
  rw [hsame, hl, Option.map_some, if_pos hid]

/-- The commit writes the flushed column over the committed one. -/
theorem World.Sound.commitTask (h : w.Sound loanId t₀ l₀ l) :
    ∃ l', (w.commitTask loanId).Sound loanId t₀ l₀ l' ∧
      (l.status = .closed → l'.status = .closed) := by
  have hbeat := h.beat
  unfold World.commitTask
  cases hb : w.beat with
  | idle => exact ⟨l, h, id⟩
  | finished => exact ⟨l, h, id⟩
  | accruing s =>
    rw [hb] at hbeat
    obtain ⟨hzero, -, hbefore, hafter⟩ := hbeat
    dsimp only
    split
    · have hint := h.interest
      rw [hzero] at hint
      cases hf : s.flushed with
      | true =>
        refine ⟨{ l with accruedInterest := s.loan.accruedInterest }, ⟨?_, ?_, h.repaying, trivial⟩,
          id⟩
        · exact loan?_setAccruedInterest (t := { w.tables with entries := _ }) h.row _
        · show s.loan.accruedInterest.val = l₀.accruedInterest.val + s.accrued
            - (w.tables.interestApplied loanId - t₀.interestApplied loanId)
          rw [(hafter hf).2, hint]
          ring
      | false =>
        refine ⟨l, ⟨h.row, ?_, h.repaying, trivial⟩, id⟩
        show l.accruedInterest.val = l₀.accruedInterest.val + s.accrued
          - (w.tables.interestApplied loanId - t₀.interestApplied loanId)
        rw [hbefore hf, hint]
    · exact ⟨l, h, id⟩
  | marking s =>
    rw [hb] at hbeat
    obtain ⟨hzero, hopen⟩ := hbeat
    dsimp only
    split
    · cases hf : s.flushed with
      | true =>
        refine ⟨{ l with status := s.loan.status }, ⟨?_, h.interest, h.repaying, trivial⟩, ?_⟩
        · exact loan?_setLoanStatus (t := w.tables.setOverdue s.marked) h.row _
        · intro hclosed
          exact absurd hclosed (hopen hf).2
      | false => exact ⟨l, h.of_same rfl rfl rfl h.repaying trivial, id⟩
    · exact ⟨l, h, id⟩

/-- A recorded repayment takes its `interest_applied` off the column. -/
theorem RepaymentRecorded.interest {r : RepaymentIn} {row : Loan} {t t' : Tables}
    (h : RepaymentRecorded ar r l (allocate r.amount l.balances) row t t')
    (hround : r.amount < l.accruedInterest.val → ¬ TipsOver 28 4 (l.accruedInterest.val - r.amount))
    {rp : LoanRepayment}
    (hrp : RepaymentRow l.id (allocate r.amount l.balances) r.idempotencyKey rp) :
    row.accruedInterest.val = l.accruedInterest.val - rp.interestApplied.val := by
  have hamount : 0 < r.amount := pos_of_roundAt_pos h.amount_pos
  have happlied : (allocate r.amount l.balances).interestApplied
      = min r.amount l.accruedInterest.val := rfl
  have hbal := congrArg Balances.accruedInterest h.saved.balances
  rw [hrp.interestApplied, happlied]
  exact hbal.trans (repay_interest hamount.le hround)

/-- A repayment holds the row to itself, so what it writes is based on the committed row. -/
theorem World.Sound.commitRepayment (h : w.Sound loanId t₀ l₀ l)
    (hfresh : BeatAction.Fresh loanId w .commitRepayment) :
    ∃ l', (w.commitRepayment ar).Sound loanId t₀ l₀ l' ∧
      (l.status = .closed → l'.status = .closed) := by
  have hbeat := h.beat
  unfold World.commitRepayment
  cases hr : w.repaying with
  | none => exact ⟨l, h, id⟩
  | some r =>
    have hloanId : r.loanId = loanId := h.repaying r hr
    -- the task has not flushed, so its session says nothing about the row
    have hfits : ∀ l' (w' : World), w'.accrued = w.accrued → w'.beat = w.beat →
        w'.beat.Fits loanId w' l' := by
      intro l' w' haccrued hb'
      rw [hb']
      cases hb : w.beat with
      | idle =>
        rw [hb] at hbeat
        exact haccrued.trans hbeat
      | accruing s =>
        rw [hb] at hbeat
        refine ⟨haccrued.trans hbeat.1, hbeat.2.1, hbeat.2.2.1, ?_⟩
        intro hf
        have hnone := (hbeat.2.2.2 hf).1
        rw [hr] at hnone
        cases hnone
      | marking s =>
        rw [hb] at hbeat
        refine ⟨haccrued.trans hbeat.1, ?_⟩
        intro hf
        have hnone := (hbeat.2 hf).1
        rw [hr] at hnone
        cases hnone
      | finished => trivial
    have hnone : ∀ r' ∈ (none : Option RepaymentIn), r'.loanId = loanId := by
      intro r' hr'
      cases hr'
    dsimp only
    rcases commit_cases (applyRepayment ar r) w.tables with ⟨repaymentId, t', hok, heq⟩ | heq
    · rw [heq]
      rcases applyRepayment_ok hok with
        rfl | ⟨loan, row, entryId, t₁, -, hloan, hactive, hpost, hrec⟩
      · exact ⟨l, h.of_same rfl rfl rfl hnone (hfits l _ rfl rfl), id⟩
      · rw [hloanId, h.row] at hloan
        obtain rfl : l = loan := Option.some.inj hloan
        obtain ⟨-, hid⟩ := loan?_eq_some h.row
        obtain ⟨rp, hrp, hreps⟩ := hrec.repayments
        have hframe : t₁.loans = w.tables.loans ∧ t₁.repayments = w.tables.repayments := by
          rcases postJournalEntry_ok hpost with ⟨rfl, -⟩ | hposted
          · exact ⟨rfl, rfl⟩
          · obtain ⟨hl, hreps', -⟩ := hposted.frame
            exact ⟨hl, hreps'⟩
        refine ⟨row, ⟨?_, ?_, hnone, hfits row _ rfl rfl⟩, ?_⟩
        · have hrow : (w.tables.putLoan row).loan? loanId = some row := by
            rw [loan?_putLoan, h.row, Option.map_some, if_pos hrec.saved.terms.id.symm]
          have hloans : t'.loans = (w.tables.putLoan row).loans := by
            rw [hrec.loans, Tables.putLoan, hframe.1]
            rfl
          unfold Tables.loan? at *
          rw [hloans]
          exact hrow
        · show row.accruedInterest.val = l₀.accruedInterest.val + w.accrued
            - (t'.interestApplied loanId - t₀.interestApplied loanId)
          have happlied : t'.interestApplied loanId
              = w.tables.interestApplied loanId + rp.interestApplied.val := by
            unfold Tables.interestApplied
            rw [hreps, hframe.2, List.filter_append, List.map_append, List.sum_append]
            simp [hrp.loanId, hid]
          rw [hrec.interest (hfresh r hr l h.row) hrp, happlied, h.interest]
          ring
        · intro hclosed
          rw [hclosed] at hactive
          rcases hactive with hc | hc <;> cases hc
    · rw [heq]
      exact ⟨l, h.of_same rfl rfl rfl hnone (hfits l _ rfl rfl), id⟩

/-! ### Runs -/

/-- One fresh step: the row stays sound, and a closed loan stays closed. -/
theorem World.Sound.step (h : w.Sound loanId t₀ l₀ l) {a : BeatAction} (hfresh : a.Fresh loanId w) :
    ∃ l', (a.step ar task loanId w).Sound loanId t₀ l₀ l' ∧
      (l.status = .closed → l'.status = .closed) := by
  cases a with
  | readLoans => exact ⟨l, h.readLoans, id⟩
  | queryInstallments => exact ⟨l, h.queryInstallments, id⟩
  | flush => exact ⟨l, h.flush hfresh, id⟩
  | commitTask => exact h.commitTask
  | lockLoan r => exact ⟨l, h.lockLoan r, id⟩
  | commitRepayment => exact h.commitRepayment hfresh

theorem World.Sound.run (h : w.Sound loanId t₀ l₀ l) {actions : List BeatAction}
    (hfresh : Along (BeatAction.step ar task loanId) (BeatAction.Fresh loanId) w actions) :
    ∃ l', (Lib.run (BeatAction.step ar task loanId) w actions).Sound loanId t₀ l₀ l' ∧
      (l.status = .closed → l'.status = .closed) := by
  induction actions generalizing w l with
  | nil => exact ⟨l, h, id⟩
  | cons a rest ih =>
    obtain ⟨l₁, h₁, hclosed₁⟩ : ∃ l₁, (a.step ar task loanId w).Sound loanId t₀ l₀ l₁ ∧
        (l.status = .closed → l₁.status = .closed) := h.step hfresh.1
    obtain ⟨l₂, h₂, hclosed₂⟩ := ih h₁ hfresh.2
    exact ⟨l₂, h₂, fun hc => hclosed₂ (hclosed₁ hc)⟩

end

/-- In every interleaving in which each flush finds the column it overwrites as it was read,
no committed update is lost. -/
theorem beat_loses_no_update (ar : LienArithmetic) (task : BeatTask) {t : Tables} {l₀ : Loan}
    (hl₀ : t.loan? l₀.id = some l₀) {actions : List BeatAction}
    (hfresh : Along (BeatAction.step ar task l₀.id) (BeatAction.Fresh l₀.id) (World.start t)
      actions) : NoLostUpdate ar task t l₀ actions where
  interest := by
    obtain ⟨l, h, -⟩ := (sound_start hl₀).run hfresh
    exact ⟨l, h.row, h.interest⟩
  closed := by
    rintro before after rfl l hl hclosed
    obtain ⟨hbefore, hafter⟩ := along_append.mp hfresh
    obtain ⟨l₁, h₁, -⟩ := (sound_start hl₀).run hbefore
    obtain rfl : l = l₁ := Option.some.inj ((Option.mem_def.mp hl).symm.trans h₁.row)
    obtain ⟨l', h', hstays⟩ := h₁.run hafter
    rw [run_append]
    exact ⟨l', h'.row, hstays hclosed⟩

/-! ## Three interleavings -/

/-- 28 March 2026, when the second instalment of the sample loan is due. -/
def secondDueDay : Date := ⟨739703, by decide⟩

/-- The sample loan with the interest of its first period accrued. -/
def accruedTables : Tables :=
  run (CreditOp.step .python) (sampleTenant .reducingBalance)
    [sampleDisbursement, .accrueInterest firstDueDay]

def accruedLoan : Loan := (accruedTables.loan? 11).get (by decide +kernel)

/-- The sample loan as it was disbursed. -/
def disbursedTables : Tables :=
  run (CreditOp.step .python) (sampleTenant .reducingBalance) [sampleDisbursement]

def disbursedLoan : Loan := (disbursedTables.loan? 11).get (by decide +kernel)

/-- The accrual task commits between two repayments; the second had to wait for it. -/
def orderlyActions : List BeatAction :=
  [.lockLoan (sampleRepayment 4 "p1"), .commitRepayment, .readLoans, .queryInstallments, .flush,
    .flush, .lockLoan (sampleRepayment 6 "p2"), .commitTask, .lockLoan (sampleRepayment 6 "p2"),
    .commitRepayment]

/-- A repayment commits between the read of the accrual task and its flush. -/
def staleAccrualActions : List BeatAction :=
  [.readLoans, .lockLoan (sampleRepayment 10 "p1"), .commitRepayment, .queryInstallments, .flush,
    .flush, .commitTask]

/-- A repayment closes the loan between the read of the arrears task and its flush. -/
def staleArrearsActions : List BeatAction :=
  [.readLoans, .lockLoan (sampleRepayment 1000 "p1"), .commitRepayment, .queryInstallments, .flush,
    .commitTask]

theorem beat_loses_no_update_orderly :
    NoLostUpdate .python (.accrueInterest secondDueDay) accruedTables accruedLoan orderlyActions :=
  beat_loses_no_update .python (.accrueInterest secondDueDay) (by decide +kernel)
    (by decide +kernel)

/-- The accrual task writes the interest of the first period back that was just paid, and the
arrears task takes a closed loan for one in arrears. -/
theorem beat_overwrites_repayment :
    ¬ NoLostUpdate .python (.accrueInterest secondDueDay) accruedTables accruedLoan
        staleAccrualActions ∧
      ¬ NoLostUpdate .python (.markArrears secondDueDay) disbursedTables disbursedLoan
        staleArrearsActions := by
  refine ⟨?_, ?_⟩
  · intro h
    have hinterest := h.interest
    revert hinterest
    decide +kernel
  · intro h
    have hclosed := h.closed (staleArrearsActions.take 3) (staleArrearsActions.drop 3)
      (List.take_append_drop 3 _).symm
    revert hclosed
    decide +kernel

end SaccoPlatform
