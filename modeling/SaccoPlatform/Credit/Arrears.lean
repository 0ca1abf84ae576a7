import SaccoPlatform.Credit.Accruals
import SaccoPlatform.Credit.Instalments
import SaccoPlatform.Credit.Posting

/-!
# Loans in arrears

The arrears task moves a disbursed loan into arrears when an instalment is late, and marks its late
instalments. A loan that is in arrears already is only looked at for the way back: what becomes late
meanwhile is not marked, and a repayment takes the mark from an instalment that it pays in part. The
task also counts superseded instalments.
-/

namespace SaccoPlatform

open Lib Session

/-! ## Late instalments -/

/-- What is late on the day among the instalments of a loan: not superseded, not fully paid, and due
before. -/
def lateInstallments (today : Date) (rows : List LoanInstallment) : List LoanInstallment :=
  rows.filter fun inst => inst.isSuperseded = false ∧ inst.status ≠ .paid ∧ inst.dueDate < today

/-- The earliest late instalment, if there is one, is marked. -/
def FirstMarked (today : Date) (rows : List LoanInstallment) : Prop :=
  ∀ inst ∈ lateInstallments today rows, ∃ first ∈ lateInstallments today rows,
    first.status = .overdue ∧ first.dueDate ≤ inst.dueDate

instance (today : Date) : DecidablePred (FirstMarked today) := fun rows =>
  inferInstanceAs (Decidable (∀ inst ∈ lateInstallments today rows,
    ∃ first ∈ lateInstallments today rows, _ ∧ _))

/-- The status of a loan and the marks of its instalments agree with the dates. -/
structure MarkedLoan (today : Date) (status : LoanStatus) (rows : List LoanInstallment) : Prop where
  disbursed : status = .disbursed → lateInstallments today rows = []
  inArrears : status = .inArrears → FirstMarked today rows

/-- Every loan is marked. -/
def Tables.Marked (t : Tables) (today : Date) : Prop :=
  ∀ l ∈ t.loans, MarkedLoan today l.status (t.loanInstallments l.id)

/-- What the task looks at: an open instalment that was due before, superseded or not. -/
def HasOverdue (today : Date) (rows : List LoanInstallment) : Prop :=
  ∃ inst ∈ rows, inst.dueDate < today ∧ inst.Open

theorem open_iff_ne_paid {inst : LoanInstallment} : inst.Open ↔ inst.status ≠ .paid := by
  unfold LoanInstallment.Open
  cases inst.status <;> simp

theorem mem_lateInstallments {today : Date} {rows : List LoanInstallment} {inst : LoanInstallment} :
    inst ∈ lateInstallments today rows ↔ inst ∈ rows ∧ inst.isSuperseded = false ∧
      inst.status ≠ .paid ∧ inst.dueDate < today := by
  rw [lateInstallments, List.mem_filter, decide_eq_true_eq]

/-- Without an overdue instalment none is late. -/
theorem lateInstallments_eq_nil {today : Date} {rows : List LoanInstallment}
    (h : ¬ HasOverdue today rows) : lateInstallments today rows = [] := by
  rw [List.eq_nil_iff_forall_not_mem]
  intro inst hinst
  obtain ⟨hmem, -, hpaid, hdue⟩ := mem_lateInstallments.mp hinst
  exact h ⟨inst, hmem, hdue, open_iff_ne_paid.mpr hpaid⟩

theorem overdueInstallments_ne_nil {t : Tables} {today : Date} {loanId : Uuid} :
    t.overdueInstallments today loanId ≠ [] ↔ HasOverdue today (t.loanInstallments loanId) := by
  rw [← List.isEmpty_eq_false_iff, List.isEmpty_eq_false_iff_exists_mem]
  simp only [Tables.overdueInstallments, List.mem_filter, decide_eq_true_eq, HasOverdue,
    mem_loanInstallments, and_assoc]

/-! ## Marks are older than the day -/

/-- No instalment is marked that was not due before the day. -/
def Tables.OverdueBefore (t : Tables) (today : Date) : Prop :=
  ∀ inst ∈ t.installments, inst.status = .overdue → inst.dueDate < today

def KeepsOverdue (today : Date) (t t' : Tables) : Prop := t.OverdueBefore today → t'.OverdueBefore today

instance (today : Date) : IsPreorder Tables (KeepsOverdue today) where
  refl _ h := h
  trans _ _ _ h h' hover := h' (h hover)

/-- The task marks what was due before its day, and nothing else marks an instalment. -/
theorem keepsOverdue_admits (today : Date) : Admits (KeepsOverdue today) (fun _ => True)
    (fun inst => inst.status = .overdue → inst.dueDate < today) (· ≤ today) where
  other hinst _ _ h := by
    unfold Tables.OverdueBefore
    rw [hinst]
    exact h
  post hinst _ _ _ h := by
    unfold Tables.OverdueBefore
    rw [hinst]
    exact h
  insert _ _ hpending h inst hinst hover := by
    rcases List.mem_append.mp hinst with hinst | hinst
    · exact h inst hinst hover
    · rw [List.mem_singleton.mp hinst, hpending] at hover
      cases hover
  put t inst row _ hinst hpays h r hr hover := by
    obtain ⟨r₀, hr₀, rfl⟩ := List.mem_map.mp hr
    by_cases hid : r₀.id = row.id
    · rw [if_pos hid] at hover ⊢
      rw [hpays.dueDate]
      rcases hpays.status with hstatus | hstatus | hstatus
      · exact hinst (hstatus.symm.trans hover)
      · rw [hstatus] at hover
        cases hover
      · rw [hstatus] at hover
        cases hover
    · rw [if_neg hid] at hover ⊢
      exact h r₀ hr₀ hover
  map t f hf h r hr hover := by
    obtain ⟨r₀, hr₀, rfl⟩ := List.mem_map.mp hr
    rw [(hf r₀).dueDate]
    exact h r₀ hr₀ ((hf r₀).status.symm.trans hover)
  mark t d loanId hd h r hr hover := by
    obtain ⟨r₀, hr₀, rfl⟩ := List.mem_map.mp hr
    unfold LoanInstallment.markOverdue at hover ⊢
    by_cases hmarks : r₀.loanId = loanId ∧ r₀.dueDate < d ∧ (r₀.status = .pending ∨ r₀.status = .partiallyPaid)
    · rw [if_pos hmarks]
      exact Nat.lt_of_lt_of_le hmarks.2.1 hd
    · rw [if_neg hmarks] at hover ⊢
      exact h r₀ hr₀ hover
  outside hinst hnot h := absurd (h _ hinst) hnot

/-- In a run no arrears task of which came later than the day, no instalment is marked that was not due
before it. -/
theorem run_overdueBefore (ar : LienArithmetic) {t : Tables} (hgenesis : t.Genesis) {ops : List CreditOp}
    {today : Date} (hdays : ∀ d, .markArrears d ∈ ops → d ≤ today) :
    (run (CreditOp.step ar) t ops).OverdueBefore today := by
  have hstart : t.OverdueBefore today := by
    unfold Tables.OverdueBefore
    rw [hgenesis.installments]
    exact fun inst hinst => absurd hinst List.not_mem_nil
  clear hgenesis
  induction ops generalizing t with
  | nil => exact hstart
  | cons op ops ih =>
    apply ih
    · exact fun d hd => hdays d (List.mem_cons_of_mem _ hd)
    · refine step_admitted (keepsOverdue_admits today) ar ?_ (fun _ _ => trivial) (fun _ => trivial)
        (fun _ _ _ _ _ => trivial) hstart
      intro d hop
      exact hdays d (hop ▸ List.mem_cons_self)

/-! ## Loans of a run -/

/-- The columns of a loan stay non-negative. -/
theorem nonneg_kept : Kept (fun _ _ => True) (fun _ _ _ => True) fun _ l => l.Nonneg where
  frame _ _ _ h _ := h
  change _ _ _ _ _ _ _ _ hsaved _ _ := hsaved.nonneg
  opened _ _ _ _ _ _ _ hopened _ _ := hopened.nonneg

theorem run_nonneg (ar : LienArithmetic) {t : Tables} (hgenesis : t.Genesis) {ops : List CreditOp}
    (hops : Along (CreditOp.step ar) (fun _ op => op.ForeignKeys) t ops) :
    Loanwise (fun _ l => l.Nonneg) (run (CreditOp.step ar) t ops) := by
  refine nonneg_kept.run hgenesis (hops.mono ?_)
  intro t op hop
  exact ⟨hop, fun _ _ _ => trivial, fun _ _ _ _ => trivial⟩

/-! ## What the task does to a loan -/

/-- What a round of the task makes of the status and the instalments of its loan. -/
inductive ArrearsStep (today : Date) (loanId : Uuid) :
    LoanStatus → List LoanInstallment → LoanStatus → List LoanInstallment → Prop where
  | enter {rows} : HasOverdue today rows →
    ArrearsStep today loanId .disbursed rows .inArrears (rows.map (LoanInstallment.markOverdue today loanId))
  | leave {rows} : ¬ HasOverdue today rows → ArrearsStep today loanId .inArrears rows .disbursed rows
  | stay {status rows} : (status = .disbursed → ¬ HasOverdue today rows) →
    (status = .inArrears → HasOverdue today rows) → ArrearsStep today loanId status rows status rows

/-- After a round the loan is marked, unless it was in arrears before and stays there. -/
theorem ArrearsStep.marked {today : Date} {loanId : Uuid} {status status' : LoanStatus}
    {rows rows' : List LoanInstallment} (h : ArrearsStep today loanId status rows status' rows')
    (hown : ∀ r ∈ rows, r.loanId = loanId) :
    MarkedLoan today status' rows' ↔ (status = .inArrears → FirstMarked today rows) := by
  cases h with
  | enter hover =>
    refine iff_of_true ⟨nofun, fun _ inst hinst => ⟨inst, hinst, ?_, Nat.le_refl _⟩⟩ nofun
    obtain ⟨hmem, -, hpaid, hdue⟩ := mem_lateInstallments.mp hinst
    obtain ⟨r, hr, rfl⟩ := List.mem_map.mp hmem
    unfold LoanInstallment.markOverdue at hpaid hdue ⊢
    by_cases hmarks : r.loanId = loanId ∧ r.dueDate < today ∧
        (r.status = .pending ∨ r.status = .partiallyPaid)
    · rw [if_pos hmarks]
    · rw [if_neg hmarks] at hpaid hdue ⊢
      -- a late instalment that was not marked now was marked before
      cases hstatus : r.status with
      | overdue => rfl
      | paid => exact absurd hstatus hpaid
      | pending => exact absurd ⟨hown r hr, hdue, .inl hstatus⟩ hmarks
      | partiallyPaid => exact absurd ⟨hown r hr, hdue, .inr hstatus⟩ hmarks
  | leave hnone =>
    have hnil := lateInstallments_eq_nil hnone
    refine iff_of_true ⟨fun _ => hnil, nofun⟩ ?_
    intro _ inst hinst
    rw [hnil] at hinst
    exact absurd hinst List.not_mem_nil
  | stay hdisbursed _ =>
    constructor
    · exact fun hmarked => hmarked.inArrears
    · exact fun hfirst => ⟨fun hd => lateInstallments_eq_nil (hdisbursed hd), hfirst⟩

theorem loanInstallments_markOverdue (t : Tables) (today : Date) (loanId id : Uuid) :
    (t.markOverdue today loanId).loanInstallments id =
      (t.loanInstallments id).map (LoanInstallment.markOverdue today loanId) := by
  show (t.installments.map _).filter _ = (t.installments.filter _).map _
  rw [List.filter_map]
  congr 2
  funext r
  simp only [Function.comp_apply, LoanInstallment.markOverdue]
  split <;> rfl

/-- The instalments of other loans are not marked. -/
theorem loanInstallments_markOverdue_of_ne (t : Tables) (today : Date) {loanId id : Uuid}
    (hne : id ≠ loanId) : (t.markOverdue today loanId).loanInstallments id = t.loanInstallments id := by
  rw [loanInstallments_markOverdue]
  conv_rhs => rw [← List.map_id (t.loanInstallments id)]
  apply List.map_congr_left
  intro r hr
  have hown : ¬ r.loanId = loanId := by
    rw [(mem_loanInstallments.mp hr).2]
    exact hne
  unfold LoanInstallment.markOverdue
  rw [if_neg fun hmarks => hown hmarks.1]
  rfl

/-- What the task sees of a loan. -/
def Tables.loanView (t : Tables) (id : Uuid) : Option Loan × List LoanInstallment :=
  (t.loan? id, t.loanInstallments id)

theorem loanView_putLoan_of_ne (t : Tables) {row : Loan} {id : Uuid} (hne : id ≠ row.id) :
    (t.putLoan row).loanView id = t.loanView id := by
  have hloan : (t.putLoan row).loan? id = t.loan? id := by
    rw [loan?_putLoan]
    cases hr : t.loan? id with
    | none => rfl
    | some r =>
      rw [Option.map_some, if_neg]
      rw [(loan?_eq_some hr).2]
      exact hne
  exact Prod.ext hloan rfl

/-- A round leaves the other loans alone. -/
theorem markLoan_other (today : Date) (t : Tables) {loanId id : Uuid} (hne : id ≠ loanId) :
    (commit (markLoan today loanId) t).loanView id = t.loanView id := by
  rcases commit_cases (markLoan today loanId) t with ⟨changed, t', hok, heq⟩ | heq
  · rw [heq]
    rcases markLoan_cases hok with
      ⟨rfl, -⟩ | ⟨loan, row, hl, ⟨-, -, hsaved, rfl⟩ | ⟨-, -, hsaved, rfl⟩⟩
    · rfl
    · have hrow : row.id = loanId := hsaved.terms.id.trans (loan?_eq_some hl).2
      rw [loanView_putLoan_of_ne _ (hrow.symm ▸ hne)]
      exact Prod.ext rfl (loanInstallments_markOverdue_of_ne t today hne)
    · have hrow : row.id = loanId := hsaved.terms.id.trans (loan?_eq_some hl).2
      exact loanView_putLoan_of_ne _ (hrow.symm ▸ hne)
  · rw [heq]

/-- A loan with columns in order is always written back. -/
theorem returns_markLoan {today : Date} {loanId : Uuid} {t : Tables}
    (h : ∀ l, t.loan? loanId = some l → l.Nonneg) : Returns (markLoan today loanId) t := by
  have hsave : ∀ l, t.loan? loanId = some l → ∀ status s, Returns (saveLoan l l.balances status) s := by
    intro l hl status s
    refine returns_saveLoan ?_ (h l hl).outstanding (h l hl).interest (h l hl).penalties
    intro q hq
    simp only [List.mem_cons, List.not_mem_nil, or_false] at hq
    rcases hq with rfl | rfl | rfl | rfl | rfl | rfl | rfl <;> exact fits_column _
  refine returns_get_bind.mpr ?_
  cases hl : t.loan? loanId with
  | none => exact returns_pure _ _
  | some l =>
    dsimp only
    split_ifs
    · exact returns_modify_bind.mpr ((hsave l hl _ _).bind fun _ _ _ => returns_pure _ _)
    · exact (hsave l hl _ _).bind fun _ _ _ => returns_pure _ _
    · exact returns_pure _ _

theorem markLoan_own {today : Date} {loanId : Uuid} {t : Tables} {l : Loan}
    (hl : t.loan? loanId = some l) (hnonneg : l.Nonneg) :
    ∃ row, (commit (markLoan today loanId) t).loan? loanId = some row ∧
      ArrearsStep today loanId l.status (t.loanInstallments loanId) row.status
        ((commit (markLoan today loanId) t).loanInstallments loanId) := by
  have hreturns : Returns (markLoan today loanId) t := by
    apply returns_markLoan
    intro l' hl'
    rw [hl] at hl'
    cases hl'
    exact hnonneg
  obtain ⟨changed, t', hok⟩ := hreturns
  rw [commit_of_ok hok]
  have hput : ∀ (s : Tables) (row : Loan), s.loan? loanId = some l → row.id = l.id →
      (s.putLoan row).loan? loanId = some row := by
    intro s row hs hid
    rw [loan?_putLoan, hs, Option.map_some, if_pos hid.symm]
  rcases markLoan_cases hok with
    ⟨rfl, hstay⟩ | ⟨loan, row, hloan, ⟨hstatus, hover, hsaved, rfl⟩ | ⟨hstatus, hnone, hsaved, rfl⟩⟩
  · obtain ⟨hdisbursed, harrears⟩ := hstay l hl
    refine ⟨l, hl, .stay ?_ ?_⟩
    · intro hd hover
      exact overdueInstallments_ne_nil.mpr hover (hdisbursed hd)
    · exact fun ha => overdueInstallments_ne_nil.mp (harrears ha)
  · rw [hl] at hloan
    cases hloan
    refine ⟨row, hput _ row hl hsaved.terms.id, ?_⟩
    have hrows : ((t.markOverdue today loanId).putLoan row).loanInstallments loanId =
        (t.loanInstallments loanId).map (LoanInstallment.markOverdue today loanId) :=
      loanInstallments_markOverdue t today loanId loanId
    rw [hrows, hsaved.status, hstatus]
    exact .enter (overdueInstallments_ne_nil.mp hover)
  · rw [hl] at hloan
    cases hloan
    refine ⟨row, hput t row hl hsaved.terms.id, ?_⟩
    rw [hsaved.status, hstatus]
    exact .leave fun hover => overdueInstallments_ne_nil.mpr hover hnone

/-! ## What the task does to all loans -/

/-- The task is a run of its rounds. -/
theorem step_markArrears (ar : LienArithmetic) (today : Date) (t : Tables) :
    CreditOp.step ar t (.markArrears today) =
      run (fun s loan => commit (markLoan today loan.id) s) t (t.loans.filter fun l => l.Active) := by
  have hreturns : Returns (markArrearsForTenant today) t := by
    refine returns_get_bind.mpr (returns_foldEach ?_ _ _)
    intro count loan _ s
    rcases savepoint_cases (markLoan today loan.id) s with ⟨_, _, _, heq⟩ | heq
    · exact returns_bind.mpr ⟨_, _, heq, returns_pure _ _⟩
    · exact returns_bind.mpr ⟨_, _, heq, returns_pure _ _⟩
  obtain ⟨n, t', hok⟩ := hreturns
  show commit (markArrearsForTenant today) t = _
  rw [commit_of_ok hok]
  exact foldEach_savepoint hok

theorem BooksOk.loan?_of_mem {t : Tables} (h : BooksOk t) {l : Loan} (hl : l ∈ t.loans) :
    t.loan? l.id = some l := by
  have hfound : (t.loan? l.id).isSome := List.find?_isSome.mpr ⟨l, hl, decide_eq_true rfl⟩
  obtain ⟨r, hr⟩ := Option.isSome_iff_exists.mp hfound
  obtain ⟨hmem, hid⟩ := loan?_eq_some hr
  rw [hr, h.loan_unique hl hmem hid]

/-- Every loan goes through its round. -/
theorem step_markArrears_loan (ar : LienArithmetic) {today : Date} {t : Tables}
    (h : Loanwise (fun _ l => l.Nonneg) t) (id : Uuid) :
    Option.Rel (fun l row => ArrearsStep today id l.status (t.loanInstallments id) row.status
        ((CreditOp.step ar t (.markArrears today)).loanInstallments id))
      (t.loan? id) ((CreditOp.step ar t (.markArrears today)).loan? id) := by
  have hnodup : ((t.loans.filter fun l => l.Active).map (·.id)).Nodup :=
    h.books.unique.sublist (List.filter_sublist.map _)
  rw [step_markArrears]
  have hother : ∀ (s : Tables) (loan : Loan) (id : Uuid), id ≠ loan.id →
      (commit (markLoan today loan.id) s).loanView id = s.loanView id :=
    fun s loan id hne => markLoan_other today s hne
  rcases run_at hother hnodup t id with
    ⟨hnone, hsame⟩ | ⟨loan, hloan, rfl, front, hfront, hend⟩
  · obtain ⟨hloan?, hrows⟩ := Prod.ext_iff.mp hsame
    simp only [Tables.loanView] at hloan? hrows
    rw [hloan?, hrows]
    cases hl : t.loan? id with
    | none => exact .none
    | some l =>
      obtain ⟨hmem, rfl⟩ := loan?_eq_some hl
      have hinactive : ¬ l.Active := fun hactive =>
        hnone l (List.mem_filter.mpr ⟨hmem, decide_eq_true hactive⟩) rfl
      exact .some (.stay (fun hd => absurd (.inl hd) hinactive) fun ha => absurd (.inr ha) hinactive)
  · obtain ⟨hloan?, hrows⟩ := Prod.ext_iff.mp hfront
    obtain ⟨hloan?', hrows'⟩ := Prod.ext_iff.mp hend
    simp only [Tables.loanView] at hloan? hrows hloan?' hrows'
    rw [hloan?', hrows', ← hrows, ← hloan?]
    have hmem := (List.mem_filter.mp hloan).1
    rw [h.books.loan?_of_mem hmem] at hloan?
    obtain ⟨row, hrow, hstep⟩ := @markLoan_own today loan.id _ loan hloan? (h.loans loan hmem)
    rw [hloan?, hrow]
    exact .some hstep

/-- After the task a tenant is marked exactly when every loan that was in arrears before it had its earliest
late instalment marked already. -/
theorem markArrears_marked (ar : LienArithmetic) {today : Date} {t : Tables}
    (h : Loanwise (fun _ l => l.Nonneg) t) :
    (CreditOp.step ar t (.markArrears today)).Marked today ↔
      ∀ l ∈ t.loans, l.status = .inArrears → FirstMarked today (t.loanInstallments l.id) := by
  have hown : ∀ id, ∀ r ∈ t.loanInstallments id, r.loanId = id :=
    fun id r hr => (mem_loanInstallments.mp hr).2
  have hbooks : BooksOk (CreditOp.step ar t (.markArrears today)) := h.books.step ar trivial
  constructor
  · intro hmarked l hl
    have hround := @step_markArrears_loan ar today t h l.id
    rw [h.books.loan?_of_mem hl] at hround
    generalize hrow : (CreditOp.step ar t (.markArrears today)).loan? l.id = o at hround
    cases hround with
    | some hstep =>
      obtain ⟨hmem, hid⟩ := loan?_eq_some hrow
      rw [← hstep.marked (hown _), ← hid]
      exact hmarked _ hmem
  · intro hfirst row hrow
    have hround := @step_markArrears_loan ar today t h row.id
    rw [hbooks.loan?_of_mem hrow] at hround
    generalize hl : t.loan? row.id = o at hround
    cases hround with
    | some hstep =>
      obtain ⟨hmem, hid⟩ := loan?_eq_some hl
      rw [hstep.marked (hown _), ← hid]
      exact hfirst _ hmem

end SaccoPlatform
