import SaccoPlatform.Credit.Charges

/-!
# Payment holidays

A payment holiday supersedes the unpaid instalments of a loan and copies them to later due dates. The
accrual task does not look at `is_superseded`: it accrues the old rows under their old dates, and a
copy under its new one. So the interest of a loan is charged once as long as no holiday copies an
instalment that carries interest.
-/

namespace SaccoPlatform

open Lib Session

section

variable {loanId : Uuid} {t t' : Tables}

/-! ## Writes that leave a loan alone -/

/-- The row still stands for the same charge. -/
structure LoanInstallment.SameCharge (r r' : LoanInstallment) : Prop where
  loanId : r'.loanId = r.loanId
  dueDate : r'.dueDate = r.dueDate
  interestDue : r'.interestDue = r.interestDue
  opened : r.Open → r'.Open

/-- The instalments are written back, and tables that the task does not look at may change. -/
theorem untouched_map {f : LoanInstallment → LoanInstallment}
    (hf : ∀ r : LoanInstallment, r.SameCharge (f r))
    (hinst : t'.installments = t.installments.map f) (hloans : t'.loans = t.loans)
    (hentries : t'.entries = t.entries) (haccounts : t'.accounts = t.accounts) :
    Untouched loanId t t' := by
  have hrows : t'.loanInstallments loanId = (t.loanInstallments loanId).map f := by
    unfold Tables.loanInstallments
    rw [hinst, List.filter_map]
    congr 1
    apply List.filter_congr
    intro r _
    show decide ((f r).loanId = loanId) = decide (r.loanId = loanId)
    rw [(hf r).loanId]
  refine ⟨?_, ?_, ?_, ?_, ?_, haccounts⟩
  · unfold Tables.interestCharges
    rw [hrows, List.filter_map, List.map_map]
    simp only [Function.comp_def, (hf _).dueDate, (hf _).interestDue]
  · intro h inst hinst
    rw [hrows] at hinst
    obtain ⟨r, hr, rfl⟩ := List.mem_map.mp hinst
    exact (hf r).opened (h r hr)
  · intro l hl
    refine ⟨l, ?_, .refl l⟩
    unfold Tables.loan? at hl ⊢
    rw [hloans]
    exact hl
  · intro d
    unfold Tables.Accrued
    rw [hentries]
  · unfold Tables.loanLines
    rw [hentries]

/-- The row of a loan is written back. -/
theorem untouched_putLoan {l row : Loan} (hl : t.loan? l.id = some l) (halike : l.Alike row) :
    Untouched loanId t (t.putLoan row) := by
  refine ⟨rfl, fun h => h, ?_, fun _ => Iff.rfl, rfl, rfl⟩
  intro l' hl'
  rw [loan?_putLoan, hl', Option.map_some]
  by_cases hid : row.id = l'.id
  · have hsame : l' = l := by
      have hown : l.id = loanId := halike.terms.id.symm.trans (hid.trans (loan?_eq_some hl').2)
      rw [hown, hl'] at hl
      exact Option.some.inj hl
    rw [if_pos hid.symm]
    exact ⟨row, rfl, hsame ▸ halike⟩
  · rw [if_neg fun heq => hid heq.symm]
    exact ⟨l', rfl, .refl l'⟩

/-- A new instalment of another loan, or one without interest. -/
theorem insertInstallment_untouched {l : Uuid} {row : ScheduledInstallment}
    (h : l = loanId → roundAt 4 row.interestDue ≤ 0) (restructuringId : Option Uuid) :
    Moves (Untouched loanId) (insertInstallment l restructuringId row) := by
  apply (neverRaises_insertInstallment l restructuringId row).moves
  intro t id t' hok
  obtain ⟨inst, hstored, rfl⟩ := insertInstallment_stores hok
  have hnone : ∀ i ∈ [inst].filter (fun i => i.loanId = loanId), i.interestDue.val ≤ 0 := by
    intro i hi
    obtain ⟨hi, hloan⟩ := List.mem_filter.mp hi
    rw [List.mem_singleton.mp hi] at hloan ⊢
    rw [hstored.interestDue]
    exact h (hstored.loanId.symm.trans (of_decide_eq_true hloan))
  refine ⟨?_, ?_, fun l hl => ⟨l, hl, .refl l⟩, fun _ => Iff.rfl, rfl, rfl⟩
  · unfold Tables.interestCharges
    rw [loanInstallments_withInstallments, List.filter_append]
    have hempty : ([inst].filter fun i => i.loanId = loanId).filter
        (fun i => 0 < i.interestDue.val) = [] := by
      rw [List.filter_eq_nil_iff]
      intro i hi
      simpa using hnone i hi
    rw [hempty, List.append_nil]
  · intro hopen i hi
    rw [loanInstallments_withInstallments] at hi
    rcases List.mem_append.mp hi with hi | hi
    · exact hopen i hi
    · rw [List.mem_singleton.mp (List.mem_filter.mp hi).1]
      exact hstored.opened

/-! ## Holidays -/

/-- The instalments that a payment holiday copies: the copying stops at the first new date that is
none. -/
def Tables.copiedInstallments (t : Tables) (l : Loan) (periodsAdded : ℤ) : List LoanInstallment :=
  (t.unpaidInstallments l.id).takeWhile fun inst =>
    (shiftDate inst.dueDate l.repaymentFrequency periodsAdded).isOk

theorem shiftUnpaid_untouched {loan : Loan} {unpaid : List LoanInstallment} {periodsAdded : ℤ}
    (h : loan.id = loanId → ∀ inst ∈ unpaid.takeWhile fun inst =>
      (shiftDate inst.dueDate loan.repaymentFrequency periodsAdded).isOk, inst.interestDue.val ≤ 0)
    (today : Date) : Moves (Untouched loanId) (shiftUnpaid today loan unpaid periodsAdded) := by
  unfold shiftUnpaid
  refine moves_bind ?_ fun _ => moves_pure _
  generalize (([] : List Uuid), loan.maturityDate.getD today) = acc
  induction unpaid generalizing acc with
  | nil => exact moves_pure acc
  | cons orig rest ih =>
    cases hshift : shiftDate orig.dueDate loan.repaymentFrequency periodsAdded with
    | error e =>
      -- the exception ends the loop
      simp only [foldEach, hshift]
      exact moves_raise e
    | ok dueDate =>
      rw [List.takeWhile_cons_of_pos (by rw [hshift]; rfl)] at h
      simp only [foldEach, hshift]
      apply moves_bind
      · apply moves_bind (moves_ofExcept _)
        intro _
        refine moves_bind (insertInstallment_untouched ?_ none) fun _ => moves_pure _
        intro hown
        show roundAt 4 orig.interestDue.val ≤ 0
        rw [roundAt_of_mem orig.interestDue.onGrid]
        exact h hown orig List.mem_cons_self
      · intro acc'
        exact ih (fun hown inst hinst => h hown inst (List.mem_cons_of_mem _ hinst)) acc'

theorem replaceSchedule_untouched {loan : Loan} {type : String} {periodsAdded : ℤ}
    (htype : type ≠ "term_extension") (h : loan.id = loanId →
      ∀ inst ∈ t.copiedInstallments loan periodsAdded, inst.interestDue.val ≤ 0) (today : Date) :
    MovesFrom (Untouched loanId) (replaceSchedule today loan type periodsAdded) t := by
  unfold replaceSchedule
  apply movesFrom_get_bind
  refine (show Moves (Untouched loanId) _ from ?_) t
  simp only [if_neg htype]
  apply moves_bind
  · refine moves_modify fun s => untouched_map ?_ rfl rfl rfl rfl
    intro r
    split
    · exact ⟨rfl, rfl, rfl, fun hr => hr⟩
    · exact ⟨rfl, rfl, rfl, fun hr => hr⟩
  · intro _
    exact shiftUnpaid_untouched h today

theorem recordRestructuring_untouched {loan : Loan} {type key : String} {periodsAdded : ℤ}
    {schedule : NewSchedule} {approvalRequestId : Option Uuid} {id : Uuid}
    (hfound : t.loan? loan.id = some loan)
    (h : recordRestructuring loan type periodsAdded schedule approvalRequestId key t = .ok id t') :
    Untouched loanId t t' := by
  obtain ⟨row, n, rows, events, hsaved, -, -, rfl⟩ := recordRestructuring_rows h
  have hput : Untouched loanId t (t.putLoan row) :=
    untouched_putLoan hfound (hsaved.alike fun hactive => hactive)
  have htagged : ∀ r : LoanInstallment, r.SameCharge
      (if r.id ∈ schedule.ids then { r with restructuringId := some id } else r) := by
    intro r
    split
    · exact ⟨rfl, rfl, rfl, fun hr => hr⟩
    · exact ⟨rfl, rfl, rfl, fun hr => hr⟩
  refine trans_of (Untouched loanId) hput ?_
  exact untouched_map htagged rfl rfl rfl rfl

theorem executeRestructuringOn_untouched {today : Date} {i : Uuid} {type key : String}
    {periodsAdded : ℤ} (htype : type ≠ "term_extension")
    (h : t.restructuring? key = none → i = loanId → ∀ l, t.loan? loanId = some l →
      ∀ inst ∈ t.copiedInstallments l periodsAdded, inst.interestDue.val ≤ 0)
    (approvalRequestId : Option Uuid) :
    MovesFrom (Untouched loanId)
      (executeRestructuringOn today i type periodsAdded key approvalRequestId) t := by
  unfold executeRestructuringOn
  apply movesFrom_get_bind
  cases hkey : t.restructuring? key with
  | some existing => exact moves_pure _ t
  | none =>
    apply movesFrom_orRaise_bind
    intro loan hloan
    obtain ⟨-, rfl⟩ := loan?_eq_some hloan
    have hcopied : loan.id = loanId →
        ∀ inst ∈ t.copiedInstallments loan periodsAdded, inst.interestDue.val ≤ 0 :=
      fun hid => h hkey hid loan (hid ▸ hloan)
    have hreplace := replaceSchedule_untouched htype hcopied today
    apply movesFrom_bind_of_neverRaises
    · intro e t' hraised
      exact hreplace.2 e t' hraised
    · intro schedule
      exact neverRaises_recordRestructuring _ _ _ _ _ _
    · intro schedule t₁ id t' h₁ h₂
      have hsame := (replaceSchedule_moves today loan type periodsAdded).ok h₁
      have hfound : t₁.loan? loan.id = some loan := by
        unfold Tables.loan?
        rw [hsame.frame.2.1]
        exact hloan
      exact trans_of (Untouched loanId) (hreplace.1 schedule t₁ h₁)
        (recordRestructuring_untouched hfound h₂)

/-! ## Arrears -/

theorem markArrearsForTenant_untouched (today : Date) :
    Moves (Untouched loanId) (markArrearsForTenant today) := by
  apply moves_bind moves_get
  intro t
  apply moves_foldEach
  intro count loan _
  refine moves_bind ?_ fun _ => moves_pure _
  apply (neverRaises_savepoint _).moves
  intro s changed s' hok
  rcases savepoint_eq_ok hok with rfl | ⟨b, -, hmark⟩
  · exact refl_of (Untouched loanId) _
  rcases markLoan_cases hmark with
    ⟨rfl, -⟩ | ⟨l, row, hl, ⟨-, -, hsaved, rfl⟩ | ⟨-, -, hsaved, rfl⟩⟩
  · exact refl_of (Untouched loanId) _
  · obtain ⟨-, hid⟩ := loan?_eq_some hl
    have hmarked : Untouched loanId s (s.markOverdue today loan.id) := by
      refine untouched_map ?_ rfl rfl rfl rfl
      intro r
      unfold LoanInstallment.markOverdue
      split
      · exact ⟨rfl, rfl, rfl, fun _ => .inr (.inr rfl)⟩
      · exact ⟨rfl, rfl, rfl, fun hr => hr⟩
    have hfound : (s.markOverdue today loan.id).loan? l.id = some l := by
      rw [hid]
      exact hl
    exact trans_of (Untouched loanId) hmarked
      (untouched_putLoan hfound (hsaved.alike fun _ => .inr rfl))
  · obtain ⟨-, hid⟩ := loan?_eq_some hl
    have hfound : s.loan? l.id = some l := by
      rw [hid]
      exact hl
    exact untouched_putLoan hfound (hsaved.alike fun _ => .inl rfl)

end

/-! ## Runs of the tasks and holidays -/

/-- The daily tasks, and approved payment holidays. -/
def CreditOp.DailyOrHoliday : CreditOp → Prop
  | accrueInterest _ => True
  | markArrears _ => True
  | restructure _ payload => payload.restructuringType = some "payment_holiday"
  | _ => False

instance (op : CreditOp) : Decidable op.DailyOrHoliday := by
  induction op using CreditOp.casesOn <;> unfold CreditOp.DailyOrHoliday <;> infer_instance

/-- A holiday of the loan, under a new key, copies no instalment that carries interest. -/
def CreditOp.SparesInterest (loanId : Uuid) (t : Tables) : CreditOp → Prop
  | restructure _ payload => payload.loanId = some loanId →
      ∀ key ∈ payload.idempotencyKey, t.restructuring? key = none →
        ∀ periodsAdded ∈ payload.periodsAdded, ∀ l ∈ t.loan? loanId,
          ∀ inst ∈ t.copiedInstallments l periodsAdded, inst.interestDue.val ≤ 0
  | _ => True

instance (loanId : Uuid) (t : Tables) (op : CreditOp) : Decidable (op.SparesInterest loanId t) := by
  induction op using CreditOp.casesOn <;> unfold CreditOp.SparesInterest <;> infer_instance

/-- What the runs of the accrual task post for the loan. -/
def interestAccrued (ar : LienArithmetic) (loanId : Uuid) : Tables → List CreditOp → ℚ
  | _, [] => 0
  | t, .accrueInterest today :: ops =>
    (((CreditOp.accrueInterest today).step ar t).loanDebits loanId - t.loanDebits loanId) +
      interestAccrued ar loanId ((CreditOp.accrueInterest today).step ar t) ops
  | t, op :: ops => interestAccrued ar loanId (op.step ar t) ops

section

variable {loanId : Uuid} {t : Tables} {op : CreditOp}

theorem step_untouched (ar : LienArithmetic) (hop : op.DailyOrHoliday)
    (hspares : op.SparesInterest loanId t) (hnot : ∀ today, op ≠ .accrueInterest today) :
    Untouched loanId t (op.step ar t) := by
  cases op with
  | accrueInterest today => exact absurd rfl (hnot today)
  | markArrears today => exact moves_commit (markArrearsForTenant_untouched today) t
  | restructure today payload =>
    apply MovesFrom.commit_attempt
    unfold executeRestructureSchedule
    apply movesFrom_orRaise_bind
    intro i hi
    apply movesFrom_orRaise_bind
    intro type htype
    apply movesFrom_orRaise_bind
    intro periodsAdded hperiods
    apply movesFrom_orRaise_bind
    intro _ _
    apply movesFrom_orRaise_bind
    intro key hkey
    apply movesFrom_orRaise_bind
    intro _ _
    refine MovesFrom.map (executeRestructuringOn_untouched ?_ ?_ _) fun _ => ()
    · obtain rfl : type = "payment_holiday" := Option.some.inj (htype.symm.trans hop)
      decide
    · intro hnew hid l hl
      exact hspares (hid ▸ hi) key hkey hnew periodsAdded hperiods l hl
  | _ => exact hop.elim

variable {due : List (Date × ℚ)} {before : ℚ}

/-- One step: nothing but the charges of an accrual run. -/
theorem Accruing.step (hdue : Chargeable due) (ar : LienArithmetic) (hop : op.DailyOrHoliday)
    (hspares : op.SparesInterest loanId t) (h : Accruing loanId due before t) :
    Accruing loanId due before (op.step ar t) ∧
      ∀ d, t.Accrued loanId d → (op.step ar t).Accrued loanId d := by
  by_cases haccrue : ∃ today, op = .accrueInterest today
  · obtain ⟨today, rfl⟩ := haccrue
    obtain ⟨hnext, hmono, -⟩ := h.accrueInterest hdue ar
    exact ⟨hnext, hmono⟩
  · have hsame := step_untouched ar hop hspares fun today heq => haccrue ⟨today, heq⟩
    exact ⟨h.untouched hsame, fun d hd => (hsame.accrued d).mpr hd⟩

/-- A run of the tasks and of holidays that copy no interest of the loan. -/
def Holidays (ar : LienArithmetic) (loanId : Uuid) (t : Tables) (ops : List CreditOp) : Prop :=
  Along (CreditOp.step ar) (fun s op => op.DailyOrHoliday ∧ op.SparesInterest loanId s) t ops

instance (ar : LienArithmetic) (loanId : Uuid) (t : Tables) (ops : List CreditOp) :
    Decidable (Holidays ar loanId t ops) := inferInstanceAs (Decidable (Along _ _ _ _))

theorem Accruing.run (hdue : Chargeable due) {ar : LienArithmetic} {ops : List CreditOp}
    (hops : Holidays ar loanId t ops) (h : Accruing loanId due before t) :
    Accruing loanId due before (run (CreditOp.step ar) t ops) ∧
      ∀ d, t.Accrued loanId d → (run (CreditOp.step ar) t ops).Accrued loanId d := by
  induction ops generalizing t with
  | nil => exact ⟨h, fun d hd => hd⟩
  | cons op ops ih =>
    obtain ⟨⟨hop, hspares⟩, hrest⟩ := hops
    obtain ⟨hnext, hmono⟩ := h.step hdue ar hop hspares
    obtain ⟨hend, hmono'⟩ := ih hrest hnext
    exact ⟨hend, fun d hd => hmono' d (hmono d hd)⟩

/-- Only the runs of the task debit the loan. -/
theorem interestAccrued_eq {ar : LienArithmetic} {ops : List CreditOp} (hops : Holidays ar loanId t ops) :
    interestAccrued ar loanId t ops =
      (Lib.run (CreditOp.step ar) t ops).loanDebits loanId - t.loanDebits loanId := by
  induction ops generalizing t with
  | nil =>
    show 0 = t.loanDebits loanId - t.loanDebits loanId
    rw [sub_self]
  | cons op ops ih =>
    obtain ⟨⟨hop, hspares⟩, hrest⟩ := hops
    have hlater := ih hrest
    by_cases haccrue : ∃ today, op = .accrueInterest today
    · obtain ⟨today, rfl⟩ := haccrue
      rw [interestAccrued, hlater, run_cons]
      ring
    · have hsame := step_untouched ar hop hspares fun today heq => haccrue ⟨today, heq⟩
      have hskip : interestAccrued ar loanId t (op :: ops) =
          interestAccrued ar loanId (op.step ar t) ops := by
        cases op with
        | accrueInterest today => exact absurd ⟨today, rfl⟩ haccrue
        | _ => rfl
      rw [hskip, hlater, run_cons]
      unfold Tables.loanDebits
      rw [hsame.lines]

end

/-- A reducing-balance loan is charged the interest of its schedule, each instalment once: when all of
its instalments are due and the task has run, in every run of the daily tasks and payment holidays in
which no holiday copies an instalment of the loan that carries interest. -/
theorem interest_charged_once (ar : LienArithmetic) {t t₁ : Tables} (hgenesis : t.Genesis)
    {before : List CreditOp} (hbefore : Along (CreditOp.step ar) (fun _ op => op.ForeignKeys) t before)
    {today : Date} {d : DisburseIn} {id : Uuid}
    (hnew : (run (CreditOp.step ar) t before).loanByKey? d.idempotencyKey = none)
    (hdisburse : disburse ar today d (run (CreditOp.step ar) t before) = .ok id t₁)
    (hreducing : ∀ l ∈ t₁.loan? id, l.interestMethod = .reducingBalance)
    (hfits : ((t₁.loanInstallments id).map (·.interestDue.val)).sum < 10 ^ 15)
    {earlier later : List CreditOp} {day : Date}
    (hholidays : Holidays ar id t₁ (earlier ++ .accrueInterest day :: later))
    (hdue : ∀ inst ∈ (run (CreditOp.step ar) t₁ earlier).loanInstallments id, inst.dueDate ≤ day) :
    interestAccrued ar id t₁ (earlier ++ .accrueInterest day :: later) =
      ((t₁.loanInstallments id).map (·.interestDue.val)).sum := by
  obtain ⟨hbooks, hunused⟩ := run_nextUnused ar hgenesis hbefore
  have hcharging := disburse_charging hbooks hunused hnew hdisburse hreducing
  have hchargeable : Chargeable (t₁.interestCharges id) := ⟨hcharging.nodup, hcharging.sum ▸ hfits⟩
  obtain ⟨hearlier, -, hlater⟩ := along_append.mp hholidays
  obtain ⟨hstart, -⟩ := hcharging.accruing.run hchargeable hearlier
  obtain ⟨hrun, -, hall⟩ := @Accruing.accrueInterest id _ _ _ hchargeable ar day hstart
  obtain ⟨hend, hmono⟩ := hrun.run hchargeable hlater
  have hused : ∀ c ∈ t₁.interestCharges id,
      (run (CreditOp.step ar) t₁ (earlier ++ .accrueInterest day :: later)).Accrued id c.1 := by
    intro c hc
    rw [run_append, run_cons]
    apply hmono
    apply hall c hc
    rw [← hstart.charges] at hc
    obtain ⟨inst, hinst, -, rfl⟩ := mem_interestCharges.mp hc
    exact hdue inst hinst
  have hposted := hend.posted
  rw [← run_cons (CreditOp.step ar), ← run_append] at hposted
  rw [interestAccrued_eq hholidays, hposted, charged_all hused, hcharging.sum]
  ring

/-- A payment holiday of loan 11, which the first disbursement of a tenant makes. -/
def sampleHoliday (periodsAdded : ℤ) : CreditOp :=
  .restructure sampleDay
    ⟨some 11, some "payment_holiday", some periodsAdded, some "hardship", some "r", some none⟩

/-- The sample loan, disbursed. -/
def reducingTenant : Tables :=
  run (CreditOp.step .python) (sampleTenant .reducingBalance) [sampleDisbursement]

/-- 28 March 2026, when the second instalment of the sample loan is due. -/
def marchDueDay : Date := .ofOrdinal 739703

/-- 28 April 2026, where a holiday of one month moves it. -/
def aprilDueDay : Date := ⟨739734, by decide⟩

/-- The tenant of the sample loan, with an approved application of another member. -/
def twoLoanTenant : Tables :=
  { sampleTenant .reducingBalance with
    applications := (sampleTenant .reducingBalance).applications ++
      [⟨41, 6, 21, .approved, .cash, some 5, some (money 500), some 2, none, "b"⟩] }

/-- Both loans, disbursed: the other one is loan 11, the sample loan is loan 15. -/
def twoLoans : Tables :=
  run (CreditOp.step .python) twoLoanTenant [.disburse sampleDay ⟨41, 30, "e"⟩, sampleDisbursement]

/-- A holiday of the other loan goes through, and the interest of loan 15 is charged once. -/
theorem interest_charged_once_sample :
    ((run (CreditOp.step .python) twoLoans [.accrueInterest firstDueDay, sampleHoliday 1]).loanInstallments
      11).length = 4 ∧
    interestAccrued .python 15 twoLoans
        [.accrueInterest firstDueDay, sampleHoliday 1, .accrueInterest marchDueDay,
          .markArrears aprilDueDay, .accrueInterest aprilDueDay] =
      ((twoLoans.loanInstallments 15).map (·.interestDue.val)).sum := by
  have hgenesis : twoLoanTenant.Genesis :=
    have h := genesis_sampleTenant .reducingBalance
    ⟨h.loans, h.installments, h.repayments, h.liens, h.keys, h.untagged, h.guarantorIds, h.guarantors⟩
  have hdisburse : disburse .python sampleDay ⟨7, 30, "d"⟩
      (run (CreditOp.step .python) twoLoanTenant [.disburse sampleDay ⟨41, 30, "e"⟩]) =
        .ok 15 twoLoans := by
    decide +kernel
  refine ⟨by decide +kernel, ?_⟩
  exact @interest_charged_once .python _ _ hgenesis [.disburse sampleDay ⟨41, 30, "e"⟩]
    ⟨trivial, trivial⟩ sampleDay ⟨7, 30, "d"⟩ 15 (by decide +kernel) hdisburse (by decide +kernel)
    (by decide +kernel) [.accrueInterest firstDueDay, sampleHoliday 1]
    [.markArrears aprilDueDay, .accrueInterest aprilDueDay] marchDueDay (by decide +kernel)
    (by decide +kernel)

/-- A holiday of one month moves 10 and 5.0249 of interest, and the task charges both the old and the
new dates. -/
theorem holiday_charges_twice :
    (∀ inst ∈ (run (CreditOp.step .python) reducingTenant [sampleHoliday 1]).loanInstallments 11,
      inst.dueDate ≤ aprilDueDay) ∧
    ((reducingTenant.loanInstallments 11).map (·.interestDue.val)).sum = 150249 / 10000 ∧
    interestAccrued .python 11 reducingTenant [sampleHoliday 1, .accrueInterest aprilDueDay] =
      200498 / 10000 := by
  decide +kernel

end SaccoPlatform
