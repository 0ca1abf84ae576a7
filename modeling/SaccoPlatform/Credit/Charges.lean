import SaccoPlatform.Credit.Accruals
import SaccoPlatform.Credit.DueDates
import SaccoPlatform.Credit.Replacement

/-!
# The charges of a new loan

The instalments of a disbursed loan have the increasing due dates of its schedule, so they are charges
under keys of their own. Nothing is in the tables under the id of a loan before it is drawn, so none
of them is accrued yet.
-/

namespace SaccoPlatform

open Lib Session

section

variable {t t' : Tables}

/-- The row that was inserted for a scheduled instalment. -/
structure StoredInstallment (l : Uuid) (row : ScheduledInstallment) (inst : LoanInstallment) : Prop where
  loanId : inst.loanId = l
  dueDate : inst.dueDate = row.dueDate
  interestDue : inst.interestDue.val = roundAt 4 row.interestDue
  nonneg : 0 ≤ inst.interestDue.val
  opened : inst.Open

theorem insertInstallment_stores {l id : Uuid} {restructuringId : Option Uuid}
    {row : ScheduledInstallment} (h : insertInstallment l restructuringId row t = .ok id t') :
    ∃ inst, StoredInstallment l row inst ∧ t' = t.withInstallments [inst] := by
  unfold insertInstallment at h
  rw [writeInteger_bind_eq_ok] at h
  simp only [writeMoney_bind_eq_ok, constraint_bind_eq_ok, freshId_bind_eq_ok, modify_bind_eq_ok,
    pure_eq_ok] at h
  obtain ⟨-, principalDue, -, interestDue, hinterest, totalDue, -, -, hnonneg, -, -, rfl⟩ := h
  exact ⟨_, ⟨rfl, rfl, Numeric.val_of_ofRat? hinterest, hnonneg, .inl rfl⟩, rfl⟩

theorem loanInstallments_withInstallments (t : Tables) (new : List LoanInstallment) (loanId : Uuid) :
    (t.withInstallments new).loanInstallments loanId =
      t.loanInstallments loanId ++ new.filter fun inst => inst.loanId = loanId :=
  List.filter_append _ _

/-- The instalments of a schedule, inserted one by one. -/
theorem forEach_stores {l : Uuid} {rows : List ScheduledInstallment} {u : Unit}
    (h : forEach (fun row => do let _ ← insertInstallment l none row) rows t = .ok u t') :
    ∃ new, List.Forall₂ (StoredInstallment l) rows new ∧ t' = t.withInstallments new := by
  induction rows generalizing t with
  | nil =>
    obtain ⟨-, rfl⟩ := pure_eq_ok.mp h
    exact ⟨[], .nil, (withInstallments_nil _).symm⟩
  | cons row rows ih =>
    obtain ⟨_, t₁, hone, hrest⟩ := bind_eq_ok.mp h
    obtain ⟨id, t₂, hinsert, hpure⟩ := bind_eq_ok.mp hone
    obtain ⟨-, rfl⟩ := pure_eq_ok.mp hpure
    obtain ⟨inst, hstored, rfl⟩ := insertInstallment_stores hinsert
    obtain ⟨new, hall, rfl⟩ := ih hrest
    exact ⟨inst :: new, .cons hstored hall, withInstallments_cons t inst new⟩

end

/-! ## Due dates -/

theorem splitRows_dueDates {p pr q qr : ℚ} (i : ℕ) (dates : List Date) :
    (splitRows p pr q qr i dates).map (·.dueDate) = dates := by
  induction dates generalizing i with
  | nil => rfl
  | cons due rest ih =>
    cases rest with
    | nil => rfl
    | cons due' rest =>
      show due :: (splitRows p pr q qr (i + 1) (due' :: rest)).map (·.dueDate) = _
      rw [ih]

theorem annuityRows_dueDates {rate annuity balance : ℚ} {i : ℕ} {dates : List Date}
    {rows : List ScheduledInstallment} (h : annuityRows rate annuity i balance dates = .ok rows) :
    rows.map (·.dueDate) = dates := by
  induction dates generalizing i balance rows with
  | nil =>
    obtain rfl := Except.ok.inj h
    rfl
  | cons due rest ih =>
    cases rest with
    | nil =>
      obtain rfl := annuityRows_last h
      rfl
    | cons due' rest =>
      obtain ⟨later, hlater, rfl⟩ := annuityRows_next h
      rw [List.map_cons, ih hlater]

/-- The instalments of a schedule have the due dates of the loan. -/
theorem computeSchedule_dueDates {principal rate : ℚ} {method : InterestMethod}
    {frequency : RepaymentFrequency} {n : ℤ} {d : Date} {rows : List ScheduledInstallment}
    (h : computeSchedule principal rate method frequency n d = .ok rows) :
    dueDates frequency n.toNat d = .ok (rows.map (·.dueDate)) := by
  cases method with
  | flat =>
    obtain ⟨dates, interest, interestResidual, hdates, rfl⟩ := flatSchedule_eq_ok h
    rw [splitRows_dueDates]
    exact hdates
  | reducingBalance =>
    cases hper : periodsPerYear frequency with
    | error e =>
      rw [computeSchedule, reducingSchedule, hper] at h
      cases h
    | ok perYear =>
      obtain ⟨dates, hdates, hzero, hannuity⟩ := reducingSchedule_eq_ok hper h
      by_cases hrate : periodRate rate perYear = 0
      · rw [hzero hrate, splitRows_dueDates]
        exact hdates
      · obtain ⟨-, -, hrows⟩ := hannuity hrate
        rw [annuityRows_dueDates hrows]
        exact hdates

/-! ## A loan is opened -/

/-- A posting under a key of another kind accrues nothing. -/
theorem postJournalEntry_accrues {kind : EntryKind} (hkind : kind ≠ .accrual) {k : String}
    {reference description : String} {postedBy : Uuid} {lines : List LineIn} {id : Uuid} {t t' : Tables}
    (h : postJournalEntry reference description postedBy (creditKey kind k) lines t = .ok id t') :
    ∃ n es, t' = { t with nextId := n, entries := es } ∧ ∀ i due, t'.Accrued i due → t.Accrued i due := by
  rcases postJournalEntry_ok h with ⟨rfl, -⟩ | hposted
  · exact ⟨_, _, rfl, fun i due hd => hd⟩
  · obtain ⟨e, hkey, -, rfl⟩ := hposted.entry
    refine ⟨_, _, rfl, ?_⟩
    intro i due hd
    obtain ⟨e', he', heq⟩ := hd
    rcases List.mem_append.mp he' with he' | he'
    · exact ⟨e', he', heq⟩
    · rw [List.mem_singleton.mp he', hkey] at heq
      exact absurd (creditKey_inj heq).1 hkind

theorem bookFlatInterest_accrues {loan : Loan} {actorId : Uuid} {key : String}
    {schedule : List ScheduledInstallment} {u : Unit} {t t' : Tables}
    (h : bookFlatInterest loan actorId key schedule t = .ok u t') :
    ∃ n es, t' = { t with nextId := n, entries := es } ∧ ∀ i due, t'.Accrued i due → t.Accrued i due := by
  unfold bookFlatInterest Session.when at h
  split at h
  · obtain ⟨_, t₁, hpost, hpure⟩ := bind_eq_ok.mp h
    obtain ⟨-, rfl⟩ := pure_eq_ok.mp hpure
    exact postJournalEntry_accrues (by decide) hpost
  · obtain ⟨-, rfl⟩ := pure_eq_ok.mp h
    exact ⟨_, _, rfl, fun i due hd => hd⟩

/-- What stands in the tables of a loan that `openLoan` has opened. -/
theorem openLoan_stores {ar : LienArithmetic} {today : Date} {d : DisburseIn} {loan : Loan}
    {account : Uuid} {t t' : Tables} {u : Unit} (h : openLoan ar today d loan account t = .ok u t')
    (hids : ∀ l ∈ t.loans, l.id ≠ loan.id) :
    ∃ schedule new maturity, computeSchedule loan.principalAmount.val loan.annualInterestRate.val
        loan.interestMethod loan.repaymentFrequency loan.termPeriods today = .ok schedule ∧
      List.Forall₂ (StoredInstallment loan.id) schedule new ∧
      t'.installments = t.installments ++ new ∧ 0 < loan.principalAmount.val ∧
      t'.loans = t.loans ++ [loan.disbursed maturity] ∧ t'.accounts = t.accounts ∧
      ∀ i due, t'.Accrued i due → t.Accrued i due := by
  unfold openLoan at h
  obtain ⟨_, t₁, h₁, h⟩ := bind_eq_ok.mp h
  obtain ⟨hpos, -, rfl⟩ := insertLoan_ok h₁
  obtain ⟨schedule, hschedule, h⟩ := ofExcept_bind_eq_ok.mp h
  obtain ⟨_, t₂, hpost, h⟩ := bind_eq_ok.mp h
  obtain ⟨n, es, rfl, hprincipal⟩ := postJournalEntry_accrues (by decide) hpost
  obtain ⟨last, -, h⟩ := orRaise_bind_eq_ok.mp h
  obtain ⟨_, t₃, hinsert, h⟩ := bind_eq_ok.mp h
  obtain ⟨new, hstored, rfl⟩ := forEach_stores hinsert
  obtain ⟨_, t₄, hbook, h⟩ := bind_eq_ok.mp h
  obtain ⟨n', es', rfl, hinterest⟩ := bookFlatInterest_accrues hbook
  simp only [modify_bind_eq_ok] at h
  obtain ⟨_, t₅, hplace, h⟩ := bind_eq_ok.mp h
  obtain ⟨_, gs, ls, -, rfl⟩ := (placeLiens_moves _ _ _ _).ok hplace
  rw [modify_eq_ok] at h
  subst h
  exact ⟨schedule, new, last.dueDate, hschedule, hstored, rfl, hpos, putLoan_append rfl hids, rfl,
    fun i due hd => hprincipal i due (hinterest i due hd)⟩

/-! ## Ids that are not drawn yet -/

/-- No instalment and no accrual belongs to a loan of this id. -/
structure Tables.Unused (t : Tables) (i : Uuid) : Prop where
  installments : t.loanInstallments i = []
  accrued : ∀ due, ¬ t.Accrued i due

/-- The id stays unused. -/
def KeepsUnused (i : Uuid) (t t' : Tables) : Prop := t.Unused i → t'.Unused i

instance (i : Uuid) : IsPreorder Tables (KeepsUnused i) where
  refl _ h := h
  trans _ _ _ h h' hunused := h' (h hunused)

/-- The instalments are written back without a new loan among them. -/
theorem keepsUnused_map {i : Uuid} {f : LoanInstallment → LoanInstallment}
    (hf : ∀ r, (f r).loanId = i → r.loanId = i) (t : Tables) :
    KeepsUnused i t { t with installments := t.installments.map f } := by
  intro h
  refine ⟨?_, h.accrued⟩
  have hnone := List.filter_eq_nil_iff.mp h.installments
  apply List.filter_eq_nil_iff.mpr
  intro inst hinst hloan
  obtain ⟨r, hr, rfl⟩ := List.mem_map.mp hinst
  exact hnone r hr (decide_eq_true (hf r (of_decide_eq_true hloan)))

theorem keepsUnused_tolerates (i : Uuid) : Tolerates (KeepsUnused i) (· ≠ i) where
  other := by
    intro t t' hinst hentries _ h
    refine ⟨(loanInstallments_eq hinst i).trans h.installments, ?_⟩
    unfold Tables.Accrued
    rw [hentries]
    exact h.accrued
  post := by
    intro t t' e hinst hentries _ hkey h
    refine ⟨(loanInstallments_eq hinst i).trans h.installments, ?_⟩
    intro due hd
    obtain ⟨e', he', heq⟩ := hd
    rw [hentries] at he'
    rcases List.mem_append.mp he' with he' | he'
    · exact h.accrued due ⟨e', he', heq⟩
    · rw [List.mem_singleton.mp he'] at heq
      exact hkey i due heq rfl
  insert := by
    intro t inst _ hown h
    refine ⟨?_, h.accrued⟩
    have hsame := loanInstallments_withInstallments t [inst] i
    rw [h.installments, List.nil_append, List.filter_singleton, decide_eq_false hown] at hsame
    exact hsame
  put := by
    intro t row hown
    apply keepsUnused_map
    intro r hloan
    split at hloan
    · exact absurd hloan hown
    · exact hloan
  map := by
    intro t f hf
    exact keepsUnused_map (fun r hloan => (hf r).2 ▸ hloan) t

/-- Ids from the next one on are unused. -/
def Tables.NextUnused (t : Tables) : Prop := ∀ i, t.nextId ≤ i → t.Unused i

theorem step_draws (ar : LienArithmetic) (t : Tables) (op : CreditOp) : Draws t (op.step ar t) :=
  step_tolerated draws_tolerates ar (fun _ _ => trivial) (fun _ => trivial) fun _ _ _ _ _ => trivial

theorem step_nextUnused (ar : LienArithmetic) {t : Tables} {op : CreditOp} (hbooks : BooksOk t)
    (hop : op.ForeignKeys) (h : t.NextUnused) : (op.step ar t).NextUnused := by
  intro i hi
  have hdraws : t.nextId ≤ i := Nat.le_trans (step_draws ar t op) hi
  refine @step_tolerated (KeepsUnused i) (· ≠ i) _ (keepsUnused_tolerates i) ar t op ?_ ?_ ?_ (h i hdraws)
  · intro l hl
    exact ((hbooks.ids l hl).trans_le hdraws).ne
  · intro hdrawn
    exact (hdrawn.trans_le hi).ne
  · -- the entries of other modules are not accruals
    intro e he j due hkey
    subst he
    exact absurd (hkey ▸ isCreditKey_creditKey _ _) hop

theorem run_nextUnused (ar : LienArithmetic) {t : Tables} (hgenesis : t.Genesis) {ops : List CreditOp}
    (hops : Along (CreditOp.step ar) (fun _ op => op.ForeignKeys) t ops) :
    BooksOk (run (CreditOp.step ar) t ops) ∧ (run (CreditOp.step ar) t ops).NextUnused := by
  refine @run_invariant _ _ (CreditOp.step ar) _ (fun t => BooksOk t ∧ t.NextUnused)
    (fun t op h hop => ⟨h.1.step ar hop, step_nextUnused ar h.1 hop h.2⟩) t ops
    ⟨hgenesis.booksOk, ?_⟩ hops
  intro i _
  refine ⟨?_, ?_⟩
  · unfold Tables.loanInstallments
    rw [hgenesis.installments]
    rfl
  · intro due haccrued
    obtain ⟨e, he, hkey⟩ := haccrued
    exact hgenesis.keys e he (hkey ▸ isCreditKey_creditKey _ _)

/-! ## Disbursement -/

/-- A loan that was just disbursed has been charged nothing. -/
structure Charging (loanId : Uuid) (t : Tables) : Prop where
  accruing : Accruing loanId (t.interestCharges loanId) (t.loanDebits loanId) t
  nodup : ((t.interestCharges loanId).map (·.1)).Nodup
  unused : ∀ due, ¬ t.Accrued loanId due
  sum : ((t.interestCharges loanId).map (·.2)).sum =
    ((t.loanInstallments loanId).map (·.interestDue.val)).sum

/-- The charges add up to the interest of the instalments. -/
theorem interestCharges_sum {t : Tables} {loanId : Uuid}
    (h : ∀ inst ∈ t.loanInstallments loanId, 0 ≤ inst.interestDue.val) :
    ((t.interestCharges loanId).map (·.2)).sum =
      ((t.loanInstallments loanId).map (·.interestDue.val)).sum := by
  unfold Tables.interestCharges
  rw [List.map_map]
  generalize t.loanInstallments loanId = rows at h ⊢
  induction rows with
  | nil => rfl
  | cons inst rest ih =>
    have hrest := ih fun i hi => h i (List.mem_cons_of_mem _ hi)
    by_cases hpos : 0 < inst.interestDue.val
    · rw [List.filter_cons_of_pos (by simpa using hpos), List.map_cons, List.map_cons, List.sum_cons,
        List.sum_cons, hrest]
      rfl
    · have hzero : inst.interestDue.val = 0 := le_antisymm (not_lt.mp hpos) (h inst List.mem_cons_self)
      rw [List.filter_cons_of_neg (by simpa using hpos), List.map_cons, List.sum_cons, hzero, zero_add,
        hrest]

/-- A new row is found under its id. -/
theorem loan?_append {t t' : Tables} {row : Loan} (hloans : t'.loans = t.loans ++ [row])
    (hids : ∀ l ∈ t.loans, l.id ≠ row.id) : t'.loan? row.id = some row := by
  unfold Tables.loan?
  rw [hloans, List.find?_append]
  have hnone : t.loans.find? (·.id = row.id) = none := by
    rw [List.find?_eq_none]
    intro l hl
    simpa using hids l hl
  rw [hnone, Option.none_or, List.find?_singleton]
  exact if_pos (decide_eq_true rfl)

theorem disburse_charging {ar : LienArithmetic} {today : Date} {d : DisburseIn} {t t' : Tables}
    {id : Uuid} (hbooks : BooksOk t) (hunused : t.NextUnused)
    (hnew : t.loanByKey? d.idempotencyKey = none) (h : disburse ar today d t = .ok id t')
    (hreducing : ∀ l ∈ t'.loan? id, l.interestMethod = .reducingBalance) : Charging id t' := by
  rcases disburse_opens h with
    ⟨-, l, hl⟩ | ⟨-, rfl, application, product, terms, gl, account, reference, -, -, -, hgl, -, hopen⟩
  · rw [hnew] at hl
    cases hl
  have hids : ∀ l ∈ t.loans, l.id ≠ t.nextId := fun l hl => (hbooks.ids l hl).ne
  obtain ⟨-, hresolved⟩ := resolveAccounts_ok hgl
  obtain ⟨schedule, new, maturity, hschedule, hstored, hinst, hpos, hloans, haccounts, haccrued⟩ :=
    openLoan_stores hopen hids
  have hown := hunused t.nextId le_rfl
  have hfound : t'.loan? t.nextId = some _ := loan?_append hloans hids
  have hrows : t'.loanInstallments t.nextId = new := by
    unfold Tables.loanInstallments
    rw [hinst, List.filter_append]
    have hold : t.installments.filter (fun inst => inst.loanId = t.nextId) = [] := hown.installments
    have hall : new.filter (fun inst => inst.loanId = t.nextId) = new := by
      rw [List.filter_eq_self]
      intro inst hmem
      obtain ⟨row, -, hrow⟩ := forall₂_exists_left hstored hmem
      exact decide_eq_true hrow.loanId
    rw [hold, hall, List.nil_append]
  have hstore : ∀ inst ∈ t'.loanInstallments t.nextId, inst.Open ∧ 0 ≤ inst.interestDue.val := by
    intro inst hmem
    rw [hrows] at hmem
    obtain ⟨row, -, hrow⟩ := forall₂_exists_left hstored hmem
    exact ⟨hrow.opened, hrow.nonneg⟩
  have hnone : ∀ due, ¬ t'.Accrued t.nextId due :=
    fun due hd => hown.accrued due (haccrued t.nextId due hd)
  have hcharged : charged (t'.Accrued t.nextId) (t'.interestCharges t.nextId) = 0 :=
    charged_none fun c _ => hnone c.1
  have haccount : ∀ {code : String} {i : Uuid}, (∃ a, t.account? code = some a ∧ i = a.id) →
      ∃ a ∈ t'.accounts, a.id = i := by
    intro code i hi
    obtain ⟨a, ha, rfl⟩ := hi
    rw [haccounts]
    exact ⟨a, List.mem_of_find?_eq_some ha, rfl⟩
  refine ⟨⟨rfl, fun inst hmem => (hstore inst hmem).1, ⟨_, hfound, ?_, ?_⟩, ?_⟩, ?_, hnone, ?_⟩
  · exact ⟨hreducing _ hfound, .inl rfl, ⟨hpos.le, le_rfl, le_rfl⟩,
      haccount hresolved.interestReceivable, haccount hresolved.interestIncome⟩
  · rw [hcharged]
    rfl
  · rw [hcharged, add_zero]
  · have hdates : schedule.map (·.dueDate) = new.map (·.dueDate) :=
      forall₂_map_eq (fun row inst hrow => hrow.dueDate.symm) hstored
    have hincreasing := dueDates_increasing (computeSchedule_dueDates hschedule)
    rw [hdates, ← hrows, List.pairwise_cons] at hincreasing
    have hdistinct : ((t'.loanInstallments t.nextId).map (·.dueDate)).Nodup :=
      hincreasing.2.imp fun hlt => Date.ne_of_lt hlt
    unfold Tables.interestCharges
    rw [List.map_map]
    exact (List.filter_sublist.map _).nodup hdistinct
  · exact interestCharges_sum fun inst hmem => (hstore inst hmem).2

end SaccoPlatform
