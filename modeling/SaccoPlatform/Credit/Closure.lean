import SaccoPlatform.Credit.Operations

/-!
# Closed loans

A loan that is not written off is meant to be closed exactly when nothing is owed on it. Only
`apply_repayment` closes loans, and nothing reopens them, while fee events change the
penalties of a loan of any status. So the two agree as long as no fee event raises the
penalties of a closed loan or settles the last ones of an open loan. The snapshot must not hide
an amount below half a column unit either: closure looks at the amounts before they are
rounded.
-/

namespace SaccoPlatform

open Lib Session

/-- Half of the smallest amount that a column can hold. -/
def halfUnit : ℚ := 1 / 20000

theorem roundAt_eq_zero_iff {q : ℚ} : roundAt 4 q = 0 ↔ |q| < halfUnit := by
  rw [roundAt_eq_zero, halfUnit]
  constructor <;> intro h <;> linarith

/-- A column that rounds to zero is below half a unit. -/
theorem lt_halfUnit {q : ℚ} (h : roundAt 4 q = 0) : q < halfUnit :=
  (le_abs_self q).trans_lt (roundAt_eq_zero_iff.mp h)

theorem roundAt_ne_zero {q : ℚ} (h : halfUnit ≤ q) : roundAt 4 q ≠ 0 := fun hzero =>
  absurd (lt_halfUnit hzero) (not_lt.mpr h)

/-- Amounts that the ledger takes are at least half a unit. -/
theorem halfUnit_le_of_roundAt_pos {q : ℚ} (h : 0 < roundAt 4 q) : halfUnit ≤ q := by
  have hq := pos_of_roundAt_pos h
  by_contra hlt
  rw [not_le] at hlt
  have hzero : roundAt 4 q = 0 := by
    rw [roundAt_eq_zero_iff, abs_of_pos hq]
    exact hlt
  linarith

/-! ## What closure means -/

/-- What is owed on the loan in all. -/
def Balances.owed (b : Balances) : ℚ :=
  b.outstandingPrincipal + b.accruedInterest + b.accruedPenalties

/-- Nothing is owed on the loan. -/
def Loan.NothingOwed (l : Loan) : Prop :=
  l.outstandingPrincipal.val = 0 ∧ l.accruedInterest.val = 0 ∧ l.accruedPenalties.val = 0

instance (l : Loan) : Decidable l.NothingOwed := inferInstanceAs (Decidable (_ ∧ _ ∧ _))

/-- Unless it is written off, the loan is closed exactly when nothing is owed. -/
def Loan.ClosureOk (l : Loan) : Prop :=
  l.status ≠ .writtenOff → (l.status = .closed ↔ l.NothingOwed)

instance (l : Loan) : Decidable l.ClosureOk := inferInstanceAs (Decidable (_ → _))

/-- The movements under which closure stays right. -/
def Movement.KeepsClosure (l : Loan) : Movement → Prop
  | repay _ amount =>
    -- The payment does not leave less than half a unit.
    ¬ (0 < l.balances.owed - amount ∧ l.balances.owed - amount < halfUnit)
  | writeOff _ amount =>
    -- Nor does a write-off of the last balance.
    l.accruedInterest.val = 0 → l.accruedPenalties.val = 0 →
      amount ≠ l.outstandingPrincipal.val → halfUnit ≤ |l.outstandingPrincipal.val - amount|
  | assess amount =>
    (l.status = .closed → amount < halfUnit) ∧
    (l.Active → l.outstandingPrincipal.val = 0 → l.accruedInterest.val = 0 →
      halfUnit ≤ l.accruedPenalties.val + amount)
  | collect amount =>
    (l.status = .closed → -halfUnit < amount) ∧
    (l.Active → l.outstandingPrincipal.val = 0 → l.accruedInterest.val = 0 →
      halfUnit ≤ l.accruedPenalties.val - amount)
  | _ => True

instance (l : Loan) (m : Movement) : Decidable (m.KeepsClosure l) := by
  cases m <;> unfold Movement.KeepsClosure <;> infer_instance

/-! ## Repayments -/

theorem halfUnit_mem : halfUnit ∈ grid 5 := mem_grid.mpr ⟨5, by norm_num [halfUnit]⟩

/-- What is below half a unit in 28 digits was below it before. -/
theorem lt_halfUnit_of_decimal {q : ℚ} (h : decimal q < halfUnit) : q < halfUnit := by
  by_contra hge
  have hle := le_decimal halfUnit_mem (by norm_num [halfUnit]) (not_lt.mp hge)
  linarith

theorem pos_of_decimal_pos {q : ℚ} (h : 0 < decimal q) : 0 < q := by
  by_contra hle
  have hnonpos := decimal_nonpos (not_lt.mp hle)
  linarith

theorem abs_lt_halfUnit_of_decimal {q : ℚ} (h : |decimal q| < halfUnit) : |q| < halfUnit := by
  rw [abs_lt] at h ⊢
  refine ⟨?_, lt_halfUnit_of_decimal h.2⟩
  have hneg := lt_halfUnit_of_decimal (q := -q) (by rw [decimal_neg]; linarith)
  linarith

theorem halfUnit_le_decimal {q : ℚ} (h : halfUnit ≤ q) : halfUnit ≤ decimal q :=
  le_decimal halfUnit_mem (by norm_num [halfUnit]) h

/-- What ends less than half a unit short of a balance in 28 digits does so exactly. -/
theorem short_of_decimal {g a : ℚ} (hg : g ∈ grid 4) (h0 : 0 ≤ g) (hfits : g < 2 * 10 ^ 15)
    (hpos : 0 < g - decimal a) (hlt : g - decimal a < halfUnit) : 0 < g - a ∧ g - a < halfUnit := by
  have hg' : g ∈ grid 5 := grid_mono (by omega) hg
  constructor
  · by_contra hle
    have := le_decimal hg' (by rw [abs_of_nonneg h0]; norm_num at hfits ⊢; linarith)
      (by linarith : g ≤ a)
    linarith
  · by_contra hge
    have hsize : |g - halfUnit| < 10 ^ 23 := by
      rw [abs_lt]
      norm_num [halfUnit] at hfits ⊢
      constructor <;> linarith
    have := decimal_le (sub_mem hg' halfUnit_mem) hsize (by linarith : a ≤ g - halfUnit)
    linarith

/-- A payment that leaves the loan open, but nothing in its columns, is short of what is owed
by less than half a unit. -/
theorem short_of_repay {l : Loan} {amount : ℚ} (hl : l.Nonneg)
    (hopen : ¬ (l.balances.repay (allocate amount l.balances)).Settled)
    (h₁ : roundAt 4 (l.balances.repay (allocate amount l.balances)).outstandingPrincipal = 0)
    (h₂ : roundAt 4 (l.balances.repay (allocate amount l.balances)).accruedInterest = 0)
    (h₃ : roundAt 4 (l.balances.repay (allocate amount l.balances)).accruedPenalties = 0) :
    0 < l.balances.owed - amount ∧ l.balances.owed - amount < halfUnit := by
  have hO : 0 ≤ l.balances.outstandingPrincipal := hl.outstanding
  have hP : 0 ≤ l.balances.accruedPenalties := hl.penalties
  obtain ⟨hmemO, -, hmemP, -⟩ := l.balances_onGrid
  have hfitsO : |l.balances.outstandingPrincipal| < 10 ^ 15 := l.outstandingPrincipal.fits
  have hfitsP : |l.balances.accruedPenalties| < 10 ^ 15 := l.accruedPenalties.fits
  rw [abs_of_nonneg hO] at hfitsO
  rw [abs_of_nonneg hP] at hfitsP
  have hkeptO : decimal l.balances.outstandingPrincipal = l.balances.outstandingPrincipal :=
    decimal_money hmemO (by rw [abs_of_nonneg hO]; linarith)
  have hkeptP : decimal l.balances.accruedPenalties = l.balances.accruedPenalties :=
    decimal_money hmemP (by rw [abs_of_nonneg hP]; linarith)
  unfold Balances.Settled at hopen
  simp only [Balances.owed, Balances.repay, allocate] at hopen h₁ h₂ h₃ ⊢
  generalize l.balances.outstandingPrincipal = O at *
  generalize l.balances.accruedInterest = I at *
  generalize l.balances.accruedPenalties = P at *
  by_cases hint : amount ≤ I
  · -- the payment stops within the interest
    simp only [min_eq_left hint, sub_self, decimal_zero, min_eq_left hO, min_eq_left hP, sub_zero,
      hkeptO, hkeptP, roundAt_of_mem hmemO, roundAt_of_mem hmemP] at hopen h₁ h₂ h₃
    have hlt := lt_halfUnit_of_decimal (lt_halfUnit h₂)
    have hpos : 0 < decimal (I - amount) := by
      by_contra hle
      exact hopen ⟨h₁.le, not_lt.mp hle, h₃.le⟩
    have := pos_of_decimal_pos hpos
    constructor <;> linarith
  · simp only [min_eq_right (not_le.mp hint).le, sub_self, decimal_zero] at hopen h₁ h₂ h₃
    by_cases hprin : decimal (amount - I) ≤ O
    · -- within the principal
      simp only [min_eq_left hprin, sub_self, decimal_zero, min_eq_left hP, sub_zero, hkeptP,
        roundAt_of_mem hmemP] at hopen h₁ h₃
      have hlt := lt_halfUnit_of_decimal (lt_halfUnit h₁)
      have hpos : 0 < decimal (O - decimal (amount - I)) := by
        by_contra hle
        exact hopen ⟨not_lt.mp hle, le_rfl, h₃.le⟩
      have := short_of_decimal hmemO hO (by linarith) (pos_of_decimal_pos hpos) hlt
      constructor <;> linarith
    · simp only [min_eq_right (not_le.mp hprin).le, sub_self, decimal_zero] at hopen h₁ h₃
      by_cases hpen : decimal (decimal (amount - I) - O) ≤ P
      · -- within the penalties: the two differences before it are short of theirs as well
        simp only [min_eq_left hpen] at hopen h₃
        have hlt := lt_halfUnit_of_decimal (lt_halfUnit h₃)
        have hpos : 0 < decimal (P - decimal (decimal (amount - I) - O)) := by
          by_contra hle
          exact hopen ⟨le_rfl, le_rfl, not_lt.mp hle⟩
        have hshort := short_of_decimal hmemP hP (by linarith) (pos_of_decimal_pos hpos) hlt
        have := short_of_decimal (a := amount - I) (add_mem hmemO hmemP) (by linarith) (by linarith)
          (by linarith) (by linarith)
        constructor <;> linarith
      · -- everything was covered, so the loan is settled
        simp only [min_eq_right (not_le.mp hpen).le, sub_self, decimal_zero] at hopen
        exact absurd ⟨le_rfl, le_rfl, le_rfl⟩ hopen

/-! ## One movement -/

/-- The columns of a saved row that closure looks at. -/
theorem Saved.columns {l row : Loan} {b : Balances} {status : LoanStatus}
    (h : Saved l b status row) :
    row.outstandingPrincipal.val = roundAt 4 b.outstandingPrincipal ∧
      row.accruedInterest.val = roundAt 4 b.accruedInterest ∧
      row.accruedPenalties.val = roundAt 4 b.accruedPenalties :=
  ⟨congrArg Balances.outstandingPrincipal h.balances, congrArg Balances.accruedInterest h.balances,
    congrArg Balances.accruedPenalties h.balances⟩

/-- What holds of every loan between operations. -/
structure Loan.ClosureInvariant (l : Loan) : Prop where
  closure : l.ClosureOk
  nonneg : l.Nonneg
  disbursed : l.status ≠ .disbursing

theorem Loan.ClosureInvariant.active {l : Loan} (h : l.ClosureInvariant) (hc : l.status ≠ .closed)
    (hw : l.status ≠ .writtenOff) : l.Active := by
  have hd := h.disbursed
  unfold Loan.Active
  cases hs : l.status <;> simp_all

section

variable {l row : Loan} {key : String} {t t' : Tables}

theorem Loan.roundAt_columns (l : Loan) :
    roundAt 4 l.outstandingPrincipal.val = l.outstandingPrincipal.val ∧
      roundAt 4 l.accruedInterest.val = l.accruedInterest.val ∧
      roundAt 4 l.accruedPenalties.val = l.accruedPenalties.val :=
  ⟨roundAt_of_mem l.outstandingPrincipal.onGrid, roundAt_of_mem l.accruedInterest.onGrid,
    roundAt_of_mem l.accruedPenalties.onGrid⟩

theorem Saved.closureOk_repay {account : Uuid} {amount : ℚ} (hinv : l.ClosureInvariant)
    (hactive : l.Active) (hm : (Movement.repay account amount).KeepsClosure l)
    (hsaved : Saved l (l.balances.repay (allocate amount l.balances))
      (l.statusAfter (allocate amount l.balances)) row) : row.ClosureOk := by
  obtain ⟨ho, hi, hp⟩ := hsaved.columns
  have hstatus := hsaved.status
  unfold Loan.statusAfter at hstatus
  intro _
  by_cases hsettled : (l.balances.repay (allocate amount l.balances)).Settled
  · rw [if_pos hsettled] at hstatus
    obtain ⟨ho', hi', hp'⟩ := repay_settled hsettled
    have hzero : roundAt 4 0 = 0 := roundAt_of_mem (zero_mem _)
    have hall : row.NothingOwed := by
      unfold Loan.NothingOwed
      rw [ho, hi, hp, ho', hi', hp', hzero]
      exact ⟨rfl, rfl, rfl⟩
    exact ⟨fun _ => hall, fun _ => hstatus⟩
  · rw [if_neg hsettled] at hstatus
    constructor
    · intro hc
      exact absurd (hstatus.symm.trans hc) hactive.ne_closed
    · intro hzero
      unfold Loan.NothingOwed at hzero
      rw [ho, hi, hp] at hzero
      exact absurd (short_of_repay hinv.nonneg hsettled hzero.1 hzero.2.1 hzero.2.2) hm

theorem Saved.closureOk_writeOff {loanLossId : Uuid} {amount : ℚ} (hinv : l.ClosureInvariant)
    (hm : (Movement.writeOff loanLossId amount).KeepsClosure l)
    (hsaved : Saved l (l.balances.writeOff amount) (l.statusAfterWriteOff amount) row)
    (hentries : Appends ((Movement.writeOff loanLossId amount).entries l key) t t') :
    row.ClosureOk := by
  obtain ⟨-, hint, hpen⟩ := l.roundAt_columns
  obtain ⟨ho, hi, hp⟩ := hsaved.columns
  have ho' : row.outstandingPrincipal.val = roundAt 4 (decimal (l.outstandingPrincipal.val - amount)) :=
    ho
  have hi' : row.accruedInterest.val = l.accruedInterest.val := hi.trans hint
  have hp' : row.accruedPenalties.val = l.accruedPenalties.val := hp.trans hpen
  have hstatus := hsaved.status
  unfold Loan.statusAfterWriteOff at hstatus
  intro hw
  by_cases hfull : (l.balances.writeOff amount).outstandingPrincipal = 0
  · rw [if_pos hfull] at hstatus
    exact absurd hstatus hw
  · rw [if_neg hfull] at hstatus
    have hne : amount ≠ l.outstandingPrincipal.val := fun heq => by
      apply hfull
      show decimal (l.outstandingPrincipal.val - amount) = 0
      rw [heq, sub_self, decimal_zero]
    constructor
    · -- A closed loan owes nothing, and the column refuses to go below zero.
      intro hc
      rw [hstatus] at hc hw
      obtain ⟨hl, -, -⟩ := (hinv.closure hw).mp hc
      have hpos := halfUnit_le_decimal (halfUnit_le_of_roundAt_pos (posted_pos hentries))
      have hneg := hsaved.outstanding_nonneg
      rw [ho', hl, zero_sub, decimal_neg, roundAt_neg] at hneg
      have hround := roundAt_nonneg (s := 4) (le_trans (by norm_num [halfUnit]) hpos)
      exact absurd (le_antisymm (by linarith) hround) (roundAt_ne_zero hpos)
    · intro hzero
      unfold Loan.NothingOwed at hzero
      rw [ho', hi', hp'] at hzero
      have hlt := roundAt_eq_zero_iff.mp hzero.1
      exact absurd (hm hzero.2.1 hzero.2.2 hne) (not_le.mpr (abs_lt_halfUnit_of_decimal hlt))

/-- A recovery reopens the loan, and at least half a unit is owed on it again. -/
theorem Saved.closureOk_recover {loanLossId : Uuid} {amount : ℚ} (hinv : l.ClosureInvariant)
    (hsaved : Saved l ((Movement.recover loanLossId amount).balances l) .inArrears row)
    (hentries : Appends ((Movement.recover loanLossId amount).entries l key) t t') :
    row.ClosureOk := by
  have hstatus : row.status = .inArrears := hsaved.status
  have ho : row.outstandingPrincipal.val = roundAt 4 (decimal (l.outstandingPrincipal.val + amount)) :=
    hsaved.columns.1
  have hamount := halfUnit_le_of_roundAt_pos (posted_pos hentries)
  have hnonneg := hinv.nonneg.outstanding
  intro _
  rw [hstatus]
  refine ⟨nofun, fun hzero => ?_⟩
  exact absurd (ho.symm.trans hzero.1) (roundAt_ne_zero (halfUnit_le_decimal (by linarith)))

/-- Interest accrues on open loans only, and then it is owed. -/
theorem Saved.closureOk_accrue {interest : ℚ} (hinv : l.ClosureInvariant)
    (henabled : (Movement.accrue interest).Enabled l)
    (hsaved : Saved l ((Movement.accrue interest).balances l) l.status row) : row.ClosureOk := by
  have hstatus : row.status = l.status := hsaved.status
  obtain ⟨hactive, hgrid, hpos⟩ := henabled
  have hi : row.accruedInterest.val = l.accruedInterest.val + interest :=
    hsaved.columns.2.1.trans (roundAt_of_mem (add_mem l.accruedInterest.onGrid hgrid))
  have hnonneg := hinv.nonneg.interest
  intro _
  refine ⟨fun hc => absurd (hstatus.symm.trans hc) hactive.ne_closed, fun hzero => ?_⟩
  linarith [hi.symm.trans hzero.2.1]

/-- A change of penalties alone keeps closure right when it stays below half a unit on a
closed loan, and above it on an open loan that owes nothing else. -/
theorem Saved.closureOk_penalties {b : Balances} (hinv : l.ClosureInvariant)
    (hsaved : Saved l b l.status row) (hout : b.outstandingPrincipal = l.outstandingPrincipal.val)
    (hint : b.accruedInterest = l.accruedInterest.val)
    (hclosed : l.status = .closed → b.accruedPenalties < halfUnit)
    (hopen : l.Active → l.outstandingPrincipal.val = 0 → l.accruedInterest.val = 0 →
      halfUnit ≤ b.accruedPenalties) : row.ClosureOk := by
  obtain ⟨hrout, hrint, -⟩ := l.roundAt_columns
  obtain ⟨ho, hi, hp⟩ := hsaved.columns
  rw [hout, hrout] at ho
  rw [hint, hrint] at hi
  have hstatus := hsaved.status
  unfold Loan.ClosureOk Loan.NothingOwed
  rw [hstatus]
  intro hw
  constructor
  · intro hc
    obtain ⟨hlo, hli, -⟩ := (hinv.closure hw).mp hc
    refine ⟨ho.trans hlo, hi.trans hli, ?_⟩
    have hnonneg := hsaved.penalties_nonneg
    rw [hp] at hnonneg ⊢
    by_contra hne
    have hle := halfUnit_le_of_roundAt_pos (lt_of_le_of_ne hnonneg (Ne.symm hne))
    exact absurd (hclosed hc) (not_lt.mpr hle)
  · intro hzero
    by_contra hc
    rw [ho, hi, hp] at hzero
    exact absurd hzero.2.2 (roundAt_ne_zero (hopen (hinv.active hc hw) hzero.1 hzero.2.1))

/-- Balances that are written back as they were keep closure right under any status of the
same side. -/
theorem Saved.closureOk_same {status : LoanStatus} (hsaved : Saved l l.balances status row)
    (hl : row.status ≠ .writtenOff → (row.status = .closed ↔ l.NothingOwed)) : row.ClosureOk := by
  obtain ⟨hrout, hrint, hrpen⟩ := l.roundAt_columns
  obtain ⟨ho, hi, hp⟩ := hsaved.columns
  have hsame : row.NothingOwed ↔ l.NothingOwed := by
    unfold Loan.NothingOwed
    rw [ho.trans hrout, hi.trans hrint, hp.trans hrpen]
  intro hw
  rw [hsame]
  exact hl hw

/-- Every movement within the condition keeps closure right. -/
theorem Saved.closureOk {m : Movement} (hinv : l.ClosureInvariant) (hm : m.KeepsClosure l)
    (henabled : m.Enabled l) (hsaved : Saved l (m.balances l) (m.status l) row)
    (hentries : Appends (m.entries l key) t t') : row.ClosureOk := by
  have hstatus := hsaved.status
  cases m with
  | repay account amount => exact Saved.closureOk_repay hinv henabled.1 hm hsaved
  | writeOff loanLossId amount => exact Saved.closureOk_writeOff hinv hm hsaved hentries
  | recover loanLossId amount => exact Saved.closureOk_recover hinv hsaved hentries
  | accrue interest => exact Saved.closureOk_accrue hinv henabled hsaved
  | mark status =>
    have hstatus : row.status = status := hstatus
    have hactive : l.status ≠ .writtenOff ∧ l.status ≠ .closed ∧ status ≠ .closed := by
      rcases henabled with ⟨h, h'⟩ | ⟨h, h'⟩ <;> rw [h, h'] <;> decide
    apply Saved.closureOk_same hsaved
    intro _
    refine ⟨fun hc => absurd (hstatus.symm.trans hc) hactive.2.2, fun hzero => ?_⟩
    exact absurd ((hinv.closure hactive.1).mpr hzero) hactive.2.1
  | assess amount =>
    refine Saved.closureOk_penalties hinv hsaved rfl rfl ?_ hm.2
    intro hc
    obtain ⟨-, -, hpen⟩ := (hinv.closure (by rw [hc]; decide)).mp hc
    have hamount := hm.1 hc
    show l.accruedPenalties.val + amount < halfUnit
    linarith
  | collect amount =>
    refine Saved.closureOk_penalties hinv hsaved rfl rfl ?_ ?_
    · intro hc
      obtain ⟨-, -, hpen⟩ := (hinv.closure (by rw [hc]; decide)).mp hc
      have hamount := hm.1 hc
      show max (l.accruedPenalties.val - amount) 0 < halfUnit
      exact max_lt (by linarith) (by norm_num [halfUnit])
    · intro hactive ho hi
      exact (hm.2 hactive ho hi).trans (le_max_left _ _)
  | reschedule =>
    have hstatus : row.status = l.status := hstatus
    apply Saved.closureOk_same hsaved
    rw [hstatus]
    exact hinv.closure

end

theorem closureInvariant_kept :
    Kept Movement.KeepsClosure (fun _ _ _ => True) (fun _ l => l.ClosureInvariant) where
  frame := fun _ _ _ hl _ => hl
  change := by
    intro t t' l row m key allowed enabled saved entries hl
    refine ⟨saved.closureOk hl allowed enabled entries, saved.nonneg, ?_⟩
    rw [saved.status]
    exact Movement.status_ne_disbursing enabled hl.disbursed
  opened := by
    intro t t' l account booked hbooks allowed opened id entries
    have hstatus := opened.status
    obtain ⟨hout, -, -, -, -⟩ := opened.columns
    refine ⟨fun _ => ?_, opened.nonneg, by rw [hstatus]; decide⟩
    rw [hstatus]
    refine ⟨nofun, fun hzero => ?_⟩
    have hpos := opened.principal_pos
    rw [← hout, hzero.1] at hpos
    exact absurd hpos (lt_irrefl 0)

/-! ## Runs -/

/-- The movement that the event asks for keeps the closure of its loan right. -/
def OutboxEvent.KeepsClosure (t : Tables) (event : OutboxEvent) : Prop :=
  ∀ x ∈ event.body.movement?, ∀ l ∈ t.loan? x.1, x.2.KeepsClosure l

instance (t : Tables) (event : OutboxEvent) : Decidable (event.KeepsClosure t) :=
  inferInstanceAs (Decidable (∀ x ∈ event.body.movement?, _))

/-- The condition on one operation. The events of a batch meet theirs when their turn comes. -/
def CreditOp.MovementsKeepClosure (t : Tables) : CreditOp → Prop
  | repay r => ∀ l ∈ t.loan? r.loanId,
      (Movement.repay r.paymentAccountId r.amount).KeepsClosure l
  | writeOff w => ∀ l ∈ t.loan? w.loanId, ∀ a ∈ t.account? w.loanLossAccountCode,
      (Movement.writeOff a.id w.amount).KeepsClosure l
  | executeWriteOff payload => ∀ l ∈ payload.loanId.bind t.loan?,
      ∀ a ∈ t.account? (payload.loanLossAccountCode.getD "5100"),
      ∀ amount ∈ payload.amount, (Movement.writeOff a.id amount).KeepsClosure l
  | consumeEvents => Along consumeEvent (fun t event => event.KeepsClosure t) t t.pendingEvents
  | _ => True

instance (t : Tables) (op : CreditOp) : Decidable (op.MovementsKeepClosure t) := by
  induction op using CreditOp.casesOn <;> unfold CreditOp.MovementsKeepClosure <;> infer_instance

def CreditOp.KeepsClosure (t : Tables) (op : CreditOp) : Prop :=
  op.ForeignKeys ∧ op.MovementsKeepClosure t

instance (t : Tables) (op : CreditOp) : Decidable (op.KeepsClosure t) :=
  inferInstanceAs (Decidable (_ ∧ _))

theorem CreditOp.MovementsKeepClosure.movement {t : Tables} {op : CreditOp}
    (h : op.MovementsKeepClosure t) {l : Loan} {m : Movement} (hm : op.Allows t l m) :
    m.KeepsClosure l := by
  cases op with
  | repay r =>
    obtain ⟨hloan, rfl⟩ := hm
    exact h l hloan
  | writeOff w =>
    obtain ⟨hloan, a, ha, rfl⟩ := hm
    exact h l hloan a ha
  | executeWriteOff payload =>
    obtain ⟨hloan, a, amount, ha, hamount, rfl⟩ := hm
    exact h l hloan a ha amount hamount
  | recover w =>
    obtain ⟨-, a, -, rfl⟩ := hm
    trivial
  | accrueInterest today =>
    obtain ⟨interest, rfl⟩ := hm
    trivial
  | markArrears today =>
    obtain ⟨status, rfl⟩ := hm
    trivial
  | restructure today payload =>
    have hres : m = .reschedule := hm
    rw [hres]
    trivial
  | consumeEvents =>
    obtain ⟨done, event, rest, hpending, hl, hmove⟩ := hm
    unfold CreditOp.MovementsKeepClosure at h
    rw [hpending, along_append] at h
    exact h.2.1 (l.id, m) hmove l hl
  | disburse today d => exact hm.elim
  | feeEvent body => exact hm.elim
  | foreignEntry e => exact hm.elim
  | reference data => exact hm.elim

theorem CreditOp.KeepsClosure.within {t : Tables} {op : CreditOp} (h : op.KeepsClosure t) :
    op.Within Movement.KeepsClosure (fun _ _ _ => True) t :=
  ⟨h.1, fun _ _ hm => h.2.movement hm, fun _ _ _ _ => trivial⟩

/-- In every run within the condition, a loan that is not written off is closed exactly when
nothing is owed on it. -/
theorem closed_iff_nothingOwed (ar : LienArithmetic) {t : Tables} (hgenesis : t.Genesis)
    {ops : List CreditOp} (hops : Along (CreditOp.step ar) CreditOp.KeepsClosure t ops) :
    ∀ l ∈ (run (CreditOp.step ar) t ops).loans, l.ClosureOk := by
  have hinv : Loanwise (fun _ l => l.ClosureInvariant) (run (CreditOp.step ar) t ops) :=
    closureInvariant_kept.run hgenesis (hops.mono fun _ _ h => h.within)
  exact fun l hl => (hinv.loans l hl).closure

/-- A penalty is assessed and collected while the sample loan is open; then the loan is repaid. -/
def penaltyRun : List CreditOp :=
  [sampleDisbursement, .feeEvent (.feeAssessmentCreated ⟨some "loan", some 11, some 5⟩),
    .consumeEvents, .feeEvent (.feeCollectionCreated ⟨some "loan", some 11, some 5⟩),
    .consumeEvents, .repay ⟨11, 1000, 5, 30, none, "r1", none⟩]

theorem closed_iff_nothingOwed_penaltyRun :
    Along (CreditOp.step .python) CreditOp.KeepsClosure (sampleTenant .reducingBalance)
        penaltyRun ∧
      (run (CreditOp.step .python) (sampleTenant .reducingBalance) penaltyRun).loans.map (·.status)
        = [.closed] ∧
      ∀ l ∈ (run (CreditOp.step .python) (sampleTenant .reducingBalance) penaltyRun).loans,
        l.ClosureOk :=
  have hops : Along (CreditOp.step .python) CreditOp.KeepsClosure
      (sampleTenant .reducingBalance) penaltyRun := by decide +kernel
  ⟨hops, by decide +kernel, closed_iff_nothingOwed .python (genesis_sampleTenant _) hops⟩

/-- The penalty is assessed after the loan was repaid. -/
def lateAssessmentRun : List CreditOp :=
  [sampleDisbursement, .repay ⟨11, 1000, 5, 30, none, "r1", none⟩,
    .feeEvent (.feeAssessmentCreated ⟨some "loan", some 11, some 5⟩), .consumeEvents]

/-- The penalty is collected after principal and interest were repaid. -/
def lateCollectionRun : List CreditOp :=
  [sampleDisbursement, .feeEvent (.feeAssessmentCreated ⟨some "loan", some 11, some 5⟩),
    .consumeEvents, .repay ⟨11, 1000, 5, 30, none, "r1", none⟩,
    .feeEvent (.feeCollectionCreated ⟨some "loan", some 11, some 5⟩), .consumeEvents]

/-- A closed loan that owes a penalty, and a disbursed one that owes nothing. -/
theorem closure_fails_late :
    ((run (CreditOp.step .python) (sampleTenant .reducingBalance) lateAssessmentRun).loans.map
        (fun l => (l.status, l.accruedPenalties.val)) = [(.closed, 5)] ∧
      ¬ ∀ l ∈ (run (CreditOp.step .python) (sampleTenant .reducingBalance) lateAssessmentRun).loans,
        l.ClosureOk) ∧
    (run (CreditOp.step .python) (sampleTenant .reducingBalance) lateCollectionRun).loans.map
        (fun l => (l.status, decide l.NothingOwed)) = [(.disbursed, true)] ∧
      ¬ ∀ l ∈ (run (CreditOp.step .python) (sampleTenant .reducingBalance) lateCollectionRun).loans,
        l.ClosureOk :=
  ⟨⟨by decide +kernel, by decide +kernel⟩, by decide +kernel, by decide +kernel⟩

end SaccoPlatform
