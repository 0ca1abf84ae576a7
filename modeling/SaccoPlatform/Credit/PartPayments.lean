import SaccoPlatform.Credit.Posting
import SaccoPlatform.Lib.Pouring

/-!
# Repayments in parts

`_update_installments` pours two amounts at once over the open instalments, interest and principal.
A row that a first payment settled has left the query of the second one, and a row that it reached
without filling it is visited again. In the end the rows stand as after one payment of the sum.
-/

namespace SaccoPlatform

open Lib Session

/-! ## One row -/

/-- What a row takes of what is left. -/
def partOf (left due paid : ℚ) : ℚ :=
  if 0 < min left (due - paid) then min left (due - paid) else 0

theorem partOf_eq {left due paid : ℚ} (hleft : 0 ≤ left) :
    partOf left due paid = min left (max 0 (due - paid)) := by
  unfold partOf
  rcases lt_or_ge 0 (due - paid) with hopen | hfull
  · rw [max_eq_right hopen.le]
    split
    · rfl
    · next hnot =>
      have hzero : min left (due - paid) = 0 := le_antisymm (not_lt.mp hnot) (le_min hleft hopen.le)
      rw [hzero]
  · have hnot : ¬ 0 < min left (due - paid) := fun h => absurd (lt_min_iff.mp h).2 (not_lt.mpr hfull)
    rw [max_eq_left hfull, min_eq_right hleft, if_neg hnot]

/-- Filling up to a bound in two goes. -/
theorem min_add_min {a b c : ℚ} (hb : 0 ≤ b) :
    min (a + b) c = min a c + min b (c - min a c) := by
  rcases le_total a c with hac | hca
  · rw [min_eq_left hac]
    rcases le_total b (c - a) with hbc | hcb
    · rw [min_eq_left hbc, min_eq_left (by linarith)]
    · rw [min_eq_right hcb, min_eq_right (by linarith)]
      ring
  · rw [min_eq_right hca, sub_self, min_eq_right hb, min_eq_right (by linarith)]
    ring

theorem partOf_nonneg {left due paid : ℚ} : 0 ≤ partOf left due paid := by
  unfold partOf
  split
  · next hpos => exact hpos.le
  · exact le_rfl

theorem partOf_le {left due paid : ℚ} (hleft : 0 ≤ left) : partOf left due paid ≤ left := by
  rw [partOf_eq hleft]
  exact min_le_left _ _

theorem partOf_mem_grid {left : ℚ} {due paid : Money} (hleft : left ∈ grid 4) :
    partOf left due.val paid.val ∈ grid 4 := by
  unfold partOf
  split
  · exact min_mem_grid hleft (sub_mem due.onGrid paid.onGrid)
  · exact zero_mem _

theorem partOf_add {a b due paid : ℚ} (ha : 0 ≤ a) (hb : 0 ≤ b) :
    partOf (a + b) due paid = partOf a due paid + partOf b due (paid + partOf a due paid) := by
  have hrest : max 0 (due - (paid + partOf a due paid)) =
      max 0 (due - paid) - min a (max 0 (due - paid)) := by
    rw [partOf_eq ha]
    rcases le_total 0 (due - paid) with hopen | hfull
    · have hle : min a (due - paid) ≤ due - paid := min_le_right _ _
      rw [max_eq_right hopen, max_eq_right (by linarith)]
      ring
    · rw [max_eq_left hfull, min_eq_right ha, max_eq_left (by linarith), sub_zero]
  rw [partOf_eq (add_nonneg ha hb), partOf_eq hb, hrest, partOf_eq ha]
  exact min_add_min hb

theorem partOf_full {left due paid : ℚ} (h : due ≤ paid) : partOf left due paid = 0 :=
  if_neg (not_lt.mpr ((min_le_right _ _).trans (sub_nonpos.mpr h)))

/-- A column with an amount added to it, where it has room. -/
def paidUp (paid : Money) (part : ℚ) : Money := (Numeric.ofRat? (decimal (paid.val + part))).getD paid

theorem paidUp_zero (paid : Money) : paidUp paid 0 = paid := by
  rw [paidUp, add_zero, decimal_val, Numeric.ofRat?_val, Option.getD_some]

/-- The column takes what a row takes, rounded to its decimals. -/
theorem ofRat?_paidUp_round (left : ℚ) (due paid : Money) :
    Numeric.ofRat? (decimal (paid.val + partOf left due.val paid.val)) =
        some (paidUp paid (partOf left due.val paid.val)) ∧
      (paidUp paid (partOf left due.val paid.val)).val =
        roundAt 4 (decimal (paid.val + partOf left due.val paid.val)) := by
  have hfits : |roundAt 4 (decimal (paid.val + partOf left due.val paid.val))| < 10 ^ 15 := by
    unfold partOf
    split
    · next hpos =>
      have hle : min left (due.val - paid.val) ≤ due.val - paid.val := min_le_right _ _
      exact fits_of_decimal paid due (by linarith) (by linarith)
    · exact fits_of_decimal paid paid (by linarith) (by linarith)
  obtain ⟨m, hm, hval⟩ := exists_ofRat? hfits
  rw [paidUp, hm]
  exact ⟨rfl, hval⟩

theorem decimal_add_part {left : ℚ} (hleft : left ∈ grid 4) (due paid : Money) :
    decimal (paid.val + partOf left due.val paid.val) = paid.val + partOf left due.val paid.val := by
  have hpaid : |paid.val| < 10 ^ 15 := paid.fits
  have hdue : |due.val| < 10 ^ 15 := due.fits
  apply decimal_money (add_mem paid.onGrid (partOf_mem_grid hleft))
  unfold partOf
  split
  · next hpos =>
    have hle : min left (due.val - paid.val) ≤ due.val - paid.val := min_le_right _ _
    rw [abs_lt] at hpaid hdue ⊢
    exact ⟨by linarith, by linarith⟩
  · rw [add_zero]
    linarith

/-- What a row takes of an amount of four decimals goes into the column as it is. -/
theorem ofRat?_paidUp {left : ℚ} (hleft : left ∈ grid 4) (due paid : Money) :
    (paidUp paid (partOf left due.val paid.val)).val = paid.val + partOf left due.val paid.val := by
  rw [(ofRat?_paidUp_round left due paid).2, decimal_add_part hleft,
    roundAt_of_mem (add_mem paid.onGrid (partOf_mem_grid hleft))]

/-- A column that takes two amounts one after the other. -/
theorem paidUp_add {a b : ℚ} (ha : 0 ≤ a) (hb : 0 ≤ b) (hamem : a ∈ grid 4) (hbmem : b ∈ grid 4)
    (due paid : Money) :
    partOf (a + b) due.val paid.val = partOf a due.val paid.val +
        partOf b due.val (paidUp paid (partOf a due.val paid.val)).val ∧
      paidUp (paidUp paid (partOf a due.val paid.val))
          (partOf b due.val (paidUp paid (partOf a due.val paid.val)).val) =
        paidUp paid (partOf (a + b) due.val paid.val) := by
  have hfirst := ofRat?_paidUp hamem due paid
  have hsecond := ofRat?_paidUp hbmem due (paidUp paid (partOf a due.val paid.val))
  have hboth := ofRat?_paidUp (add_mem hamem hbmem) due paid
  have hsum : partOf (a + b) due.val paid.val = partOf a due.val paid.val +
      partOf b due.val (paidUp paid (partOf a due.val paid.val)).val := by
    rw [hfirst]
    exact partOf_add ha hb
  refine ⟨hsum, ?_⟩
  ext
  rw [hsecond, hboth, hsum, hfirst, add_assoc]

/-- The status of a row that was visited and has been paid this much. -/
def LoanInstallment.statusPaid (inst : LoanInstallment) (interestPaid principalPaid : ℚ) :
    InstallmentStatus :=
  if inst.interestDue.val ≤ interestPaid ∧ inst.principalDue.val ≤ principalPaid then .paid
  else if 0 < interestPaid ∨ 0 < principalPaid then .partiallyPaid
  else inst.status

def LoanInstallment.interestPart (inst : LoanInstallment) (left : ℚ) : ℚ :=
  partOf left inst.interestDue.val inst.interestPaid.val

def LoanInstallment.principalPart (inst : LoanInstallment) (left : ℚ) : ℚ :=
  partOf left inst.principalDue.val inst.principalPaid.val

/-- The row after it took its parts. -/
def LoanInstallment.pay (inst : LoanInstallment) (left : ℚ × ℚ) : LoanInstallment :=
  { inst with
    interestPaid := paidUp inst.interestPaid (inst.interestPart left.1)
    principalPaid := paidUp inst.principalPaid (inst.principalPart left.2)
    status := inst.statusPaid (decimal (inst.interestPaid.val + inst.interestPart left.1))
      (decimal (inst.principalPaid.val + inst.principalPart left.2)) }

/-- What is left of an amount when a row took its part. -/
def lessPart (left part : ℚ) : ℚ := if 0 < part then decimal (left - part) else left

/-- A round of the loop without the table: what is left after the row, and the row. -/
def payRow (left : ℚ × ℚ) (inst : LoanInstallment) : (ℚ × ℚ) × LoanInstallment :=
  if left.1 ≤ 0 ∧ left.2 ≤ 0 then (left, inst)
  else ((lessPart left.1 (inst.interestPart left.1), lessPart left.2 (inst.principalPart left.2)),
    inst.pay left)

/-- Amounts of four decimals, none of them below zero, and no larger than money columns. -/
structure Payable (left : ℚ × ℚ) : Prop where
  interest_nonneg : 0 ≤ left.1
  principal_nonneg : 0 ≤ left.2
  interest_mem : left.1 ∈ grid 4
  principal_mem : left.2 ∈ grid 4
  interest_lt : left.1 < 10 ^ 15
  principal_lt : left.2 < 10 ^ 15

theorem lessPart_nonneg {left part : ℚ} (hleft : 0 ≤ left) (hle : part ≤ left) :
    0 ≤ lessPart left part := by
  unfold lessPart
  split
  · exact decimal_nonneg (sub_nonneg.mpr hle)
  · exact hleft

theorem lessPart_partOf {left : ℚ} (hleft : 0 ≤ left) (hmem : left ∈ grid 4) (hlt : left < 2 * 10 ^ 15)
    (due paid : Money) : lessPart left (partOf left due.val paid.val) =
      left - partOf left due.val paid.val := by
  have hpart := @partOf_nonneg left due.val paid.val
  unfold lessPart
  split
  · apply decimal_money (sub_mem hmem (partOf_mem_grid hmem))
    rw [abs_of_nonneg (sub_nonneg.mpr (partOf_le hleft))]
    linarith
  · next hnot =>
    rw [le_antisymm (not_lt.mp hnot) hpart, sub_zero]

/-- What is left of two amounts that a row takes one after the other. -/
theorem lessPart_add {a b : ℚ} (ha : 0 ≤ a) (hb : 0 ≤ b) (hamem : a ∈ grid 4) (hbmem : b ∈ grid 4)
    (halt : a < 10 ^ 15) (hblt : b < 10 ^ 15) (due paid : Money) :
    lessPart (a + b) (partOf (a + b) due.val paid.val) = lessPart a (partOf a due.val paid.val) +
      lessPart b (partOf b due.val (paidUp paid (partOf a due.val paid.val)).val) := by
  obtain ⟨hsum, -⟩ := paidUp_add ha hb hamem hbmem due paid
  rw [lessPart_partOf (add_nonneg ha hb) (add_mem hamem hbmem) (by linarith),
    lessPart_partOf ha hamem (by linarith), lessPart_partOf hb hbmem (by linarith), hsum]
  ring

theorem payRow_id (left : ℚ × ℚ) (inst : LoanInstallment) : (payRow left inst).2.id = inst.id := by
  unfold payRow
  split <;> rfl

theorem payRow_same (left : ℚ × ℚ) (inst : LoanInstallment) :
    (payRow left inst).2.loanId = inst.loanId ∧
      (payRow left inst).2.periodNumber = inst.periodNumber := by
  unfold payRow
  split
  · exact ⟨rfl, rfl⟩
  · exact ⟨rfl, rfl⟩

theorem payable_payRow (left : ℚ × ℚ) (inst : LoanInstallment) (h : Payable left) :
    Payable (payRow left inst).1 := by
  unfold payRow
  split
  · exact h
  · have hi : lessPart left.1 (inst.interestPart left.1) = left.1 - inst.interestPart left.1 :=
      lessPart_partOf h.interest_nonneg h.interest_mem (by linarith [h.interest_lt]) _ _
    have hp : lessPart left.2 (inst.principalPart left.2) = left.2 - inst.principalPart left.2 :=
      lessPart_partOf h.principal_nonneg h.principal_mem (by linarith [h.principal_lt]) _ _
    have hi0 : 0 ≤ inst.interestPart left.1 := partOf_nonneg
    have hp0 : 0 ≤ inst.principalPart left.2 := partOf_nonneg
    rw [hi, hp]
    exact ⟨sub_nonneg.mpr (partOf_le h.interest_nonneg), sub_nonneg.mpr (partOf_le h.principal_nonneg),
      sub_mem h.interest_mem (partOf_mem_grid h.interest_mem),
      sub_mem h.principal_mem (partOf_mem_grid h.principal_mem),
      lt_of_le_of_lt (sub_le_self _ hi0) h.interest_lt,
      lt_of_le_of_lt (sub_le_self _ hp0) h.principal_lt⟩

/-- The status does not change twice. -/
theorem statusPaid_statusPaid {inst inst' : LoanInstallment} {i p i' p' : ℚ} (hi : i ≤ i') (hp : p ≤ p')
    (hinterest : inst'.interestDue = inst.interestDue)
    (hprincipal : inst'.principalDue = inst.principalDue)
    (hstatus : inst'.status = inst.statusPaid i p) :
    inst'.statusPaid i' p' = inst.statusPaid i' p' := by
  unfold LoanInstallment.statusPaid at hstatus ⊢
  rw [hinterest, hprincipal, hstatus]
  by_cases hfull : inst.interestDue.val ≤ i' ∧ inst.principalDue.val ≤ p'
  · rw [if_pos hfull, if_pos hfull]
  · rw [if_neg hfull, if_neg hfull]
    by_cases hpos : 0 < i' ∨ 0 < p'
    · rw [if_pos hpos, if_pos hpos]
    · have hfull' : ¬ (inst.interestDue.val ≤ i ∧ inst.principalDue.val ≤ p) :=
        fun h => hfull ⟨h.1.trans hi, h.2.trans hp⟩
      have hpos' : ¬ (0 < i ∨ 0 < p) := by
        intro h
        apply hpos
        rcases h with h | h
        · exact .inl (h.trans_le hi)
        · exact .inr (h.trans_le hp)
      rw [if_neg hpos, if_neg hpos, if_neg hfull', if_neg hpos']

theorem pay_pay {a b : ℚ × ℚ} (ha : Payable a) (hb : Payable b) (inst : LoanInstallment) :
    inst.interestPart (a + b).1 = inst.interestPart a.1 + (inst.pay a).interestPart b.1 ∧
      inst.principalPart (a + b).2 = inst.principalPart a.2 + (inst.pay a).principalPart b.2 ∧
      (inst.pay a).pay b = inst.pay (a + b) := by
  obtain ⟨hinterest, hinterestPaid⟩ := paidUp_add ha.interest_nonneg hb.interest_nonneg
    ha.interest_mem hb.interest_mem inst.interestDue inst.interestPaid
  obtain ⟨hprincipal, hprincipalPaid⟩ := paidUp_add ha.principal_nonneg hb.principal_nonneg
    ha.principal_mem hb.principal_mem inst.principalDue inst.principalPaid
  have hi := ofRat?_paidUp ha.interest_mem inst.interestDue inst.interestPaid
  have hp := ofRat?_paidUp ha.principal_mem inst.principalDue inst.principalPaid
  have hinterestSum : inst.interestPart (a + b).1 =
    inst.interestPart a.1 + (inst.pay a).interestPart b.1 := hinterest
  have hprincipalSum : inst.principalPart (a + b).2 =
    inst.principalPart a.2 + (inst.pay a).principalPart b.2 := hprincipal
  refine ⟨hinterestSum, hprincipalSum, ?_⟩
  have hi' : (inst.pay a).interestPaid.val + (inst.pay a).interestPart b.1 =
      inst.interestPaid.val + inst.interestPart (a + b).1 := by
    have hval : (inst.pay a).interestPaid.val = inst.interestPaid.val + inst.interestPart a.1 := hi
    rw [hval, hinterestSum, add_assoc]
  have hp' : (inst.pay a).principalPaid.val + (inst.pay a).principalPart b.2 =
      inst.principalPaid.val + inst.principalPart (a + b).2 := by
    have hval : (inst.pay a).principalPaid.val = inst.principalPaid.val + inst.principalPart a.2 := hp
    rw [hval, hprincipalSum, add_assoc]
  have hnoninterest : 0 ≤ (inst.pay a).interestPart b.1 := partOf_nonneg
  have hnonprincipal : 0 ≤ (inst.pay a).principalPart b.2 := partOf_nonneg
  have hstatus : (inst.pay a).statusPaid
        (decimal ((inst.pay a).interestPaid.val + (inst.pay a).interestPart b.1))
        (decimal ((inst.pay a).principalPaid.val + (inst.pay a).principalPart b.2)) =
      inst.statusPaid (decimal (inst.interestPaid.val + inst.interestPart (a + b).1))
        (decimal (inst.principalPaid.val + inst.principalPart (a + b).2)) := by
    rw [hi', hp']
    exact statusPaid_statusPaid (decimal_mono (by linarith)) (decimal_mono (by linarith)) rfl rfl rfl
  unfold LoanInstallment.pay at hstatus ⊢
  simp only [LoanInstallment.mk.injEq, true_and, and_true]
  exact ⟨hprincipalPaid, hinterestPaid, hstatus⟩

/-- A row takes two amounts one after the other like their sum. -/
theorem payRow_add (a b : ℚ × ℚ) (inst : LoanInstallment) (ha : Payable a) (hb : Payable b) :
    payRow (a + b) inst =
      ((payRow a inst).1 + (payRow b (payRow a inst).2).1, (payRow b (payRow a inst).2).2) := by
  have hzero : ∀ c : ℚ × ℚ, Payable c → c.1 ≤ 0 ∧ c.2 ≤ 0 → c = 0 := by
    intro c hc hle
    ext
    · exact le_antisymm hle.1 hc.interest_nonneg
    · exact le_antisymm hle.2 hc.principal_nonneg
  by_cases hadone : a.1 ≤ 0 ∧ a.2 ≤ 0
  · have hskip : payRow a inst = (a, inst) := if_pos hadone
    rw [hskip, hzero a ha hadone, zero_add, zero_add]
  by_cases hbdone : b.1 ≤ 0 ∧ b.2 ≤ 0
  · have hskip : payRow b (payRow a inst).2 = (b, (payRow a inst).2) := if_pos hbdone
    rw [hskip, hzero b hb hbdone, add_zero, add_zero]
  have hdone : ¬ ((a + b).1 ≤ 0 ∧ (a + b).2 ≤ 0) := by
    rintro ⟨h1, h2⟩
    apply hadone
    have h1' : a.1 + b.1 ≤ 0 := h1
    have h2' : a.2 + b.2 ≤ 0 := h2
    exact ⟨by linarith [hb.interest_nonneg], by linarith [hb.principal_nonneg]⟩
  obtain ⟨-, -, hpay⟩ := pay_pay ha hb inst
  have hfirst : payRow a inst = _ := if_neg hadone
  have hsecond : payRow b (inst.pay a) = _ := if_neg hbdone
  have hboth : payRow (a + b) inst = _ := if_neg hdone
  rw [hboth, hfirst, hsecond, hpay]
  refine Prod.ext (Prod.ext ?_ ?_) rfl
  · exact lessPart_add ha.interest_nonneg hb.interest_nonneg ha.interest_mem hb.interest_mem
      ha.interest_lt hb.interest_lt inst.interestDue inst.interestPaid
  · exact lessPart_add ha.principal_nonneg hb.principal_nonneg ha.principal_mem hb.principal_mem
      ha.principal_lt hb.principal_lt inst.principalDue inst.principalPaid

/-! ## The loop -/

theorem allocateRound_eq (left : ℚ × ℚ) (inst : LoanInstallment) (t : Tables) :
    allocateRound left inst t = .ok (payRow left inst).1
      (if left.1 ≤ 0 ∧ left.2 ≤ 0 then t else t.putInstallment (payRow left inst).2) := by
  unfold allocateRound payRow
  by_cases hdone : left.1 ≤ 0 ∧ left.2 ≤ 0
  · rw [if_pos hdone, if_pos hdone, if_pos hdone]
    rfl
  · rw [if_neg hdone, if_neg hdone, if_neg hdone]
    obtain ⟨hinterest, -⟩ := ofRat?_paidUp_round left.1 inst.interestDue inst.interestPaid
    obtain ⟨hprincipal, -⟩ := ofRat?_paidUp_round left.2 inst.principalDue inst.principalPaid
    have hpaid : ∀ (x : ℚ) (paid : Money), (if 0 < x then decimal (paid.val + x) else paid.val) =
        decimal (paid.val + (if 0 < x then x else 0)) := by
      intro x paid
      split
      · rfl
      · rw [add_zero, decimal_val]
    have hrest : ∀ x left : ℚ, (if 0 < x then decimal (left - x) else left) =
        lessPart left (if 0 < x then x else 0) := by
      intro x left
      unfold lessPart
      by_cases hpos : 0 < x
      · rw [if_pos hpos, if_pos hpos, if_pos hpos]
      · rw [if_neg hpos, if_neg hpos, if_neg (lt_irrefl _)]
    unfold payInstallment
    simp only [decimal_sub_money, hpaid, hrest]
    refine bind_eq_ok.mpr ⟨_, t, writeMoney_eq_ok.mpr ⟨hinterest, rfl⟩, ?_⟩
    refine bind_eq_ok.mpr ⟨_, t, writeMoney_eq_ok.mpr ⟨hprincipal, rfl⟩, ?_⟩
    rfl

/-- The table after the loop. -/
theorem foldEach_allocateRound_eq {rows : List LoanInstallment} {left : ℚ × ℚ} {t : Tables}
    (hrows : ∀ r ∈ rows, r ∈ t.installments)
    (hnodup : (rows.map (·.id)).Nodup) (hids : (t.installments.map (·.id)).Nodup) :
    ∃ left', foldEach allocateRound rows left t = .ok left' { t with
      installments := t.installments.map (rewritten (·.id) (pour payRow left rows)) } := by
  induction rows generalizing left t with
  | nil =>
    refine ⟨left, ?_⟩
    have hsame : t.installments.map (rewritten (·.id) []) = t.installments := List.map_id _
    rw [pour, hsame]
    rfl
  | cons row rows ih =>
    rw [List.map_cons, List.nodup_cons] at hnodup
    have hfresh : (payRow left row).2.id ∉ (pour payRow (payRow left row).1 rows).map (·.id) := by
      rw [pour_keys payRow_id, payRow_id]
      exact hnodup.1
    have hput : (t.putInstallment (payRow left row).2).installments.map
          (rewritten (·.id) (pour payRow (payRow left row).1 rows)) =
        t.installments.map (rewritten (·.id) (pour payRow left (row :: rows))) :=
      map_put_map_rewritten hfresh
    have hround := allocateRound_eq left row t
    by_cases hdone : left.1 ≤ 0 ∧ left.2 ≤ 0
    · -- nothing is left, and writing the row back as it is changes nothing
      rw [if_pos hdone] at hround
      have hskip : payRow left row = (left, row) := if_pos hdone
      have hsame : (t.putInstallment row).installments = t.installments := by
        refine (map_put_eq hids (hrows row List.mem_cons_self) id).trans ?_
        simp
      obtain ⟨left', hloop⟩ := @ih (payRow left row).1 t
        (fun r hr => hrows r (List.mem_cons_of_mem _ hr)) hnodup.2 hids
      refine ⟨left', bind_eq_ok.mpr ⟨_, _, hround, ?_⟩⟩
      rw [hloop, ← hput, hskip, hsame]
    · rw [if_neg hdone] at hround
      have hkeys : (t.putInstallment (payRow left row).2).installments.map (·.id) =
          t.installments.map (·.id) := by
        show (t.installments.map fun r => if r.id = (payRow left row).2.id then (payRow left row).2
          else r).map (·.id) = _
        rw [List.map_map]
        apply List.map_congr_left
        intro r _
        by_cases h : r.id = (payRow left row).2.id
        · simp [h]
        · simp [h]
      have hlater : ∀ r ∈ rows, r ∈ (t.putInstallment (payRow left row).2).installments := by
        intro r hr
        have hne : r.id ≠ (payRow left row).2.id := by
          rw [payRow_id]
          intro heq
          exact hnodup.1 (heq ▸ List.mem_map_of_mem hr)
        exact List.mem_map.mpr ⟨r, hrows r (List.mem_cons_of_mem _ hr), if_neg hne⟩
      obtain ⟨left', hloop⟩ := @ih (payRow left row).1 _ hlater hnodup.2 (hkeys ▸ hids)
      refine ⟨left', bind_eq_ok.mpr ⟨_, _, hround, ?_⟩⟩
      rw [hloop, ← hput]
      rfl

/-- The instalments after a payment of these amounts. -/
def Tables.pouredInstallments (t : Tables) (loanId : Uuid) (left : ℚ × ℚ) : List LoanInstallment :=
  t.installments.map (rewritten (·.id) (pour payRow left (t.openInstallments loanId)))

theorem pouredInstallments_congr {t t' : Tables} (h : t'.installments = t.installments) (loanId : Uuid)
    (left : ℚ × ℚ) : t'.pouredInstallments loanId left = t.pouredInstallments loanId left := by
  unfold Tables.pouredInstallments Tables.openInstallments
  rw [h]

theorem pouredInstallments_ids (t : Tables) (loanId : Uuid) (left : ℚ × ℚ) :
    (t.pouredInstallments loanId left).map (·.id) = t.installments.map (·.id) := by
  unfold Tables.pouredInstallments
  rw [List.map_map]
  apply List.map_congr_left
  intro inst _
  exact key_rewritten (·.id) _ inst

theorem openInstallments_nodup {t : Tables} (hids : (t.installments.map (·.id)).Nodup) (loanId : Uuid) :
    ((t.openInstallments loanId).map (·.id)).Nodup := by
  have hperm := ((t.installments.filter fun inst => inst.loanId = loanId ∧ inst.Open).perm_insertionSort
    fun a b => a.periodNumber ≤ b.periodNumber).map (·.id)
  have hsub : ((t.installments.filter fun inst => inst.loanId = loanId ∧ inst.Open).map (·.id)).Nodup :=
    hids.sublist (List.filter_sublist.map _)
  exact hperm.nodup_iff.mpr hsub

theorem updateInstallments_eq {t : Tables} {loanId : Uuid} {interest principal : ℚ}
    (hids : (t.installments.map (·.id)).Nodup) :
    updateInstallments loanId interest principal t =
      .ok () { t with installments := t.pouredInstallments loanId (interest, principal) } := by
  have hrows : ∀ r ∈ t.openInstallments loanId, r ∈ t.installments :=
    fun r hr => (mem_openInstallments.mp hr).1
  obtain ⟨left', hloop⟩ := @foldEach_allocateRound_eq _ (interest, principal) t hrows
    (openInstallments_nodup hids loanId) hids
  exact bind_eq_ok.mpr ⟨t, t, rfl, bind_eq_ok.mpr ⟨left', _, hloop, rfl⟩⟩

/-! ## Two payments -/

section

variable {t t₁ : Tables} {loanId : Uuid} {left : ℚ × ℚ}

/-- A row after a payment: one of the open rows that took its part, or as it was. -/
theorem rewritten_open (loanId : Uuid) (hids : (t.installments.map (·.id)).Nodup) (hleft : Payable left)
    {inst : LoanInstallment} (hinst : inst ∈ t.installments) :
    (inst ∈ t.openInstallments loanId ∧ ∃ part, Payable part ∧
        rewritten (·.id) (pour payRow left (t.openInstallments loanId)) inst = (payRow part inst).2) ∨
      (inst ∉ t.openInstallments loanId ∧
        rewritten (·.id) (pour payRow left (t.openInstallments loanId)) inst = inst) := by
  have hsub : ∀ r ∈ t.openInstallments loanId, r ∈ t.installments :=
    fun r hr => (mem_openInstallments.mp hr).1
  have hkeys := pour_keys payRow_id left (t.openInstallments loanId)
  by_cases hopen : inst ∈ t.openInstallments loanId
  · refine .inl ⟨hopen, ?_⟩
    have hwritten := map_rewritten hkeys (openInstallments_nodup hids loanId)
    have hmem : rewritten (·.id) (pour payRow left (t.openInstallments loanId)) inst ∈
        pour payRow left (t.openInstallments loanId) := by
      have h := List.mem_map_of_mem
        (f := rewritten (·.id) (pour payRow left (t.openInstallments loanId))) hopen
      rwa [hwritten] at h
    obtain ⟨part, row, hpart, hrow, heq⟩ := exists_of_mem_pour payable_payRow hleft hmem
    have hid : row.id = inst.id := by
      rw [← payRow_id part row, heq]
      exact key_rewritten (·.id) _ inst
    obtain rfl : row = inst := List.inj_on_of_nodup_map hids (hsub row hrow) hinst hid
    exact ⟨part, hpart, heq.symm⟩
  · refine .inr ⟨hopen, rewritten_of_not_mem ?_⟩
    rw [hkeys]
    intro h
    obtain ⟨row, hrow, hid⟩ := List.mem_map.mp h
    obtain rfl : row = inst := List.inj_on_of_nodup_map hids (hsub row hrow) hinst hid
    exact hopen hrow

/-- What the query of the next payment finds: the same rows, less those that are paid. -/
theorem openInstallments_paid (hids : (t.installments.map (·.id)).Nodup) (hleft : Payable left)
    (hpaid : t₁.installments = t.pouredInstallments loanId left) :
    t₁.openInstallments loanId =
      (pour payRow left (t.openInstallments loanId)).filter fun inst => inst.Open := by
  have htotal : Std.Total fun a b : LoanInstallment => a.periodNumber ≤ b.periodNumber :=
    ⟨fun a b => le_total a.periodNumber b.periodNumber⟩
  have htrans : IsTrans LoanInstallment fun a b => a.periodNumber ≤ b.periodNumber :=
    ⟨fun _ _ _ => le_trans⟩
  let after := rewritten (·.id) (pour payRow left (t.openInstallments loanId))
  have hsame : ∀ inst ∈ t.installments, (after inst).loanId = inst.loanId ∧
      (after inst).periodNumber = inst.periodNumber ∧
      ((after inst).loanId = loanId ∧ (after inst).Open →
        inst.loanId = loanId ∧ inst.Open) := by
    intro inst hinst
    rcases rewritten_open loanId hids hleft hinst with ⟨hopen, part, -, heq⟩ | ⟨-, heq⟩
    · have hrow := payRow_same part inst
      refine ⟨?_, ?_, ?_⟩
      · exact (congrArg LoanInstallment.loanId heq).trans hrow.1
      · exact (congrArg LoanInstallment.periodNumber heq).trans hrow.2
      · intro _
        exact (mem_openInstallments.mp hopen).2
    · have hafter : after inst = inst := heq
      rw [hafter]
      exact ⟨rfl, rfl, id⟩
  have hfilter : (t.pouredInstallments loanId left).filter
        (fun inst => inst.loanId = loanId ∧ inst.Open) =
      ((t.installments.filter fun inst => inst.loanId = loanId ∧ inst.Open).map after).filter
        fun inst => inst.Open := by
    show (t.installments.map after).filter _ = _
    rw [List.filter_map, List.filter_map, List.filter_filter]
    congr 1
    apply List.filter_congr
    intro inst hinst
    obtain ⟨hloan, -, hopen⟩ := hsame inst hinst
    rw [Bool.eq_iff_iff]
    simp only [Function.comp_apply, Bool.and_eq_true, decide_eq_true_eq]
    constructor
    · intro h
      exact ⟨h.2, hopen h⟩
    · intro h
      exact ⟨hloan.trans h.2.1, h.1⟩
  have hsorted : ((t.installments.filter fun inst => inst.loanId = loanId ∧ inst.Open).map
        after).insertionSort (fun a b => a.periodNumber ≤ b.periodNumber) =
      (t.openInstallments loanId).map after := by
    refine (List.map_insertionSort _ _ _ _ ?_).symm
    intro a ha b hb
    have hperiodA := (hsame a (List.mem_filter.mp ha).1).2.1
    have hperiodB := (hsame b (List.mem_filter.mp hb).1).2.1
    rw [hperiodA, hperiodB]
  have hwritten : (t.openInstallments loanId).map after =
      pour payRow left (t.openInstallments loanId) :=
    map_rewritten (pour_keys payRow_id left _) (openInstallments_nodup hids loanId)
  rw [← hwritten, ← hsorted, filter_insertionSort, ← hfilter, ← hpaid]
  rfl

/-- A row that left the query takes nothing any more. -/
theorem payRow_skip {part left : ℚ × ℚ} (hpart : Payable part) {inst : LoanInstallment}
    (hopen : inst.Open) (hpaid : ¬ (payRow part inst).2.Open) :
    payRow left (payRow part inst).2 = (left, (payRow part inst).2) := by
  by_cases hdone : part.1 ≤ 0 ∧ part.2 ≤ 0
  · have hskip : payRow part inst = (part, inst) := if_pos hdone
    rw [hskip] at hpaid
    exact absurd hopen hpaid
  have hpay : payRow part inst = _ := if_neg hdone
  rw [hpay] at hpaid ⊢
  have hi := ofRat?_paidUp hpart.interest_mem inst.interestDue inst.interestPaid
  have hp := ofRat?_paidUp hpart.principal_mem inst.principalDue inst.principalPaid
  have hisum : decimal (inst.interestPaid.val + inst.interestPart part.1) =
    (paidUp inst.interestPaid (inst.interestPart part.1)).val :=
      (decimal_add_part hpart.interest_mem inst.interestDue inst.interestPaid).trans hi.symm
  have hpsum : decimal (inst.principalPaid.val + inst.principalPart part.2) =
    (paidUp inst.principalPaid (inst.principalPart part.2)).val :=
      (decimal_add_part hpart.principal_mem inst.principalDue inst.principalPaid).trans hp.symm
  have hfull : inst.interestDue.val ≤ decimal (inst.interestPaid.val + inst.interestPart part.1) ∧
      inst.principalDue.val ≤ decimal (inst.principalPaid.val + inst.principalPart part.2) := by
    by_contra hnot
    apply hpaid
    show (inst.pay part).Open
    have hstatus : (inst.pay part).status =
        if 0 < decimal (inst.interestPaid.val + inst.interestPart part.1) ∨
          0 < decimal (inst.principalPaid.val + inst.principalPart part.2) then .partiallyPaid
        else inst.status := if_neg hnot
    unfold LoanInstallment.Open
    rw [hstatus]
    split
    · exact .inr (.inl rfl)
    · exact hopen
  have hinterest : (inst.pay part).interestPart left.1 = 0 := by
    apply partOf_full
    show inst.interestDue.val ≤ (paidUp inst.interestPaid (inst.interestPart part.1)).val
    exact hisum ▸ hfull.1
  have hprincipal : (inst.pay part).principalPart left.2 = 0 := by
    apply partOf_full
    show inst.principalDue.val ≤ (paidUp inst.principalPaid (inst.principalPart part.2)).val
    exact hpsum ▸ hfull.2
  have hagain : (inst.pay part).pay left = inst.pay part := by
    have hstatus : (inst.pay part).status = .paid := if_pos hfull
    have hsame : (inst.pay part).statusPaid
        (decimal ((inst.pay part).interestPaid.val + (inst.pay part).interestPart left.1))
        (decimal ((inst.pay part).principalPaid.val + (inst.pay part).principalPart left.2)) = .paid := by
      apply if_pos
      rw [hinterest, hprincipal, add_zero, add_zero, decimal_val, decimal_val]
      exact ⟨hisum ▸ hfull.1, hpsum ▸ hfull.2⟩
    rw [LoanInstallment.pay, hsame, hinterest, hprincipal, paidUp_zero, paidUp_zero, ← hstatus]
  unfold payRow
  split
  · rfl
  · have hleft : ∀ x, lessPart x 0 = x := fun x => if_neg (lt_irrefl _)
    show ((_, _), (inst.pay part).pay left) = (left, inst.pay part)
    rw [hagain, hinterest, hprincipal, hleft, hleft]

/-- Two payments leave the rows as their sum does. -/
theorem pouredInstallments_add {a b : ℚ × ℚ} (hids : (t.installments.map (·.id)).Nodup) (ha : Payable a)
    (hb : Payable b) (hpaid : t₁.installments = t.pouredInstallments loanId a) :
    t₁.pouredInstallments loanId b = t.pouredInstallments loanId (a + b) := by
  have hopen := openInstallments_paid hids ha hpaid
  have hnodup : ((pour payRow a (t.openInstallments loanId)).map (·.id)).Nodup := by
    rw [pour_keys payRow_id]
    exact openInstallments_nodup hids loanId
  have hagain : (pour payRow a (t.openInstallments loanId)).map
        (rewritten (·.id) (pour payRow b (t₁.openInstallments loanId))) =
      pour payRow (a + b) (t.openInstallments loanId) := by
    rw [hopen, ← pour_pour payable_payRow payRow_add ha hb]
    refine map_rewritten_pour_filter payRow_id payable_payRow ?_ hnodup hb
    intro left hleft row hrow hnot
    obtain ⟨part, inst, hpart, hinst, rfl⟩ := exists_of_mem_pour payable_payRow ha hrow
    exact payRow_skip hpart (mem_openInstallments.mp hinst).2.2 (by simpa using hnot)
  have hsub : (pour payRow b (t₁.openInstallments loanId)).map (·.id) ⊆
      (pour payRow a (t.openInstallments loanId)).map (·.id) := by
    rw [pour_keys payRow_id, hopen]
    exact List.map_subset _ (List.filter_subset_self _)
  unfold Tables.pouredInstallments at hpaid ⊢
  rw [hpaid, List.map_map, ← hagain]
  apply List.map_congr_left
  intro inst _
  exact rewritten_rewritten hsub

end

/-! ## The allocation -/

/-- An amount of four decimals, for a loan without penalties. -/
structure Loan.Plain (loan : Loan) (amount : ℚ) : Prop where
  nonneg : loan.Nonneg
  penalties : loan.accruedPenalties.val = 0
  amount_nonneg : 0 ≤ amount
  mem : amount ∈ grid 4
  lt : amount < 10 ^ 15

section

variable {loan row : Loan} {amount a b : ℚ}

theorem Loan.Plain.balances (h : loan.Plain amount) : loan.balances.Nonneg :=
  ⟨h.nonneg.interest, h.nonneg.outstanding, h.nonneg.penalties⟩

/-- What is left after the interest is exact, and nothing goes to the penalties. -/
theorem Loan.Plain.allocate_eq (h : loan.Plain amount) :
    (allocate amount loan.balances).principalApplied =
        min (amount - min amount loan.accruedInterest.val) loan.outstandingPrincipal.val ∧
      (allocate amount loan.balances).penaltiesApplied = 0 := by
  have hle := min_le_left amount loan.accruedInterest.val
  have h0 := le_min h.amount_nonneg h.nonneg.interest
  have hrest : decimal (amount - min amount loan.accruedInterest.val) =
      amount - min amount loan.accruedInterest.val := by
    apply decimal_money (sub_mem h.mem (min_mem_grid h.mem loan.accruedInterest.onGrid))
    rw [abs_of_nonneg (sub_nonneg.mpr hle)]
    linarith [h.lt]
  refine ⟨congrArg (min · loan.outstandingPrincipal.val) hrest, ?_⟩
  have hpen : loan.balances.accruedPenalties = 0 := h.penalties
  unfold allocate
  rw [hpen]
  exact min_eq_right (decimal_nonneg (sub_nonneg.mpr (min_le_left _ _)))

/-- Such a payment moves what was applied from the balances to the totals. -/
theorem Loan.Plain.repay_eq (h : loan.Plain amount) :
    loan.balances.repay (allocate amount loan.balances) = { loan.balances with
      accruedInterest := loan.accruedInterest.val - (allocate amount loan.balances).interestApplied
      outstandingPrincipal :=
        loan.outstandingPrincipal.val - (allocate amount loan.balances).principalApplied
      totalPaidInterest := loan.totalPaidInterest.val + (allocate amount loan.balances).interestApplied
      totalPaidPrincipal :=
        loan.totalPaidPrincipal.val + (allocate amount loan.balances).principalApplied } := by
  have hmem := allocate_mem_grid h.mem loan.balances_onGrid
  have hnone := h.allocate_eq.2
  have hwithin := allocate_within h.balances h.amount_nonneg
  obtain ⟨hprincipal, hpaid⟩ := repay_principal hmem.2.1 hwithin.principal.1 hwithin.principal.2
  obtain ⟨hinterest, hpaidInterest⟩ := decimal_move loan.accruedInterest loan.totalPaidInterest hmem.1
    hwithin.interest.1 hwithin.interest.2
  have hcolumns : loan.balances.repay (allocate amount loan.balances) = { loan.balances with
      accruedInterest := decimal (loan.accruedInterest.val - (allocate amount loan.balances).interestApplied)
      outstandingPrincipal := (loan.balances.repay (allocate amount loan.balances)).outstandingPrincipal
      accruedPenalties := decimal (loan.accruedPenalties.val - 0)
      totalPaidInterest :=
        decimal (loan.totalPaidInterest.val + (allocate amount loan.balances).interestApplied)
      totalPaidPrincipal := (loan.balances.repay (allocate amount loan.balances)).totalPaidPrincipal
      totalPaidPenalties := decimal (loan.totalPaidPenalties.val + 0) } := by
    rw [← hnone]
    rfl
  rw [hcolumns, hprincipal, hpaid, hinterest, hpaidInterest, sub_zero, add_zero, decimal_val, decimal_val]
  rfl

/-- The parts of two payments are those of their sum. -/
theorem allocate_add (hboth : loan.Plain (a + b)) (ha : loan.Plain a) (hb : row.Plain b)
    (hrow : row.balances = loan.balances.repay (allocate a loan.balances)) :
    (allocate (a + b) loan.balances).interestApplied = (allocate a loan.balances).interestApplied +
        (allocate b row.balances).interestApplied ∧
      (allocate (a + b) loan.balances).principalApplied = (allocate a loan.balances).principalApplied +
        (allocate b row.balances).principalApplied := by
  have hI : row.accruedInterest.val = loan.accruedInterest.val - min a loan.accruedInterest.val :=
    congrArg Balances.accruedInterest (hrow.trans ha.repay_eq)
  have hO : row.outstandingPrincipal.val = loan.outstandingPrincipal.val -
      min (a - min a loan.accruedInterest.val) loan.outstandingPrincipal.val := by
    rw [← ha.allocate_eq.1]
    exact congrArg Balances.outstandingPrincipal (hrow.trans ha.repay_eq)
  have hinterest : min (a + b) loan.accruedInterest.val = min a loan.accruedInterest.val +
      min b row.accruedInterest.val := by
    rw [hI]
    exact min_add_min hb.amount_nonneg
  have hrest : a + b - min (a + b) loan.accruedInterest.val = (a - min a loan.accruedInterest.val) +
      (b - min b row.accruedInterest.val) := by
    rw [hinterest]
    ring
  refine ⟨hinterest, ?_⟩
  rw [hboth.allocate_eq.1, ha.allocate_eq.1, hb.allocate_eq.1, hrest, hO]
  exact min_add_min (sub_nonneg.mpr (min_le_left _ _))

/-- The balances after two payments are those after their sum. -/
theorem repay_add (hboth : loan.Plain (a + b)) (ha : loan.Plain a) (hb : row.Plain b)
    (hrow : row.balances = loan.balances.repay (allocate a loan.balances)) :
    row.balances.repay (allocate b row.balances) = loan.balances.repay (allocate (a + b) loan.balances) := by
  obtain ⟨hinterest, hprincipal⟩ := allocate_add hboth ha hb hrow
  have hafter := hrow.trans ha.repay_eq
  rw [hb.repay_eq, hboth.repay_eq, hinterest, hprincipal]
  simp only [Loan.balances, Balances.mk.injEq] at hafter ⊢
  refine ⟨?_, ?_, ?_, ?_, ?_, ?_, ?_⟩ <;> linarith

end

/-- A payment of four decimals leaves balances of four decimals. -/
theorem repay_onGrid {amount : ℚ} {B : Balances} (hB : B.OnGrid) (hamount : amount ∈ grid 4) :
    (B.repay (allocate amount B)).OnGrid := by
  obtain ⟨hi, hp, hx⟩ := allocate_mem_grid hamount hB
  exact ⟨decimal_mem_grid (sub_mem hB.outstandingPrincipal hp),
    decimal_mem_grid (sub_mem hB.accruedInterest hi), decimal_mem_grid (sub_mem hB.accruedPenalties hx),
    decimal_mem_grid (add_mem hB.totalPaidPrincipal hp),
    decimal_mem_grid (add_mem hB.totalPaidInterest hi),
    decimal_mem_grid (add_mem hB.totalPaidPenalties hx), hB.totalWrittenOff⟩

theorem Balances.OnGrid.round_eq {B : Balances} (h : B.OnGrid) : B.round = B := by
  unfold Balances.round
  rw [roundAt_of_mem h.outstandingPrincipal, roundAt_of_mem h.accruedInterest,
    roundAt_of_mem h.accruedPenalties, roundAt_of_mem h.totalPaidPrincipal,
    roundAt_of_mem h.totalPaidInterest, roundAt_of_mem h.totalPaidPenalties,
    roundAt_of_mem h.totalWrittenOff]

/-! ## The service method -/

/-- This request with another amount and its own key. -/
def RepaymentIn.part (r : RepaymentIn) (amount : ℚ) (key : String) : RepaymentIn :=
  { r with amount, idempotencyKey := key }

/-- No repayment, journal entry or savings row has the key. -/
structure FreshKey (key : String) (t : Tables) : Prop where
  repayment : ∀ rp ∈ t.repayments, rp.idempotencyKey ≠ key
  entry : ∀ e ∈ t.entries, e.idempotencyKey ≠ creditKey .repayment key
  savings : ∀ tx ∈ t.savingsTransactions, tx.idempotencyKey ≠ "loan-rpy-savings-" ++ key

/-- The loan takes repayments, and the accounts of the request exist. -/
structure RepaymentIn.Served (r : RepaymentIn) (t : Tables) (loan : Loan) : Prop where
  status : loan.status = .disbursed ∨ loan.status = .inArrears
  payment : ∃ a ∈ t.accounts, a.id = r.paymentAccountId
  savings : ∀ id ∈ r.savingsAccountId, ∃ account, t.savingsAccount? id = some account

theorem storeLines_accounts {ls : List LineIn} {t t' : Tables} {rows : List JournalLine}
    (h : storeLines ls t = .ok rows t') : ∀ l ∈ ls, ∃ a ∈ t.accounts, a.id = l.accountId := by
  induction ls generalizing t t' rows with
  | nil =>
    intro l hl
    cases hl
  | cons l ls ih =>
    simp only [storeLines, bind_eq_ok, pure_eq_ok] at h
    obtain ⟨row, t₁, hrow, rows', t₂, hrows, -⟩ := h
    obtain ⟨rfl, -⟩ := storeLine_ok hrow
    intro l' hl'
    rcases List.mem_cons.mp hl' with rfl | hl'
    · simp only [storeLine, get_bind_eq_ok, constraint_bind_eq_ok] at hrow
      exact hrow.1
    · exact ih hrows l' hl'

theorem postJournalEntry_accounts {reference description key : String} {postedBy : Uuid}
    {lines : List LineIn} {t t' : Tables} {id : Uuid} (hkey : t.entry? key = none)
    (h : postJournalEntry reference description postedBy key lines t = .ok id t') :
    ∀ l ∈ lines, ∃ a ∈ t.accounts, a.id = l.accountId := by
  simp only [postJournalEntry, get_bind_eq_ok, hkey, require_bind_eq_ok, freshId_bind_eq_ok] at h
  obtain ⟨-, -, h⟩ := h
  obtain ⟨rows, t₁, hrows, -⟩ := bind_eq_ok.mp h
  have haccounts := storeLines_accounts hrows
  exact haccounts

/-- What the savings row needs, and what it writes. -/
theorem debitSavings_ok {r : RepaymentIn} {entryId : Uuid} {t t' : Tables} {u : Unit}
    (hfresh : ∀ tx ∈ t.savingsTransactions,
      tx.idempotencyKey ≠ "loan-rpy-savings-" ++ r.idempotencyKey)
    (h : debitSavings r entryId t = .ok u t') :
    (∀ id ∈ r.savingsAccountId, ∃ account, t.savingsAccount? id = some account) ∧
      ∃ n txs, t' = { t with nextId := n, savingsTransactions := t.savingsTransactions ++ txs } ∧
        ∀ tx ∈ txs, tx.idempotencyKey = "loan-rpy-savings-" ++ r.idempotencyKey := by
  unfold debitSavings at h
  cases hsavings : r.savingsAccountId with
  | none =>
    rw [hsavings] at h
    obtain ⟨-, rfl⟩ := pure_eq_ok.mp h
    refine ⟨fun id hid => ?_, t.nextId, [], by simp, fun tx htx => ?_⟩
    · cases hid
    · cases htx
  | some id =>
    rw [hsavings] at h
    obtain ⟨tx, t₁, hrecord, hpure⟩ := bind_eq_ok.mp h
    obtain ⟨-, rfl⟩ := pure_eq_ok.mp hpure
    have hnone : (t.savingsTransactions.find? fun tx =>
        tx.idempotencyKey = "loan-rpy-savings-" ++ r.idempotencyKey ∧
          tx.savingsAccountId = id) = none := by
      rw [List.find?_eq_none]
      intro tx htx
      simpa using fun hkey => absurd hkey (hfresh tx htx)
    simp only [recordExternalDebit, get_bind_eq_ok, hnone, orRaise_bind_eq_ok] at hrecord
    obtain ⟨account, haccount, hinsert⟩ := hrecord
    obtain ⟨-, stored, -, -, rfl⟩ := insertSavingsTransaction_ok hinsert
    refine ⟨fun id' hid' => ?_, _, _, rfl, fun tx htx => ?_⟩
    · cases hid'
      exact ⟨account, haccount⟩
    · rw [List.mem_singleton.mp htx]

/-- What a repayment that went through leaves for the next one. -/
structure RepaymentEffect (r : RepaymentIn) (loan row : Loan) (t t' : Tables) : Prop where
  saved : Saved loan (loan.balances.repay (allocate r.amount loan.balances))
    (loan.statusAfter (allocate r.amount loan.balances)) row
  loans : t'.loans = (t.putLoan row).loans
  installments : t'.installments = t.pouredInstallments loan.id
    ((allocate r.amount loan.balances).interestApplied, (allocate r.amount loan.balances).principalApplied)
  accounts : t'.accounts = t.accounts
  savingsAccounts : t'.savingsAccounts = t.savingsAccounts
  keys : ∀ key, key ≠ r.idempotencyKey → FreshKey key t → FreshKey key t'

theorem recordRepayment_effect {ar : LienArithmetic} {r : RepaymentIn} {loan : Loan} {entryId id : Uuid}
    {t t' : Tables} (hids : (t.installments.map (·.id)).Nodup)
    (hfresh : ∀ tx ∈ t.savingsTransactions,
      tx.idempotencyKey ≠ "loan-rpy-savings-" ++ r.idempotencyKey)
    (h : recordRepayment ar r loan (allocate r.amount loan.balances) entryId t = .ok id t') :
    (∀ id ∈ r.savingsAccountId, ∃ account, t.savingsAccount? id = some account) ∧
      ∃ row, RepaymentEffect r loan row t t' := by
  unfold recordRepayment at h
  obtain ⟨row, t₁, h₁, h⟩ := bind_eq_ok.mp h
  obtain ⟨ht₁, hsaved⟩ := saveLoan_ok h₁
  obtain ⟨_, t₂, h₂, h⟩ := bind_eq_ok.mp h
  rw [modifyGuarantees, modify_eq_ok] at h₂
  obtain ⟨_, t₃, h₃, h⟩ := bind_eq_ok.mp h
  obtain ⟨-, rp, hrp, ht₃⟩ := insertRepayment_ok h₃
  have hinsts₃ : t₃.installments = t.installments := by
    rw [ht₃, h₂, ht₁]
    rfl
  obtain ⟨_, t₄, h₄, h⟩ := bind_eq_ok.mp h
  rw [updateInstallments_eq (hinsts₃ ▸ hids), pouredInstallments_congr hinsts₃] at h₄
  have hbefore : t₄.installments = t.pouredInstallments loan.id
        ((allocate r.amount loan.balances).interestApplied,
          (allocate r.amount loan.balances).principalApplied) ∧
      t₄.savingsTransactions = t.savingsTransactions ∧ t₄.savingsAccounts = t.savingsAccounts ∧
      t₄.accounts = t.accounts ∧ t₄.entries = t.entries ∧ t₄.loans = (t.putLoan row).loans ∧
      t₄.repayments = t.repayments ++ [rp] := by
    cases h₄
    rw [ht₃, h₂, ht₁]
    exact ⟨rfl, rfl, rfl, rfl, rfl, rfl, rfl⟩
  obtain ⟨hinsts, htxs, hsavings, haccounts, hentries, hloans, hreps⟩ := hbefore
  obtain ⟨_, t₅, h₅, h⟩ := bind_eq_ok.mp h
  obtain ⟨hserved, n, txs, ht₅, hnew⟩ := debitSavings_ok (htxs ▸ hfresh) h₅
  have hrest : ∃ m events, t' = { t₅ with nextId := m, outbox := events } := by
    rw [publish_bind_eq_ok] at h
    obtain ⟨_, t₆, hwhen, hpure⟩ := bind_eq_ok.mp h
    obtain ⟨-, rfl⟩ := pure_eq_ok.mp hpure
    unfold Session.when at hwhen
    split at hwhen
    · have hlast := publish_eq_ok.mp hwhen
      exact ⟨_, _, hlast⟩
    · have hlast := (pure_eq_ok.mp hwhen).2
      exact ⟨_, _, hlast.symm⟩
  obtain ⟨m, events, ht'⟩ := hrest
  rw [ht₅] at ht'
  refine ⟨?_, row, hsaved, ?_, ?_, ?_, ?_, ?_⟩
  · intro account haccount
    obtain ⟨found, hfound⟩ := hserved account haccount
    refine ⟨found, ?_⟩
    unfold Tables.savingsAccount? at hfound ⊢
    exact hsavings ▸ hfound
  · rw [ht']
    exact hloans
  · rw [ht']
    exact hinsts
  · rw [ht']
    exact haccounts
  · rw [ht']
    exact hsavings
  · intro key hkey hold
    rw [ht']
    refine ⟨?_, ?_, ?_⟩
    · show ∀ rp' ∈ t₄.repayments, rp'.idempotencyKey ≠ key
      rw [hreps]
      intro rp' hrp'
      rcases List.mem_append.mp hrp' with hrp' | hrp'
      · exact hold.repayment rp' hrp'
      · rw [List.mem_singleton.mp hrp', hrp.idempotencyKey]
        exact hkey.symm
    · show ∀ e ∈ t₄.entries, e.idempotencyKey ≠ creditKey .repayment key
      rw [hentries]
      exact hold.entry
    · show ∀ tx ∈ t₄.savingsTransactions ++ txs, tx.idempotencyKey ≠ "loan-rpy-savings-" ++ key
      rw [htxs]
      intro tx htx
      rcases List.mem_append.mp htx with htx | htx
      · exact hold.savings tx htx
      · rw [hnew tx htx]
        intro heq
        exact hkey (String.append_right_inj _ |>.mp heq).symm

theorem payable_allocate {amount : ℚ} {loan : Loan} (hnonneg : loan.Nonneg) (hamount : 0 ≤ amount)
    (hmem : amount ∈ grid 4) : Payable ((allocate amount loan.balances).interestApplied,
      (allocate amount loan.balances).principalApplied) := by
  have hgrid := allocate_mem_grid hmem loan.balances_onGrid
  have hinterest : |loan.accruedInterest.val| < 10 ^ 15 := loan.accruedInterest.fits
  have hprincipal : |loan.outstandingPrincipal.val| < 10 ^ 15 := loan.outstandingPrincipal.fits
  exact ⟨allocate_interest_nonneg hamount hnonneg.interest, allocate_principal_nonneg hnonneg.outstanding,
    hgrid.1, hgrid.2.1, lt_of_le_of_lt (min_le_right _ _) (abs_lt.mp hinterest).2,
    lt_of_le_of_lt (min_le_right _ _) (abs_lt.mp hprincipal).2⟩

/-- A repayment under a fresh key that goes through is served and leaves its effect. -/
theorem applyRepayment_effect {ar : LienArithmetic} {r : RepaymentIn} {loan : Loan} {id : Uuid}
    {t t' : Tables} (hids : (t.installments.map (·.id)).Nodup)
    (hfound : t.loan? r.loanId = some loan) (hfresh : FreshKey r.idempotencyKey t)
    (h : applyRepayment ar r t = .ok id t') :
    r.Served t loan ∧ ∃ row, RepaymentEffect r loan row t t' := by
  have hnew : t.repayment? r.idempotencyKey = none := by
    simpa [Tables.repayment?] using hfresh.repayment
  simp only [applyRepayment, get_bind_eq_ok, hnew, hfound, orRaise_bind_eq_ok, require_bind_eq_ok] at h
  obtain ⟨_, hloan, hterminal, hdisbursing, h⟩ := h
  cases hloan
  obtain ⟨entryId, t₁, hpost, hrecord⟩ := bind_eq_ok.mp h
  have haccounts := postJournalEntry_accounts (entry?_eq_none.mpr hfresh.entry) hpost
  obtain ⟨e, hkey, -, ht₁⟩ := (postJournalEntry_new hfresh.entry hpost).entry
  have hentry : ∀ key, key ≠ r.idempotencyKey → FreshKey key t → FreshKey key t₁ := by
    intro key hne hold
    rw [ht₁]
    refine ⟨hold.repayment, ?_, hold.savings⟩
    intro e' he'
    rcases List.mem_append.mp he' with he' | he'
    · exact hold.entry e' he'
    · rw [List.mem_singleton.mp he', hkey]
      intro heq
      exact hne (creditKey_inj heq).2.symm
  have hactive : loan.status = .disbursed ∨ loan.status = .inArrears := by
    cases hs : loan.status <;> simp_all
  have hbefore : t₁.installments = t.installments ∧ t₁.savingsTransactions = t.savingsTransactions ∧
      t₁.savingsAccounts = t.savingsAccounts ∧ t₁.accounts = t.accounts ∧ t₁.loans = t.loans := by
    rw [ht₁]
    exact ⟨rfl, rfl, rfl, rfl, rfl⟩
  obtain ⟨hinsts, htxs, hsavings, haccs, hloans⟩ := hbefore
  obtain ⟨hserved, row, heffect⟩ := recordRepayment_effect (hinsts ▸ hids)
    (htxs ▸ hfresh.savings) hrecord
  refine ⟨⟨hactive, ?_, ?_⟩, row, heffect.saved, ?_, ?_, ?_, ?_, ?_⟩
  · have hdebit : ∃ q, LineIn.loanDebit r.paymentAccountId q loan.id ∈
        repaymentLines loan r.paymentAccountId (allocate r.amount loan.balances) := by
      unfold repaymentLines
      split
      · exact ⟨_, List.mem_append_left _ (List.mem_append_left _ List.mem_cons_self)⟩
      · exact ⟨_, List.mem_cons_self⟩
    obtain ⟨q, hline⟩ := hdebit
    exact haccounts _ hline
  · intro account haccount
    obtain ⟨found, hsome⟩ := hserved account haccount
    refine ⟨found, ?_⟩
    unfold Tables.savingsAccount? at hsome ⊢
    exact hsavings ▸ hsome
  · rw [heffect.loans]
    show t₁.loans.map _ = t.loans.map _
    rw [hloans]
  · rw [heffect.installments, pouredInstallments_congr hinsts]
  · rw [heffect.accounts, haccs]
  · rw [heffect.savingsAccounts, hsavings]
  · intro key hne hold
    exact heffect.keys key hne (hentry key hne hold)

/-! ## Two repayments and one -/

/-- The columns have room for the amount, and for the totals with it. -/
structure Loan.HasRoom (loan : Loan) (amount : ℚ) : Prop where
  repayment : amount < 10 ^ 15
  interest : loan.totalPaidInterest.val + min amount loan.accruedInterest.val < 10 ^ 15
  principal : loan.totalPaidPrincipal.val +
    min (amount - min amount loan.accruedInterest.val) loan.outstandingPrincipal.val < 10 ^ 15

/-- A column that only grows has room below. -/
theorem fits_add (total : Money) {part : ℚ} (hpart : 0 ≤ part) (hmem : part ∈ grid 4)
    (hlt : total.val + part < 10 ^ 15) : |roundAt 4 (decimal (total.val + part))| < 10 ^ 15 := by
  have hfits : |total.val| < 10 ^ 15 := total.fits
  rw [abs_lt] at hfits
  have hsum : |total.val + part| < 10 ^ 15 := by
    rw [abs_lt]
    exact ⟨by linarith, hlt⟩
  rw [decimal_money (add_mem total.onGrid hmem) (by linarith), roundAt_of_mem (add_mem total.onGrid hmem)]
  exact hsum

/-- A repayment of four decimals on a loan that owes interest or principal, and no penalties. -/
theorem returns_applyRepayment (ar : LienArithmetic) {r : RepaymentIn} {loan : Loan} {t : Tables}
    (hfound : t.loan? r.loanId = some loan) (hnonneg : loan.Nonneg)
    (hpen : loan.accruedPenalties.val = 0)
    (howes : 0 < loan.accruedInterest.val + loan.outstandingPrincipal.val)
    (hreceivables : ∀ id ∈ [loan.glPrincipalReceivableId, loan.glInterestReceivableId],
      ∃ a ∈ t.accounts, a.id = id)
    (hamount : 0 < r.amount) (hmem : r.amount ∈ grid 4) (hroom : loan.HasRoom r.amount)
    (hfresh : FreshKey r.idempotencyKey t) (hserved : r.Served t loan) :
    Returns (applyRepayment ar r) t := by
  have hdigits : inContext 28 r.amount = r.amount := by
    apply inContext_of_mem hmem
    rw [abs_of_pos hamount]
    have hlt := hroom.repayment
    norm_num at hlt ⊢
    linarith
  have hready : r.Ready t loan := by
    refine ⟨hfound, hserved.status, hnonneg, hamount, hdigits, hfresh.repayment, hfresh.entry, ?_,
      hfresh.savings, hserved.savings⟩
    intro id hid
    rcases List.mem_cons.mp hid with rfl | hid
    · exact hserved.payment
    · exact hreceivables id hid
  have hpayable := payable_allocate hnonneg hamount.le hmem
  have hplain : loan.Plain r.amount := ⟨hnonneg, hpen, hamount.le, hmem, hroom.repayment⟩
  have hinterest : 0 ≤ min r.amount loan.accruedInterest.val := hpayable.interest_nonneg
  have hinterestMem : min r.amount loan.accruedInterest.val ∈ grid 4 := hpayable.interest_mem
  have hprincipal : 0 ≤ min (r.amount - min r.amount loan.accruedInterest.val)
    loan.outstandingPrincipal.val := hplain.allocate_eq.1 ▸ hpayable.principal_nonneg
  have hprincipalMem : min (r.amount - min r.amount loan.accruedInterest.val)
    loan.outstandingPrincipal.val ∈ grid 4 := hplain.allocate_eq.1 ▸ hpayable.principal_mem
  have hafter : r.amount - loan.accruedInterest.val ∈ grid 4 := sub_mem hmem loan.accruedInterest.onGrid
  have haccepts : loan.Accepts r.amount := by
    refine ⟨howes, .inl hpen, ?_, ?_, ?_, ?_⟩
    · intro _
      split
      · rw [roundAt_of_mem hmem]
        exact ⟨not_tipsOver_of_mem (sub_mem loan.accruedInterest.onGrid hmem), hamount⟩
      · next hnot =>
        rw [roundAt_of_mem hafter]
        exact ⟨not_tipsOver_of_mem (sub_mem loan.outstandingPrincipal.onGrid hafter), by linarith⟩
    · rw [roundAt_of_mem hmem]
      exact hroom.repayment
    · exact fits_add loan.totalPaidInterest hinterest hinterestMem hroom.interest
    · exact fits_add loan.totalPaidPrincipal hprincipal hprincipalMem hroom.principal
  exact haccepts.returns hready

/-- The two tenants agree on the loan's balances and status and on all instalments. -/
structure SameLoan (loanId : Uuid) (t t' : Tables) : Prop where
  loan : (t.loan? loanId).map (fun l => (l.balances, l.status)) =
    (t'.loan? loanId).map fun l => (l.balances, l.status)
  installments : t.installments = t'.installments

/-- The request is about a loan without penalties, in a tenant that keeps the primary and foreign keys
of the schema. -/
structure RepaymentIn.Addressed (r : RepaymentIn) (t : Tables) (loan : Loan) : Prop where
  found : t.loan? r.loanId = some loan
  nonneg : loan.Nonneg
  penalties : loan.accruedPenalties.val = 0
  receivables : ∀ id ∈ [loan.glPrincipalReceivableId, loan.glInterestReceivableId],
    ∃ a ∈ t.accounts, a.id = id
  ids : (t.installments.map (·.id)).Nodup

section

variable {ar : LienArithmetic} {r : RepaymentIn} {loan row : Loan} {t t' : Tables}

/-- Amount and key play no part in who is addressed and served. -/
theorem addressed_part {amount : ℚ} {key : String} :
    (r.part amount key).Addressed t loan ↔ r.Addressed t loan :=
  ⟨fun h => ⟨h.found, h.nonneg, h.penalties, h.receivables, h.ids⟩,
    fun h => ⟨h.found, h.nonneg, h.penalties, h.receivables, h.ids⟩⟩

theorem served_part {amount : ℚ} {key : String} : (r.part amount key).Served t loan ↔ r.Served t loan :=
  ⟨fun h => ⟨h.status, h.payment, h.savings⟩, fun h => ⟨h.status, h.payment, h.savings⟩⟩

/-- A request that the tenant does not serve is refused, and the transaction leaves nothing. -/
theorem commit_refused (h : r.Addressed t loan) (hfresh : FreshKey r.idempotencyKey t)
    (hnot : ¬ r.Served t loan) :
    ¬ Returns (applyRepayment ar r) t ∧ commit (applyRepayment ar r) t = t := by
  have hrefused : ¬ Returns (applyRepayment ar r) t := by
    intro hreturns
    obtain ⟨id, t', hok⟩ := hreturns
    exact hnot (applyRepayment_effect h.ids h.found hfresh hok).1
  refine ⟨hrefused, ?_⟩
  rcases commit_cases (applyRepayment ar r) t with ⟨id, t', hok, -⟩ | hsame
  · exact absurd ⟨id, t', hok⟩ hrefused
  · exact hsame

theorem RepaymentEffect.found (h : RepaymentEffect r loan row t t') (hfound : t.loan? r.loanId = some loan) :
    t'.loan? r.loanId = some row := by
  obtain ⟨-, hid⟩ := loan?_eq_some hfound
  have hlook : t'.loan? r.loanId = (t.putLoan row).loan? r.loanId := by
    unfold Tables.loan?
    rw [h.loans]
  rw [hlook, loan?_putLoan, hfound, Option.map_some, if_pos h.saved.terms.id.symm]

/-- A payment of four decimals is stored as it is. -/
theorem RepaymentEffect.balances (h : RepaymentEffect r loan row t t') (hmem : r.amount ∈ grid 4) :
    row.balances = loan.balances.repay (allocate r.amount loan.balances) := by
  rw [h.saved.balances]
  exact (repay_onGrid loan.balances_onGrid hmem).round_eq

theorem RepaymentEffect.addressed (h : RepaymentEffect r loan row t t') (haddr : r.Addressed t loan)
    (hpen : row.accruedPenalties.val = 0) : r.Addressed t' row := by
  refine ⟨h.found haddr.found, h.saved.nonneg, hpen, ?_, ?_⟩
  · rw [h.saved.terms.glPrincipalReceivableId, h.saved.terms.glInterestReceivableId, h.accounts]
    exact haddr.receivables
  · rw [h.installments, pouredInstallments_ids]
    exact haddr.ids

theorem RepaymentEffect.served (h : RepaymentEffect r loan row t t') (hserved : r.Served t loan)
    (hstatus : row.status = loan.status) : r.Served t' row := by
  refine ⟨hstatus ▸ hserved.status, ?_, ?_⟩
  · rw [h.accounts]
    exact hserved.payment
  · unfold Tables.savingsAccount?
    rw [h.savingsAccounts]
    exact hserved.savings

end

section

variable {ar : LienArithmetic} {r : RepaymentIn} {loan : Loan} {t : Tables} {a b : ℚ} {ka kb : String}

/-- Where the whole has room, the parts have. -/
theorem Loan.HasRoom.parts (h : loan.HasRoom (a + b)) (hb : 0 < b) : loan.HasRoom a := by
  have hwhole := h.repayment
  have hrest : a + b - min (a + b) loan.accruedInterest.val = (a - min a loan.accruedInterest.val) +
      (b - min b (loan.accruedInterest.val - min a loan.accruedInterest.val)) := by
    rw [min_add_min hb.le]
    ring
  have hmore : a - min a loan.accruedInterest.val ≤ a + b - min (a + b) loan.accruedInterest.val := by
    rw [hrest]
    exact le_add_of_nonneg_right (sub_nonneg.mpr (min_le_left _ _))
  refine ⟨by linarith, ?_, ?_⟩
  · have hpart : min a loan.accruedInterest.val ≤ min (a + b) loan.accruedInterest.val :=
      min_le_min_right _ (by linarith)
    linarith [h.interest]
  · have hpart : min (a - min a loan.accruedInterest.val) loan.outstandingPrincipal.val ≤
        min (a + b - min (a + b) loan.accruedInterest.val) loan.outstandingPrincipal.val :=
      min_le_min_right _ hmore
    linarith [h.principal]

theorem Loan.HasRoom.rest {row : Loan} (h : loan.HasRoom (a + b)) (hboth : loan.Plain (a + b))
    (ha : loan.Plain a) (hb : row.Plain b)
    (hrow : row.balances = loan.balances.repay (allocate a loan.balances)) : row.HasRoom b := by
  obtain ⟨hinterest, hprincipal⟩ := allocate_add hboth ha hb hrow
  have htotalInterest : row.totalPaidInterest.val =
    loan.totalPaidInterest.val + (allocate a loan.balances).interestApplied :=
      congrArg Balances.totalPaidInterest (hrow.trans ha.repay_eq)
  have htotalPrincipal : row.totalPaidPrincipal.val =
    loan.totalPaidPrincipal.val + (allocate a loan.balances).principalApplied :=
      congrArg Balances.totalPaidPrincipal (hrow.trans ha.repay_eq)
  have hroomPrincipal := h.principal
  rw [← hboth.allocate_eq.1] at hroomPrincipal
  refine ⟨hb.lt, ?_, ?_⟩
  · show row.totalPaidInterest.val + (allocate b row.balances).interestApplied < 10 ^ 15
    rw [htotalInterest, add_assoc, ← hinterest]
    exact h.interest
  · rw [← hb.allocate_eq.1, htotalPrincipal, add_assoc, ← hprincipal]
    exact hroomPrincipal

/-- A payment below what is owed leaves something of it. -/
theorem owed_after (ha : loan.Plain a) (hlt : a < loan.accruedInterest.val + loan.outstandingPrincipal.val)
    {row : Loan} (hrow : row.balances = loan.balances.repay (allocate a loan.balances)) :
    0 < row.accruedInterest.val + row.outstandingPrincipal.val := by
  have hinterest : row.accruedInterest.val =
      loan.accruedInterest.val - min a loan.accruedInterest.val :=
    congrArg Balances.accruedInterest (hrow.trans ha.repay_eq)
  have hprincipal : row.outstandingPrincipal.val = loan.outstandingPrincipal.val -
      min (a - min a loan.accruedInterest.val) loan.outstandingPrincipal.val := by
    rw [← ha.allocate_eq.1]
    exact congrArg Balances.outstandingPrincipal (hrow.trans ha.repay_eq)
  have hle : min (a - min a loan.accruedInterest.val) loan.outstandingPrincipal.val ≤
    a - min a loan.accruedInterest.val := min_le_left _ _
  linarith

/-- A payment below what is owed does not close the loan. -/
theorem statusAfter_short (hrest : 0 < (loan.balances.repay (allocate a loan.balances)).accruedInterest +
    (loan.balances.repay (allocate a loan.balances)).outstandingPrincipal) :
    loan.statusAfter (allocate a loan.balances) = loan.status := by
  unfold Loan.statusAfter
  rw [if_neg]
  intro hsettled
  linarith [hsettled.1, hsettled.2.1]

/-- Two repayments leave the loan and its instalments as one repayment of the sum does. Where the loan
takes repayments at all, both ways go through, and otherwise all three are refused. -/
theorem split_repayment (ar : LienArithmetic) (h : r.Addressed t loan) (hamount : r.amount = a + b)
    (ha : 0 < a) (hb : 0 < b) (hamem : a ∈ grid 4) (hbmem : b ∈ grid 4)
    (hlt : a < loan.accruedInterest.val + loan.outstandingPrincipal.val) (hroom : loan.HasRoom (a + b))
    (hfresh : FreshKey r.idempotencyKey t) (hka : FreshKey ka t) (hkb : FreshKey kb t) (hne : kb ≠ ka) :
    SameLoan r.loanId
        (commit (applyRepayment ar (r.part b kb)) (commit (applyRepayment ar (r.part a ka)) t))
        (commit (applyRepayment ar r) t) ∧
      (r.Served t loan → Returns (applyRepayment ar r) t ∧ Returns (applyRepayment ar (r.part a ka)) t ∧
        Returns (applyRepayment ar (r.part b kb)) (commit (applyRepayment ar (r.part a ka)) t)) ∧
      (¬ r.Served t loan → ¬ Returns (applyRepayment ar r) t ∧
        ¬ Returns (applyRepayment ar (r.part a ka)) t ∧
        ¬ Returns (applyRepayment ar (r.part b kb)) (commit (applyRepayment ar (r.part a ka)) t)) := by
  have haddra : (r.part a ka).Addressed t loan := addressed_part.mpr h
  have hamountMem : r.amount ∈ grid 4 := hamount ▸ add_mem hamem hbmem
  have hamountPos : 0 < r.amount := by linarith
  have hwhole := hroom.repayment
  have hboth : loan.Plain (a + b) :=
    ⟨h.nonneg, h.penalties, by linarith, add_mem hamem hbmem, hroom.repayment⟩
  have hplain : loan.Plain a := ⟨h.nonneg, h.penalties, ha.le, hamem, by linarith⟩
  by_cases hserved : r.Served t loan
  · have hserveda : (r.part a ka).Served t loan := served_part.mpr hserved
    obtain ⟨ida, t₁, hoka⟩ := returns_applyRepayment ar haddra.found h.nonneg h.penalties
      (by linarith) h.receivables ha hamem (hroom.parts hb) hka hserveda
    obtain ⟨-, row, heffect⟩ :=
      applyRepayment_effect h.ids haddra.found hka hoka
    have hbalances : row.balances = loan.balances.repay (allocate a loan.balances) :=
      heffect.balances hamem
    have howed := owed_after hplain hlt hbalances
    have hstatus : row.status = loan.status := by
      refine heffect.saved.status.trans (statusAfter_short (a := a) ?_)
      rw [← hbalances]
      exact howed
    have hpen : row.accruedPenalties.val = 0 := by
      have hcol : row.accruedPenalties.val = loan.accruedPenalties.val :=
        congrArg Balances.accruedPenalties (hbalances.trans hplain.repay_eq)
      exact hcol.trans h.penalties
    have hplain₁ : row.Plain b := ⟨heffect.saved.nonneg, hpen, hb.le, hbmem, by linarith⟩
    have haddr₁ : (r.part b kb).Addressed t₁ row :=
      addressed_part.mpr (addressed_part.mp (heffect.addressed haddra hpen))
    have hserved₁ : (r.part b kb).Served t₁ row :=
      served_part.mpr (served_part.mp (heffect.served hserveda hstatus))
    have hkb₁ := heffect.keys kb hne hkb
    obtain ⟨idb, t₂, hokb⟩ := returns_applyRepayment ar haddr₁.found haddr₁.nonneg
      hpen howed haddr₁.receivables hb hbmem (hroom.rest hboth hplain hplain₁ hbalances) hkb₁ hserved₁
    obtain ⟨-, row₂, heffect₂⟩ :=
      applyRepayment_effect haddr₁.ids haddr₁.found hkb₁ hokb
    obtain ⟨id, t', hok⟩ := returns_applyRepayment ar h.found h.nonneg h.penalties
      (by linarith) h.receivables hamountPos hamountMem (hamount ▸ hroom) hfresh hserved
    obtain ⟨-, row', heffect'⟩ :=
      applyRepayment_effect h.ids h.found hfresh hok
    rw [commit_of_ok hoka, commit_of_ok hokb, commit_of_ok hok]
    refine ⟨⟨?_, ?_⟩, fun _ => ⟨⟨id, t', hok⟩, ⟨ida, t₁, hoka⟩, ⟨idb, t₂, hokb⟩⟩,
      fun hnot => absurd hserved hnot⟩
    · have hlook : t₂.loan? r.loanId = some row₂ := heffect₂.found haddr₁.found
      have hlook' : t'.loan? r.loanId = some row' := heffect'.found h.found
      have hsum : row.balances.repay (allocate b row.balances) =
          loan.balances.repay (allocate r.amount loan.balances) := by
        rw [hamount]
        exact repay_add hboth hplain hplain₁ hbalances
      have hsame : row₂.balances = row'.balances := by
        rw [heffect'.balances hamountMem, heffect₂.balances hbmem]
        exact hsum
      have hclosed : row₂.status = row'.status := by
        have hstatus₂ : row₂.status = row.statusAfter (allocate b row.balances) := heffect₂.saved.status
        rw [hstatus₂, heffect'.saved.status, Loan.statusAfter, Loan.statusAfter, hsum, hstatus]
      rw [hlook, hlook', Option.map_some, Option.map_some, hsame, hclosed]
    · have hinsts₁ : t₁.installments = t.pouredInstallments loan.id
          ((allocate a loan.balances).interestApplied, (allocate a loan.balances).principalApplied) :=
        heffect.installments
      have hinsts₂ : t₂.installments = t₁.pouredInstallments row.id
          ((allocate b row.balances).interestApplied, (allocate b row.balances).principalApplied) :=
        heffect₂.installments
      obtain ⟨hinterest, hprincipal⟩ := allocate_add hboth hplain hplain₁ hbalances
      rw [hinsts₂, heffect'.installments, heffect.saved.terms.id, hamount, hinterest, hprincipal]
      exact pouredInstallments_add h.ids (payable_allocate h.nonneg ha.le hamem)
        (payable_allocate haddr₁.nonneg hb.le hbmem) hinsts₁
  · have hnota : ¬ (r.part a ka).Served t loan := fun hs => hserved (served_part.mp hs)
    have hnotb : ¬ (r.part b kb).Served t loan := fun hs => hserved (served_part.mp hs)
    obtain ⟨hrefuseda, hsamea⟩ := @commit_refused ar _ _ _ haddra hka hnota
    obtain ⟨hrefusedb, hsameb⟩ := @commit_refused ar _ _ _ (addressed_part.mpr h) hkb hnotb
    obtain ⟨hrefused, hsame⟩ := @commit_refused ar _ _ _ h hfresh hserved
    rw [hsamea, hsameb, hsame]
    exact ⟨⟨rfl, rfl⟩, fun hs => absurd hs hserved, fun _ => ⟨hrefused, hrefuseda, hrefusedb⟩⟩

end

/-- A monthly instalment of the sample loan: 200 of principal and 10 of interest. -/
def sampleInstallment (id : Uuid) (period : ℤ) : LoanInstallment :=
  { id, loanId := 11, periodNumber := period, dueDate := firstDueDay, principalDue := money 200
    interestDue := money 10, totalDue := money 210, principalPaid := 0, interestPaid := 0
    status := .pending, restructuringId := none, isSuperseded := false }

/-- The sample loan with 20 of interest and 400 of principal in two instalments. -/
def scheduledTenant : Tables :=
  { runningTenant (runningLoan 400 20 0) with
    installments := [sampleInstallment 12 1, sampleInstallment 13 2] }

theorem freshKey_scheduledTenant (key : String) : FreshKey key scheduledTenant := by
  refine ⟨?_, ?_, ?_⟩
  · intro rp hrp
    cases hrp
  · intro e he
    cases he
  · intro tx htx
    cases htx

/-- 15 and 30 are 45: the first ends in the interest of the second instalment, the other goes on there
and with the principal of the first. -/
theorem split_repayment_fortyFive :
    SameLoan 11
        (commit (applyRepayment .python (sampleRepayment 30 "b"))
          (commit (applyRepayment .python (sampleRepayment 15 "a")) scheduledTenant))
        (commit (applyRepayment .python (sampleRepayment 45 "c")) scheduledTenant) ∧
      Returns (applyRepayment .python (sampleRepayment 45 "c")) scheduledTenant := by
  have haddressed : (sampleRepayment 45 "c").Addressed scheduledTenant (runningLoan 400 20 0) := by
    refine ⟨rfl, ?_, by decide +kernel, ?_, by decide⟩
    · constructor <;> decide +kernel
    · show ∀ id ∈ [1, 2], ∃ a ∈ scheduledTenant.accounts, a.id = id
      decide
  have hserved : (sampleRepayment 45 "c").Served scheduledTenant (runningLoan 400 20 0) := by
    refine ⟨.inr rfl, ?_, ?_⟩
    · show ∃ a ∈ scheduledTenant.accounts, a.id = 5
      decide
    · intro id hid
      cases hid
  have hwhole : ∀ n : ℕ, (n : ℚ) ∈ grid 4 := fun n =>
    mem_grid.mpr ⟨n * 10 ^ 4, by push_cast; field_simp; norm_num⟩
  have hroom : (runningLoan 400 20 0).HasRoom (15 + 30) := by
    constructor <;> decide +kernel
  have hboth := split_repayment .python haddressed (by norm_num [sampleRepayment]) (by norm_num)
    (by norm_num) (hwhole 15) (hwhole 30) (by decide +kernel) hroom (freshKey_scheduledTenant "c")
    (freshKey_scheduledTenant "a") (freshKey_scheduledTenant "b") (by decide)
  exact ⟨hboth.1, (hboth.2.1 hserved).1⟩

/-- Twice half a unit of the columns is paid as two units and leaves the interest as it was, and one
payment of a unit takes it off. A sum beyond the column is refused where its parts are not. -/
theorem split_repayment_not_same :
    ¬ SameLoan 11
        (commit (applyRepayment .python (sampleRepayment (1 / 20000) "b"))
          (commit (applyRepayment .python (sampleRepayment (1 / 20000) "a")) scheduledTenant))
        (commit (applyRepayment .python (sampleRepayment (1 / 20000 + 1 / 20000) "c")) scheduledTenant) ∧
      ¬ SameLoan 11
        (commit (applyRepayment .python (sampleRepayment (10 ^ 15 - 1) "b"))
          (commit (applyRepayment .python (sampleRepayment 1 "a")) scheduledTenant))
        (commit (applyRepayment .python (sampleRepayment (1 + (10 ^ 15 - 1)) "c")) scheduledTenant) := by
  constructor
  · intro h
    exact absurd h.loan (by decide +kernel)
  · intro h
    exact absurd h.loan (by decide +kernel)

end SaccoPlatform
