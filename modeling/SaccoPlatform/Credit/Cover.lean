import SaccoPlatform.Credit.Liens
import SaccoPlatform.Credit.Principal

/-!
# Cover by liens

The active liens of a secured loan are meant to cover its outstanding principal while it runs,
and to be gone when it is closed or written off. The exception is a partial write-off:
`_execute_write_off` releases all liens whatever is left outstanding, while the loan keeps its
status.

Amounts are exact here: liens are computed by `LienArithmetic.exact`, and the amounts paid,
written off or recovered have four decimals.
-/

namespace SaccoPlatform

open Lib Session

/-! ## One movement -/

/-- A loan as it is between operations. -/
structure Loan.Sound (l : Loan) : Prop where
  nonneg : l.Nonneg
  principal_pos : 0 < l.principalAmount.val
  settled : l.status = .closed ∨ l.status = .writtenOff → l.outstandingPrincipal.val = 0
  disbursed : l.status ≠ .disbursing

theorem Loan.Sound.active_or {l : Loan} (h : l.Sound) :
    l.Active ∨ l.status = .closed ∨ l.status = .writtenOff := by
  have hd := h.disbursed
  unfold Loan.Active
  cases hs : l.status <;> simp_all

/-- A loan that owes principal is running. -/
theorem Loan.Sound.active_of_pos {l : Loan} (h : l.Sound) (hpos : 0 < l.outstandingPrincipal.val) :
    l.Active := by
  rcases h.active_or with ha | hover
  · exact ha
  · exact absurd (h.settled hover) hpos.ne'

theorem Opened.sound {l : Loan} (h : Opened l) : l.Sound := by
  refine ⟨h.nonneg, h.principal_pos, ?_, ?_⟩
  · rw [h.status]
    rintro (hs | hs) <;> cases hs
  · rw [h.status]
    decide

/-- A partial write-off is made on the loans `U` only. -/
def Movement.WritesOffAll (U : Set Uuid) (l : Loan) : Movement → Prop
  | writeOff _ amount => 0 < amount → amount < l.outstandingPrincipal.val → l.id ∈ U
  | _ => True

section

variable {l row : Loan} {gs : Guarantees} {key : String} {t t' : Tables}

/-- What a movement leaves of the row, with amounts of four decimals. -/
theorem Saved.outstanding_eq {m : Movement} (hgrid : m.PrincipalOnGrid)
    (h : Saved l (m.balances l) (m.status l) row) :
    row.outstandingPrincipal.val = (m.balances l).outstandingPrincipal := by
  have hrow := congrArg Balances.outstandingPrincipal h.balances
  exact hrow.trans (roundAt_of_mem (Movement.balances_principalOnGrid hgrid).1)

theorem repay_secures {amount : ℚ} (hok : gs.Ok) (hsec : gs.Secures l) (hl : l.Sound)
    (ha : l.Active) (hterms : SameTerms l row)
    (hstatus : row.status = l.statusAfter (allocate amount l.balances))
    (hout : row.outstandingPrincipal.val
      = l.outstandingPrincipal.val - (allocate amount l.balances).principalApplied) :
    gs.Touched (gs.repay .exact l (allocate amount l.balances)) l.id ∧
      (gs.repay .exact l (allocate amount l.balances)).Secures row := by
  have hnonneg : 0 ≤ (allocate amount l.balances).principalApplied :=
    allocate_principal_nonneg hl.nonneg.outstanding
  have hle : (allocate amount l.balances).principalApplied ≤ l.outstandingPrincipal.val :=
    min_le_right _ _
  -- First the liens follow the principal, then closure releases them.
  let mid : Loan := { l with outstandingPrincipal := row.outstandingPrincipal }
  let gs₁ : Guarantees := if 0 < (allocate amount l.balances).principalApplied then
      gs.adjustLiens .exact l.id (allocate amount l.balances).principalApplied
        l.principalAmount.val
    else gs
  have hmid : gs.Touched gs₁ l.id ∧ gs₁.Secures mid := by
    by_cases hpos : 0 < (allocate amount l.balances).principalApplied
    · have heq : gs₁ = gs.adjustLiens .exact l.id (allocate amount l.balances).principalApplied
          l.principalAmount.val := if_pos hpos
      rw [heq]
      exact ⟨(gs.adjustLiens_updatedBy l.id hpos hl.principal_pos).touched hok,
        Guarantees.adjustLiens_secures hsec ha hpos hle hl.principal_pos rfl rfl rfl hout⟩
    · have heq : gs₁ = gs := if_neg hpos
      have hzero : (allocate amount l.balances).principalApplied = 0 := by linarith
      rw [hzero, sub_zero] at hout
      rw [heq]
      exact ⟨.refl hok _, hsec.of_eq rfl rfl rfl hout⟩
  have hmidActive : mid.Active := ha
  unfold Loan.statusAfter at hstatus
  unfold Guarantees.repay
  by_cases hsettled : (l.balances.repay (allocate amount l.balances)).Settled
  · rw [if_pos hsettled] at hstatus ⊢
    have hreleased : (gs₁.releaseLiens mid.id).Secures row :=
      Guarantees.releaseLiens_secures hmid.2 hmidActive hterms.id hterms.principalAmount
        (.inl hstatus)
    exact ⟨hmid.1.trans ((gs₁.releaseLiens_updatedBy l.id).touched hmid.1.ok), hreleased⟩
  · rw [if_neg hsettled] at hstatus ⊢
    exact ⟨hmid.1, hmid.2.of_eq hterms.id hterms.principalAmount hstatus rfl⟩

/-- A write-off of a secured loan takes all that is outstanding, and releases the liens. -/
theorem writeOff_secures {U : Set Uuid} {loanLossId : Uuid} {amount : ℚ} (hok : gs.Ok)
    (hsec : gs.Secures l) (hl : l.Sound) (hU : ∀ i ∈ U, gs.tied i = [])
    (hm : (Movement.writeOff loanLossId amount).WritesOffAll U l)
    (hsaved : Saved l (l.balances.writeOff amount) (l.statusAfterWriteOff amount) row)
    (hout : row.outstandingPrincipal.val = l.outstandingPrincipal.val - amount)
    (hpos : 0 < amount) :
    gs.Touched (gs.releaseLiens l.id) l.id ∧ (gs.releaseLiens l.id).Secures row := by
  have htouched : gs.Touched (gs.releaseLiens l.id) l.id :=
    (gs.releaseLiens_updatedBy l.id).touched hok
  refine ⟨htouched, ?_⟩
  have hle : amount ≤ l.outstandingPrincipal.val := by
    have hnonneg := hsaved.outstanding_nonneg
    rw [hout] at hnonneg
    linarith
  by_cases hpart : amount < l.outstandingPrincipal.val
  · -- Only loans without guarantors are written off in part.
    apply Guarantees.secures_of_untied
    rw [hsaved.terms.id, ← List.length_eq_zero_iff,
      (gs.releaseLiens_updatedBy l.id).length_tied, hU l.id (hm hpos hpart)]
    rfl
  · have hfull : amount = l.outstandingPrincipal.val := le_antisymm hle (not_lt.mp hpart)
    have hstatus : row.status = .writtenOff := by
      rw [hsaved.status, Loan.statusAfterWriteOff, if_pos]
      show decimal (l.outstandingPrincipal.val - amount) = 0
      rw [hfull, sub_self, decimal_zero]
    exact Guarantees.releaseLiens_secures hsec (hl.active_of_pos (hfull ▸ hpos)) hsaved.terms.id
      hsaved.terms.principalAmount (.inr hstatus)

/-- Every movement touches the guarantees of its loan alone and leaves them behind its row. -/
theorem Movement.secures {U : Set Uuid} {m : Movement} (hok : gs.Ok) (hsec : gs.Secures l)
    (hl : l.Sound) (hU : ∀ i ∈ U, gs.tied i = []) (hm : m.WritesOffAll U l)
    (hgrid : m.PrincipalOnGrid) (henabled : m.Enabled l)
    (hsaved : Saved l (m.balances l) (m.status l) row)
    (hentries : Appends (m.entries l key) t t') :
    gs.Touched (m.guarantees .exact l gs) l.id ∧ (m.guarantees .exact l gs).Secures row := by
  have hout := hsaved.outstanding_eq hgrid
  have hsame : row.status = l.status →
      row.outstandingPrincipal.val = l.outstandingPrincipal.val →
      gs.Touched gs l.id ∧ gs.Secures row := fun hs ho =>
    ⟨.refl hok _, hsec.of_eq hsaved.terms.id hsaved.terms.principalAmount hs ho⟩
  cases m with
  | repay account amount =>
    exact repay_secures hok hsec hl henabled.1 hsaved.terms hsaved.status
      (hout.trans (allocate_principal_exact hgrid hl.nonneg.outstanding).1)
  | writeOff loanLossId amount =>
    have hcovered := hsaved.covered hgrid henabled hentries
    exact writeOff_secures hok hsec hl hU hm hsaved (hout.trans (writeOff_exact hgrid hcovered).1)
      (pos_of_roundAt_pos (posted_pos hentries))
  | recover loanLossId amount =>
    have hzero : l.outstandingPrincipal.val = 0 := hl.settled (.inr henabled.1)
    have hcovered := hsaved.covered hgrid henabled hentries
    have hamount : row.outstandingPrincipal.val = amount := by
      rw [hout.trans (recover_exact hgrid hcovered).2, hzero, zero_add]
    exact ⟨(Guarantees.reactivateLiens_updatedBy hok l.id amount).touched hok,
      Guarantees.reactivateLiens_secures hok hsec henabled.1 hsaved.terms.id
        hsaved.terms.principalAmount hsaved.status hamount⟩
  | mark status =>
    have hstatus : row.status = status := hsaved.status
    -- The two statuses of a running loan are the same to the liens.
    have hactive : l.Active ∧ row.Active := by
      unfold Loan.Active
      rw [hstatus]
      rcases henabled with ⟨h, h'⟩ | ⟨h, h'⟩ <;> rw [h, h'] <;> decide
    have hnot : ¬ (row.status = .closed ∨ row.status = .writtenOff) := by
      rcases hactive.2 with h | h <;> rw [h] <;> decide
    have hid := hsaved.terms.id
    refine ⟨.refl hok _, ?_, ?_, ?_, fun h => absurd h hnot, fun h => absurd h hnot⟩
    · rw [hid, hsaved.terms.principalAmount]
      exact hsec.original
    · intro _
      rw [hid]
      exact hsec.accepted hactive.1
    · intro _
      rw [hid, hout]
      exact hsec.active hactive.1
  | accrue interest => exact hsame hsaved.status hout
  | assess amount => exact hsame hsaved.status hout
  | collect amount => exact hsame hsaved.status hout
  | reschedule => exact hsame hsaved.status hout

/-- The row a movement leaves is sound. -/
theorem Movement.sound {m : Movement} (hl : l.Sound) (hgrid : m.PrincipalOnGrid)
    (henabled : m.Enabled l) (hsaved : Saved l (m.balances l) (m.status l) row)
    (hentries : Appends (m.entries l key) t t') : row.Sound := by
  have hout := hsaved.outstanding_eq hgrid
  have hstatus := hsaved.status
  refine ⟨hsaved.nonneg, ?_, ?_, ?_⟩
  · rw [hsaved.terms.principalAmount]
    exact hl.principal_pos
  · intro hover
    rw [hstatus] at hover
    cases m with
    | repay account amount =>
      have hover : l.statusAfter (allocate amount l.balances) = .closed ∨
          l.statusAfter (allocate amount l.balances) = .writtenOff := hover
      unfold Loan.statusAfter at hover
      split_ifs at hover with hsettled
      · rw [hout]
        exact (repay_settled hsettled).1
      · rcases henabled.1 with h | h <;> rw [h] at hover <;> rcases hover with h | h <;> cases h
    | writeOff loanLossId amount =>
      have hover : l.statusAfterWriteOff amount = .closed ∨
          l.statusAfterWriteOff amount = .writtenOff := hover
      unfold Loan.statusAfterWriteOff at hover
      split_ifs at hover with hfull
      · rw [hout]
        exact hfull
      · -- A loan that is over owes nothing, and the column refuses to go below zero.
        have hpos := pos_of_roundAt_pos (posted_pos hentries)
        have hnonneg := hsaved.outstanding_nonneg
        have hzero := hl.settled hover
        have hout' : row.outstandingPrincipal.val = l.outstandingPrincipal.val - amount :=
          hout.trans (writeOff_exact hgrid (hsaved.covered hgrid henabled hentries)).1
        rw [hout', hzero] at hnonneg
        linarith
    | recover loanLossId amount => rcases hover with h | h <;> cases h
    | mark status =>
      have hover : status = .closed ∨ status = .writtenOff := hover
      rcases henabled with ⟨-, h⟩ | ⟨-, h⟩ <;> rw [h] at hover <;> rcases hover with h | h <;>
        cases h
    | accrue interest => exact hout.trans (hl.settled hover)
    | assess amount => exact hout.trans (hl.settled hover)
    | collect amount => exact hout.trans (hl.settled hover)
    | reschedule => exact hout.trans (hl.settled hover)
  · rw [hstatus]
    exact Movement.status_ne_disbursing henabled hl.disbursed

end

/-! ## The invariant -/

/-- What holds between operations; no guarantor is tied to the loans `U`. -/
structure LienInvariant (U : Set Uuid) (t : Tables) : Prop where
  books : BooksOk t
  ok : t.guarantees.Ok
  lienIds : ∀ lien ∈ t.liens, lien.id < t.nextId
  ties : ∀ g ∈ t.guarantors, ∀ i, g.loanId = some i →
    ∃ l ∈ t.loans, l.id = i ∧ l.loanApplicationId = g.loanApplicationId
  sound : ∀ l ∈ t.loans, l.Sound
  secures : ∀ l ∈ t.loans, t.guarantees.Secures l
  unsecured : ∀ i ∈ U, i < t.nextId ∧ t.guarantees.tied i = []

/-- The movements that the invariant is stated for. -/
def Movement.KeepsLiens (U : Set Uuid) (l : Loan) (m : Movement) : Prop :=
  m.PrincipalOnGrid ∧ m.WritesOffAll U l

theorem Guarantees.Touched.tied_nil {gs gs' : Guarantees} {i j : Uuid} (h : gs.Touched gs' i)
    (hj : gs.tied j = []) : gs'.tied j = [] := by
  unfold Guarantees.tied at hj ⊢
  rw [List.filter_eq_nil_iff] at hj ⊢
  intro g' hg' htied
  have hmem : (g'.loanId, g'.loanApplicationId)
      ∈ gs'.guarantors.map fun g => (g.loanId, g.loanApplicationId) :=
    List.mem_map.mpr ⟨g', hg', rfl⟩
  rw [h.ties] at hmem
  obtain ⟨g, hg, heq⟩ := List.mem_map.mp hmem
  obtain ⟨hloan, -⟩ := Prod.mk.inj heq
  rw [← hloan] at htied
  exact hj g hg htied

/-- Writing a loan row back keeps the ids and the applications of the loans. -/
theorem LienInvariant.ties_change {U : Set Uuid} {t t' : Tables} (h : LienInvariant U t)
    {l row : Loan} (hl : l ∈ t.loans) (hrow : SameTerms l row)
    (hloans : t'.loans = (t.putLoan row).loans)
    (htouched : t.guarantees.Touched t'.guarantees l.id) :
    ∀ g ∈ t'.guarantors, ∀ i, g.loanId = some i →
      ∃ r ∈ t'.loans, r.id = i ∧ r.loanApplicationId = g.loanApplicationId := by
  intro g' hg' i hi
  have hmem : (g'.loanId, g'.loanApplicationId)
      ∈ t'.guarantees.guarantors.map fun g => (g.loanId, g.loanApplicationId) :=
    List.mem_map.mpr ⟨g', hg', rfl⟩
  rw [htouched.ties] at hmem
  obtain ⟨g, hg, heq⟩ := List.mem_map.mp hmem
  obtain ⟨hloan, happ⟩ := Prod.mk.inj heq
  obtain ⟨r, hr, hid, hrapp⟩ := h.ties g hg i (hloan.trans hi)
  rw [hloans, ← happ]
  by_cases hne : r.id = row.id
  · have hrl : r = l := h.books.loan_unique hl hr (hne.trans hrow.id)
    refine ⟨row, List.mem_map.mpr ⟨r, hr, if_pos hne⟩, ?_, ?_⟩
    · rw [← hne, hid]
    · rw [hrow.loanApplicationId, ← hrl, hrapp]
  · exact ⟨r, List.mem_map.mpr ⟨r, hr, if_neg hne⟩, hid, hrapp⟩

theorem LienInvariant.change {U : Set Uuid} {t t' : Tables} (h : LienInvariant U t)
    (hbooks : BooksOk t') {l row : Loan} (hl : l ∈ t.loans) (hrow : SameTerms l row)
    (hnext : t.nextId ≤ t'.nextId) (hloans : t'.loans = (t.putLoan row).loans)
    (htouched : t.guarantees.Touched t'.guarantees l.id) (hsound : row.Sound)
    (hsecures : t'.guarantees.Secures row) : LienInvariant U t' := by
  refine ⟨hbooks, htouched.ok, ?_, h.ties_change hl hrow hloans htouched, ?_, ?_, ?_⟩
  · intro lien hlien
    have hmem : lien.id ∈ t'.guarantees.liens.map (·.id) := List.mem_map_of_mem hlien
    rw [htouched.lienIds] at hmem
    obtain ⟨old, hold, hid⟩ := List.mem_map.mp hmem
    rw [← hid]
    exact (h.lienIds old hold).trans_le hnext
  · intro r hr
    rw [hloans] at hr
    rcases mem_putLoan hr with rfl | ⟨hr, -⟩
    · exact hsound
    · exact h.sound r hr
  · intro r hr
    rw [hloans] at hr
    rcases mem_putLoan hr with rfl | ⟨hr, hne⟩
    · exact hsecures
    · exact htouched.others r (fun heq => hne (heq.trans hrow.id.symm)) (h.secures r hr)
  · intro i hi
    obtain ⟨hlt, hnil⟩ := h.unsecured i hi
    exact ⟨hlt.trans_le hnext, htouched.tied_nil hnil⟩

/-- What `place_liens` does for a new loan. -/
theorem LienInvariant.placement {U : Set Uuid} {t t' : Tables} (h : LienInvariant U t) {l : Loan}
    (hid : l.id = t.nextId) (hliens : LiensPlaced .exact l t t') :
    ∃ n new, n ≤ t'.nextId ∧
      t.guarantees.Placement ((t.guarantees.accepted l.loanApplicationId).map (·.id)) l.id
        (l.principalAmount.val / (t.guarantees.accepted l.loanApplicationId).length)
        t.nextId n new ∧
      t'.guarantees = t.guarantees.placed
        ((t.guarantees.accepted l.loanApplicationId).map (·.id)) l.id new := by
  obtain ⟨t₁, t₂, hn₁, hgs₁, hplace, hgs₂, hn₂⟩ := hliens.placed
  rw [placeLiens, get_bind_eq_ok, hgs₁] at hplace
  have hguarantors : t₁.guarantors = t.guarantors := congrArg Guarantees.guarantors hgs₁
  have hlienRows : t₁.liens = t.liens := congrArg Guarantees.liens hgs₁
  have hmem : ∀ g ∈ t.guarantees.accepted l.loanApplicationId, g ∈ t.guarantors := fun g hg =>
    List.mem_of_mem_filter hg
  have hnodup : ((t.guarantees.accepted l.loanApplicationId).map (·.id)).Nodup :=
    h.ok.guarantorIds.sublist (List.filter_sublist.map _)
  obtain ⟨-, new, hnew, hgs⟩ := forEach_placeLien_ok hplace (by rw [hguarantors]; exact h.ok.guarantorIds)
    (by rw [hguarantors]; exact hmem) hnodup
  refine ⟨t₂.nextId, new, hn₂, ⟨h.ok, ⟨hnew.guarantors, hnew.nodup, hnew.shares, ?_⟩, hnodup, ?_,
    ?_, h.lienIds, ?_⟩, ?_⟩
  · intro lien hlien
    obtain ⟨hlow, hhigh⟩ := hnew.drawn lien hlien
    exact ⟨hn₁.trans hlow, hhigh⟩
  · intro k hk
    obtain ⟨g, hg, rfl⟩ := List.mem_map.mp hk
    exact ⟨g, hmem g hg, rfl⟩
  · -- A tied guarantor belongs to a loan of its own application, and this one had none.
    intro g hg hin
    obtain ⟨r, hr, hrid⟩ := List.mem_map.mp hin
    have heq : r = g := h.ok.guarantor_unique hg (hmem r hr) hrid
    have happ : g.loanApplicationId = l.loanApplicationId := by
      rw [heq] at hr
      simp only [Guarantees.accepted, List.mem_filter, decide_eq_true_eq] at hr
      exact hr.2.1
    cases hloan : g.loanId with
    | none => rfl
    | some i =>
      obtain ⟨r', hr', -, hrapp⟩ := h.ties g hg i hloan
      exact absurd (hrapp.trans happ) (hliens.fresh r' hr')
  · intro g hg hi
    obtain ⟨r, hr, hrid, -⟩ := h.ties g hg l.id hi
    have hlt := h.books.ids r hr
    rw [hrid, hid] at hlt
    exact lt_irrefl _ hlt
  · rw [hgs₂, hgs, hguarantors, hlienRows]
    rfl

theorem LienInvariant.opened {U : Set Uuid} {t t' : Tables} (h : LienInvariant U t)
    (hbooks : BooksOk t') {l : Loan} (hopened : Opened l) (hid : l.id = t.nextId)
    (hnext : t.nextId < t'.nextId) (hloans : t'.loans = t.loans ++ [l])
    (hliens : LiensPlaced .exact l t t') : LienInvariant U t' := by
  obtain ⟨n, new, hn, hplacement, hgs⟩ := h.placement hid hliens
  -- the id of the loan is new, so no older loan is meant by the ties below
  have hne : ∀ r ∈ t.loans, r.id ≠ l.id := by
    intro r hr heq
    have hlt := h.books.ids r hr
    rw [heq, hid] at hlt
    exact lt_irrefl _ hlt
  have hguarantors : t'.guarantors = t.guarantors.map (tiedGuarantor _ l.id) :=
    congrArg Guarantees.guarantors hgs
  have hlienRows : t'.liens = t.liens ++ new := congrArg Guarantees.liens hgs
  refine ⟨hbooks, ?_, ?_, ?_, ?_, ?_, ?_⟩
  · rw [hgs]
    exact hplacement.ok_placed
  · intro lien hlien
    rw [hlienRows] at hlien
    rcases List.mem_append.mp hlien with hold | hnew
    · exact (h.lienIds lien hold).trans hnext
    · exact (hplacement.new.drawn lien hnew).2.trans_le hn
  · intro g' hg' i hi
    rw [hguarantors] at hg'
    obtain ⟨g, hg, rfl⟩ := List.mem_map.mp hg'
    rw [(tiedGuarantor_keeps _ _ g).2.2, hloans]
    unfold tiedGuarantor at hi
    split_ifs at hi with hin
    · obtain ⟨r, hr, hrid⟩ := List.mem_map.mp hin
      -- the guarantor is one of those accepted on the application of the loan
      have heq : r = g := h.ok.guarantor_unique hg (List.mem_of_mem_filter hr) hrid
      rw [heq] at hr
      simp only [Guarantees.accepted, List.mem_filter, decide_eq_true_eq] at hr
      exact ⟨l, by simp, Option.some.inj hi, hr.2.1.symm⟩
    · obtain ⟨r, hr, hrid, happ⟩ := h.ties g hg i hi
      exact ⟨r, List.mem_append_left _ hr, hrid, happ⟩
  · intro r hr
    rw [hloans, List.mem_append, List.mem_singleton] at hr
    rcases hr with hr | rfl
    · exact h.sound r hr
    · exact hopened.sound
  · intro r hr
    rw [hloans, List.mem_append, List.mem_singleton] at hr
    rw [hgs]
    rcases hr with hr | rfl
    · exact hplacement.others (hne r hr) (h.secures r hr)
    · refine hplacement.secures (by rw [List.length_map]) hopened ?_
      intro g hg hin
      obtain ⟨x, hx, hxid⟩ := List.mem_map.mp hin
      have heq : x = g := h.ok.guarantor_unique hg (List.mem_of_mem_filter hx) hxid
      rw [heq] at hx
      simp only [Guarantees.accepted, List.mem_filter, decide_eq_true_eq] at hx
      exact hx.2.2
  · intro i hi
    obtain ⟨hlt, hnil⟩ := h.unsecured i hi
    refine ⟨hlt.trans hnext, ?_⟩
    rw [hgs, ← List.length_eq_zero_iff, hplacement.length_tied_of_ne (hid ▸ hlt.ne), hnil]
    rfl

theorem LienInvariant.same {U : Set Uuid} {t t' : Tables} (h : LienInvariant U t)
    (hbooks : BooksOk t') (hnext : t.nextId ≤ t'.nextId) (hloans : t'.loans = t.loans)
    (hgs : t'.guarantees = t.guarantees) : LienInvariant U t' := by
  have hguarantors : t'.guarantors = t.guarantors := congrArg Guarantees.guarantors hgs
  have hliens : t'.liens = t.liens := congrArg Guarantees.liens hgs
  refine ⟨hbooks, hgs ▸ h.ok, ?_, ?_, hloans ▸ h.sound, ?_, ?_⟩
  · rw [hliens]
    exact fun lien hlien => (h.lienIds lien hlien).trans_le hnext
  · rw [hguarantors, hloans]
    exact h.ties
  · rw [hloans, hgs]
    exact h.secures
  · rw [hgs]
    exact fun i hi => ⟨(h.unsecured i hi).1.trans_le hnext, (h.unsecured i hi).2⟩

/-- Every move within the condition keeps the liens behind their loans. -/
theorem LienInvariant.move {U : Set Uuid} {D : Loan → Uuid → ℚ → Prop} {t t' : Tables}
    (h : LienInvariant U t) (hm : Move .exact (Movement.KeepsLiens U) D t t') :
    LienInvariant U t' := by
  have hbooks := h.books.move hm
  cases hm with
  | change l row m key found allowed enabled saved nextId loans entries _ _ guarantees =>
    obtain ⟨hl, -⟩ := loan?_eq_some found
    obtain ⟨hgrid, hall⟩ := allowed
    obtain ⟨htouched, hsecures⟩ := Movement.secures h.ok (h.secures l hl) (h.sound l hl)
      (fun i hi => (h.unsecured i hi).2) hall hgrid enabled saved entries
    rw [← guarantees] at htouched hsecures
    exact h.change hbooks hl saved.terms nextId loans htouched
      (Movement.sound (h.sound l hl) hgrid enabled saved entries) hsecures
  | opened l account booked _ opened id nextId loans _ _ liens =>
    exact h.opened hbooks opened id nextId loans liens
  | foreign e _ _ nextId loans _ _ guarantees => exact h.same hbooks nextId loans guarantees
  | same nextId loans _ _ guarantees => exact h.same hbooks nextId loans guarantees

/-! ## Runs -/

/-- No secured loan is written off in part. -/
def CreditOp.WritesOffAll (t : Tables) : CreditOp → Prop
  | writeOff w => ∀ l ∈ t.loan? w.loanId, 0 < w.amount →
      w.amount < l.outstandingPrincipal.val → t.guarantees.tied l.id = []
  | executeWriteOff payload => ∀ l ∈ payload.loanId.bind t.loan?, ∀ amount ∈ payload.amount,
      0 < amount → amount < l.outstandingPrincipal.val → t.guarantees.tied l.id = []
  | _ => True

instance (t : Tables) (op : CreditOp) : Decidable (op.WritesOffAll t) := by
  induction op using CreditOp.casesOn <;> unfold CreditOp.WritesOffAll <;> infer_instance

/-- The condition on one operation. -/
def CreditOp.KeepsLiens (t : Tables) (op : CreditOp) : Prop :=
  op.ForeignKeys ∧ op.FourDecimals ∧ op.WritesOffAll t

instance (t : Tables) (op : CreditOp) : Decidable (op.KeepsLiens t) :=
  inferInstanceAs (Decidable (_ ∧ _ ∧ _))

/-- The loans that have no guarantor. -/
def Tables.unsecured (t : Tables) : Set Uuid :=
  { i | i < t.nextId ∧ t.guarantees.tied i = [] }

theorem CreditOp.WritesOffAll.movement {t : Tables} {op : CreditOp} (h : op.WritesOffAll t)
    (hbooks : BooksOk t) {l : Loan} {m : Movement} (hm : op.Allows t l m) :
    m.WritesOffAll t.unsecured l := by
  cases m with
  | writeOff loanLossId amount =>
    intro hpos hpart
    obtain ⟨hl, hnil⟩ : l ∈ t.loans ∧ t.guarantees.tied l.id = [] := by
      cases op <;> simp only [CreditOp.Allows] at hm
      case writeOff w =>
        obtain ⟨hloan, a, -, heq⟩ := hm
        cases heq
        exact ⟨(loan?_eq_some hloan).1, h l hloan hpos hpart⟩
      case executeWriteOff payload =>
        obtain ⟨hloan, a, x, -, hx, heq⟩ := hm
        cases heq
        obtain ⟨i, -, hi⟩ := Option.bind_eq_some_iff.mp hloan
        exact ⟨(loan?_eq_some hi).1, h l hloan amount hx hpos hpart⟩
      case repay r => cases hm.2
      case recover w =>
        obtain ⟨-, _, -, heq⟩ := hm
        cases heq
      case accrueInterest today =>
        obtain ⟨_, heq⟩ := hm
        cases heq
      case markArrears today =>
        obtain ⟨_, heq⟩ := hm
        cases heq
      case restructure today payload => cases hm
      case consumeEvents =>
        obtain ⟨_, _, _, -, -, hmove⟩ := hm
        obtain ⟨_, heq | heq⟩ := EventBody.movement?_eq_some hmove <;> cases heq
    exact ⟨hbooks.ids l hl, hnil⟩
  | _ => trivial

theorem Tables.Genesis.lienInvariant {t : Tables} (h : t.Genesis) : LienInvariant ∅ t := by
  have hliens : t.guarantees.liens = [] := h.liens
  refine ⟨h.booksOk, ⟨h.guarantorIds, ?_, ?_, ?_, ?_⟩, ?_, ?_, ?_, ?_, ?_⟩
  · rw [hliens]
    exact List.nodup_nil
  · rw [hliens]
    exact List.nodup_nil
  · intro g hg htied
    exact absurd (h.guarantors g hg) htied
  · intro lien hlien
    rw [hliens] at hlien
    cases hlien
  · intro lien hlien
    rw [h.liens] at hlien
    cases hlien
  · intro g hg i hi
    rw [h.guarantors g hg] at hi
    cases hi
  · intro l hl
    rw [h.loans] at hl
    cases hl
  · intro l hl
    rw [h.loans] at hl
    cases hl
  · intro i hi
    cases hi

/-- One operation keeps the liens behind their loans. -/
theorem LienInvariant.step {t : Tables} (h : LienInvariant ∅ t) {op : CreditOp}
    (hop : op.KeepsLiens t) : LienInvariant ∅ (op.step .exact t) := by
  obtain ⟨hforeign, hgrid, hall⟩ := hop
  have hstart : LienInvariant t.unsecured t := { h with unsecured := fun i hi => hi }
  have hend : LienInvariant t.unsecured (op.step .exact t) := by
    refine step_keeps .exact (fun s s' hi hm => hi.move hm) ?_ (fun _ _ _ ho => ho) h.books
      hforeign hstart
    intro l m hm
    exact ⟨hgrid.movement hm, hall.movement h.books hm⟩
  exact { hend with unsecured := fun i hi => absurd hi (Set.notMem_empty i) }

/-- The liens of a secured loan cover its outstanding principal while it runs, and none is
active once it is closed or written off. -/
def Tables.LiensOk (t : Tables) (l : Loan) : Prop :=
  t.guarantees.tied l.id ≠ [] →
    (0 < l.outstandingPrincipal.val → l.Active →
      t.guarantees.covered l.id = l.outstandingPrincipal.val) ∧
    (l.status = .closed ∨ l.status = .writtenOff →
      ∀ lien ∈ t.liens, t.guarantees.LienOf l.id lien → lien.isActive = false)

instance (t : Tables) (l : Loan) : Decidable (t.LiensOk l) :=
  inferInstanceAs (Decidable (_ → _ ∧ _))

/-- In every run without a partial write-off of a secured loan, the liens cover what is
outstanding. -/
theorem liens_cover_outstanding {t : Tables} (hgenesis : t.Genesis) {ops : List CreditOp}
    (hops : Along (CreditOp.step .exact) CreditOp.KeepsLiens t ops) :
    ∀ l ∈ (run (CreditOp.step .exact) t ops).loans,
      (run (CreditOp.step .exact) t ops).LiensOk l := by
  have hinv : LienInvariant ∅ (run (CreditOp.step .exact) t ops) :=
    run_invariant (fun s op hs hop => hs.step hop) hgenesis.lienInvariant hops
  intro l hl htied
  have hsecures := hinv.secures l hl
  exact ⟨fun _ ha => hsecures.covered_eq hinv.ok ha htied, hsecures.inactive⟩

/-- The sample loan is repaid in part, written off, recovered in part and repaid again. -/
def recoveryRun : List CreditOp :=
  [sampleDisbursement, .repay ⟨11, 400, 5, 30, none, "r1", none⟩,
    .executeWriteOff ⟨some 11, some 600, some "bad", some "w1", none⟩,
    .recover ⟨11, 250, "found", 30, "c1"⟩, .repay ⟨11, 100, 5, 30, none, "r2", none⟩]

theorem liens_cover_recoveryRun :
    Along (CreditOp.step .exact) CreditOp.KeepsLiens (sampleTenant .reducingBalance) recoveryRun ∧
      (run (CreditOp.step .exact) (sampleTenant .reducingBalance) recoveryRun).guarantees.covered 11
        = 150 ∧
      ∀ l ∈ (run (CreditOp.step .exact) (sampleTenant .reducingBalance) recoveryRun).loans,
        (run (CreditOp.step .exact) (sampleTenant .reducingBalance) recoveryRun).LiensOk l :=
  have hops : Along (CreditOp.step .exact) CreditOp.KeepsLiens
      (sampleTenant .reducingBalance) recoveryRun := by decide +kernel
  ⟨hops, by decide +kernel, liens_cover_outstanding (genesis_sampleTenant _) hops⟩

/-- The sample loan, 50 of which are written off at once. -/
def partialWriteOffRun : List CreditOp :=
  [sampleDisbursement, .writeOff ⟨11, 50, "bad", 30, "w1", "5100"⟩]

/-- The loan still runs with 950 outstanding, and no lien is left. -/
theorem liens_released_partialWriteOffRun :
    (run (CreditOp.step .exact) (sampleTenant .reducingBalance) partialWriteOffRun).loans.map
        (fun l => (l.status, l.outstandingPrincipal.val)) = [(.disbursed, 950)] ∧
      (run (CreditOp.step .exact) (sampleTenant .reducingBalance)
        partialWriteOffRun).guarantees.covered 11 = 0 ∧
      ¬ ∀ l ∈ (run (CreditOp.step .exact) (sampleTenant .reducingBalance) partialWriteOffRun).loans,
        (run (CreditOp.step .exact) (sampleTenant .reducingBalance) partialWriteOffRun).LiensOk l :=
  ⟨by decide +kernel, by decide +kernel, by decide +kernel⟩

end SaccoPlatform
