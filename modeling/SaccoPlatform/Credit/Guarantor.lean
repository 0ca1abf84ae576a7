import SaccoPlatform.Credit.Schedule

/-!
# Guarantor liens

`GuarantorService` (`app/modules/credit/services/guarantor.py`), the part that disbursement,
repayment, write-off and recovery call: every accepted guarantor of an application holds an
equal share of the disbursed principal as a lien on savings, a repayment lowers each lien by
its share of the original principal, closure and write-off release the liens, and a recovery
puts the recovered amount back.

The lien amounts are computed by a `LienArithmetic`: the one of the code rounds every
decimal operation and every column, the exact one rounds nothing.
-/

namespace SaccoPlatform

open Lib Session

/-- How lien amounts are computed: what a decimal operation keeps of its result, and what a
column keeps of a value. -/
structure LienArithmetic where
  decimal : ℚ → ℚ
  column : ℚ → ℚ

/-- Python decimals in `NUMERIC(19,4)` columns. -/
def LienArithmetic.python : LienArithmetic := ⟨SaccoPlatform.decimal, roundAt 4⟩

def LienArithmetic.exact : LienArithmetic := ⟨id, id⟩

/-- `SavingsService.get_primary_account_for_member`: the oldest account of the member. -/
def Tables.primaryAccount? (t : Tables) (memberId : Uuid) : Option SavingsAccount :=
  t.savingsAccounts.find? (·.memberId = memberId)

/-- The two tables of the service. -/
structure Guarantees where
  guarantors : List LoanGuarantor
  liens : List LoanGuarantorLien
deriving DecidableEq

namespace Guarantees

def putGuarantor (gs : Guarantees) (g : LoanGuarantor) : Guarantees :=
  { gs with guarantors := gs.guarantors.map fun r => if r.id = g.id then g else r }

def putLien (gs : Guarantees) (lien : LoanGuarantorLien) : Guarantees :=
  { gs with liens := gs.liens.map fun r => if r.id = lien.id then lien else r }

/-- The lien hangs on a guarantor of the loan (the join of the lien queries). -/
def LienOf (gs : Guarantees) (loanId : Uuid) (lien : LoanGuarantorLien) : Prop :=
  ∃ g ∈ gs.guarantors, g.id = lien.loanGuarantorId ∧ g.loanId = some loanId

instance (gs : Guarantees) (loanId : Uuid) (lien : LoanGuarantorLien) :
    Decidable (gs.LienOf loanId lien) :=
  inferInstanceAs (Decidable (∃ g ∈ gs.guarantors, _))

/-- The accepted guarantors of an application. -/
def accepted (gs : Guarantees) (loanApplicationId : Uuid) : List LoanGuarantor :=
  gs.guarantors.filter fun g => g.loanApplicationId = loanApplicationId ∧ g.status = .accepted

/-- `release_liens`. -/
def releaseLiens (gs : Guarantees) (loanId : Uuid) : Guarantees where
  liens := gs.liens.map fun lien =>
    if gs.LienOf loanId lien ∧ lien.isActive then
      { lien with isActive := false, currentLien := 0 }
    else lien
  guarantors := gs.guarantors.map fun g =>
    if g.loanId = some loanId ∧ g.status = .accepted then { g with status := .released } else g

/-- The guarantor's lien that was created last among the inactive ones. -/
def lastInactiveLien? (gs : Guarantees) (guarantorId : Uuid) : Option LoanGuarantorLien :=
  (gs.liens.filter fun lien =>
    lien.loanGuarantorId = guarantorId ∧ lien.isActive = false).getLast?

section

variable (ar : LienArithmetic)

/-- What `adjust_liens` leaves of one lien. -/
def adjusted (fraction : ℚ) (lien : LoanGuarantorLien) : LoanGuarantorLien :=
  let reduction := ar.decimal (lien.originalLien * fraction)
  { lien with currentLien := ar.column (max 0 (ar.decimal (lien.currentLien - reduction))) }

/-- `adjust_liens`. -/
def adjustLiens (gs : Guarantees) (loanId : Uuid) (principalApplied originalPrincipal : ℚ) :
    Guarantees :=
  if principalApplied ≤ 0 ∨ originalPrincipal ≤ 0 then gs
  else
    let fraction := ar.decimal (principalApplied / originalPrincipal)
    { gs with liens := gs.liens.map fun lien =>
        if gs.LienOf loanId lien ∧ lien.isActive then adjusted ar fraction lien else lien }

/-- One round of the loop of `reactivate_liens`. -/
def reactivate (lienShare : ℚ) (gs : Guarantees) (g : LoanGuarantor) : Guarantees :=
  let gs := gs.putGuarantor { g with status := .accepted }
  match gs.lastInactiveLien? g.id with
  | none => gs
  | some lien => gs.putLien { lien with currentLien := ar.column lienShare, isActive := true }

/-- `reactivate_liens`. -/
def reactivateLiens (gs : Guarantees) (loanId : Uuid) (restoredAmount : ℚ) : Guarantees :=
  let released := gs.guarantors.filter fun g => g.loanId = some loanId ∧ g.status = .released
  let lienShare := ar.decimal (restoredAmount / released.length)
  released.foldl (reactivate ar lienShare) gs

end

end Guarantees

def Tables.guarantees (t : Tables) : Guarantees := ⟨t.guarantors, t.liens⟩

def Tables.setGuarantees (t : Tables) (gs : Guarantees) : Tables :=
  { t with guarantors := gs.guarantors, liens := gs.liens }

def modifyGuarantees (f : Guarantees → Guarantees) : Call Unit :=
  modify fun t => t.setGuarantees (f t.guarantees)

/-- One round of the loop of `place_liens`. -/
def placeLien (ar : LienArithmetic) (loanId : Uuid) (lienShare : ℚ) (g : LoanGuarantor) :
    Call Unit := do
  modifyGuarantees (·.putGuarantor { g with loanId := some loanId })
  let t ← get
  let account ← orRaise (t.primaryAccount? g.guarantorMemberId)
    (.valueError s!"Guarantor member '{g.guarantorMemberId}' has no savings account")
  let id ← freshId
  constraint (0 < ar.column lienShare) (.integrityError "ck_lgl_original_lien")
  modifyGuarantees fun gs => { gs with
    liens := gs.liens ++
      [⟨id, g.id, account.id, ar.column lienShare, ar.column lienShare, true⟩] }

/-- `place_liens`. -/
def placeLiens (ar : LienArithmetic) (loanId loanApplicationId : Uuid) (principalAmount : ℚ) :
    Call Unit := do
  let t ← get
  let guarantors := t.guarantees.accepted loanApplicationId
  forEach (placeLien ar loanId (ar.decimal (principalAmount / guarantors.length))) guarantors

/-! ## Frames -/

/-- The tables of the credit module and the ledger are unchanged; ids may have been drawn. -/
structure SameCredit (t t' : Tables) : Prop where
  nextId : t.nextId ≤ t'.nextId
  loans : t'.loans = t.loans
  installments : t'.installments = t.installments
  entries : t'.entries = t.entries
  repayments : t'.repayments = t.repayments
  guarantees : t'.guarantees = t.guarantees

instance : IsPreorder Tables SameCredit where
  refl _ := ⟨le_rfl, rfl, rfl, rfl, rfl, rfl⟩
  trans _ _ _ h h' :=
    ⟨h.nextId.trans h'.nextId, h'.loans.trans h.loans, h'.installments.trans h.installments,
      h'.entries.trans h.entries, h'.repayments.trans h.repayments,
      h'.guarantees.trans h.guarantees⟩

theorem freshId_sameCredit : Moves SameCredit freshId :=
  moves_freshId fun _ => ⟨Nat.le_succ _, rfl, rfl, rfl, rfl, rfl⟩

theorem publish_sameCredit (body : EventBody) : Moves SameCredit (publish body) := by
  apply moves_bind freshId_sameCredit
  intro id
  exact moves_modify fun _ => ⟨le_rfl, rfl, rfl, rfl, rfl, rfl⟩

/-- Nothing but the guarantees changed; ids may have been drawn. -/
def OnlyGuarantees (t t' : Tables) : Prop :=
  ∃ n gs ls, t.nextId ≤ n ∧ t' = { t with nextId := n, guarantors := gs, liens := ls }

instance : IsPreorder Tables OnlyGuarantees where
  refl t := ⟨t.nextId, t.guarantors, t.liens, le_rfl, rfl⟩
  trans t t₁ t₂ h h' := by
    obtain ⟨n, gs, ls, hn, rfl⟩ := h
    obtain ⟨n', gs', ls', hn', rfl⟩ := h'
    exact ⟨n', gs', ls', hn.trans hn', rfl⟩

theorem placeLien_moves (ar : LienArithmetic) (loanId : Uuid) (share : ℚ) (g : LoanGuarantor) :
    Moves OnlyGuarantees (placeLien ar loanId share g) := by
  unfold placeLien modifyGuarantees
  apply moves_bind (moves_modify fun t => ⟨t.nextId, _, _, le_rfl, rfl⟩)
  intro _
  apply moves_bind moves_get
  intro t
  apply moves_bind (moves_orRaise _ _)
  intro account
  apply moves_bind (moves_freshId fun t => ⟨t.nextId + 1, _, _, Nat.le_succ _, rfl⟩)
  intro id
  apply moves_bind (moves_constraint _ _)
  intro _
  exact moves_modify fun t => ⟨t.nextId, _, _, le_rfl, rfl⟩

theorem placeLiens_moves (ar : LienArithmetic) (loanId applicationId : Uuid) (principal : ℚ) :
    Moves OnlyGuarantees (placeLiens ar loanId applicationId principal) := by
  unfold placeLiens
  apply moves_bind moves_get
  intro t
  apply moves_forEach
  intro g _
  exact placeLien_moves ar loanId _ g

end SaccoPlatform
