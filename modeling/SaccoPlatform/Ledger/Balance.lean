import SaccoPlatform.Ledger.Journal
import SaccoPlatform.Lib.Runs
import SaccoPlatform.Lib.Tables

/-!
# Balance of the journal

`post_journal_entry` compares the sums of the amounts it is handed; what it stores are these
amounts rounded one by one. The stored entry balances exactly when the columns round as much off
the debits as off the credits, which is so for amounts with four decimals. Neither the service nor
`JournalLineIn` bounds the decimals: two debits of 0.00005 against a credit of 0.0001 are accepted,
and stored as 0.0002 against 0.0001.

`post_journal_entry` is the only place that writes the journal, so a run of the system is here a
list of its calls, in the order in which they are committed, among other changes.
-/

namespace SaccoPlatform

open Lib Session

/-- The arguments of `post_journal_entry`. -/
structure PostIn where
  reference : String
  description : String
  postedBy : Uuid
  idempotencyKey : String
  lines : List LineIn
deriving DecidableEq, Repr

def PostIn.post (p : PostIn) : Call Uuid :=
  postJournalEntry p.reference p.description p.postedBy p.idempotencyKey p.lines

def JournalEntry.debits (e : JournalEntry) : ℚ := (e.lines.map (·.debitAmount.val)).sum

def JournalEntry.credits (e : JournalEntry) : ℚ := (e.lines.map (·.creditAmount.val)).sum

def JournalEntry.Balanced (e : JournalEntry) : Prop := e.debits = e.credits

instance (e : JournalEntry) : Decidable e.Balanced := inferInstanceAs (Decidable (_ = _))

def Tables.totalDebits (t : Tables) : ℚ := (t.entries.map JournalEntry.debits).sum

def Tables.totalCredits (t : Tables) : ℚ := (t.entries.map JournalEntry.credits).sum

/-- A call of `post_journal_entry`, or a change of any other table. -/
inductive LedgerOp where
  | post (p : PostIn)
  | elsewhere (data : Tables)

def LedgerOp.step (t : Tables) : LedgerOp → Tables
  | post p => commit p.post t
  | elsewhere data => { data with entries := t.entries }

/-- What the columns round off the amounts: the sum that is compared less what is stored. -/
def roundedOff (amounts : List ℚ) : ℚ := decimalSum amounts - (amounts.map (roundAt 4)).sum

/-- The columns round as much off the debits as off the credits. -/
def EvenlyRounded (lines : List LineIn) : Prop :=
  roundedOff (lines.map (·.debitAmount)) = roundedOff (lines.map (·.creditAmount))

instance (lines : List LineIn) : Decidable (EvenlyRounded lines) :=
  inferInstanceAs (Decidable (_ = _))

/-- Amounts with four decimals, and no more lines than a sum of 28 digits can take. -/
def FourDecimals (lines : List LineIn) : Prop :=
  (∀ l ∈ lines, l.debitAmount ∈ grid 4 ∧ l.creditAmount ∈ grid 4) ∧ lines.length < 10 ^ 9

/-- The checks of `post_journal_entry` let the lines through. -/
def Tables.Accepts (t : Tables) (p : PostIn) : Prop :=
  t.entry? p.idempotencyKey = none ∧ 2 ≤ p.lines.length ∧ totalDebit p.lines = totalCredit p.lines

instance (t : Tables) (p : PostIn) : Decidable (t.Accepts p) :=
  inferInstanceAs (Decidable (_ ∧ _ ∧ _))

/-- An entry that is accepted is evenly rounded. -/
def LedgerOp.Even (t : Tables) : LedgerOp → Prop
  | post p => t.Accepts p → EvenlyRounded p.lines
  | elsewhere _ => True

instance (t : Tables) (op : LedgerOp) : Decidable (op.Even t) := by
  unfold LedgerOp.Even
  split <;> infer_instance

/-! ## One entry -/

/-- The stored amounts are the rounded ones. -/
theorem stored_sums {lines : List LineIn} {rows : List JournalLine}
    (h : List.Forall₂ Stored lines rows) :
    (rows.map (·.debitAmount.val)).sum = ((lines.map (·.debitAmount)).map (roundAt 4)).sum ∧
    (rows.map (·.creditAmount.val)).sum = ((lines.map (·.creditAmount)).map (roundAt 4)).sum := by
  induction h with
  | nil => exact ⟨rfl, rfl⟩
  | cons hrow _ ih =>
    simp only [List.map_cons, List.sum_cons]
    rw [hrow.debitAmount, hrow.creditAmount, ih.1, ih.2]
    exact ⟨rfl, rfl⟩

/-- What was rounded off the two sides decides whether a posted entry balances. -/
theorem balanced_iff_evenlyRounded {lines : List LineIn} {e : JournalEntry}
    (hsums : totalDebit lines = totalCredit lines) (hst : List.Forall₂ Stored lines e.lines) :
    e.Balanced ↔ EvenlyRounded lines := by
  obtain ⟨hdebits, hcredits⟩ := stored_sums hst
  unfold JournalEntry.Balanced JournalEntry.debits JournalEntry.credits EvenlyRounded roundedOff
  unfold totalDebit totalCredit at hsums
  rw [hdebits, hcredits, hsums]
  constructor
  · intro h
    rw [h]
  · intro h
    linarith

/-- A stored amount fits the column and is not negative. -/
theorem Stored.bounds {l : LineIn} {row : JournalLine} (h : Stored l row) :
    (0 ≤ roundAt 4 l.debitAmount ∧ roundAt 4 l.debitAmount ≤ 10 ^ 15) ∧
    (0 ≤ roundAt 4 l.creditAmount ∧ roundAt 4 l.creditAmount ≤ 10 ^ 15) := by
  rw [← h.debitAmount, ← h.creditAmount]
  exact ⟨⟨h.nonneg.1, (le_abs_self _).trans row.debitAmount.fits.le⟩,
    h.nonneg.2, (le_abs_self _).trans row.creditAmount.fits.le⟩

/-- Nothing is rounded off amounts with four decimals. -/
theorem roundedOff_eq_zero {amounts : List ℚ} (hgrid : ∀ q ∈ amounts, q ∈ grid 4)
    (hbounds : ∀ q ∈ amounts, 0 ≤ roundAt 4 q ∧ roundAt 4 q ≤ 10 ^ 15)
    (hlength : amounts.length < 10 ^ 9) : roundedOff amounts = 0 := by
  have hround : amounts.map (roundAt 4) = amounts := by
    conv_rhs => rw [← List.map_id amounts]
    exact List.map_congr_left fun q hq => roundAt_of_mem (hgrid q hq)
  have hbounds' : ∀ q ∈ amounts, 0 ≤ q ∧ q ≤ 10 ^ 15 := by
    intro q hq
    have hq' := hbounds q hq
    rwa [roundAt_of_mem (hgrid q hq)] at hq'
  have htotal : amounts.sum ≤ amounts.length * 10 ^ 15 := by
    have hcard := List.sum_le_card_nsmul amounts _ fun q hq => (hbounds' q hq).2
    rwa [nsmul_eq_mul] at hcard
  have hfits : amounts.sum * 10 ^ 4 < 10 ^ 28 := by
    have hcast : (amounts.length : ℚ) < 10 ^ 9 := by exact_mod_cast hlength
    linarith
  have hsum : decimalSum amounts = amounts.sum :=
    sumInContext_of_mem hgrid (fun q hq => (hbounds' q hq).1) hfits
  rw [roundedOff, hsum, hround, sub_self]

theorem FourDecimals.evenlyRounded {lines : List LineIn} {rows : List JournalLine}
    (h : FourDecimals lines) (hst : List.Forall₂ Stored lines rows) : EvenlyRounded lines := by
  have hbounds : ∀ l ∈ lines, (0 ≤ roundAt 4 l.debitAmount ∧ roundAt 4 l.debitAmount ≤ 10 ^ 15) ∧
      (0 ≤ roundAt 4 l.creditAmount ∧ roundAt 4 l.creditAmount ≤ 10 ^ 15) := by
    intro l hl
    obtain ⟨row, -, hrow⟩ := forall₂_exists_left hst.flip hl
    exact hrow.bounds
  have hzero : ∀ f : LineIn → ℚ, (∀ l ∈ lines, f l ∈ grid 4) →
      (∀ l ∈ lines, 0 ≤ roundAt 4 (f l) ∧ roundAt 4 (f l) ≤ 10 ^ 15) →
      roundedOff (lines.map f) = 0 := by
    intro f hgrid hf
    apply roundedOff_eq_zero
    · intro q hq
      obtain ⟨l, hl, rfl⟩ := List.mem_map.mp hq
      exact hgrid l hl
    · intro q hq
      obtain ⟨l, hl, rfl⟩ := List.mem_map.mp hq
      exact hf l hl
    · rw [List.length_map]
      exact h.2
  unfold EvenlyRounded
  rw [hzero _ (fun l hl => (h.1 l hl).1) fun l hl => (hbounds l hl).1,
    hzero _ (fun l hl => (h.1 l hl).2) fun l hl => (hbounds l hl).2]

/-- What a call posts: its entry is balanced exactly when it is evenly rounded. -/
theorem PostIn.post_ok {p : PostIn} {t t' : Tables} {id : Uuid} (h : p.post t = .ok id t') :
    (t' = t ∧ t.entry? p.idempotencyKey ≠ none) ∨ (t.Accepts p ∧ ∃ e : JournalEntry,
      List.Forall₂ Stored p.lines e.lines ∧ t'.entries = t.entries ++ [e] ∧
      (e.Balanced ↔ EvenlyRounded p.lines)) := by
  cases hkey : t.entry? p.idempotencyKey with
  | some existing =>
    simp only [PostIn.post, postJournalEntry, get_bind_eq_ok, hkey, pure_eq_ok] at h
    exact .inl ⟨h.2.symm, Option.some_ne_none existing⟩
  | none =>
    have hlength : 2 ≤ p.lines.length := by
      simp only [PostIn.post, postJournalEntry, get_bind_eq_ok, hkey, require_bind_eq_ok] at h
      exact h.1
    have hposted := postJournalEntry_new (entry?_eq_none.mp hkey) h
    obtain ⟨e, -, hst, rfl⟩ := hposted.entry
    exact .inr ⟨⟨hkey, hlength, hposted.balanced⟩, e, hst, rfl,
      balanced_iff_evenlyRounded hposted.balanced hst⟩

/-! ## Runs -/

/-- One step keeps every entry balanced. -/
theorem LedgerOp.step_balanced {t : Tables} {op : LedgerOp} (h : ∀ e ∈ t.entries, e.Balanced)
    (hop : op.Even t) : ∀ e ∈ (op.step t).entries, e.Balanced := by
  cases op with
  | elsewhere data => exact h
  | post p =>
    show ∀ e ∈ (commit p.post t).entries, e.Balanced
    rcases commit_cases p.post t with ⟨id, t', hok, heq⟩ | heq
    · rw [heq]
      rcases PostIn.post_ok hok with ⟨rfl, -⟩ | ⟨haccepts, e, -, hentries, hiff⟩
      · exact h
      · rw [hentries]
        intro e' he'
        rcases List.mem_append.mp he' with he' | he'
        · exact h e' he'
        · rw [List.mem_singleton.mp he']
          exact hiff.mpr (hop haccepts)
    · rw [heq]
      exact h

/-- Balanced entries give balanced totals. -/
theorem totals_eq {t : Tables} (h : ∀ e ∈ t.entries, e.Balanced) :
    t.totalDebits = t.totalCredits := by
  unfold Tables.totalDebits Tables.totalCredits
  rw [List.map_congr_left h]

/-- An entry that is posted balances exactly when the columns round as much off its debits as off
its credits, as they do for amounts with four decimals; and in every run that posts only such
entries each entry is balanced and the totals of the ledger are equal. -/
theorem journal_balanced_iff (t : Tables) :
    (∀ (t' : Tables) (p : PostIn) (id : Uuid), t.entry? p.idempotencyKey = none →
      p.post t = .ok id t' → ∃ e : JournalEntry, t'.entries = t.entries ++ [e] ∧
        (e.Balanced ↔ EvenlyRounded p.lines) ∧
        (FourDecimals p.lines → EvenlyRounded p.lines)) ∧
    ∀ ops : List LedgerOp, (∀ e ∈ t.entries, e.Balanced) →
      Along LedgerOp.step (fun t op => op.Even t) t ops →
        (∀ e ∈ (run LedgerOp.step t ops).entries, e.Balanced) ∧
        (run LedgerOp.step t ops).totalDebits = (run LedgerOp.step t ops).totalCredits := by
  constructor
  · intro t' p id hkey hpost
    rcases PostIn.post_ok hpost with ⟨-, hused⟩ | ⟨-, e, hst, hentries, hiff⟩
    · exact absurd hkey hused
    · exact ⟨e, hentries, hiff, fun hfour => hfour.evenlyRounded hst⟩
  · intro ops hstart hops
    have hstep : ∀ (s : Tables) (op : LedgerOp), (∀ e ∈ s.entries, e.Balanced) → op.Even s →
        ∀ e ∈ (op.step s).entries, e.Balanced := fun _ _ hs hop => LedgerOp.step_balanced hs hop
    have hall : ∀ e ∈ (run LedgerOp.step t ops).entries, e.Balanced :=
      @run_invariant _ _ _ _ (fun s => ∀ e ∈ s.entries, e.Balanced) hstep _ _ hstart hops
    exact ⟨hall, totals_eq hall⟩

/-- Two accounts and no entry. -/
def ledgerTenant : Tables := { Tables.empty with accounts := [⟨1, "1000"⟩, ⟨2, "2000"⟩] }

/-- Two debits of an amount against one credit. -/
def splitDebit (debit credit : ℚ) (key : String) : PostIn :=
  ⟨"r", "d", 9, key, [⟨1, debit, 0, none, none, none⟩, ⟨1, debit, 0, none, none, none⟩,
    ⟨2, 0, credit, none, none, none⟩]⟩

/-- Amounts with four decimals, and two debits and a credit that are rounded up alike. -/
theorem journal_balanced_iff_twoEntries :
    (run LedgerOp.step ledgerTenant
      [.post (splitDebit (1 / 4) (1 / 2) "a"),
        .post (splitDebit (3 / 40000) (3 / 20000) "b")]).entries.length = 2 ∧
    (run LedgerOp.step ledgerTenant
      [.post (splitDebit (1 / 4) (1 / 2) "a"),
        .post (splitDebit (3 / 40000) (3 / 20000) "b")]).totalDebits
      = (run LedgerOp.step ledgerTenant
        [.post (splitDebit (1 / 4) (1 / 2) "a"),
          .post (splitDebit (3 / 40000) (3 / 20000) "b")]).totalCredits :=
  ⟨by decide +kernel, ((journal_balanced_iff ledgerTenant).2 _ nofun (by decide +kernel)).2⟩

/-- Debits of 0.00005 twice against a credit of 0.0001 are accepted and stored as 0.0002 against
0.0001. -/
theorem journal_unbalanced :
    (run LedgerOp.step ledgerTenant [.post (splitDebit (1 / 20000) (1 / 10000) "a")]).totalDebits
      = 1 / 5000 ∧
    (run LedgerOp.step ledgerTenant [.post (splitDebit (1 / 20000) (1 / 10000) "a")]).totalCredits
      = 1 / 10000 ∧
    ¬ ∀ (t t' : Tables) (p : PostIn) (id : Uuid), (∀ e ∈ t.entries, e.Balanced) →
      p.post t = .ok id t' → ∀ e ∈ t'.entries, e.Balanced := by
  refine ⟨by decide +kernel, by decide +kernel, ?_⟩
  intro hall
  have hok : (splitDebit (1 / 20000) (1 / 10000) "a").post ledgerTenant
      = .ok 0 (run LedgerOp.step ledgerTenant
        [.post (splitDebit (1 / 20000) (1 / 10000) "a")]) := by decide +kernel
  have hstart : ∀ e ∈ ledgerTenant.entries, e.Balanced := by decide
  have hbalanced := hall _ _ _ _ hstart hok
  exact absurd (totals_eq hbalanced) (by decide +kernel)

end SaccoPlatform
