import SaccoPlatform.Database
import SaccoPlatform.Lib.DecimalContext

/-!
# The general ledger

`LedgerService.post_journal_entry` (`app/modules/ledger/service.py`): an entry is found
again by its idempotency key, and otherwise posted when it has at least two lines and its
debits equal its credits. The amounts handed in are Python decimals, whose sum is rounded to 28
digits after every addition; the columns keep four decimals.

`subLedgerNet` is the query of the reconciliation task: debits minus credits of the lines
tagged with a loan on one account.
-/

namespace SaccoPlatform

open Lib Session

/-- One line handed to `post_journal_entry`. -/
structure LineIn where
  accountId : Uuid
  debitAmount : ℚ
  creditAmount : ℚ
  description : Option String
  subLedgerType : Option String
  subLedgerId : Option Uuid
deriving DecidableEq, Repr

/-- A debit line tagged with a loan. -/
def LineIn.loanDebit (accountId : Uuid) (amount : ℚ) (loanId : Uuid) : LineIn :=
  ⟨accountId, amount, 0, none, some "loan", some loanId⟩

/-- A credit line tagged with a loan. -/
def LineIn.loanCredit (accountId : Uuid) (amount : ℚ) (loanId : Uuid) : LineIn :=
  ⟨accountId, 0, amount, none, some "loan", some loanId⟩

/-- The line is tagged with the loan. -/
def LineIn.TaggedWith (loanId : Uuid) (l : LineIn) : Prop :=
  l.subLedgerType = some "loan" ∧ l.subLedgerId = some loanId

@[simp] theorem LineIn.loanDebit_tagged (accountId : Uuid) (amount : ℚ) (loanId : Uuid) :
    (LineIn.loanDebit accountId amount loanId).TaggedWith loanId := ⟨rfl, rfl⟩

@[simp] theorem LineIn.loanCredit_tagged (accountId : Uuid) (amount : ℚ) (loanId : Uuid) :
    (LineIn.loanCredit accountId amount loanId).TaggedWith loanId := ⟨rfl, rfl⟩

/-- Write one `journal_lines` row: `fk_jl_account`, and `ck_jl_amounts` (both amounts
non-negative, exactly one of them positive). -/
def storeLine (l : LineIn) : Call JournalLine := do
  let t ← get
  constraint (∃ a ∈ t.accounts, a.id = l.accountId) (.integrityError "fk_jl_account")
  let debit ← writeMoney l.debitAmount
  let credit ← writeMoney l.creditAmount
  constraint (0 ≤ debit.val ∧ 0 ≤ credit.val ∧ (0 < debit.val ∨ 0 < credit.val) ∧
      ¬ (0 < debit.val ∧ 0 < credit.val)) (.integrityError "ck_jl_amounts")
  pure ⟨l.accountId, debit, credit, l.description, l.subLedgerType, l.subLedgerId⟩

def storeLines : List LineIn → Call (List JournalLine)
  | [] => pure []
  | l :: ls => do
    let row ← storeLine l
    let rows ← storeLines ls
    pure (row :: rows)

/-- `sum(...)` over decimals. -/
def decimalSum (qs : List ℚ) : ℚ := sumInContext 28 qs

def totalDebit (lines : List LineIn) : ℚ := decimalSum (lines.map (·.debitAmount))

def totalCredit (lines : List LineIn) : ℚ := decimalSum (lines.map (·.creditAmount))

/-- `LedgerService.post_journal_entry`; returns the id of the entry. -/
def postJournalEntry (reference description : String) (postedBy : Uuid)
    (idempotencyKey : String) (lines : List LineIn) : Call Uuid := do
  let t ← get
  match t.entry? idempotencyKey with
  | some existing => pure existing.id
  | none =>
    require (2 ≤ lines.length) (.valueError "Journal entry must have at least 2 lines")
    require (totalDebit lines = totalCredit lines)
      (.valueError (s!"Journal entry is not balanced: debits={totalDebit lines}, " ++
        s!"credits={totalCredit lines}"))
    let id ← freshId
    let rows ← storeLines lines
    modify fun t => { t with
      entries := t.entries ++ [⟨id, reference, description, postedBy, idempotencyKey, rows⟩] }
    pure id

/-! ## Sub-ledger balances -/

/-- The line is tagged `('loan', loanId)` and posted on `account`. -/
def JournalLine.onLoan (loanId account : Uuid) (l : JournalLine) : Prop :=
  l.subLedgerType = some "loan" ∧ l.subLedgerId = some loanId ∧ l.accountId = account

instance (loanId account : Uuid) (l : JournalLine) : Decidable (l.onLoan loanId account) :=
  inferInstanceAs (Decidable (_ ∧ _ ∧ _))

/-- What a line adds to the loan's balance on `account`. -/
def JournalLine.net (loanId account : Uuid) (l : JournalLine) : ℚ :=
  if l.onLoan loanId account then l.debitAmount.val - l.creditAmount.val else 0

def JournalEntry.net (loanId account : Uuid) (e : JournalEntry) : ℚ :=
  (e.lines.map (JournalLine.net loanId account)).sum

/-- Debits minus credits of the lines tagged with the loan on `account`. -/
def Tables.subLedgerNet (t : Tables) (loanId account : Uuid) : ℚ :=
  (t.entries.map (JournalEntry.net loanId account)).sum

/-! ## What posting does -/

/-- A stored row keeps the account and the tags of its line and the rounded amounts. -/
structure Stored (l : LineIn) (row : JournalLine) : Prop where
  accountId : row.accountId = l.accountId
  debitAmount : row.debitAmount.val = roundAt 4 l.debitAmount
  creditAmount : row.creditAmount.val = roundAt 4 l.creditAmount
  subLedgerType : row.subLedgerType = l.subLedgerType
  subLedgerId : row.subLedgerId = l.subLedgerId
  positive : 0 < row.debitAmount.val ∨ 0 < row.creditAmount.val
  nonneg : 0 ≤ row.debitAmount.val ∧ 0 ≤ row.creditAmount.val

theorem storeLine_ok {l : LineIn} {t t' : Tables} {row : JournalLine}
    (h : storeLine l t = .ok row t') : t' = t ∧ Stored l row := by
  simp only [storeLine, get_bind_eq_ok, constraint_bind_eq_ok, writeMoney_bind_eq_ok,
    pure_eq_ok] at h
  obtain ⟨-, debit, hd, credit, hc, hck, rfl, rfl⟩ := h
  exact ⟨rfl, rfl, Numeric.val_of_ofRat? hd, Numeric.val_of_ofRat? hc, rfl, rfl, hck.2.2.1,
    hck.1, hck.2.1⟩

theorem storeLines_ok {ls : List LineIn} {t t' : Tables} {rows : List JournalLine}
    (h : storeLines ls t = .ok rows t') : t' = t ∧ List.Forall₂ Stored ls rows := by
  induction ls generalizing t rows with
  | nil =>
    simp only [storeLines, pure_eq_ok] at h
    obtain ⟨rfl, rfl⟩ := h
    exact ⟨rfl, .nil⟩
  | cons l ls ih =>
    simp only [storeLines, bind_eq_ok, pure_eq_ok] at h
    obtain ⟨row, t₁, hl, rows', t₂, hls, rfl, rfl⟩ := h
    obtain ⟨rfl, hrow⟩ := storeLine_ok hl
    obtain ⟨rfl, hrows⟩ := ih hls
    exact ⟨rfl, .cons hrow hrows⟩

/-- The ledger took a new entry with these lines under `key`. -/
structure Posted (key : String) (lines : List LineIn) (t t' : Tables) : Prop where
  fresh : t.entry? key = none
  balanced : totalDebit lines = totalCredit lines
  entry : ∃ e : JournalEntry, e.idempotencyKey = key ∧ List.Forall₂ Stored lines e.lines ∧
    t' = { t with nextId := t.nextId + 1, entries := t.entries ++ [e] }

/-- Posting either finds the entry of its key again and changes nothing, or posts it. -/
theorem postJournalEntry_ok {reference description key : String} {postedBy : Uuid}
    {lines : List LineIn} {t t' : Tables} {id : Uuid}
    (h : postJournalEntry reference description postedBy key lines t = .ok id t') :
    (t' = t ∧ ∃ e ∈ t.entries, e.idempotencyKey = key) ∨ Posted key lines t t' := by
  simp only [postJournalEntry, get_bind_eq_ok] at h
  cases hk : t.entry? key with
  | some existing =>
    simp only [hk, pure_eq_ok] at h
    obtain ⟨rfl, rfl⟩ := h
    have hkey : existing.idempotencyKey = key := by
      simpa using List.find?_some hk
    exact .inl ⟨rfl, existing, List.mem_of_find?_eq_some hk, hkey⟩
  | none =>
    simp only [hk, require_bind_eq_ok, freshId_bind_eq_ok] at h
    obtain ⟨-, hbal, h⟩ := h
    obtain ⟨rows, t₁, hrows, h⟩ := bind_eq_ok.mp h
    obtain ⟨rfl, hst⟩ := storeLines_ok hrows
    simp only [modify_bind_eq_ok, pure_eq_ok] at h
    obtain ⟨rfl, rfl⟩ := h
    exact .inr ⟨hk, hbal, _, rfl, hst, rfl⟩

/-- A key that is not in use is posted. -/
theorem postJournalEntry_new {reference description key : String} {postedBy : Uuid}
    {lines : List LineIn} {t t' : Tables} {id : Uuid}
    (hkey : ∀ e ∈ t.entries, e.idempotencyKey ≠ key)
    (h : postJournalEntry reference description postedBy key lines t = .ok id t') :
    Posted key lines t t' := by
  rcases postJournalEntry_ok h with ⟨-, e, he, heq⟩ | hposted
  · exact absurd heq (hkey e he)
  · exact hposted

/-- The entry that is posted under a key that is not in use. -/
theorem postJournalEntry_entry {reference description key : String} {postedBy : Uuid}
    {lines : List LineIn} {t t' : Tables} {id : Uuid} (hkey : t.entry? key = none)
    (h : postJournalEntry reference description postedBy key lines t = .ok id t') :
    ∃ e : JournalEntry, e.idempotencyKey = key ∧ e.reference = reference ∧
      List.Forall₂ Stored lines e.lines ∧ t'.entries = t.entries ++ [e] := by
  simp only [postJournalEntry, get_bind_eq_ok, hkey, require_bind_eq_ok,
    freshId_bind_eq_ok] at h
  obtain ⟨-, -, hstore⟩ := h
  obtain ⟨rows, t₁, hrows, hwrite⟩ := bind_eq_ok.mp hstore
  obtain ⟨rfl, hstored⟩ := storeLines_ok hrows
  simp only [modify_bind_eq_ok, pure_eq_ok] at hwrite
  obtain ⟨-, rfl⟩ := hwrite
  exact ⟨_, rfl, rfl, hstored, rfl⟩

theorem entry?_eq_none {t : Tables} {key : String} :
    t.entry? key = none ↔ ∀ e ∈ t.entries, e.idempotencyKey ≠ key := by
  simp [Tables.entry?]

theorem neverRaises_storeLine (l : LineIn) : NeverRaises (storeLine l) := by
  unfold storeLine
  apply neverRaises_bind neverRaises_get
  intro t
  apply neverRaises_bind (neverRaises_constraint _ _)
  intro _
  apply neverRaises_bind (neverRaises_writeMoney _)
  intro debit
  apply neverRaises_bind (neverRaises_writeMoney _)
  intro credit
  apply neverRaises_bind (neverRaises_constraint _ _)
  intro _
  exact neverRaises_pure _

theorem neverRaises_storeLines (ls : List LineIn) : NeverRaises (storeLines ls) := by
  induction ls with
  | nil => exact neverRaises_pure _
  | cons l ls ih =>
    apply neverRaises_bind (neverRaises_storeLine l)
    intro row
    apply neverRaises_bind ih
    intro rows
    exact neverRaises_pure _

/-- The ledger raises before it writes. -/
theorem raisesClean_postJournalEntry (reference description : String) (postedBy : Uuid)
    (key : String) (lines : List LineIn) :
    RaisesClean (postJournalEntry reference description postedBy key lines) := by
  unfold postJournalEntry
  apply raisesClean_get_bind
  intro t
  cases t.entry? key with
  | some existing => exact raisesClean_pure _
  | none =>
    apply raisesClean_require_bind
    intro _
    apply raisesClean_require_bind
    intro _
    apply NeverRaises.raisesClean
    apply neverRaises_bind neverRaises_freshId
    intro id
    apply neverRaises_bind (neverRaises_storeLines lines)
    intro rows
    apply neverRaises_bind (neverRaises_modify _)
    intro _
    exact neverRaises_pure _

/-! ## What posting adds to a balance -/

/-- An entry as it is handed to the ledger. -/
structure EntryIn where
  key : String
  lines : List LineIn
deriving DecidableEq, Repr

/-- The journal holds the entry as `e`. -/
structure EntryIn.StoredAs (p : EntryIn) (e : JournalEntry) : Prop where
  key : e.idempotencyKey = p.key
  balanced : totalDebit p.lines = totalCredit p.lines
  lines : List.Forall₂ Stored p.lines e.lines

/-- The journal grew by exactly these entries. -/
def Appends (ps : List EntryIn) (t t' : Tables) : Prop :=
  ∃ es, List.Forall₂ EntryIn.StoredAs ps es ∧ t'.entries = t.entries ++ es

theorem Posted.appends {key : String} {lines : List LineIn} {t t' : Tables}
    (h : Posted key lines t t') : Appends [⟨key, lines⟩] t t' := by
  obtain ⟨e, hkey, hst, rfl⟩ := h.entry
  exact ⟨[e], .cons ⟨hkey, h.balanced, hst⟩ .nil, rfl⟩

theorem appends_nil {t t' : Tables} (h : t'.entries = t.entries) : Appends [] t t' :=
  ⟨[], .nil, by rw [h, List.append_nil]⟩

theorem Appends.trans {ps qs : List EntryIn} {t t₁ t' : Tables} (h : Appends ps t t₁)
    (h' : Appends qs t₁ t') : Appends (ps ++ qs) t t' := by
  obtain ⟨es, hes, heq⟩ := h
  obtain ⟨es', hes', heq'⟩ := h'
  exact ⟨es ++ es', List.rel_append hes hes', by rw [heq', heq, List.append_assoc]⟩

/-- The line is tagged with the loan and goes to `account`. -/
def LineIn.OnLoan (loanId account : Uuid) (l : LineIn) : Prop :=
  l.subLedgerType = some "loan" ∧ l.subLedgerId = some loanId ∧ l.accountId = account

instance (loanId account : Uuid) (l : LineIn) : Decidable (l.OnLoan loanId account) :=
  inferInstanceAs (Decidable (_ ∧ _ ∧ _))

/-- What a line handed to the ledger adds to the loan's balance on `account`. -/
def LineIn.net (loanId account : Uuid) (l : LineIn) : ℚ :=
  if l.OnLoan loanId account then l.debitAmount - l.creditAmount else 0

def EntryIn.net (loanId account : Uuid) (p : EntryIn) : ℚ :=
  (p.lines.map (LineIn.net loanId account)).sum

/-- The amounts on the loan's account have four decimals. -/
def EntryIn.OnGrid (loanId account : Uuid) (p : EntryIn) : Prop :=
  ∀ l ∈ p.lines, l.OnLoan loanId account → l.debitAmount ∈ grid 4 ∧ l.creditAmount ∈ grid 4

/-- The line as the columns keep it. -/
def LineIn.round (l : LineIn) : LineIn :=
  { l with debitAmount := roundAt 4 l.debitAmount, creditAmount := roundAt 4 l.creditAmount }

def EntryIn.round (p : EntryIn) : EntryIn := { p with lines := p.lines.map LineIn.round }

theorem Stored.net_eq {l : LineIn} {row : JournalLine} (h : Stored l row) (loanId account : Uuid) :
    row.net loanId account = l.round.net loanId account := by
  have hiff : row.onLoan loanId account ↔ l.round.OnLoan loanId account := by
    unfold JournalLine.onLoan LineIn.OnLoan LineIn.round
    rw [h.accountId, h.subLedgerType, h.subLedgerId]
  unfold JournalLine.net LineIn.net
  by_cases hon : l.round.OnLoan loanId account
  · rw [if_pos (hiff.mpr hon), if_pos hon, h.debitAmount, h.creditAmount]
    rfl
  · rw [if_neg (mt hiff.mp hon), if_neg hon]

theorem EntryIn.StoredAs.net_eq {p : EntryIn} {e : JournalEntry} (h : p.StoredAs e)
    (loanId account : Uuid) : e.net loanId account = p.round.net loanId account := by
  have hlines := h.lines
  unfold JournalEntry.net EntryIn.net EntryIn.round
  generalize p.lines = lines at hlines
  generalize e.lines = rows at hlines
  induction hlines with
  | nil => rfl
  | cons hrow _ ih =>
    simp only [List.map_cons, List.sum_cons]
    rw [hrow.net_eq loanId account, ih]

/-- Amounts with four decimals reach the balance unrounded. -/
theorem EntryIn.OnGrid.net_round {p : EntryIn} {loanId account : Uuid}
    (h : p.OnGrid loanId account) : p.round.net loanId account = p.net loanId account := by
  unfold EntryIn.net EntryIn.round
  rw [List.map_map]
  apply congrArg List.sum
  apply List.map_congr_left
  intro l hl
  show l.round.net loanId account = l.net loanId account
  unfold LineIn.net
  by_cases hon : l.OnLoan loanId account
  · have hon' : l.round.OnLoan loanId account := hon
    rw [if_pos hon, if_pos hon']
    show roundAt 4 l.debitAmount - roundAt 4 l.creditAmount = _
    rw [roundAt_of_mem (h l hl hon).1, roundAt_of_mem (h l hl hon).2]
  · have hon' : ¬ l.round.OnLoan loanId account := hon
    rw [if_neg hon, if_neg hon']

/-- Posting moves a sub-ledger balance by the net of the lines as they are stored. -/
theorem Appends.subLedgerNet_round {ps : List EntryIn} {t t' : Tables} (h : Appends ps t t')
    (loanId account : Uuid) :
    t'.subLedgerNet loanId account = t.subLedgerNet loanId account
      + (ps.map fun p => p.round.net loanId account).sum := by
  obtain ⟨es, hes, heq⟩ := h
  have hsum : (es.map (JournalEntry.net loanId account)).sum
      = (ps.map fun p => p.round.net loanId account).sum := by
    clear heq
    induction hes with
    | nil => rfl
    | cons he _ ih =>
      simp only [List.map_cons, List.sum_cons]
      rw [he.net_eq loanId account, ih]
  unfold Tables.subLedgerNet
  rw [heq, List.map_append, List.sum_append, hsum]

/-- Posting amounts with four decimals moves a balance by the net of the posted lines. -/
theorem Appends.subLedgerNet_eq {ps : List EntryIn} {t t' : Tables} (h : Appends ps t t')
    {loanId account : Uuid} (hgrid : ∀ p ∈ ps, p.OnGrid loanId account) :
    t'.subLedgerNet loanId account
      = t.subLedgerNet loanId account + (ps.map (EntryIn.net loanId account)).sum := by
  have hmap : (ps.map fun p => p.round.net loanId account) = ps.map (EntryIn.net loanId account) :=
    List.map_congr_left fun p hp => (hgrid p hp).net_round
  rw [h.subLedgerNet_round, hmap]

/-! ### Lines of a loan -/

@[simp] theorem LineIn.onLoan_loanDebit (accountId : Uuid) (amount : ℚ) (loanId i a : Uuid) :
    (LineIn.loanDebit accountId amount loanId).OnLoan i a ↔ loanId = i ∧ accountId = a := by
  simp [LineIn.OnLoan, LineIn.loanDebit]

@[simp] theorem LineIn.onLoan_loanCredit (accountId : Uuid) (amount : ℚ) (loanId i a : Uuid) :
    (LineIn.loanCredit accountId amount loanId).OnLoan i a ↔ loanId = i ∧ accountId = a := by
  simp [LineIn.OnLoan, LineIn.loanCredit]

@[simp] theorem LineIn.net_loanDebit (accountId : Uuid) (amount : ℚ) (loanId i a : Uuid) :
    (LineIn.loanDebit accountId amount loanId).net i a
      = if loanId = i ∧ accountId = a then amount else 0 := by
  simp [LineIn.net, LineIn.OnLoan, LineIn.loanDebit]

@[simp] theorem LineIn.net_loanCredit (accountId : Uuid) (amount : ℚ) (loanId i a : Uuid) :
    (LineIn.loanCredit accountId amount loanId).net i a
      = if loanId = i ∧ accountId = a then -amount else 0 := by
  simp [LineIn.net, LineIn.OnLoan, LineIn.loanCredit]

@[simp] theorem LineIn.loanDebit_amounts (accountId : Uuid) (amount : ℚ) (loanId : Uuid) :
    (LineIn.loanDebit accountId amount loanId).debitAmount = amount ∧
      (LineIn.loanDebit accountId amount loanId).creditAmount = 0 := ⟨rfl, rfl⟩

@[simp] theorem LineIn.loanCredit_amounts (accountId : Uuid) (amount : ℚ) (loanId : Uuid) :
    (LineIn.loanCredit accountId amount loanId).debitAmount = 0 ∧
      (LineIn.loanCredit accountId amount loanId).creditAmount = amount := ⟨rfl, rfl⟩

@[simp] theorem LineIn.round_loanDebit (accountId : Uuid) (amount : ℚ) (loanId : Uuid) :
    (LineIn.loanDebit accountId amount loanId).round
      = .loanDebit accountId (roundAt 4 amount) loanId := by
  simp [LineIn.round, LineIn.loanDebit, roundAt_of_mem (zero_mem (grid 4))]

@[simp] theorem LineIn.round_loanCredit (accountId : Uuid) (amount : ℚ) (loanId : Uuid) :
    (LineIn.loanCredit accountId amount loanId).round
      = .loanCredit accountId (roundAt 4 amount) loanId := by
  simp [LineIn.round, LineIn.loanCredit, roundAt_of_mem (zero_mem (grid 4))]

/-- Lines tagged with one loan do not touch the balances of another. -/
theorem EntryIn.net_of_ne {p : EntryIn} {loanId i a : Uuid}
    (htag : ∀ line ∈ p.lines, line.TaggedWith loanId) (hne : loanId ≠ i) :
    p.net i a = 0 ∧ p.OnGrid i a := by
  have hoff : ∀ line ∈ p.lines, ¬ line.OnLoan i a := by
    intro line hline hon
    have h := (htag line hline).2.symm.trans hon.2.1
    exact hne (Option.some.inj h)
  refine ⟨?_, fun line hline hon => absurd hon (hoff line hline)⟩
  apply List.sum_eq_zero
  intro q hq
  obtain ⟨line, hline, rfl⟩ := List.mem_map.mp hq
  exact if_neg (hoff line hline)

/-- So posting them leaves those balances as they are. -/
theorem Appends.subLedgerNet_of_ne {ps : List EntryIn} {t t' : Tables} (h : Appends ps t t')
    {loanId i a : Uuid} (htag : ∀ p ∈ ps, ∀ line ∈ p.lines, line.TaggedWith loanId)
    (hne : loanId ≠ i) : t'.subLedgerNet i a = t.subLedgerNet i a := by
  rw [h.subLedgerNet_eq fun p hp => (EntryIn.net_of_ne (htag p hp) hne).2]
  have hzero : (ps.map (EntryIn.net i a)).sum = 0 := by
    apply List.sum_eq_zero
    intro q hq
    obtain ⟨p, hp, rfl⟩ := List.mem_map.mp hq
    exact (EntryIn.net_of_ne (htag p hp) hne).1
  rw [hzero, add_zero]

/-- Lines without a tag are on no loan's balance. -/
theorem subLedgerNet_untagged {t t' : Tables} {e : JournalEntry} {i a : Uuid}
    (huntagged : ∀ line ∈ e.lines, line.subLedgerType = none)
    (hentries : t'.entries = t.entries ++ [e]) : t'.subLedgerNet i a = t.subLedgerNet i a := by
  have hzero : e.net i a = 0 := by
    apply List.sum_eq_zero
    intro q hq
    obtain ⟨line, hline, rfl⟩ := List.mem_map.mp hq
    apply if_neg
    intro hon
    have htype := (huntagged line hline).symm.trans hon.1
    cases htype
  unfold Tables.subLedgerNet
  rw [hentries, List.map_append, List.sum_append, List.map_singleton, List.sum_singleton, hzero,
    add_zero]

/-- The ledger takes an amount from one account to another only if it is positive as stored. -/
theorem posted_pos {account other loanId : Uuid} {amount : ℚ} {key : String} {t t' : Tables}
    (h : Appends [⟨key, [.loanDebit account amount loanId, .loanCredit other amount loanId]⟩] t t') :
    0 < roundAt 4 amount := by
  obtain ⟨es, hes, -⟩ := h
  obtain ⟨e, _, hst, -⟩ := List.forall₂_cons_left_iff.mp hes
  obtain ⟨row, _, hrow, -⟩ := List.forall₂_cons_left_iff.mp hst.lines
  have hcredit : row.creditAmount.val = 0 := hrow.creditAmount.trans (roundAt_of_mem (zero_mem _))
  rcases hrow.positive with h | h
  · rwa [hrow.debitAmount] at h
  · exact absurd hcredit h.ne'

end SaccoPlatform
