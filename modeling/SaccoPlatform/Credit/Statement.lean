import SaccoPlatform.Credit.Posting
import SaccoPlatform.Ledger.Balance
import SaccoPlatform.Lib.DecimalText

/-!
# Loan statements

`LoanStatementService.get_statement` (`app/modules/credit/services/statement.py`) replays every
journal line that carries the tag of the loan, debits up and credits down, and adds the assessed fees.
But the operations tag both legs of their entries, so each entry adds to nothing and the running
balance ends at the fees alone. And the prefix `LOAN-REP` stands for the repayments, whose entries
are posted as `LOAN-RPY`.
-/

namespace SaccoPlatform

open Lib Session

/-- A `timestamptz` in UTC. -/
structure Timestamp where
  date : Date
  micros : ℕ

instance : LE Timestamp := ⟨fun a b => a.date < b.date ∨ a.date = b.date ∧ a.micros ≤ b.micros⟩

instance (a b : Timestamp) : Decidable (a ≤ b) := inferInstanceAs (Decidable (_ ∨ _ ∧ _))

/-- The columns `posted_at` of an entry and `assessed_at` of a fee assessment, by the id of the row. -/
structure Times where
  postedAt : Uuid → Timestamp
  assessedAt : Uuid → Timestamp

structure StatementLine where
  date : Date
  lineType : String
  description : String
  debit : ℚ
  credit : ℚ
  runningBalance : ℚ

/-- `_LINE_TYPE_MAP`. -/
def lineTypeMap : List (String × String) :=
  [("LOAN-DISB", "disbursement"), ("LOAN-INT", "interest_booked"), ("LOAN-ACC", "interest_accrual"),
    ("LOAN-REP", "repayment"), ("LOAN-WO", "write_off"), ("LOAN-REC", "recovery")]

/-- The type of the first prefix that the reference starts with. -/
def lineType (reference : String) : String :=
  match lineTypeMap.find? fun p => p.1.toList.isPrefixOf reference.toList with
  | some p => p.2
  | none => "other"

/-- `str(...)` of a value that was read from a `NUMERIC(19,4)` column. -/
def moneyText (m : Money) : String :=
  Decimal.str ⟨m.val < 0, (m.val * 10 ^ 4).num.natAbs, -4⟩

example : moneyText (money (25 / 2)) = "12.5000" := by decide +kernel

/-- `sub_ledger_type = 'loan' AND sub_ledger_id = loan_id`. -/
def JournalLine.TaggedWith (loanId : Uuid) (l : JournalLine) : Prop :=
  l.subLedgerType = some "loan" ∧ l.subLedgerId = some loanId

instance (loanId : Uuid) (l : JournalLine) : Decidable (l.TaggedWith loanId) :=
  inferInstanceAs (Decidable (_ ∧ _))

def FeeAssessment.OnLoan (loanId : Uuid) (a : FeeAssessment) : Prop :=
  a.targetType = "loan" ∧ a.targetId = loanId

instance (loanId : Uuid) (a : FeeAssessment) : Decidable (a.OnLoan loanId) :=
  inferInstanceAs (Decidable (_ ∧ _))

/-- How a journal line is reported, before the replay. -/
def journalStatementLine (times : Times) (e : JournalEntry) (l : JournalLine) : StatementLine where
  date := (times.postedAt e.id).date
  lineType := lineType e.reference
  description := e.description
  debit := l.debitAmount.val
  credit := l.creditAmount.val
  runningBalance := 0

/-- How a fee assessment is reported, before the replay. -/
def feeStatementLine (times : Times) (a : FeeAssessment) : StatementLine where
  date := (times.assessedAt a.id).date
  lineType := "penalty_assessed"
  description := s!"Fee assessed: {moneyText a.amount}"
  debit := a.amount.val
  credit := 0
  runningBalance := 0

/-- The journal lines of the loan with their entries. -/
def Tables.loanLines (t : Tables) (loanId : Uuid) : List (JournalEntry × JournalLine) :=
  t.entries.flatMap fun e => (e.lines.filter fun l => l.TaggedWith loanId).map fun l => (e, l)

def Tables.loanFees (t : Tables) (loanId : Uuid) : List FeeAssessment :=
  t.feeAssessments.filter fun a => a.OnLoan loanId

/-- The lines of both queries, in the order of the queries. -/
def rawLines (times : Times) (t : Tables) (loanId : Uuid) : List (Timestamp × StatementLine) :=
  let jlRows := (t.loanLines loanId).insertionSort
    fun a b => times.postedAt a.1.id ≤ times.postedAt b.1.id
  let feeRows := (t.loanFees loanId).insertionSort
    fun a b => times.assessedAt a.id ≤ times.assessedAt b.id
  jlRows.map (fun r => (times.postedAt r.1.id, journalStatementLine times r.1 r.2)) ++
    feeRows.map fun a => (times.assessedAt a.id, feeStatementLine times a)

/-- The running balance, line by line. The amounts have four decimals, so the sums of Python's decimals
are exact for the first 10^9 lines. -/
def replay : ℚ → List StatementLine → List StatementLine
  | _, [] => []
  | balance, line :: lines =>
    { line with runningBalance := balance + line.debit - line.credit } ::
      replay (balance + line.debit - line.credit) lines

/-- `LoanStatementService.get_statement`. -/
def getStatement (times : Times) (t : Tables) (loanId : Uuid) (fromDate toDate : Option Date) :
    List StatementLine :=
  let sorted := (rawLines times t loanId).insertionSort fun a b => a.1 ≤ b.1
  let allLines := replay 0 (sorted.map (·.2))
  let lines := allLines.filter fun line => ∀ d ∈ fromDate, d ≤ line.date
  lines.filter fun line => ∀ d ∈ toDate, line.date ≤ d

/-! ## The replay -/

def StatementLine.net (line : StatementLine) : ℚ := line.debit - line.credit

theorem replay_getLast {balance : ℚ} {lines : List StatementLine} (h : lines ≠ []) :
    ∃ last, (replay balance lines).getLast? = some last ∧
      last.runningBalance = balance + (lines.map StatementLine.net).sum := by
  induction lines generalizing balance with
  | nil => exact absurd rfl h
  | cons line lines ih =>
    cases lines with
    | nil =>
      refine ⟨_, rfl, ?_⟩
      show balance + line.debit - line.credit = balance + (line.net + 0)
      rw [StatementLine.net]
      ring
    | cons next lines =>
      obtain ⟨last, hlast, hbalance⟩ := @ih (balance + line.debit - line.credit) (by simp)
      refine ⟨last, ?_, ?_⟩
      · rw [replay, List.getLast?_cons, hlast]
        rfl
      · have hnet : line.net = line.debit - line.credit := rfl
        rw [hbalance, List.map_cons, List.sum_cons, List.map_cons, List.sum_cons, List.map_cons,
          List.sum_cons, hnet]
        ring

/-- What the tagged lines of the journal come to. -/
def Tables.loanNet (t : Tables) (loanId : Uuid) : ℚ :=
  ((t.loanLines loanId).map fun r => r.2.debitAmount.val - r.2.creditAmount.val).sum

/-- The fees assessed on the loan. -/
def Tables.assessedFees (t : Tables) (loanId : Uuid) : ℚ :=
  ((t.loanFees loanId).map fun a => a.amount.val).sum

theorem sum_rawLines (times : Times) (t : Tables) (loanId : Uuid) :
    ((rawLines times t loanId).map fun r => r.2.net).sum = t.loanNet loanId + t.assessedFees loanId := by
  unfold rawLines
  rw [List.map_append, List.sum_append, List.map_map, List.map_map]
  congr 1
  · have hperm := ((t.loanLines loanId).perm_insertionSort
      fun a b => times.postedAt a.1.id ≤ times.postedAt b.1.id).map
        fun r => r.2.debitAmount.val - r.2.creditAmount.val
    exact hperm.sum_eq
  · have hperm := ((t.loanFees loanId).perm_insertionSort
      fun a b => times.assessedAt a.id ≤ times.assessedAt b.id).map fun a => a.amount.val
    have hnet : (fun a => (feeStatementLine times a).net) = fun a => a.amount.val := by
      funext a
      exact sub_zero _
    show (List.map (fun a => (feeStatementLine times a).net) _).sum = _
    rw [hnet]
    exact hperm.sum_eq

/-- Without dates the last running balance is all lines and all fees, in whatever order. -/
theorem getStatement_last {times : Times} {t : Tables} {loanId : Uuid} (h : t.loanLines loanId ≠ []) :
    ∃ last, (getStatement times t loanId none none).getLast? = some last ∧
      last.runningBalance = t.loanNet loanId + t.assessedFees loanId := by
  have hall : getStatement times t loanId none none =
      replay 0 (((rawLines times t loanId).insertionSort fun a b => a.1 ≤ b.1).map (·.2)) := by
    simp [getStatement]
  have hperm := (rawLines times t loanId).perm_insertionSort fun a b => a.1 ≤ b.1
  have hsome : ((rawLines times t loanId).insertionSort fun a b => a.1 ≤ b.1).map (·.2) ≠ [] := by
    intro hnil
    rw [List.map_eq_nil_iff] at hnil
    rw [hnil] at hperm
    have hraw := hperm.symm.eq_nil
    unfold rawLines at hraw
    rw [List.append_eq_nil_iff, List.map_eq_nil_iff] at hraw
    have hlines := (t.loanLines loanId).perm_insertionSort
      fun a b => times.postedAt a.1.id ≤ times.postedAt b.1.id
    rw [hraw.1] at hlines
    exact h hlines.symm.eq_nil
  obtain ⟨last, hlast, hbalance⟩ := @replay_getLast 0 _ hsome
  refine ⟨last, hall ▸ hlast, ?_⟩
  have hsum := (hperm.map fun r => r.2.net).sum_eq
  rw [hbalance, zero_add, List.map_map, ← sum_rawLines times]
  exact hsum

/-! ## Entries of a loan -/

/-- Both legs carry the tag of the loan, and the stored amounts balance. -/
structure JournalEntry.OfLoan (e : JournalEntry) (loanId : Uuid) : Prop where
  tagged : ∀ line ∈ e.lines, line.TaggedWith loanId
  balanced : e.Balanced

/-- The entry belongs to no loan, or wholly to one. -/
def JournalEntry.Whole (e : JournalEntry) : Prop :=
  (∀ line ∈ e.lines, line.subLedgerType ≠ some "loan") ∨ ∃ loanId, e.OfLoan loanId

/-- An entry without lines of the loan adds nothing to its statement. -/
theorem untagged_net {e : JournalEntry} {loanId : Uuid} (h : ∀ line ∈ e.lines, ¬ line.TaggedWith loanId) :
    ((e.lines.filter fun l => l.TaggedWith loanId).map fun l =>
      l.debitAmount.val - l.creditAmount.val).sum = 0 := by
  have hnil : e.lines.filter (fun l => l.TaggedWith loanId) = [] := by
    rw [List.filter_eq_nil_iff]
    intro line hline
    simpa using h line hline
  rw [hnil]
  rfl

/-- An entry that belongs wholly to a loan adds nothing to any statement. -/
theorem JournalEntry.Whole.net {e : JournalEntry} (h : e.Whole) (loanId : Uuid) :
    ((e.lines.filter fun l => l.TaggedWith loanId).map fun l =>
      l.debitAmount.val - l.creditAmount.val).sum = 0 := by
  rcases h with huntagged | ⟨i, htagged, hbalanced⟩
  · exact untagged_net fun line hline htag => huntagged line hline htag.1
  · by_cases hid : i = loanId
    · subst hid
      have hall : e.lines.filter (fun l => l.TaggedWith i) = e.lines := by
        rw [List.filter_eq_self]
        intro line hline
        simpa using htagged line hline
      have hbal : (e.lines.map fun l => l.debitAmount.val).sum =
        (e.lines.map fun l => l.creditAmount.val).sum := hbalanced
      have hsplit : (e.lines.map fun l => l.debitAmount.val - l.creditAmount.val).sum =
          (e.lines.map fun l => l.debitAmount.val).sum - (e.lines.map fun l => l.creditAmount.val).sum := by
        generalize e.lines = lines
        induction lines with
        | nil => simp
        | cons l lines ih =>
          simp only [List.map_cons, List.sum_cons, ih]
          ring
      rw [hall, hsplit, hbal, sub_self]
    · apply untagged_net
      intro line hline htag
      exact hid (Option.some.inj ((htagged line hline).2.symm.trans htag.2))

theorem loanNet_eq_zero {t : Tables} {loanId : Uuid}
    (h : ∀ e ∈ t.entries, e.Whole ∨ ∀ line ∈ e.lines, ¬ line.TaggedWith loanId) : t.loanNet loanId = 0 := by
  unfold Tables.loanNet Tables.loanLines
  generalize t.entries = entries at h
  induction entries with
  | nil => rfl
  | cons e entries ih =>
    have hrest := ih fun e' he' => h e' (List.mem_cons_of_mem _ he')
    have hfirst : ((e.lines.filter fun l => l.TaggedWith loanId).map fun l =>
        l.debitAmount.val - l.creditAmount.val).sum = 0 := by
      rcases h e List.mem_cons_self with hwhole | hoff
      · exact hwhole.net loanId
      · exact untagged_net hoff
    rw [List.flatMap_cons, List.map_append, List.sum_append, hrest, List.map_map, add_zero]
    exact hfirst

/-- Two lines of one amount are stored as one amount. -/
theorem balanced_of_pair {e : JournalEntry} {key : String} {debitId creditId loanId : Uuid} {amount : ℚ}
    (h : EntryIn.StoredAs
      ⟨key, [.loanDebit debitId amount loanId, .loanCredit creditId amount loanId]⟩ e) : e.Balanced := by
  obtain ⟨hdebits, hcredits⟩ := stored_sums h.lines
  unfold JournalEntry.Balanced JournalEntry.debits JournalEntry.credits
  rw [hdebits, hcredits]
  simp [LineIn.loanDebit, LineIn.loanCredit, roundAt_of_mem (zero_mem (grid 4))]

theorem EntryIn.StoredAs.tagged {p : EntryIn} {e : JournalEntry} {loanId : Uuid} (h : p.StoredAs e)
    (htag : ∀ line ∈ p.lines, line.TaggedWith loanId) : ∀ line ∈ e.lines, line.TaggedWith loanId := by
  intro line hline
  obtain ⟨l, hl, hstored⟩ := forall₂_exists_left h.lines hline
  obtain ⟨htype, hid⟩ := htag l hl
  exact ⟨hstored.subLedgerType.trans htype, hstored.subLedgerId.trans hid⟩

/-- Every entry that a movement posts is wholly of its loan, and balances as it is stored. What a repayment
applies may have more decimals than its columns. -/
theorem Movement.entries_ofLoan {l : Loan} {m : Movement} {key : String}
    (hrepay : ∀ account amount, m ≠ .repay account amount) {p : EntryIn} (hp : p ∈ m.entries l key)
    {e : JournalEntry} (h : p.StoredAs e) : e.OfLoan l.id := by
  refine ⟨h.tagged (m.entries_tagged l key p hp), ?_⟩
  cases m with
  | repay account amount => exact absurd rfl (hrepay account amount)
  | writeOff loanLossId amount =>
    obtain rfl := List.mem_singleton.mp hp
    exact balanced_of_pair h
  | recover loanLossId amount =>
    obtain rfl := List.mem_singleton.mp hp
    exact balanced_of_pair h
  | accrue interest =>
    obtain rfl := List.mem_singleton.mp hp
    exact balanced_of_pair h
  | mark status => cases hp
  | assess amount => cases hp
  | collect amount => cases hp
  | reschedule => cases hp

theorem openingEntries_ofLoan {l : Loan} {account : Uuid} {booked : ℚ} {p : EntryIn}
    (hp : p ∈ openingEntries l account booked) {e : JournalEntry} (h : p.StoredAs e) : e.OfLoan l.id := by
  refine ⟨h.tagged (openingEntries_tagged l account booked p hp), ?_⟩
  unfold openingEntries at hp
  rcases List.mem_cons.mp hp with rfl | hp
  · exact balanced_of_pair h
  · split at hp
    · obtain rfl := List.mem_singleton.mp hp
      exact balanced_of_pair h
    · cases hp

/-! ## Runs -/

/-- Every loan has lines to report. -/
def StatementBooks (t : Tables) : Prop := ∀ l ∈ t.loans, t.loanLines l.id ≠ []

theorem mem_loanLines {t : Tables} {loanId : Uuid} {e : JournalEntry} {line : JournalLine} :
    (e, line) ∈ t.loanLines loanId ↔ e ∈ t.entries ∧ line ∈ e.lines ∧ line.TaggedWith loanId := by
  simp [Tables.loanLines]

/-- Lines stay in the statement. -/
theorem loanLines_ne_nil {t t' : Tables} {loanId : Uuid} (hsub : t.entries ⊆ t'.entries)
    (h : t.loanLines loanId ≠ []) : t'.loanLines loanId ≠ [] := by
  obtain ⟨⟨e, line⟩, hmem⟩ := List.exists_mem_of_ne_nil _ h
  obtain ⟨he, hline, htag⟩ := mem_loanLines.mp hmem
  exact List.ne_nil_of_mem (mem_loanLines.mpr ⟨hsub he, hline, htag⟩)

variable {ar : LienArithmetic} {P : Loan → Movement → Prop} {D : Loan → Uuid → ℚ → Prop}

theorem StatementBooks.move {t t' : Tables} (h : StatementBooks t) (hm : Move ar P D t t') :
    StatementBooks t' := by
  unfold StatementBooks at h ⊢
  cases hm with
  | change l row m key found _ enabled saved _ loans entries _ _ _ =>
    obtain ⟨hl, -⟩ := loan?_eq_some found
    obtain ⟨es, hes, heq⟩ := entries
    have hsub : t.entries ⊆ t'.entries := heq ▸ List.subset_append_left _ _
    intro r hr
    rw [loans] at hr
    rcases mem_putLoan hr with rfl | ⟨hr, -⟩
    · rw [saved.terms.id]
      exact loanLines_ne_nil hsub (h l hl)
    · exact loanLines_ne_nil hsub (h r hr)
  | opened l account booked _ opened _ _ loans entries _ _ =>
    obtain ⟨es, hes, heq⟩ := entries
    have hsub : t.entries ⊆ t'.entries := heq ▸ List.subset_append_left _ _
    intro r hr
    rw [loans] at hr
    rcases List.mem_append.mp hr with hr | hr
    · exact loanLines_ne_nil hsub (h r hr)
    · rw [List.mem_singleton.mp hr]
      -- the first line of the disbursement
      unfold openingEntries at hes
      obtain ⟨e, rest, hst, -, rfl⟩ := List.forall₂_cons_left_iff.mp hes
      have hlines := hst.lines
      obtain ⟨row, rows, hrow, -, hcons⟩ := List.forall₂_cons_left_iff.mp hlines
      have hmem : (e, row) ∈ t'.loanLines l.id := by
        refine mem_loanLines.mpr ⟨?_, ?_, hrow.subLedgerType, hrow.subLedgerId⟩
        · rw [heq]
          exact List.mem_append_right _ List.mem_cons_self
        · rw [hcons]
          exact List.mem_cons_self
      exact List.ne_nil_of_mem hmem
  | foreign e _ untagged _ loans entries _ _ =>
    have hsub : t.entries ⊆ t'.entries := entries ▸ List.subset_append_left _ _
    rw [loans]
    exact fun r hr => loanLines_ne_nil hsub (h r hr)
  | same _ loans entries _ _ =>
    rw [loans]
    exact fun r hr => loanLines_ne_nil (entries ▸ List.Subset.refl _) (h r hr)

theorem run_statementBooks (ar : LienArithmetic) {t : Tables} (hgenesis : t.Genesis) {ops : List CreditOp}
    (hops : Along (CreditOp.step ar) (fun _ op => op.ForeignKeys) t ops) :
    StatementBooks (run (CreditOp.step ar) t ops) := by
  have hstart : StatementBooks t := by
    unfold StatementBooks
    rw [hgenesis.loans]
    intro l hl
    cases hl
  have hboth := @run_invariant _ _ (CreditOp.step ar) _ (fun t => BooksOk t ∧ StatementBooks t)
    (fun t op h hop => ⟨h.1.step ar hop, step_keeps ar (fun _ _ hs hm => hs.move hm) (fun _ _ h => h)
      (fun _ _ _ h => h) h.1 hop h.2⟩) t ops ⟨hgenesis.booksOk, hstart⟩ hops
  exact hboth.2

/-- A move that is not a repayment adds whole entries only. -/
theorem whole_move {t t' : Tables} (hrepay : ∀ l m, P l m → ∀ account amount, m ≠ .repay account amount)
    (hm : Move ar P D t t') {e : JournalEntry} (he : e ∈ t'.entries) : e ∈ t.entries ∨ e.Whole := by
  cases hm with
  | change l row m key _ allowed _ _ _ _ entries _ _ _ =>
    obtain ⟨es, hes, heq⟩ := entries
    rw [heq] at he
    rcases List.mem_append.mp he with he | he
    · exact .inl he
    · obtain ⟨p, hp, hst⟩ := forall₂_exists_left hes he
      exact .inr (.inr ⟨l.id, m.entries_ofLoan (hrepay l m allowed) hp hst⟩)
  | opened l account booked _ _ _ _ _ entries _ _ =>
    obtain ⟨es, hes, heq⟩ := entries
    rw [heq] at he
    rcases List.mem_append.mp he with he | he
    · exact .inl he
    · obtain ⟨p, hp, hst⟩ := forall₂_exists_left hes he
      exact .inr (.inr ⟨l.id, openingEntries_ofLoan hp hst⟩)
  | foreign e' _ untagged _ _ entries _ _ =>
    rw [entries] at he
    rcases List.mem_append.mp he with he | he
    · exact .inl he
    · refine .inr (.inl ?_)
      rw [List.mem_singleton.mp he]
      intro line hline htype
      rw [untagged line hline] at htype
      cases htype
  | same _ _ entries _ _ => exact .inl (entries ▸ he)

/-! ## The statement of a loan -/

/-- The entries that the repayments of a history post. -/
def postedRepayments (ar : LienArithmetic) : Tables → List CreditOp → List JournalEntry
  | _, [] => []
  | t, .repay r :: ops =>
    ((CreditOp.repay r).step ar t).entries.drop t.entries.length ++
      postedRepayments ar ((CreditOp.repay r).step ar t) ops
  | t, op :: ops => postedRepayments ar (op.step ar t) ops

/-- A repayment posts at most one entry, under its own reference. -/
theorem repay_entries (ar : LienArithmetic) (t : Tables) (r : RepaymentIn) :
    ((CreditOp.repay r).step ar t).entries = t.entries ∨ ∃ e : JournalEntry,
      e.reference = s!"LOAN-RPY-{r.loanId}" ∧
        ((CreditOp.repay r).step ar t).entries = t.entries ++ [e] := by
  rcases commit_cases (applyRepayment ar r) t with ⟨id, t', hok, heq⟩ | heq
  · have hstep : (CreditOp.repay r).step ar t = t' := heq
    rw [hstep]
    rcases applyRepayment_ok hok with rfl | ⟨loan, row, entryId, t₁, -, -, -, hpost, hrec⟩
    · exact .inl rfl
    · rw [hrec.entries]
      cases hkey : t.entry? (creditKey .repayment r.idempotencyKey) with
      | some existing =>
        simp only [postJournalEntry, get_bind_eq_ok, hkey, pure_eq_ok] at hpost
        exact .inl (by rw [hpost.2])
      | none =>
        obtain ⟨e, -, href, -, hentries⟩ := postJournalEntry_entry hkey hpost
        exact .inr ⟨e, href, hentries⟩
  · exact .inl (congrArg Tables.entries heq)

theorem repay_reference (ar : LienArithmetic) (t : Tables) (r : RepaymentIn) {e : JournalEntry}
    (h : e ∈ ((CreditOp.repay r).step ar t).entries.drop t.entries.length) :
    e.reference = s!"LOAN-RPY-{r.loanId}" := by
  rcases repay_entries ar t r with hsame | ⟨e', href, hentries⟩
  · rw [hsame, List.drop_length] at h
    cases h
  · rw [hentries, List.drop_left, List.mem_singleton] at h
    rw [h, href]

/-- Every entry of a run was there, or is whole, or was posted by a repayment. -/
theorem run_entries (ar : LienArithmetic) {t : Tables} (hbooks : BooksOk t) {ops : List CreditOp}
    (hops : Along (CreditOp.step ar) (fun _ op => op.ForeignKeys) t ops) {e : JournalEntry}
    (he : e ∈ (run (CreditOp.step ar) t ops).entries) :
    e ∈ t.entries ∨ e.Whole ∨ e ∈ postedRepayments ar t ops := by
  induction ops generalizing t with
  | nil => exact .inl he
  | cons op ops ih =>
    have hrest := ih (hbooks.step ar hops.1) hops.2 he
    by_cases hrepay : ∃ r, op = .repay r
    · obtain ⟨r, rfl⟩ := hrepay
      rcases hrest with he | he | he
      · rcases repay_entries ar t r with hsame | ⟨e', -, hentries⟩
        · exact .inl (hsame ▸ he)
        · have hdrop : ((CreditOp.repay r).step ar t).entries.drop t.entries.length = [e'] := by
            rw [hentries, List.drop_left]
          rw [hentries] at he
          rcases List.mem_append.mp he with he | he
          · exact .inl he
          · exact .inr (.inr (List.mem_append_left _ (hdrop ▸ he)))
      · exact .inr (.inl he)
      · exact .inr (.inr (List.mem_append_right _ he))
    · have hstep : ∀ e ∈ (op.step ar t).entries, e ∈ t.entries ∨ e.Whole := by
        apply @step_keeps (fun _ m => ∀ account amount, m ≠ .repay account amount) (op.Opens t) ar
          (fun t' => ∀ e ∈ t'.entries, e ∈ t.entries ∨ e.Whole)
        · intro t₁ t₂ hinv hm e he
          rcases whole_move (fun _ _ h => h) hm he with he | he
          · exact hinv e he
          · exact .inr he
        · intro l m hallows account amount heq
          obtain ⟨r, hr, -⟩ := CreditOp.Allows.repay (heq ▸ hallows)
          exact hrepay ⟨r, hr⟩
        · exact fun _ _ _ h => h
        · exact hbooks
        · exact hops.1
        · exact fun e he => .inl he
      have hposted : postedRepayments ar t (op :: ops) = postedRepayments ar (op.step ar t) ops := by
        cases op with
        | repay r => exact absurd ⟨r, rfl⟩ hrepay
        | _ => rfl
      rw [hposted]
      rcases hrest with he | he | he
      · rcases hstep e he with he | he
        · exact .inl he
        · exact .inr (.inl he)
      · exact .inr (.inl he)
      · exact .inr (.inr he)

/-- No prefix of the map is one of `LOAN-RPY`. -/
theorem lineType_repayment (loanId : Uuid) : lineType s!"LOAN-RPY-{loanId}" = "other" := by
  have hchars : (s!"LOAN-RPY-{loanId}").toList =
      'L' :: 'O' :: 'A' :: 'N' :: '-' :: 'R' :: 'P' :: 'Y' :: '-' :: (toString loanId).toList := by
    show ("LOAN-RPY-" ++ toString loanId).toList = _
    rw [String.toList_append]
    rfl
  unfold lineType
  rw [hchars]
  simp [lineTypeMap, List.isPrefixOf]

theorem lineType_postedRepayments (ar : LienArithmetic) {t : Tables} {ops : List CreditOp}
    {e : JournalEntry} (h : e ∈ postedRepayments ar t ops) : lineType e.reference = "other" := by
  induction ops generalizing t with
  | nil => cases h
  | cons op ops ih =>
    cases op with
    | repay r =>
      rcases List.mem_append.mp h with h | h
      · rw [repay_reference ar t r h]
        exact lineType_repayment r.loanId
      · exact ih h
    | _ => exact ih h

/-- What the member owes on the loan: the principal, the interest receivable and the fees. -/
def Tables.owed (t : Tables) (l : Loan) : ℚ :=
  l.outstandingPrincipal.val + t.subLedgerNet l.id l.glInterestReceivableId + t.assessedFees l.id

/-- The statement of the loan ends with what is owed, and names the repayments among `posted`. -/
structure StatementRight (times : Times) (t : Tables) (l : Loan) (posted : List JournalEntry) : Prop where
  balance : ∃ last, (getStatement times t l.id none none).getLast? = some last ∧
    last.runningBalance = t.owed l
  types : ∀ e ∈ posted, ∀ line ∈ e.lines, line.TaggedWith l.id →
    (journalStatementLine times e line).lineType = "repayment"

/-- The statement is right for a loan that owes neither principal nor interest and was never repaid, and
for no other. -/
theorem statement_right_iff (ar : LienArithmetic) (times : Times) {t : Tables} (hgenesis : t.Genesis)
    {ops : List CreditOp} (hops : Along (CreditOp.step ar) (fun _ op => op.ForeignKeys) t ops)
    (fees : List FeeAssessment) {l : Loan} (hl : l ∈ (run (CreditOp.step ar) t ops).loans) :
    StatementRight times { run (CreditOp.step ar) t ops with feeAssessments := fees } l
        (postedRepayments ar t ops) ↔
      l.outstandingPrincipal.val +
          (run (CreditOp.step ar) t ops).subLedgerNet l.id l.glInterestReceivableId = 0 ∧
        ∀ e ∈ postedRepayments ar t ops, ∀ line ∈ e.lines, ¬ line.TaggedWith l.id := by
  have hbooks := run_statementBooks ar hgenesis hops
  have hentries : ∀ e ∈ (run (CreditOp.step ar) t ops).entries, e.Whole ∨ e ∈ postedRepayments ar t ops := by
    intro e he
    rcases run_entries ar hgenesis.booksOk hops he with he | he
    · exact .inl (.inl (hgenesis.untagged e he))
    · exact he
  set t' := run (CreditOp.step ar) t ops with ht'
  have hlines : { t' with feeAssessments := fees }.loanLines l.id ≠ [] := hbooks l hl
  obtain ⟨last, hlast, hbalance⟩ := @getStatement_last times _ _ hlines
  have howed : { t' with feeAssessments := fees }.owed l = l.outstandingPrincipal.val +
      t'.subLedgerNet l.id l.glInterestReceivableId +
        { t' with feeAssessments := fees }.assessedFees l.id := rfl
  -- without a repayment the lines of the loan come to nothing
  have hnet : (∀ e ∈ postedRepayments ar t ops, ∀ line ∈ e.lines, ¬ line.TaggedWith l.id) →
      { t' with feeAssessments := fees }.loanNet l.id = 0 := by
    intro hnone
    apply loanNet_eq_zero
    intro e he
    rcases hentries e he with hwhole | hposted
    · exact .inl hwhole
    · exact .inr (hnone e hposted)
  constructor
  · intro h
    have hnone : ∀ e ∈ postedRepayments ar t ops, ∀ line ∈ e.lines, ¬ line.TaggedWith l.id := by
      intro e he line hline htag
      have htype : lineType e.reference = "repayment" := h.types e he line hline htag
      rw [lineType_postedRepayments ar he] at htype
      exact absurd htype (by decide)
    obtain ⟨last', hlast', hbalance'⟩ := h.balance
    have heq : last' = last := Option.some.inj (hlast'.symm.trans hlast)
    rw [heq, hbalance, hnet hnone, zero_add, howed] at hbalance'
    exact ⟨by linarith, hnone⟩
  · intro ⟨hzero, hnone⟩
    refine ⟨⟨last, hlast, ?_⟩, ?_⟩
    · rw [hbalance, hnet hnone, howed, hzero]
    · intro e he line hline htag
      exact absurd htag (hnone e he line hline)

/-- All rows were written on the day of the sample loan. -/
def sampleTimes : Times := ⟨fun _ => ⟨sampleDay, 0⟩, fun _ => ⟨sampleDay, 0⟩⟩

/-- The sample loan is written off whole. -/
def wholeWriteOffRun : List CreditOp :=
  [sampleDisbursement, .executeWriteOff ⟨some 11, some 1000, some "bad", some "w1", none⟩]

theorem statement_right_wholeWriteOffRun :
    (run (CreditOp.step .python) (sampleTenant .reducingBalance) wholeWriteOffRun).loans.map (·.status) =
        [.writtenOff] ∧
      ∀ l ∈ (run (CreditOp.step .python) (sampleTenant .reducingBalance) wholeWriteOffRun).loans,
        StatementRight sampleTimes
          { run (CreditOp.step .python) (sampleTenant .reducingBalance) wholeWriteOffRun with
            feeAssessments := [] } l
          (postedRepayments .python (sampleTenant .reducingBalance) wholeWriteOffRun) := by
  have hops : Along (CreditOp.step .python) (fun _ op => op.ForeignKeys) (sampleTenant .reducingBalance)
      wholeWriteOffRun := by decide +kernel
  have hnothing : ∀ l ∈ (run (CreditOp.step .python) (sampleTenant .reducingBalance) wholeWriteOffRun).loans,
      l.outstandingPrincipal.val + (run (CreditOp.step .python) (sampleTenant .reducingBalance)
        wholeWriteOffRun).subLedgerNet l.id l.glInterestReceivableId = 0 := by decide +kernel
  refine ⟨by decide +kernel, ?_⟩
  intro l hl
  refine (statement_right_iff .python sampleTimes (genesis_sampleTenant _) hops [] hl).mpr ⟨hnothing l hl, ?_⟩
  intro e he
  cases he

/-- A loan of 1000 is disbursed, and 400 of it are repaid. -/
def partlyRepaidRun : List CreditOp :=
  [sampleDisbursement, .repay (sampleRepayment 400 "r1")]

/-- The statement of the loan ends at nothing, while 600 are owed, and both lines of the repayment are
reported as `other`. -/
theorem statement_wrong_partlyRepaidRun :
    (sampleTenant .reducingBalance).Genesis ∧
      ∃ l ∈ (run (CreditOp.step .python) (sampleTenant .reducingBalance) partlyRepaidRun).loans,
        (run (CreditOp.step .python) (sampleTenant .reducingBalance) partlyRepaidRun).owed l = 600 ∧
        (getStatement sampleTimes
          (run (CreditOp.step .python) (sampleTenant .reducingBalance) partlyRepaidRun) l.id none none).map
            (fun line => (line.lineType, line.debit, line.credit, line.runningBalance)) =
          [("disbursement", 1000, 0, 1000), ("disbursement", 0, 1000, 0), ("other", 400, 0, 400),
            ("other", 0, 400, 0)] ∧
        ¬ StatementRight sampleTimes
          (run (CreditOp.step .python) (sampleTenant .reducingBalance) partlyRepaidRun) l
          (postedRepayments .python (sampleTenant .reducingBalance) partlyRepaidRun) := by
  have hrun : ∃ l ∈ (run (CreditOp.step .python) (sampleTenant .reducingBalance) partlyRepaidRun).loans,
      (run (CreditOp.step .python) (sampleTenant .reducingBalance) partlyRepaidRun).owed l = 600 ∧
      (getStatement sampleTimes
        (run (CreditOp.step .python) (sampleTenant .reducingBalance) partlyRepaidRun) l.id none none).map
          (fun line => (line.lineType, line.debit, line.credit, line.runningBalance)) =
        [("disbursement", 1000, 0, 1000), ("disbursement", 0, 1000, 0), ("other", 400, 0, 400),
          ("other", 0, 400, 0)] := by
    decide +kernel
  obtain ⟨l, hl, howed, hstatement⟩ := hrun
  refine ⟨genesis_sampleTenant _, l, hl, howed, hstatement, ?_⟩
  intro h
  obtain ⟨last, hlast, hbalance⟩ := h.balance
  have hmapped := congrArg List.getLast? hstatement
  rw [List.getLast?_map, hlast] at hmapped
  have hzero : last.runningBalance = 0 := by
    have hline := Option.some.inj hmapped
    exact congrArg (fun line => line.2.2.2) hline
  rw [hzero, howed] at hbalance
  exact absurd hbalance (by norm_num)

end SaccoPlatform
