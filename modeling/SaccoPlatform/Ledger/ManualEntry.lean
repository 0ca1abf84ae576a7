import SaccoPlatform.Credit.Posting
import SaccoPlatform.Lib.DecimalText
import SaccoPlatform.Lib.Uuid
import SaccoPlatform.MakerChecker.Approvals
import SaccoPlatform.MakerChecker.Registry

/-!
# Manual entries

`LedgerService.submit_manual_entry` writes an entry into the payload of an approval request, all
values as text, and the executor of the request reads it back and posts it. Amounts, accounts and
descriptions come back as they were. The tags of the sub-ledger are in the payload, but the executor
does not read them.
-/

namespace SaccoPlatform

open Lib Session

/-- A line as the callers of the service hand it over. -/
structure ManualLine where
  accountId : UUID
  debitAmount : Decimal
  creditAmount : Decimal
  description : Option String
  subLedgerType : Option String
  subLedgerId : Option UUID
deriving DecidableEq

/-- The arguments of `submit_manual_entry`. -/
structure ManualEntryIn where
  reference : String
  description : String
  submittedBy : UUID
  idempotencyKey : String
  lines : List ManualLine
deriving DecidableEq

/-- A line of the payload. -/
structure ManualPayloadLine where
  accountId : String
  debitAmount : String
  creditAmount : String
  description : Option String
  subLedgerType : Option String
  subLedgerId : Option String
deriving DecidableEq

/-- The payload of the request. -/
structure ManualPayload where
  reference : String
  description : String
  postedBy : String
  idempotencyKey : String
  lines : List ManualPayloadLine
deriving DecidableEq

/-! ## The maker -/

/-- `uuid.UUID(text)`. -/
def readUuid (text : String) : Except Err UUID :=
  match UUID.parse? text with
  | some id => .ok id
  | none => .error (.valueError "badly formed hexadecimal UUID string")

/-- `Decimal(text)`. -/
def readDecimal (text : String) : Except Err Decimal :=
  match Decimal.parse? text with
  | some d => .ok d
  | none => .error .decimalError

def ManualLine.payload (l : ManualLine) : ManualPayloadLine :=
  ⟨l.accountId.str, l.debitAmount.str, l.creditAmount.str, l.description, l.subLedgerType,
    l.subLedgerId.map UUID.str⟩

def ManualEntryIn.payload (m : ManualEntryIn) : ManualPayload :=
  ⟨m.reference, m.description, m.submittedBy.str, m.idempotencyKey, m.lines.map ManualLine.payload⟩

/-- `submit_manual_entry`; returns the id of the request. -/
def submitManualEntry (hooks : ApprovalHooks Tables ManualPayload) (m : ManualEntryIn) :
    Session (ApprovalDb Tables ManualPayload) Err Uuid := do
  let debits ← ofExcept (m.lines.mapM fun l => readDecimal l.debitAmount.str)
  let credits ← ofExcept (m.lines.mapM fun l => readDecimal l.creditAmount.str)
  let debit := decimalSum (debits.map Decimal.value)
  let credit := decimalSum (credits.map Decimal.value)
  require (debit = credit)
    (.valueError s!"Journal entry is not balanced: debits={debit}, credits={credit}")
  require (2 ≤ m.lines.length) (.valueError "Journal entry must have at least 2 lines")
  submit hooks ⟨.ok m.payload, m.submittedBy.int, 1, none⟩

/-! ## The executor -/

/-- What `execute_post_journal_entry` reads of a line. -/
def ManualPayloadLine.read (l : ManualPayloadLine) : Except Err PayloadLine := do
  let accountId ← readUuid l.accountId
  let debitAmount ← readDecimal l.debitAmount
  let creditAmount ← readDecimal l.creditAmount
  pure ⟨accountId.int, debitAmount.value, creditAmount.value, l.description⟩

/-- `execute_post_journal_entry`, on the payload as it is stored. -/
def executeManualEntry (payload : ManualPayload) : Call Unit := do
  let lines ← ofExcept (payload.lines.mapM ManualPayloadLine.read)
  let postedBy ← ofExcept (readUuid payload.postedBy)
  executePostJournalEntry ⟨some lines, some payload.reference, some payload.description,
    some postedBy.int, some payload.idempotencyKey⟩

/-! ## Posting at once -/

def readSubLedgerId : Option UUID → Except Err (Option UUID)
  | none => pure none
  | some id => some <$> readUuid id.str

/-- What `post_journal_entry` reads of a line: it writes the values as text, too. -/
def ManualLine.read (l : ManualLine) : Except Err LineIn := do
  let accountId ← readUuid l.accountId.str
  let debitAmount ← readDecimal l.debitAmount.str
  let creditAmount ← readDecimal l.creditAmount.str
  let subLedgerId ← readSubLedgerId l.subLedgerId
  pure ⟨accountId.int, debitAmount.value, creditAmount.value, l.description, l.subLedgerType,
    subLedgerId.map UUID.int⟩

/-- `post_journal_entry`, for the same arguments. -/
def postManualEntry (m : ManualEntryIn) : Call Uuid := do
  let lines ← ofExcept (m.lines.mapM ManualLine.read)
  postJournalEntry m.reference m.description m.submittedBy.int m.idempotencyKey lines

/-! ## Round trips -/

theorem readUuid_str (id : UUID) : readUuid id.str = .ok id := by
  rw [readUuid, UUID.parse?_str]

theorem readDecimal_str (d : Decimal) : readDecimal d.str = .ok d := by
  rw [readDecimal, Decimal.parse?_str]

/-- The line with its values. -/
def ManualLine.line (l : ManualLine) : LineIn :=
  ⟨l.accountId.int, l.debitAmount.value, l.creditAmount.value, l.description, l.subLedgerType,
    l.subLedgerId.map UUID.int⟩

theorem readSubLedgerId_eq (id : Option UUID) : readSubLedgerId id = .ok id := by
  cases id with
  | none => rfl
  | some id =>
    rw [readSubLedgerId, readUuid_str]
    rfl

theorem ManualLine.read_eq (l : ManualLine) : l.read = .ok l.line := by
  rw [ManualLine.read, readUuid_str, readDecimal_str, readDecimal_str, readSubLedgerId_eq]
  rfl

/-- The line without the tags of the sub-ledger. -/
def LineIn.untagged (l : LineIn) : LineIn := { l with subLedgerType := none, subLedgerId := none }

/-- What the executor makes of the line. -/
def ManualLine.payloadLine (l : ManualLine) : PayloadLine :=
  ⟨l.accountId.int, l.debitAmount.value, l.creditAmount.value, l.description⟩

theorem ManualLine.payload_read (l : ManualLine) : l.payload.read = .ok l.payloadLine := by
  rw [ManualPayloadLine.read, ManualLine.payload, readUuid_str, readDecimal_str, readDecimal_str]
  rfl

/-- A loop whose rounds all return. -/
theorem mapM_ok {α β ε : Type} {f : α → Except ε β} {g : α → β} (h : ∀ a, f a = .ok (g a)) (as : List α) :
    as.mapM f = .ok (as.map g) := by
  have hf : f = fun a => pure (g a) := funext h
  rw [hf, List.mapM_pure]
  rfl

theorem postManualEntry_eq (m : ManualEntryIn) :
    postManualEntry m = postJournalEntry m.reference m.description m.submittedBy.int m.idempotencyKey
      (m.lines.map ManualLine.line) := by
  rw [postManualEntry, mapM_ok ManualLine.read_eq]
  rfl

/-- The executor posts the entry without the tags. -/
theorem executeManualEntry_eq (m : ManualEntryIn) :
    executeManualEntry m.payload = (postJournalEntry m.reference m.description m.submittedBy.int
      m.idempotencyKey ((m.lines.map ManualLine.line).map LineIn.untagged) >>= fun _ => pure ()) := by
  have hlines : m.payload.lines.mapM ManualPayloadLine.read = .ok (m.lines.map ManualLine.payloadLine) := by
    rw [ManualEntryIn.payload, List.mapM_map]
    exact mapM_ok ManualLine.payload_read m.lines
  have htagless : (m.lines.map ManualLine.payloadLine).map PayloadLine.line =
      (m.lines.map ManualLine.line).map LineIn.untagged := by
    rw [List.map_map, List.map_map]
    rfl
  have hposted : readUuid m.payload.postedBy = .ok m.submittedBy := readUuid_str m.submittedBy
  rw [executeManualEntry, hlines, hposted, ← htagless]
  rfl

/-! ## Rows without tags -/

def JournalLine.untagged (l : JournalLine) : JournalLine :=
  { l with subLedgerType := none, subLedgerId := none }

theorem bind_bind {σ ε α β γ : Type} (x : Session σ ε α) (f : α → Session σ ε β)
    (g : β → Session σ ε γ) : (x >>= f) >>= g = x >>= fun a => f a >>= g := by
  funext s
  rw [bind_apply, bind_apply, bind_apply]
  cases x s with
  | ok a s' => rfl
  | raised e s' => rfl
  | aborted e => rfl

theorem storeLine_untagged (l : LineIn) :
    storeLine l.untagged = storeLine l >>= fun row => pure row.untagged := by
  unfold storeLine
  simp only [bind_bind]
  rfl

theorem storeLines_untagged (ls : List LineIn) :
    storeLines (ls.map LineIn.untagged) =
      storeLines ls >>= fun rows => pure (rows.map JournalLine.untagged) := by
  induction ls with
  | nil => rfl
  | cons l ls ih =>
    rw [List.map_cons, storeLines, storeLines, storeLine_untagged, ih]
    simp only [bind_bind]
    rfl

theorem storable_of_storeLine {l : LineIn} {t t' : Tables} {row : JournalLine}
    (h : storeLine l t = .ok row t') : l.Storable t := by
  simp only [storeLine, get_bind_eq_ok, constraint_bind_eq_ok, writeMoney_bind_eq_ok, pure_eq_ok] at h
  obtain ⟨haccount, debit, hdebit, credit, hcredit, hcheck, -⟩ := h
  have hd := Numeric.val_of_ofRat? hdebit
  have hc := Numeric.val_of_ofRat? hcredit
  refine ⟨haccount, hd ▸ debit.fits, hc ▸ credit.fits, ?_⟩
  rw [hd, hc] at hcheck
  exact hcheck

theorem storable_of_storeLines {ls : List LineIn} {t t' : Tables} {rows : List JournalLine}
    (h : storeLines ls t = .ok rows t') : ∀ l ∈ ls, l.Storable t := by
  induction ls generalizing t rows with
  | nil => exact nofun
  | cons l ls ih =>
    obtain ⟨row, t₁, hrow, hrest⟩ := bind_eq_ok.mp h
    obtain ⟨rows', t₂, hrows, hpure⟩ := bind_eq_ok.mp hrest
    obtain ⟨rfl, -⟩ := storeLine_ok hrow
    intro l' hl'
    rcases List.mem_cons.mp hl' with rfl | hl'
    · exact storable_of_storeLine hrow
    · exact ih (hrows.trans (by rw [(pure_eq_ok.mp hpure).2])) l' hl'

/-- An entry that passes the checks of the service is posted once its lines are stored. -/
theorem postJournalEntry_stored {reference description key : String} {postedBy : Uuid}
    {lines : List LineIn} {t : Tables} (hkey : t.entry? key = none) (htwo : 2 ≤ lines.length)
    (hbalanced : totalDebit lines = totalCredit lines) :
    postJournalEntry reference description postedBy key lines t =
      (storeLines lines >>= fun rows => modify (fun t' => { t' with
        entries := t'.entries ++ [⟨t.nextId, reference, description, postedBy, key, rows⟩] }) >>=
          fun _ => pure t.nextId) { t with nextId := t.nextId + 1 } := by
  unfold postJournalEntry
  rw [bind_apply, get_apply]
  simp only [hkey]
  rw [bind_apply, require, if_pos htwo, pure_apply]
  simp only []
  rw [bind_apply, require, if_pos hbalanced, pure_apply]
  rfl

/-! ## What the approval posts -/

/-- The line carries no tag. -/
def ManualLine.Untagged (l : ManualLine) : Prop := l.subLedgerType = none ∧ l.subLedgerId = none

theorem ManualLine.Untagged.line_eq {l : ManualLine} (h : l.Untagged) : l.line.untagged = l.line := by
  rw [ManualLine.line, LineIn.untagged, h.1, h.2]
  rfl

/-- Rows are stored without tags exactly when the lines have none. -/
theorem untagged_of_rows {ls : List ManualLine} {rows : List JournalLine}
    (h : List.Forall₂ Stored (ls.map ManualLine.line) rows)
    (hrows : rows.map JournalLine.untagged = rows) : ∀ l ∈ ls, l.Untagged := by
  induction ls generalizing rows with
  | nil => exact nofun
  | cons l ls ih =>
    obtain ⟨row, rest, hrow, hrest, rfl⟩ := List.forall₂_cons_left_iff.mp h
    rw [List.map_cons, List.cons.injEq] at hrows
    intro l' hl'
    rcases List.mem_cons.mp hl' with rfl | hl'
    · have htype : row.subLedgerType = none := by rw [← hrows.1]; rfl
      have hid : row.subLedgerId = none := by rw [← hrows.1]; rfl
      rw [hrow.subLedgerType] at htype
      rw [hrow.subLedgerId] at hid
      exact ⟨htype, Option.map_eq_none_iff.mp hid⟩
    · exact ih hrest hrows.2 l' hl'

/-- Posting an entry and posting it without its tags: both write a row for each line, or neither does
anything. -/
theorem posted_outcomes {key : String} {lines : List LineIn} {t : Tables} (hkey : t.entry? key = none)
    (htwo : 2 ≤ lines.length) (hbalanced : totalDebit lines = totalCredit lines)
    (reference description : String) (postedBy : Uuid) :
    ((∀ l ∈ lines, l.Storable t) → ∃ rows, List.Forall₂ Stored lines rows ∧
      (postJournalEntry reference description postedBy key lines >>= fun _ => pure ()) t =
        .ok () { t with
          nextId := t.nextId + 1
          entries := t.entries ++ [⟨t.nextId, reference, description, postedBy, key, rows⟩] } ∧
      (postJournalEntry reference description postedBy key (lines.map LineIn.untagged) >>=
        fun _ => pure ()) t =
        .ok () { t with
          nextId := t.nextId + 1
          entries := t.entries ++ [⟨t.nextId, reference, description, postedBy, key,
            rows.map JournalLine.untagged⟩] }) ∧
    ((¬ ∀ l ∈ lines, l.Storable t) → ∃ e,
      (postJournalEntry reference description postedBy key lines >>= fun _ => pure ()) t = .aborted e ∧
      (postJournalEntry reference description postedBy key (lines.map LineIn.untagged) >>=
        fun _ => pure ()) t = .aborted e) := by
  have htwo' : 2 ≤ (lines.map LineIn.untagged).length := by
    rw [List.length_map]
    exact htwo
  have hbalanced' : totalDebit (lines.map LineIn.untagged) = totalCredit (lines.map LineIn.untagged) := by
    rw [totalDebit, totalCredit, List.map_map, List.map_map]
    exact hbalanced
  rw [bind_apply, bind_apply, postJournalEntry_stored hkey htwo hbalanced,
    postJournalEntry_stored hkey htwo' hbalanced', storeLines_untagged, bind_bind]
  have hnext : ∀ l : LineIn, l.Storable { t with nextId := t.nextId + 1 } ↔ l.Storable t := fun l =>
    ⟨fun h => ⟨h.account, h.debitFits, h.creditFits, h.check⟩,
      fun h => ⟨h.account, h.debitFits, h.creditFits, h.check⟩⟩
  cases hrows : storeLines lines { t with nextId := t.nextId + 1 } with
  | ok rows t' =>
    obtain ⟨rfl, hstored⟩ := storeLines_ok hrows
    have hall : ∀ l ∈ lines, l.Storable t := fun l hl => (hnext l).mp (storable_of_storeLines hrows l hl)
    refine ⟨fun _ => ⟨rows, hstored, ?_, ?_⟩, fun hnot => absurd hall hnot⟩
    · rw [bind_apply, hrows]
      rfl
    · rw [bind_apply, hrows]
      rfl
  | raised e t' => exact absurd hrows (neverRaises_storeLines lines _ e t')
  | aborted e =>
    refine ⟨?_, fun _ => ⟨e, ?_, ?_⟩⟩
    · intro hall
      obtain ⟨rows, t', hok⟩ := returns_storeLines fun l hl => (hnext l).mpr (hall l hl)
      rw [hok] at hrows
      cases hrows
    · rw [bind_apply, hrows]
    · rw [bind_apply, hrows]

/-- The executor does what posting at once does exactly when no line is tagged, or the ledger has the
entry already, or it does not take the lines. -/
theorem executes_iff (m : ManualEntryIn) (t : Tables) (htwo : 2 ≤ m.lines.length)
    (hbalanced : totalDebit (m.lines.map ManualLine.line) = totalCredit (m.lines.map ManualLine.line)) :
    executeManualEntry m.payload t = (postManualEntry m >>= fun _ => pure ()) t ↔
      (∀ l ∈ m.lines, l.Untagged) ∨ (∃ e ∈ t.entries, e.idempotencyKey = m.idempotencyKey) ∨
        ¬ ∀ l ∈ m.lines, l.line.Storable t := by
  rw [executeManualEntry_eq, postManualEntry_eq]
  cases hkey : t.entry? m.idempotencyKey with
  | some existing =>
    have hexists : ∃ e ∈ t.entries, e.idempotencyKey = m.idempotencyKey :=
      ⟨existing, List.mem_of_find?_eq_some hkey, by simpa using List.find?_some hkey⟩
    have hfound : ∀ lines, postJournalEntry m.reference m.description m.submittedBy.int m.idempotencyKey
        lines t = .ok existing.id t := by
      intro lines
      simp only [postJournalEntry, get_bind_eq_ok, hkey, pure_apply]
    rw [bind_apply, bind_apply, hfound, hfound]
    exact ⟨fun _ => .inr (.inl hexists), fun _ => rfl⟩
  | none =>
    have hnone : ¬ ∃ e ∈ t.entries, e.idempotencyKey = m.idempotencyKey := by
      rintro ⟨e, he, heq⟩
      exact entry?_eq_none.mp hkey e he heq
    rw [or_iff_right hnone]
    have hlength : 2 ≤ (m.lines.map ManualLine.line).length := by
      rw [List.length_map]
      exact htwo
    have hcalls := posted_outcomes hkey hlength hbalanced m.reference m.description m.submittedBy.int
    constructor
    · intro hsame
      by_contra hnot
      obtain ⟨htagged, hstorable⟩ := not_or.mp hnot
      obtain ⟨rows, hrows, hpost, hexecute⟩ := hcalls.1 fun l hl => by
        obtain ⟨l', hl', rfl⟩ := List.mem_map.mp hl
        exact not_not.mp hstorable l' hl'
      rw [hpost, hexecute] at hsame
      have hentries := congrArg Tables.entries (Outcome.ok.inj hsame).2
      have hentry := List.singleton_inj.mp (List.append_cancel_left hentries)
      have hsamerows : rows.map JournalLine.untagged = rows := congrArg JournalEntry.lines hentry
      exact htagged (untagged_of_rows hrows hsamerows)
    · rintro (huntagged | hrefused)
      · have hlines : (m.lines.map ManualLine.line).map LineIn.untagged = m.lines.map ManualLine.line := by
          rw [List.map_map]
          apply List.map_congr_left
          intro l hl
          exact (huntagged l hl).line_eq
        rw [hlines]
      · have hsome : ¬ ∀ l ∈ m.lines.map ManualLine.line, l.Storable t := fun hall =>
          hrefused fun l hl => hall _ (List.mem_map_of_mem hl)
        obtain ⟨e, hpost, hexecute⟩ := hcalls.2 hsome
        rw [hpost, hexecute]

theorem readDebits (m : ManualEntryIn) : m.lines.mapM (fun l => readDecimal l.debitAmount.str) =
    .ok (m.lines.map ManualLine.debitAmount) := by
  apply mapM_ok
  intro l
  exact readDecimal_str _

theorem readCredits (m : ManualEntryIn) : m.lines.mapM (fun l => readDecimal l.creditAmount.str) =
    .ok (m.lines.map ManualLine.creditAmount) := by
  apply mapM_ok
  intro l
  exact readDecimal_str _

/-- The totals of the maker are those of the ledger. -/
theorem totalDebit_lines (m : ManualEntryIn) : totalDebit (m.lines.map ManualLine.line) =
    decimalSum ((m.lines.map ManualLine.debitAmount).map Decimal.value) := by
  rw [totalDebit, List.map_map, List.map_map]
  rfl

theorem totalCredit_lines (m : ManualEntryIn) : totalCredit (m.lines.map ManualLine.line) =
    decimalSum ((m.lines.map ManualLine.creditAmount).map Decimal.value) := by
  rw [totalCredit, List.map_map, List.map_map]
  rfl

theorem submitManualEntry_ok {hooks : ApprovalHooks Tables ManualPayload} {m : ManualEntryIn}
    {db db' : ApprovalDb Tables ManualPayload} {id : Uuid}
    (h : submitManualEntry hooks m db = .ok id db') :
    2 ≤ m.lines.length ∧
      totalDebit (m.lines.map ManualLine.line) = totalCredit (m.lines.map ManualLine.line) ∧
      ∃ request ∈ db'.requests, request.id = id ∧ request.operation = m.payload := by
  rw [submitManualEntry, readDebits, readCredits] at h
  obtain ⟨debits, hd, h⟩ := ofExcept_bind_eq_ok.mp h
  obtain ⟨credits, hc, h⟩ := ofExcept_bind_eq_ok.mp h
  cases hd
  cases hc
  obtain ⟨hbalanced, h⟩ := require_bind_eq_ok.mp h
  obtain ⟨htwo, h⟩ := require_bind_eq_ok.mp h
  obtain ⟨operation, data, hoperation, hid, -, hdb⟩ := submit_ok h
  have hpayload : operation = m.payload := (Except.ok.inj hoperation).symm
  refine ⟨htwo, ?_, ⟨db.nextRequestId, operation, m.submittedBy.int, 1, .pending, none⟩, ?_, hid.symm,
    hpayload⟩
  rotate_left
  · rw [hdb]
    exact List.mem_append_right _ List.mem_cons_self
  rw [totalDebit_lines, totalCredit_lines]
  exact hbalanced

/-- A balanced entry of at least two lines is submitted. -/
theorem submitManualEntry_eq {hooks : ApprovalHooks Tables ManualPayload} {m : ManualEntryIn}
    (htwo : 2 ≤ m.lines.length)
    (hbalanced : totalDebit (m.lines.map ManualLine.line) = totalCredit (m.lines.map ManualLine.line))
    (db : ApprovalDb Tables ManualPayload) :
    submitManualEntry hooks m db = submit hooks ⟨.ok m.payload, m.submittedBy.int, 1, none⟩ db := by
  rw [totalDebit_lines, totalCredit_lines] at hbalanced
  rw [submitManualEntry, readDebits, readCredits]
  show (require _ _ >>= fun _ => require _ _ >>= fun _ => _) db = _
  rw [bind_apply, require, if_pos hbalanced, pure_apply]
  simp only []
  rw [bind_apply, require, if_pos htwo, pure_apply]

/-- The payload of an accepted request gives back every amount, account and description; executing
it posts what `post_journal_entry` would post for the same arguments exactly when no line is tagged
with a sub-ledger, apart from entries that the ledger has already or does not take. -/
theorem manual_entry_posted_iff {hooks : ApprovalHooks Tables ManualPayload} {m : ManualEntryIn}
    {db db' : ApprovalDb Tables ManualPayload} {id : Uuid}
    (hsubmit : submitManualEntry hooks m db = .ok id db') (t : Tables) :
    ∃ request ∈ db'.requests, request.id = id ∧
      (executeManualEntry request.operation t = (postManualEntry m >>= fun _ => pure ()) t ↔
        (∀ l ∈ m.lines, l.Untagged) ∨ (∃ e ∈ t.entries, e.idempotencyKey = m.idempotencyKey) ∨
          ¬ ∀ l ∈ m.lines, l.line.Storable t) := by
  obtain ⟨htwo, hbalanced, request, hrequest, hid, hoperation⟩ := submitManualEntry_ok hsubmit
  refine ⟨request, hrequest, hid, ?_⟩
  rw [hoperation]
  exact executes_iff m t htwo hbalanced

/-- Nobody is notified. -/
def quietHooks : ApprovalHooks Tables ManualPayload :=
  ⟨fun payload _ => executeManualEntry payload, fun _ _ _ => none, fun _ => pure (), fun _ _ => pure ()⟩

def chartOfTwo : Tables := { Tables.empty with accounts := [⟨1, "1100"⟩, ⟨2, "1000"⟩] }

/-- A correction of the receivable of loan 7: Dr 1100 / Cr 1000, 250.00. -/
def receivableCorrection (subLedgerType : Option String) (subLedgerId : Option UUID) : ManualEntryIn where
  reference := "ADJ-1"
  description := "Correction"
  submittedBy := ⟨9, by norm_num⟩
  idempotencyKey := "adj-1"
  lines := [⟨⟨1, by norm_num⟩, ⟨false, 25000, -2⟩, ⟨false, 0, 0⟩, none, subLedgerType, subLedgerId⟩,
    ⟨⟨2, by norm_num⟩, ⟨false, 0, 0⟩, ⟨false, 25000, -2⟩, none, none, none⟩]

theorem balanced_correction (subLedgerType : Option String) (subLedgerId : Option UUID) :
    totalDebit ((receivableCorrection subLedgerType subLedgerId).lines.map ManualLine.line) =
      totalCredit ((receivableCorrection subLedgerType subLedgerId).lines.map ManualLine.line) := by
  show decimalSum [Decimal.value ⟨false, 25000, -2⟩, Decimal.value ⟨false, 0, 0⟩] =
    decimalSum [Decimal.value ⟨false, 0, 0⟩, Decimal.value ⟨false, 25000, -2⟩]
  decide +kernel

theorem submitManualEntry_correction (subLedgerType : Option String) (subLedgerId : Option UUID) :
    ∃ id db', submitManualEntry quietHooks (receivableCorrection subLedgerType subLedgerId)
      ⟨chartOfTwo, 1, [], [], []⟩ = .ok id db' := by
  have htwo : 2 ≤ (receivableCorrection subLedgerType subLedgerId).lines.length := Nat.le_refl 2
  rw [submitManualEntry_eq htwo (balanced_correction _ _)]
  exact ⟨_, _, rfl⟩

theorem storable_of_250 {l : LineIn} (haccount : ∃ a ∈ chartOfTwo.accounts, a.id = l.accountId)
    (hamounts : roundAt 4 l.debitAmount = 250 ∧ roundAt 4 l.creditAmount = 0 ∨
      roundAt 4 l.debitAmount = 0 ∧ roundAt 4 l.creditAmount = 250) : l.Storable chartOfTwo := by
  rcases hamounts with ⟨hdebit, hcredit⟩ | ⟨hdebit, hcredit⟩
  all_goals
    refine ⟨haccount, ?_, ?_, ?_⟩
    · rw [hdebit]
      norm_num
    · rw [hcredit]
      norm_num
    · rw [LineIn.Check, hdebit, hcredit]
      norm_num

theorem storable_correction (subLedgerType : Option String) (subLedgerId : Option UUID) :
    ∀ l ∈ (receivableCorrection subLedgerType subLedgerId).lines, l.line.Storable chartOfTwo := by
  have hamount : roundAt 4 (Decimal.value ⟨false, 25000, -2⟩) = 250 := by decide +kernel
  have hzero : roundAt 4 (Decimal.value ⟨false, 0, 0⟩) = 0 := by decide +kernel
  intro l hl
  rcases List.mem_cons.mp hl with rfl | hl
  · exact storable_of_250 ⟨⟨1, "1100"⟩, List.mem_cons_self, rfl⟩ (.inl ⟨hamount, hzero⟩)
  · obtain rfl := List.mem_singleton.mp hl
    exact storable_of_250 ⟨⟨2, "1000"⟩, List.mem_cons_of_mem _ List.mem_cons_self, rfl⟩
      (.inr ⟨hzero, hamount⟩)

/-- Without tags the correction is posted as it was submitted. -/
theorem manual_entry_posted_untagged :
    ∃ id db', submitManualEntry quietHooks (receivableCorrection none none)
        ⟨chartOfTwo, 1, [], [], []⟩ = .ok id db' ∧
      ∃ request ∈ db'.requests, request.id = id ∧ executeManualEntry request.operation chartOfTwo =
        (postManualEntry (receivableCorrection none none) >>= fun _ => pure ()) chartOfTwo := by
  obtain ⟨id, db', hsubmit⟩ := submitManualEntry_correction none none
  obtain ⟨request, hrequest, hid, hiff⟩ := manual_entry_posted_iff hsubmit chartOfTwo
  refine ⟨id, db', hsubmit, request, hrequest, hid, hiff.mpr (.inl ?_)⟩
  intro l hl
  rcases List.mem_cons.mp hl with rfl | hl
  · exact ⟨rfl, rfl⟩
  · obtain rfl := List.mem_singleton.mp hl
    exact ⟨rfl, rfl⟩

/-- Tagged with loan 7, it is posted without the tag. -/
theorem tagged_correction_loses_tag :
    (∃ id db', submitManualEntry quietHooks (receivableCorrection (some "loan") (some ⟨7, by decide⟩))
      ⟨chartOfTwo, 1, [], [], []⟩ = .ok id db') ∧
    executeManualEntry (receivableCorrection (some "loan") (some ⟨7, by decide⟩)).payload chartOfTwo ≠
      (postManualEntry (receivableCorrection (some "loan") (some ⟨7, by decide⟩)) >>= fun _ => pure ())
        chartOfTwo := by
  refine ⟨submitManualEntry_correction _ _, ?_⟩
  have htwo : 2 ≤ (receivableCorrection (some "loan") (some ⟨7, by decide⟩)).lines.length :=
    Nat.le_refl 2
  rw [Ne, executes_iff _ _ htwo (balanced_correction _ _)]
  rintro (huntagged | ⟨e, he, -⟩ | hrefused)
  · have htag := (huntagged _ List.mem_cons_self).1
    cases htag
  · cases he
  · exact hrefused (storable_correction _ _)

end SaccoPlatform
