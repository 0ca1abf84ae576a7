import SaccoPlatform.Credit.Posting
import SaccoPlatform.Lib.PyCsv
import SaccoPlatform.Lib.PyText
import SaccoPlatform.MakerChecker.Registry

/-!
# Submitting a payroll batch

`PayrollBatchService` (`app/modules/credit/services/payroll.py`): the rows of an upload are
matched with members and their loans, and written as the lines of a batch that is submitted for
approval. A row whose amount is refused becomes a line too, with the text of the refused amount:
the line is written only if the column takes what this text reads as.
-/

namespace SaccoPlatform

open Lib Session

/-! ## Rows and tables -/

/-- A row of an upload. A key that is missing is read as an empty text. -/
structure PayrollRow where
  memberId : String
  amount : String
deriving DecidableEq, Repr

/-- The `amount` of a line: a `NUMERIC` column also holds `NaN`, which is above every number. -/
inductive AmountCell where
  | nan
  | finite (m : Money)
deriving DecidableEq

/-- Why a row is not matched. The refused amount stands quoted in the text of its reason. -/
inductive LineError where
  | invalidAmount (amount : String)
  | notAUuid
  | noActiveLoan
deriving DecidableEq, Repr

/-- `payroll_batch_lines`, all its columns. -/
structure PayrollLine where
  id : Uuid
  payrollBatchId : Uuid
  memberId : Option Uuid
  rawMemberRef : String
  amount : AmountCell
  loanId : Option Uuid
  status : BatchLineStatus
  errorReason : Option LineError
  repaymentId : Option Uuid
deriving DecidableEq

inductive SourceFormat where
  | csv | json
deriving DecidableEq, Repr

/-- `payroll_batches`, all its columns. -/
structure PayrollSubmission where
  id : Uuid
  reference : String
  status : BatchStatus
  submittedBy : Uuid
  approvedBy : Option Uuid
  approvalRequestId : Option Uuid
  totalRows : ℕ
  matchedRows : ℕ
  unmatchedRows : ℕ
  totalAmount : Money
  sourceFormat : SourceFormat
  idempotencyKey : String
deriving DecidableEq

/-- The line as the executor of the batch reads it. It reads the matched lines only, and a line
without a number as its amount is never matched. -/
def PayrollLine.executorRow? (line : PayrollLine) : Option PayrollBatchLine :=
  match line.amount with
  | .nan => none
  | .finite m => some ⟨line.id, line.payrollBatchId, m, line.loanId, line.status, line.repaymentId⟩

def PayrollSubmission.executorRow (batch : PayrollSubmission) : PayrollBatch :=
  ⟨batch.id, batch.reference, batch.status⟩

/-- The tables of the tenant with the approvals, and the payroll tables with all their columns. -/
structure PayrollDb where
  approvals : ApprovalDb Tables Operation
  batchNumberSeq : ℕ
  batches : List PayrollSubmission
  lines : List PayrollLine

namespace PayrollDb

def tables (db : PayrollDb) : Tables := db.approvals.data

def addBatch (db : PayrollDb) (batch : PayrollSubmission) : PayrollDb :=
  { db with
    batches := db.batches ++ [batch]
    approvals := { db.approvals with data := { db.tables with
      nextId := db.tables.nextId + 1
      batches := db.tables.batches ++ [batch.executorRow] } } }

def addLine (db : PayrollDb) (line : PayrollLine) : PayrollDb :=
  { db with
    lines := db.lines ++ [line]
    approvals := { db.approvals with data := { db.tables with
      nextId := db.tables.nextId + 1
      batchLines := db.tables.batchLines ++ line.executorRow?.toList } } }

def setApprovalRequest (db : PayrollDb) (batchId requestId : Uuid) : PayrollDb :=
  { db with batches := db.batches.map fun b =>
      if b.id = batchId then { b with approvalRequestId := some requestId } else b }

end PayrollDb

abbrev PayrollCall := Session PayrollDb Err

/-- A call of the approval service, in the same session. -/
def onApprovals {α : Type} (x : ApprovalCall α) : PayrollCall α := fun db =>
  match x db.approvals with
  | .ok a approvals => .ok a { db with approvals }
  | .raised e approvals => .raised e { db with approvals }
  | .aborted e => .aborted e

/-! ## Matching -/

/-- An amount that has passed the check. -/
inductive RowAmount where
  | finite (d : Decimal)
  | infinity

/-- `str(amount)` -/
def RowAmount.str : RowAmount → String
  | finite d => d.str
  | infinity => "Infinity"

/-- The amount of a text, if it is one above zero. Comparing what is no number raises. -/
def rowAmount? (text : String) : Option RowAmount :=
  match PyDecimal.ofText? text with
  | some (.finite d) => if d.value ≤ 0 then none else some (.finite d)
  | some (.infinity false) => some .infinity
  | _ => none

/-- `total += amount`, in the default context of 28 digits; `none` is infinity. -/
def addAmount : Option ℚ → RowAmount → Except Err (Option ℚ)
  | some total, .finite d =>
    let sum := inContext 28 (total + d.value)
    if 999999 < leadingExponent sum then .error .decimalError else .ok (some sum)
  | _, _ => .ok none

/-- What is to be written for a row. -/
structure PayrollEntry where
  memberId : Option Uuid
  rawMemberRef : String
  amount : String
  loanId : Option Uuid
  status : BatchLineStatus
  errorReason : Option LineError
deriving DecidableEq, Repr

/-- The active loan of the member that the database finds first. -/
def Tables.activeLoan? (t : Tables) (memberId : Uuid) : Option Loan :=
  t.loans.find? fun l => l.memberId = memberId ∧ (l.status = .disbursed ∨ l.status = .inArrears)

/-- The entry of a row, with its amount if the row is matched. -/
def Tables.matchRow (t : Tables) (row : PayrollRow) : PayrollEntry × Option RowAmount :=
  let rawRef := pyStrip row.memberId
  let amountStr := pyStrip row.amount
  match rowAmount? amountStr with
  | none => (⟨none, rawRef, if amountStr = "" then "0" else amountStr, none, .unmatched,
      some (.invalidAmount amountStr)⟩, none)
  | some amount =>
    match pyUuid? rawRef with
    | none => (⟨none, rawRef, amount.str, none, .unmatched, some .notAUuid⟩, none)
    | some memberId =>
      match t.activeLoan? memberId.int with
      | none => (⟨some memberId.int, rawRef, amount.str, none, .unmatched, some .noActiveLoan⟩, none)
      | some loan => (⟨some memberId.int, rawRef, amount.str, some loan.id, .matched, none⟩, some amount)

/-- The entries collected so far, and the total of the matched ones. -/
structure Matches where
  matched : List PayrollEntry
  unmatched : List PayrollEntry
  total : Option ℚ

def Tables.addRow (t : Tables) (found : Matches) (row : PayrollRow) : Except Err Matches :=
  match t.matchRow row with
  | (entry, none) => .ok { found with unmatched := found.unmatched ++ [entry] }
  | (entry, some amount) =>
    (addAmount found.total amount).map fun total =>
      { found with matched := found.matched ++ [entry], total }

/-- `_match_rows` -/
def Tables.matchRows (t : Tables) (rows : List PayrollRow) : Except Err Matches :=
  rows.foldlM t.addRow ⟨[], [], some 0⟩

/-! ## Writing -/

/-- What the column keeps of a decimal. A numeric has no more than 16383 decimals. -/
def AmountCell.ofDecimal? : PyDecimal → Option AmountCell
  | .finite d => if -16383 ≤ d.exponent then (Numeric.ofRat? d.value).map .finite else none
  | .infinity _ => none
  | .nan _ _ _ => some .nan

/-- `amount > 0` -/
def AmountCell.Positive : AmountCell → Prop
  | .nan => True
  | .finite m => 0 < m.val

instance : (cell : AmountCell) → Decidable cell.Positive
  | .nan => inferInstanceAs (Decidable True)
  | .finite m => inferInstanceAs (Decidable (0 < m.val))

/-- `Decimal(str(row["amount"]))` -/
def PayrollEntry.decimal (entry : PayrollEntry) : Except Err (PayrollEntry × PyDecimal) :=
  match PyDecimal.ofText? entry.amount with
  | none => .error .decimalError
  | some d => .ok (entry, d)

/-- The insert of one line. -/
def insertLine (batchId : Uuid) (line : PayrollEntry × PyDecimal) : PayrollCall Unit := do
  let amount ← orAbort (AmountCell.ofDecimal? line.2) .numericOverflow
  constraint ('\x00' ∉ line.1.rawMemberRef.toList) .dataError
  constraint amount.Positive (.integrityError "ck_pbl_amount")
  modify fun db => db.addLine ⟨db.tables.nextId, batchId, line.1.memberId, line.1.rawMemberRef, amount,
    line.1.loanId, line.1.status, line.1.errorReason, none⟩

/-- The insert of the batch. -/
def insertBatch (batch : PayrollSubmission) : PayrollCall Unit := do
  let db ← get
  constraint (batch.totalRows < 2 ^ 31) .dataError
  constraint (∀ b ∈ db.batches, b.reference ≠ batch.reference) (.integrityError "uq_pb_reference")
  constraint (∀ b ∈ db.batches, b.idempotencyKey ≠ batch.idempotencyKey)
    (.integrityError "uq_pb_idempotency_key")
  modify (·.addBatch batch)

structure SubmitBatchIn where
  actorId : Uuid
  idempotencyKey : String
  clearingAccountId : Uuid

/-- `PAY-YYYYMM-NNNNNN` with the next number. -/
def PayrollDb.nextReference (db : PayrollDb) (today : Date) : String :=
  s!"PAY-{today.yearMonth}-{Date.pad 6 (db.batchNumberSeq + 1)}"

/-- `submit_batch` behind its guard. -/
def submitNewBatch (env : Surroundings) (s : SubmitBatchIn) (sourceFormat : SourceFormat)
    (rows : List PayrollRow) : PayrollCall PayrollSubmission := do
  let db ← get
  let found ← ofExcept (db.tables.matchRows rows)
  modify fun db => { db with batchNumberSeq := db.batchNumberSeq + 1 }
  let total ← orAbort (found.total.bind Numeric.ofRat?) .numericOverflow
  let batch : PayrollSubmission := ⟨db.tables.nextId, db.nextReference env.today, .pendingReview,
    s.actorId, none, none, rows.length, found.matched.length, found.unmatched.length, total,
    sourceFormat, s.idempotencyKey⟩
  insertBatch batch
  let lines ← ofExcept ((found.matched ++ found.unmatched).mapM PayrollEntry.decimal)
  forEach (insertLine batch.id) lines
  let requestId ← onApprovals (submit (tenantHooks env)
    ⟨.ok (.applyPayrollBatch ⟨some batch.id, some s.clearingAccountId⟩), s.actorId, 1, none⟩)
  modify (·.setApprovalRequest batch.id requestId)
  pure { batch with approvalRequestId := some requestId }

/-- `submit_batch` -/
def submitBatch (env : Surroundings) (s : SubmitBatchIn) (sourceFormat : SourceFormat)
    (rows : List PayrollRow) : PayrollCall PayrollSubmission := do
  constraint ('\x00' ∉ s.idempotencyKey.toList) .dataError
  let db ← get
  match db.batches.find? (·.idempotencyKey = s.idempotencyKey) with
  | some existing => pure existing
  | none => submitNewBatch env s sourceFormat rows

/-- A record of a CSV text. The fields a short record lacks are no strings to strip. -/
def parseRecord (fieldnames record : List String) : Except Err PayrollRow :=
  match PyCsv.getField fieldnames record "member_id", PyCsv.getField fieldnames record "amount" with
  | some memberId, some amount => .ok ⟨pyStrip memberId, pyStrip amount⟩
  | _, _ => .error .attributeError

/-- `_parse_csv`, of the decoded text. -/
def parseCsv (text : String) : Except Err (List PayrollRow) :=
  match PyCsv.dictReader text with
  | .error _ => .error .csvError
  | .ok (fieldnames, records) => records.mapM (parseRecord fieldnames)

/-- `submit_batch_csv` -/
def submitBatchCsv (env : Surroundings) (s : SubmitBatchIn) (text : String) :
    PayrollCall PayrollSubmission := do
  let rows ← ofExcept (parseCsv text)
  submitBatch env s .csv rows

/-! ## What is stored of a row -/

/-- What the column keeps of the amount in a text. -/
def storedCell? (text : String) : Option AmountCell := (PyDecimal.ofText? text).bind AmountCell.ofDecimal?

/-- The amounts that a line can be written with: a number that rounds to one the column has above
zero, or no number. -/
inductive StorableAmount (text : String) : Prop
  | number (d : Decimal) (htext : PyDecimal.ofText? text = some (.finite d)) (hdecimals : -16383 ≤ d.exponent)
      (hlow : 1 / 20000 ≤ d.value) (hhigh : d.value < 10 ^ 15 - 1 / 20000)
  | nan (negative signaling : Bool) (payload : ℕ)
      (htext : PyDecimal.ofText? text = some (.nan negative signaling payload))

/-- A row that a line can be written for. -/
structure PayrollRow.Storable (row : PayrollRow) : Prop where
  ref : '\x00' ∉ (pyStrip row.memberId).toList
  amount : StorableAmount (pyStrip row.amount)

/-- The number of the column for a number above zero. -/
theorem ofRat?_pos_iff {q : ℚ} : (∃ m : Money, Numeric.ofRat? q = some m ∧ 0 < m.val) ↔
    1 / 20000 ≤ q ∧ q < 10 ^ 15 - 1 / 20000 := by
  have hunit : (1 / 10 ^ 4 : ℚ) ∈ grid 4 := mem_grid.mpr ⟨1, by norm_num⟩
  have htop : (10 ^ 15 : ℚ) ∈ grid 4 := mem_grid.mpr ⟨10 ^ 19, by norm_num⟩
  constructor
  · rintro ⟨m, hm, hpos⟩
    rw [Numeric.val_of_ofRat? hm] at hpos
    have hq : 0 < q := pos_of_roundAt_pos hpos
    have hlow : 1 / 10 ^ 4 ≤ roundAt 4 q := by
      simpa using add_unit_le_of_lt (zero_mem (grid 4)) (roundAt_mem_grid 4 q) hpos
    have hfits : roundAt 4 q < 10 ^ 15 := by
      rw [← Numeric.val_of_ofRat? hm]
      exact lt_of_le_of_lt (le_abs_self _) m.fits
    rw [le_roundAt_iff hunit hq.le] at hlow
    rw [← not_le, le_roundAt_iff htop hq.le, not_le] at hfits
    norm_num at hlow hfits ⊢
    exact ⟨hlow, hfits⟩
  · rintro ⟨hlow, hhigh⟩
    have hq : 0 ≤ q := le_trans (by norm_num) hlow
    have hpos : 0 < roundAt 4 q := by
      refine lt_of_lt_of_le (by norm_num) ((le_roundAt_iff hunit hq).mpr ?_)
      norm_num at hlow ⊢
      exact hlow
    have hfits : roundAt 4 q < 10 ^ 15 := by
      rw [← not_le, le_roundAt_iff htop hq, not_le]
      norm_num at hhigh ⊢
      exact hhigh
    obtain ⟨m, hm, hval⟩ := exists_ofRat? (by rwa [abs_of_pos hpos])
    refine ⟨m, hm, ?_⟩
    rw [hval]
    exact hpos

theorem storableAmount_iff (text : String) :
    StorableAmount text ↔ ∃ cell, storedCell? text = some cell ∧ cell.Positive := by
  constructor
  · intro h
    cases h with
    | number d htext hdecimals hlow hhigh =>
      obtain ⟨m, hm, hpos⟩ := ofRat?_pos_iff.mpr ⟨hlow, hhigh⟩
      refine ⟨.finite m, ?_, hpos⟩
      rw [storedCell?, htext, Option.bind_some, AmountCell.ofDecimal?, if_pos hdecimals, hm]
      rfl
    | nan negative signaling payload htext =>
      refine ⟨.nan, ?_, trivial⟩
      rw [storedCell?, htext]
      rfl
  · rintro ⟨cell, hcell, hpos⟩
    obtain ⟨d, htext, hcell⟩ := Option.bind_eq_some_iff.mp hcell
    cases d with
    | finite d =>
      rw [AmountCell.ofDecimal?] at hcell
      split at hcell
      · next hdecimals =>
        obtain ⟨m, hm, rfl⟩ := Option.map_eq_some_iff.mp hcell
        obtain ⟨hlow, hhigh⟩ := ofRat?_pos_iff.mp ⟨m, hm, hpos⟩
        exact .number d htext hdecimals hlow hhigh
      · cases hcell
    | infinity negative => cases hcell
    | nan negative signaling payload => exact .nan negative signaling payload htext

/-! ## The amount of an entry -/

/-- The decimal that an accepted amount is. -/
def RowAmount.decimal : RowAmount → PyDecimal
  | finite d => .finite d
  | infinity => .infinity false

/-- An accepted amount is the one in the text, and above zero. -/
theorem rowAmount?_eq_some {text : String} {amount : RowAmount} (h : rowAmount? text = some amount) :
    PyDecimal.ofText? text = some amount.decimal ∧ ∀ d, amount = .finite d → 0 < d.value := by
  unfold rowAmount? at h
  split at h
  · next d hd =>
    split at h
    · cases h
    · next hpos =>
      cases h
      refine ⟨hd, ?_⟩
      rintro _ ⟨⟩
      exact not_le.mp hpos
  · next hinf =>
    cases h
    exact ⟨hinf, nofun⟩
  · cases h

/-- An accepted amount is read again from what it is written as. -/
theorem ofText?_rowAmount {text : String} {amount : RowAmount} (h : rowAmount? text = some amount) :
    PyDecimal.ofText? amount.str = PyDecimal.ofText? text := by
  obtain ⟨htext, -⟩ := rowAmount?_eq_some h
  rw [htext]
  cases amount with
  | finite d => exact PyDecimal.ofText?_str (PyDecimal.inLimits_of_ofText? htext)
  | infinity => decide

/-- What is written in place of an empty amount is refused. -/
theorem storedCell?_zero {cell : AmountCell} (h : storedCell? "0" = some cell) : ¬cell.Positive := by
  have hzero : storedCell? "0" = some (.finite 0) := by decide +kernel
  cases hzero.symm.trans h
  exact lt_irrefl (0 : ℚ)

theorem storedCell?_empty : storedCell? "" = none := by decide +kernel

/-- The line of a row gets what its column keeps of the amount in the row, if that is above zero. -/
theorem storedCell?_matchRow (t : Tables) (row : PayrollRow) {cell : AmountCell} (hcell : cell.Positive) :
    storedCell? (t.matchRow row).1.amount = some cell ↔ storedCell? (pyStrip row.amount) = some cell := by
  unfold Tables.matchRow
  dsimp only
  cases hamount : rowAmount? (pyStrip row.amount) with
  | none =>
    dsimp only
    split
    · next hempty =>
      rw [hempty, storedCell?_empty]
      exact iff_of_false (fun h => storedCell?_zero h hcell) nofun
    · rfl
  | some amount =>
    -- whatever the row is matched with, its amount is written as a decimal is
    have hread : storedCell? amount.str = storedCell? (pyStrip row.amount) := by
      rw [storedCell?, storedCell?, ofText?_rowAmount hamount]
    dsimp only
    split
    · rw [hread]
    · split <;> rw [hread]

end SaccoPlatform
