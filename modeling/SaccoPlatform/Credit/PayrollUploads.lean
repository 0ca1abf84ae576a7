import SaccoPlatform.Credit.PayrollBatches
import SaccoPlatform.MakerChecker.Executors
import Mathlib.Algebra.Group.Submonoid.BigOperators

/-!
# When an upload becomes a whole batch

Every row of an upload is to become a line of its batch, the rows without a loan too. The batch is
written whole exactly when the lines of all rows can be written and the rounding of the total agrees
with the rounding of the lines.
-/

namespace SaccoPlatform

open Lib Session

/-! ## Uploads -/

inductive PayrollUpload where
  | json (rows : List PayrollRow)
  | csv (text : String)
deriving DecidableEq, Repr

/-- A record as a row: a field that it lacks is an empty text. -/
def recordRow (fieldnames record : List String) : PayrollRow :=
  ⟨pyStrip ((PyCsv.getField fieldnames record "member_id").getD ""),
    pyStrip ((PyCsv.getField fieldnames record "amount").getD "")⟩

namespace PayrollUpload

/-- The rows of an upload, if it can be taken apart. -/
def rows? : PayrollUpload → Option (List PayrollRow)
  | json rows => some rows
  | csv text => (PyCsv.dictReader text).toOption.map fun found => found.2.map (recordRow found.1)

/-- No record is too short for the two columns. -/
def NoShortRecords : PayrollUpload → Prop
  | json _ => True
  | csv text => ∀ fieldnames records, PyCsv.dictReader text = .ok (fieldnames, records) →
    ∀ record ∈ records, (PyCsv.getField fieldnames record "member_id").isSome ∧
      (PyCsv.getField fieldnames record "amount").isSome

def sourceFormat : PayrollUpload → SourceFormat
  | json _ => .json
  | csv _ => .csv

def submit (env : Surroundings) (s : SubmitBatchIn) : PayrollUpload → PayrollCall PayrollSubmission
  | json rows => submitBatch env s .json rows
  | csv text => submitBatchCsv env s text

end PayrollUpload

theorem parseRecord_eq_ok {fieldnames record : List String} {row : PayrollRow} :
    parseRecord fieldnames record = .ok row ↔
      ((PyCsv.getField fieldnames record "member_id").isSome ∧
        (PyCsv.getField fieldnames record "amount").isSome) ∧ recordRow fieldnames record = row := by
  unfold parseRecord recordRow
  cases PyCsv.getField fieldnames record "member_id" with
  | none => simp
  | some memberId =>
    cases PyCsv.getField fieldnames record "amount" with
    | none => simp
    | some amount => simp

theorem parseCsv_eq_ok {text : String} {rows : List PayrollRow} :
    parseCsv text = .ok rows ↔
      (PayrollUpload.csv text).rows? = some rows ∧ (PayrollUpload.csv text).NoShortRecords := by
  unfold parseCsv PayrollUpload.rows? PayrollUpload.NoShortRecords
  dsimp only
  cases PyCsv.dictReader text with
  | error e => simp [Except.toOption]
  | ok found =>
    obtain ⟨fieldnames, records⟩ := found
    have hmap : List.Forall₂ (fun record row => recordRow fieldnames record = row) records rows ↔
        records.map (recordRow fieldnames) = rows := by
      rw [← List.forall₂_map_left_iff (R := Eq), List.forall₂_eq_eq_eq]
    have hrows : ((Except.ok (fieldnames, records) : Except PyCsv.Error _).toOption.map
        fun found => found.2.map (recordRow found.1)) = some rows ↔
        records.map (recordRow fieldnames) = rows := Option.some_inj
    show records.mapM (parseRecord fieldnames) = .ok rows ↔ _
    rw [mapM_eq_ok, hrows]
    simp only [parseRecord_eq_ok]
    rw [List.forall₂_and_left, hmap, and_comm]
    refine and_congr_right fun _ => ⟨fun hfull _ _ heq => ?_, fun hfull => hfull _ _ rfl⟩
    cases heq
    exact hfull

theorem submitUpload_eq_ok {env : Surroundings} {s : SubmitBatchIn} {upload : PayrollUpload}
    {db db' : PayrollDb} {batch : PayrollSubmission} : upload.submit env s db = .ok batch db' ↔
      ∃ rows, upload.rows? = some rows ∧ upload.NoShortRecords ∧
        submitBatch env s upload.sourceFormat rows db = .ok batch db' := by
  cases upload with
  | json rows => simp [PayrollUpload.submit, PayrollUpload.rows?, PayrollUpload.NoShortRecords,
      PayrollUpload.sourceFormat]
  | csv text =>
    show submitBatchCsv env s text db = _ ↔ _
    rw [submitBatchCsv, ofExcept_bind_eq_ok]
    simp only [parseCsv_eq_ok, and_assoc]
    rfl

/-! ## Whole batches -/

/-- The line of a row. -/
structure Tables.LineOf (t : Tables) (batchId : Uuid) (row : PayrollRow) (line : PayrollLine) : Prop where
  batch : line.payrollBatchId = batchId
  ref : line.rawMemberRef = pyStrip row.memberId
  loan : line.loanId = (t.loanOf? row).map (·.id)
  status : line.status = if (t.loanOf? row).isSome then .matched else .unmatched
  positive : line.amount.Positive

def PayrollLine.isMatched (line : PayrollLine) : Bool := line.status = .matched

/-- The lines are those of the rows, one for each, and the batch has their numbers and their sum. -/
structure PayrollSubmission.Covers (batch : PayrollSubmission) (t : Tables) (rows : List PayrollRow)
    (lines : List PayrollLine) : Prop where
  lineOfEach : ∃ order, order.Perm rows ∧ List.Forall₂ (t.LineOf batch.id) order lines
  totalRows : batch.totalRows = rows.length ∧ batch.totalRows = lines.length
  counts : batch.matchedRows + batch.unmatchedRows = batch.totalRows
  matchedRows : batch.matchedRows = (lines.filter PayrollLine.isMatched).length
  totalAmount : ∃ amounts : List Money,
    (lines.filter PayrollLine.isMatched).map (·.amount) = amounts.map .finite ∧
      batch.totalAmount.val = (amounts.map (·.val)).sum

/-- The upload becomes a new batch that covers it. -/
def PayrollUpload.WrittenWhole (upload : PayrollUpload) (env : Surroundings) (s : SubmitBatchIn)
    (db : PayrollDb) : Prop :=
  ∃ rows batch lines db', upload.rows? = some rows ∧ upload.submit env s db = .ok batch db' ∧
    batch ∉ db.batches ∧ batch ∈ db'.batches ∧ db'.lines = db.lines ++ lines ∧
    batch.Covers db.tables rows lines

/-- The sum in 28 digits rounds to the sum of the rounded values. -/
def TotalKept (values : List ℚ) : Prop :=
  (values.map (roundAt 4)).sum < 10 ^ 15 ∧
    (values.map (roundAt 4)).sum - 1 / 20000 ≤ sumInContext 28 values ∧
    sumInContext 28 values < (values.map (roundAt 4)).sum + 1 / 20000

/-- The rows of which a whole batch can be made. -/
structure PayrollDb.Acceptable (env : Surroundings) (s : SubmitBatchIn) (rows : List PayrollRow)
    (db : PayrollDb) : Prop extends db.Open env s rows where
  keyText : '\x00' ∉ s.idempotencyKey.toList
  storable : ∀ row ∈ rows, row.Storable
  total : TotalKept (db.tables.matchedValues rows)

section

variable {env : Surroundings} {s : SubmitBatchIn} {sourceFormat : SourceFormat} {rows : List PayrollRow}
  {db db' : PayrollDb} {batch : PayrollSubmission}

theorem submitBatch_ok (h : submitBatch env s sourceFormat rows db = .ok batch db')
    (hnew : batch ∉ db.batches) : '\x00' ∉ s.idempotencyKey.toList ∧
      submitNewBatch env s sourceFormat rows db = .ok batch db' := by
  simp only [submitBatch, constraint_bind_eq_ok, get_bind_eq_ok] at h
  obtain ⟨hkey, h⟩ := h
  cases hfind : db.batches.find? (·.idempotencyKey = s.idempotencyKey) with
  | none =>
    rw [hfind] at h
    exact ⟨hkey, h⟩
  | some existing =>
    rw [hfind] at h
    obtain ⟨rfl, -⟩ := pure_eq_ok.mp h
    exact absurd (List.mem_of_find?_eq_some hfind) hnew

theorem submitBatch_eq_of_fresh (hkey : '\x00' ∉ s.idempotencyKey.toList)
    (hfresh : ∀ b ∈ db.batches, b.idempotencyKey ≠ s.idempotencyKey) :
    submitBatch env s sourceFormat rows db = submitNewBatch env s sourceFormat rows db := by
  have hfind : db.batches.find? (·.idempotencyKey = s.idempotencyKey) = none := by
    simpa [List.find?_eq_none] using hfresh
  rw [submitBatch, constraint, if_pos hkey]
  simp only [bind_apply, pure_apply, get_apply, hfind]

end

/-! ## The lines of the rows -/

variable {t : Tables} {batchId : Uuid} {rows : List PayrollRow}

theorem lineOf_of_writtenAs {row : PayrollRow} {line : PayrollLine}
    (h : (t.matchRow row).1.WrittenAs batchId line) : t.LineOf batchId row line := by
  have hspec := t.matchRow_spec row
  have hpos := h.positive
  have hline := h.line_eq
  constructor
  · rw [hline]
  · rw [hline, ← hspec.ref]
  · rw [hline, ← hspec.loan]
  · rw [hline, ← hspec.status]
  · exact hpos

theorem isMatched_of_lineOf {row : PayrollRow} {line : PayrollLine} (h : t.LineOf batchId row line) :
    (t.loanOf? row).isSome = line.isMatched := by
  rw [PayrollLine.isMatched, h.status]
  cases (t.loanOf? row).isSome <;> rfl

/-- The line of a row with a loan holds the number of the row as the column rounds it. -/
theorem exists_money {row : PayrollRow} {line : PayrollLine}
    (h : (t.matchRow row).1.WrittenAs batchId line) (hloan : (t.loanOf? row).isSome = true) :
    ∃ (q : ℚ) (m : Money), row.value? = some q ∧ line.amount = .finite m ∧ m.val = roundAt 4 q := by
  obtain ⟨amount, hamount⟩ := Option.isSome_iff_exists.mp (Tables.exists_amount hloan)
  have hcell := (storedCell?_matchRow t row h.positive).mp h.amount
  rw [storedCell?, (rowAmount?_eq_some hamount).1, Option.bind_some] at hcell
  rw [value?_of_rowAmount hamount]
  cases amount with
  | infinity => cases hcell
  | finite d =>
    simp only [RowAmount.decimal, AmountCell.ofDecimal?] at hcell
    split at hcell
    · obtain ⟨m, hm, heq⟩ := Option.map_eq_some_iff.mp hcell
      exact ⟨d.value, m, rfl, heq.symm, Numeric.val_of_ofRat? hm⟩
    · cases hcell

theorem exists_amounts {lines : List PayrollLine}
    (h : List.Forall₂ (fun row line => (t.matchRow row).1.WrittenAs batchId line) rows lines)
    (hloans : ∀ row ∈ rows, (t.loanOf? row).isSome = true) : ∃ amounts : List Money,
      lines.map (·.amount) = amounts.map .finite ∧
        amounts.map (·.val) = (rows.filterMap PayrollRow.value?).map (roundAt 4) := by
  induction h with
  | nil => exact ⟨[], rfl, rfl⟩
  | @cons row line rows lines hline _ ih =>
    obtain ⟨q, m, hq, hm, hval⟩ := exists_money hline (hloans row List.mem_cons_self)
    obtain ⟨amounts, hmap, hvals⟩ := ih fun r hr => hloans r (List.mem_cons_of_mem _ hr)
    refine ⟨m :: amounts, ?_, ?_⟩
    · rw [List.map_cons, List.map_cons, hm, hmap]
    · rw [List.filterMap_cons_some hq, List.map_cons, List.map_cons, hval, hvals]

/-- A batch covers its rows if its total is the sum of the rounded amounts. -/
theorem covers_iff {s : SubmitBatchIn} {batch : PayrollSubmission} {total : Money}
    {lines : List PayrollLine} (hcounts : batch.Counts s t rows total)
    (hlines : List.Forall₂ (fun row line => (t.matchRow row).1.WrittenAs batch.id line)
      (t.inOrder rows) lines) :
    batch.Covers t rows lines ↔ total.val = ((t.matchedValues rows).map (roundAt 4)).sum := by
  have hfilter : List.Forall₂ (fun row line => (t.matchRow row).1.WrittenAs batch.id line)
      (rows.filter fun row => (t.loanOf? row).isSome) (lines.filter PayrollLine.isMatched) := by
    have h := forall₂_filter hlines fun row line hline => isMatched_of_lineOf (lineOf_of_writtenAs hline)
    rwa [t.filter_inOrder] at h
  obtain ⟨amounts, hmap, hvals⟩ := exists_amounts hfilter fun row hrow => (List.mem_filter.mp hrow).2
  have hlength : lines.length = rows.length :=
    hlines.length_eq.symm.trans (t.inOrder_perm rows).length_eq
  constructor
  · rintro ⟨-, -, -, -, amounts', hmap', hsum⟩
    have hsame : amounts' = amounts :=
      List.map_injective_iff.mpr (fun _ _ => AmountCell.finite.inj) (hmap'.symm.trans hmap)
    rw [← hcounts.totalAmount, hsum, hsame, hvals]
    rfl
  · intro htotal
    refine ⟨⟨t.inOrder rows, t.inOrder_perm rows, hlines.imp fun _ _ => lineOf_of_writtenAs⟩,
      ⟨hcounts.totalRows, hcounts.totalRows.trans hlength.symm⟩, ?_, ?_, amounts, hmap, ?_⟩
    · rw [hcounts.matchedRows, hcounts.unmatchedRows, hcounts.totalRows, ← List.length_append]
      exact (t.inOrder_perm rows).length_eq
    · rw [hcounts.matchedRows, hfilter.length_eq]
    · rw [hcounts.totalAmount, htotal, hvals]
      rfl

/-! ## The total of the rows -/

theorem matchedValues_pos {q : ℚ} (hq : q ∈ t.matchedValues rows) : 0 < q := by
  obtain ⟨row, hrow, hvalue⟩ := List.mem_filterMap.mp hq
  have hloan := (List.mem_filter.mp hrow).2
  obtain ⟨amount, hamount⟩ := Option.isSome_iff_exists.mp (Tables.exists_amount hloan)
  rw [value?_of_rowAmount hamount] at hvalue
  cases amount with
  | infinity => cases hvalue
  | finite d =>
    cases hvalue
    exact (rowAmount?_eq_some hamount).2 d rfl

section

variable {values : List ℚ}

theorem sum_round_mem_grid (values : List ℚ) : (values.map (roundAt 4)).sum ∈ grid 4 := by
  apply list_sum_mem
  intro q hq
  obtain ⟨q, -, rfl⟩ := List.mem_map.mp hq
  exact roundAt_mem_grid 4 q

/-- The total rounds to the sum of the rounded values from half a unit below it to half a unit above. -/
theorem roundAt_sum_iff (hpos : ∀ q ∈ values, 0 < q) :
    roundAt 4 (sumInContext 28 values) = (values.map (roundAt 4)).sum ↔
      (values.map (roundAt 4)).sum - 1 / 20000 ≤ sumInContext 28 values ∧
        sumInContext 28 values < (values.map (roundAt 4)).sum + 1 / 20000 := by
  have hnonneg : 0 ≤ sumInContext 28 values :=
    sumInContext_nonneg (by norm_num) fun q hq => (hpos q hq).le
  have hunit : (1 : ℚ) / (2 * 10 ^ 4) = 1 / 20000 := by norm_num
  rw [roundAt_eq_iff (sum_round_mem_grid values) hnonneg, hunit]

theorem totalKept_iff {total : Money} (hpos : ∀ q ∈ values, 0 < q)
    (htotal : Numeric.ofRat? (sumInContext 28 values) = some total) :
    total.val = (values.map (roundAt 4)).sum ↔ TotalKept values := by
  rw [TotalKept, ← roundAt_sum_iff hpos, ← Numeric.val_of_ofRat? htotal]
  refine ⟨fun heq => ⟨?_, heq⟩, fun h => h.2⟩
  rw [← heq]
  exact lt_of_le_of_lt (le_abs_self _) total.fits

theorem exists_total (hpos : ∀ q ∈ values, 0 < q) (h : TotalKept values) :
    ∃ total : Money, Numeric.ofRat? (sumInContext 28 values) = some total := by
  obtain ⟨hfits, hround⟩ := h
  have hnonneg : 0 ≤ sumInContext 28 values :=
    sumInContext_nonneg (by norm_num) fun q hq => (hpos q hq).le
  rw [← roundAt_sum_iff hpos] at hround
  rw [← hround, ← abs_of_nonneg (roundAt_nonneg hnonneg)] at hfits
  obtain ⟨total, htotal, -⟩ := exists_ofRat? hfits
  exact ⟨total, htotal⟩

end

/-- The amounts of storable rows add up. -/
theorem exists_sum (hroom : rows.length < 2 ^ 31) (hstorable : ∀ row ∈ rows, row.Storable) :
    ∃ r, (t.amounts rows).foldlM addAmount (some 0) = .ok (some r) := by
  refine foldlM_addAmount_eq_ok (n := 0) ?_ le_rfl (by norm_num) ?_
  · intro amount hamount
    obtain ⟨row, hrow, hmatch⟩ := List.mem_filterMap.mp hamount
    rw [(t.matchRow_spec row).amount] at hmatch
    split at hmatch
    · have hread := (rowAmount?_eq_some hmatch).1
      cases (hstorable row hrow).amount with
      | number d htext _ hlow hhigh =>
        cases amount with
        | infinity => cases htext.symm.trans hread
        | finite d' =>
          cases htext.symm.trans hread
          exact ⟨d, rfl, by linarith, by linarith⟩
      | nan negative signaling payload htext =>
        cases amount <;> cases htext.symm.trans hread
    · cases hmatch
  · have hlength : (t.amounts rows).length ≤ rows.length := List.length_filterMap_le _ _
    omega

/-- What the total is the sum of. -/
theorem sum_eq {r : ℚ} (h : (t.amounts rows).foldlM addAmount (some 0) = .ok (some r)) :
    r = sumInContext 28 (t.matchedValues rows) := by
  rw [foldlM_addAmount_eq_some h, t.amounts_values]
  rfl

/-! ## When a batch is written whole -/

theorem writtenWhole_iff (env : Surroundings) (s : SubmitBatchIn) (upload : PayrollUpload)
    (db : PayrollDb) : upload.WrittenWhole env s db ↔
      ∃ rows, upload.rows? = some rows ∧ upload.NoShortRecords ∧ db.Acceptable env s rows := by
  constructor
  · rintro ⟨rows, batch, lines, db', hrows, hsubmit, hnew, -, hlines, hcovers⟩
    obtain ⟨rows', hrows', hshort, hsubmit⟩ := submitUpload_eq_ok.mp hsubmit
    cases hrows.symm.trans hrows'
    obtain ⟨hkey, hsubmit⟩ := submitBatch_ok hsubmit hnew
    obtain ⟨r, total, lines', hsum, htotal, hopen, hcounts, hwritten, -, hlines'⟩ :=
      submitNewBatch_ok hsubmit
    cases List.append_cancel_left (hlines.symm.trans hlines')
    rw [sum_eq hsum] at htotal
    have hkept := (covers_iff hcounts hwritten).mp hcovers
    rw [totalKept_iff (fun q => matchedValues_pos) htotal] at hkept
    refine ⟨rows, hrows, hshort, hopen, hkey, ?_, hkept⟩
    intro row hrow
    rw [← (db.tables.inOrder_perm rows).mem_iff] at hrow
    obtain ⟨line, -, hline⟩ := forall₂_exists_left hwritten.flip hrow
    exact Tables.writable_matchRow.mp ⟨hline.ref, line.amount, hline.amount, hline.positive⟩
  · rintro ⟨rows, hrows, hshort, hopen, hkey, hstorable, hkept⟩
    obtain ⟨r, hsum⟩ := exists_sum (t := db.tables) hopen.room hstorable
    obtain ⟨total, htotal⟩ := exists_total (fun q => matchedValues_pos) hkept
    rw [← sum_eq hsum] at htotal
    have hreturns : Returns (submitNewBatch env s upload.sourceFormat rows) db :=
      returns_submitNewBatch hsum htotal hopen hstorable
    obtain ⟨batch, db', hsubmit⟩ := hreturns
    obtain ⟨r', total', lines, hsum', htotal', -, hcounts, hwritten, hbatch, hlines⟩ :=
      submitNewBatch_ok hsubmit
    cases hsum.symm.trans hsum'
    cases htotal.symm.trans htotal'
    rw [← submitBatch_eq_of_fresh hkey hopen.keyFresh] at hsubmit
    refine ⟨rows, batch, lines, db', hrows, submitUpload_eq_ok.mpr ⟨rows, hrows, hshort, hsubmit⟩,
      fun hold => hopen.keyFresh batch hold hcounts.idempotencyKey, hbatch, hlines, ?_⟩
    rw [sum_eq hsum] at htotal
    rw [covers_iff hcounts hwritten, totalKept_iff (fun q => matchedValues_pos) htotal]
    exact hkept

/-- The sample loan, before any payroll. -/
def withholdingTenant : PayrollDb := ⟨⟨disbursedTenant, 0, [], [], []⟩, 0, [], []⟩

/-- What the employer of the sample member withholds. -/
def withheldRow : PayrollRow := ⟨"00000000-0000-0000-0000-000000000014", "100.00"⟩

/-- A row without a number, with a number below zero and without an amount at all: each takes the
batch with it, also the row of the loan. -/
theorem writtenWhole_invalid_rows :
    Returns ((PayrollUpload.json [withheldRow]).submit sampleSurroundings ⟨2, "k", 5⟩) withholdingTenant ∧
      ∀ upload ∈ [PayrollUpload.json [withheldRow, ⟨"14", "abc"⟩], .json [withheldRow, ⟨"14", "-5"⟩],
          .json [withheldRow, ⟨"14", ""⟩], .csv "member_id,amount\n14\n"],
        ¬ upload.WrittenWhole sampleSurroundings ⟨2, "k", 5⟩ withholdingTenant := by
  refine ⟨by decide +kernel, ?_⟩
  have hrefused : ∀ upload ∈ [PayrollUpload.json [withheldRow, ⟨"14", "abc"⟩],
      .json [withheldRow, ⟨"14", "-5"⟩], .json [withheldRow, ⟨"14", ""⟩], .csv "member_id,amount\n14\n"],
      ¬ Returns (upload.submit sampleSurroundings ⟨2, "k", 5⟩) withholdingTenant := by decide +kernel
  rintro upload hupload ⟨_, batch, _, db', -, hsubmit, -⟩
  exact hrefused upload hupload ⟨batch, db', hsubmit⟩

end SaccoPlatform
