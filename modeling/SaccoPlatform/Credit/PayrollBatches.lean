import SaccoPlatform.Credit.Payroll

/-!
# When a payroll batch is written whole

A batch is to hold one line for every row of its upload. The rows are classified first, the lines
of all of them are then built and written in one go, and a single line that cannot be written takes
the batch with it. So a batch is written whole only if every row, matched or not, has an amount that
its line can hold.
-/

namespace SaccoPlatform

open Lib Session

/-! ## Matching -/

/-- The loan that a row is a repayment for. -/
def Tables.loanOf? (t : Tables) (row : PayrollRow) : Option Loan :=
  if (rowAmount? (pyStrip row.amount)).isSome then
    (pyUuid? (pyStrip row.memberId)).bind fun memberId => t.activeLoan? memberId.int
  else none

/-- The rows in the order of their lines: those with a loan go first. -/
def Tables.inOrder (t : Tables) (rows : List PayrollRow) : List PayrollRow :=
  rows.filter (fun row => (t.loanOf? row).isSome) ++ rows.filter fun row => !(t.loanOf? row).isSome

theorem Tables.inOrder_perm (t : Tables) (rows : List PayrollRow) : (t.inOrder rows).Perm rows :=
  List.filter_append_perm _ rows

theorem Tables.filter_inOrder (t : Tables) (rows : List PayrollRow) :
    ((t.inOrder rows).filter fun row => (t.loanOf? row).isSome) =
      rows.filter fun row => (t.loanOf? row).isSome := by
  have hrest : ((rows.filter fun row => !(t.loanOf? row).isSome).filter fun row =>
      (t.loanOf? row).isSome) = [] := by
    rw [List.filter_eq_nil_iff]
    intro row hrow
    simpa using (List.mem_filter.mp hrow).2
  rw [inOrder, List.filter_append, hrest, List.append_nil, List.filter_filter]
  simp only [Bool.and_self]

/-- What a row becomes. -/
structure Tables.MatchedAs (t : Tables) (row : PayrollRow) (entry : PayrollEntry)
    (amount : Option RowAmount) : Prop where
  ref : entry.rawMemberRef = pyStrip row.memberId
  loan : entry.loanId = (t.loanOf? row).map (·.id)
  status : entry.status = if (t.loanOf? row).isSome then .matched else .unmatched
  amount : amount = if (t.loanOf? row).isSome then rowAmount? (pyStrip row.amount) else none

theorem Tables.matchRow_spec (t : Tables) (row : PayrollRow) :
    t.MatchedAs row (t.matchRow row).1 (t.matchRow row).2 := by
  have hloan : t.loanOf? row = if (rowAmount? (pyStrip row.amount)).isSome then
      (pyUuid? (pyStrip row.memberId)).bind fun memberId => t.activeLoan? memberId.int else none := rfl
  unfold matchRow
  dsimp only
  cases hamount : rowAmount? (pyStrip row.amount) with
  | none =>
    rw [hamount] at hloan
    constructor <;> simp [hloan]
  | some amount =>
    rw [hamount, Option.isSome_some, if_pos rfl] at hloan
    cases hid : pyUuid? (pyStrip row.memberId) with
    | none =>
      rw [hid] at hloan
      constructor <;> simp [hloan]
    | some memberId =>
      rw [hid, Option.bind_some] at hloan
      cases hfind : t.activeLoan? memberId.int with
      | none =>
        rw [hfind] at hloan
        constructor <;> simp [hloan, hfind]
      | some loan =>
        rw [hfind] at hloan
        constructor <;> simp [hloan, hfind, hamount]

/-- A row with a loan has an amount. -/
theorem Tables.exists_amount {t : Tables} {row : PayrollRow} (h : (t.loanOf? row).isSome = true) :
    (rowAmount? (pyStrip row.amount)).isSome = true := by
  by_contra hnone
  rw [loanOf?, if_neg hnone] at h
  cases h

theorem Tables.matchRow_isSome (t : Tables) (row : PayrollRow) :
    (t.matchRow row).2.isSome = (t.loanOf? row).isSome := by
  rw [(t.matchRow_spec row).amount]
  cases hloan : (t.loanOf? row).isSome with
  | true =>
    rw [if_pos rfl]
    exact exists_amount hloan
  | false => rfl

/-- The entries of all rows. -/
def Tables.payrollEntries (t : Tables) (rows : List PayrollRow) : List PayrollEntry :=
  rows.map fun row => (t.matchRow row).1

/-- The amounts that are added up. -/
def Tables.amounts (t : Tables) (rows : List PayrollRow) : List RowAmount :=
  rows.filterMap fun row => (t.matchRow row).2

/-- Matching fails only where adding up does. -/
theorem Tables.foldlM_addRow (t : Tables) {rows : List PayrollRow} {found found' : Matches} :
    rows.foldlM t.addRow found = .ok found' ↔
      ∃ total, (t.amounts rows).foldlM addAmount found.total = .ok total ∧
        found' = ⟨found.matched ++ t.payrollEntries (rows.filter fun row => (t.loanOf? row).isSome),
          found.unmatched ++ t.payrollEntries (rows.filter fun row => !(t.loanOf? row).isSome), total⟩ := by
  induction rows generalizing found with
  | nil =>
    show Except.ok found = Except.ok found' ↔ _
    simp [amounts, payrollEntries, pure, Except.pure, eq_comm]
  | cons row rows ih =>
    have hsome := t.matchRow_isSome row
    rw [List.foldlM_cons, except_bind_eq_ok]
    cases hrow : t.matchRow row with
    | mk entry amount =>
      rw [hrow] at hsome
      cases amount with
      | none =>
        have hadd : t.addRow found row = .ok { found with unmatched := found.unmatched ++ [entry] } := by
          rw [addRow, hrow]
        have hamounts : t.amounts (row :: rows) = t.amounts rows := by
          rw [amounts, List.filterMap_cons_none (by rw [hrow])]
          rfl
        rw [hamounts, List.filter_cons_of_neg (by simp [← hsome]),
          List.filter_cons_of_pos (by rw [← hsome]; rfl)]
        simp only [hadd, Except.ok.injEq, exists_eq_left', ih, payrollEntries, List.map_cons, hrow,
          List.append_assoc, List.singleton_append]
      | some amount =>
        have hadd : t.addRow found row = (addAmount found.total amount).map fun total =>
            { found with matched := found.matched ++ [entry], total } := by
          rw [addRow, hrow]
        have hamounts : t.amounts (row :: rows) = amount :: t.amounts rows := by
          rw [amounts, List.filterMap_cons_some (by rw [hrow])]
          rfl
        rw [hamounts, List.filter_cons_of_pos (by rw [← hsome]; rfl),
          List.filter_cons_of_neg (by simp [← hsome]), List.foldlM_cons, hadd]
        cases addAmount found.total amount with
        | error e => simp [Except.map, bind, Except.bind]
        | ok total =>
          simp only [Except.map, Except.ok.injEq, exists_eq_left', ih, payrollEntries, List.map_cons, hrow,
            List.append_assoc, List.singleton_append]
          rfl

theorem Tables.matchRows_eq_ok {t : Tables} {rows : List PayrollRow} {found : Matches} :
    t.matchRows rows = .ok found ↔
      ∃ total, (t.amounts rows).foldlM addAmount (some 0) = .ok total ∧
        found = ⟨t.payrollEntries (rows.filter fun row => (t.loanOf? row).isSome),
          t.payrollEntries (rows.filter fun row => !(t.loanOf? row).isSome), total⟩ := by
  rw [matchRows, foldlM_addRow]
  simp only [List.nil_append]

/-! ## The total -/

/-- The number in the amount of a row. -/
def PayrollRow.value? (row : PayrollRow) : Option ℚ :=
  match PyDecimal.ofText? (pyStrip row.amount) with
  | some (.finite d) => some d.value
  | _ => none

/-- The numbers in the amounts of the rows with a loan. -/
def Tables.matchedValues (t : Tables) (rows : List PayrollRow) : List ℚ :=
  (rows.filter fun row => (t.loanOf? row).isSome).filterMap PayrollRow.value?

def RowAmount.value? : RowAmount → Option ℚ
  | finite d => some d.value
  | infinity => none

theorem value?_of_rowAmount {row : PayrollRow} {amount : RowAmount}
    (h : rowAmount? (pyStrip row.amount) = some amount) : row.value? = amount.value? := by
  rw [PayrollRow.value?, (rowAmount?_eq_some h).1]
  cases amount <;> rfl

theorem Tables.amounts_values (t : Tables) (rows : List PayrollRow) :
    (t.amounts rows).filterMap RowAmount.value? = t.matchedValues rows := by
  rw [amounts, matchedValues, List.filterMap_filterMap, List.filterMap_filter]
  apply List.filterMap_congr
  intro row _
  rw [(t.matchRow_spec row).amount]
  split
  · next hloan =>
    obtain ⟨amount, hamount⟩ := Option.isSome_iff_exists.mp (exists_amount hloan)
    rw [hamount, Option.bind_some, value?_of_rowAmount hamount]
  · rfl

theorem foldlM_addAmount_none (amounts : List RowAmount) :
    amounts.foldlM addAmount none = .ok none := by
  induction amounts with
  | nil => rfl
  | cons amount amounts ih =>
    rw [List.foldlM_cons]
    exact ih

/-- A total that is a number is the sum in 28 digits. -/
theorem foldlM_addAmount_eq_some {amounts : List RowAmount} {q r : ℚ}
    (h : amounts.foldlM addAmount (some q) = .ok (some r)) :
    r = (amounts.filterMap RowAmount.value?).foldl (fun sum q => inContext 28 (sum + q)) q := by
  induction amounts generalizing q with
  | nil =>
    cases h
    rfl
  | cons amount amounts ih =>
    obtain ⟨total, hadd, hrest⟩ := except_bind_eq_ok.mp (List.foldlM_cons.symm.trans h)
    cases amount with
    | infinity =>
      cases hadd
      cases (foldlM_addAmount_none amounts).symm.trans hrest
    | finite d =>
      simp only [addAmount] at hadd
      split at hadd
      · cases hadd
      · cases hadd
        exact ih hrest

/-- Amounts that lines can hold add up without an overflow. -/
theorem foldlM_addAmount_eq_ok {amounts : List RowAmount} {q : ℚ} {n : ℕ}
    (hamounts : ∀ amount ∈ amounts, ∃ d : Decimal, amount = .finite d ∧ 0 ≤ d.value ∧ d.value ≤ 10 ^ 15)
    (hq : 0 ≤ q) (hle : q ≤ n * 10 ^ 15) (hroom : n + amounts.length < 2 ^ 31) :
    ∃ r, amounts.foldlM addAmount (some q) = .ok (some r) := by
  induction amounts generalizing q n with
  | nil => exact ⟨q, rfl⟩
  | cons amount amounts ih =>
    obtain ⟨d, rfl, hd, hdle⟩ := hamounts _ List.mem_cons_self
    rw [List.length_cons] at hroom
    have hsum : q + d.value ≤ ((n + 1 : ℕ) : ℚ) * 10 ^ 15 := by
      push_cast
      linarith
    -- the bound is a whole number that the context has the digits for
    have hbound : ((n + 1 : ℕ) : ℚ) * 10 ^ 15 < 10 ^ 26 := by
      have : ((n + 1 : ℕ) : ℚ) ≤ (2 ^ 31 : ℕ) := by exact_mod_cast (by omega : n + 1 ≤ 2 ^ 31)
      push_cast at this ⊢
      linarith
    have hkept : inContext 28 (((n + 1 : ℕ) : ℚ) * 10 ^ 15) = ((n + 1 : ℕ) : ℚ) * 10 ^ 15 := by
      have hmem : ((n + 1 : ℕ) : ℚ) * 10 ^ 15 ∈ grid 0 :=
        mem_grid.mpr ⟨((n + 1) * 10 ^ 15 : ℕ), by push_cast; ring⟩
      apply inContext_of_mem hmem
      rw [abs_of_nonneg (by positivity)]
      linarith
    have hnext : inContext 28 (q + d.value) ≤ ((n + 1 : ℕ) : ℚ) * 10 ^ 15 := by
      rw [← hkept]
      exact inContext_mono (by norm_num) hsum
    have hnonneg : 0 ≤ inContext 28 (q + d.value) := inContext_nonneg (by norm_num) (by linarith)
    have hlead : leadingExponent (inContext 28 (q + d.value)) < (26 : ℕ) := by
      apply leadingExponent_lt
      rw [abs_of_nonneg hnonneg]
      exact lt_of_le_of_lt hnext hbound
    have hadd : addAmount (some q) (.finite d) = .ok (some (inContext 28 (q + d.value))) := by
      rw [addAmount]
      exact if_neg (by omega)
    obtain ⟨r, hr⟩ := ih (fun a ha => hamounts a (List.mem_cons_of_mem _ ha)) hnonneg hnext (by omega)
    exact ⟨r, except_bind_eq_ok.mpr ⟨_, hadd, hr⟩⟩

/-! ## The lines -/

/-- A line as the insert writes it. -/
structure PayrollEntry.WrittenAs (entry : PayrollEntry) (batchId : Uuid) (line : PayrollLine) : Prop where
  amount : storedCell? entry.amount = some line.amount
  positive : line.amount.Positive
  ref : '\x00' ∉ entry.rawMemberRef.toList
  line_eq : line = ⟨line.id, batchId, entry.memberId, entry.rawMemberRef, line.amount, entry.loanId,
    entry.status, entry.errorReason, none⟩

/-- An entry that a line can be written for. -/
def PayrollEntry.Writable (entry : PayrollEntry) : Prop :=
  '\x00' ∉ entry.rawMemberRef.toList ∧ ∃ cell, storedCell? entry.amount = some cell ∧ cell.Positive

theorem PayrollEntry.decimal_eq_ok {entry : PayrollEntry} {p : PayrollEntry × PyDecimal} :
    entry.decimal = .ok p ↔ p.1 = entry ∧ PyDecimal.ofText? entry.amount = some p.2 := by
  obtain ⟨entry', d⟩ := p
  unfold decimal
  cases PyDecimal.ofText? entry.amount with
  | none => simp
  | some d' => simp [eq_comm]

theorem PayrollEntry.Writable.exists_decimal {entry : PayrollEntry} (h : entry.Writable) :
    ∃ p, entry.decimal = .ok p := by
  obtain ⟨-, cell, hcell, -⟩ := h
  obtain ⟨d, hd, -⟩ := Option.bind_eq_some_iff.mp hcell
  exact ⟨(entry, d), decimal_eq_ok.mpr ⟨rfl, hd⟩⟩

/-- One insert. -/
theorem insertLine_ok {batchId : Uuid} {entry : PayrollEntry} {p : PayrollEntry × PyDecimal}
    {db db' : PayrollDb} {u : Unit} (hp : entry.decimal = .ok p) (h : insertLine batchId p db = .ok u db') :
    ∃ line, entry.WrittenAs batchId line ∧ db' = db.addLine line := by
  obtain ⟨entry', d⟩ := p
  obtain ⟨rfl, hd⟩ := PayrollEntry.decimal_eq_ok.mp hp
  simp only [insertLine, orAbort_bind_eq_ok, constraint_bind_eq_ok, modify_eq_ok] at h
  obtain ⟨cell, hcell, href, hpos, rfl⟩ := h
  refine ⟨_, ⟨?_, hpos, href, rfl⟩, rfl⟩
  rw [storedCell?, hd]
  exact hcell

theorem returns_insertLine {batchId : Uuid} {entry : PayrollEntry} {p : PayrollEntry × PyDecimal}
    {db : PayrollDb} (hp : entry.decimal = .ok p) (h : entry.Writable) :
    Returns (insertLine batchId p) db := by
  obtain ⟨entry', d⟩ := p
  obtain ⟨rfl, hd⟩ := PayrollEntry.decimal_eq_ok.mp hp
  obtain ⟨href, cell, hcell, hpos⟩ := h
  rw [storedCell?, hd, Option.bind_some] at hcell
  refine returns_orAbort_bind.mpr ⟨cell, hcell, ?_⟩
  exact returns_constraint_bind.mpr ⟨href, returns_constraint_bind.mpr ⟨hpos, returns_modify⟩⟩

/-- All inserts: a line for every entry, in their order. -/
theorem insertLines_ok {batchId : Uuid} {entries : List PayrollEntry}
    {pending : List (PayrollEntry × PyDecimal)}
    (hpending : List.Forall₂ (fun entry p => entry.decimal = .ok p) entries pending)
    {db db' : PayrollDb} {u : Unit} (h : forEach (insertLine batchId) pending db = .ok u db') :
    ∃ lines, List.Forall₂ (fun entry line => entry.WrittenAs batchId line) entries lines ∧
      db' = lines.foldl PayrollDb.addLine db := by
  induction hpending generalizing db with
  | nil =>
    cases h
    exact ⟨[], .nil, rfl⟩
  | cons hp _ ih =>
    obtain ⟨_, db₁, hfirst, hrest⟩ := bind_eq_ok.mp h
    obtain ⟨line, hline, rfl⟩ := insertLine_ok hp hfirst
    obtain ⟨lines, hlines, rfl⟩ := ih hrest
    exact ⟨line :: lines, .cons hline hlines, rfl⟩

theorem returns_insertLines {batchId : Uuid} {entries : List PayrollEntry}
    {pending : List (PayrollEntry × PyDecimal)}
    (hpending : List.Forall₂ (fun entry p => entry.decimal = .ok p) entries pending)
    (hwritable : ∀ entry ∈ entries, entry.Writable) (db : PayrollDb) :
    Returns (forEach (insertLine batchId) pending) db := by
  induction hpending generalizing db with
  | nil => exact returns_pure _ _
  | cons hp _ ih =>
    refine Returns.bind (returns_insertLine hp (hwritable _ List.mem_cons_self)) fun _ db₁ _ => ?_
    exact ih (fun entry hentry => hwritable entry (List.mem_cons_of_mem _ hentry)) db₁

namespace PayrollDb

variable (lines : List PayrollLine) (db : PayrollDb)

@[simp] theorem foldl_addLine_lines : (lines.foldl addLine db).lines = db.lines ++ lines := by
  induction lines generalizing db with
  | nil => simp
  | cons line lines ih => simp [ih, addLine]

@[simp] theorem foldl_addLine_batches : (lines.foldl addLine db).batches = db.batches := by
  induction lines generalizing db with
  | nil => rfl
  | cons line lines ih => simp [ih, addLine]

@[simp] theorem foldl_addLine_templates :
    (lines.foldl addLine db).approvals.data.templates = db.approvals.data.templates := by
  induction lines generalizing db with
  | nil => rfl
  | cons line lines ih => simp [ih, addLine, tables]

theorem mem_setApprovalRequest {db : PayrollDb} {batch : PayrollSubmission} (h : batch ∈ db.batches)
    (requestId : Uuid) : { batch with approvalRequestId := some requestId } ∈
      (db.setApprovalRequest batch.id requestId).batches :=
  List.mem_map.mpr ⟨batch, h, if_pos rfl⟩

end PayrollDb

/-! ## The request for approval -/

/-- The staff may be told of a request of this user. -/
def NoticesAllowed (env : Surroundings) (actorId : Uuid) (t : Tables) : Prop :=
  (∀ user ∈ env.staff, user = actorId) ∨
    t.disallowedKey? "maker_checker_pending" ["operation_type", "requested_by_label"] = none

theorem notifyPending_eq_ok {env : Surroundings} {request : ApprovalRequest Operation} {t : Tables} :
    (tenantHooks env).notifyPending request t = .ok () t ↔ NoticesAllowed env request.requestedBy t := by
  have hothers : (∀ user ∈ env.staff, user = request.requestedBy) ↔
      env.staff.filter (· ≠ request.requestedBy) = [] := by
    simp [List.filter_eq_nil_iff]
  rw [NoticesAllowed, hothers]
  show forEach _ (env.staff.filter (· ≠ request.requestedBy)) t = _ ↔ _
  generalize env.staff.filter (· ≠ request.requestedBy) = others
  have hpublish : publishNotification "maker_checker_pending" ["operation_type", "requested_by_label"] t
      = .ok () t ↔ t.disallowedKey? "maker_checker_pending" ["operation_type", "requested_by_label"] = none := by
    refine ⟨fun h => (publishNotification_ok h).2, fun h => ?_⟩
    rw [publishNotification, get_bind_eq_ok, h]
    rfl
  induction others with
  | nil => exact iff_of_true rfl (.inl rfl)
  | cons user others ih =>
    rw [forEach, bind_eq_ok]
    constructor
    · rintro ⟨_, t₁, hfirst, -⟩
      obtain ⟨rfl, hallowed⟩ := publishNotification_ok hfirst
      exact .inr hallowed
    · rintro (hnil | hallowed)
      · cases hnil
      · exact ⟨(), t, hpublish.mpr hallowed, ih.mpr (.inr hallowed)⟩

theorem noticesAllowed_congr {env : Surroundings} {actorId : Uuid} {t t' : Tables}
    (h : t.templates = t'.templates) : NoticesAllowed env actorId t ↔ NoticesAllowed env actorId t' := by
  unfold NoticesAllowed Tables.disallowedKey?
  rw [h]

theorem returns_submit {env : Surroundings} {operation : Operation} {actorId : Uuid} {required : ℤ}
    {approvals : ApprovalDb Tables Operation} (hrange : -2 ^ 31 ≤ required ∧ required < 2 ^ 31)
    (h : NoticesAllowed env actorId approvals.data) :
    Returns (submit (tenantHooks env) ⟨.ok operation, actorId, required, none⟩) approvals := by
  refine returns_ofExcept_bind.mpr ⟨operation, rfl, returns_constraint_bind.mpr ⟨hrange, ?_⟩⟩
  refine returns_get_bind.mpr (returns_modify_bind.mpr (Returns.bind ?_ fun _ _ _ => returns_pure _ _))
  unfold onData Returns
  dsimp only
  rw [notifyPending_eq_ok.mpr h]
  exact ⟨(), _, rfl⟩

theorem onApprovals_bind_eq_ok {α β : Type} {x : ApprovalCall α} {f : α → PayrollCall β}
    {db db' : PayrollDb} {b : β} : (onApprovals x >>= f) db = .ok b db' ↔
      ∃ a approvals, x db.approvals = .ok a approvals ∧ f a { db with approvals } = .ok b db' := by
  rw [bind_apply]
  unfold onApprovals
  cases x db.approvals <;> simp

theorem returns_onApprovals {α : Type} {x : ApprovalCall α} {db : PayrollDb} (h : Returns x db.approvals) :
    Returns (onApprovals x) db := by
  obtain ⟨a, approvals, hx⟩ := h
  refine ⟨a, { db with approvals }, ?_⟩
  rw [onApprovals, hx]

/-! ## One submission -/

theorem Tables.writable_matchRow {t : Tables} {row : PayrollRow} :
    (t.matchRow row).1.Writable ↔ row.Storable := by
  have hamount : (∃ cell, storedCell? (t.matchRow row).1.amount = some cell ∧ cell.Positive) ↔
      ∃ cell, storedCell? (pyStrip row.amount) = some cell ∧ cell.Positive := by
    apply exists_congr
    intro cell
    exact and_congr_left fun hpos => storedCell?_matchRow t row hpos
  rw [PayrollEntry.Writable, (t.matchRow_spec row).ref, hamount, ← storableAmount_iff]
  exact ⟨fun h => ⟨h.1, h.2⟩, fun h => ⟨h.ref, h.amount⟩⟩

/-- Nothing but the rows stands in the way of a new batch. -/
structure PayrollDb.Open (env : Surroundings) (s : SubmitBatchIn) (rows : List PayrollRow)
    (db : PayrollDb) : Prop where
  room : rows.length < 2 ^ 31
  referenceFresh : ∀ b ∈ db.batches, b.reference ≠ db.nextReference env.today
  keyFresh : ∀ b ∈ db.batches, b.idempotencyKey ≠ s.idempotencyKey
  notices : NoticesAllowed env s.actorId db.tables

/-- A batch that counts the rows. -/
structure PayrollSubmission.Counts (batch : PayrollSubmission) (s : SubmitBatchIn) (t : Tables)
    (rows : List PayrollRow) (total : Money) : Prop where
  idempotencyKey : batch.idempotencyKey = s.idempotencyKey
  totalRows : batch.totalRows = rows.length
  matchedRows : batch.matchedRows = (rows.filter fun row => (t.loanOf? row).isSome).length
  unmatchedRows : batch.unmatchedRows = (rows.filter fun row => !(t.loanOf? row).isSome).length
  totalAmount : batch.totalAmount = total

theorem insertBatch_ok {batch : PayrollSubmission} {db db' : PayrollDb} {u : Unit}
    (h : insertBatch batch db = .ok u db') : batch.totalRows < 2 ^ 31 ∧
      (∀ b ∈ db.batches, b.reference ≠ batch.reference) ∧
      (∀ b ∈ db.batches, b.idempotencyKey ≠ batch.idempotencyKey) ∧ db' = db.addBatch batch := by
  simpa only [insertBatch, get_bind_eq_ok, constraint_bind_eq_ok, modify_eq_ok] using h

theorem mem_of_insertBatch {batch : PayrollSubmission} {db db' : PayrollDb} {u : Unit}
    (h : insertBatch batch db = .ok u db') : batch ∈ db'.batches := by
  obtain ⟨-, -, -, rfl⟩ := insertBatch_ok h
  exact List.mem_append_right _ List.mem_cons_self

section

variable {env : Surroundings} {s : SubmitBatchIn} {sourceFormat : SourceFormat} {rows : List PayrollRow}
  {db db' : PayrollDb} {batch : PayrollSubmission}

theorem submitNewBatch_ok (h : submitNewBatch env s sourceFormat rows db = .ok batch db') :
    ∃ r total lines, (db.tables.amounts rows).foldlM addAmount (some 0) = .ok (some r) ∧
      Numeric.ofRat? r = some total ∧ db.Open env s rows ∧ batch.Counts s db.tables rows total ∧
      List.Forall₂ (fun row line => (db.tables.matchRow row).1.WrittenAs batch.id line)
        (db.tables.inOrder rows) lines ∧
      batch ∈ db'.batches ∧ db'.lines = db.lines ++ lines := by
  simp only [submitNewBatch, get_bind_eq_ok, ofExcept_bind_eq_ok, modify_bind_eq_ok, orAbort_bind_eq_ok]
    at h
  obtain ⟨found, hfound, total, htotal, h⟩ := h
  obtain ⟨sum, hsum, rfl⟩ := Tables.matchRows_eq_ok.mp hfound
  obtain ⟨r, rfl, hr⟩ := Option.bind_eq_some_iff.mp htotal
  obtain ⟨_, db₁, hinsert, h⟩ := bind_eq_ok.mp h
  have hbatch := mem_of_insertBatch hinsert
  obtain ⟨hroom, href, hkey, hadded⟩ := insertBatch_ok hinsert
  simp only [ofExcept_bind_eq_ok] at h
  obtain ⟨pending, hpending, h⟩ := h
  obtain ⟨_, db₂, hlines, h⟩ := bind_eq_ok.mp h
  obtain ⟨lines, hwritten, rfl⟩ := insertLines_ok (mapM_eq_ok.mp hpending) hlines
  rw [← PayrollDb.foldl_addLine_batches lines db₁] at hbatch
  obtain ⟨requestId, approvals, hsubmit, h⟩ := onApprovals_bind_eq_ok.mp h
  obtain ⟨operation, data, hoperation, -, hnotify, rfl⟩ := submit_ok hsubmit
  obtain rfl := notifyPending_ok hnotify
  simp only [modify_bind_eq_ok, pure_eq_ok] at h
  obtain ⟨rfl, rfl⟩ := h
  have hnotices : NoticesAllowed env s.actorId db.tables := by
    rw [notifyPending_eq_ok, noticesAllowed_congr (PayrollDb.foldl_addLine_templates lines db₁), hadded]
      at hnotify
    exact hnotify
  have hwrote : (lines.foldl PayrollDb.addLine db₁).lines = db.lines ++ lines := by
    rw [PayrollDb.foldl_addLine_lines, hadded]
    rfl
  refine ⟨r, total, lines, hsum, hr, ⟨hroom, href, hkey, hnotices⟩, ⟨rfl, rfl, ?_, ?_, rfl⟩, ?_, ?_, hwrote⟩
  · exact List.length_map _
  · exact List.length_map _
  · rw [Tables.payrollEntries, Tables.payrollEntries, ← List.map_append, List.forall₂_map_left_iff]
      at hwritten
    exact hwritten
  · exact PayrollDb.mem_setApprovalRequest hbatch requestId

theorem returns_submitNewBatch {r : ℚ} {total : Money}
    (hsum : (db.tables.amounts rows).foldlM addAmount (some 0) = .ok (some r))
    (htotal : Numeric.ofRat? r = some total) (hopen : db.Open env s rows)
    (hrows : ∀ row ∈ rows, row.Storable) : Returns (submitNewBatch env s sourceFormat rows) db := by
  have hwritable : ∀ entry ∈ db.tables.payrollEntries (rows.filter fun row => (db.tables.loanOf? row).isSome) ++
      db.tables.payrollEntries (rows.filter fun row => !(db.tables.loanOf? row).isSome), entry.Writable := by
    rw [Tables.payrollEntries, Tables.payrollEntries, ← List.map_append, List.forall_mem_map]
    intro row hrow
    exact Tables.writable_matchRow.mpr (hrows row ((db.tables.inOrder_perm rows).mem_iff.mp hrow))
  obtain ⟨pending, hpending⟩ := exists_mapM_eq_ok fun entry hentry => (hwritable entry hentry).exists_decimal
  have hmatch := Tables.matchRows_eq_ok.mpr ⟨some r, hsum, rfl⟩
  refine returns_get_bind.mpr (returns_ofExcept_bind.mpr ⟨_, hmatch, returns_modify_bind.mpr ?_⟩)
  refine returns_orAbort_bind.mpr ⟨total, htotal, ?_⟩
  refine Returns.bind ?_ fun _ db₁ hinsert => ?_
  · refine returns_get_bind.mpr (returns_constraint_bind.mpr ⟨hopen.room, ?_⟩)
    refine returns_constraint_bind.mpr ⟨hopen.referenceFresh, ?_⟩
    exact returns_constraint_bind.mpr ⟨hopen.keyFresh, returns_modify⟩
  · obtain ⟨-, -, -, hadded⟩ := insertBatch_ok hinsert
    refine returns_ofExcept_bind.mpr ⟨pending, hpending, ?_⟩
    refine (returns_insertLines (mapM_eq_ok.mp hpending) hwritable _).bind fun _ db₂ hlines => ?_
    obtain ⟨lines, -, rfl⟩ := insertLines_ok (mapM_eq_ok.mp hpending) hlines
    -- neither the batch nor its lines change what the staff may be told
    have hnotices : NoticesAllowed env s.actorId db₁.approvals.data := by
      rw [hadded]
      exact hopen.notices
    rw [← noticesAllowed_congr (PayrollDb.foldl_addLine_templates lines db₁)] at hnotices
    refine Returns.bind (returns_onApprovals (returns_submit ⟨by norm_num, by norm_num⟩ hnotices)) ?_
    exact fun _ _ _ => returns_modify_bind.mpr (returns_pure _ _)

end

end SaccoPlatform
