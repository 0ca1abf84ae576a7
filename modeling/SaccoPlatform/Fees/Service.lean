import SaccoPlatform.Savings.Service
import SaccoPlatform.Credit.WriteOff

/-!
# Fees

`FeeAssessmentService` and `FeeCollectionService` (`app/modules/fees/service.py`), and the daily
retry of `app/modules/fees/beat.py`. A fee is assessed once for a target and period and collected
in parts: automatically from the savings of the member, at the assessment and again by the retry,
and by hand. The automatic collection asks for the whole amount of the assessment each time and
sets the status by the shortfall of this attempt; the collection by hand takes any amount and sets
the status by the sum of all collections.
-/

namespace SaccoPlatform

open Lib Session

def Tables.feeType? (t : Tables) (id : Uuid) : Option FeeType := t.feeTypes.find? (·.id = id)

def Tables.assessment? (t : Tables) (id : Uuid) : Option FeeAssessment :=
  t.feeAssessments.find? (·.id = id)

/-- Write an assessment row back under its primary key. -/
def Tables.putAssessment (t : Tables) (row : FeeAssessment) : Tables :=
  { t with feeAssessments := t.feeAssessments.map fun r => if r.id = row.id then row else r }

def AssessmentStatus.text : AssessmentStatus → String
  | assessed => "assessed"
  | partiallyPaid => "partially_paid"
  | paid => "paid"
  | waived => "waived"
  | cancelled => "cancelled"

/-- The collections of the assessment. -/
def Tables.collectionsOf (t : Tables) (assessmentId : Uuid) : List FeeCollection :=
  t.feeCollections.filter (·.feeAssessmentId = assessmentId)

/-- `sum(c.amount for c in all_collections) + amount`, in decimals. -/
def Tables.totalCollected (t : Tables) (assessmentId : Uuid) (amount : ℚ) : ℚ :=
  decimalSum ((t.collectionsOf assessmentId).map (·.amount.val) ++ [amount])

/-- Insert a row of `fee_collections`; returns its id. -/
def insertFeeCollection (assessmentId : Uuid) (amount : ℚ) (method : CollectionMethod)
    (journalEntryId : Uuid) (idempotencyKey : String) : Call Uuid := do
  let amount ← writeMoney amount
  constraint (0 < amount.val) (.integrityError "ck_fc_amount")
  let t ← get
  constraint (∀ c ∈ t.feeCollections, c.idempotencyKey ≠ idempotencyKey)
    (.integrityError "uq_fc_idempotency_key")
  let id ← freshId
  modify fun t => { t with
    feeCollections := t.feeCollections ++
      [⟨id, assessmentId, amount, method, journalEntryId, idempotencyKey⟩] }
  pure id

/-- What `auto_collect` asks of the savings account. -/
def autoCollectDebit (accountId : Uuid) (assessment : FeeAssessment) (feeType : FeeType)
    (receivableAccountId : Uuid) (idempotencyKey : String) : SystemMovementIn where
  savingsAccountId := accountId
  amount := assessment.amount.val
  reason := "FEE_COLLECTION"
  sourceModule := "fees"
  actor := systemActor
  idempotencyKey := "fee-collect-" ++ idempotencyKey
  contraAccountId := receivableAccountId
  narration := some s!"Auto-collection: {feeType.name}"

/-- `FeeCollectionService.auto_collect`; returns the collection, if there is one. -/
def autoCollect (assessment : FeeAssessment) (feeType : FeeType) (receivableAccountId : Uuid)
    (idempotencyKey : String) : Call (Option Uuid) := do
  let t ← get
  match t.primaryAccount? assessment.targetId with
  | none => pure none
  | some account =>
    let result ← systemDebit
      (autoCollectDebit account.id assessment feeType receivableAccountId idempotencyKey) .partially
    match result with
    | none => pure none
    | some result =>
      let id ← insertFeeCollection assessment.id result.debitedAmount .savingsDeduction
        result.journalEntryId ("fee-collect-" ++ idempotencyKey)
      modify (·.putAssessment { assessment with
        status := if result.shortfallAmount = 0 then .paid else .partiallyPaid })
      pure (some id)

/-- The arguments of `assess`. -/
structure AssessIn where
  feeType : FeeType
  targetType : String
  targetId : Uuid
  periodStart : Date
  actor : Uuid
  idempotencyKey : String
deriving DecidableEq

/-- Dr receivable / Cr income, then the row of the assessment. -/
def insertAssessment (a : AssessIn) (receivableAccountId incomeAccountId : Uuid) :
    Call FeeAssessment := do
  let entryId ← postJournalEntry s!"FEE-ASSESS-{a.feeType.code}-{a.targetId}"
    s!"Fee assessment: {a.feeType.name} ({a.periodStart.isoformat})" a.actor
    ("fee-assess-" ++ a.idempotencyKey)
    (transferLines receivableAccountId incomeAccountId a.feeType.amount.val)
  constraint (0 < a.feeType.amount.val) (.integrityError "ck_fee_assessments_amount")
  let id ← freshId
  let row : FeeAssessment := ⟨id, a.feeType.id, a.targetType, a.targetId, a.periodStart,
    a.feeType.amount, .assessed, entryId⟩
  modify fun t => { t with feeAssessments := t.feeAssessments ++ [row] }
  pure row

/-- `FeeAssessmentService.assess`; returns the assessment. -/
def assess (a : AssessIn) : Call Uuid := do
  let t ← get
  match t.feeAssessments.find? fun r => r.feeTypeId = a.feeType.id ∧ r.targetType = a.targetType ∧
      r.targetId = a.targetId ∧ r.periodStart = a.periodStart with
  | some existing => pure existing.id
  | none =>
    let income ← orRaise (t.account? a.feeType.glIncomeAccountCode)
      (.valueError s!"GL income account '{a.feeType.glIncomeAccountCode}' not found")
    let receivable ← orRaise (t.account? a.feeType.glReceivableAccountCode)
      (.valueError s!"GL receivable account '{a.feeType.glReceivableAccountCode}' not found")
    let row ← insertAssessment a receivable.id income.id
    when (a.feeType.requiresCollection = true) do
      let _ ← autoCollect row a.feeType receivable.id a.idempotencyKey
    pure row.id

/-- The arguments of `collect`. -/
structure CollectIn where
  assessmentId : Uuid
  amount : ℚ
  method : CollectionMethod
  collectedBy : Uuid
  idempotencyKey : String
  contraAccountId : Uuid
deriving DecidableEq, Repr

/-- `FeeCollectionService.collect`; returns the collection. -/
def collect (c : CollectIn) : Call Uuid := do
  let t ← get
  match t.feeCollections.find? (·.idempotencyKey = c.idempotencyKey) with
  | some existing => pure existing.id
  | none =>
    let assessment ← orRaise (t.assessment? c.assessmentId)
      (.valueError s!"FeeAssessment '{c.assessmentId}' not found")
    require (assessment.status ∉ [.paid, .waived, .cancelled])
      (.valueError (s!"Assessment '{c.assessmentId}' has status '{assessment.status.text}' " ++
        "and cannot be collected"))
    let feeType ← orRaise (t.feeType? assessment.feeTypeId)
      (.valueError s!"FeeType for assessment '{c.assessmentId}' not found")
    let receivable ← orRaise (t.account? feeType.glReceivableAccountCode)
      (.valueError s!"GL receivable account '{feeType.glReceivableAccountCode}' not found")
    let entryId ← postJournalEntry s!"FEE-COLL-{c.assessmentId}"
      s!"Fee collection: {feeType.name}" c.collectedBy
      ("fee-manual-collect-" ++ c.idempotencyKey)
      (transferLines c.contraAccountId receivable.id c.amount)
    let totalCollected := t.totalCollected c.assessmentId c.amount
    let id ← insertFeeCollection c.assessmentId c.amount c.method entryId c.idempotencyKey
    modify (·.putAssessment { assessment with
      status := if assessment.amount.val ≤ totalCollected then .paid else .partiallyPaid })
    pure id

/-! ## The daily retry -/

/-- The assessments that `_retry_partial_for_tenant` goes through. -/
def Tables.retried (t : Tables) : List FeeAssessment :=
  t.feeAssessments.filter fun a =>
    a.status ∈ [.assessed, .partiallyPaid] ∧
      ∃ f ∈ t.feeTypes, f.id = a.feeTypeId ∧ f.requiresCollection = true

/-- One round of the retry, for the row of the session. -/
def retryAssessment (today : Date) (assessmentId : Uuid) : Call Unit := do
  let t ← get
  match t.assessment? assessmentId with
  | none => pure ()
  | some assessment =>
    match (t.feeType? assessment.feeTypeId).bind fun f =>
        (t.account? f.glReceivableAccountCode).map (f, ·) with
    | none => pure ()
    | some (feeType, receivable) =>
      let _ ← autoCollect assessment feeType receivable.id
        s!"retry-{assessment.id}-{today.isoformat}"

/-- `_retry_partial_for_tenant`: a savepoint around every assessment, one commit. -/
def retryPartial (today : Date) : Call Unit := do
  let t ← get
  forEach (fun a => do let _ ← savepoint (retryAssessment today a.id)) t.retried

end SaccoPlatform
