import SaccoPlatform.Database
import SaccoPlatform.Lib.Keyed
import SaccoPlatform.Lib.Runs
import Mathlib.Data.Fintype.Pi

/-!
# KYC submissions

`MemberSelfService.submit_kyc` and `KycReviewService` (`app/modules/members/kyc_submissions.py`)
under `READ COMMITTED`: a call reads the submission without a lock and writes it when it commits.
The unit of work sets only the columns that differ from what the call has read, and finds the row
by its primary key, whatever its status is by then.

So a resubmission between the reading and the commit of an approval leaves an approved row whose
snapshot is not what was applied to the member, and a resubmission or a second review that was
begun before the row was reviewed still writes over it. `uq_kyc_submissions_one_pending` holds
throughout. The audit rows are left out; a call that fails after its reading (the notice to the
member, a lost connection) is rolled back.
-/

namespace SaccoPlatform.Members

open Lib

/-! ## Rows -/

/-- The fields of `MEMBER_KYC_CATALOG` that are not locked. -/
inductive KycField where
  | phone | email | physicalAddress | nationalIdNumber | idDocumentType | idDocumentNumber
  | idIssuedDate | idExpiryDate | nextOfKinName | nextOfKinPhone | occupation
deriving DecidableEq, Repr

/-- `EDITABLE_KYC_FIELDS`. -/
def editableKycFields : List KycField :=
  [.phone, .email, .physicalAddress, .nationalIdNumber, .idDocumentType, .idDocumentNumber,
    .idIssuedDate, .idExpiryDate, .nextOfKinName, .nextOfKinPhone, .occupation]

instance : Fintype KycField := .ofList editableKycFields fun field => by cases field <;> decide

inductive KycValue where
  | text (s : String)
  | date (d : Date)
deriving DecidableEq

/-- The editable fields of a member, or the proposed ones of a submission. -/
abbrev KycValues := KycField → Option KycValue

inductive ReviewStatus where
  | pending | approved | rejected
deriving DecidableEq, Repr

/-- `kyc_submissions`. -/
structure KycSubmission where
  id : Uuid
  memberId : Uuid
  status : ReviewStatus
  submittedAt : ℤ
  reviewedBy : Option Uuid
  reviewedAt : Option ℤ
  rejectionReason : Option String
  snapshot : KycValues
deriving DecidableEq

/-- The editable columns of `members`. -/
structure MemberRecord where
  id : Uuid
  values : KycValues
deriving DecidableEq

/-- `ck_kyc_submissions_id_doc_type` and `ck_members_id_doc_type`. -/
def KycValues.DocTypeOk (v : KycValues) : Prop :=
  v .idDocumentType ∈ [none, some (.text "national_id"), some (.text "passport"),
    some (.text "driving_license")]

instance (v : KycValues) : Decidable v.DocTypeOk := inferInstanceAs (Decidable (_ ∈ _))

/-- `_UNIQUE_FIELDS`. -/
def uniqueFields : List KycField := [.nationalIdNumber, .email]

/-- What an `UPDATE` of the unit of work leaves in a column: a value that equals the one read is
not written. -/
def patched {α : Type} [DecidableEq α] (current read new : α) : α :=
  if new = read then current else new

def KycValues.patch (current read new : KycValues) : KycValues :=
  fun field => patched (current field) (read field) (new field)

/-- The row after `submit_kyc` has written over it. -/
def KycSubmission.resubmit (current read : KycSubmission) (values : KycValues) (now : ℤ) :
    KycSubmission :=
  { current with
    submittedAt := patched current.submittedAt read.submittedAt now
    snapshot := KycValues.patch current.snapshot read.snapshot values }

/-- The row after a review: no column of the snapshot is written. -/
def KycSubmission.review (current read : KycSubmission) (status : ReviewStatus) (reviewer : Uuid)
    (now : ℤ) (reason : Option String) : KycSubmission :=
  { current with
    status := patched current.status read.status status
    reviewedBy := patched current.reviewedBy read.reviewedBy (some reviewer)
    reviewedAt := patched current.reviewedAt read.reviewedAt (some now)
    rejectionReason := patched current.rejectionReason read.rejectionReason reason }

/-! ## Calls in progress -/

/-- A call with what it has read. An approval has still to look for clashes in the fields listed. -/
inductive KycCall where
  | submitting (memberId : Uuid) (values : KycValues) (read : Option KycSubmission)
  | approving (read : KycSubmission) (member : MemberRecord) (reviewer : Uuid)
      (unchecked : List KycField)
  | rejecting (read : KycSubmission) (reviewer : Uuid) (reason : String)
deriving DecidableEq

/-- An approval that has committed: the values that it set, and the values that the member has
then. -/
structure Applied where
  submissionId : Uuid
  values : KycValues
  stored : KycValues
deriving DecidableEq

/-- The two tables, the calls in progress, and the approvals so far. -/
structure KycWorld where
  members : Keyed MemberRecord.id
  submissions : Keyed KycSubmission.id
  calls : ℕ → Option KycCall
  applied : List Applied

namespace KycWorld

def setCall (w : KycWorld) (i : ℕ) (call : Option KycCall) : KycWorld :=
  { w with calls := Function.update w.calls i call }

/-- The pending submission of the member. -/
def pending? (w : KycWorld) (memberId : Uuid) : Option KycSubmission :=
  w.submissions.rows.find? fun s => s.memberId = memberId ∧ s.status = .pending

/-- `submit_kyc` looks for the pending submission. -/
def readPending (w : KycWorld) (i : ℕ) (memberId : Uuid) (values : KycValues) : KycWorld :=
  w.setCall i (some (.submitting memberId values (w.pending? memberId)))

/-- The `INSERT` of a first submission: `uq_kyc_submissions_one_pending`, the foreign key. -/
def insertSubmission (w : KycWorld) (memberId : Uuid) (values : KycValues) (now : ℤ) : KycWorld :=
  if (w.members.get? memberId).isSome ∧ values.DocTypeOk ∧ w.pending? memberId = none then
    { w with
      submissions := w.submissions.insertNew
        (fun id => ⟨id, memberId, .pending, now, none, none, none, values⟩) fun _ => rfl }
  else w

/-- The `UPDATE` of a row that was pending when it was read. -/
def overwriteSubmission (w : KycWorld) (read : KycSubmission) (values : KycValues) (now : ℤ) :
    KycWorld :=
  match w.submissions.get? read.id with
  | none => w
  | some current =>
    if (current.resubmit read values now).snapshot.DocTypeOk then
      { w with submissions := w.submissions.put (current.resubmit read values now) }
    else w

def commitSubmit (w : KycWorld) (i : ℕ) (now : ℤ) : KycWorld :=
  match w.calls i with
  | some (.submitting memberId values none) =>
    (w.insertSubmission memberId values now).setCall i none
  | some (.submitting _ values (some read)) =>
    (w.overwriteSubmission read values now).setCall i none
  | _ => w

/-- `KycReviewService.get`, with the check that the submission is pending. -/
def readForReview (w : KycWorld) (submissionId : Uuid) : Option (KycSubmission × MemberRecord) :=
  match w.submissions.get? submissionId with
  | none => none
  | some s =>
    if s.status = .pending then (w.members.get? s.memberId).map (s, ·) else none

def readForApproval (w : KycWorld) (i : ℕ) (submissionId reviewer : Uuid) : KycWorld :=
  match w.readForReview submissionId with
  | none => w
  | some (s, member) => w.setCall i (some (.approving s member reviewer uniqueFields))

def readForRejection (w : KycWorld) (i : ℕ) (submissionId reviewer : Uuid) (reason : String) :
    KycWorld :=
  match w.readForReview submissionId with
  | none => w
  | some (s, _) => w.setCall i (some (.rejecting s reviewer reason))

/-- Another member has the value of this field. -/
def Clash (w : KycWorld) (memberId : Uuid) (values : KycValues) (field : KycField) : Prop :=
  values field ≠ none ∧ ∃ m ∈ w.members.rows, m.id ≠ memberId ∧ m.values field = values field

instance (w : KycWorld) (memberId : Uuid) (values : KycValues) (field : KycField) :
    Decidable (w.Clash memberId values field) :=
  inferInstanceAs (Decidable (_ ∧ ∃ m ∈ w.members.rows, _))

/-- The next look for a clash. -/
def checkUnique (w : KycWorld) (i : ℕ) : KycWorld :=
  match w.calls i with
  | some (.approving read member reviewer (field :: fields)) =>
    if w.Clash member.id read.snapshot field then w.setCall i none
    else w.setCall i (some (.approving read member reviewer fields))
  | _ => w

/-- The two `UPDATE`s of an approval: `uq_members_email`, `uq_members_national_id_number`. -/
def applySubmission (w : KycWorld) (read : KycSubmission) (member : MemberRecord) (reviewer : Uuid)
    (now : ℤ) : KycWorld :=
  match w.submissions.get? read.id, w.members.get? member.id with
  | some current, some currentMember =>
    let values := KycValues.patch currentMember.values member.values read.snapshot
    if (∀ field ∈ uniqueFields, ¬ w.Clash member.id values field) ∧ values.DocTypeOk then
      { w with
        members := w.members.put { currentMember with values }
        submissions := w.submissions.put (current.review read .approved reviewer now
          read.rejectionReason)
        applied := w.applied ++ [⟨read.id, read.snapshot, values⟩] }
    else w
  | _, _ => w

def commitApprove (w : KycWorld) (i : ℕ) (now : ℤ) : KycWorld :=
  match w.calls i with
  | some (.approving read member reviewer []) =>
    (w.applySubmission read member reviewer now).setCall i none
  | _ => w

def rejectSubmission (w : KycWorld) (read : KycSubmission) (reviewer : Uuid) (reason : String)
    (now : ℤ) : KycWorld :=
  match w.submissions.get? read.id with
  | some current =>
    { w with
      submissions := w.submissions.put
        (current.review read .rejected reviewer now (some reason)) }
  | none => w

def commitReject (w : KycWorld) (i : ℕ) (now : ℤ) : KycWorld :=
  match w.calls i with
  | some (.rejecting read reviewer reason) =>
    (w.rejectSubmission read reviewer reason now).setCall i none
  | _ => w

end KycWorld

/-- One statement of one call, or the commit that makes its writes visible. -/
inductive KycAction where
  | readPending (i : ℕ) (memberId : Uuid) (values : KycValues)
  | commitSubmit (i : ℕ) (now : ℤ)
  | readForApproval (i : ℕ) (submissionId reviewer : Uuid)
  | checkUnique (i : ℕ)
  | commitApprove (i : ℕ) (now : ℤ)
  | readForRejection (i : ℕ) (submissionId reviewer : Uuid) (reason : String)
  | commitReject (i : ℕ) (now : ℤ)
  | rollback (i : ℕ)

def KycWorld.step (w : KycWorld) : KycAction → KycWorld
  | .readPending i memberId values => w.readPending i memberId values
  | .commitSubmit i now => w.commitSubmit i now
  | .readForApproval i submissionId reviewer => w.readForApproval i submissionId reviewer
  | .checkUnique i => w.checkUnique i
  | .commitApprove i now => w.commitApprove i now
  | .readForRejection i submissionId reviewer reason =>
    w.readForRejection i submissionId reviewer reason
  | .commitReject i now => w.commitReject i now
  | .rollback i => w.setCall i none

/-- Some members, and no submission yet. -/
def KycWorld.start (members : Keyed MemberRecord.id) : KycWorld where
  members := members
  submissions := ⟨[], List.nodup_nil⟩
  calls _ := none
  applied := []

/-! ## What is claimed -/

/-- A member has at most one pending submission. -/
def KycWorld.OnePending (w : KycWorld) : Prop :=
  ∀ s ∈ w.submissions.rows, ∀ s' ∈ w.submissions.rows, s.memberId = s'.memberId →
    s.status = .pending → s'.status = .pending → s = s'

/-- The snapshot of an approved submission is what its approval set, and what the member had
then. -/
def KycWorld.StoredAsApproved (w : KycWorld) : Prop :=
  ∀ s ∈ w.submissions.rows, s.status = .approved →
    (∃ a ∈ w.applied, a.submissionId = s.id) ∧
    ∀ a ∈ w.applied, a.submissionId = s.id → a.values = s.snapshot ∧ a.stored = s.snapshot

/-- The reviewed rows of `w` are rows of `w'`. -/
def KycWorld.ReviewedKept (w w' : KycWorld) : Prop :=
  ∀ s ∈ w.submissions.rows, s.status ≠ .pending → s ∈ w'.submissions.rows

/-- The submission that a call is about to write is still pending, and an approval finds the
snapshot that it has read. -/
def Undisturbed (w : KycWorld) : KycAction → Prop
  | .commitSubmit i _ =>
    match w.calls i with
    | some (.submitting _ _ (some read)) =>
      ∀ current ∈ w.submissions.get? read.id, current.status = .pending
    | _ => True
  | .commitApprove i _ =>
    match w.calls i with
    | some (.approving read _ _ []) =>
      ∀ current ∈ w.submissions.get? read.id,
        current.status = .pending ∧ current.snapshot = read.snapshot
    | _ => True
  | .commitReject i _ =>
    match w.calls i with
    | some (.rejecting read _ _) =>
      ∀ current ∈ w.submissions.get? read.id, current.status = .pending
    | _ => True
  | _ => True

/-! ## One pending submission -/

section

variable {w w' : KycWorld}

theorem KycWorld.OnePending.congr (h : w.OnePending) (heq : w'.submissions = w.submissions) :
    w'.OnePending := by
  unfold KycWorld.OnePending
  rw [heq]
  exact h

theorem pending?_eq_none {memberId : Uuid} (h : w.pending? memberId = none) :
    ∀ s ∈ w.submissions.rows, s.memberId = memberId → s.status ≠ .pending := by
  intro s hs hmember hstatus
  have hnot := List.find?_eq_none.mp h s hs
  simp [hmember, hstatus] at hnot

/-- A row that is written back stays pending only if it was. -/
theorem KycWorld.OnePending.put (h : w.OnePending) (current row : KycSubmission)
    (hcurrent : w.submissions.get? row.id = some current) (hmember : row.memberId = current.memberId)
    (hstatus : row.status = .pending → current.status = .pending)
    (heq : w'.submissions = w.submissions.put row) : w'.OnePending := by
  have hmem := Keyed.mem_of_get? hcurrent
  have hkey : current.id = row.id := Keyed.key_of_get? hcurrent
  intro s hs s' hs' hsame hpending hpending'
  rw [heq] at hs hs'
  rcases Keyed.mem_put.mp hs with ⟨hin, hne⟩ | ⟨hrow, -⟩
  · rcases Keyed.mem_put.mp hs' with ⟨hin', -⟩ | ⟨hrow', -⟩
    · exact h s hin s' hin' hsame hpending hpending'
    · -- another pending row of the member would have been there before
      rw [hrow'] at hsame hpending'
      have hold := h s hin current hmem (hsame.trans hmember) hpending (hstatus hpending')
      exact absurd (hold ▸ hkey) hne
  · rcases Keyed.mem_put.mp hs' with ⟨hin', hne⟩ | ⟨hrow', -⟩
    · rw [hrow] at hsame hpending
      have hold := h current hmem s' hin' (hmember.symm.trans hsame) (hstatus hpending) hpending'
      exact absurd (hold ▸ hkey) hne
    · rw [hrow, hrow']

theorem KycWorld.OnePending.insertSubmission (h : w.OnePending) (memberId : Uuid) (values : KycValues)
    (now : ℤ) : (w.insertSubmission memberId values now).OnePending := by
  unfold KycWorld.insertSubmission
  split
  · rename_i hfree
    have hnone := pending?_eq_none hfree.2.2
    intro s hs s' hs' hsame hpending hpending'
    rw [Keyed.rows_insertNew, List.mem_append, List.mem_singleton] at hs hs'
    rcases hs with hs | rfl
    · rcases hs' with hs' | rfl
      · exact h s hs s' hs' hsame hpending hpending'
      · exact absurd hpending (hnone s hs hsame)
    · rcases hs' with hs' | rfl
      · exact absurd hpending' (hnone s' hs' hsame.symm)
      · rfl
  · exact h

theorem KycWorld.OnePending.overwriteSubmission (h : w.OnePending) (read : KycSubmission)
    (values : KycValues) (now : ℤ) : (w.overwriteSubmission read values now).OnePending := by
  unfold KycWorld.overwriteSubmission
  split
  · exact h
  · rename_i current hcurrent
    have hkey : current.id = read.id := Keyed.key_of_get? hcurrent
    split
    · refine h.put current (current.resubmit read values now) ?_ rfl id rfl
      show w.submissions.get? current.id = some current
      rw [hkey, hcurrent]
    · exact h

theorem patched_ne {α : Type} [DecidableEq α] {current read new a : α} (hnew : new ≠ a)
    (h : patched current read new = a) : current = a := by
  unfold patched at h
  split at h
  · exact h
  · exact absurd h hnew

/-- A review never makes a submission pending. -/
theorem KycWorld.OnePending.review (h : w.OnePending) {current read : KycSubmission} {status : ReviewStatus}
    {reviewer : Uuid} {now : ℤ} {reason : Option String} (hstatus : status ≠ .pending)
    (hcurrent : w.submissions.get? read.id = some current)
    (heq : w'.submissions = w.submissions.put (current.review read status reviewer now reason)) :
    w'.OnePending := by
  have hkey : current.id = read.id := Keyed.key_of_get? hcurrent
  refine h.put current (current.review read status reviewer now reason) ?_ rfl
    (patched_ne hstatus) heq
  show w.submissions.get? current.id = some current
  rw [hkey, hcurrent]

theorem KycWorld.OnePending.applySubmission (h : w.OnePending) (read : KycSubmission) (member : MemberRecord)
    (reviewer : Uuid) (now : ℤ) : (w.applySubmission read member reviewer now).OnePending := by
  unfold KycWorld.applySubmission
  split
  · rename_i current currentMember hcurrent hmember
    dsimp only
    split
    · exact h.review (by decide) hcurrent rfl
    · exact h
  · exact h

theorem KycWorld.OnePending.rejectSubmission (h : w.OnePending) (read : KycSubmission) (reviewer : Uuid)
    (reason : String) (now : ℤ) : (w.rejectSubmission read reviewer reason now).OnePending := by
  unfold KycWorld.rejectSubmission
  split
  · rename_i current hcurrent
    exact h.review (by decide) hcurrent rfl
  · exact h

/-- Whatever the calls do, the index is kept. -/
theorem KycWorld.OnePending.step (h : w.OnePending) (a : KycAction) : (w.step a).OnePending := by
  have hset : ∀ {w : KycWorld}, w.OnePending → ∀ i call, (w.setCall i call).OnePending :=
    fun h _ _ => KycWorld.OnePending.congr h rfl
  cases a with
  | readPending i memberId values => exact hset h _ _
  | commitSubmit i now =>
    show (w.commitSubmit i now).OnePending
    unfold KycWorld.commitSubmit
    split
    · exact hset (h.insertSubmission _ _ _) _ _
    · exact hset (h.overwriteSubmission _ _ _) _ _
    · exact h
  | readForApproval i submissionId reviewer =>
    show (w.readForApproval i submissionId reviewer).OnePending
    unfold KycWorld.readForApproval
    split
    · exact h
    · exact hset h _ _
  | checkUnique i =>
    show (w.checkUnique i).OnePending
    unfold KycWorld.checkUnique
    split
    · split
      · exact hset h _ _
      · exact hset h _ _
    · exact h
  | commitApprove i now =>
    show (w.commitApprove i now).OnePending
    unfold KycWorld.commitApprove
    split
    · exact hset (h.applySubmission _ _ _ _) _ _
    · exact h
  | readForRejection i submissionId reviewer reason =>
    show (w.readForRejection i submissionId reviewer reason).OnePending
    unfold KycWorld.readForRejection
    split
    · exact h
    · exact hset h _ _
  | commitReject i now =>
    show (w.commitReject i now).OnePending
    unfold KycWorld.commitReject
    split
    · exact hset (h.rejectSubmission _ _ _ _) _ _
    · exact h
  | rollback i => exact hset h _ _

end

/-! ## What the calls in progress hold -/

/-- What is known of a call: a review has read a pending submission, and as long as it is pending
nobody has written the member. -/
def KycWorld.Holds (w : KycWorld) : KycCall → Prop
  | .submitting .. => True
  | .approving read member _ _ =>
    read.status = .pending ∧ member.id = read.memberId ∧
    ∃ current, w.submissions.get? read.id = some current ∧ current.memberId = read.memberId ∧
      (current.status = .pending → w.members.get? read.memberId = some member)
  | .rejecting read _ _ => read.status = .pending

/-- The invariant: the index, the approvals and their submissions, and the calls in progress. -/
structure KycWorld.Sound (w : KycWorld) : Prop where
  onePending : w.OnePending
  logged : ∀ a ∈ w.applied, a.stored = a.values ∧ ∃ s ∈ w.submissions.rows,
    s.id = a.submissionId ∧ s.status = .approved ∧ s.snapshot = a.values
  approved : ∀ s ∈ w.submissions.rows, s.status = .approved → ∃ a ∈ w.applied, a.submissionId = s.id
  calls : ∀ i, ∀ call ∈ w.calls i, w.Holds call

section

variable {w w' : KycWorld}

theorem KycWorld.sound_start (members : Keyed MemberRecord.id) : (KycWorld.start members).Sound where
  onePending := nofun
  logged := nofun
  approved := nofun
  calls := nofun

theorem KycWorld.Sound.storedAsApproved (h : w.Sound) : w.StoredAsApproved := by
  intro s hs happroved
  refine ⟨h.approved s hs happroved, ?_⟩
  intro a ha hid
  obtain ⟨hstored, s', hs', hid', -, hsnapshot⟩ := h.logged a ha
  have hsame : s' = s := w.submissions.eq_of_key hs' hs (hid'.trans hid)
  rw [hstored, ← hsnapshot, hsame]
  exact ⟨rfl, rfl⟩

theorem KycWorld.Sound.setCall (h : w.Sound) (i : ℕ) {o : Option KycCall}
    (ho : ∀ call ∈ o, w.Holds call) : (w.setCall i o).Sound where
  onePending := h.onePending
  logged := h.logged
  approved := h.approved
  calls := by
    intro j call hcall
    show w.Holds call
    by_cases hji : j = i
    · rw [hji] at hcall
      exact ho call (by simpa [KycWorld.setCall] using hcall)
    · have hother : w.calls j = some call := by simpa [KycWorld.setCall, hji] using hcall
      exact h.calls j call hother

theorem KycWorld.Sound.endCall (h : w.Sound) (i : ℕ) : (w.setCall i none).Sound :=
  h.setCall i nofun

/-- What a call holds stays while its submission and its member stay. -/
theorem KycWorld.Holds.mono {call : KycCall} (h : w.Holds call)
    (hrows : ∀ read member reviewer fields, call = .approving read member reviewer fields →
      ∀ current, w.submissions.get? read.id = some current →
      ∃ current', w'.submissions.get? read.id = some current' ∧
        current'.memberId = current.memberId ∧
        (current'.status = .pending → current.status = .pending ∧
          w'.members.get? read.memberId = w.members.get? read.memberId)) : w'.Holds call := by
  cases call with
  | submitting memberId values read => trivial
  | rejecting read reviewer reason => exact h
  | approving read member reviewer fields =>
    obtain ⟨hread, hmember, current, hcurrent, hid, hkept⟩ := h
    obtain ⟨current', hcurrent', hid', hpending⟩ := hrows _ _ _ _ rfl current hcurrent
    refine ⟨hread, hmember, current', hcurrent', hid'.trans hid, ?_⟩
    intro hstatus
    rw [(hpending hstatus).2]
    exact hkept (hpending hstatus).1

/-! ### The commits -/

/-- A pending row is written back as `row`; when it is approved then, `new` says what was applied,
and no member but its own is written. -/
structure KycWorld.Replaces (w w' : KycWorld) (current row : KycSubmission) (new : List Applied) :
    Prop where
  found : w.submissions.get? row.id = some current
  pending : current.status = .pending
  memberId : row.memberId = current.memberId
  submissions : w'.submissions = w.submissions.put row
  calls : w'.calls = w.calls
  applied : w'.applied = w.applied ++ new
  logged : ∀ a ∈ new, a.stored = a.values ∧ a.submissionId = row.id ∧ row.status = .approved ∧
    row.snapshot = a.values
  approved : row.status = .approved → ∃ a ∈ new, a.submissionId = row.id
  members : ∀ memberId, row.status = .pending ∨ memberId ≠ current.memberId →
    w'.members.get? memberId = w.members.get? memberId

section

variable {current row : KycSubmission} {new : List Applied}

/-- A row of the table that is not pending is not the one that is written back. -/
theorem KycWorld.Replaces.kept (h : w.Replaces w' current row new) {s : KycSubmission}
    (hs : s ∈ w.submissions.rows) (hstatus : s.status ≠ .pending) : s ∈ w'.submissions.rows := by
  rw [h.submissions]
  refine Keyed.mem_put.mpr (.inl ⟨hs, ?_⟩)
  intro hsame
  have hrow : s = current := w.submissions.eq_of_key hs (Keyed.mem_of_get? h.found)
    (hsame.trans (Keyed.key_of_get? h.found).symm)
  rw [hrow] at hstatus
  exact hstatus h.pending

/-- What a call holds stays: where its own submission was approved or rejected nothing is left to
hold, and two pending submissions are not of one member. -/
theorem KycWorld.Replaces.holds (h : w.Replaces w' current row new) (hone : w.OnePending)
    {call : KycCall} (hcall : w.Holds call) : w'.Holds call := by
  refine hcall.mono ?_
  rintro read member reviewer fields rfl current' hcurrent'
  obtain ⟨-, -, current'', hcurrent'', hmember, -⟩ := hcall
  obtain rfl : current'' = current' := Option.some.inj (hcurrent''.symm.trans hcurrent')
  rw [h.submissions]
  by_cases hid : row.id = read.id
  · have hsame : current'' = current :=
      Option.some.inj (hcurrent'.symm.trans (hid ▸ h.found))
    refine ⟨row, Keyed.get?_put_self hcurrent' hid, by rw [h.memberId, hsame], ?_⟩
    intro hpending
    rw [hsame]
    exact ⟨h.pending, h.members _ (.inl hpending)⟩
  · refine ⟨current'', ?_, rfl, ?_⟩
    · rw [Keyed.get?_put_of_ne _ hid]
      exact hcurrent'
    · intro hpending
      refine ⟨hpending, h.members _ (.inr ?_)⟩
      intro hsame
      have hrow : current'' = current := hone current'' (Keyed.mem_of_get? hcurrent') current
        (Keyed.mem_of_get? h.found) (hmember.trans hsame) hpending h.pending
      apply hid
      rw [← Keyed.key_of_get? hcurrent', hrow]
      exact (Keyed.key_of_get? h.found).symm

theorem KycWorld.Sound.replaces (hw : w.Sound) (h : w.Replaces w' current row new) : w'.Sound where
  onePending := hw.onePending.put current row h.found h.memberId (fun _ => h.pending) h.submissions
  logged := by
    have hrow : row ∈ w'.submissions.rows := by
      rw [h.submissions]
      exact Keyed.mem_put.mpr (.inr ⟨rfl, current, Keyed.mem_of_get? h.found,
        Keyed.key_of_get? h.found⟩)
    intro a ha
    rw [h.applied, List.mem_append] at ha
    rcases ha with ha | ha
    · obtain ⟨hstored, s, hs, hid, happroved, hsnapshot⟩ := hw.logged a ha
      have hnot : s.status ≠ .pending := by
        rw [happroved]
        decide
      exact ⟨hstored, s, h.kept hs hnot, hid, happroved, hsnapshot⟩
    · obtain ⟨hstored, hid, happroved, hsnapshot⟩ := h.logged a ha
      exact ⟨hstored, row, hrow, hid.symm, happroved, hsnapshot⟩
  approved := by
    intro s hs happroved
    rw [h.applied]
    rw [h.submissions] at hs
    rcases Keyed.mem_put.mp hs with ⟨hin, -⟩ | ⟨hrow, -⟩
    · obtain ⟨a, ha, hid⟩ := hw.approved s hin happroved
      exact ⟨a, List.mem_append_left _ ha, hid⟩
    · rw [hrow] at happroved ⊢
      obtain ⟨a, ha, hid⟩ := h.approved happroved
      exact ⟨a, List.mem_append_right _ ha, hid⟩
  calls := by
    intro i call hcall
    rw [h.calls] at hcall
    exact h.holds hw.onePending (hw.calls i call hcall)

end

/-- What one commit does to a sound world. -/
def KycWorld.Commits (w w' : KycWorld) : Prop := w'.Sound ∧ w.ReviewedKept w'

theorem KycWorld.Sound.commits_self (h : w.Sound) : w.Commits w := ⟨h, fun _ hs _ => hs⟩

theorem KycWorld.Sound.commits_replaces (hw : w.Sound) {current row : KycSubmission}
    {new : List Applied} (h : w.Replaces w' current row new) : w.Commits w' :=
  ⟨hw.replaces h, fun _ hs hstatus => h.kept hs hstatus⟩

theorem KycWorld.Commits.endCall (h : w.Commits w') (i : ℕ) : w.Commits (w'.setCall i none) :=
  ⟨h.1.endCall i, h.2⟩

theorem KycWorld.Sound.insertSubmission (h : w.Sound) (memberId : Uuid) (values : KycValues)
    (now : ℤ) : w.Commits (w.insertSubmission memberId values now) := by
  have hone := h.onePending.insertSubmission memberId values now
  unfold KycWorld.insertSubmission at hone ⊢
  split
  · rename_i hfree
    rw [if_pos hfree] at hone
    refine ⟨⟨hone, ?_, ?_, ?_⟩, fun s hs _ => List.mem_append_left _ hs⟩
    · intro a ha
      obtain ⟨hstored, s, hs, hrest⟩ := h.logged a ha
      exact ⟨hstored, s, List.mem_append_left _ hs, hrest⟩
    · intro s hs happroved
      rw [Keyed.rows_insertNew, List.mem_append, List.mem_singleton] at hs
      rcases hs with hs | rfl
      · exact h.approved s hs happroved
      · cases happroved
    · intro i call hcall
      refine KycWorld.Holds.mono (h.calls i call hcall) ?_
      intro read member reviewer fields _ current hcurrent
      exact ⟨current, Keyed.get?_insertNew_of_some hcurrent, rfl, fun hstatus => ⟨hstatus, rfl⟩⟩
  · exact h.commits_self

/-- A resubmission writes over a row that is pending. -/
theorem KycWorld.Sound.overwriteSubmission (h : w.Sound) {read : KycSubmission}
    (values : KycValues) (now : ℤ)
    (hpending : ∀ current ∈ w.submissions.get? read.id, current.status = .pending) :
    w.Commits (w.overwriteSubmission read values now) := by
  unfold KycWorld.overwriteSubmission
  cases hcurrent : w.submissions.get? read.id with
  | none => exact h.commits_self
  | some current =>
    dsimp only
    split
    · have hstatus : current.status = .pending := hpending current hcurrent
      have hreplaces : w.Replaces
          { w with submissions := w.submissions.put (current.resubmit read values now) }
          current (current.resubmit read values now) [] := by
        refine ⟨?_, hstatus, rfl, rfl, rfl, (List.append_nil _).symm, nofun, ?_, fun _ _ => rfl⟩
        · show w.submissions.get? current.id = some current
          rw [Keyed.key_of_get? hcurrent, hcurrent]
        · intro happroved
          exact nomatch hstatus.symm.trans happroved
      exact h.commits_replaces hreplaces
    · exact h.commits_self

theorem patched_of_ne {α : Type} [DecidableEq α] {current read new : α} (h : new ≠ read) :
    patched current read new = new := if_neg h

theorem patched_self {α : Type} [DecidableEq α] (read new : α) : patched read read new = new := by
  unfold patched
  split
  · rename_i heq
    exact heq.symm
  · rfl

/-- A submission is rejected while it is pending. -/
theorem KycWorld.Sound.rejectSubmission (h : w.Sound) {read : KycSubmission} (reviewer : Uuid)
    (reason : String) (now : ℤ) (hread : read.status = .pending)
    (hpending : ∀ current ∈ w.submissions.get? read.id, current.status = .pending) :
    w.Commits (w.rejectSubmission read reviewer reason now) := by
  unfold KycWorld.rejectSubmission
  cases hcurrent : w.submissions.get? read.id with
  | none => exact h.commits_self
  | some current =>
    have hrejected : (current.review read .rejected reviewer now (some reason)).status = .rejected :=
      patched_of_ne (by rw [hread]; decide)
    have hreplaces : w.Replaces
        { w with
          submissions := w.submissions.put
            (current.review read .rejected reviewer now (some reason)) }
        current (current.review read .rejected reviewer now (some reason)) [] := by
      refine ⟨?_, hpending current hcurrent, rfl, rfl, rfl, (List.append_nil _).symm, nofun, ?_,
        fun _ _ => rfl⟩
      · show w.submissions.get? current.id = some current
        rw [Keyed.key_of_get? hcurrent, hcurrent]
      · intro happroved
        exact nomatch hrejected.symm.trans happroved
    exact h.commits_replaces hreplaces

/-- A submission is approved while it is pending, with the snapshot that was read: then nobody has
written the member either, and all its columns get their values. -/
theorem KycWorld.Sound.applySubmission (h : w.Sound) {read : KycSubmission} {member : MemberRecord}
    {reviewer : Uuid} {fields : List KycField} (now : ℤ)
    (hholds : w.Holds (.approving read member reviewer fields))
    (hpending : ∀ current ∈ w.submissions.get? read.id,
      current.status = .pending ∧ current.snapshot = read.snapshot) :
    w.Commits (w.applySubmission read member reviewer now) := by
  obtain ⟨hread, hid, current, hcurrent, hmemberId, hkept⟩ := hholds
  obtain ⟨hstatus, hsnapshot⟩ := hpending current hcurrent
  have hmember : w.members.get? member.id = some member := by
    rw [hid]
    exact hkept hstatus
  have hvalues : KycValues.patch member.values member.values read.snapshot = read.snapshot := by
    funext field
    exact patched_self _ _
  have happroved : (current.review read .approved reviewer now read.rejectionReason).status
      = .approved := patched_of_ne (by rw [hread]; decide)
  unfold KycWorld.applySubmission
  simp only [hcurrent, hmember, hvalues]
  split
  · have hreplaces : w.Replaces
        { w with
          members := w.members.put { member with values := read.snapshot }
          submissions := w.submissions.put
            (current.review read .approved reviewer now read.rejectionReason)
          applied := w.applied ++ [⟨read.id, read.snapshot, read.snapshot⟩] }
        current (current.review read .approved reviewer now read.rejectionReason)
        [⟨read.id, read.snapshot, read.snapshot⟩] := by
      have hkey : current.id = read.id := Keyed.key_of_get? hcurrent
      refine ⟨?_, hstatus, rfl, rfl, rfl, rfl, ?_, ?_, ?_⟩
      · show w.submissions.get? current.id = some current
        rw [hkey, hcurrent]
      · intro a ha
        rw [List.mem_singleton.mp ha]
        exact ⟨rfl, hkey.symm, happroved, hsnapshot⟩
      · intro _
        exact ⟨_, List.mem_singleton_self _, hkey.symm⟩
      · rintro memberId (hpend | hother)
        · cases happroved.symm.trans hpend
        · refine Keyed.get?_put_of_ne _ ?_
          show member.id ≠ memberId
          rw [hid, ← hmemberId]
          exact hother.symm
    exact h.commits_replaces hreplaces
  · exact h.commits_self

/-- What is read for a review. -/
theorem KycWorld.readForReview_eq_some {submissionId : Uuid} {s : KycSubmission}
    {member : MemberRecord} (h : w.readForReview submissionId = some (s, member)) :
    s.status = .pending ∧ w.submissions.get? s.id = some s ∧
      w.members.get? s.memberId = some member := by
  unfold KycWorld.readForReview at h
  cases hs : w.submissions.get? submissionId with
  | none =>
    rw [hs] at h
    cases h
  | some found =>
    simp only [hs] at h
    split at h
    · rename_i hstatus
      obtain ⟨m, hm, heq⟩ := Option.map_eq_some_iff.mp h
      obtain ⟨rfl, rfl⟩ := Prod.mk.inj heq
      exact ⟨hstatus, by rw [Keyed.key_of_get? hs, hs], hm⟩
    · cases h

/-- An undisturbed step keeps the invariant and every reviewed row. -/
theorem KycWorld.Sound.step (h : w.Sound) {a : KycAction} (ha : Undisturbed w a) :
    w.Commits (w.step a) := by
  have hset : ∀ i o, (∀ call ∈ o, w.Holds call) → w.Commits (w.setCall i o) :=
    fun i o ho => ⟨h.setCall i ho, fun _ hs _ => hs⟩
  cases a with
  | readPending i memberId values =>
    refine hset i _ ?_
    intro call hcall
    rw [← Option.mem_some_iff.mp hcall]
    trivial
  | commitSubmit i now =>
    show w.Commits (w.commitSubmit i now)
    unfold Undisturbed at ha
    unfold KycWorld.commitSubmit
    split
    · exact (h.insertSubmission _ _ _).endCall i
    · rename_i hcall
      simp only [hcall] at ha
      exact (h.overwriteSubmission _ _ ha).endCall i
    · exact h.commits_self
  | readForApproval i submissionId reviewer =>
    show w.Commits (w.readForApproval i submissionId reviewer)
    unfold KycWorld.readForApproval
    split
    · exact h.commits_self
    · rename_i s member hread
      obtain ⟨hstatus, hs, hmember⟩ := KycWorld.readForReview_eq_some hread
      refine hset i _ ?_
      intro call hcall
      rw [← Option.mem_some_iff.mp hcall]
      exact ⟨hstatus, Keyed.key_of_get? hmember, s, hs, rfl, fun _ => hmember⟩
  | checkUnique i =>
    show w.Commits (w.checkUnique i)
    unfold KycWorld.checkUnique
    split
    · rename_i hcall
      have hheld := h.calls i _ hcall
      split
      · exact hset i none (by simp)
      · refine hset i _ ?_
        intro call hnext
        rw [← Option.mem_some_iff.mp hnext]
        exact hheld
    · exact h.commits_self
  | commitApprove i now =>
    show w.Commits (w.commitApprove i now)
    unfold Undisturbed at ha
    unfold KycWorld.commitApprove
    split
    · rename_i hcall
      simp only [hcall] at ha
      exact (h.applySubmission now (h.calls i _ hcall) ha).endCall i
    · exact h.commits_self
  | readForRejection i submissionId reviewer reason =>
    show w.Commits (w.readForRejection i submissionId reviewer reason)
    unfold KycWorld.readForRejection
    split
    · exact h.commits_self
    · rename_i s member hread
      refine hset i _ ?_
      intro call hcall
      rw [← Option.mem_some_iff.mp hcall]
      exact (KycWorld.readForReview_eq_some hread).1
  | commitReject i now =>
    show w.Commits (w.commitReject i now)
    unfold Undisturbed at ha
    unfold KycWorld.commitReject
    split
    · rename_i hcall
      simp only [hcall] at ha
      exact (h.rejectSubmission _ _ now (h.calls i _ hcall) ha).endCall i
    · exact h.commits_self
  | rollback i => exact hset i none (by simp)

/-- Reviewed rows stay through an undisturbed run. -/
theorem KycWorld.Sound.run (h : w.Sound) {actions : List KycAction}
    (hactions : Along KycWorld.step Undisturbed w actions) :
    w.Commits (run KycWorld.step w actions) := by
  induction actions generalizing w with
  | nil => exact h.commits_self
  | cons a actions ih =>
    obtain ⟨hsound, hkept⟩ := h.step hactions.1
    obtain ⟨hend, hlater⟩ := ih hsound hactions.2
    exact ⟨hend, fun s hs hstatus => hlater s (hkept s hs hstatus) hstatus⟩

end

/-! ## Runs -/

/-- In every run a member has at most one pending submission. In every run in which each commit
finds its submission pending, and an approval finds the snapshot that it has read, an approved
submission is stored as it was approved, and a reviewed row never changes again. -/
theorem kyc_stored_as_approved (members : Keyed MemberRecord.id) (actions : List KycAction) :
    (∀ front, front <+: actions →
      (run KycWorld.step (.start members) front).OnePending) ∧
    (Along KycWorld.step Undisturbed (.start members) actions →
      (∀ front, front <+: actions →
        (run KycWorld.step (.start members) front).StoredAsApproved) ∧
      ∀ front later, front ++ later <+: actions →
        (run KycWorld.step (.start members) front).ReviewedKept
          (run KycWorld.step (.start members) (front ++ later))) := by
  have hstart := KycWorld.sound_start members
  constructor
  · intro front _
    exact run_invariant_of_step (fun _ a hw => hw.step a) front hstart.onePending
  · intro hactions
    constructor
    · rintro front ⟨rest, rfl⟩
      exact (hstart.run (along_append.mp hactions).1).1.storedAsApproved
    · rintro front later ⟨rest, rfl⟩
      obtain ⟨hfront, hlater⟩ := along_append.mp (along_append.mp hactions).1
      rw [run_append]
      exact ((hstart.run hfront).1.run hlater).2

/-- One member without any of the editable fields. -/
def oneMember : Keyed MemberRecord.id := ⟨[⟨9, fun _ => none⟩], List.nodup_singleton _⟩

/-- Proposed values with just a phone number. -/
def phoneOnly (number : String) : KycValues := Function.update (fun _ => none) .phone (some (.text number))

/-- The member submits one phone number, resubmits another, and user 7 approves. -/
def kycInTurn : List KycAction :=
  [.readPending 0 9 (phoneOnly "0700"), .commitSubmit 0 1,
    .readPending 0 9 (phoneOnly "0711"), .commitSubmit 0 2,
    .readForApproval 1 1 7, .checkUnique 1, .checkUnique 1, .commitApprove 1 3]

instance (w : KycWorld) (a : KycAction) : Decidable (Undisturbed w a) := by
  unfold Undisturbed
  split
  · split <;> infer_instance
  · split <;> infer_instance
  · split <;> infer_instance
  · infer_instance

theorem kyc_stored_as_approved_inTurn :
    ((run KycWorld.step (.start oneMember) kycInTurn).submissions.rows.map
      fun s => (s.status, s.snapshot .phone)) = [(.approved, some (.text "0711"))] ∧
    (run KycWorld.step (.start oneMember) kycInTurn).StoredAsApproved := by
  refine ⟨by decide +kernel, ?_⟩
  exact ((kyc_stored_as_approved oneMember kycInTurn).2 (by decide +kernel)).1 _
    (List.prefix_refl _)

/-- The same calls, but the approval has read the submission before the member resubmits. -/
def kycOverlapping : List KycAction :=
  [.readPending 0 9 (phoneOnly "0700"), .commitSubmit 0 1,
    .readForApproval 1 1 7, .checkUnique 1, .checkUnique 1,
    .readPending 0 9 (phoneOnly "0711"), .commitSubmit 0 2, .commitApprove 1 3]

/-- The member gets the first number, and the approved submission holds the second. -/
theorem kyc_approved_otherwise :
    ((run KycWorld.step (.start oneMember) kycOverlapping).submissions.rows.map
      fun s => (s.status, s.snapshot .phone)) = [(.approved, some (.text "0711"))] ∧
    ((run KycWorld.step (.start oneMember) kycOverlapping).members.rows.map
      fun m => m.values .phone) = [some (.text "0700")] ∧
    ¬ (run KycWorld.step (.start oneMember) kycOverlapping).StoredAsApproved := by
  refine ⟨by decide +kernel, by decide +kernel, ?_⟩
  unfold KycWorld.StoredAsApproved
  decide +kernel

end SaccoPlatform.Members
