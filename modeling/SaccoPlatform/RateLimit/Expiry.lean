import SaccoPlatform.RateLimit.Bucket

/-!
# Three descriptions of the bucket

The script keeps a bucket under a key that expires, `peek_remaining_many` reads the key and computes
the refill again in Python, and a policy is meant as a bucket that is always there. When all clocks
are the clock of Redis, the three agree: a key expires twice the window after its last call, when the
bucket has long been full again.
-/

namespace SaccoPlatform.RateLimit

open Lib

/-- `int(x)`. -/
def truncate (q : ℚ) : ℤ := if 0 ≤ q then ⌊q⌋ else ⌈q⌉

/-- The keys of Redis. -/
abbrev Buckets := String → Option Bucket

/-- One item of `peek_remaining_many`. -/
def peekRemaining (p : Policy) (stored : Option Bucket) (call : BucketCall) : ℤ :=
  match liveBucket stored call.redisTime with
  | none => p.limit
  | some b => truncate (min p.limit (b.tokens + max 0 (call.now - b.ts) * p.refill))

/-- `peek_remaining_many`. -/
def peekRemainingMany (s : Buckets) (items : List (String × Policy)) (call : BucketCall) : List ℤ :=
  items.map fun item => peekRemaining item.2 (s item.1) call

/-- `check_bucket` with cost 1, or `peek_remaining_many`. -/
inductive BucketOp where
  | check (key : String)
  | peek (keys : List String)
deriving DecidableEq, Repr

/-- What the caller gets. -/
inductive BucketAnswer where
  | checked (result : BucketResult)
  | peeked (remaining : List ℤ)
deriving DecidableEq, Repr

/-- A call at a time, on the clock of Redis. -/
abbrev TimedOp := ℚ × BucketOp

/-- The time of the call and of Redis. -/
def atTime (now : ℚ) : BucketCall := ⟨now, now⟩

/-- One call, the key with the name of its policy in it. -/
def Buckets.serve (policy : String → Policy) (s : Buckets) : TimedOp → Buckets × BucketAnswer
  | (now, .check key) =>
    let done := checkBucket (policy key) 1 (s key) (atTime now)
    (Function.update s key (some done.1), .checked done.2)
  | (now, .peek keys) =>
    (s, .peeked (peekRemainingMany s (keys.map fun key => (key, policy key)) (atTime now)))

/-- The keys after a run of calls. -/
def Buckets.after (policy : String → Policy) (s : Buckets) (ops : List TimedOp) : Buckets :=
  run (fun s op => (s.serve policy op).1) s ops

/-! ## The bucket that is always there -/

/-- A bucket without an expiry. -/
structure Level where
  tokens : ℚ
  ts : ℚ
deriving DecidableEq, Repr

/-- The tokens at a time; a bucket that was never used is full. -/
def Level.tokensAt (p : Policy) (now : ℚ) : Option Level → ℚ
  | none => p.limit
  | some b => min p.limit (b.tokens + max 0 (now - b.ts) * p.refill)

/-- A call that takes `cost` tokens if they are there. -/
def Level.take (p : Policy) (cost : ℚ) (b : Option Level) (now : ℚ) : Level × BucketResult :=
  let tokens := Level.tokensAt p now b
  if cost ≤ tokens then (⟨tokens - cost, now⟩, ⟨true, ⌊tokens - cost⌋, 0, p.limit⟩)
  else (⟨tokens, now⟩, ⟨false, ⌊tokens⌋, ⌈(cost - tokens) / p.refill⌉, p.limit⟩)

/-- One call; a look at the buckets says what a call of cost 0 would leave, and takes nothing. -/
def Level.serve (policy : String → Policy) (s : String → Option Level) :
    TimedOp → (String → Option Level) × BucketAnswer
  | (now, .check key) =>
    let done := Level.take (policy key) 1 (s key) now
    (Function.update s key (some done.1), .checked done.2)
  | (now, .peek keys) =>
    (s, .peeked (keys.map fun key => (Level.take (policy key) 0 (s key) now).2.remaining))

/-- What is stored, less the expiry. -/
def Bucket.level (b : Bucket) : Level := ⟨b.tokens, b.ts⟩

/-! ## Expiry -/

/-- At least one token, and a window of at least a second. -/
def Policy.Positive (p : Policy) : Prop := 1 ≤ p.limit ∧ 1 ≤ p.windowSeconds

instance (p : Policy) : Decidable p.Positive := inferInstanceAs (Decidable (_ ∧ _))

/-- The bucket was stored by a call, and its key expires two windows after it. -/
structure Bucket.Kept (p : Policy) (b : Bucket) : Prop where
  nonneg : 0 ≤ b.tokens
  expiresAt : b.expiresAt = b.ts + (p.windowSeconds * 2 : ℤ)

section

variable {p : Policy} {stored : Option Bucket} {now : ℚ}

theorem Policy.Positive.refill_pos (hp : p.Positive) : 0 < p.refill := by
  have hl : (0 : ℚ) < p.limit := by exact_mod_cast (show 0 < p.limit by linarith [hp.1])
  have hw : (0 : ℚ) < p.windowSeconds := by exact_mod_cast (show 0 < p.windowSeconds by linarith [hp.2])
  exact div_pos hl hw

/-- An idle window fills the bucket. -/
theorem Policy.Positive.window_refills (hp : p.Positive) {elapsed : ℚ} (h : p.windowSeconds ≤ elapsed) :
    (p.limit : ℚ) ≤ elapsed * p.refill := by
  have hw : (0 : ℚ) < p.windowSeconds := by exact_mod_cast (show 0 < p.windowSeconds by linarith [hp.2])
  calc (p.limit : ℚ) = p.windowSeconds * p.refill := by
        unfold Policy.refill
        field_simp
    _ ≤ elapsed * p.refill := mul_le_mul_of_nonneg_right h hp.refill_pos.le

theorem refilled_of_found {call : BucketCall} {b : Bucket}
    (h : liveBucket stored call.redisTime = some b) :
    refilled p stored call = min (p.limit : ℚ) (b.tokens + max 0 (call.now - b.ts) * p.refill) := by
  unfold refilled
  rw [h]
  rfl

theorem refilled_of_gone {call : BucketCall} (h : liveBucket stored call.redisTime = none) :
    refilled p stored call = p.limit := by
  unfold refilled
  rw [h]
  simp only [Option.map_none, Option.getD_none, sub_self, max_self, zero_mul, add_zero, min_self]

/-- Whether the key is still there makes no difference. -/
theorem refilled_eq (hp : p.Positive) (hkept : ∀ b ∈ stored, b.Kept p) :
    refilled p stored (atTime now) = Level.tokensAt p now (stored.map (·.level)) := by
  cases stored with
  | none => exact refilled_of_gone rfl
  | some b =>
    have hb := hkept b rfl
    by_cases hlive : now < b.expiresAt
    · exact refilled_of_found (liveBucket_eq_some.mpr ⟨rfl, hlive⟩)
    · -- the key is gone: two windows have passed, and one is enough
      have hgone : liveBucket (some b) now = none := by
        rw [Option.eq_none_iff_forall_ne_some]
        intro b' hb'
        obtain ⟨heq, hlt⟩ := liveBucket_eq_some.mp hb'
        exact hlive (Option.some.inj heq ▸ hlt)
      have hw : (1 : ℚ) ≤ p.windowSeconds := by exact_mod_cast hp.2
      have hold : b.ts + ((p.windowSeconds * 2 : ℤ) : ℚ) ≤ now := hb.expiresAt ▸ not_lt.mp hlive
      push_cast at hold
      have hidle : (p.windowSeconds : ℚ) ≤ max 0 (now - b.ts) := by
        have hwindow : (p.windowSeconds : ℚ) ≤ now - b.ts := by linarith
        exact hwindow.trans (le_max_right _ _)
      have hfull := hp.window_refills hidle
      have hnonneg := hb.nonneg
      rw [@refilled_of_gone p (some b) (atTime now) hgone]
      symm
      apply min_eq_left
      show (p.limit : ℚ) ≤ b.tokens + max 0 (now - b.ts) * p.refill
      linarith

theorem tokensAt_nonneg (hp : p.Positive) (hkept : ∀ b ∈ stored, b.Kept p) :
    0 ≤ Level.tokensAt p now (stored.map (·.level)) := by
  have hl : (0 : ℚ) ≤ p.limit := by exact_mod_cast (show 0 ≤ p.limit by linarith [hp.1])
  cases stored with
  | none => exact hl
  | some b =>
    have htokens : 0 ≤ b.tokens := (hkept b rfl).nonneg
    have hcredit : 0 ≤ max 0 (now - b.ts) * p.refill :=
      mul_nonneg (le_max_left _ _) hp.refill_pos.le
    exact le_min hl (add_nonneg htokens hcredit)

/-- The script does what the bucket without an expiry does. -/
theorem checkBucket_refines (hp : p.Positive) (hkept : ∀ b ∈ stored, b.Kept p) (cost : ℚ) :
    (checkBucket p cost stored (atTime now)).1.level
        = (Level.take p cost (stored.map (·.level)) now).1 ∧
      (checkBucket p cost stored (atTime now)).2
        = (Level.take p cost (stored.map (·.level)) now).2 := by
  unfold checkBucket Level.take
  dsimp only
  rw [refilled_eq hp hkept]
  split
  · exact ⟨rfl, rfl⟩
  · exact ⟨rfl, rfl⟩

theorem checkBucket_kept (hp : p.Positive) (hkept : ∀ b ∈ stored, b.Kept p) :
    (checkBucket p 1 stored (atTime now)).1.Kept p := by
  have hnonneg := @tokensAt_nonneg p stored now hp hkept
  unfold checkBucket
  dsimp only
  rw [refilled_eq hp hkept]
  split
  · rename_i hcost
    exact ⟨sub_nonneg.mpr hcost, rfl⟩
  · exact ⟨hnonneg, rfl⟩

/-- What `peek_remaining_many` computes is what a call of cost 0 leaves. -/
theorem peekRemaining_eq (hp : p.Positive) (hkept : ∀ b ∈ stored, b.Kept p) :
    peekRemaining p stored (atTime now) = (Level.take p 0 (stored.map (·.level)) now).2.remaining := by
  have hnonneg := @tokensAt_nonneg p stored now hp hkept
  have htake : (Level.take p 0 (stored.map (·.level)) now).2.remaining
      = ⌊Level.tokensAt p now (stored.map (·.level))⌋ := by
    unfold Level.take
    dsimp only
    rw [if_pos hnonneg, sub_zero]
  rw [htake, ← refilled_eq hp hkept]
  rw [← refilled_eq hp hkept] at hnonneg
  unfold peekRemaining
  cases hlive : liveBucket stored (atTime now).redisTime with
  | none =>
    rw [refilled_of_gone hlive]
    exact (Int.floor_intCast _).symm
  | some b =>
    rw [refilled_of_found hlive] at hnonneg ⊢
    exact if_pos hnonneg

/-! ## After a denial -/

/-- The call is admitted as soon as the missing part of a token has been refilled. -/
theorem take_allowed_iff (hp : p.Positive) {tokens now' : ℚ} (hlater : now ≤ now') :
    (Level.take p 1 (some ⟨tokens, now⟩) now').2.allowed = true ↔
      (1 - tokens) / p.refill ≤ now' - now := by
  have hl : (1 : ℚ) ≤ p.limit := by exact_mod_cast hp.1
  have helapsed : max 0 (now' - now) = now' - now := max_eq_right (by linarith)
  have hcost : (1 : ℚ) ≤ Level.tokensAt p now' (some ⟨tokens, now⟩) ↔
      (1 - tokens) / p.refill ≤ now' - now := by
    show (1 : ℚ) ≤ min (p.limit : ℚ) (tokens + max 0 (now' - now) * p.refill) ↔ _
    rw [helapsed, le_min_iff, div_le_iff₀ hp.refill_pos]
    constructor
    · intro h
      linarith [h.2]
    · intro h
      exact ⟨hl, by linarith⟩
  rw [← hcost]
  unfold Level.take
  dsimp only
  split
  · rename_i h
    exact ⟨fun _ => h, fun _ => rfl⟩
  · rename_i h
    exact ⟨nofun, fun h' => absurd h' h⟩

/-- `reset` is right to the second. -/
theorem denied_take (hp : p.Positive) {b : Option Level}
    (hdenied : (Level.take p 1 b now).2.allowed = false) {now' : ℚ} (hlater : now ≤ now') :
    (now + (Level.take p 1 b now).2.reset ≤ now' →
      (Level.take p 1 (some (Level.take p 1 b now).1) now').2.allowed = true) ∧
    (now' < now + (Level.take p 1 b now).2.reset - 1 →
      (Level.take p 1 (some (Level.take p 1 b now).1) now').2.allowed = false) := by
  have hshort : ¬ (1 : ℚ) ≤ Level.tokensAt p now b := by
    intro h
    unfold Level.take at hdenied
    dsimp only at hdenied
    rw [if_pos h] at hdenied
    cases hdenied
  have htake : Level.take p 1 b now = (⟨Level.tokensAt p now b, now⟩,
      ⟨false, ⌊Level.tokensAt p now b⌋, ⌈(1 - Level.tokensAt p now b) / p.refill⌉, p.limit⟩) := by
    unfold Level.take
    dsimp only
    rw [if_neg hshort]
  rw [htake]
  dsimp only
  have hwait := Int.le_ceil ((1 - Level.tokensAt p now b) / p.refill)
  have hsecond := Int.ceil_lt_add_one ((1 - Level.tokensAt p now b) / p.refill)
  constructor
  · intro hreset
    exact (take_allowed_iff hp hlater).mpr (by linarith)
  · intro hearly
    rw [← Bool.not_eq_true, take_allowed_iff hp hlater]
    intro hwaited
    linarith

end

/-! ## Runs -/

/-- The buckets without their expiries. -/
def Buckets.levels (s : Buckets) (key : String) : Option Level := (s key).map (·.level)

section

variable {policy : String → Policy} {s : Buckets}

/-- Every bucket was stored by a call. -/
def Buckets.AllKept (policy : String → Policy) (s : Buckets) : Prop :=
  ∀ key, ∀ b ∈ s key, b.Kept (policy key)

theorem serve_refines (hpolicy : ∀ key, (policy key).Positive) (hkept : s.AllKept policy)
    (op : TimedOp) :
    (s.serve policy op).2 = (Level.serve policy s.levels op).2 ∧
      (s.serve policy op).1.levels = (Level.serve policy s.levels op).1 ∧
      (s.serve policy op).1.AllKept policy := by
  obtain ⟨now, op⟩ := op
  cases op with
  | check key =>
    obtain ⟨hlevel, hresult⟩ := @checkBucket_refines (policy key) (s key) now (hpolicy key) (hkept key) 1
    refine ⟨congrArg BucketAnswer.checked hresult, ?_, ?_⟩
    · funext key'
      by_cases hkey : key' = key
      · subst hkey
        show (Function.update s key' _ key').map _ = Function.update s.levels key' _ key'
        rw [Function.update_self, Function.update_self]
        exact congrArg some hlevel
      · show (Function.update s key _ key').map _ = Function.update s.levels key _ key'
        rw [Function.update_of_ne hkey, Function.update_of_ne hkey]
        rfl
    · intro key' b hb
      by_cases hkey : key' = key
      · subst hkey
        rw [show (s.serve policy (now, .check key')).1 key' = _ from Function.update_self ..] at hb
        cases hb
        exact checkBucket_kept (hpolicy key') (hkept key')
      · rw [show (s.serve policy (now, .check key)).1 key' = s key' from Function.update_of_ne hkey ..] at hb
        exact hkept key' b hb
  | peek keys =>
    refine ⟨?_, rfl, hkept⟩
    show BucketAnswer.peeked (peekRemainingMany s (keys.map fun key => (key, policy key)) _) = _
    unfold peekRemainingMany
    rw [List.map_map]
    refine congrArg BucketAnswer.peeked (List.map_congr_left ?_)
    intro key _
    exact peekRemaining_eq (hpolicy key) (hkept key)

theorem noKeys_allKept (policy : String → Policy) : Buckets.AllKept policy fun _ => none := by
  intro key b hb
  cases hb

theorem after_allKept (hpolicy : ∀ key, (policy key).Positive) (ops : List TimedOp) :
    (Buckets.after policy (fun _ => none) ops).AllKept policy := by
  have hstep : ∀ (s : Buckets) (op : TimedOp), s.AllKept policy →
      (s.serve policy op).1.AllKept policy :=
    fun _ op hkept => (serve_refines hpolicy hkept op).2.2
  exact run_invariant_of_step hstep ops (noKeys_allKept policy)

/-- `reset` is right to the second, for the script as well. -/
theorem denied_check (hpolicy : ∀ key, (policy key).Positive) (hkept : s.AllKept policy)
    {key : String} {now now' : ℚ} (hlater : now ≤ now')
    (hdenied : (checkBucket (policy key) 1 (s key) (atTime now)).2.allowed = false) :
    let denied := checkBucket (policy key) 1 (s key) (atTime now)
    (now + denied.2.reset ≤ now' →
      (checkBucket (policy key) 1 (some denied.1) (atTime now')).2.allowed = true) ∧
    (now' < now + denied.2.reset - 1 →
      (checkBucket (policy key) 1 (some denied.1) (atTime now')).2.allowed = false) := by
  obtain ⟨hlevel, hresult⟩ := @checkBucket_refines (policy key) (s key) now (hpolicy key) (hkept key) 1
  have hstored : ∀ b ∈ some (checkBucket (policy key) 1 (s key) (atTime now)).1, b.Kept (policy key) := by
    intro b hb
    obtain rfl := Option.mem_some_iff.mp hb
    exact checkBucket_kept (hpolicy key) (hkept key)
  obtain ⟨-, hnext⟩ := @checkBucket_refines (policy key) _ now' (hpolicy key) hstored 1
  rw [hresult] at hdenied
  intro denied
  show (now + (checkBucket (policy key) 1 (s key) (atTime now)).2.reset ≤ now' → _) ∧ _
  rw [hnext, Option.map_some, hlevel, hresult]
  exact denied_take (hpolicy key) hdenied hlater

def BucketOp.isCheck : BucketOp → Bool
  | check _ => true
  | peek _ => false

def BucketAnswer.isChecked : BucketAnswer → Bool
  | checked _ => true
  | peeked _ => false

/-- The results of the checks are the same without the peeks in between. -/
theorem checks_without_peeks (ops : List TimedOp) :
    (answers (Buckets.serve policy) s ops).filter (·.isChecked)
      = answers (Buckets.serve policy) s (ops.filter (·.2.isCheck)) := by
  induction ops generalizing s with
  | nil => rfl
  | cons op ops ih =>
    obtain ⟨now, op⟩ := op
    cases op with
    | check key =>
      show (_ :: answers _ _ ops).filter _ = answers _ s ((now, BucketOp.check key) :: ops.filter _)
      rw [List.filter_cons_of_pos rfl, ih]
      rfl
    | peek keys =>
      have hskip : ((now, BucketOp.peek keys) :: ops).filter (fun o => o.2.isCheck)
          = ops.filter (fun o => o.2.isCheck) := List.filter_cons_of_neg Bool.false_ne_true
      rw [hskip, ← ih]
      exact List.filter_cons_of_neg Bool.false_ne_true

end

/-- In every run of checks and peeks that begins without keys, the expiry is unobservable and a peek
shows what a call of cost 0 would leave; after a denial the next check is admitted `reset` seconds
later and denied more than a second before that; and peeks change no result. -/
theorem buckets_agree {policy : String → Policy} (hpolicy : ∀ key, (policy key).Positive)
    (ops : List TimedOp) :
    answers (Buckets.serve policy) (fun _ => none) ops
        = answers (Level.serve policy) (fun _ => none) ops ∧
      (∀ key now now', now ≤ now' →
        let s := Buckets.after policy (fun _ => none) ops
        let denied := checkBucket (policy key) 1 (s key) (atTime now)
        denied.2.allowed = false →
          (now + denied.2.reset ≤ now' →
            (checkBucket (policy key) 1 (some denied.1) (atTime now')).2.allowed = true) ∧
          (now' < now + denied.2.reset - 1 →
            (checkBucket (policy key) 1 (some denied.1) (atTime now')).2.allowed = false)) ∧
      (∀ (keys : List String) (now : ℚ),
        let s := Buckets.after policy (fun _ => none) ops
        peekRemainingMany s (keys.map fun key => (key, policy key)) (atTime now)
          = keys.map fun key => (checkBucket (policy key) 0 (s key) (atTime now)).2.remaining) ∧
      (answers (Buckets.serve policy) (fun _ => none) ops).filter (·.isChecked)
        = answers (Buckets.serve policy) (fun _ => none) (ops.filter (·.2.isCheck)) := by
  have hkept : (Buckets.after policy (fun _ => none) ops).AllKept policy := after_allKept hpolicy ops
  refine ⟨?_, ?_, ?_, checks_without_peeks ops⟩
  · have hstep : ∀ (s : Buckets) (t : String → Option Level) (op : TimedOp),
        s.levels = t ∧ s.AllKept policy →
          (s.serve policy op).2 = (Level.serve policy t op).2 ∧
            (s.serve policy op).1.levels = (Level.serve policy t op).1 ∧
              (s.serve policy op).1.AllKept policy := by
      intro s t op hs
      rw [← hs.1]
      exact serve_refines hpolicy hs.2 op
    exact answers_simulation hstep ⟨rfl, noKeys_allKept policy⟩ ops
  · intro key now now' hlater
    exact fun hdenied => denied_check hpolicy hkept hlater hdenied
  · intro keys now
    show (keys.map fun key => (key, policy key)).map _ = _
    rw [List.map_map]
    refine List.map_congr_left ?_
    intro key _
    have hrefines := @checkBucket_refines (policy key) _ now (hpolicy key) (hkept key) 0
    rw [hrefines.2]
    exact peekRemaining_eq (hpolicy key) (hkept key)

/-- Three resets of a password and a denied fourth, looked at a minute later. -/
theorem buckets_agree_passwordReset :
    answers (Buckets.serve fun _ => passwordReset) (fun _ => none)
        [(0, .check "a"), (0, .check "a"), (0, .check "a"), (0, .check "a"), (60, .peek ["a", "b"]),
          (300, .check "a")]
      = answers (Level.serve fun _ => passwordReset) (fun _ => none)
        [(0, .check "a"), (0, .check "a"), (0, .check "a"), (0, .check "a"), (60, .peek ["a", "b"]),
          (300, .check "a")] :=
  (buckets_agree (fun _ => ⟨by decide, by decide⟩) _).1

end SaccoPlatform.RateLimit
