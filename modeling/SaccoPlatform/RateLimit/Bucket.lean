import SaccoPlatform.Lib.Runs
import Mathlib.Data.Rat.Floor
import Mathlib.Algebra.Order.Field.Basic
import Mathlib.Tactic.Linarith
import Mathlib.Tactic.Positivity
import Mathlib.Tactic.FieldSimp
import Mathlib.Tactic.Ring

/-!
# The token bucket

`check_bucket` (`app/core/rate_limit/bucket.py`) and its script `redis_bucket.lua`, in exact
arithmetic. A call brings the time of its own host, and the script stores it as the time of the
bucket whether it lies ahead or behind: a call whose clock is behind credits nothing, but it takes
the bucket back, and the next call whose clock is ahead is credited the same seconds again. What
bounds the admitted calls is therefore not the span of the clocks but the sum of their forward
moves.

The key expires by the clock of Redis, twice the window after the last call. A bucket that is found
expired is full, which is what an idle window would have made of it.
-/

namespace SaccoPlatform.RateLimit

open Lib

/-- `Policy`, without its name. -/
structure Policy where
  limit : ℤ
  windowSeconds : ℤ
deriving DecidableEq, Repr

/-- `refill = policy.limit / policy.window_seconds`. -/
def Policy.refill (p : Policy) : ℚ := p.limit / p.windowSeconds

/-- The hash under the key of the bucket, and when the key expires. -/
structure Bucket where
  tokens : ℚ
  ts : ℚ
  expiresAt : ℚ
deriving DecidableEq, Repr

/-- A call with the time of its host, and the time of Redis when it gets there. -/
structure BucketCall where
  now : ℚ
  redisTime : ℚ
deriving DecidableEq, Repr

structure BucketResult where
  allowed : Bool
  remaining : ℤ
  reset : ℤ
  limit : ℤ
deriving DecidableEq, Repr

/-- What `HMGET` finds: an expired key is gone. -/
def liveBucket (stored : Option Bucket) (redisTime : ℚ) : Option Bucket :=
  stored.filter fun b => redisTime < b.expiresAt

/-- The tokens of the bucket when the call takes its own. -/
def refilled (p : Policy) (stored : Option Bucket) (call : BucketCall) : ℚ :=
  let tokens : ℚ := ((liveBucket stored call.redisTime).map (·.tokens)).getD p.limit
  let ts := ((liveBucket stored call.redisTime).map (·.ts)).getD call.now
  min p.limit (tokens + max 0 (call.now - ts) * p.refill)

/-- The script, with what it stores and what it returns. -/
def checkBucket (p : Policy) (cost : ℚ) (stored : Option Bucket) (call : BucketCall) :
    Bucket × BucketResult :=
  let tokens := refilled p stored call
  let ttl := p.windowSeconds * 2
  if cost ≤ tokens then
    (⟨tokens - cost, call.now, call.redisTime + ttl⟩, ⟨true, ⌊tokens - cost⌋, 0, p.limit⟩)
  else
    (⟨tokens, call.now, call.redisTime + ttl⟩,
      ⟨false, ⌊tokens⌋, ⌈(cost - tokens) / p.refill⌉, p.limit⟩)

/-! ## Runs -/

/-- The bucket of one key, and how many calls it has admitted. -/
structure Counted where
  stored : Option Bucket
  admitted : ℕ
deriving DecidableEq, Repr

/-- One call of `check_bucket` with cost 1. -/
def Counted.step (p : Policy) (s : Counted) (call : BucketCall) : Counted where
  stored := some (checkBucket p 1 s.stored call).1
  admitted := s.admitted + if (checkBucket p 1 s.stored call).2.allowed then 1 else 0

/-- No call has been made. -/
def Counted.start : Counted := ⟨none, 0⟩

/-- How far the clocks move forward from one call to the next, in total. -/
def forward : List ℚ → ℚ
  | t :: t' :: rest => max 0 (t' - t) + forward (t' :: rest)
  | _ => 0

/-- The latest clock less the earliest. -/
def span (times : List ℚ) : ℚ := times.max?.getD 0 - times.min?.getD 0

/-- A bucket that is found expired is a full window old by the clock of the call, too. -/
def FullWhenExpired (p : Policy) (s : Counted) (call : BucketCall) : Prop :=
  ∀ b ∈ s.stored, b.expiresAt ≤ call.redisTime → p.windowSeconds ≤ call.now - b.ts

instance (p : Policy) (s : Counted) (call : BucketCall) : Decidable (FullWhenExpired p s call) :=
  inferInstanceAs (Decidable (∀ b ∈ s.stored, _))

section

variable {p : Policy} {s : Counted} {call : BucketCall}

theorem refill_nonneg (hlimit : 1 ≤ p.limit) (hwindow : 1 ≤ p.windowSeconds) : 0 ≤ p.refill := by
  have hl : (1 : ℚ) ≤ p.limit := by exact_mod_cast hlimit
  have hw : (1 : ℚ) ≤ p.windowSeconds := by exact_mod_cast hwindow
  exact div_nonneg (by linarith) (by linarith)

/-- What the bucket stores holds between nothing and its limit. -/
def InRange (p : Policy) (s : Counted) : Prop :=
  ∀ b ∈ s.stored, 0 ≤ b.tokens ∧ b.tokens ≤ p.limit

theorem liveBucket_eq_some {stored : Option Bucket} {redisTime : ℚ} {b : Bucket} :
    liveBucket stored redisTime = some b ↔ stored = some b ∧ redisTime < b.expiresAt := by
  unfold liveBucket
  rw [Option.filter_eq_some_iff]
  simp

/-- The tokens that a call finds. -/
theorem refilled_inRange (hlimit : 1 ≤ p.limit) (hwindow : 1 ≤ p.windowSeconds)
    (h : InRange p s) : 0 ≤ refilled p s.stored call ∧ refilled p s.stored call ≤ p.limit := by
  have hl : (1 : ℚ) ≤ p.limit := by exact_mod_cast hlimit
  have hrefill := refill_nonneg hlimit hwindow
  refine ⟨?_, min_le_left _ _⟩
  unfold refilled
  cases hlive : liveBucket s.stored call.redisTime with
  | none =>
    have hcredit : 0 ≤ max 0 (call.now - call.now) * p.refill := by positivity
    exact le_min (by linarith) (by simp only [Option.map_none, Option.getD_none]; linarith)
  | some b =>
    have hb := h b (liveBucket_eq_some.mp hlive).1
    have hcredit : 0 ≤ max 0 (call.now - b.ts) * p.refill := by positivity
    exact le_min (by linarith) (by simp only [Option.map_some, Option.getD_some]; linarith [hb.1])

theorem InRange.step (h : InRange p s) (hlimit : 1 ≤ p.limit) (hwindow : 1 ≤ p.windowSeconds)
    (call : BucketCall) : InRange p (s.step p call) := by
  have hrange : 0 ≤ refilled p s.stored call ∧ refilled p s.stored call ≤ p.limit :=
    refilled_inRange hlimit hwindow h
  obtain ⟨hlow, hhigh⟩ := hrange
  intro b hb
  obtain rfl := Option.mem_some_iff.mp hb
  unfold checkBucket
  dsimp only
  split
  · rename_i hcost
    exact ⟨by linarith, by linarith⟩
  · exact ⟨hlow, hhigh⟩

/-- What a call finds is at most what it left plus the refill of the clock's forward move. -/
theorem refilled_le (hlimit : 1 ≤ p.limit) (hwindow : 1 ≤ p.windowSeconds) (h : InRange p s)
    {b : Bucket} (hb : s.stored = some b) (hfull : FullWhenExpired p s call) :
    refilled p s.stored call ≤ b.tokens + p.refill * max 0 (call.now - b.ts) := by
  by_cases hlive : call.redisTime < b.expiresAt
  · have hfound : liveBucket s.stored call.redisTime = some b :=
      liveBucket_eq_some.mpr ⟨hb, hlive⟩
    unfold refilled
    simp only [hfound, Option.map_some, Option.getD_some]
    rw [mul_comm p.refill]
    exact min_le_right _ _
  · -- the window that has passed fills the bucket by itself
    have hold := hfull b hb (not_lt.mp hlive)
    have hw : (0 : ℚ) < p.windowSeconds := by exact_mod_cast hwindow
    have hl : (0 : ℚ) ≤ p.limit := by exact_mod_cast (by omega : (0 : ℤ) ≤ p.limit)
    have hcredit : (p.limit : ℚ) ≤ p.refill * max 0 (call.now - b.ts) := by
      calc (p.limit : ℚ) = p.refill * p.windowSeconds := by
            unfold Policy.refill
            field_simp
        _ ≤ p.refill * max 0 (call.now - b.ts) := by
            apply mul_le_mul_of_nonneg_left _ (refill_nonneg hlimit hwindow)
            exact hold.trans (le_max_right _ _)
    have hmin : refilled p s.stored call ≤ p.limit := min_le_left _ _
    have htokens := (h b hb).1
    linarith

/-- A call admits one token at a time: stored tokens and admitted calls together grow by no more
than the refill. -/
theorem tokens_add_admitted (p : Policy) (s : Counted) (call : BucketCall) :
    (checkBucket p 1 s.stored call).1.tokens + (s.step p call).admitted
      = refilled p s.stored call + s.admitted := by
  unfold Counted.step checkBucket
  dsimp only
  split
  · simp only [if_true]
    push_cast
    ring
  · simp

end

/-- The clocks of the calls so far, with the last one stored in the bucket. -/
structure Budgeted (p : Policy) (s : Counted) (times : List ℚ) : Prop where
  inRange : InRange p s
  empty : s.stored = none → times = [] ∧ s.admitted = 0
  last : ∀ b ∈ s.stored, times.getLast? = some b.ts ∧
    b.tokens + s.admitted ≤ p.limit + p.refill * forward times

theorem forward_append (times : List ℚ) (t t' : ℚ) :
    forward (times ++ [t, t']) = forward (times ++ [t]) + max 0 (t' - t) := by
  induction times with
  | nil => simp [forward]
  | cons a times ih =>
    cases times with
    | nil => simp [forward]
    | cons b times =>
      simp only [List.cons_append, forward] at ih ⊢
      rw [ih, add_assoc]

theorem Budgeted.step {p : Policy} {s : Counted} {times : List ℚ} (hlimit : 1 ≤ p.limit)
    (hwindow : 1 ≤ p.windowSeconds) (h : Budgeted p s times) {call : BucketCall}
    (hfull : FullWhenExpired p s call) : Budgeted p (s.step p call) (times ++ [call.now]) where
  inRange := h.inRange.step hlimit hwindow call
  empty := nofun
  last := by
    intro b' hb'
    obtain rfl := Option.mem_some_iff.mp hb'
    have hts : (checkBucket p 1 s.stored call).1.ts = call.now := by
      unfold checkBucket
      dsimp only
      split <;> rfl
    refine ⟨by rw [hts, List.getLast?_concat], ?_⟩
    rw [tokens_add_admitted]
    cases hstored : s.stored with
    | none =>
      -- the first call finds a full bucket
      obtain ⟨htimes, hnone⟩ := h.empty hstored
      have hmin : refilled p none call ≤ p.limit := min_le_left _ _
      rw [htimes, hnone]
      simp only [List.nil_append, forward, Nat.cast_zero]
      linarith
    | some b =>
      obtain ⟨hlast, hbudget⟩ := h.last b hstored
      obtain ⟨front, rfl⟩ := List.getLast?_eq_some_iff.mp hlast
      have hle := refilled_le hlimit hwindow h.inRange hstored hfull
      rw [hstored] at hle
      rw [List.append_assoc, List.singleton_append, forward_append, mul_add]
      linarith

theorem Budgeted.run {p : Policy} {s : Counted} {times : List ℚ} (hlimit : 1 ≤ p.limit)
    (hwindow : 1 ≤ p.windowSeconds) (h : Budgeted p s times) {calls : List BucketCall}
    (hcalls : Along (Counted.step p) (FullWhenExpired p) s calls) :
    Budgeted p (run (Counted.step p) s calls) (times ++ calls.map (·.now)) := by
  induction calls generalizing s times with
  | nil => simpa using h
  | cons call calls ih =>
    have hnext := ih (h.step hlimit hwindow hcalls.1) hcalls.2
    rwa [List.append_assoc, List.singleton_append, ← List.map_cons] at hnext

/-! ## Clocks -/

/-- Clocks that never go back move forward by their span. -/
theorem forward_eq_span {times : List ℚ} (h : times.IsChain (· ≤ ·)) :
    forward times = span times := by
  induction times with
  | nil => simp [forward, span]
  | cons t times ih =>
    cases times with
    | nil => simp [forward, span]
    | cons t' times =>
      rw [List.isChain_cons_cons] at h
      have hmin : ∀ (ts : List ℚ) (a : ℚ), (a :: ts).IsChain (· ≤ ·) →
          (a :: ts).min?.getD 0 = a := by
        intro ts
        induction ts with
        | nil => intro a _; rfl
        | cons b ts ihts =>
          intro a hchain
          rw [List.isChain_cons_cons] at hchain
          have hrest := ihts a (hchain.2.imp_head fun hb => hchain.1.trans hb)
          rw [List.min?_cons'] at hrest ⊢
          simpa [List.foldl_cons, min_eq_left hchain.1] using hrest
      have hmax : (t :: t' :: times).max?.getD 0 = (t' :: times).max?.getD 0 := by
        rw [List.max?_cons', List.max?_cons', List.foldl_cons, max_eq_right h.1]
      have hchain : (t :: t' :: times).IsChain (· ≤ ·) := List.isChain_cons_cons.mpr h
      have ih' := ih h.2
      unfold span at ih' ⊢
      rw [hmin _ _ hchain, hmax, forward, ih', hmin _ _ h.2, max_eq_right (by linarith [h.1])]
      ring

/-! ## The bound -/

/-- In every run from a key that is not there, the tokens stay between 0 and the limit. In every run
whose clocks move forward by no more than their span in total, and in which a bucket that is found
expired is a window old, the admitted calls are at most the limit plus the refill of the span. -/
theorem admitted_bounded {p : Policy} (hlimit : 1 ≤ p.limit) (hwindow : 1 ≤ p.windowSeconds)
    (calls : List BucketCall) :
    (∀ b ∈ (run (Counted.step p) .start calls).stored, 0 ≤ b.tokens ∧ b.tokens ≤ p.limit) ∧
    (Along (Counted.step p) (FullWhenExpired p) .start calls →
      forward (calls.map (·.now)) ≤ span (calls.map (·.now)) →
      ((run (Counted.step p) .start calls).admitted : ℚ)
        ≤ p.limit + p.limit / p.windowSeconds * span (calls.map (·.now))) := by
  have hstart : InRange p Counted.start := nofun
  constructor
  · exact run_invariant_of_step (fun _ call hs => hs.step hlimit hwindow call) calls hstart
  · intro hfull hforward
    have hbudget : Budgeted p Counted.start [] := ⟨hstart, fun _ => ⟨rfl, rfl⟩, nofun⟩
    have hend := hbudget.run hlimit hwindow hfull
    rw [List.nil_append] at hend
    have hrefill := refill_nonneg hlimit hwindow
    have hspan := mul_le_mul_of_nonneg_left hforward hrefill
    show _ ≤ (p.limit : ℚ) + p.refill * span (calls.map (·.now))
    cases hstored : (run (Counted.step p) .start calls).stored with
    | none =>
      -- no call was made
      obtain ⟨htimes, hnone⟩ := hend.empty hstored
      have hl : (1 : ℚ) ≤ p.limit := by exact_mod_cast hlimit
      rw [htimes] at hspan ⊢
      rw [hnone]
      simp only [forward, mul_zero] at hspan
      push_cast
      linarith
    | some b =>
      have hb := (hend.inRange b hstored).1
      have hle := (hend.last b hstored).2
      linarith

/-- The policy for password resets. -/
def passwordReset : Policy := ⟨3, 900⟩

/-- Calls at these clocks, all of them before the key expires. -/
def callsAt (times : List ℚ) : List BucketCall := times.map (⟨·, 0⟩)

/-- Four calls at once and three more a window later. -/
theorem admitted_bounded_twoWindows :
    (run (Counted.step passwordReset) .start (callsAt [0, 0, 0, 0, 900, 900, 900])).admitted = 6 ∧
    ((run (Counted.step passwordReset) .start (callsAt [0, 0, 0, 0, 900, 900, 900])).admitted : ℚ)
      ≤ passwordReset.limit + passwordReset.limit / passwordReset.windowSeconds
        * span ((callsAt [0, 0, 0, 0, 900, 900, 900]).map (·.now)) := by
  refine ⟨by decide +kernel, ?_⟩
  refine (admitted_bounded (p := passwordReset) (by decide) (by decide) _).2 (by decide +kernel) ?_
  have hchain : ((callsAt [0, 0, 0, 0, 900, 900, 900]).map (·.now)).IsChain (· ≤ ·) := by
    simp [callsAt]
  exact (forward_eq_span hchain).le

/-- A call whose clock is a window behind lets the same window be credited again: nine calls are
admitted where the span of the clocks allows six. -/
theorem admitted_beyond_bound :
    (run (Counted.step passwordReset) .start
      (callsAt [0, 0, 0, 900, 900, 900, 0, 900, 900, 900])).admitted = 9 ∧
    ¬ ((run (Counted.step passwordReset) .start
        (callsAt [0, 0, 0, 900, 900, 900, 0, 900, 900, 900])).admitted : ℚ)
      ≤ passwordReset.limit + passwordReset.limit / passwordReset.windowSeconds
        * span ((callsAt [0, 0, 0, 900, 900, 900, 0, 900, 900, 900]).map (·.now)) := by
  have hadmitted : (run (Counted.step passwordReset) .start
      (callsAt [0, 0, 0, 900, 900, 900, 0, 900, 900, 900])).admitted = 9 := by decide +kernel
  have hspan : span ((callsAt [0, 0, 0, 900, 900, 900, 0, 900, 900, 900]).map (·.now)) = 900 := by
    decide +kernel
  refine ⟨hadmitted, ?_⟩
  rw [hadmitted, hspan]
  norm_num [passwordReset]

end SaccoPlatform.RateLimit
