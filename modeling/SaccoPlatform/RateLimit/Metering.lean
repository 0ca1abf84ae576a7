import SaccoPlatform.Lib.CalendarFields
import SaccoPlatform.Lib.Cells
import SaccoPlatform.RateLimit.Identity

/-!
# The middleware with its buckets

`RateLimitMiddleware` takes the bucket from the policy and the identity of a request. Whoever else is
served in between, requests that share a bucket fare as if nobody else were: nobody uses up the
tokens of another, and nobody gains any.
-/

namespace SaccoPlatform.RateLimit

open Lib

/-! ## The middleware -/

/-- A request with its identity, what the cache and the plan of its tenant hold of overrides, and the
clocks of the call. -/
structure Metered where
  path : String
  identity : RateLimitIdentity
  cached : Option Json
  row : Option Json
  call : BucketCall

/-- The policy of the code. -/
def Metered.base (m : Metered) : NamedPolicy := matchPolicy m.path m.identity.audience

def Metered.policy (m : Metered) : Except RateLimitError ResolvedPolicy :=
  resolvePolicy m.path m.identity m.cached m.row

/-- `rl:{policy.name}:{identity.key}`. -/
def bucketKey (name key : String) : String := s!"rl:{name}:{key}"

/-- What a call leaves under its key. The script has stored the tokens when `EXPIRE` refuses, and a key
that is new has no expiry then: `never` lies after every call. -/
def ResolvedPolicy.leaves (redis : Redis) (never : ℚ) (p : ResolvedPolicy) (stored : Option Bucket)
    (call : BucketCall) : Option Bucket :=
  match trueDiv p.limit p.windowSeconds, scriptNumber p.limit with
  | .ok refill, some capacity =>
    let ttl := (p.windowSeconds.number?.getD 0) * 2
    let done := (bucketScript capacity refill ttl 1 stored call).1
    if redis.takes ttl then some done
    else
      let expiry := (liveBucket stored call.redisTime).map (·.expiresAt)
      some { done with expiresAt := expiry.getD never }
  | _, _ => stored

/-- `RateLimitMiddleware`. -/
def Buckets.meter (redis : Redis) (never : ℚ) (s : Buckets) (m : Metered) : Buckets × Served :=
  (match m.policy with
    | .error _ => s
    | .ok p => Function.update s (bucketKey p.name m.identity.key)
        (p.leaves redis never (s (bucketKey p.name m.identity.key)) m.call),
    dispatch redis s m.path m.identity m.cached m.row m.call)

/-- The middleware for requests of one bucket. -/
def meterOne (redis : Redis) (never : ℚ) (stored : Option Bucket) (m : Metered) :
    Option Bucket × Served :=
  match m.policy with
  | .error e => (stored, .raised e)
  | .ok p => (p.leaves redis never stored m.call,
    match p.checkBucket redis stored m.call with
    | .error _ => .unmetered
    | .ok (_, result) => if result.allowed then .admitted result else .blocked result)

/-- The requests have their policy and their identity in common. -/
def Metered.sharesBucket (m m' : Metered) : Bool :=
  m'.base.name = m.base.name && m'.identity.key = m.identity.key

/-! ## Whose bucket it is -/

theorem colon_notMem_base (m : Metered) : ':' ∉ m.base.name.toList := by
  have hrules : ∀ rule ∈ rateLimitRules, rule.2.2.name.toList.contains ':' = false := by decide +kernel
  have hdefault : "authenticated_default".toList.contains ':' = false := by decide +kernel
  have hbase : m.base.name.toList.contains ':' = false := by
    unfold Metered.base matchPolicy
    split
    · rename_i rule hrule
      exact hrules rule (List.mem_of_find?_eq_some hrule)
    · exact hdefault
  intro hmem
  rw [List.contains_iff_mem.mpr hmem] at hbase
  cases hbase

/-- Requests under one key of Redis share their policy and their identity. -/
theorem sharesBucket_of_key_eq {m m' : Metered}
    (h : bucketKey m'.base.name m'.identity.key = bucketKey m.base.name m.identity.key) :
    m.sharesBucket m' = true := by
  have hparts : ∀ name key : String,
      (bucketKey name key).toList = "rl:".toList ++ (name.toList ++ ':' :: key.toList) := by
    intro name key
    show ("rl:" ++ name ++ ":" ++ key).toList = _
    simp [String.toList_append]
  have hchars := congrArg String.toList h
  rw [hparts, hparts] at hchars
  obtain ⟨hname, hkey⟩ := Date.append_separator_inj (colon_notMem_base m') (colon_notMem_base m)
    (List.append_cancel_left hchars)
  unfold Metered.sharesBucket
  rw [String.toList_injective hname, String.toList_injective hkey]
  simp

/-- Overrides leave the name of the policy alone. -/
theorem name_of_policy {m : Metered} {p : ResolvedPolicy} (h : m.policy = .ok p) :
    p.name = m.base.name := by
  unfold Metered.policy resolvePolicy at h
  split at h
  · cases h
    rfl
  · unfold applyOverrides at h
    split at h
    · cases h
      rfl
    · split at h
      · cases h
        rfl
      · split at h
        · cases h
          rfl
        · cases h

/-- The answer depends on the bucket of the request only. -/
theorem dispatch_eq (redis : Redis) (never : ℚ) (s : Buckets) (m : Metered) :
    dispatch redis s m.path m.identity m.cached m.row m.call
      = (meterOne redis never (s (bucketKey m.base.name m.identity.key)) m).2 := by
  unfold dispatch meterOne
  cases hpolicy : m.policy with
  | error e =>
    have hresolve : resolvePolicy m.path m.identity m.cached m.row = .error e := hpolicy
    rw [hresolve]
  | ok p =>
    have hresolve : resolvePolicy m.path m.identity m.cached m.row = .ok p := hpolicy
    rw [hresolve, ← name_of_policy hpolicy]
    rfl

/-- A request acts on the bucket of its own. -/
theorem meter_eq (redis : Redis) (never : ℚ) (s : Buckets) (m : Metered) :
    s.meter redis never m =
      (Function.update s (bucketKey m.base.name m.identity.key)
        (meterOne redis never (s (bucketKey m.base.name m.identity.key)) m).1,
        (meterOne redis never (s (bucketKey m.base.name m.identity.key)) m).2) := by
  unfold Buckets.meter
  rw [dispatch_eq redis never]
  refine congrArg (·, _) ?_
  unfold meterOne
  cases hpolicy : m.policy with
  | error e =>
    dsimp only
    rw [Function.update_eq_self]
  | ok p =>
    dsimp only
    rw [name_of_policy hpolicy]

/-- Nothing overrides the policy of an address, of a platform user or of a user without a tenant. -/
theorem policy_of_exempt {m : Metered}
    (h : m.identity.audience ∈ [.anonymous, .platform] ∨ m.identity.tenantSlug = none) :
    m.policy = .ok m.base.resolved := if_pos h

/-! ## Under a policy of the code -/

/-- The request got in. -/
def Served.isAdmitted : Served → Bool
  | admitted _ => true
  | _ => false

section

variable {redis : Redis} {never : ℚ}

/-- The bucket of a policy that it can work with. -/
theorem checkBucket_of_bears {p : NamedPolicy} (h : redis.Bears p.policy.limit p.policy.windowSeconds)
    (stored : Option Bucket) (call : BucketCall) :
    p.resolved.checkBucket redis stored call = .ok (checkBucket p.policy 1 stored call) ∧
      p.resolved.leaves redis never stored call = some (checkBucket p.policy 1 stored call).1 := by
  have hw : (0 : ℚ) < p.policy.windowSeconds := by
    exact_mod_cast (show 0 < p.policy.windowSeconds by linarith [h.window_pos])
  have hl : (0 : ℚ) ≤ p.policy.limit := by
    exact_mod_cast (show 0 ≤ p.policy.limit by linarith [h.limit_pos])
  have hdiv : trueDiv (.int p.policy.limit) (.int p.policy.windowSeconds) = .ok p.policy.refill := by
    have hsmall : ¬ floatLimit ≤ |(p.policy.limit : ℚ) / p.policy.windowSeconds| := by
      rw [abs_of_nonneg (div_nonneg hl hw.le)]
      exact not_le.mpr h.refill_lt
    unfold trueDiv
    simp only [Json.number?, hw.ne', if_false, Json.isFloat, Bool.false_eq_true, or_self, hsmall]
    rfl
  have httl : redis.takes ((p.policy.windowSeconds : ℚ) * 2) := by
    have hcast : (p.policy.windowSeconds : ℚ) * 2 = ((p.policy.windowSeconds * 2 : ℤ) : ℚ) := by
      push_cast
      rfl
    unfold Redis.takes
    rw [hcast, Rat.den_intCast]
    exact ⟨rfl, by exact_mod_cast h.ttl_le⟩
  constructor
  · unfold ResolvedPolicy.checkBucket NamedPolicy.resolved
    dsimp only
    rw [hdiv]
    show (if redis.takes ((p.policy.windowSeconds : ℚ) * 2) then Except.ok _ else _) = _
    rw [if_pos httl]
    exact congrArg Except.ok (bucketScript_eq p.policy 1 stored call)
  · unfold ResolvedPolicy.leaves NamedPolicy.resolved
    dsimp only
    rw [hdiv]
    show (if redis.takes ((p.policy.windowSeconds : ℚ) * 2) then some _ else _) = _
    rw [if_pos httl]
    exact congrArg (fun done => some done.1) (bucketScript_eq p.policy 1 stored call)

theorem meterOne_of_base {m : Metered} (h : m.policy = .ok m.base.resolved) (stored : Option Bucket) :
    (meterOne redis never stored m).1 = some (checkBucket m.base.policy 1 stored m.call).1 ∧
      (meterOne redis never stored m).2.isAdmitted
        = (checkBucket m.base.policy 1 stored m.call).2.allowed := by
  have hbears := matchPolicy_bears redis m.path m.identity.audience
  obtain ⟨hcheck, hleaves⟩ := @checkBucket_of_bears redis never m.base hbears stored m.call
  unfold meterOne
  rw [h]
  dsimp only
  refine ⟨hleaves, ?_⟩
  rw [hcheck]
  dsimp only
  cases (checkBucket m.base.policy 1 stored m.call).2.allowed <;> rfl

/-- What is admitted is what the bucket counts. -/
theorem countP_answers {p : Policy} {requests : List Metered}
    (h : ∀ m ∈ requests, m.policy = .ok m.base.resolved ∧ m.base.policy = p) (s : Counted) :
    (answers (meterOne redis never) s.stored requests).countP (·.isAdmitted) + s.admitted
      = (run (Counted.step p) s (requests.map (·.call))).admitted := by
  induction requests generalizing s with
  | nil => exact Nat.zero_add _
  | cons m requests ih =>
    obtain ⟨hpolicy, rfl⟩ := h m List.mem_cons_self
    obtain ⟨hstored, hadmitted⟩ := @meterOne_of_base redis never m hpolicy s.stored
    have hrest := ih (fun m' hm' => h m' (List.mem_cons_of_mem _ hm')) (s.step m.base.policy m.call)
    rw [List.map_cons, run_cons, ← hrest]
    show List.countP _ (_ :: answers _ (meterOne redis never s.stored m).1 requests) + _ = _
    rw [List.countP_cons, hstored, hadmitted]
    unfold Counted.step
    dsimp only
    omega

/-- Where the clocks are that of Redis, a bucket that is found expired is a window old. -/
theorem along_atTime {p : Policy} (hp : p.Positive) {s : Counted} (hkept : ∀ b ∈ s.stored, b.Kept p)
    (times : List ℚ) : Along (Counted.step p) (FullWhenExpired p) s (times.map atTime) := by
  induction times generalizing s with
  | nil => trivial
  | cons now times ih =>
    refine ⟨?_, ih ?_⟩
    · intro b hb hexpired
      have hexpiry := (hkept b hb).expiresAt
      have hw : (1 : ℚ) ≤ p.windowSeconds := by exact_mod_cast hp.2
      rw [hexpiry] at hexpired
      push_cast at hexpired
      show (p.windowSeconds : ℚ) ≤ now - b.ts
      have hnow : b.ts + (p.windowSeconds : ℚ) * 2 ≤ now := hexpired
      linarith
    · intro b hb
      obtain rfl := Option.mem_some_iff.mp hb
      exact checkBucket_kept hp hkept

/-- What a bucket has admitted. -/
theorem Budgeted.admitted_le {p : Policy} (hp : p.Positive) {s : Counted} {times : List ℚ}
    (h : Budgeted p s times) : (s.admitted : ℚ) ≤ p.limit + p.refill * forward times := by
  cases hstored : s.stored with
  | none =>
    obtain ⟨htimes, hnone⟩ := h.empty hstored
    have hl : (1 : ℚ) ≤ p.limit := by exact_mod_cast hp.1
    rw [htimes, hnone]
    simp only [forward, mul_zero]
    push_cast
    linarith
  | some b =>
    have htokens := (h.inRange b hstored).1
    have hbudget := (h.last b hstored).2
    linarith

end

/-- The name of a policy of the code determines it. -/
theorem base_eq_of_name {m m' : Metered} (h : m'.base.name = m.base.name) : m'.base = m.base := by
  have hin : ∀ m : Metered, m.base ∈ rateLimitRules.map (·.2.2) := by
    intro m
    unfold Metered.base matchPolicy
    split
    · rename_i rule hrule
      exact List.mem_map_of_mem (List.mem_of_find?_eq_some hrule)
    · decide
  have hall : ∀ p ∈ rateLimitRules.map (·.2.2), ∀ q ∈ rateLimitRules.map (·.2.2),
      p.name = q.name → p = q := by decide
  exact hall _ (hin m') _ (hin m) h

/-- Whoever else is served in between, requests that share a bucket are answered as by a middleware that
serves nobody else. Without overrides it admits no more of them than the limit and the refill of the
time that they take. -/
theorem metered_alone (redis : Redis) (never : ℚ) (requests : List Metered) (m : Metered) :
    (∀ s : Buckets, ownAnswers m.sharesBucket (Buckets.meter redis never) s requests
      = answers (meterOne redis never) (s (bucketKey m.base.name m.identity.key))
          (requests.filter m.sharesBucket)) ∧
    (∀ times : List ℚ, (requests.filter m.sharesBucket).map (·.call) = times.map atTime →
      times.IsChain (· ≤ ·) →
      (∀ m' ∈ requests, m.sharesBucket m' = true → m'.policy = .ok m'.base.resolved) →
      ((ownAnswers m.sharesBucket (Buckets.meter redis never) (fun _ => none) requests).countP
          (·.isAdmitted) : ℚ)
        ≤ m.base.policy.limit
          + m.base.policy.limit / m.base.policy.windowSeconds * span times) := by
  have halone : ∀ s : Buckets, ownAnswers m.sharesBucket (Buckets.meter redis never) s requests
      = answers (meterOne redis never) (s (bucketKey m.base.name m.identity.key))
          (requests.filter m.sharesBucket) := by
    intro s
    -- what the party observes of the buckets is its own
    refine @ownAnswers_alone Buckets (Option Bucket) Metered Served m.sharesBucket _ _
      (fun s stored => s (bucketKey m.base.name m.identity.key) = stored) ?_ ?_ s _ rfl requests
    · intro s stored m' hshares hs
      unfold Metered.sharesBucket at hshares
      rw [Bool.and_eq_true, decide_eq_true_eq, decide_eq_true_eq] at hshares
      rw [meter_eq, hshares.1, hshares.2, hs]
      exact ⟨rfl, Function.update_self ..⟩
    · intro s stored m' hother hs
      rw [meter_eq]
      have hkey : bucketKey m.base.name m.identity.key ≠ bucketKey m'.base.name m'.identity.key := by
        intro hkey
        rw [sharesBucket_of_key_eq hkey.symm] at hother
        cases hother
      exact (Function.update_of_ne hkey ..).trans hs
  refine ⟨halone, ?_⟩
  intro times hcalls hchain hpolicies
  have hpositive : m.base.policy.Positive := (matchPolicy_bounded m.path m.identity.audience).1
  have hown : ∀ m' ∈ requests.filter m.sharesBucket,
      m'.policy = .ok m'.base.resolved ∧ m'.base.policy = m.base.policy := by
    intro m' hm'
    obtain ⟨hmem, hshares⟩ := List.mem_filter.mp hm'
    refine ⟨hpolicies m' hmem hshares, ?_⟩
    unfold Metered.sharesBucket at hshares
    rw [Bool.and_eq_true, decide_eq_true_eq] at hshares
    rw [base_eq_of_name hshares.1]
  have hcount := @countP_answers redis never m.base.policy _ hown Counted.start
  have hstart : Budgeted m.base.policy Counted.start [] :=
    ⟨fun b hb => absurd hb (Option.not_mem_none b), fun _ => ⟨rfl, rfl⟩,
      fun b hb => absurd hb (Option.not_mem_none b)⟩
  have hfull : Along (Counted.step m.base.policy) (FullWhenExpired m.base.policy) .start
      (times.map atTime) :=
    along_atTime hpositive (fun b hb => absurd hb (Option.not_mem_none b)) times
  have hend := (hstart.run hpositive.1 hpositive.2 hfull).admitted_le hpositive
  have htimes : (times.map atTime).map (·.now) = times := by
    rw [List.map_map]
    exact List.map_id times
  rw [List.nil_append, htimes, forward_eq_span hchain] at hend
  rw [halone]
  rw [hcalls] at hcount
  rw [← hcount] at hend
  exact hend

/-- A login from an address. -/
def loginFrom (address : String) (now : ℚ) : Metered :=
  ⟨"/auth/token", ⟨"ip:" ++ address, .anonymous, none⟩, none, none, atTime now⟩

/-- Two addresses try to log in at the same time, the second one three times as often. -/
def sampleLogins : List Metered :=
  (List.replicate 5 0).flatMap fun now =>
    [loginFrom "b" now, loginFrom "a" now, loginFrom "b" now, loginFrom "b" now]

theorem metered_alone_logins :
    (ownAnswers (loginFrom "b" 0).sharesBucket (Buckets.meter freshRedis 0) (fun _ => none) sampleLogins
      = answers (meterOne freshRedis 0) none (sampleLogins.filter (loginFrom "b" 0).sharesBucket)) ∧
    ((ownAnswers (loginFrom "b" 0).sharesBucket (Buckets.meter freshRedis 0) (fun _ => none)
        sampleLogins).countP (·.isAdmitted) : ℚ)
      ≤ (loginFrom "b" 0).base.policy.limit
        + (loginFrom "b" 0).base.policy.limit / (loginFrom "b" 0).base.policy.windowSeconds
          * span (List.replicate 15 0) := by
  refine ⟨(metered_alone freshRedis 0 sampleLogins (loginFrom "b" 0)).1 fun _ => none, ?_⟩
  refine (metered_alone freshRedis 0 sampleLogins (loginFrom "b" 0)).2 (List.replicate 15 0) ?_ ?_ ?_
  · decide +kernel
  · decide +kernel
  · intro m' hm' _
    obtain ⟨now, -, hrow⟩ := List.mem_flatMap.mp hm'
    refine policy_of_exempt (.inl ?_)
    simp only [List.mem_cons, List.not_mem_nil, or_false] at hrow
    rcases hrow with rfl | rfl | rfl | rfl <;> exact List.mem_cons_self

end SaccoPlatform.RateLimit
