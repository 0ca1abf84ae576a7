import SaccoPlatform.Lib.Json
import SaccoPlatform.RateLimit.Expiry

/-!
# Overrides of a plan

`resolve_policy` (`app/core/rate_limit/resolver.py`) lays the `rate_limit_overrides` of the tenant's
plan over the policy of the code. The overrides are any JSON: whatever they say under the name of the
policy ends up in its `limit` and `window_seconds`. An override that is not an object raises into the
request; a value that the bucket cannot compute with raises inside `check_bucket`, and the middleware
lets the request through unmetered.
-/

namespace SaccoPlatform.RateLimit

open Lib

/-! ## Policies of the code -/

inductive Audience where
  | anonymous | tenant | member | platform
deriving DecidableEq, Repr

/-- `Policy` with its name. -/
structure NamedPolicy where
  name : String
  policy : Policy
deriving DecidableEq, Repr

/-- The scope of a rule. -/
inductive RuleScope where
  | anonymous | authenticated | platform
deriving DecidableEq, Repr

/-- `_RULES`. -/
def rateLimitRules : List (RuleScope × String × NamedPolicy) :=
  [(.anonymous, "/auth/token", ⟨"auth_login", 10, 60⟩),
    (.anonymous, "/platform/auth/token", ⟨"auth_login", 10, 60⟩),
    (.anonymous, "/member/auth/token", ⟨"auth_login", 10, 60⟩),
    (.anonymous, "*password-reset*", ⟨"auth_password_reset", 3, 900⟩),
    (.anonymous, "*", ⟨"anonymous_default", 60, 60⟩),
    (.platform, "/platform/*", ⟨"platform_admin", 600, 60⟩),
    (.authenticated, "/reporting/*", ⟨"reporting", 60, 60⟩),
    (.authenticated, "*statement*", ⟨"export", 10, 60⟩),
    (.authenticated, "*/export*", ⟨"export", 10, 60⟩),
    (.authenticated, "*", ⟨"authenticated_default", 300, 60⟩)]

/-- `_scope_matches`. -/
def scopeMatches : RuleScope → Audience → Bool
  | .anonymous, audience => audience = .anonymous
  | .platform, audience => audience = .platform
  | .authenticated, audience => audience ∈ [.tenant, .member, .platform]

/-- `fnmatch.fnmatch` for patterns whose only wildcard is the star. -/
def fnmatch : List Char → List Char → Bool
  | [], path => path.isEmpty
  | '*' :: glob, path => path.tails.any (fnmatch glob)
  | _ :: _, [] => false
  | c :: glob, d :: path => c = d && fnmatch glob path

/-- `match_policy`. -/
def matchPolicy (path : String) (audience : Audience) : NamedPolicy :=
  match rateLimitRules.find? fun rule =>
      scopeMatches rule.1 audience && fnmatch rule.2.1.toList path.toList with
  | some rule => rule.2.2
  | none => ⟨"authenticated_default", 300, 60⟩

/-! ## Overrides -/

/-- Exceptions, with their messages. -/
inductive RateLimitError where
  | attributeError (message : String)
  | typeError (message : String)
  | valueError (message : String)
  | zeroDivisionError (message : String)
  | overflowError (message : String)
  | responseError (message : String)
deriving DecidableEq, Repr

/-- `RateLimitIdentity`. -/
structure RateLimitIdentity where
  key : String
  audience : Audience
  tenantSlug : Option String
deriving DecidableEq, Repr

/-- A policy as `apply_overrides` leaves it: the types are not checked. -/
structure ResolvedPolicy where
  name : String
  limit : Json
  windowSeconds : Json

def NamedPolicy.resolved (p : NamedPolicy) : ResolvedPolicy :=
  ⟨p.name, .int p.policy.limit, .int p.policy.windowSeconds⟩

/-- `value.get`. -/
def attributeGet (value : Json) : RateLimitError :=
  .attributeError s!"'{value.typeName}' object has no attribute 'get'"

/-- `apply_overrides`. -/
def applyOverrides (base : NamedPolicy) (overrides : List (String × Json)) :
    Except RateLimitError ResolvedPolicy :=
  match Json.lookup overrides base.name with
  | none => .ok base.resolved
  | some override =>
    if override.truthy = false then .ok base.resolved
    else
      match override with
      | .obj fields => .ok
        { name := base.name
          limit := (Json.lookup fields "limit").getD (.int base.policy.limit)
          windowSeconds := (Json.lookup fields "window_seconds").getD (.int base.policy.windowSeconds) }
      | value => .error (attributeGet value)

/-- `_load_plan_overrides`, from the `features` of the plan of the tenant. The driver decodes them. -/
def loadPlanOverrides (row : Option Json) : Except RateLimitError (List (String × Json)) :=
  match row with
  | none => .ok []
  | some features =>
    if features.readable = false then
      .error (.valueError "Exceeds the limit (4300 digits) for integer string conversion")
    else
      match if features.truthy then features else .obj [] with
      | .obj fields =>
        match (Json.lookup fields "rate_limit_overrides").getD (.obj []) with
        | .obj overrides => .ok overrides
        | _ => .ok []
      | value => .error (attributeGet value)

/-- `_get_tenant_overrides`; what the cache holds, if anything, comes first. -/
def getTenantOverrides (cached row : Option Json) : List (String × Json) :=
  match cached with
  | some (.obj overrides) => overrides
  | some _ => []
  | none =>
    match loadPlanOverrides row with
    | .ok overrides => overrides
    | .error _ => []

/-- `resolve_policy`. -/
def resolvePolicy (path : String) (identity : RateLimitIdentity) (cached row : Option Json) :
    Except RateLimitError ResolvedPolicy :=
  if identity.audience ∈ [.anonymous, .platform] ∨ identity.tenantSlug = none then
    .ok (matchPolicy path identity.audience).resolved
  else applyOverrides (matchPolicy path identity.audience) (getTenantOverrides cached row)

/-! ## The bucket of a resolved policy -/

/-- From here on a quotient is rounded beyond the largest float. -/
def floatLimit : ℚ := 2 ^ 1024 - 2 ^ 970

/-- An integer that no float is near. -/
def tooLarge : Json → Bool
  | .int n => floatLimit ≤ |(n : ℚ)|
  | _ => false

/-- `a / b`; the rounding to a float is left out. -/
def trueDiv (a b : Json) : Except RateLimitError ℚ :=
  match a.number?, b.number? with
  | some x, some y =>
    if y = 0 then .error (.zeroDivisionError "division by zero")
    else if a.isFloat = true ∨ b.isFloat = true then
      if tooLarge a = true ∨ tooLarge b = true then
        .error (.overflowError "int too large to convert to float")
      else .ok (x / y)
    else if floatLimit ≤ |x / y| then
      .error (.overflowError "integer division result too large for a float")
    else .ok (x / y)
  | _, _ => .error (.typeError
      s!"unsupported operand type(s) for /: '{a.typeName}' and '{b.typeName}'")

/-- `tonumber(str(value))`; `True` and `False` are no numbers of the script. -/
def scriptNumber : Json → Option ℚ
  | .int n => some n
  | .float x => some x
  | _ => none

/-- A Redis server that is up: the longest expiry that it takes, which is longer than any of the
code's own policies needs. -/
structure Redis where
  maxTtl : ℤ
  atLeast : 1800 ≤ maxTtl

/-- `EXPIRE` takes whole seconds, up to its longest expiry. -/
def Redis.takes (redis : Redis) (ttl : ℚ) : Prop := ttl.den = 1 ∧ ttl ≤ redis.maxTtl

instance (redis : Redis) (ttl : ℚ) : Decidable (redis.takes ttl) :=
  inferInstanceAs (Decidable (_ ∧ _))

/-- The script for numbers of any kind; Redis hands out numbers as integers. -/
def bucketScript (capacity refill ttl cost : ℚ) (stored : Option Bucket) (call : BucketCall) :
    Bucket × BucketResult :=
  let found := liveBucket stored call.redisTime
  let before : ℚ := (found.map (·.tokens)).getD capacity
  let ts := (found.map (·.ts)).getD call.now
  let tokens := min capacity (before + max 0 (call.now - ts) * refill)
  if cost ≤ tokens then
    (⟨tokens - cost, call.now, call.redisTime + ttl⟩, ⟨true, ⌊tokens - cost⌋, 0, truncate capacity⟩)
  else
    (⟨tokens, call.now, call.redisTime + ttl⟩,
      ⟨false, ⌊tokens⌋, ⌈(cost - tokens) / refill⌉, truncate capacity⟩)

/-- `redis.eval`. -/
def Redis.eval (redis : Redis) (limit : Json) (refill ttl : ℚ) (stored : Option Bucket)
    (call : BucketCall) : Except RateLimitError (Bucket × BucketResult) :=
  match scriptNumber limit with
  | none => .error (.responseError "bad argument #1 to 'min'")
  | some capacity =>
    if redis.takes ttl then .ok (bucketScript capacity refill ttl 1 stored call)
    else .error (.responseError "invalid expire time in 'expire' command")

/-- `check_bucket` with the values as they are. -/
def ResolvedPolicy.checkBucket (redis : Redis) (p : ResolvedPolicy) (stored : Option Bucket)
    (call : BucketCall) : Except RateLimitError (Bucket × BucketResult) := do
  let refill ← trueDiv p.limit p.windowSeconds
  redis.eval p.limit refill ((p.windowSeconds.number?.getD 0) * 2) stored call

/-- How a request gets past the middleware. -/
inductive Served where
  | raised (e : RateLimitError)
  | unmetered
  | blocked (result : BucketResult)
  | admitted (result : BucketResult)
deriving DecidableEq, Repr

/-- The bucket decided. -/
def Served.isMetered : Served → Bool
  | blocked _ | admitted _ => true
  | raised _ | unmetered => false

/-- `RateLimitMiddleware.dispatch`, switched on. -/
def dispatch (redis : Redis) (buckets : Buckets) (path : String) (identity : RateLimitIdentity)
    (cached row : Option Json) (call : BucketCall) : Served :=
  match resolvePolicy path identity cached row with
  | .error e => .raised e
  | .ok policy =>
    match policy.checkBucket redis (buckets s!"rl:{policy.name}:{identity.key}") call with
    | .error _ => .unmetered
    | .ok (_, result) => if result.allowed then .admitted result else .blocked result

/-! ## Policies that the bucket can work with -/

/-- The policy has a positive integer limit and window. -/
def ResolvedPolicy.IsPositive (p : ResolvedPolicy) : Prop :=
  ∃ limit window : ℤ, p.limit = .int limit ∧ p.windowSeconds = .int window ∧ 1 ≤ limit ∧ 1 ≤ window

/-- The bucket can work with the limit and the window. -/
structure Redis.Bears (redis : Redis) (limit window : ℤ) : Prop where
  limit_pos : 1 ≤ limit
  window_pos : 1 ≤ window
  ttl_le : window * 2 ≤ redis.maxTtl
  refill_lt : (limit : ℚ) / window < floatLimit

theorem rules_bounded : ∀ rule ∈ rateLimitRules,
    rule.2.2.policy.Positive ∧ rule.2.2.policy.limit ≤ 600 ∧ rule.2.2.policy.windowSeconds ≤ 900 := by
  decide

theorem matchPolicy_bounded (path : String) (audience : Audience) :
    (matchPolicy path audience).policy.Positive ∧ (matchPolicy path audience).policy.limit ≤ 600 ∧
      (matchPolicy path audience).policy.windowSeconds ≤ 900 := by
  unfold matchPolicy
  split
  · rename_i rule hrule
    exact rules_bounded rule (List.mem_of_find?_eq_some hrule)
  · decide

theorem floatLimit_gt : (600 : ℚ) < floatLimit := by
  have hlarge : ∀ n : ℕ, (600 : ℚ) < 2 ^ (n + 54) - 2 ^ n := by
    intro n
    have hpow : (1 : ℚ) ≤ 2 ^ n := one_le_pow₀ one_le_two
    rw [pow_add]
    linarith
  exact hlarge 970

/-- The code's own policies are fit for the bucket. -/
theorem matchPolicy_bears (redis : Redis) (path : String) (audience : Audience) :
    redis.Bears (matchPolicy path audience).policy.limit
      (matchPolicy path audience).policy.windowSeconds := by
  obtain ⟨⟨hlimit, hwindow⟩, hlimit', hwindow'⟩ := matchPolicy_bounded path audience
  have hatLeast := redis.atLeast
  refine ⟨hlimit, hwindow, by omega, ?_⟩
  have hl : ((matchPolicy path audience).policy.limit : ℚ) ≤ 600 := by exact_mod_cast hlimit'
  have hl' : (0 : ℚ) ≤ (matchPolicy path audience).policy.limit := by
    exact_mod_cast (show 0 ≤ (matchPolicy path audience).policy.limit by omega)
  have hw : (1 : ℚ) ≤ (matchPolicy path audience).policy.windowSeconds := by exact_mod_cast hwindow
  have hle := (div_le_self hl' hw).trans hl
  exact hle.trans_lt floatLimit_gt

/-- For integers the script is the one of the bucket. -/
theorem bucketScript_eq (p : Policy) (cost : ℚ) (stored : Option Bucket) (call : BucketCall) :
    bucketScript p.limit p.refill ((p.windowSeconds : ℚ) * 2) cost stored call
      = checkBucket p cost stored call := by
  have htruncate : truncate (p.limit : ℚ) = p.limit := by
    unfold truncate
    rw [Int.floor_intCast, Int.ceil_intCast, ite_self]
  have httl : ((p.windowSeconds * 2 : ℤ) : ℚ) = (p.windowSeconds : ℚ) * 2 := by push_cast; rfl
  unfold bucketScript checkBucket refilled
  dsimp only
  rw [htruncate, httl]

/-- `check_bucket` on positive integers returns exactly when the bucket can work with them. -/
theorem checkBucket_returns_iff (redis : Redis) {name : String} {limit window : ℤ} (hlimit : 1 ≤ limit)
    (hwindow : 1 ≤ window) (stored : Option Bucket) (call : BucketCall) :
    (∃ done, ResolvedPolicy.checkBucket redis ⟨name, .int limit, .int window⟩ stored call = .ok done) ↔
      redis.Bears limit window := by
  have hw : (0 : ℚ) < window := by exact_mod_cast (show 0 < window by omega)
  have hl : (0 : ℚ) ≤ limit := by exact_mod_cast (show 0 ≤ limit by omega)
  have hdiv : trueDiv (.int limit) (.int window) = if floatLimit ≤ (limit : ℚ) / window then
      .error (.overflowError "integer division result too large for a float")
      else .ok ((limit : ℚ) / window) := by
    unfold trueDiv
    simp only [Json.number?, hw.ne', if_false, Json.isFloat, Bool.false_eq_true, or_self,
      abs_of_nonneg (div_nonneg hl hw.le)]
  have htakes : redis.takes ((window : ℚ) * 2) ↔ window * 2 ≤ redis.maxTtl := by
    have hcast : (window : ℚ) * 2 = ((window * 2 : ℤ) : ℚ) := by push_cast; rfl
    unfold Redis.takes
    rw [hcast, Rat.den_intCast]
    exact ⟨fun h => by exact_mod_cast h.2, fun h => ⟨rfl, by exact_mod_cast h⟩⟩
  unfold ResolvedPolicy.checkBucket
  dsimp only
  rw [hdiv]
  by_cases hfloat : floatLimit ≤ (limit : ℚ) / window
  · rw [if_pos hfloat]
    constructor
    · intro ⟨done, hdone⟩
      cases hdone
    · intro h
      exact absurd h.refill_lt (not_lt.mpr hfloat)
  · rw [if_neg hfloat]
    show (∃ done, (if redis.takes ((window : ℚ) * 2) then
      Except.ok (bucketScript limit ((limit : ℚ) / window) ((window : ℚ) * 2) 1 stored call)
      else .error (RateLimitError.responseError "invalid expire time in 'expire' command")) = .ok done) ↔ _
    by_cases httl : redis.takes ((window : ℚ) * 2)
    · rw [if_pos httl]
      exact ⟨fun _ => ⟨hlimit, hwindow, htakes.mp httl, not_le.mp hfloat⟩, fun _ => ⟨_, rfl⟩⟩
    · rw [if_neg httl]
      constructor
      · intro ⟨done, hdone⟩
        cases hdone
      · intro h
        exact absurd (htakes.mpr h.ttl_le) httl

/-! ## Overrides that the bucket can work with -/

/-- Under the name of the policy the overrides say nothing, or they leave it with a limit and a window
that the bucket can work with. -/
def OverridesFit (redis : Redis) (base : NamedPolicy) (overrides : List (String × Json)) : Prop :=
  ∀ override ∈ Json.lookup overrides base.name, override.truthy = true →
    ∃ fields limit window, override = .obj fields ∧
      (Json.lookup fields "limit").getD (.int base.policy.limit) = .int limit ∧
      (Json.lookup fields "window_seconds").getD (.int base.policy.windowSeconds) = .int window ∧
      redis.Bears limit window

/-- The cache holds nothing, or the overrides as they were loaded. -/
def CachedFrom (features : Json) (cached : Option Json) : Prop :=
  cached = none ∨ ∃ overrides, loadPlanOverrides (some features) = .ok overrides ∧
    cached = some (.obj overrides)

theorem getTenantOverrides_cached {features : Json} {cached : Option Json}
    (h : CachedFrom features cached) :
    getTenantOverrides cached (some features) = getTenantOverrides none (some features) := by
  rcases h with rfl | ⟨overrides, hload, rfl⟩
  · rfl
  · unfold getTenantOverrides
    rw [hload]

section

variable {redis : Redis} {base : NamedPolicy} {overrides : List (String × Json)}

/-- The policy that results is fit for the bucket exactly when the overrides are. -/
theorem applyOverrides_bears_iff (hbase : redis.Bears base.policy.limit base.policy.windowSeconds) :
    (∃ name limit window, applyOverrides base overrides = .ok ⟨name, .int limit, .int window⟩ ∧
      redis.Bears limit window) ↔ OverridesFit redis base overrides := by
  unfold applyOverrides OverridesFit
  cases hlookup : Json.lookup overrides base.name with
  | none =>
    constructor
    · intro _ override hmem
      cases hmem
    · intro _
      exact ⟨_, _, _, rfl, hbase⟩
  | some override =>
    by_cases hfalsy : override.truthy = false
    · simp only [if_pos hfalsy]
      constructor
      · intro _ override' hmem htruthy
        cases hmem
        rw [hfalsy] at htruthy
        cases htruthy
      · intro _
        exact ⟨_, _, _, rfl, hbase⟩
    · have htruthy : override.truthy = true := Bool.not_eq_false _ ▸ hfalsy
      simp only [if_neg hfalsy]
      constructor
      · intro ⟨name, limit, window, happly, hbears⟩ override' hmem _
        cases hmem
        cases override with
        | obj fields =>
          simp only [Except.ok.injEq, ResolvedPolicy.mk.injEq] at happly
          exact ⟨fields, limit, window, rfl, happly.2.1, happly.2.2, hbears⟩
        | _ => cases happly
      · intro h
        obtain ⟨fields, limit, window, rfl, hlimit, hwindow, hbears⟩ := h override rfl htruthy
        refine ⟨base.name, limit, window, ?_, hbears⟩
        simp only [hlimit, hwindow]

end

section

variable {redis : Redis} {buckets : Buckets} {path : String} {identity : RateLimitIdentity}
  {cached row : Option Json} {call : BucketCall} {policy : ResolvedPolicy}

/-- A policy of the wrong kind is no obstacle to the request; the bucket is. -/
theorem dispatch_isMetered (h : resolvePolicy path identity cached row = .ok policy) :
    (dispatch redis buckets path identity cached row call).isMetered = true ↔
      ∃ done, policy.checkBucket redis (buckets s!"rl:{policy.name}:{identity.key}") call = .ok done := by
  unfold dispatch
  simp only [h]
  cases hcheck : policy.checkBucket redis (buckets s!"rl:{policy.name}:{identity.key}") call with
  | error e =>
    constructor
    · intro hmetered
      cases hmetered
    · intro ⟨done, hdone⟩
      cases hdone
  | ok done =>
    obtain ⟨bucket, result⟩ := done
    refine ⟨fun _ => ⟨_, rfl⟩, fun _ => ?_⟩
    by_cases hallowed : result.allowed = true
    · simp only [hallowed, if_true, Served.isMetered]
    · simp only [hallowed, Bool.false_eq_true, if_false, Served.isMetered]

/-- A positive policy meters the request exactly when the bucket can work with it. -/
theorem metered_iff_bears :
    (∃ policy, resolvePolicy path identity cached row = .ok policy ∧ policy.IsPositive ∧
        (dispatch redis buckets path identity cached row call).isMetered = true) ↔
      ∃ name limit window, resolvePolicy path identity cached row = .ok ⟨name, .int limit, .int window⟩ ∧
        redis.Bears limit window := by
  constructor
  · intro ⟨policy, hpolicy, hpositive, hmetered⟩
    obtain ⟨limit, window, hl, hw, hlimit, hwindow⟩ := hpositive
    have hchecks := (dispatch_isMetered hpolicy).mp hmetered
    obtain ⟨name, limit', window'⟩ := policy
    dsimp only at hl hw
    subst hl hw
    exact ⟨name, limit, window, hpolicy, (checkBucket_returns_iff redis hlimit hwindow _ _).mp hchecks⟩
  · intro ⟨name, limit, window, hpolicy, hbears⟩
    refine ⟨_, hpolicy, ⟨limit, window, rfl, rfl, hbears.limit_pos, hbears.window_pos⟩, ?_⟩
    refine (dispatch_isMetered hpolicy).mpr ?_
    exact (checkBucket_returns_iff redis hbears.limit_pos hbears.window_pos _ _).mpr hbears

end

/-- The request is metered under a policy with a positive integer limit and window exactly when no
overrides apply to it, or those of the plan are fit for the bucket. -/
theorem overrides_metered_iff (redis : Redis) {fields : List (String × Json)} {cached : Option Json}
    (hcached : CachedFrom (.obj fields) cached) (path : String) (identity : RateLimitIdentity)
    (buckets : Buckets) (call : BucketCall) :
    (∃ policy, resolvePolicy path identity cached (some (.obj fields)) = .ok policy ∧
        policy.IsPositive ∧
        (dispatch redis buckets path identity cached (some (.obj fields)) call).isMetered = true) ↔
      (identity.audience ∈ [.anonymous, .platform] ∨ identity.tenantSlug = none) ∨
        OverridesFit redis (matchPolicy path identity.audience)
          (getTenantOverrides none (some (.obj fields))) := by
  rw [metered_iff_bears]
  have hbase := matchPolicy_bears redis path identity.audience
  by_cases hexempt : identity.audience ∈ [.anonymous, .platform] ∨ identity.tenantSlug = none
  · have hresolve : resolvePolicy path identity cached (some (.obj fields))
        = .ok (matchPolicy path identity.audience).resolved := if_pos hexempt
    rw [hresolve]
    exact ⟨fun _ => .inl hexempt, fun _ => ⟨_, _, _, rfl, hbase⟩⟩
  · have hresolve : resolvePolicy path identity cached (some (.obj fields))
        = applyOverrides (matchPolicy path identity.audience)
          (getTenantOverrides none (some (.obj fields))) := by
      unfold resolvePolicy
      rw [if_neg hexempt, getTenantOverrides_cached hcached]
    rw [hresolve, applyOverrides_bears_iff hbase]
    exact ⟨.inr, fun h => h.resolve_left hexempt⟩

/-- A server whose longest expiry is that of a fresh clock. -/
def freshRedis : Redis := ⟨9223372036854775, by decide⟩

/-- A member of tenant `a`. -/
def memberOfA : RateLimitIdentity := ⟨"u:member:9", .member, some "a"⟩

/-- The features of a plan with these overrides. -/
def featuresWith (overrides : Json) : List (String × Json) := [("rate_limit_overrides", overrides)]

/-- The override of the documentation, from the cache. -/
theorem overrides_metered_documented :
    ∃ policy, resolvePolicy "/members" memberOfA
        (some (.obj [("authenticated_default", .obj [("limit", .int 1000)])]))
        (some (.obj (featuresWith (.obj [("authenticated_default", .obj [("limit", .int 1000)])]))))
          = .ok policy ∧ policy.IsPositive ∧
      (dispatch freshRedis (fun _ => none) "/members" memberOfA
        (some (.obj [("authenticated_default", .obj [("limit", .int 1000)])]))
        (some (.obj (featuresWith (.obj [("authenticated_default", .obj [("limit", .int 1000)])]))))
          ⟨0, 0⟩).isMetered = true := by
  refine (overrides_metered_iff freshRedis (.inr ⟨_, ?_, rfl⟩) "/members" memberOfA (fun _ => none)
    ⟨0, 0⟩).mpr (.inr ?_)
  · rfl
  · intro override hmem _
    cases hmem
    exact ⟨_, 1000, 60, rfl, rfl, rfl, by decide, by decide, by decide, by decide +kernel⟩

/-- A string in place of an object raises into the request, and a window of 0 or a limit that is a
string lets it through unmetered. -/
theorem overrides_unmetered :
    dispatch freshRedis (fun _ => none) "/members" memberOfA none
        (some (.obj (featuresWith (.obj [("authenticated_default", .str "1000")])))) ⟨0, 0⟩
      = .raised (.attributeError "'str' object has no attribute 'get'") ∧
    dispatch freshRedis (fun _ => none) "/members" memberOfA none
        (some (.obj (featuresWith (.obj [("authenticated_default", .obj [("window_seconds", .int 0)])]))))
        ⟨0, 0⟩ = .unmetered ∧
    dispatch freshRedis (fun _ => none) "/members" memberOfA none
        (some (.obj (featuresWith (.obj [("authenticated_default", .obj [("limit", .str "1000")])]))))
        ⟨0, 0⟩ = .unmetered := by
  refine ⟨?_, ?_, ?_⟩
  · decide +kernel
  · decide +kernel
  · decide +kernel

end SaccoPlatform.RateLimit
