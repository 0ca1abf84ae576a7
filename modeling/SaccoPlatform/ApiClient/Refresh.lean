import SaccoPlatform.Lib.Runs
import Mathlib.Logic.Function.Basic
import Mathlib.Tactic.Common

/-!
# Refreshing an expired access token

`refreshMiddleware` (`admin/packages/api-client/src/middleware/refresh.ts`) with the request
middlewares before it. A 401 waits for the refresh that is pending, or starts one; the promise is
cleared when it settles, and then every request that waits is built anew from the request that was
sent. An event below is what runs between two turns of the event loop, and events come in any order.

Sending a request uses up its body, and `new Request` of a used one throws: a request with a body is
not retried. And a 401 of the same burst that comes in after the refresh has settled finds nothing
pending and starts a second refresh for the same token.
-/

namespace SaccoPlatform.ApiClient

open Lib

/-- A request, with the token of its `Authorization: Bearer` header and its `Idempotency-Key`. -/
structure Request where
  method : String
  url : String
  bearer : Option String
  idempotencyKey : Option String
  body : Option String
deriving DecidableEq, Repr

/-! ## The middlewares -/

/-- `authMiddleware`: an empty token is no token. -/
def Request.authorize (r : Request) (token : Option String) : Request :=
  match token with
  | none => r
  | some t => if t = "" then r else { r with bearer := some t }

/-- `MUTATION_METHODS`. -/
def mutationMethods : List String := ["POST", "PUT", "PATCH", "DELETE"]

/-- `idempotencyMiddleware`, with the key that `uuidv7` yields. -/
def Request.withKey (r : Request) (uuid : String) : Request :=
  if r.method ∈ mutationMethods ∧ r.idempotencyKey = none then
    { r with idempotencyKey := some uuid }
  else r

inductive ClientError where
  | unauthorized | bodyUsed | refreshFailed
deriving DecidableEq, Repr

/-- How a refresh call ends: with an answer, with a refusal, or with an exception. -/
inductive RefreshOutcome where
  | ok (accessToken : Option String)
  | notOk
  | failed
deriving DecidableEq, Repr

/-- What a request that waits for the refresh gets of it. -/
def RefreshOutcome.newToken : RefreshOutcome → Except ClientError String
  | ok (some t) => if t = "" then .error .unauthorized else .ok t
  | ok none => .error .unauthorized
  | notOk => .error .unauthorized
  | failed => .error .refreshFailed

/-- `new Request(request, ...)` of a request that was sent, with the new token. -/
def Request.retry (r : Request) (token : String) : Except ClientError Request :=
  if r.body.isSome then .error .bodyUsed else .ok { r with bearer := some token }

/-! ## The client -/

inductive Phase where
  | sent
  | waiting (refresh : ℕ)
  | retrying
  | returned
  | threw (e : ClientError)
deriving DecidableEq, Repr

structure ApiCall where
  request : Request
  phase : Phase
deriving DecidableEq, Repr

/-- The token store, the pending refresh, every refresh call so far with its outcome, the calls, and
the requests that were sent again. -/
structure World where
  accessToken : Option String
  pending : Option ℕ
  refreshes : List (Option RefreshOutcome)
  calls : ℕ → Option ApiCall
  retries : List (ℕ × Request)

namespace World

def setCall (w : World) (i : ℕ) (call : ApiCall) : World :=
  { w with calls := Function.update w.calls i (some call) }

/-- `refreshOnce`. -/
def refreshOnce (w : World) : ℕ × World :=
  match w.pending with
  | some k => (k, w)
  | none => (w.refreshes.length, { w with
      pending := some w.refreshes.length
      refreshes := w.refreshes ++ [none] })

/-- A request goes out. -/
def send (w : World) (i : ℕ) (r : Request) (uuid : String) : World :=
  match w.calls i with
  | some _ => w
  | none => w.setCall i ⟨(r.authorize w.accessToken).withKey uuid, .sent⟩

/-- `onResponse`, up to its `await`. -/
def respond (w : World) (i : ℕ) (status : ℕ) : World :=
  match w.calls i with
  | some ⟨r, .sent⟩ =>
    if status = 401 then (w.refreshOnce.2).setCall i ⟨r, .waiting w.refreshOnce.1⟩
    else w.setCall i ⟨r, .returned⟩
  | _ => w

/-- The pending refresh settles: the token is stored and the promise cleared. -/
def settle (w : World) (outcome : RefreshOutcome) : World :=
  match w.pending with
  | none => w
  | some k =>
    { w with
      accessToken := match outcome with
        | .ok token => token
        | _ => w.accessToken
      pending := none
      refreshes := w.refreshes.set k (some outcome) }

/-- `onResponse` goes on once its refresh has settled. -/
def resume (w : World) (i : ℕ) : World :=
  match w.calls i with
  | some ⟨r, .waiting k⟩ =>
    match w.refreshes[k]? with
    | some (some outcome) =>
      match outcome.newToken.bind r.retry with
      | .ok retry => { w with retries := w.retries ++ [(i, retry)] }.setCall i ⟨r, .retrying⟩
      | .error e => w.setCall i ⟨r, .threw e⟩
    | _ => w
  | _ => w

/-- The answer to the retry. -/
def respondRetry (w : World) (i : ℕ) (status : ℕ) : World :=
  match w.calls i with
  | some ⟨r, .retrying⟩ =>
    if status = 401 then w.setCall i ⟨r, .threw .unauthorized⟩ else w.setCall i ⟨r, .returned⟩
  | _ => w

end World

inductive Event where
  | send (i : ℕ) (r : Request) (uuid : String)
  | respond (i : ℕ) (status : ℕ)
  | settle (outcome : RefreshOutcome)
  | resume (i : ℕ)
  | respondRetry (i : ℕ) (status : ℕ)
deriving DecidableEq, Repr

def World.step (w : World) : Event → World
  | .send i r uuid => w.send i r uuid
  | .respond i status => w.respond i status
  | .settle outcome => w.settle outcome
  | .resume i => w.resume i
  | .respondRetry i status => w.respondRetry i status

/-- A client whose access token has expired. -/
def World.start (expired : String) : World where
  accessToken := some expired
  pending := none
  refreshes := []
  calls _ := none
  retries := []

/-! ## The burst -/

/-- The server answers 401 to the expired token and to no other, and the refresh endpoint yields
another token. -/
def Served (expired : String) (w : World) : Event → Prop
  | .respond i status => ∀ call ∈ w.calls i, call.phase = .sent →
      (status = 401 ↔ call.request.bearer = some expired)
  | .settle outcome => ∃ t, outcome = .ok (some t) ∧ t ≠ "" ∧ t ≠ expired
  | _ => True

/-- Every call has its answer, and none waits for a refresh. -/
def World.Answered (w : World) : Prop :=
  ∀ i, ∀ call ∈ w.calls i, call.phase ≠ .sent ∧ ∀ k, call.phase ≠ .waiting k

/-- The retries of one call. -/
def World.retriesOf (w : World) (i : ℕ) : List (ℕ × Request) := w.retries.filter (·.1 = i)

/-- At most one refresh call went out, and every request that was sent with the expired token was
sent again exactly once, as it was but for the new token. -/
def World.Coalesced (expired : String) (w : World) : Prop :=
  w.refreshes.length ≤ 1 ∧
  ∀ i, ∀ call ∈ w.calls i, call.request.bearer = some expired →
    ∃ t, w.refreshes = [some (.ok (some t))] ∧
      w.retriesOf i = [(i, { call.request with bearer := some t })]

/-- A request sent with the expired token has no body, and its 401 comes in before a refresh has
settled. -/
def InTime (expired : String) (w : World) : Event → Prop
  | .send i r _ => w.calls i = none → w.accessToken = some expired → r.body = none
  | .respond i status => ∀ call ∈ w.calls i, call.phase = .sent → status = 401 →
      ∀ outcome ∈ w.refreshes, outcome = none
  | _ => True

/-! ## What the events keep -/

/-- Where a call stands, given the refreshes so far and its own retries. -/
def ApiCall.Sound (expired : String) (refreshes : List (Option RefreshOutcome))
    (retries : List (ℕ × Request)) (i : ℕ) (call : ApiCall) : Prop :=
  if call.request.bearer = some expired then
    call.request.body = none ∧
    match call.phase with
    | .sent => retries = []
    | .waiting k => k = 0 ∧ refreshes ≠ [] ∧ retries = []
    | _ => ∃ t, refreshes = [some (.ok (some t))] ∧
        retries = [(i, { call.request with bearer := some t })]
  else call.phase = .sent ∨ call.phase = .returned

/-- The token in the store with the pending refresh and the refreshes so far: no refresh yet, one
that is pending, or one that has settled. -/
inductive Refreshed (expired : String) :
    Option String → Option ℕ → List (Option RefreshOutcome) → Prop
  | notYet : Refreshed expired (some expired) none []
  | pending : Refreshed expired (some expired) (some 0) [none]
  | settled (t : String) (nonempty : t ≠ "") (fresh : t ≠ expired) :
      Refreshed expired (some t) none [some (.ok (some t))]

/-- The burst as it should go: one refresh, and every call where it should be. -/
structure World.Sound (expired : String) (w : World) : Prop where
  refreshed : Refreshed expired w.accessToken w.pending w.refreshes
  calls : ∀ i, ∀ call ∈ w.calls i, call.Sound expired w.refreshes (w.retriesOf i) i
  absent : ∀ i, w.calls i = none → w.retriesOf i = []

/-- A second refresh, or a body that was sent with the expired token. -/
def World.Spoilt (expired : String) (w : World) : Prop :=
  2 ≤ w.refreshes.length ∨
  ∃ i, ∃ call ∈ w.calls i, call.request.bearer = some expired ∧ call.request.body ≠ none

variable {expired : String} {w w' : World} {i : ℕ} {call : ApiCall}

@[simp] theorem World.setCall_retriesOf (w : World) (i j : ℕ) (call : ApiCall) :
    (w.setCall i call).retriesOf j = w.retriesOf j := rfl

/-- A call stays where it should be when a refresh starts or settles. -/
theorem ApiCall.Sound.of_refreshes {refreshes refreshes' : List (Option RefreshOutcome)}
    {retries : List (ℕ × Request)} (h : call.Sound expired refreshes retries i)
    (hsome : refreshes ≠ [] → refreshes' ≠ [])
    (hsettled : ∀ t, refreshes = [some (.ok (some t))] → refreshes' = refreshes) :
    call.Sound expired refreshes' retries i := by
  unfold ApiCall.Sound at h ⊢
  split
  · next hbearer =>
    rw [if_pos hbearer] at h
    refine ⟨h.1, ?_⟩
    have hphase := h.2
    cases hp : call.phase with
    | sent =>
      rw [hp] at hphase
      exact hphase
    | waiting k =>
      rw [hp] at hphase
      exact ⟨hphase.1, hsome hphase.2.1, hphase.2.2⟩
    | retrying | returned | threw e =>
      rw [hp] at hphase
      obtain ⟨t, hrefreshes, hretries⟩ := hphase
      exact ⟨t, (hsettled t hrefreshes).trans hrefreshes, hretries⟩
  · next hbearer =>
    rw [if_neg hbearer] at h
    exact h

/-- A step of one call leaves the others where they should be. -/
theorem World.Sound.of_call (h : w.Sound expired)
    (href : Refreshed expired w'.accessToken w'.pending w'.refreshes)
    (hrefreshes : w'.refreshes = w.refreshes ∨ w.refreshes = [])
    (hcalls : w'.calls = Function.update w.calls i (some call))
    (hretries : ∀ j, j ≠ i → w'.retriesOf j = w.retriesOf j)
    (hsound : call.Sound expired w'.refreshes (w'.retriesOf i) i) : w'.Sound expired := by
  refine ⟨href, fun j other hother => ?_, fun j habsent => ?_⟩
  · by_cases hj : j = i
    · subst hj
      rw [hcalls, Function.update_self] at hother
      cases hother
      exact hsound
    · rw [hcalls, Function.update_of_ne hj] at hother
      rw [hretries j hj]
      refine (h.calls j other hother).of_refreshes ?_ ?_
      · intro hne
        exact hrefreshes.elim (fun heq => heq ▸ hne) fun hnil => absurd hnil hne
      · intro t ht
        exact hrefreshes.elim id fun hnil => by simp [hnil] at ht
  · by_cases hj : j = i
    · simp [hcalls, hj] at habsent
    · rw [hcalls, Function.update_of_ne hj] at habsent
      rw [hretries j hj]
      exact h.absent j habsent

/-- The token a request is sent with is the one in the store. -/
theorem Refreshed.authorize_bearer {token : Option String} {pending : Option ℕ}
    {refreshes : List (Option RefreshOutcome)} (h : Refreshed expired token pending refreshes)
    (hexpired : expired ≠ "") (r : Request) (uuid : String) :
    ((r.authorize token).withKey uuid).bearer = token := by
  have hkey (r : Request) : (r.withKey uuid).bearer = r.bearer := by
    unfold Request.withKey
    split <;> rfl
  rw [hkey]
  cases h with
  | notYet | pending => simp [Request.authorize, hexpired]
  | settled t hne => simp [Request.authorize, hne]

theorem Request.authorize_withKey_body (r : Request) (token : Option String) (uuid : String) :
    ((r.authorize token).withKey uuid).body = r.body := by
  unfold Request.withKey Request.authorize
  split <;> split <;> try split
  all_goals rfl

theorem World.Sound.send (hexpired : expired ≠ "") (h : w.Sound expired) {r : Request}
    {uuid : String} (hok : InTime expired w (.send i r uuid)) :
    (w.send i r uuid).Sound expired := by
  unfold World.send
  split
  · exact h
  next habsent =>
  refine h.of_call h.refreshed (.inl rfl) rfl (fun _ _ => rfl) ?_
  unfold ApiCall.Sound
  have hbearer := h.refreshed.authorize_bearer hexpired r uuid
  have hbody := r.authorize_withKey_body w.accessToken uuid
  split
  · next hold => exact ⟨hbody.trans (hok habsent (hbearer.symm.trans hold)), h.absent i habsent⟩
  · exact .inl rfl

/-- A 401 that comes in before a refresh has settled waits for the only one. -/
theorem World.Sound.refreshOnce (h : w.Sound expired)
    (hok : ∀ outcome ∈ w.refreshes, outcome = none) :
    w.refreshOnce.1 = 0 ∧
      Refreshed expired w.refreshOnce.2.accessToken w.refreshOnce.2.pending [none] ∧
      w.refreshOnce.2.refreshes = [none] ∧
      (w.refreshOnce.2.refreshes = w.refreshes ∨ w.refreshes = []) := by
  obtain ⟨token, pending, refreshes, calls, retries⟩ := w
  cases h.refreshed with
  | notYet => exact ⟨rfl, .pending, rfl, .inr rfl⟩
  | pending => exact ⟨rfl, .pending, rfl, .inl rfl⟩
  | settled t => simp at hok

theorem World.refreshOnce_calls (w : World) : w.refreshOnce.2.calls = w.calls := by
  unfold World.refreshOnce
  split <;> rfl

theorem World.refreshOnce_retriesOf (w : World) (j : ℕ) :
    w.refreshOnce.2.retriesOf j = w.retriesOf j := by
  unfold World.refreshOnce
  split <;> rfl

theorem World.Sound.respond (h : w.Sound expired) {status : ℕ}
    (hserved : Served expired w (.respond i status)) (hok : InTime expired w (.respond i status)) :
    (w.respond i status).Sound expired := by
  unfold World.respond
  split
  · next r hcall =>
    have hstatus := hserved _ hcall rfl
    have hsound := h.calls i _ hcall
    unfold ApiCall.Sound at hsound
    split
    · next h401 =>
      rw [if_pos (hstatus.mp h401)] at hsound
      obtain ⟨hfirst, href, hone, hrefreshes⟩ := h.refreshOnce (hok _ hcall rfl h401)
      have hcalls : (w.refreshOnce.2.setCall i ⟨r, .waiting w.refreshOnce.1⟩).calls =
          Function.update w.calls i (some ⟨r, .waiting w.refreshOnce.1⟩) :=
        congrArg (Function.update · i _) w.refreshOnce_calls
      refine h.of_call (hone ▸ href) hrefreshes hcalls (fun j _ => w.refreshOnce_retriesOf j) ?_
      unfold ApiCall.Sound
      rw [if_pos (hstatus.mp h401)]
      refine ⟨hsound.1, hfirst, ?_, (w.refreshOnce_retriesOf i).trans hsound.2⟩
      exact hone ▸ List.cons_ne_nil _ _
    · next h401 =>
      refine h.of_call h.refreshed (.inl rfl) rfl (fun _ _ => rfl) ?_
      unfold ApiCall.Sound
      rw [if_neg fun hbearer => h401 (hstatus.mpr hbearer)]
      exact .inr rfl
  · exact h

theorem World.Sound.settle (h : w.Sound expired) {outcome : RefreshOutcome}
    (hserved : Served expired w (.settle outcome)) : (w.settle outcome).Sound expired := by
  obtain ⟨t, rfl, hne, hfresh⟩ := hserved
  obtain ⟨token, pending, refreshes, calls, retries⟩ := w
  have hrefreshed := h.refreshed
  cases hrefreshed with
  | notYet | settled => exact h
  | pending =>
    refine ⟨.settled t hne hfresh, fun i call hcall => ?_, h.absent⟩
    refine (h.calls i call hcall).of_refreshes (fun _ => List.cons_ne_nil _ _) ?_
    intro t' ht'
    simp at ht'

/-- A call that has not just been sent or returned was sent with the expired token. -/
theorem ApiCall.Sound.bearer {refreshes : List (Option RefreshOutcome)}
    {retries : List (ℕ × Request)} (h : call.Sound expired refreshes retries i)
    (hsent : call.phase ≠ .sent) (hreturned : call.phase ≠ .returned) :
    call.request.bearer = some expired := by
  by_contra hbearer
  unfold ApiCall.Sound at h
  rw [if_neg hbearer] at h
  exact h.elim hsent hreturned

theorem World.Sound.resume (h : w.Sound expired) : (w.resume i).Sound expired := by
  unfold World.resume
  split
  · next r k hcall =>
    have hsound := h.calls i _ hcall
    have hbearer := hsound.bearer (by simp) (by simp)
    unfold ApiCall.Sound at hsound
    rw [if_pos hbearer] at hsound
    obtain ⟨hbody, rfl, -, hretries⟩ := hsound
    split
    · next outcome houtcome =>
      obtain ⟨token, pending, refreshes, calls, retries⟩ := w
      have hrefreshed := h.refreshed
      cases hrefreshed with
      | notYet | pending => simp at houtcome
      | settled t hne hfresh =>
        simp only [List.getElem?_cons_zero, Option.some.injEq] at houtcome
        subst houtcome
        have hretry : (RefreshOutcome.ok (some t)).newToken.bind r.retry =
            .ok { r with bearer := some t } := by
          simp [RefreshOutcome.newToken, hne, Except.bind, Request.retry, show r.body = none from hbody]
        rw [hretry]
        refine h.of_call h.refreshed (.inl rfl) rfl (fun j hj => ?_) ?_
        · simp [World.retriesOf, World.setCall, List.filter_append, Ne.symm hj]
        · unfold ApiCall.Sound
          rw [if_pos hbearer]
          refine ⟨hbody, t, rfl, ?_⟩
          show List.filter _ (retries ++ [_]) = _
          rw [List.filter_append, show retries.filter (·.1 = i) = [] from hretries]
          simp
    · exact h
  · exact h

theorem World.Sound.respondRetry (h : w.Sound expired) {status : ℕ} :
    (w.respondRetry i status).Sound expired := by
  unfold World.respondRetry
  split
  · next r hcall =>
    have hsound := h.calls i _ hcall
    have hbearer := hsound.bearer (by simp) (by simp)
    unfold ApiCall.Sound at hsound
    rw [if_pos hbearer] at hsound
    split
    all_goals
      refine h.of_call h.refreshed (.inl rfl) rfl (fun _ _ => rfl) ?_
      unfold ApiCall.Sound
      rw [if_pos hbearer]
      exact hsound
  · exact h

theorem World.Sound.step (hexpired : expired ≠ "") (h : w.Sound expired) {e : Event}
    (hserved : Served expired w e) (hok : InTime expired w e) : (w.step e).Sound expired := by
  cases e with
  | send i r uuid => exact h.send hexpired hok
  | respond i status => exact h.respond hserved hok
  | settle outcome => exact h.settle hserved
  | resume i => exact h.resume
  | respondRetry i status => exact h.respondRetry

/-! ## What cannot be repaired -/

/-- No event changes the request of a call. -/
theorem World.setCall_request {r : Request} {phase : Phase} (hcall : w.calls i = some ⟨r, phase⟩)
    (phase' : Phase) (j : ℕ) (other : ApiCall) (hother : other ∈ w.calls j) :
    ∃ other' ∈ (w.setCall i ⟨r, phase'⟩).calls j, other'.request = other.request := by
  by_cases hj : j = i
  · subst hj
    refine ⟨⟨r, phase'⟩, by simp [World.setCall], ?_⟩
    rw [Option.mem_def, hcall] at hother
    cases hother
    rfl
  · exact ⟨other, by simpa [World.setCall, hj] using hother, rfl⟩

theorem World.step_request (e : Event) {j : ℕ} {other : ApiCall} (hother : other ∈ w.calls j) :
    ∃ other' ∈ (w.step e).calls j, other'.request = other.request := by
  have hsame : ∃ other' ∈ w.calls j, other'.request = other.request := ⟨other, hother, rfl⟩
  cases e with
  | send i r uuid =>
    show ∃ other' ∈ (w.send i r uuid).calls j, _
    unfold World.send
    split
    · exact hsame
    · next habsent =>
      refine ⟨other, ?_, rfl⟩
      have hj : j ≠ i := by
        rintro rfl
        simp [habsent] at hother
      simpa [World.setCall, hj] using hother
  | respond i status =>
    show ∃ other' ∈ (w.respond i status).calls j, _
    unfold World.respond
    split
    · next r hcall =>
      have hcall' : w.refreshOnce.2.calls i = some ⟨r, .sent⟩ := by rw [w.refreshOnce_calls, hcall]
      have hother' : other ∈ w.refreshOnce.2.calls j := by rwa [w.refreshOnce_calls]
      split
      · exact World.setCall_request hcall' _ j other hother'
      · exact World.setCall_request hcall _ j other hother
    · exact hsame
  | settle outcome =>
    show ∃ other' ∈ (w.settle outcome).calls j, _
    unfold World.settle
    split <;> exact hsame
  | resume i =>
    show ∃ other' ∈ (w.resume i).calls j, _
    unfold World.resume
    split
    · next r k hcall =>
      split
      · split
        · next retry _ =>
          have hcall' : { w with retries := w.retries ++ [(i, retry)] }.calls i = _ := hcall
          exact World.setCall_request hcall' _ j other hother
        · exact World.setCall_request hcall _ j other hother
      · exact hsame
    · exact hsame
  | respondRetry i status =>
    show ∃ other' ∈ (w.respondRetry i status).calls j, _
    unfold World.respondRetry
    split
    · next r hcall =>
      split
      all_goals exact World.setCall_request hcall _ j other hother
    · exact hsame

theorem World.step_refreshes_length (w : World) (e : Event) :
    w.refreshes.length ≤ (w.step e).refreshes.length := by
  cases e with
  | send i r uuid =>
    show _ ≤ (w.send i r uuid).refreshes.length
    unfold World.send
    split <;> exact Nat.le_refl _
  | respond i status =>
    have honce : w.refreshes.length ≤ w.refreshOnce.2.refreshes.length := by
      unfold World.refreshOnce
      split <;> simp
    show _ ≤ (w.respond i status).refreshes.length
    unfold World.respond
    split
    · split
      · exact honce
      · exact Nat.le_refl _
    · exact Nat.le_refl _
  | settle outcome =>
    show _ ≤ (w.settle outcome).refreshes.length
    unfold World.settle
    split <;> simp
  | resume i =>
    show _ ≤ (w.resume i).refreshes.length
    unfold World.resume
    repeat' split
    all_goals exact Nat.le_refl _
  | respondRetry i status =>
    show _ ≤ (w.respondRetry i status).refreshes.length
    unfold World.respondRetry
    repeat' split
    all_goals exact Nat.le_refl _

theorem World.Spoilt.step (h : w.Spoilt expired) (e : Event) : (w.step e).Spoilt expired := by
  rcases h with htwo | ⟨i, call, hcall, hbearer, hbody⟩
  · exact .inl (Nat.le_trans htwo (w.step_refreshes_length e))
  · obtain ⟨call', hcall', hrequest⟩ := World.step_request e hcall
    exact .inr ⟨i, call', hcall', hrequest ▸ hbearer, hrequest ▸ hbody⟩

/-- A request out of time spoils the burst: its body is used up, or its 401 starts a second
refresh. -/
theorem World.Sound.spoilt (hexpired : expired ≠ "") (h : w.Sound expired) {e : Event}
    (hok : ¬ InTime expired w e) : (w.step e).Spoilt expired := by
  cases e with
  | send i r uuid =>
    simp only [InTime, Classical.not_imp] at hok
    obtain ⟨habsent, htoken, hbody⟩ := hok
    have hbearer := h.refreshed.authorize_bearer hexpired r uuid
    refine .inr ⟨i, ⟨(r.authorize w.accessToken).withKey uuid, .sent⟩, ?_, ?_, ?_⟩
    · show _ ∈ (w.send i r uuid).calls i
      simp [World.send, habsent, World.setCall]
    · exact hbearer.trans htoken
    · exact fun hnone => hbody ((r.authorize_withKey_body w.accessToken uuid).symm.trans hnone)
  | respond i status =>
    simp only [InTime, not_forall] at hok
    obtain ⟨⟨r, phase⟩, hcall, rfl, rfl, outcome, houtcome, hsome⟩ := hok
    obtain ⟨token, pending, refreshes, calls, retries⟩ := w
    have hrefreshed := h.refreshed
    cases hrefreshed with
    | notYet => simp at houtcome
    | pending => exact absurd (List.mem_singleton.mp houtcome) hsome
    | settled t =>
      refine .inl ?_
      show 2 ≤ (World.respond _ i 401).refreshes.length
      have hcall' : calls i = some ⟨r, .sent⟩ := hcall
      simp [World.respond, hcall', World.refreshOnce, World.setCall]
  | settle | resume | respondRetry => exact absurd trivial hok

/-- Nothing is sent again with a body. -/
def World.Bodiless (w : World) : Prop := ∀ entry ∈ w.retries, entry.2.body = none

theorem World.Bodiless.step (h : w.Bodiless) (e : Event) : (w.step e).Bodiless := by
  cases e with
  | send i r uuid =>
    show (w.send i r uuid).Bodiless
    unfold World.send
    split <;> exact h
  | respond i status =>
    have honce : w.refreshOnce.2.retries = w.retries := by
      unfold World.refreshOnce
      split <;> rfl
    show (w.respond i status).Bodiless
    unfold World.respond
    split
    · split
      · intro entry hentry
        exact h entry (honce ▸ hentry)
      · exact h
    · exact h
  | settle outcome =>
    show (w.settle outcome).Bodiless
    unfold World.settle
    split <;> exact h
  | resume i =>
    show (w.resume i).Bodiless
    unfold World.resume
    split
    · next r k _ =>
      split
      · next outcome _ =>
        split
        · next retry hretry =>
          intro entry hentry
          rcases List.mem_append.mp hentry with hold | hnew
          · exact h entry hold
          · rw [List.mem_singleton.mp hnew]
            cases htoken : outcome.newToken with
            | error e => simp [htoken, Except.bind] at hretry
            | ok token =>
              simp only [htoken, Except.bind, Request.retry] at hretry
              split at hretry
              · cases hretry
              · next hbody =>
                cases hretry
                simpa using hbody
        · exact h
      · exact h
    · exact h
  | respondRetry i status =>
    show (w.respondRetry i status).Bodiless
    unfold World.respondRetry
    repeat' split
    all_goals exact h

/-! ## The burst coalesces -/

theorem Refreshed.length_le {token : Option String} {pending : Option ℕ}
    {refreshes : List (Option RefreshOutcome)} (h : Refreshed expired token pending refreshes) :
    refreshes.length ≤ 1 := by
  cases h <;> simp

theorem World.Sound.coalesced (h : w.Sound expired) (hend : w.Answered) : w.Coalesced expired := by
  constructor
  · exact h.refreshed.length_le
  · intro i call hcall hbearer
    obtain ⟨hsent, hwaiting⟩ := hend i call hcall
    have hsound := h.calls i call hcall
    unfold ApiCall.Sound at hsound
    rw [if_pos hbearer] at hsound
    obtain ⟨-, hphase⟩ := hsound
    cases hp : call.phase with
    | sent => exact absurd hp hsent
    | waiting k => exact absurd hp (hwaiting k)
    | retrying | returned | threw =>
      rw [hp] at hphase
      exact hphase

theorem World.Spoilt.not_coalesced (h : w.Spoilt expired) (hbodiless : w.Bodiless) :
    ¬ w.Coalesced expired := by
  rintro ⟨hone, hretried⟩
  rcases h with htwo | ⟨i, call, hcall, hbearer, hbody⟩
  · omega
  · obtain ⟨t, -, hretries⟩ := hretried i call hcall hbearer
    have hmem : (i, { call.request with bearer := some t }) ∈ w.retriesOf i := by
      rw [hretries]
      exact List.mem_singleton_self _
    exact hbody (hbodiless _ (List.mem_filter.mp hmem).1)

theorem World.start_sound (expired : String) : (World.start expired).Sound expired where
  refreshed := .notYet
  calls _ _ hcall := by simp [World.start] at hcall
  absent _ _ := rfl

/-- Requests go out and are answered in any order, the server answers 401 to the expired token and
the refresh succeeds. Once every request has its answer: at most one refresh call went out and every
request that carried the expired token was sent again exactly once, with its method, URL, body and
`Idempotency-Key` and the new token, if and only if none of these requests had a body and each of
their 401s came in before a refresh had settled. -/
theorem burst_coalesces (expired : String) (hexpired : expired ≠ "") (events : List Event)
    (hserved : Along World.step (Served expired) (.start expired) events)
    (hend : (run World.step (.start expired) events).Answered) :
    (run World.step (.start expired) events).Coalesced expired ↔
      Along World.step (InTime expired) (.start expired) events := by
  have hbodiless : (run World.step (.start expired) events).Bodiless :=
    run_invariant_of_step (fun w e (hw : w.Bodiless) => hw.step e) events
      fun entry hentry => by simp [World.start] at hentry
  have hcases := along_good_or_bad_of
    (fun w e (hw : w.Sound expired) hpre hok => hw.step hexpired hpre hok)
    (fun w e hw _ hok => hw.spoilt hexpired hok)
    (fun w e (hw : w.Spoilt expired) => hw.step e) (World.start_sound expired) hserved
  rcases hcases with ⟨hok, hsound⟩ | ⟨hnot, hspoilt⟩
  · exact iff_of_true (hsound.coalesced hend) hok
  · exact iff_of_false (hspoilt.not_coalesced hbodiless) hnot

def sampleGet (url : String) : Request := ⟨"GET", url, none, none, none⟩

def samplePost : Request := ⟨"POST", "/loans", none, none, some "amount=5"⟩

/-- Both 401s come in before the refresh settles. -/
def burstInTime : List Event :=
  [.send 0 (sampleGet "/members") "k0", .send 1 (sampleGet "/loans") "k1", .respond 0 401,
    .respond 1 401, .settle (.ok (some "new")), .resume 1, .resume 0]

theorem burst_coalesces_inTime :
    (run World.step (.start "old") burstInTime).Coalesced "old" := by
  refine (burst_coalesces "old" (by decide) burstInTime ?_ ?_).mpr ?_
  · simp [burstInTime, Along, Served, World.step, World.start, World.send, World.setCall,
      World.respond, World.refreshOnce, sampleGet, Request.authorize, Request.withKey,
      mutationMethods]
  · intro i call hcall
    rcases i with _ | _ | i
    · cases hcall
      simp
    · cases hcall
      simp
    · cases hcall
  · simp [burstInTime, Along, InTime, World.step, World.start, World.send, World.setCall,
      World.respond, World.refreshOnce, sampleGet, Request.authorize, Request.withKey,
      mutationMethods]

/-- The second 401 comes in after the refresh has settled. -/
def burstLate : List Event :=
  [.send 0 (sampleGet "/members") "k0", .send 1 (sampleGet "/loans") "k1", .respond 0 401,
    .settle (.ok (some "new")), .respond 1 401, .settle (.ok (some "newer")), .resume 0, .resume 1]

def burstWithBody : List Event :=
  [.send 0 samplePost "k0", .respond 0 401, .settle (.ok (some "new")), .resume 0]

/-- A late 401 of the burst starts a second refresh, and a request with a body is not sent again. -/
theorem burst_not_coalesced :
    (Along World.step (Served "old") (.start "old") burstLate ∧
      (run World.step (.start "old") burstLate).Answered ∧
      ¬ (run World.step (.start "old") burstLate).Coalesced "old") ∧
    Along World.step (Served "old") (.start "old") burstWithBody ∧
      (run World.step (.start "old") burstWithBody).Answered ∧
      ¬ (run World.step (.start "old") burstWithBody).Coalesced "old" := by
  refine ⟨⟨?_, ?_, ?_⟩, ?_, ?_, ?_⟩
  · simp [burstLate, Along, Served, World.step, World.start, World.send, World.setCall,
      World.respond, World.refreshOnce, World.settle, sampleGet, Request.authorize,
      Request.withKey, mutationMethods]
  · intro i call hcall
    rcases i with _ | _ | i
    · cases hcall
      simp
    · cases hcall
      simp
    · cases hcall
  · intro hone
    exact absurd hone.1 (by decide)
  · simp [burstWithBody, Along, Served, World.step, World.start, World.send, World.setCall,
      samplePost, Request.authorize, Request.withKey, mutationMethods]
  · intro i call hcall
    rcases i with _ | i
    · cases hcall
      simp
    · cases hcall
  · intro hone
    obtain ⟨t, -, hretries⟩ := hone.2 0 _ rfl rfl
    have hnone : (run World.step (.start "old") burstWithBody).retriesOf 0 = [] := by decide
    rw [hnone] at hretries
    cases hretries

end SaccoPlatform.ApiClient
