import SaccoPlatform.Iam.Survival

/-!
# Password resets

`reset_confirm` of the three services, one database or Redis operation at a time. The token is looked
for in Redis before anything else and deleted there once the new password is set on the session, and
what the transaction writes becomes visible with its commit.

A token verifies when it was issued and has not ended: nobody else knows the secret.
-/

namespace SaccoPlatform.Iam

open Lib

/-- What `make_reset_token` signs. Its `jti` is its place among the tokens. The realm is that of the
user, whose id no other table has. -/
structure ResetToken where
  realm : Realm
  userId : ℕ
  exp : ℤ
deriving DecidableEq, Repr

/-- How far a `reset_confirm` is: the token was found in Redis, the user was read, the password set,
the token deleted, and the sessions with these numbers were read and marked as revoked. -/
inductive ResetPhase where
  | checked
  | found
  | written
  | deleted
  | revoking (sessions : List ℕ) (time : Timestamp)
deriving DecidableEq, Repr

/-- The sessions that the call has read. -/
def ResetPhase.sessions? : ResetPhase → Option (List ℕ)
  | revoking sessions _ => some sessions
  | _ => none

/-- The call has deleted the token. -/
def ResetPhase.past : ResetPhase → Bool
  | deleted => true
  | revoking .. => true
  | _ => false

/-- A `reset_confirm` in progress. `passwordOk` says that the new password is long enough. -/
structure ResetCall where
  jti : ℕ
  token : ResetToken
  passwordOk : Bool
  phase : ResetPhase
deriving DecidableEq, Repr

/-- A `reset_confirm` that has committed, with the sessions that had been created by then. -/
structure ResetCommit where
  jti : ℕ
  token : ResetToken
  created : List Created
deriving DecidableEq, Repr

structure ResetWorld where
  auth : AuthWorld
  tokens : List ResetToken
  /-- The keys `iam:pwreset:{jti}` of Redis. -/
  pwreset : Expiring ℕ Unit
  calls : ℕ → Option ResetCall
  commits : List ResetCommit

def ResetWorld.clock (w : ResetWorld) : Timestamp := w.auth.clock

def ResetWorld.setCall (w : ResetWorld) (request : ℕ) (call : Option ResetCall) : ResetWorld :=
  { w with calls := Function.update w.calls request call }

/-- `reset_request`, with `_RESET_TTL_SECONDS`. -/
def ResetWorld.resetRequest (w : ResetWorld) (ρ : Realm) (userId : ℕ) : ResetWorld :=
  match (w.auth.users ρ).get? userId with
  | none => w
  | some _ => { w with
      tokens := w.tokens ++ [⟨ρ, userId, w.clock / 1000000 + 900⟩]
      pwreset := w.pwreset.set w.tokens.length () (w.clock + seconds 900) }

/-- `verify_reset_token` and the `EXISTS` of Redis. -/
def ResetWorld.check (w : ResetWorld) (request jti : ℕ) (passwordOk : Bool) : ResetWorld :=
  match w.tokens[jti]? with
  | none => w
  | some token =>
    if token.exp < w.clock / 1000000 then w
    else if w.pwreset.get? w.clock jti = none then w
    else w.setCall request (some ⟨jti, token, passwordOk, .checked⟩)

/-- The user is read, and the call ends with 400 when there is none. -/
def ResetWorld.readUser (w : ResetWorld) (request : ℕ) : ResetWorld :=
  match w.calls request with
  | some ⟨jti, token, passwordOk, .checked⟩ =>
    match (w.auth.users token.realm).get? token.userId with
    | none => w.setCall request none
    | some _ => w.setCall request (some ⟨jti, token, passwordOk, .found⟩)
  | _ => w

/-- The password is set, and the call ends with 400 when it is too short. -/
def ResetWorld.writePassword (w : ResetWorld) (request : ℕ) : ResetWorld :=
  match w.calls request with
  | some ⟨jti, token, passwordOk, .found⟩ =>
    if passwordOk then w.setCall request (some ⟨jti, token, passwordOk, .written⟩)
    else w.setCall request none
  | _ => w

/-- The `DEL` of Redis. -/
def ResetWorld.delete (w : ResetWorld) (request : ℕ) : ResetWorld :=
  match w.calls request with
  | some ⟨jti, token, passwordOk, .written⟩ =>
    { w with pwreset := w.pwreset.erase jti }.setCall request
      (some ⟨jti, token, passwordOk, .deleted⟩)
  | _ => w

/-- The sessions that `revoke_all_for_user` reads. -/
def AuthWorld.openSessions (w : AuthWorld) (ρ : Realm) (userId : ℕ) : List ℕ :=
  (List.range w.nextId).filter fun id =>
    (w.sessions ρ id).any fun s => s.userId = userId ∧ s.revokedAt = none

/-- `revoke_all_for_user`. -/
def ResetWorld.revokeAll (w : ResetWorld) (request : ℕ) : ResetWorld :=
  match w.calls request with
  | some ⟨jti, token, passwordOk, .deleted⟩ =>
    w.setCall request (some ⟨jti, token, passwordOk,
      .revoking (w.auth.openSessions token.realm token.userId) w.clock⟩)
  | _ => w

/-- What the commit of a `reset_confirm` makes visible. -/
def AuthWorld.commitReset (w : AuthWorld) (token : ResetToken) (sessions : List ℕ)
    (time : Timestamp) : AuthWorld :=
  { w with
    users := Function.update w.users token.realm
      (match (w.users token.realm).get? token.userId with
        | none => w.users token.realm
        | some u => (w.users token.realm).put { u with hasPassword := true })
    sessions := Function.update w.sessions token.realm fun id =>
      (w.sessions token.realm id).map fun s =>
        if id ∈ sessions then { s with revokedAt := some time } else s }

def ResetWorld.commit (w : ResetWorld) (request : ℕ) : ResetWorld :=
  match w.calls request with
  | some ⟨jti, token, _, .revoking sessions time⟩ =>
    { w with
      auth := w.auth.commitReset token sessions time
      commits := w.commits ++ [(⟨jti, token, w.auth.created⟩ : ResetCommit)] }.setCall request none
  | _ => w

inductive ResetAction (τ : Type) where
  | service (a : AuthAction τ)
  | resetRequest (ρ : Realm) (userId : ℕ)
  | check (request jti : ℕ) (passwordOk : Bool)
  | readUser (request : ℕ)
  | writePassword (request : ℕ)
  | delete (request : ℕ)
  | revokeAll (request : ℕ)
  | commit (request : ℕ)
  | fail (request : ℕ)

def ResetWorld.start (clock : Timestamp) : ResetWorld where
  auth := .start clock
  tokens := []
  pwreset := .empty
  calls _ := none
  commits := []

def ResetWorld.step {τ : Type} (cfg : TokenSettings) (J : Pyjwt τ) (w : ResetWorld) :
    ResetAction τ → ResetWorld
  -- `reset_confirm` takes the steps below instead
  | .service (.resetConfirm ..) => w
  | .service a => { w with auth := w.auth.step cfg J a }
  | .resetRequest ρ userId => w.resetRequest ρ userId
  | .check request jti passwordOk => w.check request jti passwordOk
  | .readUser request => w.readUser request
  | .writePassword request => w.writePassword request
  | .delete request => w.delete request
  | .revokeAll request => w.revokeAll request
  | .commit request => w.commit request
  | .fail request => w.setCall request none

/-! ## Single use -/

/-- No token has changed a password twice. -/
def ResetWorld.UsedOnce (w : ResetWorld) : Prop := (w.commits.map (·.jti)).Nodup

/-- No token with a session of the user from before a reset is accepted, by the dependencies or by
`refresh`. -/
def ResetWorld.SessionsGone {τ : Type} (cfg : TokenSettings) (J : Pyjwt τ) (w : ResetWorld) : Prop :=
  ∀ k ∈ w.commits, ∀ c ∈ k.created, c.realm = k.token.realm → c.userId = k.token.userId →
    ∀ process ρ bearer claims,
      w.auth.keyWorld.decodeToken J process bearer ρ.audience = some claims →
      claims.sessionId = some c.sessionId →
      (∀ user, w.auth.authenticate J process ρ bearer ≠ .ok user) ∧
      (∀ x, (w.auth.refresh cfg J process ρ bearer).1 ≠ .ok x)

/-- A call deletes the token before any other has, and when it commits every session of the user that
is not revoked is among those that it read. -/
def Exclusive {τ : Type} (w : ResetWorld) : ResetAction τ → Prop
  | .delete request => ∀ call ∈ w.calls request, call.phase = .written → w.pwreset call.jti ≠ none
  | .commit request => ∀ call ∈ w.calls request, ∀ sessions ∈ call.phase.sessions?,
      ∀ id ∈ w.auth.openSessions call.token.realm call.token.userId, id ∈ sessions
  | _ => True

instance {τ : Type} (w : ResetWorld) : ∀ a : ResetAction τ, Decidable (Exclusive w a)
  | .delete request => inferInstanceAs (Decidable (∀ call ∈ w.calls request, _ → _))
  | .commit request =>
    inferInstanceAs (Decidable (∀ call ∈ w.calls request, ∀ sessions ∈ _, ∀ id ∈ _, _))
  | .service _ => inferInstanceAs (Decidable True)
  | .resetRequest .. => inferInstanceAs (Decidable True)
  | .check .. => inferInstanceAs (Decidable True)
  | .readUser _ => inferInstanceAs (Decidable True)
  | .writePassword _ => inferInstanceAs (Decidable True)
  | .revokeAll _ => inferInstanceAs (Decidable True)
  | .fail _ => inferInstanceAs (Decidable True)

/-! ### What every step keeps -/

/-- A token that is still in Redis was used by nobody, and otherwise one call at most has used it or
is about to. -/
structure ResetWorld.Tidy (w : ResetWorld) : Prop where
  known : ∀ request call, w.calls request = some call → call.jti < w.tokens.length
  recorded : ∀ k ∈ w.commits, k.jti < w.tokens.length
  unused : ∀ jti, w.pwreset jti ≠ none → jti ∉ w.commits.map (·.jti) ∧
    ∀ request call, w.calls request = some call → call.phase.past → call.jti ≠ jti
  alone : ∀ request call request' call', w.calls request = some call →
    w.calls request' = some call' → call.phase.past → call'.phase.past → call.jti = call'.jti →
      request = request'
  apart : ∀ request call, w.calls request = some call → call.phase.past →
    call.jti ∉ w.commits.map (·.jti)
  once : w.UsedOnce

section

variable {τ : Type} {cfg : TokenSettings} {J : Pyjwt τ} {w : ResetWorld} {request : ℕ}

/-- A call moves on without deleting the token, or ends. -/
theorem ResetWorld.Tidy.setCall (h : w.Tidy) {call : Option ResetCall}
    (hknown : ∀ call' ∈ call, call'.jti < w.tokens.length)
    (hpast : ∀ call' ∈ call, call'.phase.past →
      ∃ call₀, w.calls request = some call₀ ∧ call₀.phase.past ∧ call₀.jti = call'.jti) :
    (w.setCall request call).Tidy := by
  -- a call that has deleted the token had deleted it before
  have hback : ∀ request' call', (w.setCall request call).calls request' = some call' →
      call'.phase.past → ∃ call₀, w.calls request' = some call₀ ∧ call₀.phase.past ∧
        call₀.jti = call'.jti := by
    intro request' call' hcall' hpast'
    rcases update_eq_some hcall' with ⟨rfl, hcall⟩ | ⟨-, hcall⟩
    · exact hpast call' hcall hpast'
    · exact ⟨call', hcall, hpast', rfl⟩
  refine ⟨?_, h.recorded, ?_, ?_, ?_, h.once⟩
  · intro request' call' hcall'
    rcases update_eq_some hcall' with ⟨-, hcall⟩ | ⟨-, hcall⟩
    · exact hknown call' hcall
    · exact h.known request' call' hcall
  · intro jti hjti
    obtain ⟨hcommits, hcalls⟩ := h.unused jti hjti
    refine ⟨hcommits, ?_⟩
    intro request' call' hcall' hpast'
    obtain ⟨call₀, hcall₀, hpast₀, hjti₀⟩ := hback request' call' hcall' hpast'
    exact hjti₀ ▸ hcalls request' call₀ hcall₀ hpast₀
  · intro request₁ call₁ request₂ call₂ hcall₁ hcall₂ hpast₁ hpast₂ hjti
    obtain ⟨call₁', hcall₁', hpast₁', hjti₁⟩ := hback request₁ call₁ hcall₁ hpast₁
    obtain ⟨call₂', hcall₂', hpast₂', hjti₂⟩ := hback request₂ call₂ hcall₂ hpast₂
    exact h.alone request₁ call₁' request₂ call₂' hcall₁' hcall₂' hpast₁' hpast₂'
      (hjti₁.trans (hjti.trans hjti₂.symm))
  · intro request' call' hcall' hpast'
    obtain ⟨call₀, hcall₀, hpast₀, hjti₀⟩ := hback request' call' hcall' hpast'
    exact hjti₀ ▸ h.apart request' call₀ hcall₀ hpast₀

theorem ResetWorld.Tidy.resetRequest (h : w.Tidy) (ρ : Realm) (userId : ℕ) :
    (w.resetRequest ρ userId).Tidy := by
  unfold ResetWorld.resetRequest
  split
  · exact h
  · have hlength : ∀ jti, jti < w.tokens.length →
        jti < (w.tokens ++ [(⟨ρ, userId, w.clock / 1000000 + 900⟩ : ResetToken)]).length := by
      intro jti hjti
      rw [List.length_append]
      omega
    refine ⟨fun request call hcall => hlength _ (h.known request call hcall),
      fun k hk => hlength _ (h.recorded k hk), ?_, h.alone, h.apart, h.once⟩
    intro jti hjti
    by_cases hnew : jti = w.tokens.length
    · -- nobody has seen the new token
      subst hnew
      refine ⟨?_, ?_⟩
      · intro hmem
        obtain ⟨k, hk, hk_jti⟩ := List.mem_map.mp hmem
        exact absurd hk_jti (h.recorded k hk).ne
      · intro request call hcall _
        exact (h.known request call hcall).ne
    · refine h.unused jti ?_
      change w.pwreset.set w.tokens.length () (w.clock + seconds 900) jti ≠ none at hjti
      rwa [Expiring.set_of_ne _ hnew] at hjti

theorem ResetWorld.Tidy.delete (h : w.Tidy)
    (hexclusive : Exclusive w (.delete request : ResetAction τ)) : (w.delete request).Tidy := by
  unfold ResetWorld.delete
  split
  · rename_i jti token passwordOk hcall
    have hin : w.pwreset jti ≠ none := hexclusive _ hcall rfl
    obtain ⟨hcommits, hcalls⟩ := h.unused jti hin
    -- nobody else has deleted this token
    have hothers : ∀ request' call', request' ≠ request → w.calls request' = some call' →
        call'.phase.past → call'.jti ≠ jti := fun request' call' _ => hcalls request' call'
    refine ⟨?_, h.recorded, ?_, ?_, ?_, h.once⟩
    · intro request' call' hcall'
      rcases update_eq_some hcall' with ⟨-, hsame⟩ | ⟨-, hsame⟩
      · cases hsame
        have hknown := h.known request _ hcall
        exact hknown
      · exact h.known request' call' hsame
    · intro jti' hjti'
      have hne : jti' ≠ jti := by
        intro heq
        subst heq
        exact hjti' (Expiring.erase_self _ _)
      have hjti'' : w.pwreset jti' ≠ none := by
        rwa [show w.pwreset jti' = w.pwreset.erase jti jti' from
          (Expiring.erase_of_ne _ hne).symm]
      obtain ⟨hcommits', hcalls'⟩ := h.unused jti' hjti''
      refine ⟨hcommits', ?_⟩
      intro request' call' hcall' hpast'
      rcases update_eq_some hcall' with ⟨-, hsame⟩ | ⟨-, hsame⟩
      · cases hsame
        exact hne.symm
      · exact hcalls' request' call' hsame hpast'
    · intro request₁ call₁ request₂ call₂ hcall₁ hcall₂ hpast₁ hpast₂ hjti
      rcases update_eq_some hcall₁ with ⟨h₁, hsame₁⟩ | ⟨h₁, hsame₁⟩ <;>
        rcases update_eq_some hcall₂ with ⟨h₂, hsame₂⟩ | ⟨h₂, hsame₂⟩
      · exact h₁.trans h₂.symm
      · cases hsame₁
        exact absurd hjti.symm (hothers request₂ call₂ h₂ hsame₂ hpast₂)
      · cases hsame₂
        exact absurd hjti (hothers request₁ call₁ h₁ hsame₁ hpast₁)
      · exact h.alone request₁ call₁ request₂ call₂ hsame₁ hsame₂ hpast₁ hpast₂ hjti
    · intro request' call' hcall' hpast'
      rcases update_eq_some hcall' with ⟨-, hsame⟩ | ⟨-, hsame⟩
      · cases hsame
        exact hcommits
      · exact h.apart request' call' hsame hpast'
  · exact h

theorem ResetWorld.Tidy.commit (h : w.Tidy) : (w.commit request).Tidy := by
  unfold ResetWorld.commit
  split
  · rename_i jti token passwordOk sessions time hcall
    -- the token of the call was deleted, so no other call and no earlier commit holds it
    have hnew : jti ∉ w.commits.map (·.jti) := h.apart request _ hcall rfl
    have hunused : ∀ jti', w.pwreset jti' ≠ none → jti' ≠ jti := by
      intro jti' hjti' heq
      exact (h.unused jti' hjti').2 request _ hcall rfl heq.symm
    refine ⟨?_, ?_, ?_, ?_, ?_, ?_⟩
    · intro request' call' hcall'
      rcases update_eq_some hcall' with ⟨-, hsame⟩ | ⟨-, hsame⟩
      · cases hsame
      · exact h.known request' call' hsame
    · intro k hk
      rcases List.mem_append.mp hk with hk | hk
      · exact h.recorded k hk
      · rw [List.mem_singleton.mp hk]
        have hknown := h.known request _ hcall
        exact hknown
    · intro jti' hjti'
      obtain ⟨hcommits, hcalls⟩ := h.unused jti' hjti'
      refine ⟨?_, ?_⟩
      · intro hmem
        change _ ∈ (w.commits ++ [_]).map _ at hmem
        rw [List.map_append, List.mem_append] at hmem
        rcases hmem with hmem | hmem
        · exact hcommits hmem
        · exact hunused jti' hjti' (List.mem_singleton.mp hmem)
      · intro request' call' hcall' hpast'
        rcases update_eq_some hcall' with ⟨-, hsame⟩ | ⟨-, hsame⟩
        · cases hsame
        · exact hcalls request' call' hsame hpast'
    · intro request₁ call₁ request₂ call₂ hcall₁ hcall₂ hpast₁ hpast₂ hjti
      rcases update_eq_some hcall₁ with ⟨-, hsame₁⟩ | ⟨-, hsame₁⟩
      · cases hsame₁
      · rcases update_eq_some hcall₂ with ⟨-, hsame₂⟩ | ⟨-, hsame₂⟩
        · cases hsame₂
        · exact h.alone request₁ call₁ request₂ call₂ hsame₁ hsame₂ hpast₁ hpast₂ hjti
    · intro request' call' hcall' hpast'
      rcases update_eq_some hcall' with ⟨-, hsame⟩ | ⟨hne, hsame⟩
      · cases hsame
      · intro hmem
        change _ ∈ (w.commits ++ [_]).map _ at hmem
        rw [List.map_append, List.mem_append] at hmem
        rcases hmem with hmem | hmem
        · exact h.apart request' call' hsame hpast' hmem
        · exact hne (h.alone request' call' request _ hsame hcall hpast' rfl
            (List.mem_singleton.mp hmem))
    · show ((w.commits ++ [_]).map _).Nodup
      rw [List.map_append, List.map_singleton]
      refine List.Nodup.append h.once (List.nodup_singleton _) ?_
      intro jti' hmem hmem'
      rw [List.mem_singleton.mp hmem'] at hmem
      exact hnew hmem
  · exact h

theorem ResetWorld.Tidy.step (h : w.Tidy) {a : ResetAction τ} (ha : Exclusive w a) :
    (w.step cfg J a).Tidy := by
  cases a with
  | service a =>
    have hsame : { w with auth := w.auth.step cfg J a }.Tidy :=
      ⟨h.known, h.recorded, h.unused, h.alone, h.apart, h.once⟩
    cases a
    case resetConfirm => exact h
    all_goals exact hsame
  | resetRequest ρ userId => exact h.resetRequest ρ userId
  | check request jti passwordOk =>
    show (w.check request jti passwordOk).Tidy
    unfold ResetWorld.check
    split
    · exact h
    · rename_i token htoken
      split_ifs
      · exact h
      · exact h
      · -- the call starts before its token is deleted
        refine h.setCall ?_ ?_
        · rintro _ ⟨⟩
          exact (List.getElem?_eq_some_iff.mp htoken).1
        · rintro _ ⟨⟩ ⟨⟩
  | readUser request =>
    show (w.readUser request).Tidy
    unfold ResetWorld.readUser
    split
    · rename_i jti token passwordOk hcall
      split
      · exact h.setCall nofun nofun
      · refine h.setCall ?_ ?_
        · rintro _ ⟨⟩
          have hknown := h.known request _ hcall
          exact hknown
        · rintro _ ⟨⟩ ⟨⟩
    · exact h
  | writePassword request =>
    show (w.writePassword request).Tidy
    unfold ResetWorld.writePassword
    split
    · rename_i jti token passwordOk hcall
      split_ifs
      · refine h.setCall ?_ ?_
        · rintro _ ⟨⟩
          have hknown := h.known request _ hcall
          exact hknown
        · rintro _ ⟨⟩ ⟨⟩
      · exact h.setCall nofun nofun
    · exact h
  | delete request => exact h.delete ha
  | revokeAll request =>
    show (w.revokeAll request).Tidy
    unfold ResetWorld.revokeAll
    split
    · rename_i jti token passwordOk hcall
      -- past the delete the call keeps the token that it already held
      refine h.setCall ?_ ?_
      · rintro _ ⟨⟩
        have hknown := h.known request _ hcall
        exact hknown
      · rintro _ ⟨⟩ _
        exact ⟨_, hcall, rfl, rfl⟩
    · exact h
  | commit request => exact h.commit
  | fail request => exact h.setCall nofun nofun

/-! ### Sessions stay revoked -/

/-- The row of the session is revoked, or there is none. -/
def AuthWorld.Over (w : AuthWorld) (c : Created) : Prop :=
  ∀ s, w.sessions c.realm c.sessionId = some s → s.revokedAt ≠ none

theorem AuthWorld.Over.quiet {w w' : AuthWorld} {c : Created} (h : w.Over c) (hquiet : Quiet w w') :
    w'.Over c := by
  intro s' hs' hnone
  obtain ⟨s, hs, -, -, hsame⟩ := hquiet.within _ _ s' hs'
  rw [hsame hnone] at hnone
  exact h s hs hnone

theorem AuthWorld.Over.step {w : AuthWorld} {c : Created} (h : w.Over c) (howned : Owned cfg w)
    (hc : c ∈ w.created) (a : AuthAction τ) : (w.step cfg J a).Over c := by
  rcases AuthWorld.step_cases cfg J w a with
    hquiet | ⟨w₀, ρ, userId, kid, halike, hstep⟩ | ⟨w₀, _, _, _, _, _, _, halike, -, -, hstep⟩
  · exact h.quiet hquiet
  · -- the session that is opened has a number of its own
    have hbelow := (howned.numbered.below c hc).1
    have hover := h.quiet halike.quiet
    intro s hs
    rw [hstep, sessions_openSession, halike.nextId, if_neg fun hnew => absurd hnew.2 hbelow.ne] at hs
    exact hover s hs
  · have hover := h.quiet halike.quiet
    rw [hstep]
    exact hover

theorem created_step (cfg : TokenSettings) (J : Pyjwt τ) (w : AuthWorld) (a : AuthAction τ) :
    w.created ⊆ (w.step cfg J a).created := by
  rcases AuthWorld.step_cases cfg J w a with
    hquiet | ⟨w₀, ρ, userId, kid, halike, hstep⟩ | ⟨w₀, _, _, _, _, _, _, halike, -, -, hstep⟩
  · exact fun c hc => hquiet.created ▸ hc
  · rw [hstep, ← halike.created]
    exact List.subset_append_left _ _
  · rw [hstep]
    exact fun c hc => halike.created ▸ hc

theorem quiet_commitReset (w : AuthWorld) (token : ResetToken) (sessions : List ℕ)
    (time : Timestamp) : Quiet w (w.commitReset token sessions time) := by
  have halike : Alike w { w with users := (w.commitReset token sessions time).users } :=
    ⟨rfl, rfl, rfl, rfl, rfl, rfl⟩
  refine halike.quiet_of_quiet (quiet_update ?_)
  intro id s' hs'
  obtain ⟨s, hs, rfl⟩ := Option.map_eq_some_iff.mp hs'
  refine ⟨s, hs, ?_⟩
  split_ifs
  · exact ⟨rfl, rfl, nofun⟩
  · exact ⟨rfl, rfl, fun _ => rfl⟩

/-- The commit revokes every session of the user when none was opened since they were read. -/
theorem over_commitReset {w : AuthWorld} {token : ResetToken} {sessions : List ℕ} {time : Timestamp}
    (howned : Owned cfg w) (hread : ∀ id ∈ w.openSessions token.realm token.userId, id ∈ sessions)
    {c : Created} (hc : c ∈ w.created) (hrealm : c.realm = token.realm)
    (huser : c.userId = token.userId) : (w.commitReset token sessions time).Over c := by
  intro s' hs' hnone
  change Function.update w.sessions token.realm _ c.realm c.sessionId = some s' at hs'
  rw [hrealm, Function.update_self] at hs'
  obtain ⟨s, hs, rfl⟩ := Option.map_eq_some_iff.mp hs'
  by_cases hid : c.sessionId ∈ sessions
  · rw [if_pos hid] at hnone
    cases hnone
  · rw [if_neg hid] at hnone
    refine hid (hread _ ?_)
    obtain ⟨c', hc', -, hid', huser', -⟩ := howned.rows _ _ s hs
    obtain rfl := howned.numbered.distinct c' hc' c hc (.inl hid')
    have hbelow := (howned.numbered.below c' hc').1
    have hopen : s.userId = token.userId ∧ s.revokedAt = none := ⟨huser'.symm.trans huser, hnone⟩
    simp only [AuthWorld.openSessions, List.mem_filter, List.mem_range, hs, Option.any_some,
      decide_eq_true_eq]
    exact ⟨hbelow, hopen⟩

/-- The sessions from before a reset are over. -/
structure ResetWorld.Settled (cfg : TokenSettings) (w : ResetWorld) : Prop where
  owned : Owned cfg w.auth
  created : ∀ k ∈ w.commits, k.created ⊆ w.auth.created
  ended : ∀ k ∈ w.commits, ∀ c ∈ k.created, c.realm = k.token.realm → c.userId = k.token.userId →
    w.auth.Over c

theorem ResetWorld.Settled.commit (h : w.Settled cfg)
    (hexclusive : Exclusive w (.commit request : ResetAction τ)) : (w.commit request).Settled cfg := by
  unfold ResetWorld.commit
  split
  · rename_i jti token passwordOk sessions time hcall
    have hread := hexclusive _ hcall sessions rfl
    have hquiet := quiet_commitReset w.auth token sessions time
    refine ⟨h.owned.quiet hquiet, ?_, ?_⟩
    · intro k hk
      rcases List.mem_append.mp hk with hk | hk
      · exact h.created k hk
      · rw [List.mem_singleton.mp hk]
        exact List.Subset.refl _
    · intro k hk c hc hrealm huser
      rcases List.mem_append.mp hk with hk | hk
      · exact (h.ended k hk c hc hrealm huser).quiet hquiet
      · rw [List.mem_singleton.mp hk] at hc hrealm huser
        exact over_commitReset h.owned hread hc hrealm huser
  · exact h

/-- Only the services and the commits change the sessions. -/
theorem framed_step (cfg : TokenSettings) (J : Pyjwt τ) (w : ResetWorld) (a : ResetAction τ) :
    (∃ b, a = .service b ∧ w.step cfg J a = { w with auth := w.auth.step cfg J b }) ∨
    (∃ request, a = .commit request) ∨
    ((w.step cfg J a).auth = w.auth ∧ (w.step cfg J a).commits = w.commits) := by
  cases a with
  | service b =>
    cases b
    case resetConfirm => exact .inr (.inr ⟨rfl, rfl⟩)
    all_goals exact .inl ⟨_, rfl, rfl⟩
  | resetRequest ρ userId =>
    refine .inr (.inr ?_)
    show (w.resetRequest ρ userId).auth = _ ∧ (w.resetRequest ρ userId).commits = _
    unfold ResetWorld.resetRequest
    split <;> exact ⟨rfl, rfl⟩
  | check request jti passwordOk =>
    refine .inr (.inr ?_)
    show (w.check request jti passwordOk).auth = _ ∧ (w.check request jti passwordOk).commits = _
    unfold ResetWorld.check
    split
    · exact ⟨rfl, rfl⟩
    · split_ifs <;> exact ⟨rfl, rfl⟩
  | readUser request =>
    refine .inr (.inr ?_)
    show (w.readUser request).auth = _ ∧ (w.readUser request).commits = _
    unfold ResetWorld.readUser
    split
    · split <;> exact ⟨rfl, rfl⟩
    · exact ⟨rfl, rfl⟩
  | writePassword request =>
    refine .inr (.inr ?_)
    show (w.writePassword request).auth = _ ∧ (w.writePassword request).commits = _
    unfold ResetWorld.writePassword
    split
    · split_ifs <;> exact ⟨rfl, rfl⟩
    · exact ⟨rfl, rfl⟩
  | delete request =>
    refine .inr (.inr ?_)
    show (w.delete request).auth = _ ∧ (w.delete request).commits = _
    unfold ResetWorld.delete
    split <;> exact ⟨rfl, rfl⟩
  | revokeAll request =>
    refine .inr (.inr ?_)
    show (w.revokeAll request).auth = _ ∧ (w.revokeAll request).commits = _
    unfold ResetWorld.revokeAll
    split <;> exact ⟨rfl, rfl⟩
  | commit request => exact .inr (.inl ⟨request, rfl⟩)
  | fail request => exact .inr (.inr ⟨rfl, rfl⟩)

theorem ResetWorld.Settled.step (h : w.Settled cfg) {a : ResetAction τ} (ha : Exclusive w a) :
    (w.step cfg J a).Settled cfg := by
  rcases framed_step cfg J w a with ⟨b, -, hstep⟩ | ⟨request, rfl⟩ | ⟨hauth, hcommits⟩
  · rw [hstep]
    refine ⟨h.owned.step b, ?_, ?_⟩
    · intro k hk
      exact List.Subset.trans (h.created k hk) (created_step cfg J w.auth b)
    · intro k hk c hc hrealm huser
      exact (h.ended k hk c hc hrealm huser).step h.owned (h.created k hk hc) b
  · exact h.commit ha
  · refine ⟨?_, ?_, ?_⟩ <;> rw [hauth]
    · exact h.owned
    · rw [hcommits]
      exact h.created
    · rw [hcommits]
      exact h.ended

theorem ResetWorld.Settled.sessionsGone (h : w.Settled cfg) : w.SessionsGone cfg J := by
  intro k hk c hc hrealm huser process ρ bearer claims hdecode hid
  -- a row with this number is that of the session, in whatever realm it is looked for
  have hrow : ∀ s, w.auth.sessions ρ c.sessionId = some s → s.revokedAt ≠ none := by
    intro s hs
    obtain ⟨c', hc', hρ, hid', -, -⟩ := h.owned.rows ρ c.sessionId s hs
    obtain rfl := h.owned.numbered.distinct c' hc' c (h.created k hk hc) (.inl hid')
    subst hρ
    exact h.ended k hk c' hc hrealm huser s hs
  refine ⟨?_, ?_⟩
  · intro user hok
    obtain ⟨claims', id, s, u, hdecode', hid', -, hs, hnone, -⟩ := authenticate_eq_ok.mp hok
    rw [hdecode] at hdecode'
    cases hdecode'
    rw [hid] at hid'
    cases hid'
    exact hrow s hs hnone
  · intro x hok
    obtain ⟨claims', id, s, hdecode', hid', hs, hnone⟩ := refresh_eq_ok hok
    rw [hdecode] at hdecode'
    cases hdecode'
    rw [hid] at hid'
    cases hid'
    exact hrow s hs hnone

theorem tidy_start (clock : Timestamp) : (ResetWorld.start clock).Tidy where
  known _ _ hcall := nomatch hcall
  recorded _ hk := nomatch hk
  unused _ hjti := absurd rfl hjti
  alone _ _ _ _ hcall := nomatch hcall
  apart _ _ hcall := nomatch hcall
  once := List.nodup_nil

theorem settled_start (clock : Timestamp) : (ResetWorld.start clock).Settled cfg where
  owned := owned_start clock
  created _ hk := nomatch hk
  ended _ hk := nomatch hk

end

/-- No token is used twice and no session from before a reset is accepted, in every run where a token
is still in Redis when it is deleted there and no session of the user is opened between the moment
when they are read and the commit. -/
theorem reset_tokens_single_use {τ : Type} (J : Pyjwt τ) (cfg : TokenSettings) (clock : Timestamp)
    (actions : List (ResetAction τ))
    (hexclusive : Along (ResetWorld.step cfg J) Exclusive (.start clock) actions) :
    ∀ front, front <+: actions →
      (run (ResetWorld.step cfg J) (.start clock) front).UsedOnce ∧
      (run (ResetWorld.step cfg J) (.start clock) front).SessionsGone cfg J := by
  have hstep : ∀ (w : ResetWorld) (a : ResetAction τ), w.Tidy ∧ w.Settled cfg → Exclusive w a →
      (w.step cfg J a).Tidy ∧ (w.step cfg J a).Settled cfg :=
    fun _ _ h ha => ⟨h.1.step ha, h.2.step ha⟩
  have hstart : (ResetWorld.start clock).Tidy ∧ (ResetWorld.start clock).Settled cfg :=
    ⟨tidy_start clock, settled_start clock⟩
  rintro front ⟨rest, rfl⟩
  obtain ⟨htidy, hsettled⟩ := run_invariant hstep hstart (along_append.mp hexclusive).1
  exact ⟨htidy.once, hsettled.sessionsGone⟩

/-- A user of the tenant `umoja` logs in and asks for a reset. -/
def sampleAsked : List (ResetAction SignedToken) :=
  [.service (.createUser (.tenant "umoja") true), .service (.login 0 (.tenant "umoja") 1),
    .resetRequest (.tenant "umoja") 1]

/-- A reset on its own. -/
def sampleReset : List (ResetAction SignedToken) :=
  sampleAsked ++ [.check 0 0 true, .readUser 0, .writePassword 0, .delete 0, .revokeAll 0, .commit 0]

theorem reset_tokens_single_use_once :
    ((run (ResetWorld.step defaultTokens .symbolic) (.start 0) sampleReset).commits.map (·.jti)) = [0] ∧
    (run (ResetWorld.step defaultTokens .symbolic) (.start 0) sampleReset).UsedOnce ∧
    (run (ResetWorld.step defaultTokens .symbolic) (.start 0) sampleReset).SessionsGone defaultTokens
      .symbolic :=
  ⟨by decide +kernel, reset_tokens_single_use .symbolic defaultTokens 0 sampleReset (by decide +kernel)
    sampleReset (List.prefix_refl _)⟩

/-- Two calls that find the token in Redis before either deletes it. -/
def sampleTwoResets : List (ResetAction SignedToken) :=
  sampleAsked ++ [.check 0 0 true, .check 1 0 true, .readUser 0, .readUser 1, .writePassword 0,
    .writePassword 1, .delete 0, .revokeAll 0, .commit 0, .delete 1, .revokeAll 1, .commit 1]

/-- A login between the moment when the sessions are read and the commit. -/
def sampleLateLogin : List (ResetAction SignedToken) :=
  sampleAsked ++ [.check 0 0 true, .readUser 0, .writePassword 0, .delete 0, .revokeAll 0,
    .service (.login 0 (.tenant "umoja") 1), .commit 0]

/-- The session of that login, and its access token. -/
def sampleLateSession : Created := ⟨.tenant "umoja", 3, 1, 4, 0, 2⟩

def sampleLateAccess : Issued :=
  ⟨.access, encodeAccessToken 0 1 "tenant:umoja" 3 "tenant_user" 5 900, 0, 2⟩

theorem reset_tokens_used_twice :
    ((run (ResetWorld.step defaultTokens .symbolic) (.start 0) sampleTwoResets).commits.map (·.jti))
      = [0, 0] ∧
    ¬ (run (ResetWorld.step defaultTokens .symbolic) (.start 0) sampleTwoResets).UsedOnce ∧
    ¬ (run (ResetWorld.step defaultTokens .symbolic) (.start 0) sampleLateLogin).SessionsGone
      defaultTokens .symbolic := by
  have hjtis : ((run (ResetWorld.step defaultTokens .symbolic) (.start 0)
      sampleTwoResets).commits.map (·.jti)) = [0, 0] := by decide +kernel
  refine ⟨hjtis, ?_, ?_⟩
  · show ¬ (List.map _ _).Nodup
    rw [hjtis]
    decide
  · intro hgone
    -- the session is older than the commit, and its token still opens everything
    have hcommit : (⟨0, ⟨.tenant "umoja", 1, 900⟩, [sampleSession, sampleLateSession]⟩ : ResetCommit) ∈
        (run (ResetWorld.step defaultTokens .symbolic) (.start 0) sampleLateLogin).commits := by
      decide +kernel
    have haccepted : (run (ResetWorld.step defaultTokens .symbolic) (.start 0)
        sampleLateLogin).auth.authenticate .symbolic 0 (.tenant "umoja")
          (sampleLateAccess.token .symbolic) = .ok 1 := rfl
    obtain ⟨hrefused, -⟩ := hgone _ hcommit sampleLateSession (by decide) rfl rfl 0 (.tenant "umoja")
      (sampleLateAccess.token .symbolic) sampleLateAccess.claims rfl rfl
    exact hrefused 1 haccepted

end SaccoPlatform.Iam
