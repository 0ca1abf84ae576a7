import SaccoPlatform.Iam.Isolation

/-!
# Impersonations

`ImpersonationService` of `app/platform_/impersonations/service.py`. The platform's schema holds the
limits of an impersonation and the tenant's schema holds the shadow user with its sessions, and the
JWT dependency of the tenant looks at the second only. A mint and an end each read the row of the
platform, commit on the tenant and then commit on the platform; everything else can come in between.

The tenant is active and the platform user exists throughout.
-/

namespace SaccoPlatform.Iam

open Lib

/-! ## The service -/

/-- A row of `support_impersonations`. -/
structure Impersonation where
  id : ℕ
  slug : String
  expiresAt : Timestamp
  tenantUserId : Option ℕ
  endedAt : Option Timestamp
  revokedAt : Option Timestamp
deriving DecidableEq, Repr

/-- A `mint_tenant_token` in progress: the row as it was read, the key, and the shadow user once the
tenant's transaction has committed. -/
structure Mint where
  row : Impersonation
  kid : ℕ
  shadow : Option ℕ
deriving DecidableEq, Repr

inductive ClosingKind where
  | ended
  | revoked
deriving DecidableEq, Repr

/-- An `end` or `revoke` in progress: the row as it was read, the time it will record, and whether the
tenant's transaction has committed. -/
structure Closing where
  row : Impersonation
  kind : ClosingKind
  time : Timestamp
  cleaned : Bool
deriving DecidableEq, Repr

structure ImpersonationWorld where
  auth : AuthWorld
  impersonations : Keyed Impersonation.id
  mints : ℕ → Option Mint
  closings : ℕ → Option Closing

def ImpersonationWorld.clock (w : ImpersonationWorld) : Timestamp := w.auth.clock

/-- `execute_start_impersonation`, with `compute_expires_at`. -/
def ImpersonationWorld.approve (maxMinutes : ℕ) (w : ImpersonationWorld) (slug : String) :
    ImpersonationWorld :=
  { w with
    impersonations := w.impersonations.insertNew
      (fun id => ⟨id, slug, w.clock + minutes maxMinutes, none, none, none⟩) fun _ => rfl }

/-- The row is ended or revoked, or its time is over. -/
def Impersonation.Over (m : Impersonation) (now : Timestamp) : Prop :=
  m.endedAt ≠ none ∨ m.revokedAt ≠ none ∨ m.expiresAt ≤ now

instance (m : Impersonation) (now : Timestamp) : Decidable (m.Over now) :=
  inferInstanceAs (Decidable (_ ∨ _ ∨ _))

/-- `mint_tenant_token` up to the tenant's session: the checks and the key. -/
def ImpersonationWorld.mintCheck (w : ImpersonationWorld) (request process id : ℕ) :
    ImpersonationWorld :=
  match w.impersonations.get? id with
  | none => w
  | some m =>
    if m.Over w.clock then w
    else
      match (w.auth.keyWorld.fetchKey process .tenant).1 with
      | .error _ => w
      | .ok kid => { w with
          auth := { w.auth with keyWorld := (w.auth.keyWorld.fetchKey process .tenant).2 }
          mints := Function.update w.mints request (some ⟨m, kid, none⟩) }

/-- The commit of the tenant's transaction. -/
def ImpersonationWorld.mintTenant (cfg : TokenSettings) (w : ImpersonationWorld) (request : ℕ) :
    ImpersonationWorld :=
  match w.mints request with
  | some ⟨m, kid, none⟩ => { w with
      auth := w.auth.mintShadow cfg m.slug m.id kid
      mints := Function.update w.mints request
        (some ⟨m, kid, some (w.auth.withShadow m.slug m.id).1⟩) }
  | _ => w

/-- The commit of the platform's transaction, which links the shadow user if none was linked. -/
def ImpersonationWorld.mintLink (w : ImpersonationWorld) (request : ℕ) : ImpersonationWorld :=
  match w.mints request with
  | some ⟨m, _, some shadow⟩ => { w with
      impersonations :=
        match w.impersonations.get? m.id with
        | some row =>
          if m.tenantUserId = none then w.impersonations.put { row with tenantUserId := some shadow }
          else w.impersonations
        | none => w.impersonations
      mints := Function.update w.mints request none }
  | _ => w

/-- `end` or `revoke` up to the tenant's session. -/
def ImpersonationWorld.closeCheck (w : ImpersonationWorld) (request : ℕ) (kind : ClosingKind)
    (id : ℕ) : ImpersonationWorld :=
  match w.impersonations.get? id with
  | none => w
  | some m =>
    if m.endedAt ≠ none ∨ m.revokedAt ≠ none then w
    else { w with closings := Function.update w.closings request (some ⟨m, kind, w.clock, false⟩) }

/-- `_deactivate_shadow_and_revoke_sessions`, which does nothing as long as no shadow user is
linked. -/
def AuthWorld.deactivateShadow (w : AuthWorld) (m : Impersonation) : AuthWorld :=
  match m.tenantUserId with
  | none => w
  | some shadow =>
    (w.setActive (.tenant m.slug) shadow false).revokeAllForUser (.tenant m.slug) shadow

def ImpersonationWorld.closeTenant (w : ImpersonationWorld) (request : ℕ) : ImpersonationWorld :=
  match w.closings request with
  | some ⟨m, kind, time, false⟩ => { w with
      auth := w.auth.deactivateShadow m
      closings := Function.update w.closings request (some ⟨m, kind, time, true⟩) }
  | _ => w

/-- The row with the time of its end, unless the check constraint refuses both. -/
def Impersonation.close (kind : ClosingKind) (time : Timestamp) (m : Impersonation) : Impersonation :=
  match kind with
  | .ended => if m.revokedAt = none then { m with endedAt := some time } else m
  | .revoked => if m.endedAt = none then { m with revokedAt := some time } else m

/-- The commit of the platform's transaction. -/
def ImpersonationWorld.closeCommit (w : ImpersonationWorld) (request : ℕ) : ImpersonationWorld :=
  match w.closings request with
  | some ⟨m, kind, time, true⟩ => { w with
      impersonations :=
        match w.impersonations.get? m.id with
        | some row => w.impersonations.put (row.close kind time)
        | none => w.impersonations
      closings := Function.update w.closings request none }
  | _ => w

/-! ## Runs -/

inductive ImpersonationAction (τ : Type) where
  | wait (duration : ℕ)
  | approve (slug : String)
  | mintCheck (request process id : ℕ)
  | mintTenant (request : ℕ)
  | mintLink (request : ℕ)
  | closeCheck (request : ℕ) (kind : ClosingKind) (id : ℕ)
  | closeTenant (request : ℕ)
  | closeCommit (request : ℕ)
  | refresh (process : ℕ) (slug : String) (bearer : τ)
  | authenticate (process : ℕ) (slug : String) (bearer : τ)

def ImpersonationAction.bearer? {τ : Type} : ImpersonationAction τ → Option τ
  | refresh _ _ bearer => some bearer
  | authenticate _ _ bearer => some bearer
  | _ => none

def ImpersonationWorld.start (clock : Timestamp) : ImpersonationWorld where
  auth := .start clock
  impersonations := ⟨[], List.nodup_nil⟩
  mints _ := none
  closings _ := none

def ImpersonationWorld.step {τ : Type} (cfg : TokenSettings) (maxMinutes : ℕ) (J : Pyjwt τ)
    (w : ImpersonationWorld) : ImpersonationAction τ → ImpersonationWorld
  | .wait duration => { w with auth := w.auth.step cfg J (.wait duration) }
  | .approve slug => w.approve maxMinutes slug
  | .mintCheck request process id => w.mintCheck request process id
  | .mintTenant request => w.mintTenant cfg request
  | .mintLink request => w.mintLink request
  | .closeCheck request kind id => w.closeCheck request kind id
  | .closeTenant request => w.closeTenant request
  | .closeCommit request => w.closeCommit request
  | .refresh process slug bearer =>
    { w with auth := w.auth.step cfg J (.refresh process (.tenant slug) bearer) }
  | .authenticate process slug bearer =>
    { w with auth := w.auth.step cfg J (.authenticate process (.tenant slug) bearer) }

/-! ## Confinement -/

/-- The shadow user is inactive, or every token of its sessions that are not revoked has ended by the
time `now`. -/
def Spent (w : AuthWorld) (m : Impersonation) (now : Timestamp) : Prop :=
  ∀ u ∈ (w.users (.tenant m.slug)).rows, u.impersonationId = some m.id → u.active = true →
    ∀ i ∈ w.keyWorld.issued, ∀ id ∈ i.claims.sessionId, ∀ s ∈ w.sessions (.tenant m.slug) id,
      s.userId = u.id → s.revokedAt = none → i.claims.exp * 1000000 ≤ now

instance (w : AuthWorld) (m : Impersonation) (now : Timestamp) : Decidable (Spent w m now) :=
  inferInstanceAs (Decidable (∀ u ∈ _, _ → _ → ∀ i ∈ _, ∀ id ∈ _, ∀ s ∈ _, _ → _ → _))

/-- A mint commits on the tenant only while the impersonation is in force, an end or a revocation
commits on the platform only when nothing can be done with the shadow user any more, and so it is when
the time of an impersonation runs out that was neither ended nor revoked. -/
def Careful {τ : Type} (w : ImpersonationWorld) : ImpersonationAction τ → Prop
  | .wait duration => ∀ m ∈ w.impersonations.rows, ¬ m.Over w.clock →
      m.Over (w.clock + duration) → Spent w.auth m (w.clock + duration)
  | .mintTenant request => ∀ mint ∈ w.mints request, mint.shadow = none →
      ∀ m ∈ w.impersonations.get? mint.row.id, ¬ m.Over w.clock
  | .closeCommit request => ∀ c ∈ w.closings request, c.cleaned = true →
      ∀ m ∈ w.impersonations.get? c.row.id, Spent w.auth m w.clock
  | _ => True

instance {τ : Type} (w : ImpersonationWorld) : ∀ a : ImpersonationAction τ, Decidable (Careful w a)
  | .wait _ => inferInstanceAs (Decidable (∀ m ∈ w.impersonations.rows, _ → _ → _))
  | .mintTenant request => inferInstanceAs (Decidable (∀ mint ∈ w.mints request, _ → ∀ m ∈ _, _))
  | .closeCommit request => inferInstanceAs (Decidable (∀ c ∈ w.closings request, _ → ∀ m ∈ _, _))
  | .approve _ => inferInstanceAs (Decidable True)
  | .mintCheck .. => inferInstanceAs (Decidable True)
  | .mintLink _ => inferInstanceAs (Decidable True)
  | .closeCheck .. => inferInstanceAs (Decidable True)
  | .closeTenant _ => inferInstanceAs (Decidable True)
  | .refresh .. => inferInstanceAs (Decidable True)
  | .authenticate .. => inferInstanceAs (Decidable True)

/-! ### What can be done with a shadow user -/

section

variable {τ : Type} {cfg : TokenSettings} {J : Pyjwt τ} {w w' : AuthWorld} {m : Impersonation}
  {now : Timestamp}

theorem Spent.mono {now' : Timestamp} (h : Spent w m now) (hle : now ≤ now') : Spent w m now' := by
  intro u hu himp hactive i hi id hid s hs huser hrevoked
  exact (h u hu himp hactive i hi id hid s hs huser hrevoked).trans hle

/-- Nothing is issued, and no shadow user of the impersonation becomes active. -/
theorem Spent.quiet (h : Spent w m now) (hquiet : Quiet w w')
    (husers : ∀ u ∈ (w'.users (.tenant m.slug)).rows, u.impersonationId = some m.id →
      u.active = true → u ∈ (w.users (.tenant m.slug)).rows) : Spent w' m now := by
  intro u hu himp hactive i hi id hid s' hs' huser hrevoked
  obtain ⟨s, hs, -, -, hsame⟩ := hquiet.within (.tenant m.slug) id s' hs'
  obtain rfl := hsame hrevoked
  exact h u (husers u hu himp hactive) himp hactive i (hquiet.issued ▸ hi) id hid s' hs huser hrevoked

/-- The shadow user is found or created, and the other users are as they were. -/
theorem withShadow_spec (w : AuthWorld) (slug : String) (impersonationId : ℕ) :
    (∀ ρ, ρ ≠ .tenant slug → (w.withShadow slug impersonationId).2.users ρ = w.users ρ) ∧
    (∀ u ∈ ((w.withShadow slug impersonationId).2.users (.tenant slug)).rows,
      u ∈ (w.users (.tenant slug)).rows ∨ u.impersonationId = some impersonationId) ∧
    ∃ u ∈ ((w.withShadow slug impersonationId).2.users (.tenant slug)).rows,
      u.id = (w.withShadow slug impersonationId).1 ∧ u.impersonationId = some impersonationId := by
  unfold AuthWorld.withShadow
  split
  · refine ⟨fun ρ hρ => Function.update_of_ne hρ .., ?_, ?_⟩
    · intro u hu
      simp only [Function.update_self, Keyed.rows_insertNew, List.mem_append,
        List.mem_singleton] at hu
      rcases hu with hu | rfl
      · exact .inl hu
      · exact .inr rfl
    · refine ⟨⟨(w.users (.tenant slug)).fresh, true, false, some impersonationId⟩, ?_, rfl, rfl⟩
      simp only [Function.update_self, Keyed.rows_insertNew, List.mem_append, List.mem_singleton,
        or_true]
  · rename_i shadow hshadow
    have hmem : shadow ∈ (w.users (.tenant slug)).rows := List.mem_of_find?_eq_some hshadow
    have himp : shadow.impersonationId = some impersonationId := by
      simpa using List.find?_some hshadow
    refine ⟨fun ρ hρ => Function.update_of_ne hρ .., ?_, ?_⟩
    · intro u hu
      simp only [Function.update_self] at hu
      rcases Keyed.mem_put.mp hu with ⟨hu, -⟩ | ⟨rfl, -⟩
      · exact .inl hu
      · exact .inr himp
    · refine ⟨{ shadow with active := true }, ?_, rfl, himp⟩
      simp only [Function.update_self]
      exact Keyed.mem_put.mpr (.inr ⟨rfl, shadow, hmem, rfl⟩)

/-- A mint for one impersonation gives nothing to the shadow user of another. -/
theorem Spent.mintShadow (h : Spent w m now) (htraced : Traced w) (hnumbered : Numbered w)
    {slug : String} {impersonationId : ℕ} (hne : m.id ≠ impersonationId) (kid : ℕ) :
    Spent (w.mintShadow cfg slug impersonationId kid) m now := by
  obtain ⟨hothers, hrows, shadow, hshadow, hshadow_id, hshadow_imp⟩ :=
    withShadow_spec w slug impersonationId
  have halike := alike_withShadow w slug impersonationId
  intro u hu himp hactive i hi id hid s hs huser hrevoked
  -- the user was there before, and is not the one that the session is opened for
  have hu_old : u ∈ (w.users (.tenant m.slug)).rows := by
    by_cases hslug : Realm.tenant m.slug = .tenant slug
    · rw [hslug] at hu ⊢
      refine (hrows u hu).resolve_right ?_
      rw [himp]
      exact fun heq => hne (Option.some.inj heq)
    · rw [← hothers _ hslug]
      exact hu
  have hother : ¬ (Realm.tenant m.slug = .tenant slug ∧ u.id = (w.withShadow slug impersonationId).1) := by
    rintro ⟨hslug, hid_eq⟩
    rw [hslug] at hu
    have heq : u = shadow := Keyed.eq_of_key _ hu hshadow (hid_eq.trans hshadow_id.symm)
    rw [heq, hshadow_imp] at himp
    exact hne (Option.some.inj himp).symm
  have hs_old : w.sessions (.tenant m.slug) id = some s := by
    change (AuthWorld.openSession cfg _ (.tenant slug) _ kid).sessions (.tenant m.slug) id = some s
      at hs
    rw [sessions_openSession, halike.sessions] at hs
    split_ifs at hs with hnew
    · cases hs
      exact absurd ⟨hnew.1, huser.symm⟩ hother
    · exact hs
  rcases List.mem_append.mp hi with hi | hi
  · rw [halike.issued] at hi
    exact h u hu_old himp hactive i hi id hid s hs_old huser hrevoked
  · -- the new tokens belong to a session that was not there
    exfalso
    have hid_new : id = w.nextId := by
      rw [← halike.nextId]
      simp only [List.map_cons, List.map_nil, List.mem_cons, List.not_mem_nil, or_false] at hi
      rcases hi with rfl | rfl <;> exact (Option.some.inj hid).symm
    obtain ⟨c, hc, -, hc_id, -⟩ := htraced.rows _ id s hs_old
    have hbelow := (hnumbered.below c hc).1
    omega

/-- A refresh needs a token of the session that has not ended. -/
theorem Spent.refresh (h : Spent w m w.clock) (process : ℕ) (ρ : Realm) {bearer : τ}
    (hbearer : Unforged J w bearer) :
    Spent (w.refresh cfg J process ρ bearer).2 m w.clock := by
  have husers := w.users_refresh cfg J process ρ bearer
  rcases w.refresh_cases cfg J process ρ bearer with
    halike | ⟨w₀, sub, sessionId, kid, halike, hcheck, hr⟩
  · refine h.quiet halike.quiet ?_
    intro u hu _ _
    rwa [husers] at hu
  · intro u hu himp hactive i hi id hid s hs huser hrevoked
    rw [husers] at hu
    rw [hr] at hi hs
    change w₀.sessions (.tenant m.slug) id = some s at hs
    rw [halike.sessions] at hs
    rcases List.mem_append.mp hi with hi | hi
    · rw [halike.issued] at hi
      exact h u hu himp hactive i hi id hid s hs huser hrevoked
    · exfalso
      -- the token that was refreshed is of the same session, and `h` says that it has ended
      obtain ⟨c, -, hdecode, -, hc_id, -⟩ := decode_of_checkRefresh hcheck
      obtain ⟨key, hkey⟩ := decode_of_decodeToken hdecode
      obtain ⟨j, hj, rfl⟩ := hbearer key _ _ _ hkey
      obtain ⟨rfl, hvalid, -⟩ := decodeToken_token.mp hdecode
      obtain ⟨x, hx, rfl⟩ := List.mem_map.mp hi
      rw [List.mem_singleton.mp hx] at hid
      have hsame : id = sessionId := (Option.some.inj hid).symm
      have hended := h u hu himp hactive j hj id (by rw [hc_id, hsame]; rfl) s hs huser hrevoked
      exact absurd hvalid.2.2 (not_lt.mpr hended)

theorem deactivateShadow_quiet (w : AuthWorld) (m : Impersonation) : Quiet w (w.deactivateShadow m) := by
  unfold AuthWorld.deactivateShadow
  split
  · exact Alike.quiet ⟨rfl, rfl, rfl, rfl, rfl, rfl⟩
  · rename_i shadow _
    refine Alike.quiet_of_quiet ?_ (quiet_revokeAllForUser _ _ shadow)
    unfold AuthWorld.setActive
    split <;> exact ⟨rfl, rfl, rfl, rfl, rfl, rfl⟩

/-- Users change in one way only: they are deactivated. -/
theorem users_deactivateShadow {ρ : Realm} {u : AuthUser} (w : AuthWorld) (m : Impersonation)
    (hu : u ∈ ((w.deactivateShadow m).users ρ).rows) :
    ∃ u₀ ∈ (w.users ρ).rows, u₀.impersonationId = u.impersonationId ∧ (u.active = true → u = u₀) := by
  unfold AuthWorld.deactivateShadow at hu
  split at hu
  · exact ⟨u, hu, rfl, fun _ => rfl⟩
  · rename_i shadow _
    change u ∈ ((w.setActive (.tenant m.slug) shadow false).users ρ).rows at hu
    unfold AuthWorld.setActive at hu
    split at hu
    · exact ⟨u, hu, rfl, fun _ => rfl⟩
    · rename_i u₀ hu₀
      by_cases hρ : ρ = .tenant m.slug
      · subst hρ
        simp only [Function.update_self] at hu
        rcases Keyed.mem_put.mp hu with ⟨hu, -⟩ | ⟨rfl, -⟩
        · exact ⟨u, hu, rfl, fun _ => rfl⟩
        · exact ⟨u₀, Keyed.mem_of_get? hu₀, rfl, nofun⟩
      · simp only [Function.update_of_ne hρ] at hu
        exact ⟨u, hu, rfl, fun _ => rfl⟩

end

/-! ### Every step -/

/-- The sessions go back to their logins and mints, shadow users and mints belong to impersonations
that exist, and with those that are over nothing can be done. -/
structure ImpersonationWorld.Sound (w : ImpersonationWorld) : Prop where
  traced : Traced w.auth
  numbered : Numbered w.auth
  shadows : ∀ slug, ∀ u ∈ (w.auth.users (.tenant slug)).rows, ∀ id, u.impersonationId = some id →
    ∃ m ∈ w.impersonations.rows, m.id = id
  mints : ∀ request mint, w.mints request = some mint →
    ∃ m ∈ w.impersonations.rows, m.id = mint.row.id
  spent : ∀ m ∈ w.impersonations.rows, m.Over w.clock → Spent w.auth m w.clock

section

variable {τ : Type} {cfg : TokenSettings} {maxMinutes : ℕ} {J : Pyjwt τ} {w : ImpersonationWorld}

/-- A step of the services that leaves the users and the impersonations alone. -/
theorem ImpersonationWorld.Sound.of_auth {auth : AuthWorld} (h : w.Sound) (htraced : Traced auth)
    (hnumbered : Numbered auth) (husers : auth.users = w.auth.users)
    (hspent : ∀ m ∈ w.impersonations.rows, m.Over auth.clock → Spent auth m auth.clock) :
    ImpersonationWorld.Sound { w with auth := auth } where
  traced := htraced
  numbered := hnumbered
  shadows slug u hu := h.shadows slug u (by rwa [husers] at hu)
  mints := h.mints
  spent := hspent

/-- A step that touches nothing but the caches of the services. -/
theorem ImpersonationWorld.Sound.of_alike {auth : AuthWorld} (h : w.Sound)
    (halike : Alike w.auth auth) (husers : auth.users = w.auth.users) :
    ImpersonationWorld.Sound { w with auth := auth } := by
  refine h.of_auth (h.traced.quiet halike.quiet)
    (h.numbered.of_le halike.created halike.nextId.ge) husers ?_
  intro m hm hover
  rw [halike.clock] at hover ⊢
  refine (h.spent m hm hover).quiet halike.quiet ?_
  intro u hu _ _
  rwa [husers] at hu

theorem ImpersonationWorld.Sound.wait (h : w.Sound) {duration : ℕ}
    (hcareful : Careful w (.wait duration : ImpersonationAction τ)) :
    (w.step cfg maxMinutes J (.wait duration)).Sound := by
  have hle : w.clock ≤ w.clock + duration :=
    Int.le_add_of_nonneg_right (Int.natCast_nonneg duration)
  refine h.of_auth ⟨h.traced.issued, h.traced.rows⟩ ⟨h.numbered.below, h.numbered.distinct⟩ rfl ?_
  intro m hm hover
  show Spent w.auth m (w.clock + duration)
  by_cases hbefore : m.Over w.clock
  · exact (h.spent m hm hbefore).mono hle
  · exact hcareful m hm hbefore hover

theorem ImpersonationWorld.Sound.approve (h : w.Sound) (slug : String) :
    (w.approve maxMinutes slug).Sound where
  traced := h.traced
  numbered := h.numbered
  shadows slug' u hu id himp := by
    obtain ⟨m, hm, hid⟩ := h.shadows slug' u hu id himp
    exact ⟨m, List.mem_append_left _ hm, hid⟩
  mints request mint hmint := by
    obtain ⟨m, hm, hid⟩ := h.mints request mint hmint
    exact ⟨m, List.mem_append_left _ hm, hid⟩
  spent m hm hover := by
    rcases List.mem_append.mp hm with hm | hm
    · exact h.spent m hm hover
    · -- nobody is the shadow user of an impersonation that has just begun
      intro u hu himp
      rw [List.mem_singleton.mp hm] at hu himp
      obtain ⟨m', hm', hid⟩ := h.shadows slug u hu _ himp
      have hfresh := Keyed.lt_fresh hm'
      rw [hid] at hfresh
      exact absurd hfresh (lt_irrefl _)

theorem ImpersonationWorld.Sound.mintCheck (h : w.Sound) (request process id : ℕ) :
    (w.mintCheck request process id).Sound := by
  unfold ImpersonationWorld.mintCheck
  split
  · exact h
  · rename_i m hm
    split_ifs
    · exact h
    · split
      · exact h
      · rename_i kid _
        have halike : Alike w.auth
            { w.auth with keyWorld := (w.auth.keyWorld.fetchKey process .tenant).2 } :=
          ⟨rfl, rfl, rfl, rfl, rfl, rfl⟩
        obtain ⟨htraced, hnumbered, hshadows, hmints, hspent⟩ := h.of_alike halike rfl
        refine ⟨htraced, hnumbered, hshadows, ?_, hspent⟩
        intro request' mint hmint
        rcases update_eq_some hmint with ⟨-, hnew⟩ | ⟨-, hold⟩
        · cases hnew
          exact ⟨m, Keyed.mem_of_get? hm, rfl⟩
        · exact hmints request' mint hold

theorem ImpersonationWorld.Sound.mintTenant (h : w.Sound) {request : ℕ}
    (hcareful : Careful w (.mintTenant request : ImpersonationAction τ)) :
    (w.mintTenant cfg request).Sound := by
  unfold ImpersonationWorld.mintTenant
  split
  · rename_i m kid hmint
    have halike := alike_withShadow w.auth m.slug m.id
    -- the row that the mint was checked against is still there, and by hypothesis not over
    obtain ⟨row, hrow, hrow_id⟩ := h.mints request _ hmint
    have hin_force : ¬ row.Over w.clock :=
      hcareful _ hmint rfl row (by rw [← hrow_id]; exact Keyed.get?_of_mem hrow)
    obtain ⟨hothers, hrows, -⟩ := withShadow_spec w.auth m.slug m.id
    refine ⟨?_, ?_, ?_, ?_, ?_⟩
    · exact (h.traced.quiet halike.quiet).openSession _ _ kid
    · exact (h.numbered.of_le halike.created halike.nextId.ge).openSession _ _ kid
    · intro slug u hu id himp
      change u ∈ ((w.auth.withShadow m.slug m.id).2.users (.tenant slug)).rows at hu
      by_cases hslug : Realm.tenant slug = .tenant m.slug
      · rw [hslug] at hu
        rcases hrows u hu with hu | hu_imp
        · exact h.shadows m.slug u hu id himp
        · rw [hu_imp] at himp
          exact ⟨row, hrow, hrow_id.trans (Option.some.inj himp)⟩
      · rw [hothers _ hslug] at hu
        exact h.shadows slug u hu id himp
    · intro request' mint' hmint'
      rcases update_eq_some hmint' with ⟨-, hnew⟩ | ⟨-, hold⟩
      · cases hnew
        exact ⟨row, hrow, hrow_id⟩
      · exact h.mints request' mint' hold
    · intro m' hm' hover
      have hclock : (w.auth.mintShadow cfg m.slug m.id kid).clock = w.clock := halike.clock
      change m'.Over (w.auth.mintShadow cfg m.slug m.id kid).clock at hover
      show Spent _ m' (w.auth.mintShadow cfg m.slug m.id kid).clock
      rw [hclock] at hover ⊢
      -- the impersonation itself is in force
      have hne : m'.id ≠ m.id := by
        intro heq
        have hsame : m' = row := w.impersonations.eq_of_key hm' hrow (heq.trans hrow_id.symm)
        exact hin_force (hsame ▸ hover)
      exact (h.spent m' hm' hover).mintShadow h.traced h.numbered hne kid
  · exact h

/-- A row of the impersonations is written back. -/
theorem ImpersonationWorld.Sound.put (h : w.Sound) (row : Impersonation)
    (hspent : row.Over w.clock → Spent w.auth row w.clock) {mints : ℕ → Option Mint}
    (hmints : ∀ request mint, mints request = some mint → w.mints request = some mint)
    (closings : ℕ → Option Closing) :
    ImpersonationWorld.Sound ⟨w.auth, w.impersonations.put row, mints, closings⟩ := by
  -- a row that is written back keeps its id, so nothing loses its impersonation
  have hkeeps : ∀ m ∈ w.impersonations.rows,
      ∃ m' ∈ (w.impersonations.put row).rows, m'.id = m.id := by
    intro m hm
    by_cases hm_id : m.id = row.id
    · exact ⟨row, Keyed.mem_put.mpr (.inr ⟨rfl, m, hm, hm_id⟩), hm_id.symm⟩
    · exact ⟨m, Keyed.mem_put.mpr (.inl ⟨hm, hm_id⟩), rfl⟩
  refine ⟨h.traced, h.numbered, ?_, ?_, ?_⟩
  · intro slug u hu id himp
    obtain ⟨m, hm, hm_id⟩ := h.shadows slug u hu id himp
    obtain ⟨m', hm', hm'_id⟩ := hkeeps m hm
    exact ⟨m', hm', hm'_id.trans hm_id⟩
  · intro request mint hmint
    obtain ⟨m, hm, hm_id⟩ := h.mints request mint (hmints request mint hmint)
    obtain ⟨m', hm', hm'_id⟩ := hkeeps m hm
    exact ⟨m', hm', hm'_id.trans hm_id⟩
  · intro m hm hover
    rcases Keyed.mem_put.mp hm with ⟨hm, -⟩ | ⟨rfl, -⟩
    · exact h.spent m hm hover
    · exact hspent hover

theorem ImpersonationWorld.Sound.mintLink (h : w.Sound) (request : ℕ) : (w.mintLink request).Sound := by
  have hmints : ∀ request' mint, Function.update w.mints request none request' = some mint →
      w.mints request' = some mint := by
    intro request' mint hmint
    rcases update_eq_some hmint with ⟨-, hnone⟩ | ⟨-, hold⟩
    · cases hnone
    · exact hold
  have hsame : ImpersonationWorld.Sound
      { w with mints := Function.update w.mints request none } :=
    ⟨h.traced, h.numbered, h.shadows,
      fun request' mint hmint => h.mints request' mint (hmints request' mint hmint), h.spent⟩
  unfold ImpersonationWorld.mintLink
  split
  · split
    · rename_i row hrow
      -- the link changes no column that decides whether the impersonation is over
      split_ifs
      · exact h.put { row with tenantUserId := some _ }
          (fun hover => h.spent row (Keyed.mem_of_get? hrow) hover) hmints _
      · exact hsame
    · exact hsame
  · exact h

theorem ImpersonationWorld.Sound.closeCheck (h : w.Sound) (request : ℕ) (kind : ClosingKind)
    (id : ℕ) : (w.closeCheck request kind id).Sound := by
  unfold ImpersonationWorld.closeCheck
  split
  · exact h
  · split_ifs
    · exact h
    · exact ⟨h.traced, h.numbered, h.shadows, h.mints, h.spent⟩

theorem ImpersonationWorld.Sound.closeTenant (h : w.Sound) (request : ℕ) :
    (w.closeTenant request).Sound := by
  unfold ImpersonationWorld.closeTenant
  split
  · rename_i m kind time _
    have hquiet := deactivateShadow_quiet w.auth m
    have hclock : (w.auth.deactivateShadow m).clock = w.auth.clock := by
      unfold AuthWorld.deactivateShadow
      split
      · rfl
      · show (w.auth.setActive _ _ _).clock = _
        unfold AuthWorld.setActive
        split <;> rfl
    refine ⟨h.traced.quiet hquiet, h.numbered.of_le hquiet.created hquiet.nextId.ge, ?_, h.mints, ?_⟩
    · intro slug u hu id himp
      obtain ⟨u₀, hu₀, himp₀, -⟩ := users_deactivateShadow w.auth m hu
      exact h.shadows slug u₀ hu₀ id (himp₀.trans himp)
    · intro m' hm' hover
      change m'.Over (w.auth.deactivateShadow m).clock at hover
      show Spent _ m' (w.auth.deactivateShadow m).clock
      rw [hclock] at hover ⊢
      refine (h.spent m' hm' hover).quiet hquiet ?_
      -- a user who is still active was not written
      intro u hu _ hactive
      obtain ⟨u₀, hu₀, -, hsame⟩ := users_deactivateShadow w.auth m hu
      rw [hsame hactive]
      exact hu₀
  · exact h

theorem Impersonation.close_id (kind : ClosingKind) (time : Timestamp) (m : Impersonation) :
    (m.close kind time).id = m.id ∧ (m.close kind time).slug = m.slug := by
  unfold close
  cases kind with
  | ended => dsimp only; split_ifs <;> exact ⟨rfl, rfl⟩
  | revoked => dsimp only; split_ifs <;> exact ⟨rfl, rfl⟩

theorem ImpersonationWorld.Sound.closeCommit (h : w.Sound) {request : ℕ}
    (hcareful : Careful w (.closeCommit request : ImpersonationAction τ)) :
    (w.closeCommit request).Sound := by
  unfold ImpersonationWorld.closeCommit
  split
  · rename_i m kind time hclosing
    split
    · rename_i row hrow
      obtain ⟨hid, hslug⟩ := row.close_id kind time
      refine h.put (row.close kind time) ?_ (fun _ _ hmint => hmint) _
      intro _
      have hspent := hcareful _ hclosing rfl row hrow
      unfold Spent
      rw [hid, hslug]
      exact hspent
    · exact ⟨h.traced, h.numbered, h.shadows, h.mints, h.spent⟩
  · exact h

theorem ImpersonationWorld.Sound.refresh (h : w.Sound) (process : ℕ) (slug : String) {bearer : τ}
    (hbearer : Unforged J w.auth bearer) :
    (w.step cfg maxMinutes J (.refresh process slug bearer)).Sound := by
  have hbearers : ∀ b ∈ (AuthAction.refresh process (.tenant slug) bearer).bearer?,
      Unforged J w.auth b := by
    intro b hb
    cases hb
    exact hbearer
  have hclock : (w.auth.refresh cfg J process (.tenant slug) bearer).2.clock = w.auth.clock := by
    rcases w.auth.refresh_cases cfg J process (.tenant slug) bearer with
      halike | ⟨w₀, _, _, _, halike, -, hr⟩
    · exact halike.clock
    · rw [hr]
      exact halike.clock
  refine h.of_auth (h.traced.step hbearers)
    (Numbered.step h.numbered (.refresh process (.tenant slug) bearer))
    (w.auth.users_refresh cfg J process (.tenant slug) bearer) ?_
  intro m hm hover
  change m.Over (w.auth.refresh cfg J process (.tenant slug) bearer).2.clock at hover
  show Spent (w.auth.refresh cfg J process (.tenant slug) bearer).2 m
    (w.auth.refresh cfg J process (.tenant slug) bearer).2.clock
  rw [hclock] at hover ⊢
  exact (h.spent m hm hover).refresh process (.tenant slug) hbearer

theorem ImpersonationWorld.Sound.step (h : w.Sound) {a : ImpersonationAction τ}
    (hbearer : ∀ b ∈ a.bearer?, Unforged J w.auth b) (hcareful : Careful w a) :
    (w.step cfg maxMinutes J a).Sound := by
  cases a with
  | wait duration => exact h.wait hcareful
  | approve slug => exact h.approve slug
  | mintCheck request process id => exact h.mintCheck request process id
  | mintTenant request => exact h.mintTenant hcareful
  | mintLink request => exact h.mintLink request
  | closeCheck request kind id => exact h.closeCheck request kind id
  | closeTenant request => exact h.closeTenant request
  | closeCommit request => exact h.closeCommit hcareful
  | refresh process slug bearer => exact h.refresh process slug (hbearer bearer rfl)
  | authenticate process slug bearer =>
    exact h.of_alike (alike_lookUp J w.auth process bearer) rfl

theorem ImpersonationWorld.sound_start (clock : Timestamp) : (ImpersonationWorld.start clock).Sound where
  traced := traced_start clock
  numbered := numbered_start clock
  shadows _ _ hu := nomatch hu
  mints _ _ hmint := nomatch hmint
  spent _ hm := nomatch hm

end

end SaccoPlatform.Iam
