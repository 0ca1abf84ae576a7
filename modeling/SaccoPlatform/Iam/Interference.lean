import SaccoPlatform.Iam.Lockout

/-!
# Logins of one tenant beside those of the others

The lockout keys of all tenants and of the platform lie side by side in one Redis, under the email.
A tenant's logins depend on the logins elsewhere exactly through the emails they share.
-/

namespace SaccoPlatform.Iam

open Lib

/-- The request goes to the tenant, as a user or as a member. -/
def LoginRequest.To (slug : String) (r : LoginRequest) : Prop := r.realm.slug? = some slug

instance (slug : String) (r : LoginRequest) : Decidable (r.To slug) :=
  inferInstanceAs (Decidable (_ = _))

/-- The emails that the requests to the tenant carry. -/
def emailsTo (slug : String) (requests : List LoginRequest) : List String :=
  (requests.filter (·.To slug)).map (·.email)

/-- What the callers of the tenant's logins got. -/
def resultsOf (slug : String) (history : List LoginEvent) : List (LoginRequest × LoginResponse) :=
  (history.filter (·.request.To slug)).map fun e => (e.request, e.outcome.response)

/-- A request to another tenant or to the platform carries none of the emails, or it finds the
account locked and writes nothing. -/
def KeepsAway (accounts : Accounts) (slug : String) (emails : List String) (w : LoginWorld)
    (r : LoginRequest) : Prop :=
  ¬ r.To slug → r.email ∈ emails →
    ((accounts r.realm r.email).filter (·.eligible)).isSome ∧
      (w.lockout.isLocked r.time r.email).isSome

instance (accounts : Accounts) (slug : String) (emails : List String) (w : LoginWorld)
    (r : LoginRequest) : Decidable (KeepsAway accounts slug emails w r) :=
  inferInstanceAs (Decidable (¬ _ → _ → _ ∧ _))

/-- The keys of the emails are the same. -/
def AgreeOn (emails : List String) (s s' : Lockout) : Prop :=
  ∀ email ∈ emails, s.attempts email = s'.attempts email ∧ s.locked email = s'.locked email

section

variable {verify : VerifyPassword} {cfg : LockoutSettings} {accounts accounts' : Accounts} {slug : String}
  {emails : List String} {s s' : Lockout} {w w' : LoginWorld} {r : LoginRequest}

theorem AgreeOn.incr (cfg : LockoutSettings) (h : AgreeOn emails s s') (hmem : r.email ∈ emails) :
    (s.incr cfg r.time r.email).1 = (s'.incr cfg r.time r.email).1 ∧
      (s.incr cfg r.time r.email).2 r.email = (s'.incr cfg r.time r.email).2 r.email := by
  unfold Lockout.incr
  rw [(h r.email hmem).1]
  split
  · split <;> simp
  · simp

theorem AgreeOn.recordAttempt (h : AgreeOn emails s s') (hmem : r.email ∈ emails) :
    AgreeOn emails (s.recordAttempt cfg r.time r.email) (s'.recordAttempt cfg r.time r.email) := by
  intro email hemail
  by_cases heq : email = r.email
  · subst heq
    obtain ⟨hcount, hkey⟩ := h.incr cfg hmem
    refine ⟨hkey, ?_⟩
    unfold Lockout.recordAttempt
    dsimp only
    rw [hcount]
    split
    · simp
    · exact (h _ hmem).2
  · obtain ⟨hattempts, hlocked⟩ := recordAttempt_of_ne s cfg r.time heq
    obtain ⟨hattempts', hlocked'⟩ := recordAttempt_of_ne s' cfg r.time heq
    rw [hattempts, hlocked, hattempts', hlocked']
    exact h email hemail

theorem AgreeOn.reset (h : AgreeOn emails s s') :
    AgreeOn emails (s.reset r.email) (s'.reset r.email) := by
  intro email hemail
  by_cases heq : email = r.email
  · subst heq
    simp [Lockout.reset]
  · obtain ⟨hattempts, hlocked⟩ := reset_of_ne s heq
    obtain ⟨hattempts', hlocked'⟩ := reset_of_ne s' heq
    rw [hattempts, hlocked, hattempts', hlocked']
    exact h email hemail

theorem AgreeOn.isLocked (h : AgreeOn emails s s') (hmem : r.email ∈ emails) :
    s.isLocked r.time r.email = s'.isLocked r.time r.email := by
  unfold Lockout.isLocked
  rw [(h r.email hmem).2]

/-- The same login ends in the same way where the keys of its email are the same. -/
theorem AgreeOn.login (h : AgreeOn emails s s') (hmem : r.email ∈ emails)
    (haccounts : accounts r.realm = accounts' r.realm) :
    (login verify cfg accounts s r).1 = (login verify cfg accounts' s' r).1 ∧
      AgreeOn emails (login verify cfg accounts s r).2 (login verify cfg accounts' s' r).2 := by
  unfold Iam.login
  rw [haccounts, h.isLocked hmem]
  split
  · exact ⟨rfl, h.recordAttempt hmem⟩
  · split
    · exact ⟨rfl, h⟩
    · split
      · exact ⟨rfl, h.reset⟩
      · exact ⟨rfl, h.recordAttempt hmem⟩

/-- A request elsewhere that keeps away leaves the keys of the emails. -/
theorem KeepsAway.agreeOn (h : KeepsAway accounts slug emails w r) (hto : ¬ r.To slug) :
    AgreeOn emails (w.step verify cfg accounts r).lockout w.lockout := by
  intro email hemail
  by_cases heq : email = r.email
  · subst heq
    obtain ⟨hsome, hlocked⟩ := h hto hemail
    obtain ⟨account, haccount⟩ := Option.isSome_iff_exists.mp hsome
    obtain ⟨retryAfter, hretry⟩ := Option.isSome_iff_exists.mp hlocked
    have hrefused : Iam.login verify cfg accounts w.lockout r = (.locked retryAfter, w.lockout) := by
      unfold Iam.login
      rw [haccount, hretry]
    show (Iam.login verify cfg accounts w.lockout r).2.attempts _ = _ ∧
      (Iam.login verify cfg accounts w.lockout r).2.locked _ = _
    rw [hrefused]
    exact ⟨rfl, rfl⟩
  · exact login_of_ne verify cfg accounts w.lockout heq

theorem resultsOf_append_of_to {history : List LoginEvent} {e : LoginEvent}
    (h : e.request.To slug) :
    resultsOf slug (history ++ [e]) = resultsOf slug history ++ [(e.request, e.outcome.response)] := by
  simp [resultsOf, List.filter_append, h]

theorem resultsOf_append_of_not {history : List LoginEvent} {e : LoginEvent}
    (h : ¬ e.request.To slug) : resultsOf slug (history ++ [e]) = resultsOf slug history := by
  simp [resultsOf, List.filter_append, h]

/-- The logins of the tenant end as if they were the only ones. -/
theorem resultsOf_run_filter {requests : List LoginRequest}
    (haccounts : ∀ realm : Realm, realm.slug? = some slug → accounts realm = accounts' realm)
    (hemails : ∀ r ∈ requests, r.To slug → r.email ∈ emails)
    (hok : Along (LoginWorld.step verify cfg accounts) (KeepsAway accounts slug emails) w requests)
    (hagree : AgreeOn emails w.lockout w'.lockout)
    (hresults : resultsOf slug w.history = resultsOf slug w'.history) :
    resultsOf slug (run (LoginWorld.step verify cfg accounts) w requests).history
      = resultsOf slug (run (LoginWorld.step verify cfg accounts') w'
          (requests.filter (·.To slug))).history := by
  induction requests generalizing w w' with
  | nil => exact hresults
  | cons r requests ih =>
    have hemails' : ∀ r' ∈ requests, r'.To slug → r'.email ∈ emails :=
      fun r' hr' => hemails r' (List.mem_cons_of_mem _ hr')
    by_cases hto : r.To slug
    · obtain ⟨houtcome, hstores⟩ :=
        hagree.login (hemails r List.mem_cons_self hto) (haccounts r.realm hto)
      rw [List.filter_cons, if_pos (by simpa using hto), run_cons, run_cons]
      refine ih hemails' hok.2 hstores ?_
      show resultsOf slug (w.history ++ [_]) = resultsOf slug (w'.history ++ [_])
      rw [resultsOf_append_of_to hto, resultsOf_append_of_to hto, hresults, houtcome]
    · rw [List.filter_cons, if_neg (by simpa using hto), run_cons]
      refine ih hemails' hok.2 ?_ ?_
      · intro email hemail
        obtain ⟨hattempts, hlocked⟩ := hok.1.agreeOn hto email hemail
        rw [hattempts, hlocked]
        exact hagree email hemail
      · show resultsOf slug (w.history ++ [_]) = _
        rw [resultsOf_append_of_not hto]
        exact hresults

end

/-- Two runs with the same requests to a tenant and the same accounts there give its callers the same
answers, as long as the other requests keep away from the emails of these requests. -/
theorem logins_isolated (verify : VerifyPassword) (cfg : LockoutSettings) (slug : String)
    (s : Lockout) {accounts accounts' : Accounts} {requests requests' : List LoginRequest}
    (haccounts : ∀ realm : Realm, realm.slug? = some slug → accounts realm = accounts' realm)
    (hsame : requests.filter (·.To slug) = requests'.filter (·.To slug))
    (hok : Along (LoginWorld.step verify cfg accounts)
      (KeepsAway accounts slug (emailsTo slug requests)) ⟨s, []⟩ requests)
    (hok' : Along (LoginWorld.step verify cfg accounts')
      (KeepsAway accounts' slug (emailsTo slug requests')) ⟨s, []⟩ requests') :
    resultsOf slug (run (LoginWorld.step verify cfg accounts) ⟨s, []⟩ requests).history
      = resultsOf slug (run (LoginWorld.step verify cfg accounts') ⟨s, []⟩ requests').history := by
  have hemails : ∀ requests : List LoginRequest, ∀ r ∈ requests, r.To slug →
      r.email ∈ emailsTo slug requests := by
    intro requests r hr hto
    exact List.mem_map_of_mem (List.mem_filter.mpr ⟨hr, by simpa using hto⟩)
  -- both runs are compared with the one that has the requests to the tenant only
  have hsolo : resultsOf slug (run (LoginWorld.step verify cfg accounts) ⟨s, []⟩ requests).history
      = resultsOf slug (run (LoginWorld.step verify cfg accounts') ⟨s, []⟩
          (requests.filter (·.To slug))).history :=
    resultsOf_run_filter haccounts (hemails requests) hok (fun _ _ => ⟨rfl, rfl⟩) rfl
  have hsolo' := resultsOf_run_filter (fun _ _ => rfl) (hemails requests') hok'
    (fun _ _ => ⟨rfl, rfl⟩) rfl
  rw [hsolo, hsolo', hsame]

/-- A wrong password at the tenant `baraka`. -/
def guessElsewhere (second : ℕ) (email : String) : LoginRequest :=
  ⟨seconds second, .tenant "baraka", email, "123456"⟩

/-- A stranger's failures elsewhere change nothing for the user. -/
theorem logins_isolated_stranger :
    resultsOf "umoja" (run (LoginWorld.step sampleVerify defaultLockout sampleAccounts) ⟨noAttempts, []⟩
      ((List.range 6).map (guessElsewhere · "eve@example.org") ++
        [guess 60 "correct horse"])).history
      = resultsOf "umoja" (run (LoginWorld.step sampleVerify defaultLockout sampleAccounts) ⟨noAttempts, []⟩
        [guess 60 "correct horse"]).history :=
  logins_isolated sampleVerify defaultLockout "umoja" noAttempts (fun _ _ => rfl) (by decide +kernel)
    (by decide +kernel) (by decide +kernel)

/-- Five failures under the user's email at another tenant lock the user out of this one. -/
theorem logins_interfere :
    ((List.range 5).map (guessElsewhere · "ada@example.org") ++ [guess 60 "correct horse"]).filter
        (·.To "umoja") = [guess 60 "correct horse"].filter (·.To "umoja") ∧
    resultsOf "umoja" (run (LoginWorld.step sampleVerify defaultLockout sampleAccounts) ⟨noAttempts, []⟩
      [guess 60 "correct horse"]).history = [(guess 60 "correct horse", .tokens)] ∧
    resultsOf "umoja" (run (LoginWorld.step sampleVerify defaultLockout sampleAccounts) ⟨noAttempts, []⟩
      ((List.range 5).map (guessElsewhere · "ada@example.org") ++
        [guess 60 "correct horse"])).history
      = [(guess 60 "correct horse", .accountLocked 1744)] ∧
    resultsOf "umoja" (run (LoginWorld.step sampleVerify defaultLockout sampleAccounts) ⟨noAttempts, []⟩
      [guess 60 "correct horse"]).history
      ≠ resultsOf "umoja" (run (LoginWorld.step sampleVerify defaultLockout sampleAccounts) ⟨noAttempts, []⟩
        ((List.range 5).map (guessElsewhere · "ada@example.org") ++
          [guess 60 "correct horse"])).history := by
  decide +kernel

end SaccoPlatform.Iam
