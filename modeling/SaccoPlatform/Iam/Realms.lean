import Mathlib.Data.Int.Order.Basic
import Mathlib.Tactic.Common

/-!
# Realms

Platform users, the users of a tenant and the members of a tenant log in separately, and their
tokens carry the realm as the `aud` claim.
-/

namespace SaccoPlatform.Iam

/-- Microseconds, as `datetime` counts them. -/
abbrev Timestamp := ℤ

def seconds (n : ℕ) : ℤ := n * 1000000

def minutes (n : ℕ) : ℤ := seconds (n * 60)

/-- Who can log in where. -/
inductive Realm where
  | platform
  | tenant (slug : String)
  | member (slug : String)
deriving DecidableEq, Repr

/-- The tenant of the realm. -/
def Realm.slug? : Realm → Option String
  | platform => none
  | tenant slug => some slug
  | member slug => some slug

/-- The `aud` claim of the tokens. -/
def Realm.audience : Realm → String
  | platform => "platform"
  | tenant slug => "tenant:" ++ slug
  | member slug => "member:" ++ slug

/-- The `actor_type` claim of the access tokens. -/
def Realm.actorType : Realm → String
  | platform => "platform_user"
  | tenant _ => "tenant_user"
  | member _ => "member"

/-! ## The audience names the realm -/

/-- The first letter of the audience. -/
def Realm.initial : Realm → Char
  | platform => 'p'
  | tenant _ => 't'
  | member _ => 'm'

theorem Realm.head_audience (ρ : Realm) : ρ.audience.toList.head? = some ρ.initial := by
  cases ρ with
  | platform => rfl
  | tenant slug =>
    show ("tenant:" ++ slug).toList.head? = _
    rw [String.toList_append]
    rfl
  | member slug =>
    show ("member:" ++ slug).toList.head? = _
    rw [String.toList_append]
    rfl

theorem Realm.audience_inj {ρ ρ' : Realm} (h : ρ.audience = ρ'.audience) : ρ = ρ' := by
  have hinitial : ρ.initial = ρ'.initial := by
    have hhead := congrArg (·.toList.head?) h
    simpa only [Realm.head_audience, Option.some.injEq] using hhead
  -- the three kinds begin differently, and within one kind the slug is what follows
  cases ρ <;> cases ρ' <;> simp_all [Realm.initial, Realm.audience]

end SaccoPlatform.Iam
