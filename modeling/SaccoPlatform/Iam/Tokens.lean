import SaccoPlatform.Iam.Realms

/-!
# Tokens

`app/modules/iam/tokens/service.py`. A private key and its public key go by the number of the row
that holds them. PyJWT is a parameter, with what its documentation says of a token that it has
encoded: the header comes back as it was, and the claims come back under the key that signed them,
for the audience they name, from `iat` on and before `exp`.
-/

namespace SaccoPlatform.Iam

/-- The claims of a token, with `iat` and `exp` in whole seconds. `none` stands for a claim that is
missing or is no UUID. -/
structure Claims where
  sub : Option ℕ
  aud : String
  iat : ℤ
  exp : ℤ
  jti : Option ℕ
  actorType : Option String
  sessionId : Option ℕ
deriving DecidableEq, Repr

/-- The claims are valid for the audience at the moment. -/
def Claims.ValidFor (c : Claims) (audience : String) (now : Timestamp) : Prop :=
  c.aud = audience ∧ c.iat * 1000000 ≤ now ∧ now < c.exp * 1000000

instance (c : Claims) (audience : String) (now : Timestamp) : Decidable (c.ValidFor audience now) :=
  inferInstanceAs (Decidable (_ ∧ _ ∧ _))

/-- PyJWT over tokens of the type `τ`. -/
structure Pyjwt (τ : Type) where
  encode : Claims → (key kid : ℕ) → τ
  unverifiedKid : τ → Option ℕ
  decode : τ → (key : ℕ) → (audience : String) → (now : Timestamp) → Option Claims
  unverifiedKid_encode : ∀ c key kid, unverifiedKid (encode c key kid) = some kid
  decode_encode : ∀ c key kid key' audience now,
    decode (encode c key kid) key' audience now =
      if key' = key ∧ c.ValidFor audience now then some c else none

/-- `encode_access_token`, up to the signature. -/
def encodeAccessToken (now : Timestamp) (sub : ℕ) (audience : String) (sessionId : ℕ)
    (actorType : String) (jti ttlSeconds : ℕ) : Claims where
  sub := some sub
  aud := audience
  iat := now / 1000000
  exp := (now + seconds ttlSeconds) / 1000000
  jti := some jti
  actorType := some actorType
  sessionId := some sessionId

/-- `encode_refresh_token`, up to the signature. -/
def encodeRefreshToken (now : Timestamp) (sub : ℕ) (audience : String) (sessionId jti : ℕ)
    (ttlSeconds : ℕ) : Claims where
  sub := some sub
  aud := audience
  iat := now / 1000000
  exp := (now + seconds ttlSeconds) / 1000000
  jti := some jti
  actorType := none
  sessionId := some sessionId

/-- `jwt_access_ttl_seconds` and the three `jwt_refresh_ttl_*_seconds`. -/
structure TokenSettings where
  accessTtl : ℕ
  refreshTtlPlatform : ℕ
  refreshTtlTenant : ℕ
  refreshTtlMember : ℕ

/-- The defaults of `config.py`. -/
def defaultTokens : TokenSettings := ⟨900, 3600, 28800, 28800⟩

/-- What a token is asked for. The draw of the `jti` of an access token is an argument. -/
inductive Payload where
  | access (sub : ℕ) (audience : String) (sessionId : ℕ) (actorType : String) (jti : ℕ)
  | refresh (sub : ℕ) (audience : String) (sessionId jti ttlSeconds : ℕ)
deriving DecidableEq, Repr

inductive TokenKind where
  | access
  | refresh
deriving DecidableEq, Repr

def Payload.kind : Payload → TokenKind
  | access .. => .access
  | refresh .. => .refresh

def Payload.claims (cfg : TokenSettings) (now : Timestamp) : Payload → Claims
  | access sub audience sessionId actorType jti =>
    encodeAccessToken now sub audience sessionId actorType jti cfg.accessTtl
  | refresh sub audience sessionId jti ttlSeconds =>
    encodeRefreshToken now sub audience sessionId jti ttlSeconds

/-- A token that was issued: by which of the two functions, with which claims, when, and under which
key. -/
structure Issued where
  kind : TokenKind
  claims : Claims
  time : Timestamp
  key : ℕ
deriving DecidableEq, Repr

/-- What the caller got. The header names the key. -/
def Issued.token {τ : Type} (J : Pyjwt τ) (i : Issued) : τ := J.encode i.claims i.key i.key

theorem unverifiedKid_token {τ : Type} (J : Pyjwt τ) (i : Issued) :
    J.unverifiedKid (i.token J) = some i.key := J.unverifiedKid_encode ..

theorem decode_token {τ : Type} (J : Pyjwt τ) (i : Issued) (key : ℕ) (audience : String)
    (now : Timestamp) :
    J.decode (i.token J) key audience now =
      if key = i.key ∧ i.claims.ValidFor audience now then some i.claims else none :=
  J.decode_encode ..

/-- A token as a symbol: nothing but its header, its claims and the key that signed it. -/
structure SignedToken where
  claims : Claims
  key : ℕ
  kid : ℕ
deriving DecidableEq, Repr

/-- PyJWT over symbols. -/
def Pyjwt.symbolic : Pyjwt SignedToken where
  encode claims key kid := ⟨claims, key, kid⟩
  unverifiedKid t := some t.kid
  decode t key audience now :=
    if key = t.key ∧ t.claims.ValidFor audience now then some t.claims else none
  unverifiedKid_encode _ _ _ := rfl
  decode_encode _ _ _ _ _ _ := rfl

end SaccoPlatform.Iam
