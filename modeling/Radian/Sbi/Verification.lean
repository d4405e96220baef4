import Radian.Nrf.Registry
import Radian.Proc.Loop

/-!
# Verification while keys change

A protected network function verifies tokens with the NRF's public keys.  It keeps what it fetched, and
fetches again when a signature is bad; other requests do the same on the same cache meanwhile, and the
NRF may come back with another key.

- `jwks`, `verify`, `requireTokenAt` — the check of a request, which awaits the NRF.
- `verify_alone` — without interference it is `TokenVerifier.verify`.
- `minted_answered` — a token minted with the key the NRF has is never refused for the sake of a cache,
  whatever that holds and whatever others do to it.
-/

namespace Radian.Nrf

/-- The public keys the NRF publishes. -/
def NrfStore.jwks {SigningKey VerifyingKey : Type} (J : Sbi.Jose SigningKey VerifyingKey)
    (s : NrfStore SigningKey) : List Sbi.Jwk :=
  match s.signingKey with
  | some key => key.jwks J
  | none => []

end Radian.Nrf

namespace Radian.Sbi

open Nrf (NrfStore)

/-- What a network function verifies tokens with: the shared secret, or the keys of the NRF. -/
inductive KeySource where
  | secret (secret : List UInt8)
  | nrf

/-- A protected network function. -/
structure Guard where
  nfType : String
  keys : KeySource

/-- The NRF, and the keys each network function has cached. -/
structure Mesh (Nf SigningKey : Type) where
  nrf : Nrf.World SigningKey
  cache : Nf → Option (List Jwk)

/-- A request to the NRF travels, and its answer comes back; each arrives or does not. -/
inductive Hop where
  | request
  | response

/-- What happens, as far as anybody speaks of it afterwards. -/
inductive Deed (Nf SigningKey : Type) where
  /-- The NRF starts with these settings. -/
  | opened (store : NrfStore SigningKey)
  /-- In this state the NRF answers a request with a token. -/
  | issued (nrf : Nrf.World SigningKey) (e : Nrf.Event) (rsp : AccessTokenRsp)
  /-- A network function checks the signature of a token. -/
  | checked (nf : Nf) (token : List Char)
  | admitted (nf : Nf) (req : HttpRequest) (now : Nat)

abbrev Task (Nf SigningKey : Type) :=
  Proc Unit (Mesh Nf SigningKey) (Deed Nf SigningKey) Hop fun _ => Bool

section Model

variable {Nf SigningKey VerifyingKey : Type} [DecidableEq Nf] (J : Jose SigningKey VerifyingKey)

/-- The cached keys, or the NRF's when there are none or `force` is set. -/
def jwks (nf : Nf) (force : Bool) : Task Nf SigningKey (Option (List Jwk)) := do
  let cached ← Proc.look fun _ m => m.cache nf
  match if force then none else cached with
  | some keys => pure (some keys)
  | none =>
    let reached ← Proc.ask Hop.request
    if reached then
      let keys ← Proc.look fun _ m => m.nrf.store.jwks J
      let answered ← Proc.ask Hop.response
      if answered then
        Proc.change fun m => { m with cache := Function.update m.cache nf (some keys) }
        pure (some keys)
      else pure none
    else pure none

def verify (guard : Guard) (nf : Nf) (token : List Char) (now : Nat) :
    Task Nf SigningKey (Except TokenError AccessTokenClaims) :=
  match guard.keys with
  | .secret secret => do
    Proc.mark (.checked nf token)
    pure (validate J secret token guard.nfType now)
  | .nrf => do
    let known ← jwks J nf false
    match known with
    | none => pure (.error .badSignature)
    | some keys =>
      Proc.mark (.checked nf token)
      match validateEs256 J token guard.nfType keys now with
      -- the NRF may have changed its key
      | .error .badSignature =>
        let fresh ← jwks J nf true
        match fresh with
        | none => pure (.error .badSignature)
        | some keys =>
          Proc.mark (.checked nf token)
          pure (validateEs256 J token guard.nfType keys now)
      | other => pure other

/-- The check of a request. -/
def requireTokenAt (guard : Guard) (nf : Nf) (req : HttpRequest) (now : Nat) :
    Task Nf SigningKey Checked :=
  match req.authorization.bind stripBearer with
  | none => pure (.unauthorized "missing Bearer access token")
  | some bearer => do
    let verified ← verify J guard nf bearer now
    pure (authorize req verified)

/-- The verifier that sees these keys in the cache and gets these when it asks. -/
def Guard.verifier (guard : Guard) (cached served : Option (List Jwk)) : TokenVerifier :=
  match guard.keys with
  | .secret secret => .shared secret
  | .nrf => .jwks cached served

/-- Requests and answers arrive, or none does. -/
def answering (up : Bool) :
    Outside Unit (Mesh Nf SigningKey) (Deed Nf SigningKey) Hop (fun _ => Bool)
      (List (Deed Nf SigningKey)) where
  answers _ _ r := r == up
  effect _ _ w := w
  mark n _ _ w := n :: w

end Model

section Results

variable {Nf SigningKey VerifyingKey : Type} [DecidableEq Nf] {J : Jose SigningKey VerifyingKey}
  {allow : Deed Nf SigningKey → Unit → Mesh Nf SigningKey → List (Deed Nf SigningKey) → Prop}
  {guard : Guard} {nf : Nf} {m : Mesh Nf SigningKey} {w : List (Deed Nf SigningKey)}

theorem checkClaims_ne_badSignature (claims : AccessTokenClaims) (aud : String) (now : Nat) :
    checkClaims claims aud now ≠ .error .badSignature := by
  rw [checkClaims]
  split
  · simp
  · split <;> simp

/-! ### Without interference -/

theorem before_jwks (up force : Bool) {Q : Option (List Jwk) → Unit → Mesh Nf SigningKey →
      List (Deed Nf SigningKey) → Prop}
    (h : ∀ m', m'.nrf = m.nrf → Q ((if force then none else m.cache nf).or
      (if up then some (m.nrf.store.jwks J) else none)) () m' w) :
    Proc.before (answering up) allow (jwks J nf force) Q () m w := by
  rw [jwks, Proc.before, Proc.wp_bind, Proc.wp_look]
  cases hcached : if force then none else m.cache nf with
  | some keys =>
    rw [hcached] at h
    exact h m rfl
  | none =>
    rw [hcached] at h
    simp only [Proc.wp_bind, Proc.wp_ask, Proc.sequentially_call]
    intro reached hreached
    obtain rfl : reached = up := eq_of_beq hreached
    cases reached with
    | false => exact h m rfl
    | true =>
      simp only [if_true, Proc.wp_bind, Proc.wp_look, Proc.wp_ask, Proc.sequentially_call]
      intro answered hanswered
      obtain rfl : answered = true := eq_of_beq hanswered
      exact h _ rfl

/-- **Verification without interference** is what `TokenVerifier.verify` makes of the cache and of the
keys the NRF has. -/
theorem verify_alone (up : Bool) (token : List Char) (now : Nat) :
    Proc.before (answering up) allow (verify J guard nf token now) (fun r _ _ _ =>
      r = (guard.verifier (m.cache nf) (if up then some (m.nrf.store.jwks J) else none)).verify J token
        guard.nfType now) () m w := by
  rw [verify, Guard.verifier]
  cases guard.keys with
  | secret secret => exact fun _ => rfl
  | nrf =>
    rw [Proc.before]
    simp only [Proc.wp_bind]
    apply before_jwks up false
    intro m₁ hm₁
    simp only [if_neg Bool.false_ne_true, TokenVerifier.verify]
    cases (m.cache nf).or (if up = true then some (m.nrf.store.jwks J) else none) with
    | none => rfl
    | some keys =>
      simp only [Proc.wp_bind, Proc.wp_mark, Proc.sequentially_note]
      intro _
      cases validateEs256 J token guard.nfType keys now with
      | ok claims => rfl
      | error e =>
        cases e with
        | badSignature =>
          dsimp only
          rw [Proc.wp_bind]
          apply before_jwks up true
          intro m₂ hm₂
          rw [if_pos rfl, Option.none_or, hm₁]
          cases up with
          | false => rfl
          | true => exact fun _ => rfl
        | malformed | expired | wrongAudience => rfl

/-! ### Amid others -/

/-- What others may do while the NRF keeps its key: use every cache as they like, and the NRF. -/
def KeepsKey (m m' : Mesh Nf SigningKey) : Prop :=
  m'.nrf.store.signingKey = m.nrf.store.signingKey

variable {key : Es256Key SigningKey}

theorem during_jwks (force : Bool) (hkey : m.nrf.store.signingKey = some key)
    {Q : Option (List Jwk) → Unit → Mesh Nf SigningKey → List (Deed Nf SigningKey) → Prop}
    (h : ∀ keys m', m'.nrf.store.signingKey = some key → (force = true → keys = key.jwks J) →
      Q (some keys) () m' w) :
    Proc.during (answering true) allow KeepsKey (jwks J nf force) Q () m w := by
  rw [jwks, Proc.during, Proc.wp_bind, Proc.wp_look]
  cases hcached : if force then none else m.cache nf with
  | some keys =>
    apply h keys m hkey
    intro hforce
    rw [if_pos hforce] at hcached
    cases hcached
  | none =>
    simp only [Proc.wp_bind, Proc.wp_ask, Proc.interrupted_call]
    intro reached m₁ hreached h₁
    obtain rfl : reached = true := eq_of_beq hreached
    simp only [if_true, Proc.wp_bind, Proc.wp_look, Proc.wp_ask, Proc.interrupted_call]
    intro answered m₂ hanswered h₂
    obtain rfl : answered = true := eq_of_beq hanswered
    have hkey₁ : m₁.nrf.store.signingKey = some key := h₁.trans hkey
    have hserved : m₁.nrf.store.jwks J = key.jwks J := by rw [NrfStore.jwks, hkey₁]
    rw [hserved]
    exact h _ _ (h₂.trans hkey₁) fun _ => rfl

theorem during_verify (hJ : J.Lawful) (hkeys : guard.keys = .nrf)
    (hkey : m.nrf.store.signingKey = some key) (claims : AccessTokenClaims) (now : Nat) :
    Proc.during (answering true) allow KeepsKey (verify J guard nf (mintEs256 J key claims) now)
      (fun r _ _ _ => r = checkClaims claims guard.nfType now) () m w := by
  rw [verify, hkeys, Proc.during]
  simp only [Proc.wp_bind]
  apply during_jwks false hkey
  intro keys m₁ hkey₁ _
  simp only [Proc.wp_bind, Proc.wp_mark, Proc.interrupted_note]
  intro _
  obtain hbad | hgood := validateEs256_mint_any hJ key claims guard.nfType keys now
  · rw [hbad]
    dsimp only
    rw [Proc.wp_bind]
    apply during_jwks true hkey₁
    intro fresh m₂ hkey₂ hfresh
    rw [hfresh rfl]
    exact fun _ => validateEs256_mint hJ key claims guard.nfType now
  · rw [hgood]
    cases hchecked : checkClaims claims guard.nfType now with
    | ok claims' => rfl
    | error e =>
      cases e with
      | badSignature => exact absurd hchecked (checkClaims_ne_badSignature claims guard.nfType now)
      | malformed | expired | wrongAudience => rfl

/-- **A minted token is never refused for the sake of a cache.** While the NRF keeps its key and is
reached, the answer to a request with a token it minted depends on what the token claims only, whatever
keys the cache held and whatever others fetch meanwhile. -/
theorem minted_answered (hJ : J.Lawful) (hkeys : guard.keys = .nrf)
    (hkey : m.nrf.store.signingKey = some key) {req : HttpRequest} {claims : AccessTokenClaims}
    (hbearer : req.authorization = some (bearerAuth (mintEs256 J key claims))) {now : Nat} {r : Checked}
    {m' : Mesh Nf SigningKey} {w' : List (Deed Nf SigningKey)}
    (hrun : Proc.Amid (answering true) allow KeepsKey (requireTokenAt J guard nf req now) () m w r () m' w') :
    r = authorize req (checkClaims claims guard.nfType now) := by
  have hduring : Proc.during (answering true) allow KeepsKey (requireTokenAt J guard nf req now)
      (fun r _ _ _ => r = authorize req (checkClaims claims guard.nfType now)) () m w := by
    rw [requireTokenAt, hbearer, Option.bind_some, stripBearer_bearerAuth]
    dsimp only
    rw [Proc.during, Proc.wp_bind]
    apply Proc.during_mono _ (during_verify hJ hkeys hkey claims now)
    rintro r l m₁ w₁ rfl
    rfl
  exact hrun.sound hduring

end Results

/-! ### An example

The UDR has the keys of the NRF that ran before. -/

def sampleMesh : Mesh Unit SampleKey where
  nrf := { store := { signingKey := some sampleKey } }
  cache _ := some (Es256Key.jwks sampleJose { signing := .former, kid := "617e37f7a48d30a6" })

def udrGuard : Guard := { nfType := "UDR", keys := .nrf }

def udrRequest : HttpRequest where
  authorization := some (bearerAuth (mintEs256 sampleJose sampleKey udrClaims))
  path := "/nudr-dr/v1".toList
  clientCert := some "cert-udm"

theorem minted_answered_sample :
    ∃ r m' w', Proc.Amid (answering true) (fun _ _ _ _ => True) KeepsKey
      (requireTokenAt sampleJose udrGuard () udrRequest 1000) () sampleMesh [] r () m' w' ∧ r = .next := by
  have hyes : ∀ (e : Hop) (w : List (Deed Unit SampleKey)), (answering true).answers e w true = true :=
    fun _ _ => rfl
  have hstays : ∀ m : Mesh Unit SampleKey, KeepsKey m m := fun _ => rfl
  obtain ⟨r, _, m', w', hrun⟩ := Proc.exists_amid hyes hstays
    (requireTokenAt sampleJose udrGuard () udrRequest 1000) () sampleMesh []
  refine ⟨r, m', w', hrun, ?_⟩
  rw [minted_answered sampleJose_lawful rfl rfl rfl hrun]
  decide

end Radian.Sbi
