import Radian.Keyed.Basic
import Radian.Runs.Basic
import Radian.Sbi.OAuth

/-!
# Cached access tokens

A network function's token source, shared by everything it calls, and what its tokens are good for.

- `TokenSource.tokenFor` — the cached token of the target, or a new one from the NRF.
- `Client.step` — a call on a shared source, with the NRF at the other end.
- `Kept` — every cached token was issued for its target and expires no earlier than noted.
- `authorizes_iff` — the tokens authorize the calls they are fetched for exactly as long as no call
  finds a token of its target that was issued for another scope.
-/

namespace Radian.Sbi

open Keyed (Map)

structure TokenSource where
  clientId : String
  /-- The token of a target, and when it expires. -/
  cache : Map String (List Char × Nat) := ∅

namespace TokenSource

/-- The cached token, unless it is about to expire. -/
def cached (s : TokenSource) (targetNfType : String) (now : Nat) : Option (List Char) :=
  match s.cache.lookup targetNfType with
  | some (tok, exp) => if now + 30 < exp then some tok else none
  | none => none

/-- The request for a new token. -/
def request (s : TokenSource) (targetNfType scope : String) : AccessTokenReq :=
  { grantType := "client_credentials", nfInstanceId := s.clientId, targetNfType, scope }

/-- A token for a target; `post` is the request to the NRF. -/
def tokenFor (s : TokenSource) (targetNfType scope : String) (now : Nat)
    (post : AccessTokenReq → Option AccessTokenRsp) : Option (List Char) × TokenSource :=
  match s.cached targetNfType now with
  | some tok => (some tok, s)
  | none =>
      match post (s.request targetNfType scope) with
      | none => (none, s)
      | some rsp =>
          (some rsp.accessToken,
            { s with cache := s.cache.insert targetNfType (rsp.accessToken, now + rsp.expiresIn) })

end TokenSource

/-- A call of `token_for` at time `now`.  The NRF, if it is asked and answers, does so `latency` seconds
later. -/
structure Call where
  target : String
  scope : String
  now : Nat
  latency : Nat
  answers : Bool

/-- A token source, and for each target the claims the NRF last issued to it. -/
structure Client where
  source : TokenSource
  granted : String → Option AccessTokenClaims := fun _ => none

namespace Client

section Machine

variable {SigningKey VerifyingKey : Type} (J : Jose SigningKey VerifyingKey)
  (signer : Signer SigningKey) (cert : Option String)

def start (clientId : String) : Client := { source := { clientId } }

/-- The NRF's answer to a client that shows `cert`. -/
def post (call : Call) (req : AccessTokenReq) : Option AccessTokenRsp :=
  if call.answers then some (issueToken J signer "radian-nrf" req cert (call.now + call.latency))
  else none

/-- The claims the NRF issues on a call: none when the cache serves it. -/
def issued (c : Client) (call : Call) : Option AccessTokenClaims :=
  if (c.source.cached call.target call.now).isNone ∧ call.answers = true then
    some (tokenClaims "radian-nrf" (c.source.request call.target call.scope) cert
      (call.now + call.latency))
  else none

def answer (c : Client) (call : Call) : Option (List Char) × TokenSource :=
  c.source.tokenFor call.target call.scope call.now (post J signer cert call)

def step (c : Client) (call : Call) : Client :=
  { source := (c.answer J signer cert call).2
    granted := match c.issued cert call with
      | some claims => Function.update c.granted call.target (some claims)
      | none => c.granted }

/-- What a token for a call has to be. -/
structure Authorizes (c : Client) (call : Call) (tok : List Char) (claims : AccessTokenClaims) :
    Prop where
  token : tok = signer.mint J claims
  aud : claims.aud = call.target
  scope : ∀ service ∈ Text.splitWhitespace call.scope.toList, covers claims.scope service = true
  valid : c.issued cert call = some claims ∨ call.now + 30 < claims.exp
  /-- It passes at every producer of the target that trusts the NRF, at each service of the scope. -/
  passes : ∀ (cfg : AuthConfig) (req : HttpRequest) (now : Nat), Trusts J cfg.verifier signer →
    Text.eqIgnoreAsciiCase call.target.toList cfg.nfType.toList = true →
    req.authorization = some (bearerAuth tok) → req.clientCert = cert →
    covers call.scope req.service = true → now < claims.exp → requireToken J cfg req now = .next

/-- Whatever token a call returns authorizes it. -/
def Good (c : Client) (call : Call) : Prop :=
  ∀ tok, (c.answer J signer cert call).1 = some tok → ∃ claims, c.Authorizes J signer cert call tok claims

/-- A call that is served from the cache finds a token whose scope contains its own. -/
def Heeds (c : Client) (call : Call) : Prop :=
  (c.source.cached call.target call.now).isSome = true →
    ∀ claims ∈ c.granted call.target, ∀ service ∈ Text.splitWhitespace call.scope.toList,
      covers claims.scope service = true

instance (c : Client) (call : Call) : Decidable (c.Heeds call) := by
  unfold Heeds
  infer_instance

end Machine

variable {SigningKey VerifyingKey : Type} {J : Jose SigningKey VerifyingKey}
  {signer : Signer SigningKey} {cert : Option String} {c : Client}

/-- A token is good for every service its scope covers whatever the case of the letters. -/
theorem covers_trans {scope asked : String} {service : List Char}
    (hcontains : ∀ word ∈ Text.splitWhitespace asked.toList, covers scope word = true)
    (hservice : covers asked service = true) : covers scope service = true := by
  obtain ⟨word, hword, hsame⟩ := List.any_eq_true.mp hservice
  obtain ⟨granted, hgranted, hsame'⟩ := List.any_eq_true.mp (hcontains word hword)
  refine List.any_eq_true.mpr ⟨granted, hgranted, ?_⟩
  rw [Text.eqIgnoreAsciiCase, beq_iff_eq] at hsame hsame' ⊢
  exact hsame'.trans hsame

theorem covers_self (scope : String) :
    ∀ word ∈ Text.splitWhitespace scope.toList, covers scope word = true := by
  intro word hword
  exact List.any_eq_true.mpr ⟨word, hword, by simp [Text.eqIgnoreAsciiCase]⟩

/-- What a call does: it is served from the cache, the NRF does not answer, or a token is issued. -/
theorem step_cases (J : Jose SigningKey VerifyingKey) (signer : Signer SigningKey)
    (cert : Option String) (c : Client) (call : Call) :
    (∃ tok exp, c.source.cache.lookup call.target = some (tok, exp) ∧ call.now + 30 < exp ∧
      c.source.cached call.target call.now = some tok ∧ c.issued cert call = none ∧
      (c.answer J signer cert call).1 = some tok ∧ c.step J signer cert call = c) ∨
    (c.source.cached call.target call.now = none ∧ (c.answer J signer cert call).1 = none ∧
      c.step J signer cert call = c) ∨
    ∃ claims, claims = tokenClaims "radian-nrf" (c.source.request call.target call.scope) cert
        (call.now + call.latency) ∧
      c.source.cached call.target call.now = none ∧ c.issued cert call = some claims ∧
      (c.answer J signer cert call).1 = some (signer.mint J claims) ∧
      (c.step J signer cert call).source.cache = c.source.cache.insert call.target
        (signer.mint J claims, call.now + tokenTtlSecs) ∧
      (c.step J signer cert call).granted =
        Function.update c.granted call.target (some claims) := by
  cases hcached : c.source.cached call.target call.now with
  | some tok =>
    refine .inl ?_
    have hissued : c.issued cert call = none := by simp [issued, hcached]
    have hanswer : c.answer J signer cert call = (some tok, c.source) := by
      simp [answer, TokenSource.tokenFor, hcached]
    rw [TokenSource.cached] at hcached
    split at hcached
    next tok' exp hlookup =>
        split at hcached
        next hlive =>
            cases hcached
            exact ⟨tok, exp, hlookup, hlive, rfl, hissued, by rw [hanswer],
              by rw [step, hissued, hanswer]⟩
        next => cases hcached
    next => cases hcached
  | none =>
    refine .inr ?_
    cases hanswers : call.answers with
    | false =>
      left
      have hissued : c.issued cert call = none := by simp [issued, hanswers]
      have hanswer : c.answer J signer cert call = (none, c.source) := by
        simp [answer, TokenSource.tokenFor, hcached, post, hanswers]
      exact ⟨rfl, by rw [hanswer], by rw [step, hissued, hanswer]⟩
    | true =>
      right
      refine ⟨_, rfl, rfl, ?_, ?_, ?_, ?_⟩ <;>
        simp [step, answer, TokenSource.tokenFor, issued, post, hcached, hanswers, issueToken,
          tokenRsp]

/-- The cache holds for each target the token last issued for it. -/
def Kept (J : Jose SigningKey VerifyingKey) (signer : Signer SigningKey) (cert : Option String)
    (c : Client) : Prop :=
  ∀ target tok exp, c.source.cache.lookup target = some (tok, exp) →
    ∃ claims, c.granted target = some claims ∧ tok = signer.mint J claims ∧ claims.aud = target ∧
      claims.cnf = cert ∧ exp ≤ claims.exp

theorem kept_start (J : Jose SigningKey VerifyingKey) (signer : Signer SigningKey)
    (cert : Option String) (clientId : String) : (start clientId).Kept J signer cert :=
  fun _ _ _ h => nomatch h

theorem Kept.step (h : c.Kept J signer cert) (call : Call) :
    (c.step J signer cert call).Kept J signer cert := by
  obtain ⟨-, -, -, -, -, -, -, hstep⟩ | ⟨-, -, hstep⟩ | ⟨claims, hclaims, -, -, -, hcache, hgranted⟩ :=
    step_cases J signer cert c call
  · rwa [hstep]
  · rwa [hstep]
  · intro target tok exp hlookup
    rw [hcache, Map.lookup_insert_eq] at hlookup
    rw [hgranted]
    by_cases htarget : target = call.target
    · subst htarget
      rw [if_pos rfl, Option.some_inj, Prod.mk.injEq] at hlookup
      obtain ⟨rfl, rfl⟩ := hlookup
      refine ⟨claims, Function.update_self .., rfl, ?_, ?_, ?_⟩
      · rw [hclaims]
        rfl
      · rw [hclaims]
        rfl
      · rw [hclaims, tokenClaims]
        exact Nat.add_le_add_right (Nat.le_add_right _ _) _
    · rw [if_neg htarget] at hlookup
      rw [Function.update_of_ne htarget]
      exact h target tok exp hlookup

/-- Different claims are signed to different tokens. -/
theorem mint_inj (hJ : J.Lawful) {claims claims' : AccessTokenClaims}
    (h : signer.mint J claims = signer.mint J claims') : claims = claims' := by
  have hpayload : ∀ (header : List UInt8) (sig : List Char → List UInt8),
      jwt J header (J.claimsToVec claims) sig = jwt J header (J.claimsToVec claims') sig →
        claims = claims' := by
    intro header sig hjwt
    have hparts := congrArg (Text.splitOn '.') hjwt
    rw [hJ.splitOn_jwt, hJ.splitOn_jwt, List.cons.injEq, List.cons.injEq] at hparts
    have hvec := congrArg J.decode hparts.2.1
    rw [hJ.decode_encode, hJ.decode_encode, Option.some_inj] at hvec
    have hclaims := congrArg J.claimsFromSlice hvec
    rwa [hJ.claims, hJ.claims, Option.some_inj] at hclaims
  cases signer with
  | hs256 secret => exact hpayload _ _ h
  | es256 key => exact hpayload _ _ h

/-- A token with the target's audience, the caller's certificate and a scope that contains the
requested one authorizes the call while it is valid. -/
theorem authorizes (hJ : J.Lawful) {call : Call} {claims : AccessTokenClaims}
    (haud : claims.aud = call.target) (hcnf : claims.cnf = cert)
    (hscope : ∀ service ∈ Text.splitWhitespace call.scope.toList, covers claims.scope service = true)
    (hvalid : c.issued cert call = some claims ∨ call.now + 30 < claims.exp) :
    c.Authorizes J signer cert call (signer.mint J claims) claims where
  token := rfl
  aud := haud
  scope := hscope
  valid := hvalid
  passes := fun _ _ _ htrusts htype hbearer hcert hservice hexp =>
    requireToken_minted hJ htrusts hbearer (haud ▸ htype) (fun _ => hcert.trans hcnf.symm)
      (covers_trans hscope hservice) hexp

theorem good_iff (hJ : J.Lawful) (h : c.Kept J signer cert) (call : Call) :
    c.Good J signer cert call ↔ c.Heeds call := by
  obtain ⟨tok, exp, hlookup, hlive, hcached, -, htok, -⟩ | ⟨hcached, hnone, -⟩ |
    ⟨claims, hclaims, hcached, hissued, htok, -⟩ := step_cases J signer cert c call
  · obtain ⟨claims, hgranted, rfl, haud, hcnf, hexp⟩ := h call.target tok exp hlookup
    constructor
    · intro hgood _ claims' hclaims'
      obtain rfl : claims = claims' := Option.mem_unique hgranted hclaims'
      obtain ⟨claims', hauthorizes⟩ := hgood _ htok
      rw [mint_inj hJ hauthorizes.token]
      exact hauthorizes.scope
    · intro hheeds tok' htok'
      obtain rfl := Option.mem_unique htok htok'
      exact ⟨claims, authorizes hJ haud hcnf (hheeds (by rw [hcached]; rfl) claims hgranted)
        (.inr (Nat.lt_of_lt_of_le hlive hexp))⟩
  · refine iff_of_true (fun tok htok => ?_) fun hsome => ?_
    · rw [hnone] at htok
      cases htok
    · rw [hcached] at hsome
      cases hsome
  · refine iff_of_true (fun tok htok' => ?_) fun hsome => ?_
    · obtain rfl := Option.mem_unique htok htok'
      subst hclaims
      exact ⟨_, authorizes hJ rfl rfl (covers_self call.scope) (.inl hissued)⟩
    · rw [hcached] at hsome
      cases hsome

end Client

open Client in
/-- **Tokens authorize.** Over every sequence of calls on a source, each token that is returned was issued
for the target with a scope that contains the requested one, is valid for more than 30 s or was just
issued, and passes at the producer, if and only if no call is served a token that was cached for
another scope. -/
theorem authorizes_iff {SigningKey VerifyingKey : Type} {J : Jose SigningKey VerifyingKey}
    (hJ : J.Lawful) (signer : Signer SigningKey) (cert : Option String) (clientId : String)
    (calls : List Call) :
    Runs.Along (step J signer cert) (Good J signer cert) (start clientId) calls ↔
      Runs.Along (step J signer cert) Heeds (start clientId) calls :=
  Runs.along_congr (fun _ call hkept => hkept.step call) (fun _ call hkept => good_iff hJ hkept call)
    (kept_start J signer cert clientId)

def callAt (target scope : String) (now : Nat) : Call :=
  { target, scope, now, latency := 1, answers := true }

/-- One service, twice, and another producer. -/
def steadyCalls : List Call :=
  [callAt "UDM" "nudm-ueau nudm-sdm nudm-uecm" 1000, callAt "PCF" "npcf-am-policy-control" 1010,
    callAt "UDM" "nudm-sdm" 1020, callAt "PCF" "npcf-am-policy-control" 5000]

theorem authorizes_sample :
    Runs.Along (Client.step sampleJose (.hs256 [7]) (some "cert-a"))
      (Client.Good sampleJose (.hs256 [7]) (some "cert-a")) (Client.start "amf-1") steadyCalls :=
  (authorizes_iff sampleJose_lawful (.hs256 [7]) (some "cert-a") "amf-1" steadyCalls).mpr
    (by decide +kernel)

/-- Two services of one producer. -/
def mixedCalls : List Call :=
  [callAt "PCF" "npcf-am-policy-control" 1000, callAt "PCF" "npcf-smpolicycontrol" 1010]

/-- **The wrong scope.** The second service of a producer is called with the token of the first. -/
theorem not_authorizes :
    ¬ ∀ (SigningKey VerifyingKey : Type) (J : Jose SigningKey VerifyingKey), J.Lawful →
      ∀ (signer : Signer SigningKey) (cert : Option String) (clientId : String) (calls : List Call),
        Runs.Along (Client.step J signer cert) (Client.Good J signer cert) (Client.start clientId)
          calls := by
  intro h
  have hgood := (h SampleKey SampleKey sampleJose sampleJose_lawful (.hs256 [7]) none "amf-1" mixedCalls).2.1
  have hkept := (Client.kept_start sampleJose (.hs256 [7]) none "amf-1").step
    (callAt "PCF" "npcf-am-policy-control" 1000)
  exact absurd ((Client.good_iff sampleJose_lawful hkept _).mp hgood) (by decide +kernel)

end Radian.Sbi
