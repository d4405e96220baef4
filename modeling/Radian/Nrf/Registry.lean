import Radian.Keyed.Basic
import Radian.Runs.Basic
import Radian.Sbi.OAuth

/-!
# The NRF's registry

Registration, heartbeat, deregistration and access tokens at the NRF, for callers that present client
certificates.

- `register`, `heartbeat`, `deregister`, `accessToken` — the handlers, over a registry whose entries
  expire.
- `Bound` — what a step may do to the registrations of others, and what its token may say.
- `bound_iff` — identities stay bound to certificates exactly as long as nobody else's certificate
  comes with a heartbeat or a deregistration.
-/

namespace Radian.Nrf

open Keyed (Map)
open Sbi (AccessTokenReq AccessTokenRsp Es256Key Jose Signer)

/-! ### Profiles -/

structure IpEndPoint where
  ipv4Address : Option String
  port : Option UInt16
  deriving DecidableEq, Repr

structure NfService where
  serviceInstanceId : String
  serviceName : String
  scheme : String
  ipEndPoints : List IpEndPoint
  deriving DecidableEq, Repr

/-- A slice and the DNNs served in it. -/
structure SnssaiSmfInfoItem where
  sst : UInt8
  sd : Option String
  dnns : List String
  deriving DecidableEq, Repr

structure NfProfile where
  nfInstanceId : String := ""
  nfType : String
  nfStatus : String := "REGISTERED"
  ipv4Addresses : List String := []
  nfServices : Option (List NfService) := none
  heartBeatTimer : Option UInt32 := none
  smfInfo : Option (List SnssaiSmfInfoItem) := none
  deriving DecidableEq, Repr

/-- A registered profile, when the NF was last heard of, and the certificate it registered with. -/
structure Entry where
  profile : NfProfile
  lastSeen : Nat
  certFp : Option String
  deriving DecidableEq, Repr

/-- The registry.  Times and durations are in nanoseconds. -/
structure NrfStore (SigningKey : Type) where
  entries : Map String Entry := ∅
  heartbeatTimer : Nat := 10 * 10 ^ 9
  secret : Option (List UInt8) := none
  signingKey : Option (Es256Key SigningKey) := none
  /-- For each consumer type the target types it may request tokens for, in upper case. -/
  authzPolicy : Option (Map String (List String)) := none

structure ProblemDetails where
  status : Nat
  cause : String
  detail : String
  deriving DecidableEq, Repr

inductive Answer where
  | created (profile : NfProfile)
  | noContent
  | notFound
  | token (rsp : AccessTokenRsp)
  | problem (details : ProblemDetails)

/-! ### The handlers -/

namespace NrfStore

variable {SigningKey VerifyingKey : Type}

def oauthEnabled (s : NrfStore SigningKey) : Bool := s.secret.isSome || s.signingKey.isSome

def ttl (s : NrfStore SigningKey) : Nat := 2 * s.heartbeatTimer

/-- The NF was heard of recently enough. -/
def alive (s : NrfStore SigningKey) (now : Nat) (e : Entry) : Bool := now - e.lastSeen ≤ s.ttl

def purgeStale (s : NrfStore SigningKey) (now : Nat) : NrfStore SigningKey :=
  { s with entries := s.entries.retain (s.alive now) }

def register (s : NrfStore SigningKey) (now : Nat) (id : String) (clientCert : Option String)
    (profile : NfProfile) : Answer × NrfStore SigningKey :=
  let profile := { profile with
    nfInstanceId := id
    heartBeatTimer := some (UInt32.ofNat (max (s.heartbeatTimer / 10 ^ 9) 1)) }
  let store : NrfStore SigningKey :=
    { s with entries := s.entries.insert id { profile, lastSeen := now, certFp := clientCert } }
  match (s.entries.lookup id).bind fun existing => existing.certFp with
  | some bound =>
      if clientCert ≠ some bound then
        (.problem
          { status := 403, cause := "UNAUTHORIZED_CLIENT"
            detail := "registration is bound to a different certificate" }, s)
      else (.created profile, store)
  | none => (.created profile, store)

def heartbeat (s : NrfStore SigningKey) (now : Nat) (id : String) : Answer × NrfStore SigningKey :=
  let s := s.purgeStale now
  match s.entries.lookup id with
  | some e => (.noContent, { s with entries := s.entries.insert id { e with lastSeen := now } })
  | none => (.notFound, s)

def deregister (s : NrfStore SigningKey) (id : String) : Answer × NrfStore SigningKey :=
  (.noContent, { s with entries := s.entries.erase id })

/-- The policy lets a consumer of a type request tokens for a target; `upper` is `to_uppercase`. -/
def permits (upper : String → String) (policy : Map String (List String))
    (consumerType : Option String) (targetNfType : String) : Bool :=
  (consumerType.bind fun ct => policy.lookup (upper ct)).any fun targets =>
    targets.contains "*" || targets.contains (upper targetNfType)

/-- What tokens are signed with: the private key before the shared secret. -/
def signer (s : NrfStore SigningKey) : Option (Signer SigningKey) :=
  match s.signingKey, s.secret with
  | some key, _ => some (.es256 key)
  | none, some secret => some (.hs256 secret)
  | none, none => none

def unauthorizedClient (detail : String) : Answer :=
  .problem { status := 403, cause := "UNAUTHORIZED_CLIENT", detail }

/-- `wall` is the time that tokens are dated with, in seconds. -/
def accessToken (J : Jose SigningKey VerifyingKey) (upper : String → String)
    (s : NrfStore SigningKey) (now wall : Nat) (clientCert : Option String) (req : AccessTokenReq) :
    Answer × NrfStore SigningKey :=
  if !s.oauthEnabled then
    (.problem
      { status := 404, cause := "SERVICE_DISABLED", detail := "SBI security is not enabled" }, s)
  else if req.grantType ≠ "client_credentials" then
    (.problem
      { status := 400, cause := "UNSUPPORTED_GRANT_TYPE"
        detail := "expected client_credentials" }, s)
  else
    let s := s.purgeStale now
    if (s.entries.lookup req.nfInstanceId).isNone then
      (unauthorizedClient "requesting NF is not registered", s)
    else
      let boundFp := (s.entries.lookup req.nfInstanceId).bind fun e => e.certFp
      let consumerType := (s.entries.lookup req.nfInstanceId).map fun e => e.profile.nfType
      if clientCert.isSome ∧ boundFp ≠ clientCert then
        (unauthorizedClient "client certificate does not match the registered NF instance", s)
      else if s.authzPolicy.any fun policy => !permits upper policy consumerType req.targetNfType then
        (unauthorizedClient "consumer NF type is not authorized to request this target", s)
      else
        match s.signer with
        | some signer => (.token (Sbi.issueToken J signer "radian-nrf" req clientCert wall), s)
        -- `oauth_enabled` was checked above
        | none => (.problem { status := 500, cause := "", detail := "" }, s)

end NrfStore

/-! ### Requests -/

inductive Request where
  | register (id : String) (profile : NfProfile)
  | heartbeat (id : String)
  | deregister (id : String)
  | accessToken (wall : Nat) (req : AccessTokenReq)

/-- A request, `delay` after the last one, from a caller that presents the certificate `cert`. -/
structure Event where
  delay : Nat
  cert : String
  request : Request

section Machine

variable {SigningKey VerifyingKey : Type}

structure World (SigningKey : Type) where
  store : NrfStore SigningKey
  now : Nat := 0

namespace World

variable (J : Jose SigningKey VerifyingKey) (upper : String → String)

def handle (w : World SigningKey) (e : Event) : Answer × NrfStore SigningKey :=
  let now := w.now + e.delay
  match e.request with
  | .register id profile => w.store.register now id (some e.cert) profile
  | .heartbeat id => w.store.heartbeat now id
  | .deregister id => w.store.deregister id
  | .accessToken wall req => w.store.accessToken J upper now wall (some e.cert) req

def step (w : World SigningKey) (e : Event) : World SigningKey :=
  { store := (w.handle J upper e).2, now := w.now + e.delay }

/-- When the request comes, `x` is alive under instance id `id`, registered with certificate `c`. -/
def Holds (w : World SigningKey) (e : Event) (id : String) (x : Entry) (c : String) : Prop :=
  w.store.entries.lookup id = some x ∧ w.store.alive (w.now + e.delay) x = true ∧ x.certFp = some c

/-- What is asked of a step. -/
structure Bound (w : World SigningKey) (e : Event) : Prop where
  /-- A registration made with another certificate stays as it is. -/
  untouched : ∀ id x c, w.Holds e id x c → e.cert ≠ c →
    (w.step J upper e).store.entries.lookup id = some x
  /-- A token names an instance that the caller registered, is bound to the caller's certificate, and
  is for a target that the policy allows the registered type. -/
  token : ∀ rsp, (w.handle J upper e).1 = .token rsp →
    ∃ signer claims x, w.store.signer = some signer ∧ rsp.accessToken = signer.mint J claims ∧
      w.Holds e claims.sub x e.cert ∧ claims.cnf = some e.cert ∧
      ∀ policy, w.store.authzPolicy = some policy →
        NrfStore.permits upper policy (some x.profile.nfType) claims.aud = true
  /-- Registrations are made with certificates. -/
  certified : ∀ id x, (w.step J upper e).store.entries.lookup id = some x → x.certFp.isSome = true

/-- Heartbeats and deregistrations come with the certificate of the registration; a heartbeat of
another, if any, when the NF is heard of at that moment anyway. -/
def Heeds (w : World SigningKey) (e : Event) : Prop :=
  match e.request with
  | .heartbeat id => ∀ x ∈ w.store.entries.lookup id, w.store.alive (w.now + e.delay) x = true →
      ∀ c ∈ x.certFp, e.cert = c ∨ x.lastSeen = w.now + e.delay
  | .deregister id => ∀ x ∈ w.store.entries.lookup id, w.store.alive (w.now + e.delay) x = true →
      ∀ c ∈ x.certFp, e.cert = c
  | _ => True

instance (w : World SigningKey) (e : Event) : Decidable (w.Heeds e) := by
  unfold Heeds
  cases e.request <;> infer_instance

variable {J upper} {w : World SigningKey} {e : Event}

theorem lookup_purgeStale {s : NrfStore SigningKey} {now : Nat} {id : String} {x : Entry} :
    (s.purgeStale now).entries.lookup id = some x ↔
      s.entries.lookup id = some x ∧ s.alive now x = true := Map.lookup_retain

/-- What a registration does: it is refused, or it writes an entry under its own id, where no entry is
bound to another certificate. -/
theorem register_cases (s : NrfStore SigningKey) (now : Nat) (id cert : String) (profile : NfProfile) :
    (s.register now id (some cert) profile).2 = s ∧
        (∃ details, (s.register now id (some cert) profile).1 = .problem details) ∨
      ∃ profile', (s.register now id (some cert) profile).2.entries =
          s.entries.insert id { profile := profile', lastSeen := now, certFp := some cert } ∧
        (s.register now id (some cert) profile).1 = .created profile' ∧
        ∀ x c, s.entries.lookup id = some x → x.certFp = some c → cert = c := by
  rw [NrfStore.register]
  cases hbound : (s.entries.lookup id).bind fun existing => existing.certFp with
  | none =>
    refine .inr ⟨_, rfl, rfl, fun x c hx hc => ?_⟩
    rw [hx, Option.bind_some, hc] at hbound
    cases hbound
  | some bound =>
    by_cases hcert : cert = bound
    · subst hcert
      have hown : ¬ some cert ≠ some cert := not_not.mpr rfl
      simp only [hown, if_false]
      refine .inr ⟨_, rfl, rfl, fun x c hx hc => ?_⟩
      rw [hx, Option.bind_some, hc, Option.some_inj] at hbound
      exact hbound.symm
    · left
      simp [hcert]

/-- What a token request does: at most it purges, and a token is what `Bound` asks of it. -/
theorem accessToken_cases (J : Jose SigningKey VerifyingKey) (upper : String → String)
    (s : NrfStore SigningKey) (now wall : Nat) (cert : String) (req : AccessTokenReq) :
    ((s.accessToken J upper now wall (some cert) req).2 = s ∨
      (s.accessToken J upper now wall (some cert) req).2 = s.purgeStale now) ∧
    ((∃ details, (s.accessToken J upper now wall (some cert) req).1 = .problem details) ∨
      ∃ signer x, s.signer = some signer ∧ s.entries.lookup req.nfInstanceId = some x ∧
        s.alive now x = true ∧ x.certFp = some cert ∧
        (s.accessToken J upper now wall (some cert) req).1 =
          .token (Sbi.issueToken J signer "radian-nrf" req (some cert) wall) ∧
        ∀ policy, s.authzPolicy = some policy →
          NrfStore.permits upper policy (some x.profile.nfType) req.targetNfType = true) := by
  unfold NrfStore.accessToken
  split
  next => exact ⟨.inl rfl, .inl ⟨_, rfl⟩⟩
  next =>
    split
    next => exact ⟨.inl rfl, .inl ⟨_, rfl⟩⟩
    next =>
      cases hx : (s.purgeStale now).entries.lookup req.nfInstanceId with
      | none =>
        simp only [hx, Option.isNone_none, if_true]
        exact ⟨.inr trivial, .inl ⟨_, rfl⟩⟩
      | some x =>
        simp only [hx, Option.isNone_some, Option.bind_some, Option.map_some, Bool.false_eq_true,
          if_false]
        split
        next => exact ⟨.inr rfl, .inl ⟨_, rfl⟩⟩
        next hcert =>
          split
          next => exact ⟨.inr rfl, .inl ⟨_, rfl⟩⟩
          next hpolicy =>
            have hsigner : (s.purgeStale now).signer = s.signer := rfl
            rw [hsigner]
            cases hsign : s.signer with
            | none => exact ⟨.inr rfl, .inl ⟨_, rfl⟩⟩
            | some signer =>
              obtain ⟨hlookup, halive⟩ := lookup_purgeStale.mp hx
              refine ⟨.inr rfl, .inr ⟨signer, x, rfl, hlookup, halive, ?_, rfl, ?_⟩⟩
              · simpa using hcert
              · intro policy hset
                have hauthz : (s.purgeStale now).authzPolicy = some policy := hset
                rw [hauthz, Option.any_some] at hpolicy
                simpa using hpolicy

/-- A heartbeat purges, and a registration that is alive is heard of. -/
theorem heartbeat_lookup (s : NrfStore SigningKey) (now : Nat) (id id' : String) :
    (s.heartbeat now id).2.entries.lookup id' =
      if id' = id then
        ((s.purgeStale now).entries.lookup id).map fun x => { x with lastSeen := now }
      else (s.purgeStale now).entries.lookup id' := by
  rw [NrfStore.heartbeat]
  cases hx : (s.purgeStale now).entries.lookup id with
  | none =>
    by_cases hid : id' = id
    · rw [if_pos hid, hid]
      exact hx
    · rw [if_neg hid]
  | some x => exact Map.lookup_insert_eq ..

/-- All registrations were made with certificates. -/
def Certified (w : World SigningKey) : Prop :=
  ∀ id x, w.store.entries.lookup id = some x → x.certFp.isSome = true

theorem Certified.step (h : w.Certified) (e : Event) : (w.step J upper e).Certified := by
  intro id x hx
  obtain ⟨delay, cert, request⟩ := e
  have hpurged : ∀ {now}, (w.store.purgeStale now).entries.lookup id = some x →
      x.certFp.isSome = true := fun hx => h id x (lookup_purgeStale.mp hx).1
  cases request with
  | register id' profile =>
    have hstep : (w.step J upper ⟨delay, cert, .register id' profile⟩).store =
        (w.store.register (w.now + delay) id' (some cert) profile).2 := rfl
    rw [hstep] at hx
    obtain ⟨hsame, -⟩ | ⟨profile', hwrites, -, -⟩ :=
      register_cases w.store (w.now + delay) id' cert profile
    · exact h id x (hsame ▸ hx)
    · rw [hwrites] at hx
      obtain ⟨-, rfl⟩ | ⟨-, hx⟩ := Map.of_lookup_insert hx
      · rfl
      · exact h id x hx
  | heartbeat id' =>
    have hheard : (w.store.heartbeat (w.now + delay) id').2.entries.lookup id = some x := hx
    rw [heartbeat_lookup] at hheard
    split at hheard
    next hid =>
      obtain ⟨x', hx', rfl⟩ := Option.map_eq_some_iff.mp hheard
      exact h id' x' (lookup_purgeStale.mp hx').1
    next => exact hpurged hheard
  | deregister id' =>
    have herased : (w.store.entries.erase id').lookup id = some x := hx
    exact h id x (Map.of_lookup_erase herased).2
  | accessToken wall req =>
    have hstep : (w.step J upper ⟨delay, cert, .accessToken wall req⟩).store =
        (w.store.accessToken J upper (w.now + delay) wall (some cert) req).2 := rfl
    rw [hstep] at hx
    obtain ⟨hsame | hpurge, -⟩ :=
      accessToken_cases J upper w.store (w.now + delay) wall cert req
    · exact h id x (hsame ▸ hx)
    · exact hpurged (hpurge ▸ hx)

/-- A token is an answer to a token request of an instance that is alive and registered with the caller's
certificate, for a target that the policy allows it. -/
theorem handle_eq_token {w : World SigningKey} {e : Event} {rsp : AccessTokenRsp}
    (h : (w.handle J upper e).1 = .token rsp) :
    ∃ wall asked signer x, e.request = .accessToken wall asked ∧ w.store.signer = some signer ∧
      w.Holds e asked.nfInstanceId x e.cert ∧
      (∀ policy, w.store.authzPolicy = some policy →
        NrfStore.permits upper policy (some x.profile.nfType) asked.targetNfType = true) ∧
      rsp = Sbi.issueToken J signer "radian-nrf" asked (some e.cert) wall := by
  obtain ⟨delay, cert, request⟩ := e
  cases request with
  | register id profile =>
    have hanswer : (w.store.register (w.now + delay) id (some cert) profile).1 = .token rsp := h
    obtain ⟨-, details, hproblem⟩ | ⟨profile', -, hcreated, -⟩ :=
      register_cases w.store (w.now + delay) id cert profile
    · rw [hproblem] at hanswer
      cases hanswer
    · rw [hcreated] at hanswer
      cases hanswer
  | heartbeat id =>
    have hanswer : (w.store.heartbeat (w.now + delay) id).1 = .token rsp := h
    rw [NrfStore.heartbeat] at hanswer
    split at hanswer <;> cases hanswer
  | deregister id => cases h
  | accessToken wall asked =>
    have hanswer : (w.store.accessToken J upper (w.now + delay) wall (some cert) asked).1 =
      .token rsp := h
    obtain ⟨-, ⟨details, hproblem⟩ | ⟨signer, x, hsigner, hx, halive, hcert, hissued, hpolicy⟩⟩ :=
      accessToken_cases J upper w.store (w.now + delay) wall cert asked
    · rw [hproblem] at hanswer
      cases hanswer
    · rw [hissued] at hanswer
      cases hanswer
      exact ⟨wall, asked, signer, x, rfl, hsigner, ⟨hx, halive, hcert⟩, hpolicy, rfl⟩

/-- Tokens are as they should be, whatever happened before. -/
theorem token_bound (w : World SigningKey) (e : Event) (rsp : AccessTokenRsp)
    (htoken : (w.handle J upper e).1 = .token rsp) :
    ∃ signer claims x, w.store.signer = some signer ∧ rsp.accessToken = signer.mint J claims ∧
      w.Holds e claims.sub x e.cert ∧ claims.cnf = some e.cert ∧
      ∀ policy, w.store.authzPolicy = some policy →
        NrfStore.permits upper policy (some x.profile.nfType) claims.aud = true := by
  obtain ⟨wall, asked, signer, x, -, hsigner, hholds, hpolicy, rfl⟩ := handle_eq_token htoken
  exact ⟨signer, _, x, hsigner, rfl, hholds, rfl, hpolicy⟩

/-- A registration made with another certificate stays as it is exactly when the side condition is
met. -/
theorem entry_untouched_iff (J : Jose SigningKey VerifyingKey) (upper : String → String)
    (w : World SigningKey) (e : Event) :
    (∀ id x c, w.Holds e id x c → e.cert ≠ c →
      (w.step J upper e).store.entries.lookup id = some x) ↔ w.Heeds e := by
  obtain ⟨delay, cert, request⟩ := e
  cases request with
  | register id' profile =>
    refine iff_of_true ?_ trivial
    rintro id x c ⟨hx, -, hcert⟩ hne
    have hstep : (w.step J upper ⟨delay, cert, .register id' profile⟩).store =
        (w.store.register (w.now + delay) id' (some cert) profile).2 := rfl
    rw [hstep]
    obtain ⟨hsame, -⟩ | ⟨profile', hwrites, -, howner⟩ :=
      register_cases w.store (w.now + delay) id' cert profile
    · rwa [hsame]
    · rw [hwrites, Map.lookup_insert_eq]
      by_cases hid : id = id'
      · subst hid
        exact absurd (howner x c hx hcert) hne
      · rwa [if_neg hid]
  | heartbeat id' =>
    have hstep : ∀ id, (w.step J upper ⟨delay, cert, .heartbeat id'⟩).store.entries.lookup id =
        (w.store.heartbeat (w.now + delay) id').2.entries.lookup id := fun _ => rfl
    simp only [hstep, heartbeat_lookup]
    constructor
    · intro h x hx halive c hcert
      rw [or_iff_not_imp_left]
      intro hne
      have hsame := h id' x c ⟨hx, halive, hcert⟩ hne
      rw [if_pos rfl, lookup_purgeStale.mpr ⟨hx, halive⟩, Option.map_some,
        Option.some_inj] at hsame
      exact (congrArg Entry.lastSeen hsame).symm
    · rintro h id x c ⟨hx, halive, hcert⟩ hne
      have hkept := lookup_purgeStale.mpr ⟨hx, halive⟩
      by_cases hid : id = id'
      · subst hid
        obtain hown | hnow := h x hx halive c hcert
        · exact absurd hown hne
        · rw [if_pos rfl, hkept, Option.map_some, ← hnow]
      · rw [if_neg hid, hkept]
  | deregister id' =>
    have hstep : ∀ id, (w.step J upper ⟨delay, cert, .deregister id'⟩).store.entries.lookup id =
        (w.store.entries.erase id').lookup id := fun _ => rfl
    simp only [hstep, Map.lookup_erase_eq]
    constructor
    · intro h x hx halive c hcert
      by_contra hne
      have hsame := h id' x c ⟨hx, halive, hcert⟩ hne
      rw [if_pos rfl] at hsame
      cases hsame
    · rintro h id x c ⟨hx, halive, hcert⟩ hne
      rw [if_neg]
      · exact hx
      · rintro rfl
        exact hne (h x hx halive c hcert)
  | accessToken wall req =>
    refine iff_of_true ?_ trivial
    rintro id x c ⟨hx, halive, -⟩ -
    have hstep : (w.step J upper ⟨delay, cert, .accessToken wall req⟩).store =
        (w.store.accessToken J upper (w.now + delay) wall (some cert) req).2 := rfl
    rw [hstep]
    obtain ⟨hsame | hpurge, -⟩ :=
      accessToken_cases J upper w.store (w.now + delay) wall cert req
    · rwa [hsame]
    · rw [hpurge]
      exact lookup_purgeStale.mpr ⟨hx, halive⟩

end World

end Machine

open World in
/-- **Identities are bound to certificates.** Over every sequence of requests from callers with
certificates, nobody else touches a registration that is alive and every token is the caller's own and
one the policy allows, if and only if no heartbeat or deregistration comes with another certificate
than that of the registration. -/
theorem bound_iff {SigningKey VerifyingKey : Type} (J : Jose SigningKey VerifyingKey)
    (upper : String → String) (s : NrfStore SigningKey) (es : List Event) :
    Runs.Along (step J upper) (Bound J upper) { store := { s with entries := ∅ } } es ↔
      Runs.Along (step J upper) Heeds { store := { s with entries := ∅ } } es := by
  refine Runs.along_congr (I := Certified) (fun _ e h => h.step e) (fun w e h => ?_)
    (fun _ _ hx => nomatch hx)
  rw [← entry_untouched_iff J upper w e]
  exact ⟨fun hbound => hbound.untouched,
    fun huntouched => ⟨huntouched, token_bound w e, h.step e⟩⟩

def smfProfile : NfProfile := { nfType := "SMF" }

/-- Another certificate deregisters the SMF. -/
def hijacked : List Event :=
  [{ delay := 0, cert := "cert-a", request := .register "smf-1" smfProfile },
    { delay := 5, cert := "cert-b", request := .deregister "smf-1" }]

/-- Another certificate keeps the SMF registered. -/
def refreshed : List Event :=
  [{ delay := 0, cert := "cert-a", request := .register "smf-1" smfProfile },
    { delay := 5, cert := "cert-b", request := .heartbeat "smf-1" }]

/-- **Others' registrations.** Any certificate removes a registration, and any keeps it alive. -/
theorem not_bound :
    (¬ Runs.Along (World.step Sbi.sampleJose String.toUpper)
        (World.Bound Sbi.sampleJose String.toUpper) { store := {} } hijacked) ∧
      ¬ Runs.Along (World.step Sbi.sampleJose String.toUpper)
        (World.Bound Sbi.sampleJose String.toUpper) { store := {} } refreshed := by
  constructor
  · intro hbound
    have huntouched := hbound.2.1.untouched
    rw [World.entry_untouched_iff] at huntouched
    exact absurd huntouched (by decide +kernel)
  · intro hbound
    have huntouched := hbound.2.1.untouched
    rw [World.entry_untouched_iff] at huntouched
    exact absurd huntouched (by decide +kernel)

end Radian.Nrf
