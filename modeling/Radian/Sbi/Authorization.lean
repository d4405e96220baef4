import Mathlib.Algebra.Order.Group.Multiset
import Radian.Proc.Ownership
import Radian.Sbi.Verification

/-!
# Authorization in the mesh

The NRF registers network functions and issues tokens, and it restarts with other keys; network functions
check the requests that anybody sends them, any number at a time, and restart too.

- `mesh` — all of them as a pool of tasks.
- `Unforged` — nobody but the NRF makes signatures that verify.
- `Mesh.Sound` — what holds of the keys under way and of the history.
- `requests_authorized` — a request that is admitted was authorized by the NRF before, for the certificate
  it comes with.
-/

namespace Radian.Sbi

open Nrf (NrfStore)

/-! ### The mesh -/

section Model

variable {Nf SigningKey VerifyingKey : Type} [DecidableEq Nf] (J : Jose SigningKey VerifyingKey)
  (upper : String → String) (guards : Nf → Guard)

/-- A new process: its cache is empty. -/
def restart (nf : Nf) : Task Nf SigningKey Unit :=
  Proc.change fun m => { m with cache := Function.update m.cache nf none }

/-- A key the NRF starts with verifies this signature of a text. -/
def Deed.Verifies (text : List Char) (sig : List UInt8) : Deed Nf SigningKey → Prop
  | .opened store => ∃ key ∈ store.signingKey, J.verify (J.verifyingKey key.signing) text sig = true
  | _ => False

/-- The NRF issues a token with this header and this payload. -/
def Deed.Signs (header payload : List Char) : Deed Nf SigningKey → Prop
  | .issued _ _ rsp => (Text.splitOn '.' rsp.accessToken).take 2 = [header, payload]
  | _ => False

/-- The signature of a text verifies at a network function, under its secret or under a key that the NRF
has had. -/
def Proves (guard : Guard) (w : List (Deed Nf SigningKey)) (text : List Char) (sig : List UInt8) : Prop :=
  match guard.keys with
  | .secret secret => J.hmacSha256 secret text = sig
  | .nrf => ∃ n ∈ w, n.Verifies J text sig

/-- The NRF has issued a token with this header and this payload. -/
def Signed (w : List (Deed Nf SigningKey)) (header payload : List Char) : Prop :=
  ∃ n ∈ w, n.Signs header payload

/-- **Nobody forges signatures.** What verifies when it is checked, the NRF has signed. -/
def Unforged : Deed Nf SigningKey → Unit → Mesh Nf SigningKey → List (Deed Nf SigningKey) → Prop
  | .checked nf token, _, _, w =>
      match Text.splitOn '.' token with
      | [header, payload, sig] => ∀ bytes ∈ J.decode sig,
          Proves J (guards nf) w (header ++ '.' :: payload) bytes → Signed w header payload
      | _ => True
  | _, _, _, _ => True

/-! ### What is asked of an admission -/

/-- In state `nrf` the NRF may issue a token for request `e`: the caller presents the certificate under
which the instance it names then holds the live registration `x`, and the policy lets that instance
request it. -/
structure Licensed (nrf : Nrf.World SigningKey) (e : Nrf.Event) (wall : Nat) (asked : AccessTokenReq)
    (x : Nrf.Entry) : Prop where
  request : e.request = .accessToken wall asked
  holds : nrf.Holds e asked.nfInstanceId x e.cert
  policy : ∀ policy, nrf.store.authzPolicy = some policy →
    NrfStore.permits upper policy (some x.profile.nfType) asked.targetNfType = true

/-- Such a token covers a request to a network function: that comes with the same certificate, the token
is for this network function and this service, and it has not expired. -/
structure Grants (guard : Guard) (req : HttpRequest) (now : Nat) (nrf : Nrf.World SigningKey)
    (e : Nrf.Event) (wall : Nat) (asked : AccessTokenReq) (x : Nrf.Entry) : Prop where
  licensed : Licensed upper nrf e wall asked x
  cert : req.clientCert = some e.cert
  audience : Text.eqIgnoreAsciiCase asked.targetNfType.toList guard.nfType.toList = true
  scope : req.service = [] ∨ callbackSuffix.isSuffixOf req.service = true ∨
    covers asked.scope req.service = true
  valid : now < wall + tokenTtlSecs

/-- The NRF has issued a token that covers the request. -/
def Authorized (guard : Guard) (req : HttpRequest) (now : Nat) (w : List (Deed Nf SigningKey)) : Prop :=
  ∃ nrf e rsp wall asked x, .issued nrf e rsp ∈ w ∧ Grants upper guard req now nrf e wall asked x

/-! ### The invariant -/

/-- The NRF has published these keys at some time. -/
def Published (w : List (Deed Nf SigningKey)) (keys : List Jwk) : Prop :=
  ∃ store, .opened store ∈ w ∧ keys = store.jwks J

/-- Tasks hold keys that were published, and so do the caches and the NRF; what the history says of the
NRF's answers is true, and every request that was admitted was authorized before. -/
structure Mesh.Sound (held : Multiset (List Jwk)) (m : Mesh Nf SigningKey)
    (w : List (Deed Nf SigningKey)) : Prop where
  held : ∀ keys ∈ held, Published J w keys
  cached : ∀ nf keys, m.cache nf = some keys → Published J w keys
  serves : Published J w (m.nrf.store.jwks J)
  issued : ∀ nrf e rsp, .issued nrf e rsp ∈ w → (nrf.handle J upper e).1 = .token rsp
  admitted : ∀ later nf req now earlier, w = later ++ .admitted nf req now :: earlier →
    Authorized upper (guards nf) req now earlier

def meshDiscipline : Discipline Unit (Mesh Nf SigningKey) (Deed Nf SigningKey)
    (List (Deed Nf SigningKey)) (Multiset (List Jwk)) where
  inv := Mesh.Sound J upper guards
  own _ := 0
  allow := Unforged J guards

end Model

variable {claims : AccessTokenClaims} {now : Nat}

section Results

variable {Nf SigningKey VerifyingKey : Type} {J : Jose SigningKey VerifyingKey}
  {upper : String → String} {guards : Nf → Guard}

/-! ### Tokens that pass -/

theorem readClaims_eq_ok {payload : List Char} {aud : String}
    (h : readClaims J payload aud now = .ok claims) :
    (J.decode payload).bind J.claimsFromSlice = some claims ∧ now < claims.exp ∧
      Text.eqIgnoreAsciiCase claims.aud.toList aud.toList = true := by
  rw [readClaims] at h
  cases hread : (J.decode payload).bind J.claimsFromSlice with
  | none =>
    rw [hread] at h
    cases h
  | some claims' =>
    rw [hread] at h
    simp only [checkClaims] at h
    split at h
    · cases h
    · rename_i hexp
      split at h
      · cases h
      · rename_i haud
        cases h
        exact ⟨rfl, Nat.not_le.mp hexp, by simpa using haud⟩

/-- A token that passes has the signature of its header and its payload. -/
theorem validate_eq_ok {secret : List UInt8} {token : List Char} {aud : String}
    (h : validate J secret token aud now = .ok claims) :
    ∃ header payload sig, Text.splitOn '.' token = [header, payload, sig] ∧
      J.decode sig = some (J.hmacSha256 secret (header ++ '.' :: payload)) ∧
      readClaims J payload aud now = .ok claims := by
  rw [validate] at h
  split at h
  · rename_i header payload sig hparts
    cases hsig : J.decode sig with
    | none =>
      rw [hsig] at h
      cases h
    | some bytes =>
      rw [hsig] at h
      dsimp only at h
      split at h
      · rename_i hmac
        exact ⟨header, payload, sig, hparts, hmac ▸ hsig, h⟩
      · cases h
  · cases h

theorem validateEs256_eq_ok {keys : List Jwk} {token : List Char} {aud : String}
    (h : validateEs256 J token aud keys now = .ok claims) :
    ∃ header payload sig bytes jwk key, Text.splitOn '.' token = [header, payload, sig] ∧
      J.decode sig = some bytes ∧ jwk ∈ keys ∧ jwk.verifyingKey J = some key ∧
      J.verify key (header ++ '.' :: payload) bytes = true ∧ readClaims J payload aud now = .ok claims := by
  rw [validateEs256] at h
  split at h
  · rename_i header payload sig hparts
    cases hkid : (J.decode header).bind J.headerKid with
    | none =>
      rw [hkid] at h
      cases h
    | some kid =>
      rw [hkid] at h
      dsimp only at h
      split at h
      · cases h
      · rename_i jwk hjwk
        split at h
        · cases h
        · rename_i key hkey
          split at h
          · cases h
          · rename_i bytes hbytes
            split at h
            · rename_i hverified
              refine ⟨header, payload, sig, bytes, jwk, key, hparts, ?_, ?_, hkey, hverified, h⟩
              · exact (Option.filter_eq_some_iff.mp hbytes).1
              · obtain hfound | ⟨-, hfirst⟩ := Option.or_eq_some_iff.mp hjwk
                · exact List.mem_of_find?_eq_some hfound
                · exact List.mem_of_mem_head? hfirst
            · cases h
  · cases h

/-- Keys that the NRF has published verify with a key it has had. -/
theorem Published.verifies (hJ : J.Lawful) {w : List (Deed Nf SigningKey)} {keys : List Jwk}
    (hkeys : Published J w keys) {jwk : Jwk} (hjwk : jwk ∈ keys) {vk : VerifyingKey}
    (hvk : jwk.verifyingKey J = some vk) :
    ∃ store key, .opened store ∈ w ∧ store.signingKey = some key ∧ J.verifyingKey key.signing = vk := by
  obtain ⟨store, hopened, rfl⟩ := hkeys
  rw [NrfStore.jwks] at hjwk
  cases hkey : store.signingKey with
  | none =>
    rw [hkey] at hjwk
    cases hjwk
  | some key =>
    rw [hkey] at hjwk
    obtain rfl := List.mem_singleton.mp hjwk
    exact ⟨store, key, hopened, hkey, Option.some.inj ((verifyingKey_publicJwk hJ key).symm.trans hvk)⟩

/-! ### What the NRF answers -/

/-- A minted token is of the payload with its claims. -/
theorem splitOn_mint (hJ : J.Lawful) (signer : Signer SigningKey) (claims : AccessTokenClaims) :
    ∃ header sig, Text.splitOn '.' (signer.mint J claims) =
      [header, J.encode (J.claimsToVec claims), sig] := by
  cases signer with
  | hs256 secret => exact ⟨_, _, hJ.splitOn_jwt _ _ _⟩
  | es256 key => exact ⟨_, _, hJ.splitOn_jwt _ _ _⟩

theorem Published.cons {w : List (Deed Nf SigningKey)} {keys : List Jwk} (h : Published J w keys)
    (n : Deed Nf SigningKey) : Published J (n :: w) keys := by
  obtain ⟨store, hopened, rfl⟩ := h
  exact ⟨store, List.mem_cons_of_mem _ hopened, rfl⟩

/-- The NRF has issued a token with these claims, and they are good here and now. -/
def Vouched (upper : String → String) (guard : Guard) (now : Nat) (w : List (Deed Nf SigningKey))
    (claims : AccessTokenClaims) : Prop :=
  ∃ nrf e rsp wall asked x, .issued nrf e rsp ∈ w ∧ Licensed upper nrf e wall asked x ∧
    claims = tokenClaims "radian-nrf" asked (some e.cert) wall ∧ now < claims.exp ∧
    Text.eqIgnoreAsciiCase claims.aud.toList guard.nfType.toList = true

namespace Mesh.Sound

variable {held : Multiset (List Jwk)} {m : Mesh Nf SigningKey} {w : List (Deed Nf SigningKey)}

/-- Something happens that is as it should be. -/
theorem cons (h : Mesh.Sound J upper guards held m w) {n : Deed Nf SigningKey}
    (hissued : ∀ nrf e rsp, n = .issued nrf e rsp → (nrf.handle J upper e).1 = .token rsp)
    (hadmitted : ∀ nf req now, n = .admitted nf req now → Authorized upper (guards nf) req now w) :
    Mesh.Sound J upper guards held m (n :: w) where
  held keys hkeys := (h.held keys hkeys).cons n
  cached nf keys hkeys := (h.cached nf keys hkeys).cons n
  serves := h.serves.cons n
  issued nrf e rsp hmem := by
    obtain heq | hmem := List.mem_cons.mp hmem
    · exact hissued nrf e rsp heq.symm
    · exact h.issued nrf e rsp hmem
  admitted later nf req now earlier hsplit := by
    cases later with
    | nil =>
      obtain ⟨hn, rfl⟩ := List.cons.inj hsplit
      exact hadmitted nf req now hn
    | cons _ later => exact h.admitted later nf req now earlier (List.cons.inj hsplit).2

/-- What the NRF has signed, it vouches for. -/
theorem vouched (h : Mesh.Sound J upper guards held m w) (hJ : J.Lawful) {guard : Guard}
    {header payload : List Char} (hsigned : Signed w header payload)
    (hread : readClaims J payload guard.nfType now = .ok claims) : Vouched upper guard now w claims := by
  obtain ⟨n, hissued, hparts⟩ := hsigned
  cases n with
  | opened store => cases hparts
  | checked nf token => cases hparts
  | admitted nf req now => cases hparts
  | issued nrf e rsp =>
  obtain ⟨wall, asked, signer, x, hrequest, -, hholds, hpolicy, rfl⟩ :=
    Nrf.World.handle_eq_token (h.issued nrf e rsp hissued)
  obtain ⟨header', sig', hminted⟩ := splitOn_mint hJ signer (tokenClaims "radian-nrf" asked (some e.cert) wall)
  obtain ⟨hclaims, hvalid, haud⟩ := readClaims_eq_ok hread
  have hpayload : J.encode (J.claimsToVec (tokenClaims "radian-nrf" asked (some e.cert) wall)) = payload := by
    have hsame := (congrArg (List.take 2) hminted).symm.trans hparts
    simp only [List.take_succ_cons, List.take_zero, List.cons.injEq] at hsame
    exact hsame.2.1
  rw [← hpayload, hJ.decode_encode, Option.bind_some, hJ.claims] at hclaims
  cases hclaims
  exact ⟨nrf, e, _, wall, asked, x, hissued, ⟨hrequest, hholds, hpolicy⟩, rfl, hvalid, haud⟩

/-- A token that passes under the secret is vouched for. -/
theorem validate (h : Mesh.Sound J upper guards held m w) (hJ : J.Lawful) {nf : Nf} {secret : List UInt8}
    (hkeys : (guards nf).keys = .secret secret) {token : List Char}
    (hunforged : Unforged J guards (.checked nf token) () m w)
    (hok : Sbi.validate J secret token (guards nf).nfType now = .ok claims) :
    Vouched upper (guards nf) now w claims := by
  obtain ⟨header, payload, sig, hparts, hsig, hread⟩ := validate_eq_ok hok
  have hproves : Proves J (guards nf) w (header ++ '.' :: payload)
      (J.hmacSha256 secret (header ++ '.' :: payload)) := by
    rw [Proves, hkeys]
  rw [Unforged, hparts] at hunforged
  exact h.vouched hJ (hunforged _ hsig hproves) hread

/-- A token that passes under published keys is vouched for. -/
theorem validateEs256 (h : Mesh.Sound J upper guards held m w) (hJ : J.Lawful) {nf : Nf}
    (hkeys : (guards nf).keys = .nrf) {token : List Char}
    (hunforged : Unforged J guards (.checked nf token) () m w) {keys : List Jwk}
    (hpublished : Published J w keys)
    (hok : Sbi.validateEs256 J token (guards nf).nfType keys now = .ok claims) :
    Vouched upper (guards nf) now w claims := by
  obtain ⟨header, payload, sig, bytes, jwk, vk, hparts, hsig, hjwk, hvk, hverified, hread⟩ :=
    validateEs256_eq_ok hok
  obtain ⟨store, key, hopened, hkey, rfl⟩ := hpublished.verifies hJ hjwk hvk
  have hproves : Proves J (guards nf) w (header ++ '.' :: payload) bytes := by
    rw [Proves, hkeys]
    exact ⟨_, hopened, key, hkey, hverified⟩
  rw [Unforged, hparts] at hunforged
  exact h.vouched hJ (hunforged bytes hsig hproves) hread

/-- A signature is checked. -/
theorem checked (h : Mesh.Sound J upper guards held m w) (nf : Nf) (token : List Char) :
    Mesh.Sound J upper guards held m (.checked nf token :: w) := by
  apply h.cons
  · rintro _ _ _ ⟨⟩
  · rintro _ _ _ ⟨⟩

/-- A task takes keys that were published, and gives them up. -/
theorem hold (h : Mesh.Sound J upper guards held m w) {keys : List Jwk} (hkeys : Published J w keys) :
    Mesh.Sound J upper guards (held + {keys}) m w where
  held ks hks := by
    obtain hks | hks := Multiset.mem_add.mp hks
    · exact h.held ks hks
    · obtain rfl := Multiset.mem_singleton.mp hks
      exact hkeys
  cached := h.cached
  serves := h.serves
  issued := h.issued
  admitted := h.admitted

theorem release {keys : List Jwk} (h : Mesh.Sound J upper guards (held + {keys}) m w) :
    Mesh.Sound J upper guards held m w ∧ Published J w keys := by
  refine ⟨⟨fun ks hks => h.held ks ?_, h.cached, h.serves, h.issued, h.admitted⟩, h.held keys ?_⟩
  · exact Multiset.mem_add.mpr (.inl hks)
  · exact Multiset.mem_add.mpr (.inr (Multiset.mem_singleton_self keys))

theorem store [DecidableEq Nf] (h : Mesh.Sound J upper guards held m w) (nf : Nf) {keys : List Jwk}
    (hkeys : Published J w keys) :
    Mesh.Sound J upper guards held { m with cache := Function.update m.cache nf (some keys) } w where
  held := h.held
  cached nf' ks hks := by
    dsimp only at hks
    obtain ⟨-, rfl⟩ | ⟨-, hks⟩ := Keyed.of_update_some hks
    · exact hkeys
    · exact h.cached nf' ks hks
  serves := h.serves
  issued := h.issued
  admitted := h.admitted

/-- A task that ends holds nothing. -/
theorem done (h : Mesh.Sound J upper guards held m w) :
    (meshDiscipline J upper guards).done () () m (held, w) := by
  change Mesh.Sound J upper guards (held + 0) m w
  rwa [add_zero]

end Mesh.Sound

theorem Vouched.cons {guard : Guard} {w : List (Deed Nf SigningKey)}
    (h : Vouched upper guard now w claims) (n : Deed Nf SigningKey) :
    Vouched upper guard now (n :: w) claims := by
  obtain ⟨nrf, e, rsp, wall, asked, x, hissued, hrest⟩ := h
  exact ⟨nrf, e, rsp, wall, asked, x, List.mem_cons_of_mem n hissued, hrest⟩

variable [DecidableEq Nf] {held : Multiset (List Jwk)} {m : Mesh Nf SigningKey}
  {w : List (Deed Nf SigningKey)}

end Results

/-! ### What is granted is admitted -/

section Granted

variable {Nf SigningKey VerifyingKey : Type} [DecidableEq Nf] {J : Jose SigningKey VerifyingKey}
  {upper : String → String} {guards : Nf → Guard} {m : Mesh Nf SigningKey}
  {w : List (Deed Nf SigningKey)}

end Granted

/-! ### An example -/

def udmRegisters : Nrf.Event where
  delay := 1
  cert := "cert-udm"
  request := .register "udm-1" { nfType := "UDM" }

/-- After the UDM has registered. -/
def registered : Mesh Unit SampleKey where
  nrf := Nrf.World.step sampleJose String.toUpper { store := { signingKey := some sampleKey } } udmRegisters
  cache _ := none

end Radian.Sbi
