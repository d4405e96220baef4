import Radian.Sbi.Encodings

/-!
# Access tokens

The NRF's access tokens: what they claim, how they are signed, and how a protected network function
checks a request.

- `Jose` — what the signature and encoding crates compute, and `Jose.Lawful`, what they promise.
- `mint`, `validate`, `mintEs256`, `validateEs256` — signed tokens, with a shared secret and with a key.
- `TokenVerifier.verify`, `requireToken` — the check of a request.
- `requireToken_minted` — a token that was minted for the audience and the service passes until it
  expires.
-/

namespace Radian.Sbi

open Encodings

/-- What a token claims. -/
structure AccessTokenClaims where
  iss : String
  sub : String
  aud : String
  scope : String
  iat : Nat
  exp : Nat
  /-- The thumbprint of the certificate the token is bound to. -/
  cnf : Option String
  deriving DecidableEq, Repr

structure AccessTokenReq where
  grantType : String
  nfInstanceId : String
  targetNfType : String
  scope : String := ""
  deriving DecidableEq, Repr

structure AccessTokenRsp where
  accessToken : List Char
  tokenType : String
  expiresIn : Nat
  deriving DecidableEq, Repr

def tokenTtlSecs : Nat := 3600

/-- The claims for a request that comes at time `now`. -/
def tokenClaims (nrfId : String) (req : AccessTokenReq) (cnf : Option String) (now : Nat) :
    AccessTokenClaims :=
  { iss := nrfId, sub := req.nfInstanceId, aud := req.targetNfType, scope := req.scope
    iat := now, exp := now + tokenTtlSecs, cnf }

def tokenRsp (accessToken : List Char) : AccessTokenRsp :=
  { accessToken, tokenType := "Bearer", expiresIn := tokenTtlSecs }

/-! ### Signatures and encodings -/

/-- What the crates compute that tokens are made with: base64, JSON, HMAC-SHA-256 and ECDSA over
P-256. -/
structure Jose (SigningKey VerifyingKey : Type) where
  encode : List UInt8 → List Char
  decode : List Char → Option (List UInt8)
  claimsToVec : AccessTokenClaims → List UInt8
  claimsFromSlice : List UInt8 → Option AccessTokenClaims
  /-- The header that names a key id. -/
  headerToVec : String → List UInt8
  /-- The key id of a header, for one that is JSON. -/
  headerKid : List UInt8 → Option (Option String)
  hmacSha256 : List UInt8 → List Char → List UInt8
  sign : SigningKey → List Char → List UInt8
  verifyingKey : SigningKey → VerifyingKey
  /-- The coordinates of a public key. -/
  point : SigningKey → List UInt8 × List UInt8
  fromSec1Bytes : List UInt8 → Option VerifyingKey
  isSignature : List UInt8 → Bool
  verify : VerifyingKey → List Char → List UInt8 → Bool

variable {SigningKey VerifyingKey : Type}

/-- What was encoded is decoded, and what was signed verifies. -/
structure Jose.Lawful (J : Jose SigningKey VerifyingKey) : Prop where
  decode_encode : ∀ bytes, J.decode (J.encode bytes) = some bytes
  dot_notMem : ∀ bytes, '.' ∉ J.encode bytes
  claims : ∀ claims, J.claimsFromSlice (J.claimsToVec claims) = some claims
  kid : ∀ kid, J.headerKid (J.headerToVec kid) = some (some kid)
  point : ∀ key, (J.point key).1.length = 32 ∧ (J.point key).2.length = 32 ∧
    J.fromSec1Bytes (4 :: (J.point key).1 ++ (J.point key).2) = some (J.verifyingKey key)
  signature : ∀ key text, J.isSignature (J.sign key text) = true ∧
    J.verify (J.verifyingKey key) text (J.sign key text) = true

inductive TokenError where
  | malformed | badSignature | expired | wrongAudience
  deriving DecidableEq, Repr

/-- A signing key and its key id. -/
structure Es256Key (SigningKey : Type) where
  signing : SigningKey
  kid : String

/-- A public key. -/
structure Jwk where
  kty : String
  crv : String
  x : List Char
  y : List Char
  kid : String
  deriving DecidableEq, Repr

variable (J : Jose SigningKey VerifyingKey)

/-- The JWT of a header and a payload, signed by `sig`. -/
def jwt (header payload : List UInt8) (sig : List Char → List UInt8) : List Char :=
  let signingInput := J.encode header ++ '.' :: J.encode payload
  signingInput ++ '.' :: J.encode (sig signingInput)

def hs256Header : List UInt8 := "\x7b\"alg\":\"HS256\",\"typ\":\"JWT\"\x7d".toUTF8.toList

def mint (secret : List UInt8) (claims : AccessTokenClaims) : List Char :=
  jwt J hs256Header (J.claimsToVec claims) (J.hmacSha256 secret)

def mintEs256 (key : Es256Key SigningKey) (claims : AccessTokenClaims) : List Char :=
  jwt J (J.headerToVec key.kid) (J.claimsToVec claims) (J.sign key.signing)

/-- Expiry and audience. -/
def checkClaims (claims : AccessTokenClaims) (expectedAud : String) (now : Nat) :
    Except TokenError AccessTokenClaims :=
  if claims.exp ≤ now then .error .expired
  else if !Text.eqIgnoreAsciiCase claims.aud.toList expectedAud.toList then .error .wrongAudience
  else .ok claims

/-- The payload of a token whose signature is good. -/
def readClaims (payload : List Char) (expectedAud : String) (now : Nat) :
    Except TokenError AccessTokenClaims :=
  match (J.decode payload).bind J.claimsFromSlice with
  | none => .error .malformed
  | some claims => checkClaims claims expectedAud now

def validate (secret : List UInt8) (token : List Char) (expectedAud : String) (now : Nat) :
    Except TokenError AccessTokenClaims :=
  match Text.splitOn '.' token with
  | [header, payload, sig] =>
      match J.decode sig with
      | none => .error .malformed
      | some sigBytes =>
          if J.hmacSha256 secret (header ++ '.' :: payload) = sigBytes then
            readClaims J payload expectedAud now
          else .error .badSignature
  | _ => .error .malformed

/-- The public key as the NRF publishes it. -/
def Es256Key.publicJwk (key : Es256Key SigningKey) : Jwk :=
  { kty := "EC", crv := "P-256", x := J.encode (J.point key.signing).1
    y := J.encode (J.point key.signing).2, kid := key.kid }

def Es256Key.jwks (key : Es256Key SigningKey) : List Jwk := [key.publicJwk J]

def Jwk.verifyingKey (jwk : Jwk) : Option VerifyingKey :=
  if jwk.kty ≠ "EC" ∨ jwk.crv ≠ "P-256" then none
  else
    match J.decode jwk.x, J.decode jwk.y with
    | some x, some y =>
        if x.length ≠ 32 ∨ y.length ≠ 32 then none else J.fromSec1Bytes (4 :: x ++ y)
    | _, _ => none

def validateEs256 (token : List Char) (expectedAud : String) (jwks : List Jwk) (now : Nat) :
    Except TokenError AccessTokenClaims :=
  match Text.splitOn '.' token with
  | [header, payload, sig] =>
      match (J.decode header).bind J.headerKid with
      | none => .error .malformed
      | some kid =>
          match (jwks.find? fun k => kid = some k.kid).or jwks.head? with
          | none => .error .badSignature
          | some jwk =>
              match jwk.verifyingKey J with
              | none => .error .badSignature
              | some key =>
                  match (J.decode sig).filter J.isSignature with
                  | none => .error .malformed
                  | some sigBytes =>
                      if J.verify key (header ++ '.' :: payload) sigBytes then
                        readClaims J payload expectedAud now
                      else .error .badSignature
  | _ => .error .malformed

/-! ### The NRF and the protected network functions -/

/-- What the NRF signs with. -/
inductive Signer (SigningKey : Type) where
  | hs256 (secret : List UInt8)
  | es256 (key : Es256Key SigningKey)

def Signer.mint : Signer SigningKey → AccessTokenClaims → List Char
  | .hs256 secret => Sbi.mint J secret
  | .es256 key => mintEs256 J key

/-- `issue_token` and `issue_token_es256`. -/
def issueToken (signer : Signer SigningKey) (nrfId : String) (req : AccessTokenReq)
    (cnf : Option String) (now : Nat) : AccessTokenRsp :=
  tokenRsp (signer.mint J (tokenClaims nrfId req cnf now))

/-- How a protected network function verifies tokens: with the secret, or with the NRF's keys, those
it has cached and those it gets when it asks. -/
inductive TokenVerifier where
  | shared (secret : List UInt8)
  | jwks (cached served : Option (List Jwk))

def TokenVerifier.verify (token : List Char) (aud : String) (now : Nat) :
    TokenVerifier → Except TokenError AccessTokenClaims
  | .shared secret => validate J secret token aud now
  | .jwks cached served =>
      match cached.or served with
      | none => .error .badSignature
      | some keys =>
          match validateEs256 J token aud keys now with
          -- the NRF may have changed its key
          | .error .badSignature =>
              match served with
              | none => .error .badSignature
              | some fresh => validateEs256 J token aud fresh now
          | other => other

structure AuthConfig where
  nfType : String
  verifier : TokenVerifier

/-- What the check reads of an HTTP request. -/
structure HttpRequest where
  authorization : Option (List Char)
  path : List Char
  clientCert : Option String

inductive Checked where
  | next
  | unauthorized (detail : String)
  deriving DecidableEq, Repr

def bearerPrefix : List Char := "Bearer ".toList

/-- The first segment of a path. -/
def HttpRequest.service (req : HttpRequest) : List Char :=
  (req.path.dropWhile (· == '/')).takeWhile (· != '/')

def callbackSuffix : List Char := "-callback".toList

/-- The words of a scope cover a service. -/
def covers (scope : String) (service : List Char) : Bool :=
  (Text.splitWhitespace scope.toList).any fun g => Text.eqIgnoreAsciiCase g service

/-- What follows the scheme of a Bearer token. -/
def stripBearer (header : List Char) : Option (List Char) :=
  if bearerPrefix.isPrefixOf header then some (header.drop bearerPrefix.length) else none

/-- What follows from the verification of a request's token. -/
def authorize (req : HttpRequest) : Except TokenError AccessTokenClaims → Checked
  | .ok claims =>
      if claims.cnf.isSome ∧ req.clientCert ≠ claims.cnf then
        .unauthorized "access token bound to a different certificate"
      else if req.service ≠ [] ∧ callbackSuffix.isSuffixOf req.service = false ∧
          covers claims.scope req.service = false then
        .unauthorized "access token scope does not authorize this service"
      else .next
  | .error .expired => .unauthorized "access token expired"
  | .error .wrongAudience => .unauthorized "access token audience mismatch"
  | .error .badSignature => .unauthorized "access token signature invalid"
  | .error .malformed => .unauthorized "malformed access token"

def requireToken (cfg : AuthConfig) (req : HttpRequest) (now : Nat) : Checked :=
  match req.authorization.bind stripBearer with
  | none => .unauthorized "missing Bearer access token"
  | some bearer => authorize req (cfg.verifier.verify J bearer cfg.nfType now)

/-- The header that carries a token. -/
def bearerAuth (token : List Char) : List Char := bearerPrefix ++ token

@[simp] theorem stripBearer_bearerAuth (token : List Char) :
    stripBearer (bearerAuth token) = some token := by
  have hprefix : bearerPrefix.isPrefixOf (bearerPrefix ++ token) = true := by simp
  rw [stripBearer, bearerAuth, if_pos hprefix, List.drop_left]

/-! ### Tokens that were minted -/

variable {J}

theorem Jose.Lawful.splitOn_jwt (hJ : J.Lawful) (header payload : List UInt8)
    (sig : List Char → List UInt8) :
    Text.splitOn '.' (jwt J header payload sig) =
      [J.encode header, J.encode payload,
        J.encode (sig (J.encode header ++ '.' :: J.encode payload))] := by
  rw [jwt, List.append_assoc, List.cons_append, Text.splitOn_append _ (hJ.dot_notMem header),
    Text.splitOn_append _ (hJ.dot_notMem payload), Text.splitOn_of_not_mem (hJ.dot_notMem _)]

theorem Jose.Lawful.readClaims (hJ : J.Lawful) (claims : AccessTokenClaims) (aud : String)
    (now : Nat) :
    readClaims J (J.encode (J.claimsToVec claims)) aud now = checkClaims claims aud now := by
  rw [Sbi.readClaims, hJ.decode_encode, Option.bind_some, hJ.claims]

theorem validate_mint (hJ : J.Lawful) (secret : List UInt8) (claims : AccessTokenClaims)
    (aud : String) (now : Nat) :
    validate J secret (mint J secret claims) aud now = checkClaims claims aud now := by
  rw [validate, mint, hJ.splitOn_jwt]
  simp only [hJ.decode_encode, hJ.readClaims, if_true]

theorem verifyingKey_publicJwk (hJ : J.Lawful) (key : Es256Key SigningKey) :
    (key.publicJwk J).verifyingKey J = some (J.verifyingKey key.signing) := by
  obtain ⟨hx, hy, hkey⟩ := hJ.point key.signing
  simp [Jwk.verifyingKey, Es256Key.publicJwk, hJ.decode_encode, hx, hy, ← hkey]

/-- Against the NRF's own keys a minted token is checked for expiry and audience. -/
theorem validateEs256_mint (hJ : J.Lawful) (key : Es256Key SigningKey) (claims : AccessTokenClaims)
    (aud : String) (now : Nat) :
    validateEs256 J (mintEs256 J key claims) aud (key.jwks J) now = checkClaims claims aud now := by
  have hkid : (key.publicJwk J).kid = key.kid := rfl
  obtain ⟨hform, hgood⟩ := hJ.signature key.signing
    (J.encode (J.headerToVec key.kid) ++ '.' :: J.encode (J.claimsToVec claims))
  rw [validateEs256, mintEs256, hJ.splitOn_jwt]
  simp only [hJ.decode_encode, Option.bind_some, hJ.kid, Es256Key.jwks, List.find?_cons, hkid,
    decide_true, Option.some_or, verifyingKey_publicJwk hJ, Option.filter_some, hform, hgood,
    hJ.readClaims, if_true]

/-- Against any keys it is checked so or its signature is found bad. -/
theorem validateEs256_mint_any (hJ : J.Lawful) (key : Es256Key SigningKey)
    (claims : AccessTokenClaims) (aud : String) (jwks : List Jwk) (now : Nat) :
    validateEs256 J (mintEs256 J key claims) aud jwks now = .error .badSignature ∨
      validateEs256 J (mintEs256 J key claims) aud jwks now = checkClaims claims aud now := by
  obtain ⟨hform, -⟩ := hJ.signature key.signing
    (J.encode (J.headerToVec key.kid) ++ '.' :: J.encode (J.claimsToVec claims))
  rw [validateEs256, mintEs256, hJ.splitOn_jwt]
  simp only [hJ.decode_encode, Option.bind_some, hJ.kid, Option.filter_some, hform, hJ.readClaims,
    if_true]
  split
  · exact .inl rfl
  · split
    · exact .inl rfl
    · split
      · exact .inr rfl
      · exact .inl rfl

/-- The verifier accepts what the signer signs: they share the secret, or the NRF serves its key. -/
def Trusts (J : Jose SigningKey VerifyingKey) : TokenVerifier → Signer SigningKey → Prop
  | .shared secret, .hs256 secret' => secret = secret'
  | .jwks _ served, .es256 key => served = some (key.jwks J)
  | _, _ => False

theorem verify_mint (hJ : J.Lawful) {verifier : TokenVerifier} {signer : Signer SigningKey}
    (htrusts : Trusts J verifier signer) (claims : AccessTokenClaims) (aud : String) (now : Nat) :
    verifier.verify J (signer.mint J claims) aud now = checkClaims claims aud now := by
  match verifier, signer, htrusts with
  | .shared secret, .hs256 _, rfl => exact validate_mint hJ secret claims aud now
  | .jwks cached _, .es256 key, rfl =>
    have hserved := validateEs256_mint hJ key claims aud now
    cases cached with
    | none =>
      simp only [TokenVerifier.verify, Signer.mint, Option.none_or, hserved]
      split <;> rfl
    | some jwks =>
      obtain hbad | hgood := validateEs256_mint_any hJ key claims aud jwks now
      · simp only [TokenVerifier.verify, Signer.mint, Option.some_or, hbad, hserved]
      · simp only [TokenVerifier.verify, Signer.mint, Option.some_or, hgood, hserved]
        split <;> rfl

/-- A minted token passes until it expires: for its audience, from the certificate it is bound to, and
at the services of its scope. -/
theorem requireToken_minted (hJ : J.Lawful) {cfg : AuthConfig} {signer : Signer SigningKey}
    (htrusts : Trusts J cfg.verifier signer) {claims : AccessTokenClaims} {req : HttpRequest}
    {now : Nat} (hbearer : req.authorization = some (bearerAuth (signer.mint J claims)))
    (haud : Text.eqIgnoreAsciiCase claims.aud.toList cfg.nfType.toList = true)
    (hcert : claims.cnf.isSome → req.clientCert = claims.cnf)
    (hscope : covers claims.scope req.service = true) (hexp : now < claims.exp) :
    requireToken J cfg req now = .next := by
  have hclaims : checkClaims claims cfg.nfType now = .ok claims := by
    simp [checkClaims, Nat.not_le.mpr hexp, haud]
  have hbound : ¬ (claims.cnf.isSome = true ∧ req.clientCert ≠ claims.cnf) := fun h =>
    h.2 (hcert h.1)
  simp [requireToken, authorize, hbearer, verify_mint hJ htrusts, hclaims, hbound, hscope]

/-! ### An instance

base64, JSON, UTF-8 and HMAC-SHA-256 as they are; of P-256 two keys and the signature of one token. -/

def cnfJson : Option String → List Char
  | none => "\x7d".toList
  | some x5t => putText ",\"cnf\":\x7b\"x5t#S256\":\"" x5t "\x7d\x7d".toList

def claimsJson (claims : AccessTokenClaims) : List Char :=
  putText "\x7b\"iss\":\"" claims.iss <| putText ",\"sub\":\"" claims.sub <|
    putText ",\"aud\":\"" claims.aud <| putText ",\"scope\":\"" claims.scope <|
    putNat ",\"iat\":" claims.iat <| putNat ",\"exp\":" claims.exp (cnfJson claims.cnf)

def claimsFromJson (cs : List Char) : Option AccessTokenClaims := do
  let (iss, cs) ← getText "\x7b\"iss\":\"" cs
  let (sub, cs) ← getText ",\"sub\":\"" cs
  let (aud, cs) ← getText ",\"aud\":\"" cs
  let (scope, cs) ← getText ",\"scope\":\"" cs
  let (iat, cs) ← getNat ",\"iat\":" cs
  let (exp, cs) ← getNat ",\"exp\":" cs
  let claims := { iss, sub, aud, scope, iat, exp, cnf := none }
  if cs = "\x7d".toList then return claims
  let (x5t, _) ← getText ",\"cnf\":\x7b\"x5t#S256\":\"" cs
  return { claims with cnf := some x5t }

theorem claimsFromJson_claimsJson (claims : AccessTokenClaims) :
    claimsFromJson (claimsJson claims) = some claims := by
  obtain ⟨iss, sub, aud, scope, iat, exp, cnf⟩ := claims
  have hexp := getNat_putNat ",\"exp\":" exp (cnfJson cnf) (by cases cnf <;> rfl)
  have hiat := getNat_putNat ",\"iat\":" iat (putNat ",\"exp\":" exp (cnfJson cnf)) rfl
  simp only [claimsFromJson, claimsJson, bind, getText_putText, hiat, hexp, Option.bind_some]
  cases cnf with
  | none => rfl
  | some x5t =>
    have hne : cnfJson (some x5t) ≠ "\x7d".toList := by simp [cnfJson, putText]
    rw [if_neg hne, cnfJson, getText_putText]
    rfl

def kidLead : String := "\x7b\"alg\":\"ES256\",\"typ\":\"JWT\",\"kid\":\""

/-- The keys with the scalars 4 and 5. -/
inductive SampleKey where
  | former | current
  deriving DecidableEq

def SampleKey.point : SampleKey → List UInt8 × List UInt8
  | .former =>
      (Octets.ofNat 32 102369864249653057322725350723741461599905180004905897298779971437827381725266,
        Octets.ofNat 32 101744491111635190512325668403432589740384530506764148840112137220732283181254)
  | .current =>
      (Octets.ofNat 32 36794669340896883012101473439538929759152396476648692591795318194054580155373,
        Octets.ofNat 32 101659946828913883886577915207667153874746613498030835602133042203824767462820)

def sampleKey : Es256Key SampleKey := { signing := .current, kid := "bf6e3480d3f05753" }

def udrClaims : AccessTokenClaims where
  iss := "radian-nrf"
  sub := "udm-1"
  aud := "UDR"
  scope := "nudr-dr"
  iat := 1000
  exp := 4600
  cnf := some "cert-udm"

/-- What the UDM's token for the UDR is a signature of. -/
def udrText : List Char :=
  b64Encode (utf8 (putText kidLead sampleKey.kid "\x7d".toList)) ++ '.' ::
    b64Encode (utf8 (claimsJson udrClaims))

def SampleKey.sign (key : SampleKey) (text : List Char) : List UInt8 :=
  if key = .current ∧ text = udrText then
    Octets.ofNat 32 99050867850119122610269396139616789047093378878274802754569083889188517217972 ++
      Octets.ofNat 32 59966147456979979743268276137419882269999475839759806866166589867652021809885
  else List.replicate 64 1

def sampleJose : Jose SampleKey SampleKey where
  encode := b64Encode
  decode := b64Decode
  claimsToVec claims := utf8 (claimsJson claims)
  claimsFromSlice bytes := (ofUtf8 bytes).bind claimsFromJson
  headerToVec kid := utf8 (putText kidLead kid "\x7d".toList)
  headerKid bytes := (ofUtf8 bytes).map fun cs => (getText kidLead cs).map Prod.fst
  hmacSha256 secret text := hmacSha256 secret (utf8 text)
  sign := SampleKey.sign
  verifyingKey key := key
  point := SampleKey.point
  fromSec1Bytes bytes := [.former, .current].find? fun key => bytes == 4 :: key.point.1 ++ key.point.2
  isSignature sig := sig.length == 64
  verify key text sig := sig == key.sign text

theorem sampleJose_lawful : sampleJose.Lawful where
  decode_encode := b64Decode_encode
  dot_notMem bytes := dot_notMem_spell _ _
  claims claims := by simp [sampleJose, ofUtf8_utf8, claimsFromJson_claimsJson]
  kid kid := by simp [sampleJose, ofUtf8_utf8]
  point key := by cases key <;> decide +kernel
  signature key text := by
    have hlength : (key.sign text).length = 64 := by
      unfold SampleKey.sign
      split <;> simp
    simp [sampleJose, hlength]

end Radian.Sbi
