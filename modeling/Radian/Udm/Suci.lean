import Radian.Octets.Bcd
import Radian.Udm.AuthData

/-!
# Concealed identities

A SUCI and the SUPI in it: the UE's concealment, the UDM's deconcealment, and the mobile identity of the
null scheme.

- `SuciCrypto` — the primitives under ECIES.
- `conceal`, `deconceal` — both ends of ECIES, and the text between them.
- `suciMobileIdentity` — the null scheme on NAS.
- `suci_round_trip` — the SUPI that was concealed comes out, by text, by NAS and by the null scheme.
-/

namespace Radian.Udm

open Nas (Suci digits hexLower suciCanonicalString suciToSupi)
open Security (Bytes)

/-! ### Text and digits -/

/-- `str::bytes`. -/
def bytesOf (cs : List Char) : Bytes := cs.flatMap String.utf8EncodeChar

/-- The values of the digits of a text. -/
def digitValues (cs : List Char) : Bytes := (bytesOf cs).map fun b => b - 0x30

def tbcdEncode (digits : List Char) : Bytes := Bcd.pack (digitValues digits)

/-- A filler drops out, and a nibble that is no digit reads as `9`. -/
def tbcdDecode (bytes : Bytes) : List Char :=
  ((Bcd.unpack bytes).filter (· ≠ Bcd.FILLER)).map fun nibble => Nat.digitChar (min nibble.toNat 9)

/-- Decimal digits only. -/
def Decimal (cs : List Char) : Prop := ∀ c ∈ cs, c.isDigit = true

instance (cs : List Char) : Decidable (Decimal cs) :=
  List.decidableBAll (fun c : Char => c.isDigit = true) cs

/-! ### Keys and primitives -/

inductive SuciError where
  | malformed
  | unknownScheme (scheme : List Char)
  | noKey (scheme : List Char) (keyId : UInt8)
  | badMac
  deriving DecidableEq, Repr

/-- The private keys of the home network, by protection scheme and key id. -/
structure HomeNetworkKeys where
  profileA : Keyed.Map UInt8 (Octets 32)
  profileB : Keyed.Map UInt8 (Octets 32)

/-- The primitives of the cryptographic libraries. -/
structure SuciCrypto where
  x25519Public : Octets 32 → Octets 32
  x25519 : (priv their : Octets 32) → Octets 32
  Scalar : Type
  Point : Type
  /-- `SecretKey::from_slice`, of a P-256 scalar. -/
  scalarOf : Octets 32 → Option Scalar
  pointOf : Scalar → Point
  /-- `PublicKey::from_sec1_bytes`, and the compressed form. -/
  pointFromSec1 : Bytes → Option Point
  toSec1 : Point → Octets 33
  p256 : Scalar → Point → Octets 32
  sha256 : Bytes → Octets 32
  hmacSha256 : (key data : Bytes) → Octets 32
  aes128Ctr : (key icb : Bytes) → Bytes → Bytes

/-- ECDH commutes, points are read back, and a key stream added twice cancels. -/
structure SuciCrypto.Lawful (C : SuciCrypto) : Prop where
  x25519_comm : ∀ a b, C.x25519 a (C.x25519Public b) = C.x25519 b (C.x25519Public a)
  p256_comm : ∀ a b, C.p256 a (C.pointOf b) = C.p256 b (C.pointOf a)
  pointFromSec1_toSec1 : ∀ p, C.pointFromSec1 (C.toSec1 p).val = some p
  aes128Ctr_aes128Ctr : ∀ key icb m, C.aes128Ctr key icb (C.aes128Ctr key icb m) = m

section

variable (C : SuciCrypto)

/-! ### ECIES -/

/-- What differs between the profiles: the length of an ephemeral public key, and ECDH with it. -/
structure EciesProfile where
  ephPubLen : Nat
  ecdh : Bytes → Except SuciError Bytes

def EciesProfile.a (privateKey : Octets 32) : EciesProfile where
  ephPubLen := 32
  ecdh ephPub :=
    match Octets.ofBytes? 32 ephPub with
    | none => .error .malformed
    | some their => .ok (C.x25519 privateKey their).val

def EciesProfile.b (privateKey : Octets 32) : EciesProfile where
  ephPubLen := 33
  ecdh ephPub :=
    match C.scalarOf privateKey with
    | none => .error .malformed
    | some secret =>
        match C.pointFromSec1 ephPub with
        | none => .error .malformed
        | some public_ => .ok (C.p256 secret public_).val

def MAC_LEN : Nat := 8

/-- The AES key, the initial counter block and the MAC key, out of two blocks of SHA-256. -/
def eciesKdf (z ephPub : Bytes) : Bytes × Bytes × Bytes :=
  let derived := [1, 2].flatMap fun counter => (C.sha256 (z ++ Octets.ofNat 4 counter ++ ephPub)).val
  (derived.take 16, (derived.drop 16).take 16, (derived.drop 32).take 32)

def hmacSha256_64 (key data : Bytes) : Bytes := (C.hmacSha256 key data).val.take MAC_LEN

/-- The octets under the MAC of a scheme output. -/
def decryptOctets (outputHex : List Char) (profile : EciesProfile) : Except SuciError Bytes :=
  match Amf.hexDecode outputHex with
  | none => .error .malformed
  | some bytes =>
      if bytes.length < profile.ephPubLen + MAC_LEN then .error .malformed
      else do
        let ephPub := bytes.take profile.ephPubLen
        let rest := bytes.drop profile.ephPubLen
        let ciphertext := rest.take (rest.length - MAC_LEN)
        let macTag := rest.drop (rest.length - MAC_LEN)
        let z ← profile.ecdh ephPub
        let (aesKey, icb, macKey) := eciesKdf C z ephPub
        if hmacSha256_64 C macKey ciphertext ≠ macTag then .error .badMac
        else return C.aes128Ctr aesKey icb ciphertext

def decryptEcies (outputHex : List Char) (profile : EciesProfile) : Except SuciError (List Char) :=
  (decryptOctets C outputHex profile).map tbcdDecode

/-! ### Deconcealment -/

/-- The fields of a SUCI that matter. -/
structure SuciFields where
  mcc : List Char
  mnc : List Char
  scheme : List Char
  keyId : UInt8
  output : List Char
  deriving DecidableEq, Repr

/-- `suci-0-<mcc>-<mnc>-<routingInd>-<scheme>-<keyId>-<schemeOutput>`. -/
def parseSuci (input : List Char) : Except SuciError SuciFields :=
  match Text.splitOn '-' input with
  | [_, ['0'], mcc, mnc, _, scheme, keyId, output] =>
      match Text.parseUnsigned 10 8 keyId with
      | none => .error .malformed
      | some keyId => .ok { mcc, mnc, scheme, keyId := UInt8.ofNat keyId, output }
  | _ => .error .malformed

/-- The profile of an ECIES scheme, with the private key under the key id. -/
def eciesProfile (keys : HomeNetworkKeys) (scheme : List Char) (keyId : UInt8) : Except SuciError EciesProfile :=
  if scheme = ['1'] then
    match keys.profileA.lookup keyId with
    | none => .error (.noKey ['A'] keyId)
    | some privKey => .ok (.a C privKey)
  else if scheme = ['2'] then
    match keys.profileB.lookup keyId with
    | none => .error (.noKey ['B'] keyId)
    | some privKey => .ok (.b C privKey)
  else .error (.unknownScheme scheme)

/-- The SUPI of a SUCI; what is no SUCI is a SUPI already. -/
def deconceal (keys : HomeNetworkKeys) (input : List Char) : Except SuciError (List Char) :=
  if "suci-".toList.isPrefixOf input = false then .ok input
  else do
    let f ← parseSuci input
    let msin ←
      if f.scheme = ['0'] then .ok f.output
      else (eciesProfile C keys f.scheme f.keyId).bind (decryptEcies C f.output)
    return "imsi-".toList ++ f.mcc ++ f.mnc ++ msin

/-! ### Concealment -/

/-- An ephemeral public key and the secret shared with the home network; `none` while no draw is a
scalar. -/
def ephemeral (scheme : List Char) (homeNetPublicKey : Bytes) (draws : List (Octets 32)) :
    Option (Except SuciError (Bytes × Bytes)) :=
  if scheme = ['1'] then
    draws.head?.map fun ephPriv =>
      match Octets.ofBytes? 32 homeNetPublicKey with
      | none => .error .malformed
      | some their => .ok ((C.x25519Public ephPriv).val, (C.x25519 ephPriv their).val)
  else if scheme = ['2'] then
    (draws.findSome? C.scalarOf).map fun ephSecret =>
      match C.pointFromSec1 homeNetPublicKey with
      | none => .error .malformed
      | some public_ => .ok ((C.toSec1 (C.pointOf ephSecret)).val, (C.p256 ephSecret public_).val)
  else some (.error (.unknownScheme scheme))

/-- Draws that end the search for an ephemeral key. -/
def enoughDraws (scheme : List Char) (draws : List (Octets 32)) : Bool :=
  if scheme = ['1'] then !draws.isEmpty else draws.any fun draw => (C.scalarOf draw).isSome

/-- `eph_pub ‖ ciphertext ‖ mac`. -/
def schemeOutput (ephPub z : Bytes) (msin : List Char) : Bytes :=
  let (aesKey, icb, macKey) := eciesKdf C z ephPub
  let ciphertext := C.aes128Ctr aesKey icb (tbcdEncode msin)
  ephPub ++ (ciphertext ++ hmacSha256_64 C macKey ciphertext)

/-- The SUCI that carries a scheme output. -/
def suciText (mcc mnc scheme : List Char) (keyId : UInt8) (output : Bytes) : List Char :=
  Text.join '-' ["suci".toList, ['0'], mcc, mnc, ['0'], scheme, Text.showNat 10 keyId.toNat, hexLower output]

/-- The UE's side, for the random scalars in `draws`. -/
def conceal (mcc mnc msin scheme : List Char) (keyId : UInt8) (homeNetPublicKey : Bytes)
    (draws : List (Octets 32)) : Option (Except SuciError (List Char)) :=
  (ephemeral C scheme homeNetPublicKey draws).map fun r =>
    r.map fun (ephPub, z) => suciText mcc mnc scheme keyId (schemeOutput C ephPub z msin)

/-- The public key of a private one; a Profile B scalar must be valid. -/
def publicKey (scheme : List Char) (privateKey : Octets 32) : Option Bytes :=
  if scheme = ['1'] then some (C.x25519Public privateKey).val
  else (C.scalarOf privateKey).map fun secret => (C.toSec1 (C.pointOf secret)).val

/-- The private key under a key id of an ECIES scheme. -/
def HomeNetworkKeys.privateKey (keys : HomeNetworkKeys) (scheme : List Char) (keyId : UInt8) :
    Option (Octets 32) :=
  if scheme = ['1'] then keys.profileA.lookup keyId else keys.profileB.lookup keyId

end

/-! ### The null scheme on NAS -/

/-- How the NAS library packs a PLMN and reads a mobile identity. -/
structure IdentityCodec where
  toTbcd : (mcc mnc : Bytes) → Bytes
  asSuci : Bytes → Option Suci

/-- The layout of a SUCI: type, PLMN, routing indicator, scheme, key id and scheme output. -/
def IdentityCodec.Lawful (N : IdentityCodec) : Prop :=
  ∀ mcc mnc : Bytes, mcc.length = 3 → mnc.length = 3 → Bcd.Digits mcc → Bcd.Digits (mnc.take 2) →
    (∀ d ∈ mnc.drop 2, d ≤ 9 ∨ d = Bcd.FILLER) →
      ∀ (r r' scheme keyId : UInt8) (output : Bytes), scheme < 16 →
        N.asSuci ([0x01] ++ N.toTbcd mcc mnc ++ [r, r', scheme, keyId] ++ output) =
          some { mcc, mnc, routingIndicator := [r, r'], protectionScheme := scheme,
                 homeNwPublicKeyId := keyId, schemeOutput := output }

/-- The octets of a country code; `none` is a panic on a shorter text. -/
def mccDigits (mcc : List Char) : Option Bytes :=
  match digitValues mcc with
  | a :: b :: c :: _ => some [a, b, c]
  | _ => none

/-- Those of a network code, with a filler behind two digits. -/
def mncDigits (mnc : List Char) : Option Bytes :=
  match digitValues mnc with
  | [a, b] => some [a, b, Bcd.FILLER]
  | a :: b :: c :: _ => some [a, b, c]
  | _ => none

/-- The mobile identity under the null scheme. -/
def suciMobileIdentity (N : IdentityCodec) (mcc mnc msin : List Char) : Option Bytes := do
  let mcc ← mccDigits mcc
  let mnc ← mncDigits mnc
  return [0x01] ++ N.toTbcd mcc mnc ++ [0x00, 0x00, 0x00, 0x00] ++ Bcd.pack (digitValues msin)

/-! ### Digits -/

/-- The ten digits. -/
theorem eq_digitChar {c : Char} (h : c.isDigit = true) : ∃ d < 10, c = Nat.digitChar d := by
  simp only [Char.isDigit, ge_iff_le, Bool.and_eq_true, decide_eq_true_eq] at h
  have hlo : 48 ≤ c.toNat := UInt32.le_iff_toNat_le.mp h.1
  have hhi : c.toNat ≤ 57 := UInt32.le_iff_toNat_le.mp h.2
  refine ⟨c.toNat - 48, by omega, ?_⟩
  rw [← Char.ofNat_toNat c]
  generalize c.toNat = n at hlo hhi
  interval_cases n <;> rfl

theorem digitValues_cons {d : Nat} (hd : d < 10) (cs : List Char) :
    digitValues (Nat.digitChar d :: cs) = UInt8.ofNat d :: digitValues cs := by
  have hbyte : String.utf8EncodeChar (Nat.digitChar d) = [UInt8.ofNat d + 0x30] := by
    interval_cases d <;> rfl
  rw [digitValues, bytesOf, List.flatMap_cons, hbyte]
  simp [digitValues, bytesOf]

/-- The values of decimal digits are digits, and print as these. -/
theorem digitValues_spec {cs : List Char} (h : Decimal cs) :
    Bcd.Digits (digitValues cs) ∧ (digitValues cs).map (fun d => Nat.digitChar d.toNat) = cs := by
  induction cs with
  | nil => exact ⟨by simp [Bcd.Digits, digitValues, bytesOf], rfl⟩
  | cons c cs ih =>
    obtain ⟨hdigits, hprint⟩ := ih fun c hc => h c (List.mem_cons_of_mem _ hc)
    obtain ⟨d, hd, rfl⟩ := eq_digitChar (h c List.mem_cons_self)
    have hval : (UInt8.ofNat d).toNat = d := UInt8.toNat_ofNat_of_lt' (by change d < 256; omega)
    rw [digitValues_cons hd]
    constructor
    · intro e he
      rcases List.mem_cons.mp he with rfl | he
      · rw [UInt8.le_iff_toNat_le, hval]
        change d ≤ 9
        omega
      · exact hdigits e he
    · rw [List.map_cons, hval, hprint]

theorem length_digitValues {cs : List Char} (h : Decimal cs) : (digitValues cs).length = cs.length := by
  have hprint := congrArg List.length (digitValues_spec h).2
  rwa [List.length_map] at hprint

/-- Packed digits are read back. -/
theorem tbcdDecode_tbcdEncode {cs : List Char} (h : Decimal cs) : tbcdDecode (tbcdEncode cs) = cs := by
  obtain ⟨hdigits, hprint⟩ := digitValues_spec h
  have hkeep : ∀ d ≤ (9 : UInt8), decide (d ≠ Bcd.FILLER) = true := by
    intro d hd
    rw [decide_eq_true_eq]
    rintro rfl
    exact absurd hd (by decide)
  rw [tbcdDecode, tbcdEncode, Bcd.filter_unpack_pack hdigits hkeep rfl]
  refine Eq.trans ?_ hprint
  apply List.map_congr_left
  intro d hd
  have hle : d.toNat ≤ 9 := UInt8.le_iff_toNat_le.mp (hdigits d hd)
  rw [Nat.min_eq_left hle]

/-- So they are by the AMF. -/
theorem digits_digitValues {cs : List Char} (h : Decimal cs) : digits (digitValues cs) = cs := by
  obtain ⟨hdigits, hprint⟩ := digitValues_spec h
  rw [digits, List.filter_eq_self.mpr fun d hd => decide_eq_true (hdigits d hd), hprint]

theorem digits_unpack_pack {cs : List Char} (h : Decimal cs) :
    digits (Bcd.unpack (Bcd.pack (digitValues cs))) = cs := by
  obtain ⟨hdigits, hprint⟩ := digitValues_spec h
  rw [digits, Bcd.filter_unpack_pack hdigits (fun d hd => decide_eq_true hd) rfl, hprint]

/-! ### The text is taken apart again -/

theorem dash_not_mem_hexLower (bytes : Bytes) : '-' ∉ hexLower bytes := by
  intro h
  obtain ⟨b, -, hb⟩ := List.mem_flatMap.mp h
  have hdigit : ∀ n < 16, '-' ≠ Nat.digitChar n := by decide
  have hlt := b.toNat_lt
  rcases List.mem_cons.mp hb with hhi | hb
  · exact hdigit _ (by omega) hhi
  · exact hdigit _ (by omega) (List.mem_singleton.mp hb)

theorem dash_not_mem_of_decimal {cs : List Char} (h : Decimal cs) : '-' ∉ cs := by
  intro hmem
  exact absurd (h '-' hmem) (by decide)

/-- A SUCI with decimal codes is read as the fields it was written from. -/
theorem parseSuci_join {mcc mnc routing scheme output : List Char} {keyId : UInt8} (hmcc : Decimal mcc)
    (hmnc : Decimal mnc) (hrouting : '-' ∉ routing) (hscheme : '-' ∉ scheme) (houtput : '-' ∉ output) :
    parseSuci (Text.join '-' ["suci".toList, ['0'], mcc, mnc, routing, scheme,
      Text.showNat 10 keyId.toNat, output]) = .ok { mcc, mnc, scheme, keyId, output } := by
  have hkey : '-' ∉ Text.showNat 10 keyId.toNat :=
    Text.not_mem_showNat (by omega) (by omega) (by simp [Text.digit, Option.filter])
  have hparts : ∀ part ∈ ["suci".toList, ['0'], mcc, mnc, routing, scheme,
      Text.showNat 10 keyId.toNat, output], '-' ∉ part := by
    simp only [List.mem_cons, List.not_mem_nil, or_false, forall_eq_or_imp, forall_eq]
    exact ⟨by decide, by decide, dash_not_mem_of_decimal hmcc, dash_not_mem_of_decimal hmnc, hrouting,
      hscheme, hkey, houtput⟩
  have hsplit := Text.splitOn_join (List.cons_ne_nil _ _) hparts
  have hread : Text.parseUnsigned 10 8 (Text.showNat 10 keyId.toNat) = some keyId.toNat :=
    Text.parseUnsigned_showNat (by omega) (by omega) keyId.toNat_lt
  rw [parseSuci, hsplit]
  simp only [hread, UInt8.ofNat_toNat]

/-- It begins like a SUCI. -/
theorem isPrefixOf_join (parts : List (List Char)) (hne : parts ≠ []) :
    "suci-".toList.isPrefixOf (Text.join '-' ("suci".toList :: parts)) = true := by
  rw [List.isPrefixOf_iff_prefix, Text.join]
  · exact ⟨Text.join '-' parts, by simp⟩
  · exact hne

/-! ### ECIES round trip -/

section RoundTrip

variable {C : SuciCrypto} {scheme : List Char} {msin : List Char}

/-- A profile that shares `z` with the holder of an ephemeral key reads a scheme output under it. -/
theorem decryptOctets_schemeOutput (hC : C.Lawful) {profile : EciesProfile} {ephPub z : Bytes}
    (hlen : ephPub.length = profile.ephPubLen) (hecdh : profile.ecdh ephPub = .ok z) (msin : List Char) :
    decryptOctets C (hexLower (schemeOutput C ephPub z msin)) profile = .ok (tbcdEncode msin) := by
  have hmac : ∀ key data, (hmacSha256_64 C key data).length = MAC_LEN := by
    intro key data
    rw [hmacSha256_64, List.length_take, (C.hmacSha256 key data).property]
    rfl
  rw [decryptOctets, hexDecode_hexLower, schemeOutput]
  simp only [List.length_append, hmac, hlen, List.take_left' hlen, List.drop_left' hlen]
  rw [if_neg (by omega), hecdh]
  simp [hC.aes128Ctr_aes128Ctr, bind, Except.bind, pure, Except.pure]

/-- Both ends share the secret under every key pair. -/
theorem ephemeral_shared (hC : C.Lawful) {keys : HomeNetworkKeys} {keyId : UInt8} {priv : Octets 32}
    {homePub : Bytes} {draws : List (Octets 32)} (hscheme : scheme = ['1'] ∨ scheme = ['2'])
    (hkey : keys.privateKey scheme keyId = some priv) (hpub : publicKey C scheme priv = some homePub)
    (hdraws : enoughDraws C scheme draws = true) :
    ∃ ephPub z profile, ephemeral C scheme homePub draws = some (.ok (ephPub, z)) ∧
      eciesProfile C keys scheme keyId = .ok profile ∧ ephPub.length = profile.ephPubLen ∧
      profile.ecdh ephPub = .ok z := by
  rcases hscheme with rfl | rfl
  · rw [HomeNetworkKeys.privateKey, if_pos rfl] at hkey
    rw [publicKey, if_pos rfl, Option.some_inj] at hpub
    subst hpub
    rw [enoughDraws, if_pos rfl, Bool.not_eq_true', List.isEmpty_eq_false_iff] at hdraws
    obtain ⟨ephPriv, rest, rfl⟩ := List.exists_cons_of_ne_nil hdraws
    refine ⟨(C.x25519Public ephPriv).val, (C.x25519 ephPriv (C.x25519Public priv)).val, .a C priv, ?_, ?_, ?_, ?_⟩
    · rw [ephemeral, if_pos rfl, List.head?_cons, Option.map_some, Octets.ofBytes?_val]
    · rw [eciesProfile, if_pos rfl, hkey]
    · exact (C.x25519Public ephPriv).property
    · simp only [EciesProfile.a, Octets.ofBytes?_val]
      rw [hC.x25519_comm]
  · have hne : ¬ (['2'] : List Char) = ['1'] := by decide
    rw [HomeNetworkKeys.privateKey, if_neg hne] at hkey
    rw [publicKey, if_neg hne, Option.map_eq_some_iff] at hpub
    obtain ⟨secret, hsecret, rfl⟩ := hpub
    rw [enoughDraws, if_neg hne, List.any_eq_true] at hdraws
    obtain ⟨ephSecret, hdraw⟩ := Option.isSome_iff_exists.mp (List.findSome?_isSome_iff.mpr hdraws)
    refine ⟨(C.toSec1 (C.pointOf ephSecret)).val, (C.p256 ephSecret (C.pointOf secret)).val, .b C priv, ?_, ?_,
      ?_, ?_⟩
    · rw [ephemeral, if_neg hne, if_pos rfl, hdraw, Option.map_some, hC.pointFromSec1_toSec1]
    · rw [eciesProfile, if_neg hne, if_pos rfl, hkey]
    · exact (C.toSec1 (C.pointOf ephSecret)).property
    · simp only [EciesProfile.b, hsecret, hC.pointFromSec1_toSec1]
      rw [hC.p256_comm]

/-- Every SUCI text with the fields of a concealed identity is deconcealed to it. -/
theorem deconceal_of_fields (hC : C.Lawful) {keys : HomeNetworkKeys} {keyId : UInt8} {ephPub z : Bytes}
    {profile : EciesProfile} {mcc mnc : List Char} {input : List Char} (hmsin : Decimal msin)
    (hstarts : "suci-".toList.isPrefixOf input = true) (hscheme : scheme ≠ ['0'])
    (hfields : parseSuci input = .ok { mcc, mnc, scheme, keyId, output := hexLower (schemeOutput C ephPub z msin) })
    (hprofile : eciesProfile C keys scheme keyId = .ok profile) (hlen : ephPub.length = profile.ephPubLen)
    (hecdh : profile.ecdh ephPub = .ok z) :
    deconceal C keys input = .ok ("imsi-".toList ++ mcc ++ mnc ++ msin) := by
  have hplain := decryptOctets_schemeOutput hC hlen hecdh msin
  rw [deconceal, if_neg (by rw [hstarts]; decide), hfields]
  simp only [bind, Except.bind, if_neg hscheme, hprofile, decryptEcies, hplain, Except.map,
    tbcdDecode_tbcdEncode hmsin]
  rfl

end RoundTrip

/-! ### The null scheme -/

theorem mccDigits_eq {mcc : List Char} (h : Decimal mcc) (hlen : mcc.length = 3) :
    mccDigits mcc = some (digitValues mcc) := by
  have hlength := length_digitValues h
  rw [hlen] at hlength
  rw [mccDigits]
  match hvalues : digitValues mcc, hlength with
  | [a, b, c], _ => rfl

/-- Two digits are filled up. -/
theorem mncDigits_eq {mnc : List Char} (h : Decimal mnc) (hlen : mnc.length = 2 ∨ mnc.length = 3) :
    mncDigits mnc = some (digitValues mnc ++ if mnc.length = 2 then [Bcd.FILLER] else []) := by
  have hlength := length_digitValues h
  rw [mncDigits]
  rcases hlen with hlen | hlen
  · rw [hlen] at hlength ⊢
    match hvalues : digitValues mnc, hlength with
    | [a, b], _ => rfl
  · rw [hlen] at hlength ⊢
    match hvalues : digitValues mnc, hlength with
    | [a, b, c], _ => rfl

/-- The filler is no digit. -/
theorem digits_mncDigits {mnc : List Char} (h : Decimal mnc) :
    digits (digitValues mnc ++ if mnc.length = 2 then [Bcd.FILLER] else []) = mnc := by
  have hvalues := digits_digitValues h
  rw [digits] at hvalues ⊢
  rw [List.filter_append, List.map_append, hvalues]
  split
  · rw [show [Bcd.FILLER].filter (· ≤ 9) = [] by decide, List.map_nil, List.append_nil]
  · simp

/-- The null scheme on NAS carries the SUPI. -/
theorem suciToSupi_suciMobileIdentity {N : IdentityCodec} (hN : N.Lawful) {mcc mnc msin : List Char}
    (hmcc : Decimal mcc) (hmccLen : mcc.length = 3) (hmnc : Decimal mnc)
    (hmncLen : mnc.length = 2 ∨ mnc.length = 3) (hmsin : Decimal msin) :
    ∃ identity suci, suciMobileIdentity N mcc mnc msin = some identity ∧ N.asSuci identity = some suci ∧
      (suciToSupi suci).toList = "imsi-".toList ++ mcc ++ mnc ++ msin := by
  have hmccDigits := (digitValues_spec hmcc).1
  have hmncDigits := (digitValues_spec hmnc).1
  have hlength := length_digitValues hmnc
  have hthree : (digitValues mnc ++ if mnc.length = 2 then [Bcd.FILLER] else []).length = 3 := by
    rcases hmncLen with hlen | hlen <;> simp [hlength, hlen]
  have htwo : Bcd.Digits ((digitValues mnc ++ if mnc.length = 2 then [Bcd.FILLER] else []).take 2) := by
    intro d hd
    rw [List.take_append_of_le_length (by omega)] at hd
    exact hmncDigits d (List.mem_of_mem_take hd)
  have hlast : ∀ d ∈ (digitValues mnc ++ if mnc.length = 2 then [Bcd.FILLER] else []).drop 2,
      d ≤ 9 ∨ d = Bcd.FILLER := by
    intro d hd
    rcases List.mem_append.mp (List.mem_of_mem_drop hd) with hd | hd
    · exact Or.inl (hmncDigits d hd)
    · split at hd
      · exact Or.inr (List.mem_singleton.mp hd)
      · exact absurd hd List.not_mem_nil
  have hread := hN _ _ (by rw [length_digitValues hmcc, hmccLen]) hthree hmccDigits htwo hlast
    0 0 0 0 (Bcd.pack (digitValues msin)) (by decide)
  refine ⟨_, _, ?_, hread, ?_⟩
  · rw [suciMobileIdentity, mccDigits_eq hmcc hmccLen, mncDigits_eq hmnc hmncLen]
    rfl
  · have hmsinDigits := digits_unpack_pack hmsin
    have hmccText := digits_digitValues hmcc
    have hmncText := digits_mncDigits hmnc
    rw [Bcd.unpack] at hmsinDigits
    have hcodes : digits (digitValues mcc ++ (digitValues mnc ++ if mnc.length = 2 then [Bcd.FILLER] else [])) =
        mcc ++ mnc := by
      rw [digits] at hmccText hmncText ⊢
      rw [List.filter_append, List.map_append, hmccText, hmncText]
    rw [suciToSupi, if_neg (by simp), String.toList_ofList, hcodes, hmsinDigits]
    simp

/-! ### The round trip -/

/-- What a UE conceals for a home network is what the home network deconceals, whether the text travels or
a NAS SUCI that is rendered; and the null scheme on NAS carries the same SUPI. -/
theorem suci_round_trip {C : SuciCrypto} (hC : C.Lawful) {N : IdentityCodec} (hN : N.Lawful)
    {mcc mnc msin : List Char} (hmcc : Decimal mcc) (hmccLen : mcc.length = 3) (hmnc : Decimal mnc)
    (hmncLen : mnc.length = 2 ∨ mnc.length = 3) (hmsin : Decimal msin) :
    (∀ (scheme keyId : UInt8) (keys : HomeNetworkKeys) (priv : Octets 32) (homePub : Bytes)
      (draws : List (Octets 32)), scheme = 1 ∨ scheme = 2 →
      keys.privateKey (Text.showNat 10 scheme.toNat) keyId = some priv →
      publicKey C (Text.showNat 10 scheme.toNat) priv = some homePub →
      enoughDraws C (Text.showNat 10 scheme.toNat) draws = true →
        ∃ output, conceal C mcc mnc msin (Text.showNat 10 scheme.toNat) keyId homePub draws =
            some (.ok (suciText mcc mnc (Text.showNat 10 scheme.toNat) keyId output)) ∧
          deconceal C keys (suciText mcc mnc (Text.showNat 10 scheme.toNat) keyId output) =
            .ok ("imsi-".toList ++ mcc ++ mnc ++ msin) ∧
          ∀ suci : Suci, mccDigits mcc = some suci.mcc → mncDigits mnc = some suci.mnc →
            suci.protectionScheme = scheme → suci.homeNwPublicKeyId = keyId → suci.schemeOutput = output →
              deconceal C keys (suciCanonicalString suci).toList =
                .ok ("imsi-".toList ++ mcc ++ mnc ++ msin)) ∧
    ∃ identity suci, suciMobileIdentity N mcc mnc msin = some identity ∧ N.asSuci identity = some suci ∧
      (suciToSupi suci).toList = "imsi-".toList ++ mcc ++ mnc ++ msin := by
  refine ⟨?_, suciToSupi_suciMobileIdentity hN hmcc hmccLen hmnc hmncLen hmsin⟩
  intro scheme keyId keys priv homePub draws hscheme hkey hpub hdraws
  have htext : Text.showNat 10 scheme.toNat = ['1'] ∨ Text.showNat 10 scheme.toNat = ['2'] := by
    rcases hscheme with rfl | rfl
    · exact Or.inl rfl
    · exact Or.inr rfl
  have hnull : Text.showNat 10 scheme.toNat ≠ ['0'] := by
    rcases htext with h | h <;> rw [h] <;> decide
  have hdash : '-' ∉ Text.showNat 10 scheme.toNat := by
    rcases htext with h | h <;> rw [h] <;> decide
  obtain ⟨ephPub, z, profile, heph, hprofile, hlen, hecdh⟩ := ephemeral_shared hC htext hkey hpub hdraws
  have hread : ∀ {routing : List Char}, '-' ∉ routing →
      deconceal C keys (Text.join '-' ["suci".toList, ['0'], mcc, mnc, routing,
        Text.showNat 10 scheme.toNat, Text.showNat 10 keyId.toNat, hexLower (schemeOutput C ephPub z msin)]) =
        .ok ("imsi-".toList ++ mcc ++ mnc ++ msin) := by
    intro routing hrouting
    exact deconceal_of_fields hC hmsin (isPrefixOf_join _ (List.cons_ne_nil _ _)) hnull
      (parseSuci_join hmcc hmnc hrouting hdash (dash_not_mem_hexLower _)) hprofile hlen hecdh
  refine ⟨schemeOutput C ephPub z msin, ?_, hread (by decide), ?_⟩
  · rw [conceal, heph]
    rfl
  · intro suci hsuciMcc hsuciMnc hsuciScheme hsuciKey hsuciOutput
    rw [mccDigits_eq hmcc hmccLen, Option.some_inj] at hsuciMcc
    rw [mncDigits_eq hmnc hmncLen, Option.some_inj] at hsuciMnc
    rw [suciCanonicalString, String.toList_ofList, ← hsuciMcc, ← hsuciMnc, digits_digitValues hmcc,
      digits_mncDigits hmnc, hsuciScheme, hsuciKey, hsuciOutput]
    exact hread (dash_not_mem_hexLower _)

/-! #### A sample -/

def sampleOctets (v : Nat) : Octets 32 := ⟨Octets.ofNat 32 v, Octets.length_ofNat 32 v⟩

/-- The public key of the zero key, and the secret that it shares with itself. -/
def samplePublic : Octets 32 :=
  sampleOctets 0x2fe57da347cd62431528daac5fbb290730fff684afc4cfc2ed90995f58cb3b74

def sampleShared : Octets 32 :=
  sampleOctets 0x93fea2a7c1aeb62cfd6452ff5badae8bdffcbd7196dc910c89944006d85dbb68

/-- The primitives of Profile A, on the zero key and two identities of five octets. -/
def sampleCrypto : SuciCrypto where
  x25519Public a := a.xor samplePublic
  x25519 a b := (a.xor (b.xor samplePublic)).xor sampleShared
  Scalar := Octets 32
  Point := Octets 32
  scalarOf := some
  pointOf a := a
  pointFromSec1 bs := Octets.ofBytes? 32 (bs.drop 1)
  toSec1 p := ⟨0x02 :: p.val, by rw [List.length_cons, p.property]⟩
  p256 a b := a.xor b
  sha256 bs := sampleOctets
    (if bs[35]? = some 1 then 0x9023021f32384f051ec991f7ccca6e20868ace468bdba8219fee74daea64ad00
    else 0x70bd1a0b8e00f4b40015883fdb7fcda9ccf7848e5f6b7650668d26869631e44e)
  hmacSha256 _ data := sampleOctets
    (if data = [0x4a, 0x3a, 0xcc, 0x95, 0x8b] then
      0x702a2119467a50c31655be476c6e6aa4380c1c08cf0bd2e625ce0ec951c15b0d
    else 0xae135e0382f803df65a4aa72e04c836f569d1e995fa630c9ae2df246e4580da3)
  aes128Ctr _ _ m := Security.addStream (Octets.ofNat 16 0x6b79a91272c461acd8da5eceb79be4cf) m

theorem xor_comm_octets (a b : Octets 32) : a.xor b = b.xor a :=
  Subtype.ext (List.zipWith_comm_of_comm fun x y => UInt8.xor_comm x y)

theorem sampleCrypto_lawful : sampleCrypto.Lawful where
  x25519_comm a b := by
    simp only [sampleCrypto, Octets.xor_xor]
    rw [xor_comm_octets a b]
  p256_comm := xor_comm_octets
  pointFromSec1_toSec1 p := Octets.ofBytes?_val p
  aes128Ctr_aes128Ctr _ _ m := Security.addStream_addStream _ m

/-- A SUCI read octet by octet. -/
def sampleCodec : IdentityCodec where
  toTbcd mcc mnc :=
    match mcc, mnc with
    | [a, b, c], [d, e, f] => [a ||| b <<< 4, c ||| f <<< 4, d ||| e <<< 4]
    | _, _ => []
  asSuci
    | t :: p :: q :: s :: r :: r' :: scheme :: keyId :: output =>
        if t &&& 0x07 ≠ 1 then none
        else some
          { mcc := [p &&& 0x0F, p >>> 4, q &&& 0x0F], mnc := [s &&& 0x0F, s >>> 4, q >>> 4]
            routingIndicator := [r, r'], protectionScheme := scheme &&& 0x0F, homeNwPublicKeyId := keyId
            schemeOutput := output }
    | _ => none

theorem sampleCodec_lawful : sampleCodec.Lawful := by
  intro mcc mnc hmccLen hmncLen hmcc htwo hlast r r' scheme keyId output hscheme
  match mcc, mnc, hmccLen, hmncLen with
  | [a, b, c], [d, e, f], _, _ =>
    have hf : f < 16 := by
      rcases hlast f (by simp) with hf | rfl
      · exact Bcd.lt_of_le_nine hf
      · decide
    obtain ⟨ha, hb⟩ := Bcd.nibbles_of_lt (Bcd.lt_of_le_nine (hmcc a (by simp)))
      (Bcd.lt_of_le_nine (hmcc b (by simp)))
    obtain ⟨hc, hf'⟩ := Bcd.nibbles_of_lt (Bcd.lt_of_le_nine (hmcc c (by simp))) hf
    obtain ⟨hd, he⟩ := Bcd.nibbles_of_lt (Bcd.lt_of_le_nine (htwo d (by simp)))
      (Bcd.lt_of_le_nine (htwo e (by simp)))
    have hlow : scheme &&& 0x0F = scheme := by
      have key : ∀ n < 16, UInt8.ofNat n &&& 0x0F = UInt8.ofNat n := by decide
      simpa using key scheme.toNat hscheme
    have htype : (0x01 : UInt8) &&& 0x07 = 1 := rfl
    simp [sampleCodec, ha, hb, hc, hd, he, hf', hlow, htype]

/-- A SUPI of odd length in a network with a two-digit code, under Profile A. -/
theorem suci_round_trip_sample : ∃ suci,
    conceal sampleCrypto "999".toList "70".toList "123456789".toList ['1'] 7 samplePublic.val
        [Octets.zero 32] = some (.ok suci) ∧
      deconceal sampleCrypto ⟨(∅ : Keyed.Map UInt8 (Octets 32)).insert 7 (Octets.zero 32), ∅⟩ suci =
        .ok "imsi-99970123456789".toList := by
  obtain ⟨output, hconceal, hdeconceal, -⟩ := (suci_round_trip sampleCrypto_lawful sampleCodec_lawful
    (show Decimal "999".toList by decide) rfl (show Decimal "70".toList by decide) (Or.inl rfl)
    (show Decimal "123456789".toList by decide)).1 1 7
    ⟨(∅ : Keyed.Map UInt8 (Octets 32)).insert 7 (Octets.zero 32), ∅⟩ (Octets.zero 32) samplePublic.val
    [Octets.zero 32] (Or.inl rfl) rfl (by decide +kernel) rfl
  exact ⟨_, hconceal, hdeconceal⟩

end Radian.Udm
