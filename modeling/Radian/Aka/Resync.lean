import Radian.Octets.Basic

/-!
# Authentication and key agreement

The vectors the home network generates for a subscriber, and the token by which a USIM whose
sequence number is ahead hands that number over.

- `generate5gHeAv` — an authentication vector.
- `computeAuts`, `sqnMsFromAuts` — the token, as the USIM builds it and as the network reads it.
- `sqnMsFromAuts_computeAuts` — the network reads the number the USIM put in.
- `Kdf`, `kseaf`, `kamf`, `nasKeys` — the chain of keys.
- `ueComputeResStar`, `ueAuthenticate` — the UE's answer.
- `ueAuthenticate_generate5gHeAv` — the UE makes of a vector what the network made of it.
-/

namespace Radian.Aka

abbrev Sqn : Type := Octets 6
abbrev Rand : Type := Octets 16
abbrev Auts : Type := Octets 14

/-- Long-term subscriber credentials. -/
structure SubscriberKey where
  k : Octets 16
  opc : Octets 16
  amf : Octets 2
  deriving DecidableEq

structure AuthVector where
  rand : Rand
  autn : Octets 16
  xresStar : Octets 16
  kausf : Octets 32
  deriving DecidableEq

/-- The MILENAGE functions under `k` and `opc`, and the key derivation of the security library. -/
structure Milenage where
  f1 : (k opc : Octets 16) → Rand → Sqn → Octets 2 → Octets 8
  f1star : (k opc : Octets 16) → Rand → Sqn → Octets 2 → Octets 8
  f2345 : (k opc : Octets 16) → Rand → Octets 8 × Octets 16 × Octets 16 × Octets 6
  f5star : (k opc : Octets 16) → Rand → Octets 6
  computeResStar : (k opc : Octets 16) → (mcc mnc : String) → Rand → Octets 8 → Option (Octets 16)
  deriveKausf : (ck ik : Octets 16) → (snn : String) → Octets 6 → UInt8 → Octets 32

def KAUSF_FC : UInt8 := 0x6A

/-- The AKA AMF field of a resynchronisation. -/
def RESYNC_AMF : Octets 2 := Octets.zero 2

def servingNetworkName (mcc mnc : String) : String :=
  let mnc3 := if mnc.utf8ByteSize = 2 then "0" ++ mnc else mnc
  "5G:mnc" ++ mnc3 ++ ".mcc" ++ mcc ++ ".3gppnetwork.org"

def assembleAutn (sqn ak : Octets 6) (amf : Octets 2) (macA : Octets 8) : Octets 16 :=
  ⟨(sqn.xor ak).val ++ amf.val ++ macA.val, by
    rw [List.length_append, List.length_append, (sqn.xor ak).property, amf.property, macA.property]⟩

variable (M : Milenage)

def generate5gHeAv (sub : SubscriberKey) (sqn : Sqn) (rand : Rand) (mcc mnc : String) :
    Option AuthVector := do
  let macA := M.f1 sub.k sub.opc rand sqn sub.amf
  let (res, ck, ik, ak) := M.f2345 sub.k sub.opc rand
  let autn := assembleAutn sqn ak sub.amf macA
  let xresStar ← M.computeResStar sub.k sub.opc mcc mnc rand res
  let snn := servingNetworkName mcc mnc
  let kausf := M.deriveKausf ck ik snn (sqn.xor ak) KAUSF_FC
  return { rand, autn, xresStar, kausf }

/-! ### Resynchronisation -/

/-- The USIM's number, concealed, and its MAC-S. -/
def computeAuts (sub : SubscriberKey) (rand : Rand) (sqnMs : Sqn) : Auts :=
  let macS := M.f1star sub.k sub.opc rand sqnMs RESYNC_AMF
  let akStar := M.f5star sub.k sub.opc rand
  ⟨(sqnMs.xor akStar).val ++ macS.val, by
    rw [List.length_append, (sqnMs.xor akStar).property, macS.property]⟩

/-- The number in a token, when its MAC-S verifies against the challenge. -/
def sqnMsFromAuts (sub : SubscriberKey) (rand : Rand) (auts : Auts) : Option Sqn :=
  let akStar := M.f5star sub.k sub.opc rand
  let head : Octets 6 := ⟨auts.val.take 6, by rw [List.length_take, auts.property]; rfl⟩
  let sqnMs := head.xor akStar
  let macS := M.f1star sub.k sub.opc rand sqnMs RESYNC_AMF
  if macS.val = auts.val.drop 6 then some sqnMs else none

/-- The network reads the number the USIM put in. -/
theorem sqnMsFromAuts_computeAuts (sub : SubscriberKey) (rand : Rand) (sqnMs : Sqn) :
    sqnMsFromAuts M sub rand (computeAuts M sub rand sqnMs) = some sqnMs := by
  have hlength := (sqnMs.xor (M.f5star sub.k sub.opc rand)).property
  have hhead : (computeAuts M sub rand sqnMs).val.take 6 =
      (sqnMs.xor (M.f5star sub.k sub.opc rand)).val := List.take_left' hlength
  have htail : (computeAuts M sub rand sqnMs).val.drop 6 =
      (M.f1star sub.k sub.opc rand sqnMs RESYNC_AMF).val := List.drop_left' hlength
  simp only [sqnMsFromAuts, hhead, htail, Subtype.coe_eta, Octets.xor_xor, if_true]

end Radian.Aka

/-! ### The challenge and the keys -/

namespace Radian.Aka

/-! ### The chain of keys -/

/-- The key derivation functions of the security library. -/
structure Kdf where
  computeHresStar : Rand → Octets 16 → Octets 16
  deriveKseaf : Octets 32 → (snn : String) → Octets 32
  deriveKamf : Octets 32 → (supi : String) → (abba : List UInt8) → Octets 32
  deriveNasKey : Octets 32 → (algType alg : UInt8) → Octets 32
  extract128 : Octets 32 → Octets 16
  deriveKgnb : Octets 32 → BitVec 32 → Octets 32

variable (K : Kdf) (M : Milenage)

/-- HXRES*, from the XRES* of a challenge. -/
def hxresStar (rand : Rand) (xresStar : Octets 16) : Octets 16 := K.computeHresStar rand xresStar

def kseaf (kausf : Octets 32) (mcc mnc : String) : Octets 32 :=
  K.deriveKseaf kausf (servingNetworkName mcc mnc)

/-- A SUPI without its type. -/
def supiDigits (supi : String) : String :=
  if "imsi-".toList.isPrefixOf supi.toList then String.ofList (supi.toList.drop "imsi-".length) else supi

def kamf (kseaf : Octets 32) (supi : String) (abba : List UInt8) : Octets 32 :=
  K.deriveKamf kseaf (supiDigits supi) abba

structure NasKeys where
  knasInt : Octets 16
  knasEnc : Octets 16
  deriving DecidableEq

def nasKeys (kamf : Octets 32) (nea nia : UInt8) : NasKeys where
  knasEnc := K.extract128 (K.deriveNasKey kamf 0x01 nea)
  knasInt := K.extract128 (K.deriveNasKey kamf 0x02 nia)

/-! ### The UE -/

/-- The concealed sequence number of an AUTN. -/
def sqnXorAk (autn : Octets 16) : Octets 6 :=
  ⟨autn.val.take 6, by rw [List.length_take, autn.property]; rfl⟩

def autnAmf (autn : Octets 16) : Octets 2 :=
  ⟨(autn.val.drop 6).take 2, by rw [List.length_take, List.length_drop, autn.property]; rfl⟩

/-- RES*, when the MAC-A of the AUTN verifies. -/
def ueComputeResStar (sub : SubscriberKey) (rand : Rand) (autn : Octets 16) (mcc mnc : String) :
    Option (Octets 16) :=
  let (res, _, _, ak) := M.f2345 sub.k sub.opc rand
  let sqn := (sqnXorAk autn).xor ak
  let macA := M.f1 sub.k sub.opc rand sqn (autnAmf autn)
  if macA.val ≠ autn.val.drop 8 then none else M.computeResStar sub.k sub.opc mcc mnc rand res

/-- RES* and K_AUSF. -/
def ueAuthenticate (sub : SubscriberKey) (rand : Rand) (autn : Octets 16) (mcc mnc : String) :
    Option (Octets 16 × Octets 32) := do
  let resStar ← ueComputeResStar M sub rand autn mcc mnc
  -- the vector again, from the sequence number that the network used
  let (_, _, _, ak) := M.f2345 sub.k sub.opc rand
  let sqn := (sqnXorAk autn).xor ak
  let av ← generate5gHeAv M sub sqn rand mcc mnc
  return (resStar, av.kausf)

/-! ### The UE and the network -/

variable {M}

@[simp] theorem sqnXorAk_assembleAutn (sqn ak : Octets 6) (amf : Octets 2) (macA : Octets 8) :
    sqnXorAk (assembleAutn sqn ak amf macA) = sqn.xor ak := by
  apply Subtype.ext
  dsimp only [sqnXorAk, assembleAutn]
  rw [List.append_assoc, List.take_left' (sqn.xor ak).property]

@[simp] theorem autnAmf_assembleAutn (sqn ak : Octets 6) (amf : Octets 2) (macA : Octets 8) :
    autnAmf (assembleAutn sqn ak amf macA) = amf := by
  apply Subtype.ext
  dsimp only [autnAmf, assembleAutn]
  rw [List.append_assoc, List.drop_left' (sqn.xor ak).property, List.take_left' amf.property]

@[simp] theorem drop_assembleAutn (sqn ak : Octets 6) (amf : Octets 2) (macA : Octets 8) :
    (assembleAutn sqn ak amf macA).val.drop 8 = macA.val := by
  dsimp only [assembleAutn]
  rw [List.drop_left']
  rw [List.length_append, (sqn.xor ak).property, amf.property]

/-- What a vector is made of. -/
theorem generate5gHeAv_eq_some {sub : SubscriberKey} {sqn : Sqn} {rand : Rand} {mcc mnc : String}
    {av : AuthVector} (h : generate5gHeAv M sub sqn rand mcc mnc = some av) :
    M.computeResStar sub.k sub.opc mcc mnc rand (M.f2345 sub.k sub.opc rand).1 = some av.xresStar ∧
      av.rand = rand ∧
      av.autn = assembleAutn sqn (M.f2345 sub.k sub.opc rand).2.2.2 sub.amf
        (M.f1 sub.k sub.opc rand sqn sub.amf) := by
  simp only [generate5gHeAv, Option.bind_eq_bind, Option.bind_eq_some_iff] at h
  obtain ⟨xresStar, hxres, h⟩ := h
  cases h
  exact ⟨hxres, rfl, rfl⟩

/-- RES* is computed from the serving network name, by `star`. -/
def Milenage.NamedBy (M : Milenage)
    (star : (k opc : Octets 16) → (snn : String) → Rand → Octets 8 → Option (Octets 16)) : Prop :=
  ∀ k opc mcc mnc rand res,
    M.computeResStar k opc mcc mnc rand res = star k opc (servingNetworkName mcc mnc) rand res

variable {star : (k opc : Octets 16) → (snn : String) → Rand → Octets 8 → Option (Octets 16)}

/-- A vector depends on the network by its name only. -/
theorem generate5gHeAv_congr (hM : M.NamedBy star) {mcc mnc mcc' mnc' : String}
    (hsnn : servingNetworkName mcc mnc = servingNetworkName mcc' mnc') (sub : SubscriberKey) (sqn : Sqn)
    (rand : Rand) : generate5gHeAv M sub sqn rand mcc mnc = generate5gHeAv M sub sqn rand mcc' mnc' := by
  simp only [generate5gHeAv, hM _ _ mcc mnc, hM _ _ mcc' mnc', hsnn]

/-- **Agreement.** The UE makes of a vector what the network made of it, whatever digits the network knows
the UE's network by. -/
theorem ueAuthenticate_generate5gHeAv (hM : M.NamedBy star) {mcc mnc mcc' mnc' : String}
    (hsnn : servingNetworkName mcc' mnc' = servingNetworkName mcc mnc) {sub : SubscriberKey} {sqn : Sqn}
    {rand : Rand} {av : AuthVector} (h : generate5gHeAv M sub sqn rand mcc' mnc' = some av) :
    ueAuthenticate M sub rand av.autn mcc mnc = some (av.xresStar, av.kausf) := by
  rw [generate5gHeAv_congr hM hsnn] at h
  obtain ⟨hxres, -, hautn⟩ := generate5gHeAv_eq_some h
  have hresStar : ueComputeResStar M sub rand av.autn mcc mnc = some av.xresStar := by
    simp only [ueComputeResStar, hautn, sqnXorAk_assembleAutn, autnAmf_assembleAutn, drop_assembleAutn,
      Octets.xor_xor, ne_eq, not_true_eq_false, if_false]
    exact hxres
  have hsqn : (sqnXorAk av.autn).xor (M.f2345 sub.k sub.opc rand).2.2.2 = sqn := by
    rw [hautn, sqnXorAk_assembleAutn, Octets.xor_xor]
  simp only [ueAuthenticate, hresStar, hsqn, h, Option.bind_eq_bind, Option.bind_some]
  rfl

end Radian.Aka
