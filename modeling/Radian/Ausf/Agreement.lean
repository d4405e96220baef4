import Radian.Ausf.Confirmation
import Radian.Amf.Guarded

/-!
# Agreement on the keys

One authentication across the UE, the AMF, the AUSF, the UDM and the UDR.

- `ofKdf`, `confirming` — the AMF with the same key derivation, and with an AUSF at the other end.
- `finish_accepts`, `establishSecurity_keys` — the AMF's verdict, and the keys it takes into use.
- `Agreed`, `aka_agrees` — both sides have the same keys, and when a context is of single use.
- `used_twice` — one that is not.
-/

open Keyed (Map)

namespace Radian.Ausf

open Aka (Kdf Milenage Rand SubscriberKey servingNetworkName)
open Amf (ABBA AmfAuth.challenge AmfAuth.finish AmfUeId Association Call Functions Mark PendingAuth
  Tables UeAuthenticationCtx establishSecurity hexEncode)
open Subscribers (InMemory)

/-! ### The AMF -/

/-- The AMF's key derivation, over slices. -/
def ofKdf (K : Kdf) : Amf.Aka where
  servingNetworkName := servingNetworkName
  hxresStar rand resStar :=
    match Octets.ofBytes? 16 rand, Octets.ofBytes? 16 resStar with
    | some rand, some resStar => (Aka.hxresStar K rand resStar).val
    | _, _ => []
  kamf kseaf supi abba :=
    match Octets.ofBytes? 32 kseaf with
    | some kseaf => (Aka.kamf K kseaf supi abba).val
    | none => []
  nasKeys kamf nea nia :=
    match Octets.ofBytes? 32 kamf with
    | some kamf => ((Aka.nasKeys K kamf nea nia).knasInt.val, (Aka.nasKeys K kamf nea nia).knasEnc.val)
    | none => ([], [])
  kgnb kamf count :=
    match Octets.ofBytes? 32 kamf with
    | some kamf => (K.deriveKgnb kamf count).val
    | none => []

/-- The AMF with an AUSF at the other end, whose answers arrive. -/
def confirming (K : Kdf) : Outside Association Tables Mark Call Call.Answer AusfState where
  answers e ctxs :=
    match e with
    | .confirm _ ctxId resStar => fun r => decide (r = (confirm K ctxId resStar ctxs).1.toOption)
    | _ => fun _ => true
  effect e _ ctxs :=
    match e with
    | .confirm _ ctxId resStar => (confirm K ctxId resStar ctxs).2
    | _ => ctxs
  mark _ _ _ ctxs := ctxs

@[simp] theorem confirming_mark (K : Kdf) (n : Mark) (l : Association) (t : Tables) (ctxs : AusfState) :
    (confirming K).mark n l t ctxs = ctxs := rfl

variable {K : Kdf} {M : Milenage} {F : Functions}

/-- The AMF accepts the RES* that its AUSF expects. -/
theorem finish_accepts (hF : F.aka = ofKdf K) {oracle : (e : Call) → AusfState → e.Answer}
    (horacle : ∀ e w, (confirming K).answers e w (oracle e w) = true) {ctxs : AusfState} (ctx : AuthCtx)
    (pending : PendingAuth) (hctx : ctxs.lookup pending.ctxId = some ctx) {rand : Rand}
    (hrand : pending.rand = rand.val) (hhxres : pending.hxres = (Aka.hxresStar K rand ctx.xresStar).val)
    (amfUeId : AmfUeId) (l : Association) (t : Tables) :
    (Proc.play (confirming K) oracle (AmfAuth.finish F amfUeId pending ctx.xresStar.val) l t ctxs).1 =
      some
        { success := true
          kseaf := some (hexEncode (Aka.kseaf K ctx.kausf ctx.mcc ctx.mnc).val)
          supi := some ctx.supi } := by
  have hhres : F.aka.hxresStar pending.rand ctx.xresStar.val = pending.hxres := by
    rw [hF, hrand, hhxres]
    simp only [ofKdf, Octets.ofBytes?_val]
  have hanswer := horacle (.confirm pending.ausfBase pending.ctxId (hexEncode ctx.xresStar.val)) ctxs
  have hconfirm : (confirm K pending.ctxId (hexEncode ctx.xresStar.val) ctxs).1 =
      .ok
        { authResult := "AUTHENTICATION_SUCCESS", supi := some ctx.supi
          kseaf := some (hexEncode (Aka.kseaf K ctx.kausf ctx.mcc ctx.mnc).val) } := by
    simp only [confirm, parseOctets_hexEncode, hctx, if_true]
  have hsays : oracle (.confirm pending.ausfBase pending.ctxId (hexEncode ctx.xresStar.val)) ctxs =
      some
        { authResult := "AUTHENTICATION_SUCCESS", supi := some ctx.supi
          kseaf := some (hexEncode (Aka.kseaf K ctx.kausf ctx.mcc ctx.mnc).val) } := by
    rw [of_decide_eq_true hanswer, hconfirm]
    rfl
  unfold AmfAuth.finish
  rw [if_neg (by simp [ctx.xresStar.property]), if_neg (by simp [hhres])]
  simp only [Amf.callFor, Proc.mark, Proc.ask, bind, Proc.bind, Proc.play, confirming_mark, hsays]
  rfl

/-- The keys of NAS that it takes into use are those of the UE's chain of keys. -/
theorem establishSecurity_keys (hF : F.aka = ofKdf K) {kseaf : Octets 32} {supi : String}
    {ueSecCap : UInt8 × UInt8} {sec : Nas.NasSecurityContext} {smc kamf : List UInt8}
    (h : establishSecurity F (hexEncode kseaf.val) supi ueSecCap = some (sec, smc, kamf)) :
    kamf = (Aka.kamf K kseaf supi ABBA).val ∧
      sec.knasInt = (Aka.nasKeys K (Aka.kamf K kseaf supi ABBA) sec.nea sec.nia).knasInt.val ∧
        sec.knasEnc = (Aka.nasKeys K (Aka.kamf K kseaf supi ABBA) sec.nea sec.nia).knasEnc.val := by
  simp only [establishSecurity, Udm.hexSized_hexEncode, Option.bind_eq_bind, Option.bind_some,
    Option.bind_eq_some_iff] at h
  obtain ⟨nea, -, nia, -, h⟩ := h
  have hkamf : F.aka.kamf kseaf.val supi ABBA = (Aka.kamf K kseaf supi ABBA).val := by
    rw [hF]
    simp only [ofKdf, Octets.ofBytes?_val]
  have hkeys : F.aka.nasKeys (Aka.kamf K kseaf supi ABBA).val nea nia =
      ((Aka.nasKeys K (Aka.kamf K kseaf supi ABBA) nea nia).knasInt.val,
        (Aka.nasKeys K (Aka.kamf K kseaf supi ABBA) nea nia).knasEnc.val) := by
    rw [hF]
    simp only [ofKdf, Octets.ofBytes?_val]
  rw [hkamf, hkeys] at h
  cases h
  exact ⟨rfl, rfl, rfl⟩

/-! ### Agreement -/

/-- The AMF passes the challenge of a context on, the UE answers it with the RES* that the AUSF expects and has
the AUSF's K_AUSF, and the AMF accepts that RES* and takes the keys of the UE's chain into use. -/
def Agreed (K : Kdf) (M : Milenage) (F : Functions) (sub : SubscriberKey) (mcc mnc supi : String)
    (challenge : UeAuthenticationCtx) (ctxs : AusfState) : Prop :=
  ∃ (rand : Rand) (autn resStar : Octets 16) (kausf : Octets 32),
    (∀ ausfBase, ∃ pending, AmfAuth.challenge F ausfBase challenge =
        some (pending, F.nas.encode (.authenticationRequest 0 rand.val autn.val)) ∧
      ∀ oracle, (∀ e w, (confirming K).answers e w (oracle e w) = true) → ∀ amfUeId l t,
        (Proc.play (confirming K) oracle (AmfAuth.finish F amfUeId pending resStar.val) l t ctxs).1 =
          some { success := true, kseaf := some (hexEncode (Aka.kseaf K kausf mcc mnc).val), supi := some supi }) ∧
    Aka.ueAuthenticate M sub rand autn mcc mnc = some (resStar, kausf) ∧
    (ctxs.lookup challenge.authCtxId).map (fun ctx => (ctx.xresStar, ctx.kausf)) = some (resStar, kausf) ∧
    ∀ ueSecCap sec smc kamf,
      establishSecurity F (hexEncode (Aka.kseaf K kausf mcc mnc).val) supi ueSecCap = some (sec, smc, kamf) →
        kamf = (Aka.kamf K (Aka.kseaf K kausf mcc mnc) supi ABBA).val ∧
          sec.knasInt = (Aka.nasKeys K (Aka.kamf K (Aka.kseaf K kausf mcc mnc) supi ABBA) sec.nea
            sec.nia).knasInt.val ∧
          sec.knasEnc = (Aka.nasKeys K (Aka.kamf K (Aka.kseaf K kausf mcc mnc) supi ABBA) sec.nea
            sec.nia).knasEnc.val

variable {star : (k opc : Octets 16) → (snn : String) → Rand → Octets 8 → Option (Octets 16)}
variable {mcc mnc supi : String} {sub : SubscriberKey}

/-- An AUSF that has a vector of the subscriber's, under the digits that it and the UDM read in the name. -/
theorem agreed_authenticate (hM : M.NamedBy star) (hF : F.aka = ofKdf K) (hmcc : Udm.IsMcc mcc)
    (hmnc : Udm.IsMnc mnc) {sqn : Aka.Sqn} {rand : Rand} {av : Aka.AuthVector}
    (hav : Aka.generate5gHeAv M sub sqn rand mcc (Udm.mnc3 mnc) = some av) (supiOrSuci ctxId : String)
    (ctxs : AusfState) :
    ∃ challenge, (authenticate K { supiOrSuci, servingNetworkName := servingNetworkName mcc mnc } none
        (some { authenticationVector := .ofVector av, supi }) ctxId ctxs).1 = .ok challenge ∧
      Agreed K M F sub mcc mnc supi challenge
        (authenticate K { supiOrSuci, servingNetworkName := servingNetworkName mcc mnc } none
          (some { authenticationVector := .ofVector av, supi }) ctxId ctxs).2 := by
  have hsnn := hmnc.servingNetworkName_mnc3 mcc
  obtain ⟨-, hrand, -⟩ := Aka.generate5gHeAv_eq_some hav
  have hue := Aka.ueAuthenticate_generate5gHeAv hM hsnn hav
  have hkseaf : Aka.kseaf K av.kausf mcc (Udm.mnc3 mnc) = Aka.kseaf K av.kausf mcc mnc := by
    rw [Aka.kseaf, hsnn, Aka.kseaf]
  simp only [authenticate, Udm.parseSnn_servingNetworkName hmcc hmnc, Option.map_none, Udm.HeAv.ofVector,
    parseOctets_hexEncode]
  refine ⟨_, rfl, av.rand, av.autn, av.xresStar, av.kausf, fun ausfBase => ?_, hrand ▸ hue, ?_,
    fun ueSecCap sec smc kamf h => establishSecurity_keys hF h⟩
  · refine ⟨{ ausfBase, ctxId, rand := av.rand.val, hxres := (Aka.hxresStar K av.rand av.xresStar).val }, ?_,
      fun oracle horacle amfUeId l t => ?_⟩
    · simp only [AmfAuth.challenge, Udm.hexSized_hexEncode, Option.bind_eq_bind, Option.bind_some]
      rfl
    · rw [← hkseaf]
      exact finish_accepts hF horacle { supi, xresStar := av.xresStar, kausf := av.kausf, mcc, mnc := Udm.mnc3 mnc }
        { ausfBase, ctxId, rand := av.rand.val, hxres := (Aka.hxresStar K av.rand av.xresStar).val }
        (AList.lookup_insert _) rfl rfl amfUeId l t
  · rw [AList.lookup_insert]
    rfl

/-- Under the digits that the home network reads in the name of the UE's network, the UE makes of a vector what the
network made of it. -/
def VectorAgrees (M : Milenage) (mcc mnc : String) (sub : SubscriberKey) (rand : Rand) : Prop :=
  ∃ mcc' mnc', Udm.parseSnn (servingNetworkName mcc mnc) = some (mcc', mnc') ∧
    ∀ sqn av, Aka.generate5gHeAv M sub sqn rand mcc' mnc' = some av →
      Aka.ueAuthenticate M sub rand av.autn mcc mnc = some (av.xresStar, av.kausf)

/-- A request to authenticate a subscriber that the UDM and the UDR know comes back with a challenge that is agreed
upon, unless RES* cannot be computed. -/
def ExchangeAgrees (K : Kdf) (M : Milenage) (F : Functions)
    (star : (k opc : Octets 16) → (snn : String) → Rand → Octets 8 → Option (Octets 16)) (mcc mnc : String)
    (sub : SubscriberKey) (rand : Rand) {J : Type} (g : InMemory J) : Prop :=
  ∀ (deconceal : String → Option String) (supiOrSuci supi : String) (sqn : Aka.Sqn) (ctxId : String)
    (ctxs : AusfState), deconceal supiOrSuci = some supi → g.credentials.lookup supi = some sub →
    g.sqn.lookup supi = some sqn →
      let snn := servingNetworkName mcc mnc
      let udm := (Udm.generateAuthData M deconceal rand supiOrSuci snn g).1.toOption
      let answer := authenticate K { supiOrSuci, servingNetworkName := snn } none udm ctxId ctxs
      match star sub.k sub.opc snn rand (M.f2345 sub.k sub.opc rand).1 with
      | none => answer.1 = .error .internalServerError
      | some _ => ∃ challenge, answer.1 = .ok challenge ∧ Agreed K M F sub mcc mnc supi challenge answer.2

theorem exchangeAgrees (hM : M.NamedBy star) (hF : F.aka = ofKdf K) (hmcc : Udm.IsMcc mcc)
    (hmnc : Udm.IsMnc mnc) (sub : SubscriberKey) (rand : Rand) {J : Type} (g : InMemory J) :
    ExchangeAgrees K M F star mcc mnc sub rand g := by
  intro deconceal supiOrSuci supi sqn ctxId ctxs hsupi hsub hsqn
  dsimp only
  rw [Udm.generateAuthData_eq hmcc hmnc hsupi hsub hsqn]
  have hstar := hM sub.k sub.opc mcc (Udm.mnc3 mnc) rand (M.f2345 sub.k sub.opc rand).1
  rw [hmnc.servingNetworkName_mnc3] at hstar
  cases hres : star sub.k sub.opc (servingNetworkName mcc mnc) rand (M.f2345 sub.k sub.opc rand).1 with
  | none =>
    have hav : Aka.generate5gHeAv M sub (Subscribers.incrementSqn sqn) rand mcc (Udm.mnc3 mnc) = none := by
      simp only [Aka.generate5gHeAv, hstar, hres, Option.bind_eq_bind, Option.bind_none]
    simp only [hav, Except.toOption, authenticate, Udm.parseSnn_servingNetworkName hmcc hmnc, Option.map_none]
  | some xresStar =>
    obtain ⟨av, hav⟩ : ∃ av, Aka.generate5gHeAv M sub (Subscribers.incrementSqn sqn) rand mcc (Udm.mnc3 mnc) =
        some av := by
      simp only [Aka.generate5gHeAv, hstar, hres, Option.bind_eq_bind, Option.bind_some]
      exact ⟨_, rfl⟩
    rw [hav]
    exact agreed_authenticate hM hF hmcc hmnc hav supiOrSuci ctxId ctxs

/-- Both sides have the same keys, and a context is of single use exactly when the first RES* that is submitted for
it is right or none is. -/
theorem aka_agrees (hM : M.NamedBy star) (hF : F.aka = ofKdf K) (hmcc : Udm.IsMcc mcc) (hmnc : Udm.IsMnc mnc)
    (sub : SubscriberKey) (rand : Rand) {J : Type} (g : InMemory J) :
    VectorAgrees M mcc mnc sub rand ∧ ExchangeAgrees K M F star mcc mnc sub rand g ∧
      ∀ (ctxs : AusfState) (ctxId : String) (ctx : AuthCtx) (es : List Event),
        ctxs.lookup ctxId = some ctx → (∀ e ∈ es, e.draws ≠ some ctxId) →
          (SingleUse ctxId ctx (transcript K ctxs es) ↔ FirstRight ctxId ctx es) := by
  refine ⟨⟨mcc, Udm.mnc3 mnc, Udm.parseSnn_servingNetworkName hmcc hmnc, fun sqn av hav => ?_⟩,
    exchangeAgrees hM hF hmcc hmnc sub rand g, fun ctxs ctxId ctx es hctx hfresh => singleUse_iff hctx hfresh⟩
  exact Aka.ueAuthenticate_generate5gHeAv hM (hmnc.servingNetworkName_mnc3 mcc) hav

/-! ### A subscriber, and a context that is used twice -/

def sampleOctets (n : Nat) (hex : String) : Octets n := (parseOctets n hex).getD (Octets.zero n)

def sampleSubscriber : SubscriberKey where
  k := sampleOctets 16 "465b5ce8b199b49faa5f0a2ee238a6bc"
  opc := sampleOctets 16 "cd63cb71954a9f4e48a5994e37a02baf"
  amf := sampleOctets 2 "b9b9"

def sampleRand : Rand := sampleOctets 16 "23553cbe9637a89d218ae64dae47bf35"

def sampleSqn : Aka.Sqn := sampleOctets 6 "ff9bb4d0b607"

def sampleSnn : String := "5G:mnc070.mcc999.3gppnetwork.org"

def sampleRes : Octets 8 := sampleOctets 8 "a54211d5e3ba50bf"

def sampleXresStar : Octets 16 := sampleOctets 16 "dd7ccf2eb8c36ef1f67062c553788357"

def sampleKausf : Octets 32 := sampleOctets 32 "75e57ab670ad4d0c1ee03b6e68250af7bd0e66ab2f9d74f5faccd126dc25d69c"

def sampleStar (_ _ : Octets 16) (snn : String) (rand : Rand) (res : Octets 8) : Option (Octets 16) :=
  if (snn, rand, res) = (sampleSnn, sampleRand, sampleRes) then some sampleXresStar else none

/-- The functions on the subscriber's challenge. -/
def sampleMilenage : Milenage where
  f1 _ _ rand sqn amf :=
    if (rand, sqn, amf) = (sampleRand, sampleSqn, sampleSubscriber.amf) then sampleOctets 8 "4a9ffac354dfafb3"
    else Octets.zero 8
  f1star _ _ _ _ _ := Octets.zero 8
  f2345 _ _ rand :=
    if rand = sampleRand then
      (sampleRes, sampleOctets 16 "b40ba9a3c58b2a05bbf0d987b21bf8cb",
        sampleOctets 16 "f769bcd751044604127672711c6d3441", sampleOctets 6 "aa689c648370")
    else (Octets.zero 8, Octets.zero 16, Octets.zero 16, Octets.zero 6)
  f5star _ _ _ := Octets.zero 6
  computeResStar k opc mcc mnc rand res := sampleStar k opc (servingNetworkName mcc mnc) rand res
  deriveKausf _ _ snn sqnXorAk fc :=
    if (snn, sqnXorAk, fc) = (sampleSnn, sampleOctets 6 "55f328b43577", 0x6A) then sampleKausf else Octets.zero 32

def sampleKseaf : Octets 32 := sampleOctets 32 "5beb161059b19911976c78676691a98692312643257d3db7e07c6bb34dda59d9"

def sampleKamf : Octets 32 := sampleOctets 32 "e6898699d34d65a3ca1142394d456eb2fa1c79b5b2404ae75e558d8f9dbed7cb"

def sampleKdf : Kdf where
  computeHresStar rand resStar :=
    if (rand, resStar) = (sampleRand, sampleXresStar) then sampleOctets 16 "7da719c61657096d0725d6d975a53f3d"
    else Octets.zero 16
  deriveKseaf kausf snn := if (kausf, snn) = (sampleKausf, sampleSnn) then sampleKseaf else Octets.zero 32
  deriveKamf kseaf supi abba :=
    if (kseaf, supi, abba) = (sampleKseaf, "999700000000001", ABBA) then sampleKamf else Octets.zero 32
  deriveNasKey kamf algType alg :=
    if (kamf, algType, alg) = (sampleKamf, 0x01, 2) then
      sampleOctets 32 "e25ce568765435af481bc8ff751ed3b0c4fa0ad19c4bf4292cfb71c7536b8f1a"
    else if (kamf, algType, alg) = (sampleKamf, 0x02, 2) then
      sampleOctets 32 "6a9430422a097825f562af7b53a17234336129bcfeef9ba5b630a6b2e296c4b5"
    else Octets.zero 32
  extract128 key := ⟨key.val.drop 16, by rw [List.length_drop, key.property]⟩
  deriveKgnb _ _ := Octets.zero 32

def sampleFunctions : Functions :=
  { aka := ofKdf sampleKdf, algorithms := Amf.sampleNasAlgorithms, nas := Amf.sampleNas }

def sampleStore : InMemory Unit :=
  { InMemory.new with
    credentials := (∅ : Map String SubscriberKey).insert "imsi-999700000000001" sampleSubscriber
    sqn := (∅ : Map String Aka.Sqn).insert "imsi-999700000000001" (sampleOctets 6 "ff9bb4d0b606") }

theorem aka_agrees_sample :
    VectorAgrees sampleMilenage "999" "70" sampleSubscriber sampleRand ∧
      ExchangeAgrees sampleKdf sampleMilenage sampleFunctions sampleStar "999" "70" sampleSubscriber sampleRand
        sampleStore ∧
      ∀ (ctxs : AusfState) (ctxId : String) (ctx : AuthCtx) (es : List Event),
        ctxs.lookup ctxId = some ctx → (∀ e ∈ es, e.draws ≠ some ctxId) →
          (SingleUse ctxId ctx (transcript sampleKdf ctxs es) ↔ FirstRight ctxId ctx es) :=
  aka_agrees (fun _ _ _ _ _ _ => rfl) rfl ⟨by decide +kernel, List.all_eq_true.mp (by decide +kernel)⟩
    ⟨by decide +kernel, List.all_eq_true.mp (by decide +kernel)⟩ sampleSubscriber sampleRand sampleStore

example : (Aka.generate5gHeAv sampleMilenage sampleSubscriber sampleSqn sampleRand "999" "70").bind (fun av =>
    Aka.ueAuthenticate sampleMilenage sampleSubscriber sampleRand av.autn "999" "70") =
      some (sampleXresStar, sampleKausf) := by decide +kernel

def sampleCtx : AuthCtx where
  supi := "imsi-999700000000001"
  xresStar := sampleXresStar
  kausf := sampleKausf
  mcc := "999"
  mnc := "070"

/-- A wrong RES*, and then the right one. -/
def retries : List Event :=
  [.confirm "ctx-1" "00000000000000000000000000000000", .confirm "ctx-1" "dd7ccf2eb8c36ef1f67062c553788357"]

/-- **A second try.** The context is still there after a wrong RES*, and yields K_SEAF. -/
theorem used_twice : ¬ ∀ (ctxs : AusfState) (ctxId : String) (ctx : AuthCtx) (es : List Event),
    ctxs.lookup ctxId = some ctx → (∀ e ∈ es, e.draws ≠ some ctxId) →
      SingleUse ctxId ctx (transcript sampleKdf ctxs es) := by
  intro h
  have hfresh : ∀ e ∈ retries, e.draws ≠ some "ctx-1" := by
    intro e he
    simp only [retries, List.mem_cons, List.not_mem_nil, or_false] at he
    rcases he with rfl | rfl <;> exact (Option.some_ne_none _).symm
  have hsingle := h ((∅ : AusfState).insert "ctx-1" sampleCtx) "ctx-1" sampleCtx retries
    (AList.lookup_insert _) hfresh
  have hyields : ((transcript sampleKdf ((∅ : AusfState).insert "ctx-1" sampleCtx) retries).map
      Confirmed.yields) = [false, true] := by decide +kernel
  have hwrong : ((transcript sampleKdf ((∅ : AusfState).insert "ctx-1" sampleCtx) retries).map
      (Confirmed.wrong sampleCtx)) = [true, false] := by decide +kernel
  exact hsingle.right [_] _ [] rfl rfl (List.cons.inj (List.cons.inj hyields).2).1 _ List.mem_cons_self rfl
    (List.cons.inj hwrong).1

end Radian.Ausf
