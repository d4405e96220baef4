import Radian.Amf.Calls

/-!
# Identification and authentication

From the first message of a UE to the Security Mode Command.

- `AmfAuth.begin`, `AmfAuth.resync`, `AmfAuth.finish` — the AMF's side of 5G-AKA.
- `onInitialUe`, `startAuthentication` — identify the UE, challenge it.
- `onAuthenticationFailure`, `completeAuthentication` — its answer.
- `establishSecurity` — the NAS security context of an authenticated UE.
-/

namespace Radian.Amf

open Nas (Nas5gmmMessage NasSecurityContext Snssai hexLower suciToSupi parseNssaiValue)
open Security (Bytes)

/-! ### Hexadecimal -/

def hexDecode : List Char → Option Bytes
  | [] => some []
  | [_] => none
  | a :: b :: cs => do
      let hi ← Text.digit 16 a
      let lo ← Text.digit 16 b
      let rest ← hexDecode cs
      return UInt8.ofNat (hi * 16 + lo) :: rest

/-- The `n` octets a hexadecimal string stands for. -/
def hexSized (n : Nat) (s : String) : Option Bytes :=
  (hexDecode s.toList).filter fun bytes => bytes.length == n

def hexEncode (bytes : Bytes) : String := String.ofList (hexLower bytes)

/-! ### The AUSF -/

namespace AmfAuth

variable (F : Functions)

/-- What is kept of a challenge, and the Authentication Request that carries it. -/
def challenge (ausfBase : String) (ctx : UeAuthenticationCtx) : Option (PendingAuth × Bytes) := do
  let rand ← hexSized 16 ctx.rand
  let autn ← hexSized 16 ctx.autn
  let hxres ← hexSized 16 ctx.hxresStar
  return ({ ausfBase, ctxId := ctx.authCtxId, rand, hxres },
    F.nas.encode (.authenticationRequest 0 rand autn))

def begin (amfUeId : AmfUeId) (supiOrSuci : String) : AmfM (Option (PendingAuth × Bytes)) := do
  match ← callFor amfUeId (.discoverNf "AUSF") with
  | none => return none
  | some ausfBase =>
      let snn := F.aka.servingNetworkName PLMN_MCC PLMN_MNC
      match ← callFor amfUeId (.authenticate ausfBase supiOrSuci snn) with
      | none => return none
      | some ctx => return challenge F ausfBase ctx

/-- Ask for a fresh challenge after a synch failure. -/
def resync (amfUeId : AmfUeId) (pending : PendingAuth) (supiOrSuci : String) (auts : Bytes) :
    AmfM (Option (PendingAuth × Bytes)) := do
  let snn := F.aka.servingNetworkName PLMN_MCC PLMN_MNC
  match ← callFor amfUeId (.authenticateResync pending.ausfBase supiOrSuci snn
      (hexEncode pending.rand) (hexEncode auts)) with
  | none => return none
  | some ctx => return challenge F pending.ausfBase ctx

def refused : AuthOutcome := { success := false, kseaf := none, supi := none }

/-- Verify RES* against HXRES*, then confirm it at the AUSF. -/
def finish (amfUeId : AmfUeId) (pending : PendingAuth) (resStar : Bytes) :
    AmfM (Option AuthOutcome) := do
  if resStar.length ≠ 16 then return some refused
  else if F.aka.hxresStar pending.rand resStar ≠ pending.hxres then return some refused
  else
    match ← callFor amfUeId (.confirm pending.ausfBase pending.ctxId (hexEncode resStar)) with
    | none => return none
    | some conf =>
        return some
          { success := conf.authResult == "AUTHENTICATION_SUCCESS"
            kseaf := conf.kseaf
            supi := conf.supi }

end AmfAuth

/-! ### Identification -/

inductive RegIdentity where
  | supi (supi : String)
  | gutiTmsi (tmsi : Tmsi)
  | unknown
  deriving DecidableEq, Repr

/-- The identity, the security capability and the slices in a Registration Request. -/
def registrationIdentity :
    Nas5gmmMessage → Option (RegIdentity × Option (UInt8 × UInt8) × List Snssai)
  | .registrationRequest reg =>
      let identity := match reg.mobileIdentity with
        | .suci suci => .supi (suciToSupi suci)
        | .guti tmsi => .gutiTmsi tmsi
        | .other => .unknown
      let nssai := match reg.requestedNssai with
        | some value => parseNssaiValue value
        | none => []
      some (identity, reg.ueSecurityCapability, nssai)
  | _ => none

/-- The SUPI of an identity, when it names one or its 5G-TMSI leads to one. -/
def resolve (t : Tables) :
    Option (RegIdentity × Option (UInt8 × UInt8) × List Snssai) →
      Option String × Option (UInt8 × UInt8) × List Snssai
  | some (.supi supi, cap, nssai) => (some supi, cap, nssai)
  | some (.gutiTmsi tmsi, cap, nssai) => (t.gutiDirectory.lookup tmsi, cap, nssai)
  | some (.unknown, cap, nssai) => (none, cap, nssai)
  | none => (none, none, [])

inductive InitialUeOutcome where
  | needIdentity (dl : Downlink)
  | identified (ranUeId : RanUeId) (supi : String)
  deriving DecidableEq, Repr

variable (F : Functions)

/-- Identify the UE and create its context. -/
def onInitialUe (msg : InitialUEMessage) (amfUeId : AmfUeId) : AmfM (Option InitialUeOutcome) := do
  match msg.ranUeNgapId with
  | none => return none
  | some ranUeId =>
      let identity := (msg.nasPdu.bind F.nas.decode).bind registrationIdentity
      let (resolved, ueSecCap, requestedNssai) ← Proc.look fun _ t => resolve t identity
      let now ← Proc.look fun _ t => t.clock
      match resolved with
      | some supi =>
          let area ← Proc.look fun l t => t.registrationAreaFor msg.tac l.tx
          Proc.mark (.created amfUeId)
          insertUe amfUeId
            { UeContext.new ranUeId .Identified (some supi) now with
              replayedUeSecCap := ueSecCap
              requestedNssai
              tac := msg.tac
              registrationArea := area }
          address supi amfUeId
          return some (.identified ranUeId supi)
      | none =>
          let ident := F.nas.encode .identityRequest
          Proc.mark (.created amfUeId)
          insertUe amfUeId
            { UeContext.new ranUeId .IdentityRequested none now with
              replayedUeSecCap := ueSecCap
              requestedNssai
              tac := msg.tac
              pendingRetx := some { kind := .IdentityRequest, nasBytes := ident, attempts := 1 } }
          arm (.nasRetx · amfUeId .IdentityRequest)
          return some (.needIdentity (.downlinkNasTransport amfUeId ranUeId ident none))

/-- A challenge is out: the context waits for the answer. -/
def UeContext.challenged (pending : PendingAuth) (nasReq : Bytes) (now : Instant) (c : UeContext) :
    UeContext :=
  { c with
    auth := some pending
    state := .Authenticating
    regProgressAt := now
    pendingRetx := some { kind := .AuthRequest, nasBytes := nasReq, attempts := 1 } }

/-- Fetch a challenge and send the Authentication Request. -/
def startAuthentication (amfUeId : AmfUeId) (ranUeId : RanUeId) (supi : String) : AmfM Unit := do
  match ← AmfAuth.begin F amfUeId supi with
  | some (pending, nasReq) =>
      let now ← Proc.look fun _ t => t.clock
      modifyUe amfUeId (UeContext.challenged pending nasReq now)
      arm (.nasRetx · amfUeId .AuthRequest)
      sendAll [.downlinkNasTransport amfUeId ranUeId nasReq none]
  | none => return ()

/-- An Identity Response resumes the registration at authentication. -/
def onIdentityResponse (amfUeId : AmfUeId) (identity : Nas.MobileIdentity) :
    AmfM (List Downlink) := do
  match ← getUe amfUeId with
  | none => return []
  | some c =>
      if c.state ≠ .IdentityRequested then return []
      else
        match identity with
        | .suci suci =>
            let supi := suciToSupi suci
            match ← AmfAuth.begin F amfUeId supi with
            | some (pending, nasReq) =>
                let area ← Proc.look fun l t => t.registrationAreaFor c.tac l.tx
                let now ← Proc.look fun _ t => t.clock
                modifyUe amfUeId fun c =>
                  { c.challenged pending nasReq now with
                    suci := some supi
                    registrationArea := area }
                address supi amfUeId
                arm (.nasRetx · amfUeId .AuthRequest)
                return [.downlinkNasTransport amfUeId c.ranUeId nasReq none]
            | none => return []
        | _ => return []

/-! ### Authentication -/

/-- Drop the context and have the gNB release its side. -/
def abortRegistration (amfUeId : AmfUeId) (ranUeId : RanUeId) : AmfM (List Downlink) := do
  removeUe amfUeId
  return [.ueContextReleaseCommand amfUeId ranUeId .normalRelease]

/-- An Authentication Failure: one synch failure is resynchronised, everything else aborts. -/
def onAuthenticationFailure (amfUeId : AmfUeId) (cause : UInt8) (auts : Option Bytes) :
    AmfM (List Downlink) := do
  match ← getUe amfUeId with
  | none => return []
  | some c =>
      match auts, c.auth, c.suci with
      | some auts, some pending, some supi =>
          if cause = Nas.GMM_CAUSE_SYNCH_FAILURE ∧ c.resyncAttempted = false then
            match ← AmfAuth.resync F amfUeId pending supi auts with
            | some (fresh, nasReq) =>
                modifyUe amfUeId fun c => { c with auth := some fresh, resyncAttempted := true }
                return [.downlinkNasTransport amfUeId c.ranUeId nasReq none]
            | none => abortRegistration amfUeId c.ranUeId
          else abortRegistration amfUeId c.ranUeId
      | _, _, _ => abortRegistration amfUeId c.ranUeId

/-- Whether a capability octet has algorithm `id`: 0 is its highest bit. -/
def ueSupportsAlgo (cap id : UInt8) : Bool := cap &&& ((0x80 : UInt8) >>> id) ≠ 0

/-- The first algorithm of `priority` that the UE supports. -/
def selectAlgo (cap : UInt8) (priority : List UInt8) : Option UInt8 :=
  priority.find? (ueSupportsAlgo cap)

/-- The NAS security context of an authenticated UE, with the Security Mode Command and K_AMF. -/
def establishSecurity (kseafHex supi : String) (ueSecCap : UInt8 × UInt8) :
    Option (NasSecurityContext × Bytes × Bytes) := do
  let nea ← selectAlgo ueSecCap.1 NEA_PRIORITY
  let nia ← selectAlgo ueSecCap.2 NIA_PRIORITY
  let kseaf ← hexSized 32 kseafHex
  let kamf := F.aka.kamf kseaf supi ABBA
  let keys := F.aka.nasKeys kamf nea nia
  let sec := NasSecurityContext.new keys.1 keys.2 nia nea
  let (smc, sec) := sec.protectDl F.algorithms F.nas Nas.Sht.INTEGRITY_NEW_CONTEXT
    (.securityModeCommand nea nia NGKSI ueSecCap)
  return (sec, smc, kamf)

/-- The UE is authenticated: establish NAS security and send the Security Mode Command. -/
def secureUe (amfUeId : AmfUeId) (kseaf supi : String) : AmfM (List Downlink) := do
  let ue ← getUe amfUeId
  let ueSecCap := (ue.bind (·.replayedUeSecCap)).getD UE_SEC_CAP
  match establishSecurity F kseaf supi ueSecCap, ue with
  | some (sec, smc, kamf), some c =>
      let now ← Proc.look fun _ t => t.clock
      modifyUe amfUeId fun c =>
        { c with
          sec := some sec
          kamf := some kamf
          state := .SecurityMode
          regProgressAt := now
          pendingRetx := some { kind := .SecurityModeCommand, nasBytes := smc, attempts := 1 } }
      arm (.nasRetx · amfUeId .SecurityModeCommand)
      return [.downlinkNasTransport amfUeId c.ranUeId smc none]
  | _, _ => return []

/-- Authentication was not accepted: Authentication Reject, and the context goes. -/
def rejectAuthentication (amfUeId : AmfUeId) : AmfM (List Downlink) := do
  let ue ← getUe amfUeId
  let ranUeId := (ue.map (·.ranUeId)).getD 0
  match ue.bind (·.suci) with
  | some supi => Proc.change (Tables.unaddressed supi)
  | none => pure ()
  removeUe amfUeId
  return [.downlinkNasTransport amfUeId ranUeId (F.nas.encode .authenticationReject) none,
    .ueContextReleaseCommand amfUeId ranUeId .normalRelease]

/-- Take the pending authentication out of a context, and stop its timer. -/
def takePending (amfUeId : AmfUeId) : AmfM (Option PendingAuth) :=
  Proc.act fun l t =>
    ((l.ues.lookup amfUeId).bind (·.auth),
      l.modify amfUeId fun c => { c with pendingRetx := none, auth := none }, t)

/-- An Authentication Response: confirm RES* and go on to NAS security. -/
def completeAuthentication (amfUeId : AmfUeId) (resStar : Option Bytes) : AmfM (List Downlink) := do
  match ← takePending amfUeId with
  | none => return []
  | some pending =>
      let outcome ← match resStar with
        | some resStar => AmfAuth.finish F amfUeId pending resStar
        | none => pure none
      match outcome with
      | some ⟨true, some kseaf, some supi⟩ =>
          Proc.mark (.authenticated amfUeId kseaf supi)
          secureUe F amfUeId kseaf supi
      -- the AUSF confirmed and returned no key or no SUPI
      | some ⟨true, _, _⟩ => return []
      | _ => rejectAuthentication F amfUeId

end Radian.Amf
