import Radian.Amf.Sessions

/-!
# Coming back from idle

A UE whose context is retained comes back with a Service Request or a registration update.

- `Return` — what the UE asks for, once its message has verified under the retained context.
- `UeContext.comeBack` — the context on its new connection.
- `onServiceRequest` — restore the context, answer, and re-activate sessions.
-/

namespace Radian.Amf

open Nas (Nas5gmmMessage Tac psisFromPsiBitmap)
open Security (Bytes)

variable (F : Functions)

inductive Return where
  | serviceRequest
  | mobilityUpdate
  | periodicUpdate
  deriving DecidableEq, Repr

/-- What a message of a returning UE asks for. -/
def returnOf : Nas5gmmMessage → Option Return
  | .serviceRequest req => if req.tmsi.isSome then some .serviceRequest else none
  | .registrationRequest reg =>
      match reg.registrationType with
      | some .mobilityRegistrationUpdate => some .mobilityUpdate
      | some .periodicRegistrationUpdate => some .periodicUpdate
      | _ => none
  | _ => none

def Return.isRegistrationUpdate : Return → Bool
  | .serviceRequest => false
  | _ => true

/-- The sessions the UE reports as still active. -/
def pduSessionStatusFromRequest : Nas5gmmMessage → Option (List UInt8)
  | .serviceRequest req => req.pduSessionStatus.map psisFromPsiBitmap
  | .registrationRequest reg => reg.pduSessionStatus.map psisFromPsiBitmap
  | _ => none

/-- The sessions with pending uplink data. -/
def uplinkDataStatus : Nas5gmmMessage → List UInt8
  | .registrationRequest reg =>
      match reg.uplinkDataStatus with
      | some value => psisFromPsiBitmap value
      | none => []
  | _ => []

/-- The registration area of a returning UE: assigned anew on a mobility update, extended on a
Service Request from outside. -/
def returnArea (ret : Return) (assigned : List Tac) (c : UeContext) : List Tac :=
  match ret, c.tac with
  | .mobilityUpdate, _ => assigned
  | .serviceRequest, some tac =>
      if !c.registrationArea.isEmpty && !c.registrationArea.contains tac then
        (c.registrationArea ++ [tac]).take 16
      else c.registrationArea
  | _, _ => c.registrationArea

/-- The context on its new connection. -/
def UeContext.comeBack (ranUeId : RanUeId) (tac : Option Tac) (c : UeContext) : UeContext :=
  { c with ranUeId, cmState := .Connected, retainedAt := none, tac := tac <|> c.tac }

/-- The message did not verify, or asks for something else: Service Reject. -/
def rejectReturn (ranUeId : RanUeId) : AmfM (List Downlink) := do
  let amfUeId ← nextAmfUeId
  let reject := F.nas.encode (.serviceReject Nas.MmCause.IMPLICITLY_DEREGISTERED)
  return [.downlinkNasTransport amfUeId ranUeId reject none,
    .ueContextReleaseCommand amfUeId ranUeId .normalRelease]

/-- A registration update reassigns the 5G-GUTI. -/
def reallocateGuti (ret : Return) (amfUeId : AmfUeId) (c : UeContext) (tmsi : Tmsi) :
    AmfM (UeContext × Tmsi) := do
  if ret.isRegistrationUpdate then
    let fresh : Tmsi := amfUeId.setWidth 32
    match c.suci with
    | some supi => Proc.change (Tables.assignGuti supi fresh)
    | none => pure ()
    return ({ c with gutiTmsi := some fresh }, fresh)
  else return (c, tmsi)

/-- Release the sessions the UE no longer holds. -/
def reconcileSessions (amfUeId : AmfUeId) (active : Option (List UInt8)) (c : UeContext) :
    AmfM UeContext := do
  match active with
  | none => return c
  | some active =>
      let dropped := (c.smRefs.entries.filter fun e => !active.contains e.1).map fun e => e.2
      releaseSessions amfUeId dropped
      return { c with
        smRefs := ⟨c.smRefs.entries.filter fun e => active.contains e.1,
          c.smRefs.nodupKeys.sublist List.filter_sublist⟩ }

/-- The protected accept and the fresh K_gNB, and the context that has sent it. -/
def acceptReturn (ret : Return) (tmsi : Tmsi) (c : UeContext) :
    Option (Bytes × Option Bytes) × UeContext :=
  match c.sec with
  | none => (none, c)
  | some sec =>
      let active := c.smRefs.entries.map (fun e => e.1) |>.mergeSort
      let kgnb := c.kamf.map fun kamf => F.aka.kgnb kamf (sec.ulCount - 1)
      let accept := match ret with
        | .serviceRequest => .serviceAccept (some active)
        | _ => .registrationAccept
            { tmsi, allowedNssai := c.allowedNssai.getD [], rejectedNssai := []
              t3512Secs := T3512_SECS, registrationArea := c.registrationArea
              activePduSessions := some active }
      let (bytes, sec) := sec.protectDl F.algorithms F.nas Nas.Sht.INTEGRITY_CIPHERED accept
      let c := { c with sec := some sec }
      let c := match kgnb with
        | some k => { c with nhChain := some (k, 0) }
        | none => c
      (some (bytes, kgnb), c)

/-- Fetch the user planes that come back. -/
def activateSessions (amfUeId : AmfUeId) :
    List (UInt8 × String × String) → AmfM (List IcsPduSession)
  | [] => return []
  | (psi, smRef, smfBase) :: rest => do
      match ← callFor amfUeId (.activateUpConnection smfBase smRef) with
      | some created =>
          let flows :=
            if created.ngapFlows.isEmpty then [QosFlow.defaultNonGbr] else created.ngapFlows
          let more ← activateSessions amfUeId rest
          return { psi, flows, upfTeid := created.upN3Teid, upfAddr := created.upN3Addr } :: more
      | none => activateSessions amfUeId rest

/-- What goes to the gNB: an Initial Context Setup, or without a K_AMF the accept and the sessions
one by one. -/
def returnDownlinks (amfUeId : AmfUeId) (c : UeContext) (sessions : List IcsPduSession) :
    Option (Bytes × Option Bytes) → List Downlink
  | none => []
  | some (nas, some securityKey) =>
      [.initialContextSetupRequest amfUeId c.ranUeId
        { allowedNssai := c.allowedNssai.getD []
          ueSecCap := c.replayedUeSecCap.getD UE_SEC_CAP
          securityKey
          ueAmbr := c.ueAmbr
          rfsp := c.rfsp
          areaRestriction := someArea c.areaRestriction
          pduSessions := sessions
          nas
          ueRadioCapability := c.ueRadioCapability }]
  | some (nas, none) =>
      let (ambrDl, ambrUl) := c.ueAmbr.getD DEFAULT_UE_AMBR_BPS
      .downlinkNasTransport amfUeId c.ranUeId nas none :: sessions.map fun s =>
        .pduSessionResourceSetupRequest amfUeId c.ranUeId s.psi s.flows s.upfTeid s.upfAddr ambrDl
          ambrUl .ipv4 []

/-- Restore a context whose message has verified. -/
def resume (ranUeId : RanUeId) (tac : Option Tac) (tmsi : Tmsi) (ret : Return)
    (msg : Nas5gmmMessage) (c : UeContext) : AmfM (List Downlink) := do
  let amfUeId ← nextAmfUeId
  let c := c.comeBack ranUeId tac
  let assigned ← Proc.look fun l t => t.registrationAreaFor c.tac l.tx
  let c := { c with registrationArea := returnArea ret assigned c }
  let (c, regTmsi) ← reallocateGuti ret amfUeId c tmsi
  let pendingAmPolicy := c.pendingAmPolicy
  let c := { c with pendingAmPolicy := none }
  Proc.mark (.resumed amfUeId)
  let c ← reconcileSessions amfUeId (pduSessionStatusFromRequest msg) c
  let (accept, c) := acceptReturn F ret regTmsi c
  insertUe amfUeId c
  match c.suci with
  | some supi => address supi amfUeId
  | none => pure ()
  let sessions := c.smRefs.entries.map fun e => (e.1, e.2)
  let data := uplinkDataStatus msg
  let reactivate := if ret.isRegistrationUpdate then sessions.filter fun s => data.contains s.1
    else sessions
  let icsSessions ← activateSessions amfUeId reactivate
  let held ← match pendingAmPolicy with
    | some p => onAmPolicyUpdate F amfUeId p.ueAmbr p.rfsp p.areaRestriction
    | none => pure []
  return returnDownlinks amfUeId c icsSessions accept ++ held

/-- Take a retained context. -/
def takeRetained (tmsi : Tmsi) : AmfM (Option UeContext) :=
  Proc.actShared fun t =>
    (t.retained.lookup tmsi, { t with retained := t.retained.erase tmsi })

/-- A UE with a retained context comes back. -/
def onServiceRequest (msg : InitialUEMessage) (tmsi : Tmsi) : AmfM (List Downlink) := do
  match msg.ranUeNgapId with
  | none => return []
  | some ranUeId =>
      match ← takeRetained tmsi with
      | none => return []
      | some c =>
          let (decoded, sec) := match msg.nasPdu, c.sec with
            | some raw, some sec =>
                let (m, sec) := sec.unprotect F.algorithms F.nas.toCodec raw 0
                (m, some sec)
            | _, sec => (none, sec)
          match decoded.bind fun m => (returnOf m).map fun ret => (m, ret) with
          | some (m, ret) => resume F ranUeId msg.tac tmsi ret m { c with sec }
          | none => rejectReturn F ranUeId

end Radian.Amf
