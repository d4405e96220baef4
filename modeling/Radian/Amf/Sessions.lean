import Radian.Amf.Registration

/-!
# PDU sessions and policy changes

- `onUlNasTransport` — a session is asked for, or its release completed.
- `finalizeRelease` — the end of a release by the network.
- `onAmPolicyUpdate`, `pushTrackedConfigUpdate` — a change of the AM policy.
-/

namespace Radian.Amf

open Nas (Nas5gmmMessage Snssai UlNasTransport)
open Security (Bytes)

variable (F : Functions)

/-- The end of a release by the network: the SM context goes at the SMF, the session here. -/
def finalizeRelease (amfUeId : AmfUeId) (psi : UInt8) : AmfM Unit := do
  match ← getUe amfUeId with
  | none => return ()
  | some c =>
      if c.releasing.contains psi then
        match c.smRefs.lookup psi with
        | some (smRef, smfBase) =>
            let _ ← callFor amfUeId (.releaseSmContext smfBase smRef)
        | none => pure ()
        modifyUe amfUeId fun c =>
          { c with smRefs := c.smRefs.erase psi, releasing := c.releasing.filter (· != psi) }

/-- Send a 5GSM message in a protected DL NAS Transport, if the UE has NAS security. -/
def sendSm (amfUeId : AmfUeId) (psi : UInt8) (container : Bytes) : AmfM (List Downlink) := do
  match ← getUe amfUeId with
  | none => return []
  | some c =>
      match c.sec with
      | none => return []
      | some sec =>
          let (bytes, sec) := sec.protectDl F.algorithms F.nas Nas.Sht.INTEGRITY_CIPHERED
            (.dlNasTransport psi container)
          modifyUe amfUeId fun c => { c with sec := some sec }
          return [.downlinkNasTransport amfUeId c.ranUeId bytes none]

/-- The SMF has created the context: record it, and set the session up at the gNB. -/
def setUpSession (amfUeId : AmfUeId) (psi pti : UInt8) (dnn smfBase : String) (container : Bytes)
    (created : SmContextCreated) : AmfM (List Downlink) := do
  match ← getUe amfUeId with
  | none => return []
  | some c =>
      let dnsIpv6 := if Nas.pcoRequestsIpv6Dns container then created.dnsIpv6 else none
      let accept := Nas.pduSessionEstablishmentAccept psi pti created.pduAddress dnn created.snssai
        created.ambr created.nasFlows created.cause dnsIpv6
      modifyUe amfUeId fun c =>
        { c with
          smRefs := c.smRefs.insert psi (created.smRef, smfBase)
          sessionSnssai := c.sessionSnssai.insert psi created.snssai }
      let (ambrDl, ambrUl) := c.ueAmbr.getD DEFAULT_UE_AMBR_BPS
      match c.sec with
      | none => return []
      | some sec =>
          let (nas, sec) := sec.protectDl F.algorithms F.nas Nas.Sht.INTEGRITY_CIPHERED
            (.dlNasTransport psi accept)
          modifyUe amfUeId fun c => { c with sec := some sec }
          let flows :=
            if created.ngapFlows.isEmpty then [QosFlow.defaultNonGbr] else created.ngapFlows
          return [.pduSessionResourceSetupRequest amfUeId c.ranUeId psi flows created.upN3Teid
            created.upN3Addr ambrDl ambrUl created.pduType nas]

/-- The cause and the back-off of a refused establishment. -/
def refusalOf (snssai : Option Snssai) : CreateSmError → UInt8 × Option UInt8
  | .Forbidden =>
      (if snssai.isSome then Nas.SmCause.MISSING_OR_UNKNOWN_DNN_IN_SLICE
        else Nas.SmCause.MISSING_OR_UNKNOWN_DNN, some (Nas.gprsTimer3 REJECT_BACKOFF_SECS))
  | .InsufficientResources => (Nas.SmCause.INSUFFICIENT_RESOURCES, none)
  | .Other => (Nas.SmCause.REQUEST_REJECTED_UNSPECIFIED, none)

/-- Refuse an establishment. -/
def refuseSession (amfUeId : AmfUeId) (psi pti : UInt8) (refusal : UInt8 × Option UInt8) :
    AmfM (List Downlink) :=
  sendSm F amfUeId psi (Nas.pduSessionEstablishmentReject psi pti refusal.1 refusal.2)

/-- Select an SMF and create an SM context there. -/
def establishSession (amfUeId : AmfUeId) (supi : String) (psi : UInt8) (dnn : String)
    (snssai : Option Snssai) (container : Bytes) : AmfM (List Downlink) := do
  let pti := container[2]?.getD 1
  match ← callFor amfUeId (.selectSmf snssai dnn) with
  | none => refuseSession F amfUeId psi pti (refusalOf snssai .Forbidden)
  | some smfBase =>
      let requested := Nas.requestedPduSessionType container
      match ← callFor amfUeId (.createSmContext smfBase supi psi dnn snssai requested) with
      | .ok created => setUpSession F amfUeId psi pti dnn smfBase container created
      | .error e => refuseSession F amfUeId psi pti (refusalOf snssai e)

/-- A requested slice outside the allowed ones, as far as those are known. -/
def outsideAllowed (snssai : Option Snssai) (allowed : Option (List Snssai)) : Bool :=
  match snssai, allowed with
  | some requested, some allowed => !allowed.contains requested
  | _, _ => false

/-- An UL NAS Transport: the answer to a Release Command, or else a session to establish. -/
def onUlNasTransport (amfUeId : AmfUeId) (transport : UlNasTransport) : AmfM (List Downlink) := do
  match transport.pduSessionId with
  | none => return []
  | some psi =>
      let container := transport.payloadContainer
      if Nas.isPduSessionReleaseComplete container then
        finalizeRelease amfUeId psi
        return []
      else
        match ← getUe amfUeId with
        | none => return []
        | some c =>
            match c.suci with
            | none => return []
            | some supi =>
                let dnn := transport.dnn.getD DEFAULT_DNN
                if outsideAllowed transport.sNssai c.allowedNssai then
                  refuseSession F amfUeId psi (container[2]?.getD 1)
                    (Nas.SmCause.MISSING_OR_UNKNOWN_DNN_IN_SLICE,
                      some (Nas.gprsTimer3 REJECT_BACKOFF_SECS))
                else establishSession F amfUeId supi psi dnn transport.sNssai container

/-! ### Policy changes -/

/-- Send a Configuration Update Command that is to be acknowledged, and arm its timer. -/
def pushTrackedConfigUpdate (amfUeId : AmfUeId) (cuc : Nas5gmmMessage)
    (areaRestriction : Option AreaRestriction) : AmfM (List Downlink) := do
  match ← getUe amfUeId with
  | none => return []
  | some c =>
      match c.sec with
      | none => return []
      | some sec =>
          let (bytes, sec) := sec.protectDl F.algorithms F.nas Nas.Sht.INTEGRITY_CIPHERED cuc
          modifyUe amfUeId fun c =>
            { c with
              sec := some sec
              pendingConfigUpdate := some { cuc, areaRestriction, attempts := 1 } }
          arm (.t3555 · amfUeId)
          return [.downlinkNasTransport amfUeId c.ranUeId bytes areaRestriction]

/-- Resolve a partial update against the context. -/
def UeContext.updatePolicy (ueAmbr : FieldUpdate UeAmbr) (rfsp : FieldUpdate Nat)
    (areaRestriction : FieldUpdate AreaRestriction) (c : UeContext) : UeContext :=
  { { c with pcfUeAmbr := ueAmbr.apply c.pcfUeAmbr }.recomputeUeAmbr with
    rfsp := rfsp.apply c.rfsp
    areaRestriction := areaRestriction.apply c.areaRestriction }

/-- Apply a change of the AM policy, and tell the gNB and the UE. -/
def onAmPolicyUpdate (amfUeId : AmfUeId) (ueAmbr : FieldUpdate UeAmbr) (rfsp : FieldUpdate Nat)
    (areaRestriction : FieldUpdate AreaRestriction) : AmfM (List Downlink) := do
  match ← getUe amfUeId with
  | none => return []
  | some c =>
      let c := c.updatePolicy ueAmbr rfsp areaRestriction
      insertUe amfUeId c
      let cuc ← pushTrackedConfigUpdate F amfUeId (.configurationUpdateCommand [] false true)
        c.areaRestriction
      return .ueContextModificationRequest amfUeId c.ranUeId c.rfsp c.ueAmbr :: cuc

end Radian.Amf
