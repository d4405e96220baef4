import Radian.Amf.ServiceRequest

/-!
# NAS over N2

What an association does with the two NGAP messages that carry uplink NAS.

- `onUplinkNas` — verify or decode an uplink PDU, and dispatch by message type.
- `onInitialUeMessage` — a new registration, or a UE that comes back.
- `Input`, `handleNgap` — either.
-/

namespace Radian.Amf

open Nas (Nas5gmmMessage)
open Security (Bytes)

variable (F : Functions)

/-- Dispatch a message that answers with at most one downlink. -/
def dispatchUplinkNas (amfUeId : AmfUeId) : Nas5gmmMessage → AmfM (List Downlink)
  | .authenticationFailure cause auts => onAuthenticationFailure F amfUeId cause auts
  | .identityResponse identity => onIdentityResponse F amfUeId identity
  | .deregistrationAcceptToUe => onDeregistrationAccept amfUeId
  | .registrationComplete => onRegistrationComplete F amfUeId
  | .configurationUpdateComplete => do
      modifyUe amfUeId fun c => { c with pendingConfigUpdate := none }
      return []
  | .ulNasTransport transport => onUlNasTransport F amfUeId transport
  | _ => return []

/-- The message in an uplink PDU: verified when there is a security context, decoded as it stands
otherwise. -/
def readUplink (amfUeId : AmfUeId) (raw : Bytes) (c : UeContext) :
    AmfM (Option Nas5gmmMessage) := do
  match c.sec with
  | none => return F.nas.decode raw
  | some sec =>
      let (m, sec') := sec.unprotect F.algorithms F.nas.toCodec raw 0
      modifyUe amfUeId fun c => { c with sec := some sec' }
      match m with
      | some m =>
          Proc.mark (.verified amfUeId sec m)
          return some m
      | none => return none

/-- Dispatch an uplink message. -/
def handleUplink (amfUeId : AmfUeId) : Nas5gmmMessage → AmfM (List Downlink)
  | .authenticationResponse resStar => completeAuthentication F amfUeId resStar
  | .securityModeComplete => onSecurityModeComplete F amfUeId
  | .deregistrationRequestFromUe deregistrationType =>
      onDeregistration F amfUeId deregistrationType
  | m => dispatchUplinkNas F amfUeId m

/-- An uplink NAS message of a UE. -/
def onUplinkNas (msg : UplinkNASTransport) : AmfM (List Downlink) := do
  match msg.amfUeNgapId with
  | none => return []
  | some amfUeId =>
      match ← getUe amfUeId, msg.nasPdu with
      | some c, some raw =>
          Proc.mark (.uplink amfUeId raw)
          match ← readUplink F amfUeId raw c with
          | some m => handleUplink F amfUeId m
          | none => return []
      | _, _ => return []

/-- The first message of a UE on a new connection. -/
def onInitialUeMessage (msg : InitialUEMessage) : AmfM Unit := do
  let retained ← Proc.look fun _ t =>
    msg.fivegSTmsi.filter fun tmsi => (t.retained.lookup tmsi).isSome
  match retained with
  | some tmsi =>
      let downlinks ← onServiceRequest F msg tmsi
      sendAll downlinks
  | none =>
      match (← Proc.ask .cblAdmit : Admission) with
      | .deferred retryMs =>
          match msg.ranUeNgapId with
          | some ranUeId => sendAll [.comeBackLater ranUeId retryMs]
          | none => return ()
      | admission =>
          let amfUeId ← nextAmfUeId
          match ← onInitialUe F msg amfUeId with
          | none => return ()
          | some outcome =>
              modifyUe amfUeId fun c => { c with cblSlot := admission == .admitted }
              arm (.registrationGuard · amfUeId)
              match outcome with
              | .needIdentity dl => sendAll [dl]
              | .identified ranUeId supi => startAuthentication F amfUeId ranUeId supi

/-- The NGAP messages that carry uplink NAS. -/
inductive Input where
  | initialUe (msg : InitialUEMessage)
  | uplinkNas (msg : UplinkNASTransport)
  deriving DecidableEq, Repr

def handleNgap : Input → AmfM Unit
  | .initialUe msg => onInitialUeMessage F msg
  | .uplinkNas msg => do
      let downlinks ← onUplinkNas F msg
      sendAll downlinks

end Radian.Amf
