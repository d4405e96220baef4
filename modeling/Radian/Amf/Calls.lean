import Radian.Amf.Context
import Radian.Proc.Outside

/-!
# What the AMF awaits

The AMF's handlers run on the task of one gNB association: its contexts are the local state, the
tables are shared.  They await the other network functions over HTTP.

- `Call`, `Call.Answer` — every kind of await and what comes back.
- `Mark` — the places in the handlers that histories and side conditions speak of.
- `Functions` — the key derivation, the NAS algorithms and the NAS codec.
- `AmfM` — a handler, and the helpers on one context that handlers are written with.
-/

namespace Radian.Amf

open Nas (Nas5gmmMessage NasSecurityContext NasCodec Snssai Tac PduAddress SessionAmbr QosFlowDesc)
open Security (Bytes Algorithms)
open Pfcp (Ipv4Addr Ipv6Addr Teid)
open Smf (PduSessionType)

/-! ### Messages -/

/-- An InitialUEMessage, as far as the AMF reads it. -/
structure InitialUEMessage where
  ranUeNgapId : Option RanUeId
  nasPdu : Option Bytes
  fivegSTmsi : Option Tmsi
  tac : Option Tac
  deriving DecidableEq, Repr

structure UplinkNASTransport where
  amfUeNgapId : Option AmfUeId
  nasPdu : Option Bytes
  deriving DecidableEq, Repr

/-- What the AUSF answers to an authentication request: a context and a challenge, in hexadecimal. -/
structure UeAuthenticationCtx where
  authCtxId : String
  rand : String
  autn : String
  hxresStar : String
  deriving DecidableEq, Repr

structure ConfirmationDataResponse where
  authResult : String
  kseaf : Option String
  supi : Option String
  deriving DecidableEq, Repr

/-- What comes of confirming a RES*. -/
structure AuthOutcome where
  success : Bool
  kseaf : Option String
  supi : Option String
  deriving DecidableEq, Repr

/-- The subscriber's am-data. -/
structure AmData where
  defaultSingleNssais : List Snssai
  /-- The downlink and uplink of `subscribedUeAmbr`. -/
  subscribedUeAmbr : Option (String × String)
  deriving DecidableEq, Repr

structure ServiceAreaRestriction where
  restrictionType : String
  tacs : List String
  deriving DecidableEq, Repr

/-- The PCF's AM policy. -/
structure PolicyAssociation where
  rfsp : Option Nat
  /-- The downlink and uplink of the UE-AMBR. -/
  ueAmbr : Option (String × String)
  servAreaRes : Option ServiceAreaRestriction
  deriving DecidableEq, Repr

inductive CreateSmError where
  | Forbidden
  | InsufficientResources
  | Other
  deriving DecidableEq, Repr

structure SmContextCreated where
  smRef : String
  upN3Teid : Teid
  upN3Addr : Ipv4Addr
  pduAddress : PduAddress
  pduType : PduSessionType
  cause : Option UInt8
  dnsIpv6 : Option Ipv6Addr
  snssai : Snssai
  ambr : SessionAmbr
  ngapFlows : List QosFlow
  nasFlows : List QosFlowDesc
  deriving DecidableEq, Repr

/-- The verdict of the admission gate. -/
inductive Admission where
  | disabled
  | admitted
  | deferred (retryMs : Nat)
  deriving DecidableEq, Repr

/-! ### Calls -/

inductive Call where
  | cblAdmit
  | discoverNf (nfType : String)
  | authenticate (ausfBase supiOrSuci snn : String)
  | authenticateResync (ausfBase supiOrSuci snn rand auts : String)
  | confirm (ausfBase ctxId resStar : String)
  | getAmData (udm supi plmn : String)
  | createAmPolicy (pcfBase supi servingPlmn : String)
  | nsSelection (nssf : String) (tac : Option Tac) (requested subscribed : List Snssai)
  | selectSmf (snssai : Option Snssai) (dnn : String)
  | createSmContext (smfBase supi : String) (psi : UInt8) (dnn : String) (snssai : Option Snssai)
      (pduSessionType : Option PduSessionType)
  | releaseSmContext (smfBase smRef : String)
  | activateUpConnection (smfBase smRef : String)
  deriving DecidableEq, Repr

/-- What a call comes back with; `none` where it fails. -/
@[reducible] def Call.Answer : Call → Type
  | .cblAdmit => Admission
  | .discoverNf _ => Option String
  | .authenticate .. => Option UeAuthenticationCtx
  | .authenticateResync .. => Option UeAuthenticationCtx
  | .confirm .. => Option ConfirmationDataResponse
  | .getAmData .. => Option AmData
  | .createAmPolicy .. => Option (String × PolicyAssociation)
  | .nsSelection .. => Option (List Snssai × List Snssai)
  | .selectSmf .. => Option String
  | .createSmContext .. => Except CreateSmError SmContextCreated
  | .releaseSmContext .. => Bool
  | .activateUpConnection .. => Option SmContextCreated

/-- Places in the handlers.  Those that begin with an id are about the context under it. -/
inductive Mark where
  /-- An uplink NAS PDU for a context has come in. -/
  | uplink (amfUeId : AmfUeId) (raw : Bytes)
  /-- It verified under the security context `sec`, and decoded to `msg`. -/
  | verified (amfUeId : AmfUeId) (sec : NasSecurityContext) (msg : Nas5gmmMessage)
  /-- A registration has begun. -/
  | created (amfUeId : AmfUeId)
  /-- A retained context has come back. -/
  | resumed (amfUeId : AmfUeId)
  /-- The RES* was accepted, with this K_SEAF for this SUPI. -/
  | authenticated (amfUeId : AmfUeId) (kseaf supi : String)
  | registered (amfUeId : AmfUeId)
  /-- A call is made for the context. -/
  | calling (amfUeId : AmfUeId) (e : Call)
  /-- A job is spawned for the context. -/
  | spawning (amfUeId : AmfUeId) (j : Job)
  | sending (dl : Downlink)
  deriving DecidableEq

/-! ### Handlers -/

/-- Key derivation. -/
structure Aka where
  servingNetworkName : String → String → String
  hxresStar : Bytes → Bytes → Bytes
  kamf : Bytes → String → Bytes → Bytes
  /-- The integrity and the ciphering key of NAS. -/
  nasKeys : Bytes → UInt8 → UInt8 → Bytes × Bytes
  kgnb : Bytes → BitVec 32 → Bytes

/-- What the handlers compute with. -/
structure Functions where
  aka : Aka
  algorithms : Algorithms
  nas : NasCodec

/-- A handler. -/
abbrev AmfM : Type → Type := Proc Association Tables Mark Call Call.Answer

/-- Make a call for a context. -/
def callFor (amfUeId : AmfUeId) (e : Call) : AmfM e.Answer := do
  Proc.mark (.calling amfUeId e)
  Proc.ask e

/-- Spawn a job for a context. -/
def spawnFor (amfUeId : AmfUeId) (j : Job) : AmfM Unit := do
  Proc.mark (.spawning amfUeId j)
  Proc.change (Tables.push j)

/-- Arm a timer of this association. -/
def arm (timer : Channel → Job) : AmfM Unit := do
  let tx ← Proc.look fun l _ => l.tx
  Proc.change (Tables.push (timer tx))

/-- The context under an id. -/
def getUe (amfUeId : AmfUeId) : AmfM (Option UeContext) := Proc.look fun l _ => l.ues.lookup amfUeId

/-- Change the context under an id, when there is one. -/
def modifyUe (amfUeId : AmfUeId) (f : UeContext → UeContext) : AmfM Unit :=
  Proc.changeLocal (Association.modify amfUeId f)

def insertUe (amfUeId : AmfUeId) (c : UeContext) : AmfM Unit :=
  Proc.changeLocal (Association.insert amfUeId c)

def removeUe (amfUeId : AmfUeId) : AmfM Unit := Proc.changeLocal (Association.erase amfUeId)

/-- Enter a SUPI's context of this association into the directory. -/
def address (supi : String) (amfUeId : AmfUeId) : AmfM Unit := do
  let tx ← Proc.look fun l _ => l.tx
  Proc.change (Tables.addressed supi amfUeId tx)

def sendAll : List Downlink → AmfM Unit := Proc.forEach fun dl => Proc.mark (.sending dl)

/-- The next AMF-UE-NGAP-ID. -/
def nextAmfUeId : AmfM AmfUeId :=
  Proc.actShared fun t => (t.nextAmfUeId, { t with nextAmfUeId := t.nextAmfUeId + 1 })

/-- Delete an AM policy association off the path. -/
def spawnAmPolicyDelete (amfUeId : AmfUeId) : Option (String × String) → AmfM Unit
  | some (pcfBase, assocId) => spawnFor amfUeId (.amPolicyDelete pcfBase assocId)
  | none => pure ()

/-- Give the subscription to data changes up, when there is one. -/
def spawnSdmUnsubscribe (amfUeId : AmfUeId) (supi : String) : AmfM Unit := do
  let held ← Proc.actShared fun t =>
    (t.sdmSubs.lookup supi, { t with sdmSubs := t.sdmSubs.erase supi })
  match held with
  | some subId => spawnFor amfUeId (.sdmUnsubscribe supi subId)
  | none => pure ()

end Radian.Amf
