import Radian.Proc.Ownership
import Radian.Smf.State

/-!
# What the SMF awaits

The SMF's handlers are processes over one shared state.  They await the UPFs over N4 and the other
network functions over HTTP; what is spawned off a handler's path is queued as a job.

- `Call`, `Call.Answer` — every kind of await and what comes back.
- `Mark` — the sections of the handlers a run's side condition speaks of.
- `Core` — the SMF's state, the PCF it talks to, and the spawned jobs.
- `createSmPolicy`, `updateSmPolicy`, `deleteSmPolicy` — the PCF's side of `Npcf_SMPolicyControl`.
-/

namespace Radian.Smf

open Npcf (HashMap SmPolicyDecision SmPolicyUpdate SmPolicyContextData SessionAmbrPolicy
  QosFlowPolicy)
open Pfcp (Ipv4Addr Ipv6Addr Seid Teid EstablishedSession N4Request N4Response)

/-! ### Messages -/

abbrev StatusCode : Type := Nat

/-- An SBI error response: a status and a problem's application cause and detail. -/
structure SbiProblem where
  status : StatusCode
  cause : String
  detail : String
  deriving DecidableEq, Repr

structure SmContextCreateData where
  supi : String
  pduSessionId : UInt8
  dnn : String
  /-- The serving PLMN's `(mcc, mnc)`. -/
  servingNetwork : Option (String × String)
  sNssai : Option Snssai
  pduSessionType : Option String
  deriving DecidableEq, Repr

structure SmContextCreatedData where
  smContextRef : String
  upN3Teid : Teid
  upN3Addr : Ipv4Addr
  selectedPduSessionType : String
  ueIpv4Addr : Option Ipv4Addr
  ueIpv6Prefix : Option Ipv6Addr
  ueIpv6Iid : Option (BitVec 64)
  cause5gsm : Option UInt8
  dnsIpv6 : Option Ipv6Addr
  sNssai : Snssai
  sessionAmbr : Option SessionAmbrPolicy
  qosFlows : List QosFlowPolicy
  deriving DecidableEq, Repr

/-- What the SMF needs out of the session-management subscription. -/
structure SessionSubscription where
  snssai : Snssai
  ambr : Option SessionAmbrPolicy
  qosFlows : List QosFlowPolicy
  allowV4 : Bool
  allowV6 : Bool
  defaultType : PduSessionType
  dnsIpv6 : Option Ipv6Addr
  deriving DecidableEq, Repr

structure UsedUnitContainer where
  ratingGroup : UInt32
  uplinkVolume : Nat
  downlinkVolume : Nat
  totalVolume : Nat
  uplinkPackets : Nat
  downlinkPackets : Nat
  totalPackets : Nat
  deriving DecidableEq, Repr

structure ChargingDataRequest where
  subscriberIdentifier : String
  /-- The PDU session id and the DNN. -/
  pduSessionChargingInformation : Option (UInt8 × String)
  usedUnitContainers : List UsedUnitContainer
  deriving DecidableEq, Repr

/-- Work spawned off a handler's path. -/
inductive Job where
  | uecmRegister (supi : String) (pduSessionId : UInt8) (dnn : String)
  | uecmPurge (supi : String) (pduSessionId : UInt8)
  | smPolicyDelete (pcfBase policyId : String)
  | chargingRelease (chfBase chargingRef : String) (release : ChargingDataRequest)
  | amfPduModify (supi : String) (psi : UInt8) (decision : SmPolicyDecision)
      (releasedQfis : List UInt8)

/-! ### State -/

/-- The PCF's associations: the creating context and the current decision, by policy id. -/
structure PcfState where
  associations : HashMap (SmPolicyContextData × SmPolicyDecision) := ∅
  nextId : BitVec 64 := 1

structure Core where
  smf : SmfState
  pcf : PcfState := {}
  jobs : List Job := []

/-! ### Calls -/

/-- What happened to an N4 request: the session the UPF installed, if it accepted an establishment,
and the response that came back, if one did. -/
structure N4Outcome where
  installed : Option Seid
  reply : Option N4Response
  deriving DecidableEq, Repr

inductive Call where
  | fetchSessionSubscription (supi plmn dnn : String) (requested : Option Snssai)
  | discoverEndpoint (nfType : String)
  /-- An HTTP request on its way to a peer. -/
  | request (nfType : String)
  /-- Its response on the way back. -/
  | response (nfType : String)
  /-- The PCF reading its policy sources. -/
  | decideFor (ctx : SmPolicyContextData)
  | transact (peer : String) (req : N4Request)
  | associate (peer : String)
  | chargingCreate (chfBase : String) (create : ChargingDataRequest)
  | chargingUpdate (chfBase chargingRef : String) (update : ChargingDataRequest)
  | reportAck (peer : String) (upSeid : Seid)
  | job (j : Job)

/-- A decision read from the policy sources, with the number of the reading. -/
structure PolicyReading where
  number : Nat
  decision : SmPolicyDecision

/-- What a call comes back with. -/
@[reducible] def Call.Answer : Call → Type
  | .fetchSessionSubscription .. => Except SbiProblem SessionSubscription
  | .discoverEndpoint _ => Except String String
  | .request _ => Bool
  | .response _ => Bool
  | .decideFor _ => PolicyReading
  | .transact .. => N4Outcome
  | .associate _ => Bool
  | .chargingCreate .. => Except String String
  /- the final unit action, when the CHF indicates one -/
  | .chargingUpdate .. => Except String (Option String)
  | .reportAck .. => Unit
  | .job _ => Unit

/-- Places in the handlers. -/
inductive Mark where
  /-- A reservation is about to be tried. -/
  | reserving (gfbr : Gfbr)
  /-- A new context is about to be stored. -/
  | storing (smRef : String) (ctx : SmContext)
  /-- A chain is given up with these sessions already accepted. -/
  | abandoning (sessions : List (String × Seid))
  /-- The last section of a teardown, with what its first section read. -/
  | releasing (smRef : String) (copy : SmContext)
  /-- Contexts on a restarted peer are about to be dropped. -/
  | recovering (peer : String)
  /-- A forwarding session is about to be recorded. -/
  | forwarding (smRef : String) (seid : Seid)
  /-- The PCF is about to read the stored decision for a refresh that read `snapshot`. -/
  | reauthorizing (policyId : String) (snapshot : SmPolicyDecision)
  /-- A refresh is about to store what the reading `number` led to. -/
  | merging (smRef : String) (number : Nat) (decision : SmPolicyDecision)
  /-- A refresh ended without storing a decision. -/
  | refreshFailed (smRef : String)

/-- The SMF's handlers. -/
abbrev SmfM (α : Type) : Type := Proc Unit Core Mark Call Call.Answer α

section Primitives

open Proc

/-- Read the SMF's state. -/
def readSmf {α : Type} (f : SmfState → α) : SmfM α := look fun _ c => f c.smf

/-- One section on the SMF's state. -/
def onSmf {α : Type} (f : SmfState → α × SmfState) : SmfM α :=
  actShared fun c => ((f c.smf).1, { c with smf := (f c.smf).2 })

def changeSmf (f : SmfState → SmfState) : SmfM Unit := change fun c => { c with smf := f c.smf }

/-- `get_mut` on the context table. -/
def updateContext (smRef : String) (f : SmContext → SmContext) : SmfM Unit :=
  changeSmf fun s => { s with contexts := s.contexts.modify smRef f }

/-- Spawn work off the handler's path. -/
def spawn (js : List Job) : SmfM Unit := change fun c => { c with jobs := c.jobs ++ js }

/-- The next CP F-SEID. -/
def nextCpSeid : SmfM Seid := onSmf fun s => (s.cpSeid, { s with cpSeid := s.cpSeid + 1 })

/-- Discover the first registered NF of a type. -/
def discoverEndpoint (nfType : String) : SmfM (Except String String) :=
  ask (R := Call.Answer) (.discoverEndpoint nfType)

/-- The PCF's decision for a session context, read anew. -/
def decideFor (ctx : SmPolicyContextData) : SmfM PolicyReading :=
  ask (R := Call.Answer) (.decideFor ctx)

/-- Send an N4 request and await what becomes of it. -/
def exchange (peer : String) (req : N4Request) : SmfM N4Outcome :=
  ask (R := Call.Answer) (.transact peer req)

/-- Send an N4 request and await its response. -/
def transact (peer : String) (req : N4Request) : SmfM (Option N4Response) := do
  let outcome ← exchange peer req
  return outcome.reply

/-- The answer to a request for the establishment of a session. -/
def establish (peer : String) (req : N4Request) : SmfM (Option EstablishedSession) := do
  let resp ← transact peer req
  return resp.bind fun r => r.session

/-- Whether a request was answered with an accepting cause. -/
def accepted (peer : String) (req : N4Request) : SmfM Bool := do
  let resp ← transact peer req
  return (resp.map fun r => r.accepted) == some true

/-- Whether an HTTP request arrives. -/
def sendRequest (nfType : String) : SmfM Bool := ask (R := Call.Answer) (.request nfType)

/-- Whether its response comes back. -/
def awaitResponse (nfType : String) : SmfM Bool := ask (R := Call.Answer) (.response nfType)

/-- Run `body` at a peer over HTTP: the request may not arrive, the response may not come back. -/
def overHttp {β : Type} (nfType : String) (body : SmfM (Except String β)) :
    SmfM (Except String β) := do
  if ← sendRequest nfType then
    let r ← body
    if ← awaitResponse nfType then return r else return .error "no response"
  else return .error "request not delivered"

/-! ### Weakest preconditions -/

section WP

variable {α X : Type} {T : Transformer Unit Core Mark Call Call.Answer X} {l : Unit} {c : Core}
  {x : X}

@[simp] theorem wp_readSmf (f : SmfState → α) (Q : α → Unit → Core → X → Prop) :
    wp T (readSmf f) Q l c x = Q (f c.smf) l c x := rfl

@[simp] theorem wp_onSmf (f : SmfState → α × SmfState) (Q : α → Unit → Core → X → Prop) :
    wp T (onSmf f) Q l c x = Q (f c.smf).1 l { c with smf := (f c.smf).2 } x := rfl

@[simp] theorem wp_changeSmf (f : SmfState → SmfState) (Q : Unit → Unit → Core → X → Prop) :
    wp T (changeSmf f) Q l c x = Q () l { c with smf := f c.smf } x := rfl

@[simp] theorem wp_updateContext (smRef : String) (f : SmContext → SmContext)
    (Q : Unit → Unit → Core → X → Prop) :
    wp T (updateContext smRef f) Q l c x =
      Q () l { c with smf := { c.smf with contexts := c.smf.contexts.modify smRef f } } x := rfl

@[simp] theorem wp_spawn (js : List Job) (Q : Unit → Unit → Core → X → Prop) :
    wp T (spawn js) Q l c x = Q () l { c with jobs := c.jobs ++ js } x := rfl

@[simp] theorem wp_nextCpSeid (Q : Seid → Unit → Core → X → Prop) :
    wp T nextCpSeid Q l c x =
      Q c.smf.cpSeid l { c with smf := { c.smf with cpSeid := c.smf.cpSeid + 1 } } x := rfl

@[simp] theorem wp_discoverEndpoint (nfType : String)
    (Q : Except String String → Unit → Core → X → Prop) :
    wp T (discoverEndpoint nfType) Q l c x = T.call (.discoverEndpoint nfType) Q l c x := rfl

@[simp] theorem wp_decideFor (ctx : SmPolicyContextData)
    (Q : PolicyReading → Unit → Core → X → Prop) :
    wp T (decideFor ctx) Q l c x = T.call (.decideFor ctx) Q l c x := rfl

@[simp] theorem wp_transact (peer : String) (req : N4Request)
    (Q : Option N4Response → Unit → Core → X → Prop) :
    wp T (transact peer req) Q l c x =
      T.call (.transact peer req) (fun out => Q out.reply) l c x := rfl

@[simp] theorem wp_establish (peer : String) (req : N4Request)
    (Q : Option EstablishedSession → Unit → Core → X → Prop) :
    wp T (establish peer req) Q l c x =
      T.call (.transact peer req) (fun out => Q (out.reply.bind fun r => r.session)) l c x := rfl

@[simp] theorem wp_accepted (peer : String) (req : N4Request)
    (Q : Bool → Unit → Core → X → Prop) :
    wp T (accepted peer req) Q l c x =
      T.call (.transact peer req) (fun out => Q ((out.reply.map fun r => r.accepted) == some true))
        l c x := rfl

@[simp] theorem wp_sendRequest (nfType : String) (Q : Bool → Unit → Core → X → Prop) :
    wp T (sendRequest nfType) Q l c x = T.call (.request nfType) Q l c x := rfl

@[simp] theorem wp_awaitResponse (nfType : String) (Q : Bool → Unit → Core → X → Prop) :
    wp T (awaitResponse nfType) Q l c x = T.call (.response nfType) Q l c x := rfl

end WP

/-! ### The PCF -/

/-- `Npcf_SMPolicyControl_Create` at the PCF: the policy id and the decision. -/
def createSmPolicy (ctx : SmPolicyContextData) :
    SmfM (Except String (String × SmPolicyDecision)) := do
  let reading ← decideFor ctx
  let id ← actShared fun c =>
    (toString c.pcf.nextId.toNat, { c with pcf.nextId := c.pcf.nextId + 1 })
  change fun c =>
    { c with pcf.associations := c.pcf.associations.insert id (ctx, reading.decision) }
  return .ok (id, reading.decision)

/-- `Npcf_SMPolicyControl_Update` at the PCF: the partial delta from the decision stored when the
request came in to the one the sources give now, which is stored.  `snapshot` is what the asking
refresh read at the SMF; it only marks the section. -/
def updateSmPolicy (policyId : String) (snapshot : SmPolicyDecision) :
    SmfM (Except String (Nat × SmPolicyUpdate)) := do
  mark (.reauthorizing policyId snapshot)
  match ← look (fun _ c => c.pcf.associations.lookup policyId) with
  | none => return .error "404"
  | some (ctx, prev) =>
      let reading ← decideFor ctx
      let delta := (prev.diff reading.decision).getD {}
      -- skipped if the association was deleted meanwhile
      change fun c =>
        { c with pcf.associations :=
            c.pcf.associations.modify policyId fun entry => (entry.1, reading.decision) }
      return .ok (reading.number, delta)

/-- `Npcf_SMPolicyControl_Delete` at the PCF. -/
def deleteSmPolicy (policyId : String) : SmfM (Except String Unit) := do
  let found ← look fun _ c => c.pcf.associations.lookup policyId
  change fun c => { c with pcf.associations := c.pcf.associations.erase policyId }
  return if found.isSome then .ok () else .error "404"

/-- The PCF's base and what it created, when one is registered and the call succeeds. -/
def fetchSmPolicy (ctx : SmPolicyContextData) :
    SmfM (Option (String × String × SmPolicyDecision)) := do
  match ← discoverEndpoint "PCF" with
  | .error _ => return none
  | .ok pcfBase =>
      match ← overHttp "PCF" (createSmPolicy ctx) with
      | .ok created => return some (pcfBase, created)
      | .error _ => return none

end Primitives

end Radian.Smf
