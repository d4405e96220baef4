import Radian.Pfcp.FlowText
import Radian.Pfcp.Session

/-!
# N4 messages

PFCP messages as decoded values, and the requests an SMF builds from its own types.

- `Message` — a message and its information elements.
- `Codec` — the library that puts a message on the wire and parses it.
- `sessionEstablishmentRequest`, … — the request builders.
-/

namespace Radian.Pfcp

inductive MsgType where
  | heartbeatRequest
  | heartbeatResponse
  | associationSetupRequest
  | associationSetupResponse
  | sessionEstablishmentRequest
  | sessionEstablishmentResponse
  | sessionModificationRequest
  | sessionModificationResponse
  | sessionDeletionRequest
  | sessionDeletionResponse
  | sessionReportRequest
  | sessionReportResponse
  | other
  deriving DecidableEq, Repr

inductive CauseValue where
  | requestAccepted
  | requestRejected
  | sessionContextNotFound
  | noResourcesAvailable
  deriving DecidableEq, Repr

/-! ### Information elements -/

inductive Interface where
  | access
  | core
  deriving DecidableEq, Repr

structure OuterHeaderCreation where
  teid : Option Teid
  ipv4Address : Option Ipv4Addr
  deriving DecidableEq, Repr

def OuterHeaderCreation.gtpuIpv4 (teid : Teid) (addr : Ipv4Addr) : OuterHeaderCreation :=
  { teid := some teid, ipv4Address := some addr }

/-- The tunnel, when both of its parts are there. -/
def OuterHeaderCreation.tunnel (ohc : OuterHeaderCreation) : Option (Teid × Ipv4Addr) := do
  return (← ohc.teid, ← ohc.ipv4Address)

structure ForwardingParameters where
  destinationInterface : Option Interface
  networkInstance : Option String
  outerHeaderCreation : Option OuterHeaderCreation
  deriving DecidableEq, Repr

structure ApplyAction where
  drop : Bool := false
  forw : Bool := false
  buff : Bool := false
  nocp : Bool := false
  deriving DecidableEq, Repr

structure Fteid where
  teid : Teid
  ipv4Address : Option Ipv4Addr
  choose : Bool
  deriving DecidableEq, Repr

structure Pdi where
  sourceInterface : Interface
  fTeid : Option Fteid := none
  ueIpAddress : Option UeAddr := none
  sdfFilter : Option (List Char) := none
  deriving DecidableEq, Repr

structure CreatePdr where
  pdrId : Nat
  precedence : Nat
  pdi : Pdi
  farId : Option Nat := none
  urrId : Option Nat := none
  qerId : Option Nat := none
  deriving DecidableEq, Repr

structure CreateFar where
  farId : Nat
  applyAction : ApplyAction
  forwardingParameters : Option ForwardingParameters
  deriving DecidableEq, Repr

/-- A maximum bit rate. -/
structure Mbr where
  uplink : Nat
  downlink : Nat
  deriving DecidableEq, Repr

structure CreateQer where
  qerId : Nat
  mbr : Option Mbr
  gateStatus : Option Gate
  deriving DecidableEq, Repr

structure CreateUrr where
  urrId : Nat
  volumeThresholdTrigger : Bool
  /-- The threshold on the total volume of a Volume Threshold. -/
  volumeThreshold : Option (Option Nat)
  deriving DecidableEq, Repr

structure UpdateFar where
  farId : Nat
  applyAction : Option ApplyAction
  updateForwardingParameters : Option ForwardingParameters
  deriving DecidableEq, Repr

structure UpdateQer where
  qerId : Nat
  mbr : Option Mbr
  gateStatus : Option Gate
  deriving DecidableEq, Repr

structure CreatedPdr where
  pdrId : Nat
  fTeid : Fteid
  deriving DecidableEq, Repr

structure UsageReport where
  usage : UsageVolume
  urSeqn : Nat
  trigger : UInt8
  deriving DecidableEq, Repr

/-! ### Messages -/

/-- A message: of each kind of IE the ones that decode, in order.  Where the code takes the first
IE of a kind before it decodes it, one that does not decode is kept as `none`. -/
structure Message where
  msgType : MsgType
  seid : Option Seid
  sequence : Nat
  nodeId : Option Ipv4Addr := none
  recoveryTimeStamp : Option Nat := none
  cause : Option CauseValue := none
  fseids : List (Option Seid) := []
  createPdrs : List CreatePdr := []
  createFars : List CreateFar := []
  createQers : List CreateQer := []
  createUrrs : List CreateUrr := []
  updateFars : List UpdateFar := []
  updateQers : List UpdateQer := []
  removePdrs : List Nat := []
  removeFars : List Nat := []
  removeQers : List Nat := []
  queryUrrs : List Nat := []
  /-- Whether SNDEM is set in each PFCPSMReq-Flags. -/
  pfcpsmReqFlags : List (Option Bool) := []
  createdPdrs : List CreatedPdr := []
  usageReports : List UsageReport := []
  deriving DecidableEq, Repr

/-- How messages travel: `parse` is `none` on a datagram that is no PFCP message. -/
structure Codec (D : Type) where
  parse : D → Option Message
  marshal : Message → D

/-- A message is parsed as it was before it was put on the wire. -/
def Codec.RoundTrips {D : Type} (codec : Codec D) (m : Message) : Prop :=
  codec.parse (codec.marshal m) = some m

/-! ### Rules in requests -/

/-- An F-TEID for the UPF to choose. -/
def upfChoosesFteid : Fteid := { teid := 0, ipv4Address := none, choose := true }

def Fteid.ipv4 (teid : Teid) (addr : Ipv4Addr) : Fteid :=
  { teid, ipv4Address := some addr, choose := false }

def Gate.isRestricted (g : Gate) : Bool := !g.uplink || !g.downlink

/-- Forward to a network, named by the DNN. -/
def forwardToNetwork (interface : Interface) (dnn : String) : ForwardingParameters :=
  { destinationInterface := some interface
    networkInstance := some dnn
    outerHeaderCreation := none }

/-- The QER, the classifier PDR and the URR of a flow. -/
def flowCreateIes (f : FlowQer) : CreateQer × CreatePdr × CreateUrr :=
  let flowQerId := PER_FLOW_QER_BASE + f.qfi.toNat
  let flowUrrId := PER_FLOW_URR_BASE + f.qfi.toNat
  ({ qerId := flowQerId
     mbr := some { uplink := f.mfbrUlBps, downlink := f.mfbrDlBps }
     -- an open gate is the default and is not sent
     gateStatus := if f.gate.isRestricted then some f.gate else none },
   { pdrId := PER_FLOW_PDR_BASE + f.qfi.toNat
     precedence := 50
     pdi := { sourceInterface := .access, sdfFilter := some f.filter.toFlowDescription }
     farId := some 1
     qerId := some flowQerId
     urrId := some flowUrrId },
   { urrId := flowUrrId, volumeThresholdTrigger := false, volumeThreshold := none })

def egressForwardingParameters (egress : Egress) (dnn : String) : ForwardingParameters :=
  let params := forwardToNetwork .core dnn
  match egress with
  | .toN6 => params
  | .toPeer teid addr => { params with outerHeaderCreation := some (.gtpuIpv4 teid addr) }

/-- The classifier PDR and the FAR of a branch; the PDR id has 16 bits, the FAR id 32. -/
def branchCreateIes (index : Nat) (filter : FlowFilter) (egress : Egress) (dnn : String) :
    CreatePdr × CreateFar :=
  let farId := (ULCL_FAR_BASE + index % 2 ^ 32) % 2 ^ 32
  ({ pdrId := (ULCL_PDR_BASE + index % 2 ^ 16) % 2 ^ 16
     precedence := ULCL_PRECEDENCE
     pdi := { sourceInterface := .access, sdfFilter := some filter.toFlowDescription }
     farId := some farId },
   { farId
     applyAction := { forw := true }
     forwardingParameters := some (egressForwardingParameters egress dnn) })

/-- The rules of branches numbered in order. -/
def branchRules (branches : List (FlowFilter × Egress)) (dnn : String) :
    List (CreatePdr × CreateFar) :=
  branches.zipIdx.map fun b => branchCreateIes b.2 b.1.1 b.1.2 dnn

/-! ### Establishment requests -/

/-- A basic session: an uplink and a downlink rule, the AMBR, the session URR and the flows. -/
def sessionEstablishmentRequest (cpSeid : Seid) (seq : Nat) (smfIp : Ipv4Addr) (ue : UeAddr)
    (dnn : String) (ambr : Option SessionAmbr) (flows : List FlowQer)
    (usageThresholdBytes : Option Nat) : Message :=
  let qerId := ambr.map fun _ => AMBR_QER_ID
  let ulPdr : CreatePdr :=
    { pdrId := 1
      precedence := 100
      pdi := { sourceInterface := .access, fTeid := some upfChoosesFteid }
      farId := some 1
      urrId := some SESSION_URR_ID
      qerId }
  let dlPdr : CreatePdr :=
    { pdrId := 2
      precedence := 200
      pdi := { sourceInterface := .core, ueIpAddress := some ue }
      farId := some 2
      urrId := some SESSION_URR_ID
      qerId }
  let ambrQer := ambr.map fun a : SessionAmbr =>
    ({ qerId := AMBR_QER_ID
       mbr := some { uplink := a.uplinkBps, downlink := a.downlinkBps }
       gateStatus := none } : CreateQer)
  let urr : CreateUrr :=
    { urrId := SESSION_URR_ID
      volumeThresholdTrigger := usageThresholdBytes.isSome
      volumeThreshold := usageThresholdBytes.map some }
  { msgType := .sessionEstablishmentRequest
    seid := some 0
    sequence := seq
    nodeId := some smfIp
    fseids := [some cpSeid]
    createPdrs := ulPdr :: dlPdr :: flows.map fun f => (flowCreateIes f).2.1
    createFars :=
      [{ farId := 1
         applyAction := { forw := true }
         forwardingParameters := some (forwardToNetwork .core dnn) },
       { farId := 2
         applyAction := { forw := true }
         forwardingParameters := some (forwardToNetwork .access dnn) }]
    createQers := ambrQer.toList ++ flows.map fun f => (flowCreateIes f).1
    createUrrs := urr :: flows.map fun f => (flowCreateIes f).2.2 }

/-- An intermediate UPF's session: the uplink on to a peer over N9, and the branches. -/
def sessionEstablishmentRequestViaPeer (cpSeid : Seid) (seq : Nat) (smfIp : Ipv4Addr) (ue : UeAddr)
    (dnn : String) (peerTeid : Teid) (peerAddr : Ipv4Addr) (branches : List (FlowFilter × Egress)) :
    Message :=
  let ulPdr : CreatePdr :=
    { pdrId := 1
      precedence := 100
      pdi :=
        { sourceInterface := .access, fTeid := some upfChoosesFteid, ueIpAddress := some ue }
      farId := some UPLINK_FAR_ID }
  let ulFar : CreateFar :=
    { farId := UPLINK_FAR_ID
      applyAction := { forw := true }
      forwardingParameters := some
        { destinationInterface := some .core
          networkInstance := none
          outerHeaderCreation := some (.gtpuIpv4 peerTeid peerAddr) } }
  let dlPdr : CreatePdr :=
    { pdrId := DOWNLINK_PDR_ID
      precedence := 200
      pdi := { sourceInterface := .core, fTeid := some upfChoosesFteid }
      farId := some 2 }
  let dlFar : CreateFar :=
    { farId := 2
      applyAction := { forw := true }
      forwardingParameters := some (forwardToNetwork .access dnn) }
  let rules := branchRules branches dnn
  { msgType := .sessionEstablishmentRequest
    seid := some 0
    sequence := seq
    nodeId := some smfIp
    fseids := [some cpSeid]
    createPdrs := ulPdr :: dlPdr :: rules.map fun r => r.1
    createFars := ulFar :: dlFar :: rules.map fun r => r.2 }

/-- A tunnel from one gNB's downlink to another's. -/
def sessionEstablishmentRequestIndirectForwarding (cpSeid : Seid) (seq : Nat) (smfIp : Ipv4Addr)
    (targetTeid : Teid) (targetAddr : Ipv4Addr) : Message :=
  { msgType := .sessionEstablishmentRequest
    seid := some 0
    sequence := seq
    nodeId := some smfIp
    fseids := [some cpSeid]
    createPdrs :=
      [{ pdrId := 1
         precedence := 100
         pdi := { sourceInterface := .access, fTeid := some upfChoosesFteid }
         farId := some 1 }]
    createFars :=
      [{ farId := 1
         applyAction := { forw := true }
         forwardingParameters := some
           { destinationInterface := some .access
             networkInstance := none
             outerHeaderCreation := some (.gtpuIpv4 targetTeid targetAddr) } }] }

/-! ### Requests about a session -/

/-- Re-rate the session AMBR. -/
def sessionQerUpdateRequest (upSeid : Seid) (seq : Nat) (ambr : SessionAmbr) : Message :=
  { msgType := .sessionModificationRequest
    seid := some upSeid
    sequence := seq
    updateQers :=
      [{ qerId := AMBR_QER_ID
         mbr := some { uplink := ambr.uplinkBps, downlink := ambr.downlinkBps }
         gateStatus := none }] }

/-- Ask for the usage of some URRs now. -/
def sessionUrrQueryRequest (upSeid : Seid) (seq : Nat) (urrIds : List Nat) : Message :=
  { msgType := .sessionModificationRequest
    seid := some upSeid
    sequence := seq
    queryUrrs := urrIds }

/-- Create, update and remove flows; an update always states the gate. -/
def sessionFlowModificationRequest (upSeid : Seid) (seq : Nat) (create update : List FlowQer)
    (removeQfis : List UInt8) : Message :=
  { msgType := .sessionModificationRequest
    seid := some upSeid
    sequence := seq
    createPdrs := create.map fun f => (flowCreateIes f).2.1
    createQers := create.map fun f => (flowCreateIes f).1
    createUrrs := create.map fun f => (flowCreateIes f).2.2
    updateQers := update.map fun f =>
      { qerId := PER_FLOW_QER_BASE + f.qfi.toNat
        mbr := some { uplink := f.mfbrUlBps, downlink := f.mfbrDlBps }
        gateStatus := some f.gate }
    removeQers := removeQfis.map fun q => PER_FLOW_QER_BASE + q.toNat
    removePdrs := removeQfis.map fun q => PER_FLOW_PDR_BASE + q.toNat }

def sessionModificationAddBranch (upSeid : Seid) (seq index : Nat) (filter : FlowFilter)
    (egress : Egress) (dnn : String) : Message :=
  { msgType := .sessionModificationRequest
    seid := some upSeid
    sequence := seq
    createPdrs := [(branchCreateIes index filter egress dnn).1]
    createFars := [(branchCreateIes index filter egress dnn).2] }

def sessionModificationRemoveBranch (upSeid : Seid) (seq index : Nat) : Message :=
  { msgType := .sessionModificationRequest
    seid := some upSeid
    sequence := seq
    removePdrs := [(ULCL_PDR_BASE + index % 2 ^ 16) % 2 ^ 16]
    removeFars := [(ULCL_FAR_BASE + index % 2 ^ 32) % 2 ^ 32] }

/-- Buffer the downlink and notify the control plane. -/
def sessionDeactivateRequest (upSeid : Seid) (seq farId : Nat) : Message :=
  { msgType := .sessionModificationRequest
    seid := some upSeid
    sequence := seq
    updateFars :=
      [{ farId
         applyAction := some { buff := true, nocp := true }
         updateForwardingParameters := none }] }

/-- Install the downlink path toward a gNB. -/
def sessionModificationRequest (upSeid : Seid) (seq farId : Nat) (gnbTeid : Teid)
    (gnbIp : Ipv4Addr) (dnn : String) (sendEndMarker : Bool) : Message :=
  { msgType := .sessionModificationRequest
    seid := some upSeid
    sequence := seq
    updateFars :=
      [{ farId
         applyAction := some { forw := true }
         updateForwardingParameters := some
           { forwardToNetwork .access dnn with
             outerHeaderCreation := some (.gtpuIpv4 gnbTeid gnbIp) } }]
    pfcpsmReqFlags := if sendEndMarker then [some true] else [] }

def sessionDeletionRequest (upSeid : Seid) (seq : Nat) : Message :=
  { msgType := .sessionDeletionRequest, seid := some upSeid, sequence := seq }

end Radian.Pfcp
