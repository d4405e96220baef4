import Radian.Pfcp.Message
import Radian.Pfcp.Upf

/-!
# The N4 handler

What the UPF does with an N4 datagram, and how the SMF reads the answer to an establishment.

- `parseCreatedFlows`, `parseBranches` — the flows and branches a message provisions.
- `handleN4From` — one datagram of a peer: the answer and the new state.
- `effect_handleMessage` — everything a message can do to the state.
-/

namespace Radian.Pfcp

/-! ### Rules in a message -/

/-- The egress of a FAR: its tunnel, else N6. -/
def CreateFar.egress (far : CreateFar) : Egress :=
  match (far.forwardingParameters.bind fun fp => fp.outerHeaderCreation).bind
    OuterHeaderCreation.tunnel with
  | some (teid, addr) => .toPeer teid addr
  | none => .toN6

def farEgress (msg : Message) : List (Nat × Egress) :=
  msg.createFars.map fun far => (far.farId, far.egress)

/-- The branch of a classifier PDR and the FAR it points at. -/
def createdBranch (msg : Message) (pdr : CreatePdr) : Option Branch := do
  let filter ← FlowFilter.fromFlowDescription (← pdr.pdi.sdfFilter)
  let egress ← Keyed.collect (farEgress msg) (← pdr.farId)
  return (pdr.pdrId, filter, egress)

/-- The branches a message provisions, by PDR id. -/
def parseBranches (msg : Message) : List Branch :=
  ((msg.createPdrs.filter fun pdr => ULCL_PDR_BASE ≤ pdr.pdrId).insertionSort
    fun a b => a.pdrId ≤ b.pdrId).filterMap (createdBranch msg)

/-- The MBR and the gate of a QER with an MBR; no Gate Status is an open gate. -/
def qerEntry (q : CreateQer) : Option (Nat × Mbr × Gate) :=
  q.mbr.map fun m => (q.qerId, m, q.gateStatus.getD Gate.OPEN)

def qerInfo (msg : Message) : List (Nat × Mbr × Gate) := msg.createQers.filterMap qerEntry

/-- The QFI in a per-flow QER id. -/
def qfiOfQerId (qerId : Nat) : UInt8 := .ofNat (qerId - PER_FLOW_QER_BASE)

/-- The flow of a classifier PDR and the QER it is linked to. -/
def createdFlow (msg : Message) (pdr : CreatePdr) : Option FlowQer := do
  let filter ← FlowFilter.fromFlowDescription (← pdr.pdi.sdfFilter)
  let qerId ← pdr.qerId
  let (mbr, gate) ← Keyed.collect (qerInfo msg) qerId
  return { qfi := qfiOfQerId qerId
           filter
           mfbrDlBps := mbr.downlink
           mfbrUlBps := mbr.uplink
           gate }

/-- The flows a message provisions. -/
def parseCreatedFlows (msg : Message) : List FlowQer := msg.createPdrs.filterMap (createdFlow msg)

/-! ### Establishment -/

/-- The UE addresses of the first PDR that carries some. -/
def ueAddrOf (msg : Message) : UeAddr :=
  (msg.createPdrs.findSome? fun pdr => pdr.pdi.ueIpAddress).getD { v4 := none, v6 := none }

def ambrOf (msg : Message) : Option SessionAmbr :=
  ((msg.createQers.find? fun q => q.qerId == AMBR_QER_ID).bind fun q => q.mbr).map fun m =>
    { uplinkBps := m.uplink, downlinkBps := m.downlink }

def usageThresholdOf (msg : Message) : Option Nat :=
  ((msg.createUrrs.find? fun u => u.urrId == SESSION_URR_ID).bind fun u => u.volumeThreshold).join

def uplinkOf (msg : Message) : Egress :=
  ((msg.createFars.find? fun far => far.farId == UPLINK_FAR_ID).map CreateFar.egress).getD .toN6

def wantsDlIngress (msg : Message) : Bool :=
  msg.createPdrs.any fun pdr => pdr.pdrId == DOWNLINK_PDR_ID && pdr.pdi.fTeid.isSome

def sessionEstablishmentResponse (cpSeid : Seid) (seq : Nat) (cause : CauseValue)
    (nodeIp : Ipv4Addr) (upSeid : Seid) (createdPdrs : List CreatedPdr) : Message :=
  { msgType := .sessionEstablishmentResponse
    seid := some cpSeid
    sequence := seq
    nodeId := some nodeIp
    cause := some cause
    fseids := [some upSeid]
    createdPdrs }

def handleEstablishment (msg : Message) (nodeIp : Ipv4Addr) (s : UpfState) (nowNanos : Nat)
    (peer : Option IpAddr) : Option Message × UpfState :=
  match msg.fseids.head?.join with
  | none => (none, s)
  | some cpSeid =>
      if s.maxSessions ≤ s.sessionCount then
        (some (sessionEstablishmentResponse cpSeid msg.sequence .noResourcesAvailable nodeIp 0 []),
          s)
      else
        match s.establish cpSeid peer (ueAddrOf msg) (ambrOf msg) (parseCreatedFlows msg)
          (usageThresholdOf msg) nowNanos (uplinkOf msg) (parseBranches msg)
          (wantsDlIngress msg) with
        | none => (none, s)
        | some ((upSeid, teid, dlIngressTeid), s) =>
            (some (sessionEstablishmentResponse cpSeid msg.sequence .requestAccepted nodeIp upSeid
              ({ pdrId := 1, fTeid := .ipv4 teid nodeIp } ::
                (dlIngressTeid.map fun dl =>
                  ({ pdrId := DOWNLINK_PDR_ID, fTeid := .ipv4 dl nodeIp } : CreatedPdr)).toList)),
              s)

/-! ### Modification -/

/-- Whether a peer is not the one the session is bound to. -/
def refuses (s : UpfState) (peer : Option IpAddr) (upSeid : Seid) : Bool :=
  match peer, s.sessionPeer upSeid with
  | some req, some bound => req != bound
  | _, _ => false

def sendEndMarkerOf (msg : Message) : Bool := msg.pfcpsmReqFlags.head?.join.getD false

/-- The update of the downlink FAR: a tunnel to install, or none and whether to park the
downlink. -/
def downlinkUpdateOf (msg : Message) : Option (Option (Teid × Ipv4Addr) × Bool) :=
  (msg.updateFars.find? fun uf => uf.farId == DOWNLINK_FAR_ID &&
      (uf.updateForwardingParameters.isSome || uf.applyAction.isSome)).map fun uf =>
    ((uf.updateForwardingParameters.bind fun ufp => ufp.outerHeaderCreation).bind
        OuterHeaderCreation.tunnel,
      uf.applyAction.any fun a => a.buff || a.drop)

def applyDownlinkUpdate (msg : Message) (upSeid : Seid) (s : UpfState) : UpfState :=
  match downlinkUpdateOf msg with
  | some (some gnb, _) => s.setDownlink upSeid gnb (sendEndMarkerOf msg)
  | some (none, true) => s.clearDownlink upSeid
  | _ => s

def applyUpdateQer (upSeid : Seid) (nowNanos : Nat) (s : UpfState) (uq : UpdateQer) : UpfState :=
  if uq.qerId = AMBR_QER_ID then
    match uq.mbr with
    | some m => s.setAmbr upSeid { uplinkBps := m.uplink, downlinkBps := m.downlink } nowNanos
    | none => s
  else
    let s := match uq.mbr with
      | some m => s.updateFlowRate upSeid (qfiOfQerId uq.qerId) m.downlink m.uplink nowNanos
      | none => s
    match uq.gateStatus with
    | some gate => s.setFlowGate upSeid (qfiOfQerId uq.qerId) gate
    | none => s

/-- The flow rules, remove before create before update, then the branches, remove before create. -/
def applyRules (msg : Message) (upSeid : Seid) (nowNanos : Nat) (s : UpfState) : UpfState :=
  let s := (msg.removeQers.filter fun id => id != AMBR_QER_ID).foldl
    (fun s id => s.removeFlow upSeid (qfiOfQerId id)) s
  let s := (parseCreatedFlows msg).foldl (fun s f => s.addFlow upSeid f nowNanos) s
  let s := msg.updateQers.foldl (applyUpdateQer upSeid nowNanos) s
  let s := (msg.removePdrs.filter fun id => ULCL_PDR_BASE ≤ id).foldl
    (fun s id => s.removeBranch upSeid id) s
  (parseBranches msg).foldl (fun s b => s.addBranch upSeid b) s

/-- The usage of the queried URRs, numbered by their place among the queries. -/
def queryReports (msg : Message) (upSeid : Seid) (s : UpfState) : List UsageReport :=
  msg.queryUrrs.zipIdx.filterMap fun q =>
    (s.queryUrrUsage upSeid q.1).map fun usage => { usage, urSeqn := q.2 + 1, trigger := 0x40 }

def sessionModificationResponse (upSeid : Seid) (seq : Nat) (cause : CauseValue)
    (usageReports : List UsageReport) : Message :=
  { msgType := .sessionModificationResponse
    seid := some upSeid
    sequence := seq
    cause := some cause
    usageReports }

def handleModification (msg : Message) (s : UpfState) (nowNanos : Nat) (peer : Option IpAddr) :
    Option Message × UpfState :=
  match msg.seid with
  | none => (none, s)
  | some upSeid =>
      if refuses s peer upSeid then
        (some (sessionModificationResponse upSeid msg.sequence .requestRejected []), s)
      else
        let s := applyRules msg upSeid nowNanos (applyDownlinkUpdate msg upSeid s)
        (some (sessionModificationResponse upSeid msg.sequence .requestAccepted
          (queryReports msg upSeid s)), s)

/-! ### Deletion -/

/-- The final reports, numbered in order. -/
def finalReports (usages : List UsageVolume) : List UsageReport :=
  usages.zipIdx.map fun u => { usage := u.1, urSeqn := u.2 + 1, trigger := 0x20 }

def sessionDeletionResponse (upSeid : Seid) (seq : Nat) (cause : CauseValue)
    (usageReports : List UsageReport) : Message :=
  { msgType := .sessionDeletionResponse
    seid := some upSeid
    sequence := seq
    cause := some cause
    usageReports }

def handleDeletion (msg : Message) (s : UpfState) (peer : Option IpAddr) :
    Option Message × UpfState :=
  match msg.seid with
  | none => (none, s)
  | some upSeid =>
      if refuses s peer upSeid then
        (some (sessionDeletionResponse upSeid msg.sequence .requestRejected []), s)
      else
        match s.remove upSeid with
        | (some usages, s) =>
            (some (sessionDeletionResponse upSeid msg.sequence .requestAccepted
              (finalReports usages)), s)
        | (none, s) =>
            (some (sessionDeletionResponse upSeid msg.sequence .sessionContextNotFound []), s)

/-! ### The handler -/

/-- One message: the answer, if any, and the new state. -/
def handleMessage (msg : Message) (nodeIp : Ipv4Addr) (s : UpfState) (nowNanos : Nat)
    (peer : Option IpAddr) : Option Message × UpfState :=
  match msg.msgType with
  | .associationSetupRequest =>
      (some { msgType := .associationSetupResponse
              seid := none
              sequence := msg.sequence
              cause := some .requestAccepted
              nodeId := some nodeIp
              recoveryTimeStamp := some s.recoveryTime }, s)
  | .heartbeatRequest =>
      (some { msgType := .heartbeatResponse
              seid := none
              sequence := msg.sequence
              recoveryTimeStamp := some s.recoveryTime }, s)
  | .sessionEstablishmentRequest => handleEstablishment msg nodeIp s nowNanos peer
  | .sessionModificationRequest => handleModification msg s nowNanos peer
  | .sessionDeletionRequest => handleDeletion msg s peer
  | _ => (none, s)

/-- One datagram from `peer`. -/
def handleN4From {D : Type} (codec : Codec D) (data : D) (nodeIp : Ipv4Addr) (s : UpfState)
    (nowNanos : Nat) (peer : Option IpAddr) : Option D × UpfState :=
  match codec.parse data with
  | none => (none, s)
  | some msg =>
      let r := handleMessage msg nodeIp s nowNanos peer
      (r.1.map codec.marshal, r.2)

/-- What the SMF reads in the answer to an establishment. -/
def parseSessionEstablishmentResponse {D : Type} (codec : Codec D) (data : D) :
    Option EstablishedSession := do
  let msg ← codec.parse data
  if msg.msgType = .sessionEstablishmentResponse then
    let upSeid ← msg.fseids.head?.join
    let uplink ← (msg.createdPdrs.find? fun p => p.pdrId == 1).or msg.createdPdrs.head?
    let n3Addr ← uplink.fTeid.ipv4Address
    return { upSeid
             n3Teid := uplink.fTeid.teid
             n3Addr
             dlIngress := (msg.createdPdrs.find? fun p => p.pdrId == DOWNLINK_PDR_ID).bind fun p =>
               p.fTeid.ipv4Address.map fun addr => (p.fTeid.teid, addr) }
  else none

/-! ### What a message does -/

namespace Session

def applyDownlinkUpdate (msg : Message) (t : Session) : Session :=
  match downlinkUpdateOf msg with
  | some (some gnb, _) => t.setDownlink gnb
  | some (none, true) => t.clearDownlink
  | _ => t

def applyUpdateQer (nowNanos : Nat) (t : Session) (uq : UpdateQer) : Session :=
  if uq.qerId = AMBR_QER_ID then
    match uq.mbr with
    | some m => t.setAmbr { uplinkBps := m.uplink, downlinkBps := m.downlink } nowNanos
    | none => t
  else
    let t := match uq.mbr with
      | some m => t.updateFlowRate (qfiOfQerId uq.qerId) m.downlink m.uplink nowNanos
      | none => t
    match uq.gateStatus with
    | some gate => t.setFlowGate (qfiOfQerId uq.qerId) gate
    | none => t

/-- The flow rules and the branches, as `Radian.Pfcp.applyRules` does it. -/
def applyRules (msg : Message) (nowNanos : Nat) (t : Session) : Session :=
  let t := (msg.removeQers.filter fun id => id != AMBR_QER_ID).foldl
    (fun t id => t.removeFlow (qfiOfQerId id)) t
  let t := (parseCreatedFlows msg).foldl (fun t f => t.addFlow f nowNanos) t
  let t := msg.updateQers.foldl (applyUpdateQer nowNanos) t
  let t := (msg.removePdrs.filter fun id => ULCL_PDR_BASE ≤ id).foldl
    (fun t id => t.removeBranch id) t
  (parseBranches msg).foldl (fun t b => t.addBranch b.1 b.2.1 b.2.2) t

/-- A modification of one session. -/
def modify (msg : Message) (nowNanos : Nat) (t : Session) : Session :=
  (t.applyDownlinkUpdate msg).applyRules msg nowNanos

end Session

/-- The tunnel a modification installs. -/
def installs (msg : Message) : Option (Teid × Ipv4Addr) := (downlinkUpdateOf msg).bind Prod.fst

/-- What a modification of session `t` sends on N3. -/
structure Sends where
  flush : List (Teid × Ipv4Addr × UInt8 × Packet)
  endMarkers : List (Teid × Ipv4Addr)
  ras : List (Teid × Ipv4Addr × Ipv6Addr)

def Sends.none : Sends := ⟨[], [], []⟩

def Session.sends (msg : Message) (t : Session) : Sends :=
  match installs msg with
  | some gnb => ⟨t.flush gnb, t.endMarkers gnb (sendEndMarkerOf msg), t.routerAdvertisements gnb⟩
  | none => Sends.none

namespace UpfState

/-- Queue what is to be sent on N3. -/
def queue (s : UpfState) (out : Sends) : UpfState :=
  { s with
    pendingFlush := s.pendingFlush ++ out.flush
    pendingEndMarkers := s.pendingEndMarkers ++ out.endMarkers
    pendingRa := s.pendingRa ++ out.ras }

theorem queue_none (s : UpfState) : s.queue Sends.none = s := by
  simp [queue, Sends.none]

theorem onSession_queue (s : UpfState) (upSeid : Seid) (f : Session → Session) (out : Sends) :
    (s.queue out).onSession upSeid f = (s.onSession upSeid f).queue out := rfl

/-- A modification of a session that exists. -/
def modify (s : UpfState) (msg : Message) (upSeid : Seid) (nowNanos : Nat) (t : Session) :
    UpfState :=
  (s.onSession upSeid fun t => t.modify msg nowNanos).queue (t.sends msg)

theorem lookup_modify (s : UpfState) (msg : Message) (upSeid seid : Seid) (nowNanos : Nat)
    (t : Session) :
    (s.modify msg upSeid nowNanos t).sessions.lookup seid =
      if seid = upSeid then (s.sessions.lookup upSeid).map fun t => t.modify msg nowNanos
      else s.sessions.lookup seid :=
  lookup_onSession s upSeid seid _

theorem lookup_modify_self (s : UpfState) (msg : Message) (upSeid : Seid) (nowNanos : Nat)
    (t : Session) :
    (s.modify msg upSeid nowNanos t).sessions.lookup upSeid =
      (s.sessions.lookup upSeid).map fun t => t.modify msg nowNanos := by
  rw [lookup_modify, if_pos rfl]

end UpfState

theorem applyUpdateQer_eq (upSeid : Seid) (nowNanos : Nat) (s : UpfState) (uq : UpdateQer) :
    applyUpdateQer upSeid nowNanos s uq =
      s.onSession upSeid fun t => t.applyUpdateQer nowNanos uq := by
  obtain ⟨qerId, mbr, gateStatus⟩ := uq
  by_cases hid : qerId = AMBR_QER_ID
  · cases mbr <;> simp [applyUpdateQer, Session.applyUpdateQer, hid, UpfState.setAmbr,
      UpfState.onSession_id]
  · cases mbr <;> cases gateStatus <;>
      simp [applyUpdateQer, Session.applyUpdateQer, hid, UpfState.updateFlowRate,
        UpfState.setFlowGate, UpfState.onSession_id, UpfState.onSession_onSession]

/-- The rules of a message change one session. -/
theorem applyRules_eq (msg : Message) (upSeid : Seid) (nowNanos : Nat) (s : UpfState) :
    applyRules msg upSeid nowNanos s =
      s.onSession upSeid fun t => t.applyRules msg nowNanos := by
  have hupdate : applyUpdateQer upSeid nowNanos = fun s uq =>
      s.onSession upSeid fun t => t.applyUpdateQer nowNanos uq := by
    funext s uq
    exact applyUpdateQer_eq upSeid nowNanos s uq
  simp only [applyRules, hupdate, UpfState.removeFlow, UpfState.addFlow, UpfState.removeBranch,
    UpfState.addBranch, UpfState.foldl_onSession, UpfState.onSession_onSession]
  rfl

/-- A modification of an unknown session changes nothing. -/
theorem modification_unknown {msg : Message} {upSeid : Seid} {nowNanos : Nat} {s : UpfState}
    (h : s.sessions.lookup upSeid = none) :
    applyRules msg upSeid nowNanos (applyDownlinkUpdate msg upSeid s) = s := by
  have hdownlink : applyDownlinkUpdate msg upSeid s = s := by
    unfold applyDownlinkUpdate
    rcases downlinkUpdateOf msg with _ | ⟨_ | gnb, _ | _⟩
    · rfl
    · rfl
    · exact UpfState.onSession_none _ h
    · simp [UpfState.setDownlink, h]
    · simp [UpfState.setDownlink, h]
  rw [hdownlink, applyRules_eq, UpfState.onSession_none _ h]

theorem modification_known {msg : Message} {upSeid : Seid} {nowNanos : Nat} {s : UpfState}
    {t : Session} (h : s.sessions.lookup upSeid = some t) :
    applyRules msg upSeid nowNanos (applyDownlinkUpdate msg upSeid s) =
      s.modify msg upSeid nowNanos t := by
  have hdownlink : applyDownlinkUpdate msg upSeid s =
      (s.onSession upSeid fun t => t.applyDownlinkUpdate msg).queue (t.sends msg) := by
    unfold applyDownlinkUpdate Session.applyDownlinkUpdate Session.sends installs
    rcases downlinkUpdateOf msg with _ | ⟨_ | gnb, parks⟩
    · simp [UpfState.onSession_id, UpfState.queue_none]
    · cases parks
      · simp [UpfState.onSession_id, UpfState.queue_none]
      · simp [UpfState.clearDownlink, UpfState.queue_none]
    · simp [UpfState.setDownlink, h, UpfState.queue]
  rw [hdownlink, applyRules_eq, UpfState.onSession_queue, UpfState.onSession_onSession]
  rfl

/-- An establishment that is accepted. -/
structure Established (msg : Message) (s : UpfState) (nowNanos : Nat) (peer : Option IpAddr)
    (cpSeid : Seid) (ids : Seid × Teid × Option Teid) (s' : UpfState) : Prop where
  fseid : msg.fseids.head?.join = some cpSeid
  below : s.sessionCount < s.maxSessions
  established : s.establish cpSeid peer (ueAddrOf msg) (ambrOf msg) (parseCreatedFlows msg)
    (usageThresholdOf msg) nowNanos (uplinkOf msg) (parseBranches msg) (wantsDlIngress msg) =
      some (ids, s')

/-- One session more, bound to `peer`, and nothing queued. -/
structure Opened (s : UpfState) (peer : Option IpAddr) (t : Session) (s' : UpfState) : Prop where
  sessions : s'.sessions = s.sessions.insert s.nextSeid t
  bound : t.peerIp = peer
  left : s.nextSeid ≠ maxSeid
  nextSeid : s'.nextSeid = s.nextSeid + 1
  maxSessions : s'.maxSessions = s.maxSessions
  pendingFlush : s'.pendingFlush = s.pendingFlush
  pendingEndMarkers : s'.pendingEndMarkers = s.pendingEndMarkers
  pendingRa : s'.pendingRa = s.pendingRa

/-- A session with nothing counted or held. -/
structure Session.Unused (t : Session) : Prop where
  counted : t.counted = .zero
  reported : t.reported = .zero
  flows : ∀ f ∈ t.flowQers, f.counted = .zero
  dlBuffer : t.dlBuffer = []

theorem Established.opened_unused {msg : Message} {s s' : UpfState} {nowNanos : Nat}
    {peer : Option IpAddr} {cpSeid : Seid} {ids : Seid × Teid × Option Teid}
    (h : Established msg s nowNanos peer cpSeid ids s') : ∃ t, Opened s peer t s' ∧ t.Unused := by
  have hestablished := h.established
  unfold UpfState.establish at hestablished
  split at hestablished
  · exact absurd hestablished (by simp)
  · rename_i hleft
    obtain ⟨-, rfl⟩ := Prod.mk.inj (Option.some_inj.mp hestablished)
    refine ⟨_, ⟨rfl, rfl, hleft, rfl, rfl, rfl, rfl, rfl⟩, rfl, rfl, ?_, rfl⟩
    intro f hf
    obtain ⟨q, -, rfl⟩ := List.mem_map.mp hf
    rfl

theorem Established.opened {msg : Message} {s s' : UpfState} {nowNanos : Nat}
    {peer : Option IpAddr} {cpSeid : Seid} {ids : Seid × Teid × Option Teid}
    (h : Established msg s nowNanos peer cpSeid ids s') : ∃ t, Opened s peer t s' := by
  obtain ⟨t, hopened, -⟩ := h.opened_unused
  exact ⟨t, hopened⟩

/-- Everything a message can do to the state: nothing, open a session, change one or remove one. -/
inductive Effect (msg : Message) (s : UpfState) (nowNanos : Nat) (peer : Option IpAddr) :
    UpfState → Prop where
  | nothing : Effect msg s nowNanos peer s
  | established {cpSeid ids s'} (h : msg.msgType = .sessionEstablishmentRequest) :
      Established msg s nowNanos peer cpSeid ids s' → Effect msg s nowNanos peer s'
  | modified {upSeid t} (h : msg.msgType = .sessionModificationRequest)
      (hseid : msg.seid = some upSeid) (hpeer : refuses s peer upSeid = false)
      (hsession : s.sessions.lookup upSeid = some t) :
      Effect msg s nowNanos peer (s.modify msg upSeid nowNanos t)
  | removed {upSeid t} (h : msg.msgType = .sessionDeletionRequest)
      (hseid : msg.seid = some upSeid) (hpeer : refuses s peer upSeid = false)
      (hsession : s.sessions.lookup upSeid = some t) :
      Effect msg s nowNanos peer (s.remove upSeid).2

theorem effect_handleEstablishment {msg : Message} (nodeIp : Ipv4Addr) (s : UpfState)
    (nowNanos : Nat) (peer : Option IpAddr) (h : msg.msgType = .sessionEstablishmentRequest) :
    Effect msg s nowNanos peer (handleEstablishment msg nodeIp s nowNanos peer).2 := by
  unfold handleEstablishment
  split
  · exact .nothing
  · rename_i cpSeid hfseid
    split
    · exact .nothing
    · rename_i hceiling
      split
      · exact .nothing
      · rename_i upSeid teid dlIngressTeid s' hest
        exact .established h ⟨hfseid, by omega, hest⟩

theorem effect_handleModification {msg : Message} (s : UpfState) (nowNanos : Nat)
    (peer : Option IpAddr) (h : msg.msgType = .sessionModificationRequest) :
    Effect msg s nowNanos peer (handleModification msg s nowNanos peer).2 := by
  unfold handleModification
  split
  · exact .nothing
  · rename_i upSeid hseid
    split
    · exact .nothing
    · rename_i hpeer
      rw [Bool.not_eq_true] at hpeer
      rcases hsession : s.sessions.lookup upSeid with _ | t
      · simp only [modification_unknown hsession]
        exact .nothing
      · simp only [modification_known hsession]
        exact .modified h hseid hpeer hsession

namespace UpfState

/-- Removing a session that does not exist. -/
theorem remove_none {s : UpfState} {upSeid : Seid} (h : s.sessions.lookup upSeid = none) :
    s.remove upSeid = (none, s) := by
  simp only [remove, h, Option.map_none, Keyed.Map.erase_eq_self h]

theorem remove_some {s : UpfState} {upSeid : Seid} {t : Session}
    (h : s.sessions.lookup upSeid = some t) :
    s.remove upSeid = (some t.finalUsages, (s.remove upSeid).2) := by
  simp only [remove, h, Option.map_some]

end UpfState

theorem effect_handleDeletion {msg : Message} (s : UpfState) (nowNanos : Nat)
    (peer : Option IpAddr) (h : msg.msgType = .sessionDeletionRequest) :
    Effect msg s nowNanos peer (handleDeletion msg s peer).2 := by
  unfold handleDeletion
  split
  · exact .nothing
  · rename_i upSeid hseid
    split
    · exact .nothing
    · rename_i hpeer
      rw [Bool.not_eq_true] at hpeer
      rcases hsession : s.sessions.lookup upSeid with _ | t
      · rw [UpfState.remove_none hsession]
        exact .nothing
      · rw [UpfState.remove_some hsession]
        exact .removed h hseid hpeer hsession

theorem effect_handleMessage (msg : Message) (nodeIp : Ipv4Addr) (s : UpfState) (nowNanos : Nat)
    (peer : Option IpAddr) :
    Effect msg s nowNanos peer (handleMessage msg nodeIp s nowNanos peer).2 := by
  unfold handleMessage
  split
  · exact .nothing
  · exact .nothing
  · rename_i h
    exact effect_handleEstablishment nodeIp s nowNanos peer h
  · rename_i h
    exact effect_handleModification s nowNanos peer h
  · rename_i h
    exact effect_handleDeletion s nowNanos peer h
  · exact .nothing

/-- A modification request of a session that exists, from a peer it does not refuse. -/
theorem handleMessage_modifies {msg : Message} {s : UpfState} {upSeid : Seid} {t : Session}
    {peer : Option IpAddr} (nodeIp : Ipv4Addr) (nowNanos : Nat)
    (htype : msg.msgType = .sessionModificationRequest) (hseid : msg.seid = some upSeid)
    (hpeer : refuses s peer upSeid = false) (hsession : s.sessions.lookup upSeid = some t) :
    (handleMessage msg nodeIp s nowNanos peer).2 = s.modify msg upSeid nowNanos t := by
  simp only [handleMessage, htype, handleModification, hseid, hpeer, Bool.false_eq_true, if_false,
    modification_known hsession]

end Radian.Pfcp
