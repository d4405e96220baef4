import Radian.Keyed.Basic
import Radian.Pfcp.Session

/-!
# UPF state

The session table of a UPF, its F-TEID and UP-SEID allocators, and what waits to be sent on N3.

- `UpfState.establish`, `UpfState.remove` — a session comes and goes.
- `UpfState.onSession` — every other change of the table is one session's, in place.
- `UpfState.setDownlink`, `UpfState.bufferDownlink` — hold downlink packets, then flush them.
-/

namespace Radian.Pfcp

def DEFAULT_MAX_SESSIONS : Nat := 100000

/-- The largest UP-SEID. -/
def maxSeid : Seid := BitVec.allOnes 64

/-- A session table and its allocators; a UP-SEID not given out yet names no session. -/
structure UpfState where
  nextTeid : Teid
  nextSeid : Seid
  sessions : Keyed.Map Seid Session
  maxSessions : Nat
  pendingFlush : List (Teid × Ipv4Addr × UInt8 × Packet)
  pendingEndMarkers : List (Teid × Ipv4Addr)
  pendingRa : List (Teid × Ipv4Addr × Ipv6Addr)
  recoveryTime : Nat
  fresh : ∀ seid, nextSeid ≤ seid → sessions.lookup seid = none

/-- Below the largest UP-SEID the counter does not overflow. -/
theorem toNat_next {seid : Seid} (h : seid ≠ maxSeid) : (seid + 1).toNat = seid.toNat + 1 := by
  have hne : seid.toNat ≠ 2 ^ 64 - 1 := by
    intro heq
    apply h
    apply BitVec.eq_of_toNat_eq
    rw [heq, maxSeid, BitVec.toNat_allOnes]
  have hlt := seid.isLt
  have hone : (1 : Seid).toNat = 1 := rfl
  rw [BitVec.toNat_add, hone]
  omega

/-- What is not below the next UP-SEID is above this one. -/
theorem lt_of_next_le {seid other : Seid} (h : seid ≠ maxSeid) (hle : seid + 1 ≤ other) :
    seid < other := by
  have hnext := toNat_next h
  rw [BitVec.le_def] at hle
  rw [BitVec.lt_def]
  omega

namespace UpfState

/-- No sessions.  TEID and SEID 0 are never given out first. -/
def withRecoveryTime (recoveryTime : Nat) : UpfState where
  nextTeid := 1
  nextSeid := 1
  sessions := ∅
  maxSessions := DEFAULT_MAX_SESSIONS
  pendingFlush := []
  pendingEndMarkers := []
  pendingRa := []
  recoveryTime
  fresh := fun seid _ => AList.lookup_empty seid

def setMaxSessions (s : UpfState) (n : Nat) : UpfState := { s with maxSessions := n }

def sessionCount (s : UpfState) : Nat := s.sessions.entries.length

/-- The N4 source a session is bound to, if any. -/
def sessionPeer (s : UpfState) (upSeid : Seid) : Option IpAddr :=
  (s.sessions.lookup upSeid).bind fun t => t.peerIp

/-! ### One session at a time -/

/-- Change one session, if it exists. -/
def onSession (s : UpfState) (upSeid : Seid) (f : Session → Session) : UpfState :=
  { s with
    sessions := s.sessions.adjust upSeid f
    fresh := by
      intro seid h
      rw [Keyed.Map.lookup_adjust]
      split
      · rename_i heq
        rw [← heq, s.fresh seid h, Option.map_none]
      · exact s.fresh seid h }

@[simp] theorem nextSeid_onSession (s : UpfState) (upSeid : Seid) (f : Session → Session) :
    (s.onSession upSeid f).nextSeid = s.nextSeid := rfl

@[simp] theorem nextTeid_onSession (s : UpfState) (upSeid : Seid) (f : Session → Session) :
    (s.onSession upSeid f).nextTeid = s.nextTeid := rfl

@[simp] theorem maxSessions_onSession (s : UpfState) (upSeid : Seid) (f : Session → Session) :
    (s.onSession upSeid f).maxSessions = s.maxSessions := rfl

@[simp] theorem pendingFlush_onSession (s : UpfState) (upSeid : Seid) (f : Session → Session) :
    (s.onSession upSeid f).pendingFlush = s.pendingFlush := rfl

@[simp] theorem pendingEndMarkers_onSession (s : UpfState) (upSeid : Seid)
    (f : Session → Session) :
    (s.onSession upSeid f).pendingEndMarkers = s.pendingEndMarkers := rfl

@[simp] theorem pendingRa_onSession (s : UpfState) (upSeid : Seid) (f : Session → Session) :
    (s.onSession upSeid f).pendingRa = s.pendingRa := rfl

theorem lookup_onSession (s : UpfState) (upSeid seid : Seid) (f : Session → Session) :
    (s.onSession upSeid f).sessions.lookup seid =
      if seid = upSeid then (s.sessions.lookup upSeid).map f else s.sessions.lookup seid :=
  Keyed.Map.lookup_adjust _ _ _ _

/-- Changes of one session, one after the other. -/
theorem onSession_onSession (s : UpfState) (upSeid : Seid) (f g : Session → Session) :
    (s.onSession upSeid f).onSession upSeid g = s.onSession upSeid fun t => g (f t) := by
  simp only [onSession, Keyed.Map.adjust_adjust]

theorem onSession_id (s : UpfState) (upSeid : Seid) : (s.onSession upSeid fun t => t) = s := by
  simp only [onSession, Keyed.Map.adjust_id]

/-- A loop of changes of one session. -/
theorem foldl_onSession {α : Type} (upSeid : Seid) (g : α → Session → Session) (l : List α)
    (s : UpfState) :
    l.foldl (fun s a => s.onSession upSeid (g a)) s =
      s.onSession upSeid fun t => l.foldl (fun t a => g a t) t := by
  induction l generalizing s with
  | nil => exact (onSession_id s upSeid).symm
  | cons a l ih => rw [List.foldl_cons, ih, onSession_onSession]; rfl

/-- Changes that agree on the session there is. -/
theorem onSession_congr {s : UpfState} {upSeid : Seid} {f g : Session → Session}
    (h : ∀ t, s.sessions.lookup upSeid = some t → f t = g t) :
    s.onSession upSeid f = s.onSession upSeid g := by
  simp only [onSession, Keyed.Map.adjust_congr h]

/-- A change of a session that does not exist. -/
theorem onSession_none {s : UpfState} {upSeid : Seid} (f : Session → Session)
    (h : s.sessions.lookup upSeid = none) : s.onSession upSeid f = s := by
  rw [onSession_congr (g := fun t => t) (by simp [h]), onSession_id]

/-! ### Establishment and removal -/

/-- A session with nothing measured, installed downlink or held yet. -/
def newSession (n3Teid : Teid) (cpSeid : Seid) (peer : Option IpAddr) (ue : UeAddr)
    (ambr : Option SessionAmbr) (flows : List FlowQer) (usageThreshold : Option Nat)
    (nowNanos : Nat) (uplink : Egress) (branches : List Branch) (dlIngressTeid : Option Teid) :
    Session :=
  { n3Teid
    cpSeid
    peerIp := peer
    ueIp := ue.v4
    ueIpv6 := ue.v6
    downlink := none
    uplink
    branches
    dlIngressTeid
    ambr
    ulBucket := ambr.map fun a => .new a.uplinkBps nowNanos
    dlBucket := ambr.map fun a => .new a.downlinkBps nowNanos
    flowQers := flows.map fun f => .new f nowNanos
    counted := .zero
    usageThreshold
    reported := .zero
    reportDue := false
    buffering := false
    dlBuffer := []
    dlDataReportDue := false }

/-- Allocate a UP-SEID and its TEIDs, and record a new session; `none` when the UP-SEIDs are used
up and the counter overflows. -/
def establish (s : UpfState) (cpSeid : Seid) (peer : Option IpAddr) (ue : UeAddr)
    (ambr : Option SessionAmbr) (flows : List FlowQer) (usageThreshold : Option Nat)
    (nowNanos : Nat) (uplink : Egress) (branches : List Branch) (wantsDlIngress : Bool) :
    Option ((Seid × Teid × Option Teid) × UpfState) :=
  if left : s.nextSeid = maxSeid then none
  else
    let dlIngressTeid := if wantsDlIngress then some (s.nextTeid + 1) else none
    let session := newSession s.nextTeid cpSeid peer ue ambr flows usageThreshold nowNanos uplink
      branches dlIngressTeid
    some ((s.nextSeid, s.nextTeid, dlIngressTeid),
      { s with
        nextTeid := if wantsDlIngress then s.nextTeid + 2 else s.nextTeid + 1
        nextSeid := s.nextSeid + 1
        sessions := s.sessions.insert s.nextSeid session
        fresh := by
          intro seid h
          have hlt := lt_of_next_le left h
          rw [Keyed.Map.lookup_insert_eq, if_neg fun heq => BitVec.lt_irrefl _ (heq ▸ hlt)]
          exact s.fresh seid (BitVec.le_of_lt hlt) })

/-- Remove a session; what its URRs have not reported yet. -/
def remove (s : UpfState) (upSeid : Seid) : Option (List UsageVolume) × UpfState :=
  ((s.sessions.lookup upSeid).map fun t => t.finalUsages,
    { s with
      sessions := s.sessions.erase upSeid
      fresh := by
        intro seid h
        rw [Keyed.Map.lookup_erase_eq]
        split
        · rfl
        · exact s.fresh seid h })

/-- The cumulative usage of one URR of a session. -/
def queryUrrUsage (s : UpfState) (upSeid : Seid) (urrId : Nat) : Option UsageVolume :=
  (s.sessions.lookup upSeid).bind fun t => t.queryUrr urrId

/-! ### What N4 changes in a session -/

/-- Install the gNB downlink target.  The tunnel it moves from gets an End Marker when the SMF asks
for one, held packets are flushed to the new tunnel, and an IPv6 UE gets a Router Advertisement. -/
def setDownlink (s : UpfState) (upSeid : Seid) (gnb : Teid × Ipv4Addr) (sendEndMarker : Bool) :
    UpfState :=
  match s.sessions.lookup upSeid with
  | none => s
  | some t =>
      { s.onSession upSeid fun t => t.setDownlink gnb with
        pendingEndMarkers := s.pendingEndMarkers ++ t.endMarkers gnb sendEndMarker
        pendingFlush := s.pendingFlush ++ t.flush gnb
        pendingRa := s.pendingRa ++ t.routerAdvertisements gnb }

def clearDownlink (s : UpfState) (upSeid : Seid) : UpfState :=
  s.onSession upSeid fun t => t.clearDownlink

def setAmbr (s : UpfState) (upSeid : Seid) (ambr : SessionAmbr) (nowNanos : Nat) : UpfState :=
  s.onSession upSeid fun t => t.setAmbr ambr nowNanos

def addFlow (s : UpfState) (upSeid : Seid) (f : FlowQer) (nowNanos : Nat) : UpfState :=
  s.onSession upSeid fun t => t.addFlow f nowNanos

def updateFlowRate (s : UpfState) (upSeid : Seid) (qfi : UInt8) (mfbrDlBps mfbrUlBps nowNanos : Nat) :
    UpfState :=
  s.onSession upSeid fun t => t.updateFlowRate qfi mfbrDlBps mfbrUlBps nowNanos

def setFlowGate (s : UpfState) (upSeid : Seid) (qfi : UInt8) (gate : Gate) : UpfState :=
  s.onSession upSeid fun t => t.setFlowGate qfi gate

def removeFlow (s : UpfState) (upSeid : Seid) (qfi : UInt8) : UpfState :=
  s.onSession upSeid fun t => t.removeFlow qfi

def addBranch (s : UpfState) (upSeid : Seid) (b : Branch) : UpfState :=
  s.onSession upSeid fun t => t.addBranch b.1 b.2.1 b.2.2

def removeBranch (s : UpfState) (upSeid : Seid) (id : Nat) : UpfState :=
  s.onSession upSeid fun t => t.removeBranch id

/-! ### Reports and pending sends -/

/-- Take one pending usage report: the SMF's SEID of the session and the usage since the last. -/
def takeDueReport (s : UpfState) : Option (Seid × UsageVolume) × UpfState :=
  match s.sessions.find? fun t => t.reportDue with
  | none => (none, s)
  | some (upSeid, t) =>
      (some (t.cpSeid, t.takeReport.1), s.onSession upSeid fun t => t.takeReport.2)

/-- Take one pending Downlink Data Report. -/
def takeDlDataReport (s : UpfState) : Option Seid × UpfState :=
  match s.sessions.find? fun t => t.dlDataReportDue with
  | none => (none, s)
  | some (upSeid, t) => (some t.cpSeid, s.onSession upSeid fun t => t.takeDlDataReport)

def takeFlush (s : UpfState) : List (Teid × Ipv4Addr × UInt8 × Packet) × UpfState :=
  (s.pendingFlush, { s with pendingFlush := [] })

def takeEndMarkers (s : UpfState) : List (Teid × Ipv4Addr) × UpfState :=
  (s.pendingEndMarkers, { s with pendingEndMarkers := [] })

def takePendingRa (s : UpfState) : List (Teid × Ipv4Addr × Ipv6Addr) × UpfState :=
  (s.pendingRa, { s with pendingRa := [] })

/-! ### The datapath's view -/

/-- The session that owns an uplink TEID. -/
def byTeid (s : UpfState) (teid : Teid) : Option (Seid × Session) :=
  s.sessions.find? fun t => t.n3Teid == teid

/-- The session that owns a UE address. -/
def byUeIp (s : UpfState) (dst : Ipv4Addr) : Option (Seid × Session) :=
  s.sessions.find? fun t => t.ueIp == some dst

/-- The session whose /64 an address is in. -/
def byUeIpv6 (s : UpfState) (dst : Ipv6Addr) : Option (Seid × Session) :=
  s.sessions.find? fun t => t.ueIpv6.any fun p => ipv6InPrefix64 dst p

def knowsTeid (s : UpfState) (teid : Teid) : Bool := (s.byTeid teid).isSome

def ueIpForTeid (s : UpfState) (teid : Teid) : Option Ipv4Addr :=
  (s.byTeid teid).bind fun e => e.2.ueIp

def ueIpv6ForTeid (s : UpfState) (teid : Teid) : Option Ipv6Addr :=
  (s.byTeid teid).bind fun e => e.2.ueIpv6

/-- Where an uplink packet goes once decapsulated. -/
def uplinkEgressFor (s : UpfState) (teid : Teid) (pkt : Packet) : Option Egress :=
  (s.byTeid teid).map fun e => e.2.egressFor pkt

/-- The gNB target of the session whose downlink N9 ingress a TEID is. -/
def downlinkViaN9Ingress (s : UpfState) (teid : Teid) : Option (Teid × Ipv4Addr) :=
  (s.sessions.find? fun t => t.dlIngressTeid == some teid).bind fun e => e.2.downlink

/-- The gNB target and the QFI of a downlink packet of a session that was found. -/
def marked (pkt : Packet) (found : Option (Seid × Session)) : Option (Teid × Ipv4Addr × UInt8) :=
  found.bind fun e => e.2.downlink.map fun gnb => (gnb.1, gnb.2, e.2.downlinkQfi pkt)

def routeDownlinkMarked (s : UpfState) (dst : Ipv4Addr) (pkt : Packet) :
    Option (Teid × Ipv4Addr × UInt8) :=
  marked pkt (s.byUeIp dst)

def routeDownlinkMarkedV6 (s : UpfState) (dst : Ipv6Addr) (pkt : Packet) :
    Option (Teid × Ipv4Addr × UInt8) :=
  marked pkt (s.byUeIpv6 dst)

/-- Hold a downlink packet for a CM-IDLE session. -/
def bufferDownlink (s : UpfState) (dst : Ipv4Addr) (pkt : Packet) : Bool × UpfState :=
  match s.sessions.find? fun t => t.ueIp == some dst && t.buffering with
  | none => (false, s)
  | some (upSeid, _) => (true, s.onSession upSeid fun t => t.buffer pkt)

/-- Admit a packet to a session that was found; without one it is not held back here. -/
def admitFound (s : UpfState) (found : Option (Seid × Session)) (uplink : Bool) (nowNanos : Nat)
    (pkt : Packet) : Bool × UpfState :=
  match found with
  | none => (true, s)
  | some (upSeid, t) =>
      ((t.admitPacket uplink nowNanos pkt).1,
        s.onSession upSeid fun t => (t.admitPacket uplink nowNanos pkt).2)

def admitUplink (s : UpfState) (teid : Teid) (nowNanos : Nat) (pkt : Packet) : Bool × UpfState :=
  s.admitFound (s.byTeid teid) true nowNanos pkt

def admitDownlink (s : UpfState) (dst : Ipv4Addr) (nowNanos : Nat) (pkt : Packet) :
    Bool × UpfState :=
  s.admitFound (s.byUeIp dst) false nowNanos pkt

def admitDownlinkV6 (s : UpfState) (dst : Ipv6Addr) (nowNanos : Nat) (pkt : Packet) :
    Bool × UpfState :=
  s.admitFound (s.byUeIpv6 dst) false nowNanos pkt

end UpfState

end Radian.Pfcp
