import Mathlib.Data.List.Sort
import Radian.Pfcp.Types

/-!
# PFCP sessions at the UPF

One session's rules, policers and counters, and what can happen to it.

- `TokenBucket` — the policer of a rate.
- `Session.admitPacket` — gate, police and measure one packet.
- `Session.setDownlink`, `Session.addFlow`, … — what N4 changes in a session.
-/

namespace Radian.Pfcp

def AMBR_QER_ID : Nat := 1
def UPLINK_FAR_ID : Nat := 1
def DOWNLINK_FAR_ID : Nat := 2
def DOWNLINK_PDR_ID : Nat := 2
def PER_FLOW_QER_BASE : Nat := 1000
def PER_FLOW_PDR_BASE : Nat := 100
def ULCL_PDR_BASE : Nat := 400
def ULCL_FAR_BASE : Nat := 3
def ULCL_PRECEDENCE : Nat := 40
def DEFAULT_QFI : UInt8 := 1
def SESSION_URR_ID : Nat := 1
def PER_FLOW_URR_BASE : Nat := 2000
def DL_BUFFER_CAP : Nat := 64

/-! ### Policers -/

def u64Max : Nat := 2 ^ 64 - 1

def saturatingAdd (a b : Nat) : Nat := min (a + b) u64Max

def saturatingMul (a b : Nat) : Nat := min (a * b) u64Max

/-- A rate limiter in bits; rate zero is unlimited. -/
structure TokenBucket where
  rateBps : Nat
  burstBits : Nat
  levelBits : Nat
  lastNanos : Nat
  deriving DecidableEq, Repr

namespace TokenBucket

def MIN_BURST_BITS : Nat := 8 * 4096

/-- A full bucket. -/
def new (rateBps nowNanos : Nat) : TokenBucket :=
  let burstBits := max rateBps MIN_BURST_BITS
  { rateBps, burstBits, levelBits := burstBits, lastNanos := nowNanos }

/-- Refill for the elapsed time, then admit `bytes` if enough tokens remain. -/
def poll (b : TokenBucket) (nowNanos bytes : Nat) : Bool × TokenBucket :=
  if b.rateBps = 0 then (true, b)
  else
    let elapsed := nowNanos - b.lastNanos
    let refill := b.rateBps * elapsed / 1000000000 % 2 ^ 64
    let level := min (saturatingAdd b.levelBits refill) b.burstBits
    let need := saturatingMul bytes 8
    if need ≤ level then (true, { b with levelBits := level - need, lastNanos := nowNanos })
    else (false, { b with levelBits := level, lastNanos := nowNanos })

/-- Refill under the old rate, then adopt the new one. -/
def setRate (b : TokenBucket) (rateBps nowNanos : Nat) : TokenBucket :=
  let fresh := new rateBps nowNanos
  { fresh with levelBits := min (b.poll nowNanos 0).2.levelBits fresh.burstBits }

@[simp] theorem rateBps_new (rate now : Nat) : (new rate now).rateBps = rate := rfl

@[simp] theorem rateBps_setRate (b : TokenBucket) (rate now : Nat) :
    (b.setRate rate now).rateBps = rate := rfl

end TokenBucket

/-! ### Counters -/

/-- Forwarded bytes and packets in each direction. -/
structure Counters where
  ulBytes : Nat
  dlBytes : Nat
  ulPkts : Nat
  dlPkts : Nat
  deriving DecidableEq, Repr

namespace Counters

def zero : Counters := ⟨0, 0, 0, 0⟩

/-- Count one packet. -/
def count (c : Counters) (uplink : Bool) (bytes : Nat) : Counters :=
  if uplink then
    { c with ulBytes := saturatingAdd c.ulBytes bytes, ulPkts := saturatingAdd c.ulPkts 1 }
  else { c with dlBytes := saturatingAdd c.dlBytes bytes, dlPkts := saturatingAdd c.dlPkts 1 }

/-- What was counted since `reported`. -/
def since (c reported : Counters) : Counters :=
  ⟨c.ulBytes - reported.ulBytes, c.dlBytes - reported.dlBytes, c.ulPkts - reported.ulPkts,
    c.dlPkts - reported.dlPkts⟩

/-- As the usage of a URR. -/
def volume (c : Counters) (urrId : Nat) : UsageVolume :=
  { urrId
    total := c.ulBytes + c.dlBytes
    uplink := c.ulBytes
    downlink := c.dlBytes
    totalPkts := c.ulPkts + c.dlPkts
    uplinkPkts := c.ulPkts
    downlinkPkts := c.dlPkts }

end Counters

/-! ### Per-flow policers -/

def Gate.OPEN : Gate := { uplink := true, downlink := true }

/-- Whether a direction is open. -/
def Gate.opens (g : Gate) (uplink : Bool) : Bool := if uplink then g.uplink else g.downlink

/-- A flow's classifier, gate, policers and counters. -/
structure FlowEnforcer where
  qfi : UInt8
  filter : FlowFilter
  gate : Gate
  ulBucket : TokenBucket
  dlBucket : TokenBucket
  counted : Counters
  deriving DecidableEq, Repr

namespace FlowEnforcer

def new (f : FlowQer) (nowNanos : Nat) : FlowEnforcer :=
  { qfi := f.qfi
    filter := f.filter
    gate := f.gate
    ulBucket := .new f.mfbrUlBps nowNanos
    dlBucket := .new f.mfbrDlBps nowNanos
    counted := .zero }

/-- Police a packet against the flow's rate. -/
def poll (f : FlowEnforcer) (uplink : Bool) (nowNanos bytes : Nat) : Bool × FlowEnforcer :=
  if uplink then
    ((f.ulBucket.poll nowNanos bytes).1, { f with ulBucket := (f.ulBucket.poll nowNanos bytes).2 })
  else
    ((f.dlBucket.poll nowNanos bytes).1, { f with dlBucket := (f.dlBucket.poll nowNanos bytes).2 })

/-- Gate, police and measure a packet of this flow. -/
def admitPacket (f : FlowEnforcer) (uplink : Bool) (nowNanos bytes : Nat) : Bool × FlowEnforcer :=
  if f.gate.opens uplink then
    let polled := (f.poll uplink nowNanos bytes).2
    if (f.poll uplink nowNanos bytes).1 then
      (true, { polled with counted := polled.counted.count uplink bytes })
    else (false, polled)
  else (false, f)

def setRate (f : FlowEnforcer) (mfbrDlBps mfbrUlBps nowNanos : Nat) : FlowEnforcer :=
  { f with
    ulBucket := f.ulBucket.setRate mfbrUlBps nowNanos
    dlBucket := f.dlBucket.setRate mfbrDlBps nowNanos }

/-- The first flow that matches meets the packet; the flows afterwards. -/
def admitFirst (key : PacketKey) (uplink : Bool) (nowNanos bytes : Nat) :
    List FlowEnforcer → Option (Bool × List FlowEnforcer)
  | [] => none
  | f :: fs =>
      if f.filter.matches key then
        some ((f.admitPacket uplink nowNanos bytes).1, (f.admitPacket uplink nowNanos bytes).2 :: fs)
      else (admitFirst key uplink nowNanos bytes fs).map fun r => (r.1, f :: r.2)

/-- Change the first flow with a QFI. -/
def updateFirst (qfi : UInt8) (g : FlowEnforcer → FlowEnforcer) :
    List FlowEnforcer → List FlowEnforcer
  | [] => []
  | f :: fs => if f.qfi = qfi then g f :: fs else f :: updateFirst qfi g fs

end FlowEnforcer

/-! ### Sessions -/

abbrev Branch : Type := Nat × FlowFilter × Egress

structure Session where
  n3Teid : Teid
  cpSeid : Seid
  peerIp : Option IpAddr
  ueIp : Option Ipv4Addr
  ueIpv6 : Option Ipv6Addr
  downlink : Option (Teid × Ipv4Addr)
  uplink : Egress
  branches : List Branch
  dlIngressTeid : Option Teid
  ambr : Option SessionAmbr
  ulBucket : Option TokenBucket
  dlBucket : Option TokenBucket
  flowQers : List FlowEnforcer
  counted : Counters
  usageThreshold : Option Nat
  reported : Counters
  reportDue : Bool
  buffering : Bool
  dlBuffer : List Packet
  dlDataReportDue : Bool
  deriving DecidableEq, Repr

namespace Session

/-- Police a packet against the session AMBR. -/
def poll (s : Session) (uplink : Bool) (nowNanos bytes : Nat) : Bool × Session :=
  if uplink then
    match s.ulBucket with
    | none => (true, s)
    | some b => ((b.poll nowNanos bytes).1, { s with ulBucket := some (b.poll nowNanos bytes).2 })
  else
    match s.dlBucket with
    | none => (true, s)
    | some b => ((b.poll nowNanos bytes).1, { s with dlBucket := some (b.poll nowNanos bytes).2 })

/-- Count a packet under the session URR; a crossed threshold makes a report due. -/
def measure (s : Session) (uplink : Bool) (bytes : Nat) : Session :=
  let s := { s with counted := s.counted.count uplink bytes }
  let unreported :=
    (s.counted.ulBytes - s.reported.ulBytes) + (s.counted.dlBytes - s.reported.dlBytes)
  match s.usageThreshold with
  | some th => if th ≤ unreported then { s with reportDue := true } else s
  | none => s

/-- Gate, police and measure one packet: with the flow it matches, else with the session. -/
def admitPacket (s : Session) (uplink : Bool) (nowNanos : Nat) (pkt : Packet) : Bool × Session :=
  match (packetKey pkt).bind fun key =>
      FlowEnforcer.admitFirst key uplink nowNanos pkt.length s.flowQers with
  | some r => (r.1, { s with flowQers := r.2 })
  | none =>
      let polled := (s.poll uplink nowNanos pkt.length).2
      if (s.poll uplink nowNanos pkt.length).1 then (true, polled.measure uplink pkt.length)
      else (false, polled)

/-- The QFI to stamp on a downlink packet. -/
def downlinkQfi (s : Session) (pkt : Packet) : UInt8 :=
  match (packetKey pkt).bind fun key => s.flowQers.find? fun f => f.filter.matches key with
  | some f => f.qfi
  | none => DEFAULT_QFI

/-! #### What else happens to a session -/

/-- Install the gNB downlink target; the packets held until now are to be flushed. -/
def setDownlink (s : Session) (gnb : Teid × Ipv4Addr) : Session :=
  { s with downlink := some gnb, buffering := false, dlDataReportDue := false, dlBuffer := [] }

/-- The tunnel a move of the downlink leaves behind, when an End Marker is asked for. -/
def endMarkers (s : Session) (gnb : Teid × Ipv4Addr) (sendEndMarker : Bool) :
    List (Teid × Ipv4Addr) :=
  if sendEndMarker then (s.downlink.filter fun old => old != gnb).toList else []

/-- The packets held, stamped with their QFI, for the new tunnel. -/
def flush (s : Session) (gnb : Teid × Ipv4Addr) : List (Teid × Ipv4Addr × UInt8 × Packet) :=
  s.dlBuffer.map fun pkt => (gnb.1, gnb.2, s.downlinkQfi pkt, pkt)

/-- The unsolicited Router Advertisement of an IPv6 session. -/
def routerAdvertisements (s : Session) (gnb : Teid × Ipv4Addr) :
    List (Teid × Ipv4Addr × Ipv6Addr) :=
  s.ueIpv6.toList.map fun pre => (gnb.1, gnb.2, pre)

/-- Clear the gNB downlink target and start buffering. -/
def clearDownlink (s : Session) : Session := { s with downlink := none, buffering := true }

/-- Hold a downlink packet, at most `DL_BUFFER_CAP` of them. -/
def buffer (s : Session) (pkt : Packet) : Session :=
  { s with
    dlDataReportDue := s.dlBuffer.isEmpty || s.dlDataReportDue
    dlBuffer := (if DL_BUFFER_CAP ≤ s.dlBuffer.length then s.dlBuffer.tail else s.dlBuffer) ++ [pkt] }

/-- The usage since the last report, which becomes reported. -/
def takeReport (s : Session) : UsageVolume × Session :=
  ((s.counted.since s.reported).volume SESSION_URR_ID,
    { s with reportDue := false, reported := s.counted })

def takeDlDataReport (s : Session) : Session := { s with dlDataReportDue := false }

/-- The usage at the end: what the session URR has not reported, and each flow's. -/
def finalUsages (s : Session) : List UsageVolume :=
  (s.counted.since s.reported).volume SESSION_URR_ID ::
    s.flowQers.map fun f => f.counted.volume (PER_FLOW_URR_BASE + f.qfi.toNat)

/-- The cumulative usage of one URR. -/
def queryUrr (s : Session) (urrId : Nat) : Option UsageVolume :=
  if urrId = SESSION_URR_ID then some (s.counted.volume urrId)
  else if PER_FLOW_URR_BASE ≤ urrId ∧ urrId - PER_FLOW_URR_BASE < 256 then
    (s.flowQers.find? fun f => f.qfi == .ofNat (urrId - PER_FLOW_URR_BASE)).map fun f =>
      f.counted.volume urrId
  else none

def setAmbr (s : Session) (ambr : SessionAmbr) (nowNanos : Nat) : Session :=
  { s with
    ulBucket := some (match s.ulBucket with
      | some b => b.setRate ambr.uplinkBps nowNanos
      | none => .new ambr.uplinkBps nowNanos)
    dlBucket := some (match s.dlBucket with
      | some b => b.setRate ambr.downlinkBps nowNanos
      | none => .new ambr.downlinkBps nowNanos)
    ambr := some ambr }

/-- Install a per-flow policer, in place of any of the same QFI. -/
def addFlow (s : Session) (f : FlowQer) (nowNanos : Nat) : Session :=
  { s with flowQers := (s.flowQers.filter fun e => e.qfi != f.qfi) ++ [.new f nowNanos] }

def updateFlowRate (s : Session) (qfi : UInt8) (mfbrDlBps mfbrUlBps nowNanos : Nat) : Session :=
  { s with
    flowQers := FlowEnforcer.updateFirst qfi (fun f => f.setRate mfbrDlBps mfbrUlBps nowNanos)
      s.flowQers }

def setFlowGate (s : Session) (qfi : UInt8) (gate : Gate) : Session :=
  { s with flowQers := FlowEnforcer.updateFirst qfi (fun f => { f with gate }) s.flowQers }

def removeFlow (s : Session) (qfi : UInt8) : Session :=
  { s with flowQers := s.flowQers.filter fun e => e.qfi != qfi }

/-- Install a branch, in place of any of the same id; branches stay ordered by id. -/
def addBranch (s : Session) (id : Nat) (filter : FlowFilter) (egress : Egress) : Session :=
  { s with
    branches := ((s.branches.filter fun b => b.1 != id) ++ [(id, filter, egress)]).insertionSort
      fun a b => a.1 ≤ b.1 }

def removeBranch (s : Session) (id : Nat) : Session :=
  { s with branches := s.branches.filter fun b => b.1 != id }

/-- Where an uplink packet goes: by the first branch that matches, else by the session default. -/
def egressFor (s : Session) (pkt : Packet) : Egress :=
  match (packetKey pkt).bind fun key => s.branches.find? fun b => b.2.1.matches key with
  | some b => b.2.2
  | none => s.uplink

end Session

end Radian.Pfcp
