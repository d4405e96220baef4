import Radian.Text

/-!
# N4 types

What an SMF asks of a UPF over N4 and what it reads out of the answer, as decoded values.

- `IpPrefix.fromStr` — a destination prefix in CIDR form.
- `N4Request`, `N4Response` — the requests the SMF builds and its view of a response.
- `packetKey` — the classification inputs: protocol, ports and destination.
- `FlowFilter.matches` — whether a packet belongs to a flow.
- `ipv4Addrs`, `ipv6Addrs` — the addresses the N6 datapath routes by.
-/

namespace Radian.Pfcp

abbrev Ipv4Addr : Type := BitVec 32

abbrev Ipv6Addr : Type := BitVec 128

abbrev Seid : Type := BitVec 64

abbrev Teid : Type := BitVec 32

inductive IpAddr where
  | v4 (addr : Ipv4Addr)
  | v6 (addr : Ipv6Addr)
  deriving DecidableEq, Repr

/-! ### Addresses in text -/

/-- Read a number of at most `maxDigits` digits off the front. -/
def readNumber (base maxDigits : Nat) (zeroPrefix : Bool) (cs : List Char) :
    Option (Nat × List Char) :=
  let digits := cs.takeWhile fun c => (Text.digit base c).isSome
  if digits.isEmpty || maxDigits < digits.length ||
      (!zeroPrefix && digits.head? == some '0' && 1 < digits.length) then none
  else (Text.readDigits base 0 digits).map fun n => (n, cs.drop digits.length)

def readDot : List Char → Option (List Char)
  | '.' :: cs => some cs
  | _ => none

/-- Four decimal octets. -/
def readIpv4 (cs : List Char) : Option (Nat × List Char) := do
  let octet := fun cs => (readNumber 10 3 false cs).filter fun p => p.1 < 256
  let (a, cs) ← octet cs
  let (b, cs) ← octet (← readDot cs)
  let (c, cs) ← octet (← readDot cs)
  let (d, cs) ← octet (← readDot cs)
  return (((a * 256 + b) * 256 + c) * 256 + d, cs)

/-- Up to `limit` colon-separated groups, the last two possibly an IPv4 address; whether they
were, and what is left. -/
def readGroups : (limit : Nat) → (first : Bool) → List Char → List Nat × Bool × List Char
  | 0, _, cs => ([], false, cs)
  | n + 1, first, cs =>
      let body := if first then some cs else
        match cs with
        | ':' :: rest => some rest
        | _ => none
      match if 0 < n then body.bind readIpv4 else none with
      | some (a, rest) => ([a / 65536, a % 65536], true, rest)
      | none =>
          match body.bind (readNumber 16 4 true) with
          | some (g, rest) =>
              let (gs, v4, rest) := readGroups n false rest
              (g :: gs, v4, rest)
          | none => ([], false, cs)

def joinGroups (gs : List Nat) : Nat := gs.foldl (fun acc g => acc * 65536 + g) 0

/-- Eight groups, or two runs of groups around a `::`. -/
def readIpv6 (cs : List Char) : Option (Nat × List Char) :=
  match readGroups 8 true cs with
  | (head, v4, rest) =>
      if head.length = 8 then some (joinGroups head, rest)
      else if v4 then none
      else
        match rest with
        | ':' :: ':' :: rest =>
            let (tail, _, rest) := readGroups (8 - (head.length + 1)) true rest
            let zeros := List.replicate (8 - head.length - tail.length) 0
            some (joinGroups (head ++ zeros ++ tail), rest)
        | _ => none

def IpAddr.fromStr (cs : List Char) : Option IpAddr :=
  match readIpv4 cs with
  | some (a, []) => some (.v4 (BitVec.ofNat 32 a))
  | _ =>
      match readIpv6 cs with
      | some (a, []) => some (.v6 (BitVec.ofNat 128 a))
      | _ => none

/-- An IP prefix: an SDF filter's destination match. -/
structure IpPrefix where
  addr : IpAddr
  len : UInt8
  deriving DecidableEq, Repr

/-- `addr/len`, the length an unsigned octet. -/
def IpPrefix.ofText (cs : List Char) : Option IpPrefix := do
  let (addr, len) ← Text.splitOnce '/' cs
  let addr ← IpAddr.fromStr addr
  let len ← Text.parseUnsigned 10 8 len
  return ⟨addr, .ofNat len⟩

def IpPrefix.fromStr (s : String) : Option IpPrefix := IpPrefix.ofText s.toList

/-! ### Rules -/

/-- A packet classifier; an absent component matches anything. -/
structure FlowFilter where
  protocol : Option UInt8
  ports : Option (UInt16 × UInt16)
  dst : Option IpPrefix
  deriving DecidableEq, Repr

namespace FlowFilter

def transport (protocol : UInt8) (portLow portHigh : UInt16) : FlowFilter :=
  { protocol := some protocol, ports := some (portLow, portHigh), dst := none }

def toPrefix (p : IpPrefix) : FlowFilter :=
  { protocol := none, ports := none, dst := some p }

end FlowFilter

structure Gate where
  uplink : Bool
  downlink : Bool
  deriving DecidableEq, Repr

/-- A GBR flow's classifier, MFBR and gate. -/
structure FlowQer where
  qfi : UInt8
  filter : FlowFilter
  mfbrDlBps : Nat
  mfbrUlBps : Nat
  gate : Gate
  deriving DecidableEq, Repr

structure SessionAmbr where
  uplinkBps : Nat
  downlinkBps : Nat
  deriving DecidableEq, Repr

/-- The address(es) a PDU session carries. -/
structure UeAddr where
  v4 : Option Ipv4Addr
  v6 : Option Ipv6Addr
  deriving DecidableEq, Repr

inductive Egress where
  | toN6
  | toPeer (teid : Teid) (addr : Ipv4Addr)
  deriving DecidableEq, Repr

/-! ### Messages -/

/-- The requests an SMF sends, by the function that builds them. -/
inductive N4Request where
  | sessionEstablishment (cpSeid : Seid) (ue : UeAddr) (dnn : String) (ambr : Option SessionAmbr)
      (flows : List FlowQer) (usageThreshold : Option Nat)
  | sessionEstablishmentViaPeer (cpSeid : Seid) (ue : UeAddr) (dnn : String) (peerTeid : Teid)
      (peerAddr : Ipv4Addr) (branches : List (FlowFilter × Egress))
  | sessionEstablishmentIndirectForwarding (cpSeid : Seid) (targetTeid : Teid)
      (targetAddr : Ipv4Addr)
  | sessionModification (upSeid : Seid) (farId : Nat) (teid : Teid) (addr : Ipv4Addr)
      (dnn : String) (endMarker : Bool)
  | sessionDeactivate (upSeid : Seid) (farId : Nat)
  | sessionQerUpdate (upSeid : Seid) (ambr : SessionAmbr)
  | sessionFlowModification (upSeid : Seid) (create update : List FlowQer) (remove : List UInt8)
  | sessionModificationAddBranch (upSeid : Seid) (index : Nat) (filter : FlowFilter)
      (egress : Egress) (dnn : String)
  | sessionModificationRemoveBranch (upSeid : Seid) (index : Nat)
  | sessionDeletion (upSeid : Seid)
  deriving DecidableEq, Repr

namespace N4Request

/-- Whether a request opens a session. -/
def opens : N4Request → Bool
  | sessionEstablishment .. => true
  | sessionEstablishmentViaPeer .. => true
  | sessionEstablishmentIndirectForwarding .. => true
  | _ => false

/-- The session a request deletes. -/
def deletes : N4Request → Option Seid
  | sessionDeletion upSeid => some upSeid
  | _ => none

/-- The UE addresses in the rules of the session a request opens. -/
def ue : N4Request → UeAddr
  | sessionEstablishment _ ue _ _ _ _ => ue
  | sessionEstablishmentViaPeer _ ue _ _ _ _ => ue
  | _ => { v4 := none, v6 := none }

end N4Request

/-- The outcome of an establishment, as the SMF reads it. -/
structure EstablishedSession where
  upSeid : Seid
  n3Teid : Teid
  n3Addr : Ipv4Addr
  dlIngress : Option (Teid × Ipv4Addr)
  deriving DecidableEq, Repr

structure UsageVolume where
  urrId : Nat
  total : Nat
  uplink : Nat
  downlink : Nat
  totalPkts : Nat
  uplinkPkts : Nat
  downlinkPkts : Nat
  deriving DecidableEq, Repr

/-- What the SMF reads from a response: the Cause, the established session when the F-SEID and the
created PDRs are there, and the usage reports of a deletion. -/
structure N4Response where
  accepted : Bool
  session : Option EstablishedSession
  usages : List UsageVolume
  deriving DecidableEq, Repr

/-! ### Packets -/

abbrev Packet : Type := List UInt8

/-! ### Reading octets -/

/-- The octet at `i`; the callers check the length first. -/
def octet (pkt : Packet) (i : Nat) : UInt8 := pkt.getD i 0

/-- The number written in `n` octets from `i`, most significant first. -/
def beNat (pkt : Packet) (i n : Nat) : Nat :=
  ((pkt.drop i).take n).foldl (fun acc b => acc * 256 + b.toNat) 0

def be16 (pkt : Packet) (i : Nat) : UInt16 := .ofNat (beNat pkt i 2)

/-- The IP version, the high nibble of the first octet. -/
def version (pkt : Packet) : Option UInt8 := pkt.head?.map fun (b : UInt8) => b >>> 4

def ipv4At (pkt : Packet) (i : Nat) : Ipv4Addr := .ofNat 32 (beNat pkt i 4)

def ipv6At (pkt : Packet) (i : Nat) : Ipv6Addr := .ofNat 128 (beNat pkt i 16)

/-- Source and destination of an IPv4 packet. -/
def ipv4Addrs (pkt : Packet) : Option (Ipv4Addr × Ipv4Addr) :=
  if pkt.length < 20 ∨ version pkt ≠ some 4 then none
  else some (ipv4At pkt 12, ipv4At pkt 16)

/-- Source and destination of an IPv6 packet. -/
def ipv6Addrs (pkt : Packet) : Option (Ipv6Addr × Ipv6Addr) :=
  if pkt.length < 40 ∨ version pkt ≠ some 6 then none
  else some (ipv6At pkt 8, ipv6At pkt 24)

/-- Whether an IPv6 address falls within a /64. -/
def ipv6InPrefix64 (addr pre : Ipv6Addr) : Bool := addr >>> 64 == pre >>> 64

/-! ### Classification -/

/-- The classification inputs one packet offers. -/
structure PacketKey where
  protocol : UInt8
  srcPort : UInt16
  dstPort : UInt16
  dst : IpAddr
  deriving DecidableEq, Repr

/-- Source and destination port, in the first four octets after the IP header of TCP, UDP and
SCTP. -/
def ports (pkt : Packet) (protocol : UInt8) (off : Nat) : UInt16 × UInt16 :=
  if (protocol = 6 ∨ protocol = 17 ∨ protocol = 132) ∧ off + 4 ≤ pkt.length then
    (be16 pkt off, be16 pkt (off + 2))
  else (0, 0)

/-- The key of an IPv4 or IPv6 packet.  IPv6 extension headers are not walked. -/
def packetKey (pkt : Packet) : Option PacketKey :=
  if version pkt = some 4 ∧ 20 ≤ pkt.length then
    let protocol := octet pkt 9
    let ps := ports pkt protocol ((octet pkt 0 &&& 0x0f).toNat * 4)
    some { protocol, srcPort := ps.1, dstPort := ps.2, dst := .v4 (ipv4At pkt 16) }
  else if version pkt = some 6 ∧ 40 ≤ pkt.length then
    let protocol := octet pkt 6
    let ps := ports pkt protocol 40
    some { protocol, srcPort := ps.1, dstPort := ps.2, dst := .v6 (ipv6At pkt 24) }
  else none

/-- Whether an address falls in the prefix.  A mismatched family never matches. -/
def IpPrefix.contains (p : IpPrefix) (ip : IpAddr) : Bool :=
  match p.addr, ip with
  | .v4 net, .v4 ip =>
      let host := 32 - min p.len.toNat 32
      net >>> host == ip >>> host
  | .v6 net, .v6 ip =>
      let host := 128 - min p.len.toNat 128
      net >>> host == ip >>> host
  | _, _ => false

/-- Whether a packet matches; ports match on either endpoint. -/
def FlowFilter.matches (f : FlowFilter) (key : PacketKey) : Bool :=
  (f.protocol.all fun p => p == key.protocol) &&
    (f.ports.all fun r =>
      (r.1 ≤ key.srcPort && key.srcPort ≤ r.2) || (r.1 ≤ key.dstPort && key.dstPort ≤ r.2)) &&
    f.dst.all fun d => d.contains key.dst

end Radian.Pfcp
