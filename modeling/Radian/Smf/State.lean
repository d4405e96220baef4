import Radian.Npcf.Decision
import Radian.Pfcp.Types
import Radian.Smf.U32Pool

/-!
# The SMF's state

The SM-context table with the two address pools and the GFBR account beside it, and the operations
each of which runs under one lock.

- `SmContext`, `SessionPath`, `ChainedLeg` — what a PDU session holds.
- `SmfState` — the table and the shared counters.
- `SmfState.tryReserveGfbr`, `releaseGfbr`, `adjustGfbr`; `allocUeIp`, `releaseUeIp`,
  `allocUeIpv6`, `releaseUeIpv6`.
-/

namespace Radian.Smf

open Npcf (HashMap SmPolicyDecision)
open Pfcp (Ipv4Addr Ipv6Addr Seid Teid IpPrefix UeAddr)

/-- The FAR the downlink Update FAR targets. -/
def farId : Nat := 2

/-- `10.45.0.2`, the first UE address. -/
def ueIpPoolStart : Nat := 0x0A2D0002

/-- `10.45.255.255`, the exclusive end of the IPv4 pool. -/
def ueIpPoolEnd : Nat := 0x0A2DFFFF

theorem ueIpPool_le : ueIpPoolStart ≤ ueIpPoolEnd := by decide

theorem ueIpPool_lt : ueIpPoolEnd < 2 ^ 32 := by decide

theorem interfaceIds_le : 1 ≤ 2 ^ 32 - 1 := by decide

theorem interfaceIds_lt : 2 ^ 32 - 1 < 2 ^ 32 := by decide

/-- `2001:db8::/32`, from which every session's /64 comes. -/
def ueIpv6Prefix32 : BitVec 32 := 0x20010db8

inductive PduSessionType where
  | ipv4
  | ipv6
  | ipv4v6
  deriving DecidableEq, Repr

namespace PduSessionType

def hasIpv4 : PduSessionType → Bool
  | .ipv4 | .ipv4v6 => true
  | .ipv6 => false

def hasIpv6 : PduSessionType → Bool
  | .ipv6 | .ipv4v6 => true
  | .ipv4 => false

def asStr : PduSessionType → String
  | .ipv4 => "IPV4"
  | .ipv6 => "IPV6"
  | .ipv4v6 => "IPV4V6"

/-- The type a name denotes, whatever its case. -/
def fromName (s : String) : Option PduSessionType :=
  let name := Text.asciiUpper s
  if name = "IPV4".toList then some .ipv4
  else if name = "IPV6".toList then some .ipv6
  else if name = "IPV4V6".toList ∨ name = "IPV4_V6".toList then some .ipv4v6
  else none

end PduSessionType

/-- A network slice. -/
structure Snssai where
  sst : UInt8
  sd : Option String
  deriving DecidableEq, Repr

/-- The intermediate-UPF leg of a chained session. -/
structure ChainedLeg where
  upSeid : Seid
  dlIngress : Teid × Ipv4Addr
  /-- The breakout anchor's session, when a prefix is steered to one. -/
  breakoutSeid : Option Seid
  deriving DecidableEq, Repr

/-- The peers a session runs on, by node name. -/
structure SessionPath where
  anchor : String
  intermediate : Option String
  breakout : Option (String × IpPrefix)
  deriving DecidableEq, Repr

/-- Whether the path runs on `peer`. -/
def SessionPath.uses (p : SessionPath) (peer : String) : Bool :=
  p.anchor == peer || p.intermediate == some peer || (p.breakout.map fun b => b.1) == some peer

/-- A guaranteed bit rate `(downlink, uplink)` in bits per second. -/
abbrev Gfbr : Type := UInt64 × UInt64

/-- Addition that stops at the largest 64-bit number. -/
def saturatingAdd (a b : UInt64) : UInt64 := UInt64.ofNat (min (a.toNat + b.toNat) (2 ^ 64 - 1))

/-- Subtraction that stops at zero. -/
def saturatingSub (a b : UInt64) : UInt64 := UInt64.ofNat (a.toNat - b.toNat)

theorem toNat_saturatingAdd (a b : UInt64) :
    (saturatingAdd a b).toNat = min (a.toNat + b.toNat) (2 ^ 64 - 1) := by
  rw [saturatingAdd, UInt64.toNat_ofNat', Nat.mod_eq_of_lt (by omega)]

theorem toNat_saturatingSub (a b : UInt64) : (saturatingSub a b).toNat = a.toNat - b.toNat := by
  have ha := a.toNat_lt
  rw [saturatingSub, UInt64.toNat_ofNat', Nat.mod_eq_of_lt (by omega)]

/-- Per-PDU-session state. -/
structure SmContext where
  upSeid : Seid
  cpSeid : Seid
  n3Teid : Teid
  n3Addr : Ipv4Addr
  chain : Option ChainedLeg
  path : SessionPath
  ueIp : Option Ipv4Addr
  pduType : PduSessionType
  /-- The /64 prefix and the interface identifier. -/
  ueIpv6 : Option (Ipv6Addr × BitVec 64)
  dnn : String
  snssai : Snssai
  gnb : Option (Teid × Ipv4Addr)
  indirectFwd : Option Seid
  supi : String
  pduSessionId : UInt8
  /-- The PCF's base and the policy id, when a PCF drove the policy. -/
  smPolicy : Option (String × String)
  policy : SmPolicyDecision
  reservedGfbr : Gfbr
  policyBreakout : Bool
  charging : Option (String × String)

/-- The addresses of a context, as rules carry them. -/
def SmContext.ueAddr (c : SmContext) : UeAddr :=
  { v4 := c.ueIp, v6 := c.ueIpv6.map fun a => a.1 }

/-- A resolved breakout rule of a topology. -/
structure Route where
  routePrefix : String
  via : String
  deriving DecidableEq, Repr

/-- What routing asks of a UP topology. -/
structure Topology where
  pathForDnn : String → Option (List String)
  breakoutForDnn : String → Option Route
  nodeForDnai : String → Option String

/-- How a DNN becomes a path: one fixed path, or a walk of the topology. -/
inductive Routing where
  | fixed (anchor : String) (intermediate : Option String) (breakout : Option (String × IpPrefix))
  | graph (topo : Topology)

/-- The SMF's runtime state. -/
structure SmfState where
  peers : List String
  routing : Routing
  cpSeid : BitVec 64 := 1
  nextRef : BitVec 64 := 1
  ueIpv4Pool : U32Pool := U32Pool.new ueIpPoolStart ueIpPoolEnd ueIpPool_le ueIpPool_lt
  ueIpv6Pool : U32Pool := U32Pool.new 1 (2 ^ 32 - 1) interfaceIds_le interfaceIds_lt
  contexts : HashMap SmContext := ∅
  gfbrBudgetBps : Gfbr := (0xFFFFFFFFFFFFFFFF, 0xFFFFFFFFFFFFFFFF)
  reservedGfbrBps : Gfbr := (0, 0)
  usageThresholdBytes : Option Nat := none
  callbackBase : String := "http://127.0.0.1:8002"

namespace SmfState

/-! ### GFBR admission -/

/-- Reserve `gfbr` against the budget; `false`, and nothing reserved, if it does not fit. -/
def tryReserveGfbr (s : SmfState) (gfbr : Gfbr) : Bool × SmfState :=
  let r := s.reservedGfbrBps
  if saturatingAdd r.1 gfbr.1 > s.gfbrBudgetBps.1 ∨ saturatingAdd r.2 gfbr.2 > s.gfbrBudgetBps.2 then
    (false, s)
  else
    -- a plain `+=`: it wraps in a release build
    (true, { s with reservedGfbrBps := (r.1 + gfbr.1, r.2 + gfbr.2) })

/-- Release a reservation. -/
def releaseGfbr (s : SmfState) (gfbr : Gfbr) : SmfState :=
  let r := s.reservedGfbrBps
  { s with reservedGfbrBps := (saturatingSub r.1 gfbr.1, saturatingSub r.2 gfbr.2) }

/-- Swap a reservation from `old` to `new`. -/
def adjustGfbr (s : SmfState) (old new : Gfbr) : SmfState :=
  let r := s.reservedGfbrBps
  { s with reservedGfbrBps :=
      (saturatingAdd (saturatingSub r.1 old.1) new.1,
        saturatingAdd (saturatingSub r.2 old.2) new.2) }

/-! ### UE addresses -/

def allocUeIp (s : SmfState) : Option Ipv4Addr × SmfState :=
  let out := s.ueIpv4Pool.alloc
  (out.1.map (BitVec.ofNat 32), { s with ueIpv4Pool := out.2 })

def releaseUeIp (s : SmfState) (addr : Ipv4Addr) : SmfState :=
  { s with ueIpv4Pool := s.ueIpv4Pool.release addr.toNat }

/-- The /64 of a pool index: the fixed /32, the index, and a zero interface. -/
def ipv6Prefix (n : BitVec 32) : Ipv6Addr := ueIpv6Prefix32 ++ n ++ 0#64

/-- The interface identifier `::n`. -/
def ipv6Iid (n : BitVec 32) : BitVec 64 := 0#32 ++ n

/-- The pool index in the third and fourth hextets. -/
def ipv6Index (addr : Ipv6Addr) : BitVec 32 := addr.extractLsb' 64 32

def allocUeIpv6 (s : SmfState) : Option (Ipv6Addr × BitVec 64) × SmfState :=
  let out := s.ueIpv6Pool.alloc
  (out.1.map fun n => (ipv6Prefix (BitVec.ofNat 32 n), ipv6Iid (BitVec.ofNat 32 n)),
    { s with ueIpv6Pool := out.2 })

def releaseUeIpv6 (s : SmfState) (addr : Ipv6Addr) : SmfState :=
  { s with ueIpv6Pool := s.ueIpv6Pool.release (ipv6Index addr).toNat }

/-- A /64 carries its pool index. -/
theorem ipv6Index_ipv6Prefix (n : BitVec 32) : ipv6Index (ipv6Prefix n) = n := by
  apply BitVec.eq_of_toNat_eq
  simp only [ipv6Index, ipv6Prefix, BitVec.extractLsb'_toNat, BitVec.toNat_append]
  simp only [BitVec.toNat_ofNat, Nat.zero_mod, Nat.or_zero, Nat.shiftLeft_eq,
    Nat.shiftRight_eq_div_pow]
  rw [Nat.mul_div_cancel _ (by norm_num), Nat.or_mod_two_pow, Nat.mul_mod_left, Nat.zero_or,
    Nat.mod_eq_of_lt n.isLt]

/-! ### Routing -/

/-- A connected peer by node name. -/
def peerByName (s : SmfState) (name : String) : Option String :=
  if name ∈ s.peers then some name else none

/-- A DNAI's node; a fixed path has no topology to name DNAIs in. -/
def nodeForDnai (s : SmfState) (dnai : String) : Option String :=
  match s.routing with
  | .graph topo => topo.nodeForDnai dnai
  | .fixed .. => none

/-- Whether the topology declares a static breakout route for `dnn`. -/
def dnnHasConfigRoute (s : SmfState) (dnn : String) : Bool :=
  match s.routing with
  | .graph topo => (topo.breakoutForDnn dnn).isSome
  | .fixed .. => false

/-- A named peer must be connected. -/
def connected (s : SmfState) (name : String) : Except String String :=
  match s.peerByName name with
  | some p => .ok p
  | none => .error s!"UP node \"{name}\" is not connected"

/-- The same for an optional peer. -/
def connectedOption (s : SmfState) : Option String → Except String (Option String)
  | none => .ok none
  | some name => (s.connected name).map some

/-- The path a session on `dnn` runs. -/
def resolvePath (s : SmfState) (dnn : String) : Except String SessionPath := do
  match s.routing with
  | .fixed anchor intermediate breakout =>
      let anchor ← s.connected anchor
      let intermediate ← s.connectedOption intermediate
      match breakout with
      | some (name, pre) => return { anchor, intermediate, breakout := some (← s.connected name, pre) }
      | none => return { anchor, intermediate, breakout := none }
  | .graph topo =>
      let (anchor, intermediate) ← match topo.pathForDnn dnn with
        | none => .error s!"no UP path for DNN \"{dnn}\""
        | some [a] => .ok (a, none)
        | some [i, a] => .ok (a, some i)
        | some _ => .error s!"UP path for DNN \"{dnn}\" has more than one intermediate"
      match topo.breakoutForDnn dnn with
      | some route =>
          if intermediate.isNone then
            .error s!"DNN \"{dnn}\" has a breakout route but no intermediate UPF to classify at"
          else
            match IpPrefix.fromStr route.routePrefix with
            | none => .error s!"breakout prefix \"{route.routePrefix}\" is not a CIDR"
            | some pre =>
                let via ← s.connected route.via
                let anchor ← s.connected anchor
                let intermediate ← s.connectedOption intermediate
                return { anchor, intermediate, breakout := some (via, pre) }
      | none =>
          let anchor ← s.connected anchor
          let intermediate ← s.connectedOption intermediate
          return { anchor, intermediate, breakout := none }

end SmfState

end Radian.Smf
