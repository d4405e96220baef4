import Radian.Nas.Message
import Radian.Smf.State

/-!
# 5GSM containers

The session-management messages that travel inside NAS transports, as the octets the AMF builds and
looks at.

- `PduSessionType.fromValue`, `PduAddress`, `SessionAmbr`, `QosFlowDesc` — what an accept carries.
- `pduSessionEstablishmentAccept`, `pduSessionEstablishmentReject`, `pduSessionModificationCommand`,
  `pduSessionReleaseCommand`.
- `isPduSessionReleaseComplete`, `requestedPduSessionType`, `pcoRequestsIpv6Dns` — what is read.
-/

namespace Radian.Nas

open Security (Bytes toBeBytes)
open Smf (PduSessionType)
open Pfcp (Ipv4Addr Ipv6Addr)

namespace SmCause

def INSUFFICIENT_RESOURCES : UInt8 := 26
def MISSING_OR_UNKNOWN_DNN : UInt8 := 27
def REQUEST_REJECTED_UNSPECIFIED : UInt8 := 31
def REGULAR_DEACTIVATION : UInt8 := 36
def MISSING_OR_UNKNOWN_DNN_IN_SLICE : UInt8 := 70

end SmCause

/-! ### Values -/

def pduSessionTypeValue : PduSessionType → UInt8
  | .ipv4 => 1
  | .ipv6 => 2
  | .ipv4v6 => 3

def pduSessionTypeFromValue (v : UInt8) : Option PduSessionType :=
  match (v &&& 0x07).toNat with
  | 1 => some .ipv4
  | 2 => some .ipv6
  | 3 => some .ipv4v6
  | _ => none

/-- The address of a session: IPv4, an IPv6 interface identifier, or both. -/
inductive PduAddress where
  | ipv4 (v4 : Ipv4Addr)
  | ipv6 (iid : BitVec 64)
  | ipv4v6 (iid : BitVec 64) (v4 : Ipv4Addr)
  deriving DecidableEq, Repr

def PduAddress.sessionType : PduAddress → PduSessionType
  | .ipv4 _ => .ipv4
  | .ipv6 _ => .ipv6
  | .ipv4v6 .. => .ipv4v6

/-- A unit octet and a multiple in each direction. -/
structure SessionAmbr where
  dlUnit : UInt8
  dl : UInt16
  ulUnit : UInt8
  ul : UInt16
  deriving DecidableEq, Repr

structure GbrFlow where
  gfbr : SessionAmbr
  mfbr : SessionAmbr
  deriving DecidableEq, Repr

structure QosFlowDesc where
  qfi : UInt8
  fiveQi : UInt8
  gbr : Option GbrFlow
  deriving DecidableEq, Repr

/-- A number in big-endian order. -/
def beBytes (octets n : Nat) : Bytes :=
  (List.range octets).reverse.map fun i => UInt8.ofNat (n / 256 ^ i % 256)

/-- A parameter of a flow description: a rate in unit and value. -/
def rateParam (id unit : UInt8) (value : UInt16) : Bytes := [id, 0x03, unit] ++ beBytes 2 value.toNat

def qosFlowDescriptionsValue (flows : List QosFlowDesc) : Bytes :=
  flows.flatMap fun f =>
    let params : UInt8 := if f.gbr.isSome then 5 else 1
    -- create a flow (`1 << 5`), with `params` parameters (`1 << 6`), the first of them the 5QI
    let head : Bytes := [f.qfi, 0x20, 0x40 ||| params, 0x01, 0x01, f.fiveQi]
    head ++
      match f.gbr with
      | some g =>
          rateParam 0x02 g.gfbr.ulUnit g.gfbr.ul ++ rateParam 0x03 g.gfbr.dlUnit g.gfbr.dl ++
            rateParam 0x04 g.mfbr.ulUnit g.mfbr.ul ++ rateParam 0x05 g.mfbr.dlUnit g.mfbr.dl
      | none => []

/-- A DNN as length-prefixed labels. -/
def rfc1035Labels (dnn : String) : Bytes :=
  ((Text.splitOn '.' dnn.toList).filter fun label => !label.isEmpty).flatMap fun label =>
    let octets := (String.ofList label).toUTF8.toList
    UInt8.ofNat octets.length :: octets

/-! ### Messages -/

def pduSessionEstablishmentAccept (psi pti : UInt8) (addr : PduAddress) (dnn : String)
    (snssai : Snssai) (ambr : SessionAmbr) (flows : List QosFlowDesc) (cause : Option UInt8)
    (dnsIpv6 : Option Ipv6Addr) : Bytes :=
  let qosRules : Bytes := [0x01, 0x00, 0x06, 0x31, 0x31, 0x01, 0x01, 0xff, 0x01]
  let address := match addr with
    | .ipv4 v4 => [5, 0x01] ++ toBeBytes v4
    | .ipv6 iid => [9, 0x02] ++ beBytes 8 iid.toNat
    | .ipv4v6 iid v4 => [13, 0x03] ++ beBytes 8 iid.toNat ++ toBeBytes v4
  let slice := match snssai with
    | (sst, some sd) => [4, sst] ++ beBytes 3 sd.toNat
    | (sst, none) => [1, sst]
  let descriptions := qosFlowDescriptionsValue flows
  let labels := rfc1035Labels dnn
  [0x2e, psi, pti, 0xc2, 0x10 ||| pduSessionTypeValue addr.sessionType] ++
    beBytes 2 qosRules.length ++ qosRules ++
    [6, ambr.dlUnit] ++ beBytes 2 ambr.dl.toNat ++ [ambr.ulUnit] ++ beBytes 2 ambr.ul.toNat ++
    (match cause with
      | some c => [0x59, c]
      | none => []) ++
    0x29 :: address ++ 0x22 :: slice ++
    (if flows.isEmpty then [] else 0x79 :: beBytes 2 descriptions.length ++ descriptions) ++
    (match dnsIpv6 with
      | some dns => 0x7b :: beBytes 2 20 ++ [0x80, 0x00, 0x03, 16] ++ beBytes 16 dns.toNat
      | none => []) ++
    0x25 :: UInt8.ofNat labels.length :: labels

/-- A PDU Session Establishment Reject, with the back-off octet when there is one. -/
def pduSessionEstablishmentReject (psi pti cause : UInt8) (backoff : Option UInt8) : Bytes :=
  [0x2e, psi, pti, 0xc3, cause] ++
    match backoff with
    | some octet => [0x37, 0x01, octet]
    | none => []

/-- A PDU Session Modification Command: the AMBR, the flows to create, and a deletion for each QFI of
`released`. -/
def pduSessionModificationCommand (psi pti : UInt8) (ambr : SessionAmbr) (flows : List QosFlowDesc)
    (released : List UInt8) : Bytes :=
  let desc := qosFlowDescriptionsValue flows ++ released.flatMap fun qfi => [qfi, 0x40, 0x00]
  [0x2e, psi, pti, 0xcb, 0x2a, 6, ambr.dlUnit] ++ beBytes 2 ambr.dl.toNat ++ [ambr.ulUnit] ++
    beBytes 2 ambr.ul.toNat ++ if desc.isEmpty then [] else 0x79 :: beBytes 2 desc.length ++ desc

def pduSessionReleaseCommand (psi pti cause : UInt8) : Bytes := [0x2e, psi, pti, 0xd3, cause]

def isPduSessionReleaseComplete (container : Bytes) : Bool := container[3]? == some 0xd4

/-- The session type asked for among the optional elements of an establishment request: the first
octet of the form `0x9_` that names one. -/
def requestedPduSessionType (container : Bytes) : Option PduSessionType :=
  (container.drop 6).findSome? fun (b : UInt8) =>
    if b >>> 4 = 0x9 then pduSessionTypeFromValue (b &&& 0x0f) else none

/-- Whether a container asks for an IPv6 DNS server. -/
def pcoRequestsIpv6Dns : Bytes → Bool
  | a :: b :: c :: rest => (a == 0 && b == 3 && c == 0) || pcoRequestsIpv6Dns (b :: c :: rest)
  | _ => false

end Radian.Nas
