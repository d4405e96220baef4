import Radian.Gtpu.Encap
import Radian.Octets.Reading

/-!
# GTP-U parsing

A datagram read octet by octet: what it carries, `none` for a rejection, or a fault.

- `parsePsup`, `parseNru` — the frames in the two containers.
- `walkExtensions` — the walk over a chain of extension headers.
- `parse`, `parseNrRanContainer` — the two parsers.
-/

namespace Radian.Gtpu

open Octets (Fault index slice)
open Pfcp (Packet Teid)
open Security (Bytes fromBeBytes)

def MSG_ECHO_REQUEST : UInt8 := 1
def MSG_ECHO_RESPONSE : UInt8 := 2
def MSG_END_MARKER : UInt8 := 254
def FLAG_S : UInt8 := 0x02
def FLAG_PN : UInt8 := 0x01

/-! ### Frames -/

structure PduSessionInfo where
  downlink : Bool
  qfi : UInt8
  rqi : Bool
  deriving DecidableEq, Repr

/-- The QFI and the RQI in a PDU Session Container. -/
def parsePsup (frame : Bytes) : Except Fault (Option PduSessionInfo) :=
  match frame[1]? with
  | none => .ok none
  | some second => do
      let first ← index frame 0
      if first >>> 4 = DL_PDU_SESSION_INFORMATION then
        return some { downlink := true, qfi := second &&& 0x3F, rqi := second &&& 0x40 != 0 }
      else if first >>> 4 = UL_PDU_SESSION_INFORMATION then
        return some { downlink := false, qfi := second &&& 0x3F, rqi := false }
      else return none

inductive NruFrame where
  | dlUserData (nruSn : BitVec 32)
  | dlDataDeliveryStatus (desiredBufferSize : BitVec 32)
  deriving DecidableEq, Repr

/-- An octet as `u32`. -/
def toU32 (b : UInt8) : BitVec 32 := .ofNat 32 b.toNat

/-- The fixed fields of the frame in an NR RAN Container. -/
def parseNru (frame : Bytes) : Option NruFrame := do
  let first : UInt8 ← frame[0]?
  if first >>> 4 = DL_USER_DATA then
    let sn := toU32 (← frame[2]?) <<< 16 ||| toU32 (← frame[3]?) <<< 8 ||| toU32 (← frame[4]?)
    return .dlUserData sn
  else if first >>> 4 = DL_DATA_DELIVERY_STATUS then
    return .dlDataDeliveryStatus
      (fromBeBytes [← frame[2]?, ← frame[3]?, ← frame[4]?, ← frame[5]?])
  else none

/-! ### Extension headers -/

/-- Both parsers walk a chain so: `next` is the type of the header at `offset`, and `found` what
`decode` made of the last header of type `ext`. -/
def walkExtensions {A : Type} (data : Bytes) (ext : UInt8) (decode : Bytes → Except Fault (Option A)) :
    Nat → UInt8 → Nat → Option A → Except Fault (Option (Option A × Nat))
  | 0, _, _, _ => .error .outOfFuel
  | fuel + 1, next, offset, found =>
      if next = 0 then .ok (some (found, offset))
      else
        match data[offset]? with
        | none => .ok none
        | some units =>
            let len := 4 * units.toNat
            if len < 4 ∨ data.length < offset + len then .ok none
            else do
              let found ←
                if next = ext then (slice data (offset + 1) (offset + len - 1)).bind decode
                else .ok found
              let next ← index data (offset + len - 1)
              walkExtensions data ext decode fuel next (offset + len) found

/-! ### Datagrams -/

inductive N3Message where
  | gPdu (teid : Teid) (qfi : Option UInt8) (payload : Packet)
  | echoRequest (sequence : UInt16)
  | echoResponse (sequence : UInt16)
  | endMarker (teid : Teid)
  | other (msgType : UInt8)
  deriving DecidableEq, Repr

def N3Message.of (msgType : UInt8) (teid : Teid) (qfi : Option UInt8) (sequence : UInt16)
    (payload : Packet) : N3Message :=
  if msgType = MSG_G_PDU then .gPdu teid qfi payload
  else if msgType = MSG_ECHO_REQUEST then .echoRequest sequence
  else if msgType = MSG_ECHO_RESPONSE then .echoResponse sequence
  else if msgType = MSG_END_MARKER then .endMarker teid
  else .other msgType

/-- `u16::from_be_bytes`. -/
def u16FromBeBytes (high low : UInt8) : UInt16 := .ofNat (high.toNat * 256 + low.toNat)

/-- The QFI in a PDU Session Container. -/
def qfiOf (frame : Bytes) : Except Fault (Option UInt8) := (parsePsup frame).map (Option.map PduSessionInfo.qfi)

/-- Whether the four optional octets are there. -/
def hasOpt (flags : UInt8) : Bool := flags &&& (FLAG_S ||| FLAG_E ||| FLAG_PN) != 0

/-- The chain of a header with the E flag; none without it. -/
def walkFrom (data : Bytes) (flags : UInt8) (offset : Nat) : Except Fault (Option (Option UInt8 × Nat)) :=
  if flags &&& FLAG_E != 0 then do
    let next ← index data 11
    walkExtensions data EXT_PDU_SESSION_CONTAINER qfiOf data.length next offset none
  else .ok (some (none, offset))

def readSequence (data : Bytes) (flags : UInt8) : Except Fault UInt16 :=
  if hasOpt flags then do
    let high ← index data 8
    let low ← index data 9
    return u16FromBeBytes high low
  else .ok 0

def parse (data : Bytes) : Except Fault (Option N3Message) :=
  if data.length < 8 then .ok none
  else do
    let flags ← index data 0
    if flags &&& 0xE0 ≠ 0x20 then return none
    else
      let msgType ← index data 1
      let teid := fromBeBytes [← index data 4, ← index data 5, ← index data 6, ← index data 7]
      let offset := if hasOpt flags then 12 else 8
      if data.length < offset then return none
      else
        let sequence ← readSequence data flags
        match ← walkFrom data flags offset with
        | none => return none
        | some (qfi, offset) =>
            let payload ← slice data offset data.length
            return some (.of msgType teid qfi sequence payload)

/-- The TEID and the payload of a G-PDU. -/
def decap (data : Bytes) : Except Fault (Option (Teid × Packet)) := do
  match ← parse data with
  | some (.gPdu teid _ payload) => return some (teid, payload)
  | _ => return none

/-- A G-PDU with an NR RAN Container. -/
def parseNrRanContainer (data : Bytes) : Except Fault (Option (Teid × NruFrame × Packet)) :=
  if data.length < 12 then .ok none
  else do
    let flags ← index data 0
    let msgType ← index data 1
    if flags &&& 0xE0 ≠ 0x20 ∨ msgType ≠ MSG_G_PDU ∨ flags &&& FLAG_E = 0 then return none
    else
      let teid := fromBeBytes [← index data 4, ← index data 5, ← index data 6, ← index data 7]
      let next ← index data 11
      match ← walkExtensions data EXT_NR_RAN_CONTAINER (fun frame => .ok (parseNru frame))
          data.length next 12 none with
      | none => return none
      | some (none, _) => return none
      | some (some frame, offset) =>
          let payload ← slice data offset data.length
          return some (teid, frame, payload)

end Radian.Gtpu
