import Radian.Gtpu.Length

/-!
# Path management

The GTP-U messages that carry no user data, and what `parse` reads in them.

- `echoRequest`, `echoResponse`, `endMarker` — their octets.
- `parse_echoRequest`, `parse_echoResponse`, `parse_endMarker` — the round trips.
-/

namespace Radian.Gtpu

open Pfcp (Packet Teid)
open Security (Bytes toBeBytes)

def RECOVERY_IE : UInt8 := 14

/-- A message with a sequence number on TEID 0. -/
def echo (msgType : UInt8) (sequence : UInt16) (payload : Bytes) : Bytes :=
  [VERSION_PT ||| FLAG_S, msgType] ++ lengthOctets (payload.length + 4) ++ toBeBytes (0 : Teid) ++
    [UInt8.ofNat (sequence.toNat / 2 ^ 8), UInt8.ofNat sequence.toNat] ++ [0] ++ [0] ++ payload

def echoRequest (sequence : UInt16) : Bytes := echo MSG_ECHO_REQUEST sequence []

/-- With a Recovery IE, restart counter 0. -/
def echoResponse (sequence : UInt16) : Bytes := echo MSG_ECHO_RESPONSE sequence [RECOVERY_IE, 0x00]

/-- The last message on an old tunnel. -/
def endMarker (teid : Teid) : Bytes :=
  [VERSION_PT, MSG_END_MARKER] ++ lengthOctets 0 ++ toBeBytes teid

/-! ### As datagrams -/

theorem version_sequenced : (VERSION_PT ||| FLAG_S) &&& 0xE0 = 0x20 := rfl

theorem opt_sequenced (sequence : UInt16) :
    [UInt8.ofNat (sequence.toNat / 2 ^ 8), UInt8.ofNat sequence.toNat, 0, 0].length =
      if hasOpt (VERSION_PT ||| FLAG_S) then 4 else 0 := rfl

/-- Without extension headers any options will do. -/
theorem chained_sequenced (opt : Bytes) :
    if (VERSION_PT ||| FLAG_S) &&& FLAG_E != 0 then opt[3]? = some (firstType [])
    else ([] : List ExtHeader) = [] := rfl

def Datagram.echo (msgType : UInt8) (sequence : UInt16) (payload : Bytes) : Datagram where
  flags := VERSION_PT ||| FLAG_S
  msgType
  length := (UInt8.ofNat ((payload.length + 4) / 2 ^ 8), UInt8.ofNat (payload.length + 4))
  teid := 0
  opt := [UInt8.ofNat (sequence.toNat / 2 ^ 8), UInt8.ofNat sequence.toNat, 0, 0]
  headers := []
  payload
  version := version_sequenced
  length_opt := opt_sequenced sequence
  chained := chained_sequenced _

def Datagram.endMarker (teid : Teid) : Datagram :=
  { Datagram.bare teid [] with msgType := MSG_END_MARKER, length := (0, 0) }

theorem echo_eq (msgType : UInt8) (sequence : UInt16) (payload : Bytes) :
    echo msgType sequence payload = (Datagram.echo msgType sequence payload).octets := by
  simp [echo, Datagram.octets, Datagram.echo, chainOctets, lengthOctets]

theorem endMarker_eq (teid : Teid) : endMarker teid = (Datagram.endMarker teid).octets := by
  simp [endMarker, Datagram.octets, Datagram.endMarker, Datagram.bare, chainOctets, lengthOctets]

/-- A sequence number survives its octets. -/
theorem u16FromBeBytes_octets (sequence : UInt16) :
    u16FromBeBytes (UInt8.ofNat (sequence.toNat / 2 ^ 8)) (UInt8.ofNat sequence.toNat) = sequence := by
  have hlt := sequence.toNat_lt
  apply UInt16.toNat.inj
  simp only [u16FromBeBytes, UInt16.toNat_ofNat', UInt8.toNat_ofNat']
  omega

theorem parse_echo (msgType : UInt8) (sequence : UInt16) (payload : Bytes) :
    parse (echo msgType sequence payload) =
      .ok (some (.of msgType 0 none sequence payload)) := by
  rw [echo_eq, parse_octets]
  have hsequence : (Datagram.echo msgType sequence payload).sequence = sequence :=
    u16FromBeBytes_octets sequence
  show Except.ok (some (N3Message.of msgType 0 none _ payload)) = _
  rw [hsequence]

theorem parse_echoRequest (sequence : UInt16) :
    parse (echoRequest sequence) = .ok (some (.echoRequest sequence)) :=
  parse_echo MSG_ECHO_REQUEST sequence []

theorem parse_echoResponse (sequence : UInt16) :
    parse (echoResponse sequence) = .ok (some (.echoResponse sequence)) :=
  parse_echo MSG_ECHO_RESPONSE sequence [RECOVERY_IE, 0x00]

theorem parse_endMarker (teid : Teid) :
    parse (endMarker teid) = .ok (some (.endMarker teid)) := by
  rw [endMarker_eq, parse_octets]
  rfl

theorem parse_encap (teid : Teid) (payload : Packet) :
    parse (encap teid payload) = .ok (some (.gPdu teid none payload)) := by
  rw [encap_eq, parse_octets]
  rfl

theorem length_encapWithContainer (teid : Teid) (frame : UInt8 × UInt8) (payload : Packet) :
    (encapWithContainer teid frame payload).length = payload.length + 16 := by
  simp only [encapWithContainer, lengthOctets, List.length_append, List.length_cons,
    List.length_nil, Security.length_toBeBytes]
  omega

end Radian.Gtpu
