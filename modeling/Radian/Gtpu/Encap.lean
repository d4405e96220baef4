import Radian.Pfcp.Types
import Radian.Security.Algorithms

/-!
# GTP-U encapsulation

The G-PDU around a packet: a bare one, one with a PDU Session Container, or one with an NR RAN
Container.
-/

namespace Radian.Gtpu

open Pfcp (Packet Teid)
open Security (Bytes toBeBytes)

def MSG_G_PDU : UInt8 := 0xFF
def EXT_PDU_SESSION_CONTAINER : UInt8 := 0x85
def VERSION_PT : UInt8 := 0x30
def FLAG_E : UInt8 := 0x04
def DL_PDU_SESSION_INFORMATION : UInt8 := 0
def UL_PDU_SESSION_INFORMATION : UInt8 := 1

/-- A DL PDU SESSION INFORMATION frame. -/
def dlFrame (qfi : UInt8) (rqi : Bool) : UInt8 × UInt8 :=
  (DL_PDU_SESSION_INFORMATION <<< 4, (if rqi then (1 : UInt8) else 0) <<< 6 ||| (qfi &&& 0x3F))

/-- A length as `u16`, in two octets. -/
def lengthOctets (n : Nat) : Bytes := [UInt8.ofNat (n / 2 ^ 8), UInt8.ofNat n]

/-- A G-PDU with one PDU Session Container. -/
def encapWithContainer (teid : Teid) (frame : UInt8 × UInt8) (payload : Packet) : Bytes :=
  -- the length leaves out the first eight octets
  [VERSION_PT ||| FLAG_E, MSG_G_PDU] ++ lengthOctets (payload.length + 8) ++ toBeBytes teid ++
    [0, 0, 0, EXT_PDU_SESSION_CONTAINER] ++ [1] ++ [frame.1, frame.2] ++ [0] ++ payload

def encapDlQfi (teid : Teid) (qfi : UInt8) (rqi : Bool) (payload : Packet) : Bytes :=
  encapWithContainer teid (dlFrame qfi rqi) payload

/-- A UL PDU SESSION INFORMATION frame. -/
def ulFrame (qfi : UInt8) : UInt8 × UInt8 := (UL_PDU_SESSION_INFORMATION <<< 4, qfi &&& 0x3F)

def encapUlQfi (teid : Teid) (qfi : UInt8) (payload : Packet) : Bytes :=
  encapWithContainer teid (ulFrame qfi) payload

/-- A bare G-PDU. -/
def encap (teid : Teid) (payload : Packet) : Bytes :=
  [VERSION_PT, MSG_G_PDU] ++ lengthOctets payload.length ++ toBeBytes teid ++ payload

/-! ### F1-U -/

def EXT_NR_RAN_CONTAINER : UInt8 := 0x84
def DL_USER_DATA : UInt8 := 0
def DL_DATA_DELIVERY_STATUS : UInt8 := 1

/-- Zeros up to two octets short of a multiple of four. -/
def pad (out : Bytes) : Bytes :=
  if (out.length + 2) % 4 = 0 then out else pad (out ++ [0])
termination_by (4 - (out.length + 2) % 4) % 4
decreasing_by
  rw [List.length_append, List.length_singleton]
  omega

/-- A DL USER DATA frame; the sequence number has 24 bits. -/
def dlUserData (nruSn : BitVec 32) : Bytes :=
  pad ([DL_USER_DATA <<< 4, 0] ++ (toBeBytes nruSn).drop 1)

/-- A DL DATA DELIVERY STATUS frame. -/
def dlDataDeliveryStatus (desiredBufferSize : BitVec 32) : Bytes :=
  pad ([DL_DATA_DELIVERY_STATUS <<< 4, 0] ++ toBeBytes desiredBufferSize)

/-- A G-PDU with one NR RAN Container, of octets that are padded already. -/
def encapNrRanContainer (teid : Teid) (container : Bytes) (payload : Packet) : Bytes :=
  let units := (container.length + 2) / 4
  let extBytes := units * 4
  [VERSION_PT ||| FLAG_E, MSG_G_PDU] ++ lengthOctets (4 + extBytes + payload.length) ++
    toBeBytes teid ++ [0, 0, 0, EXT_NR_RAN_CONTAINER] ++ [UInt8.ofNat units] ++ container ++ [0] ++
    payload

def encapF1uDlUserData (teid : Teid) (nruSn : BitVec 32) (pdcpPdu : Packet) : Bytes :=
  encapNrRanContainer teid (dlUserData nruSn) pdcpPdu

def encapF1uDeliveryStatus (teid : Teid) (desiredBufferSize : BitVec 32) : Bytes :=
  encapNrRanContainer teid (dlDataDeliveryStatus desiredBufferSize) []

end Radian.Gtpu
