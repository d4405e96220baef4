import Radian.Gtpu.Length
import Radian.Ran.Gnb

/-!
# The F1 split

The gNB as a CU and a DU: the CU's core reaches its UEs by an F1 transport, and the DU translates between
F1 and the Uu.

- `F1apPdu`, `F1Message` — what goes over F1-C and F1-U.
- `F1Transport` — the CU's side: `receive` what the DU sends, `send` downlink messages.
- `Du` — the DU's side: `handleUu` an endpoint's message, `read` what the CU sends.
- `handleF1u_encap`, `handleF1uDownlink_encap` — what user data looks like behind F1-U.
-/

namespace Radian.Ran

open Keyed (Map)
open Pfcp (Teid)
open Security (Bytes)

def CAUSE_NORMAL_RELEASE : UInt8 := 10

/-- The receive buffers of the two F1-U sockets; what does not fit is cut off. -/
def F1U_BUFFER : Nat := 4096

/-! ### Messages -/

/-- An F1AP PDU, as its parameters are read. -/
inductive F1apPdu where
  | f1SetupRequest (transactionId : UInt8)
  | f1SetupResponse (transactionId : UInt8)
  | initialUlRrcMessageTransfer (duUeId : Nat) (cRnti : UInt16) (rrc : Bytes)
  | ulRrcMessageTransfer (cuUeId duUeId : Nat) (srbId : UInt8) (rrc : Bytes)
  | dlRrcMessageTransfer (cuUeId duUeId : Nat) (srbId : UInt8) (rrc : Bytes)
  | ueContextSetupRequest (cuUeId : Nat) (rrc : Bytes)
  | ueContextSetupResponse (cuUeId duUeId : Nat) (cellGroup : Bytes)
  | ueContextReleaseRequest (cuUeId duUeId : Nat) (cause : UInt8)
  | ueContextReleaseCommand (cuUeId duUeId : Nat) (cause : UInt8) (rrc : Option Bytes)
  | ueContextReleaseComplete (cuUeId duUeId : Nat)
  | paging (fiveGSTmsi : Nat)
  | other

/-- An F1AP PDU on F1-C, or a datagram on F1-U. -/
inductive F1Message where
  | c (pdu : F1apPdu)
  | u (datagram : Bytes)

/-- The tunnel of a DRB: the CU-UE-F1AP-ID in the high bits, the PDU session id in the low octet. -/
def f1uTeid (cuUeId : Nat) (psi : UInt8) : Teid :=
  BitVec.ofNat 32 cuUeId <<< 8 ||| BitVec.ofNat 32 psi.toNat

def splitTeid (teid : Teid) : Nat × UInt8 := ((teid >>> 8).toNat, .ofNat (teid &&& 0xFF).toNat)

theorem toNat_f1uTeid {cuUeId : Nat} (h : cuUeId < 2 ^ 24) (psi : UInt8) :
    (f1uTeid cuUeId psi).toNat = cuUeId * 256 + psi.toNat := by
  have hpsi := psi.toNat_lt
  have hhigh : (cuUeId <<< 8) % 2 ^ 32 = cuUeId <<< 8 :=
    Nat.mod_eq_of_lt (by rw [Nat.shiftLeft_eq]; omega)
  rw [f1uTeid, BitVec.toNat_or, BitVec.toNat_shiftLeft, BitVec.toNat_ofNat, BitVec.toNat_ofNat,
    Nat.mod_eq_of_lt (by omega : cuUeId < 2 ^ 32), Nat.mod_eq_of_lt (by omega : psi.toNat < 2 ^ 32),
    hhigh, ← Nat.shiftLeft_add_eq_or_of_lt hpsi, Nat.shiftLeft_eq]

/-- Both ends agree on the tunnel. -/
theorem splitTeid_f1uTeid {cuUeId : Nat} (h : cuUeId < 2 ^ 24) (psi : UInt8) :
    splitTeid (f1uTeid cuUeId psi) = (cuUeId, psi) := by
  have hpsi := psi.toNat_lt
  have hmask : (0xFF : BitVec 32).toNat = 2 ^ 8 - 1 := rfl
  rw [splitTeid, BitVec.toNat_ushiftRight, BitVec.toNat_and, toNat_f1uTeid h, Nat.shiftRight_eq_div_pow,
    hmask, Nat.and_two_pow_sub_one_eq_mod]
  have hcu : (cuUeId * 256 + psi.toNat) / 2 ^ 8 = cuUeId := by omega
  have hlow : (cuUeId * 256 + psi.toNat) % 2 ^ 8 = psi.toNat := by omega
  rw [hcu, hlow, UInt8.ofNat_toNat]

/-! ### The CU's side -/

/-- One UE's F1 state at the CU. -/
structure F1Ue where
  duUeId : Nat
  /-- The DU was asked to admit the UE context, which is done with the first data. -/
  ctxSetup : Bool := false
  /-- The next NR-U sequence number of each DRB. -/
  dlSn : Map UInt8 (BitVec 32) := ∅

structure F1Transport where
  ues : Map Nat F1Ue := ∅
  nextCuUeId : Nat := 1

namespace F1Transport

/-- The uplink message that an F1AP PDU stands for, if any, and the answer to it. -/
def handleF1ap (t : F1Transport) (pdu : F1apPdu) :
    Option (Nat × UlMessage) × List F1Message × F1Transport :=
  match pdu with
  | .f1SetupRequest transactionId => (none, [.c (.f1SetupResponse transactionId)], t)
  | .f1SetupResponse transactionId => (none, [.c (.f1SetupResponse transactionId)], t)
  | .initialUlRrcMessageTransfer duUeId _ rrc =>
      let cuUeId := t.nextCuUeId
      (some (cuUeId, .srb 0 rrc), [],
        { ues := t.ues.insert cuUeId { duUeId }, nextCuUeId := (cuUeId + 1) % 2 ^ 32 })
  | .ulRrcMessageTransfer cuUeId _ srbId rrc => (some (cuUeId, .srb srbId rrc), [], t)
  | .ueContextReleaseRequest cuUeId _ _ => (some (cuUeId, .idle), [], t)
  | _ => (none, [], t)

/-- The uplink data in a datagram from the DU. -/
def handleF1u (datagram : Bytes) : Option (Nat × UlMessage) :=
  match Gtpu.decap datagram with
  | .ok (some (teid, pdcp)) => some ((splitTeid teid).1, .data (splitTeid teid).2 pdcp)
  | _ => none

theorem handleF1u_encap {cuUeId : Nat} (h : cuUeId < 2 ^ 24) (psi : UInt8) {packet : Bytes}
    (hlen : packet.length + 8 ≤ F1U_BUFFER) :
    handleF1u ((Gtpu.encap (f1uTeid cuUeId psi) packet).take F1U_BUFFER) =
      some (cuUeId, .data psi packet) := by
  have hwhole : (Gtpu.encap (f1uTeid cuUeId psi) packet).length ≤ F1U_BUFFER := by
    rwa [Gtpu.length_encap]
  rw [List.take_of_length_le hwhole, handleF1u, Gtpu.decap_encap]
  dsimp only
  rw [splitTeid_f1uTeid h]

def receive (t : F1Transport) : F1Message → Option (Nat × UlMessage) × List F1Message × F1Transport
  | .c pdu => t.handleF1ap pdu
  | .u datagram => (handleF1u (datagram.take F1U_BUFFER), [], t)

def send (t : F1Transport) (peer : Nat) (msg : DlMessage) : List F1Message × F1Transport :=
  match msg with
  -- a page needs no UE context
  | .paging tmsi => ([.c (.paging tmsi)], t)
  | .srb srbId payload =>
      match t.ues.lookup peer with
      | none => ([], t)
      | some ue => ([.c (.dlRrcMessageTransfer peer ue.duUeId srbId payload)], t)
  | .data psi packet =>
      match t.ues.lookup peer with
      | none => ([], t)
      | some ue =>
          let setup := if ue.ctxSetup then [] else [.c (.ueContextSetupRequest peer [])]
          let sn := (ue.dlSn.lookup psi).getD 0
          let ue := { ue with ctxSetup := true, dlSn := ue.dlSn.insert psi ((sn + 1) &&& 0xFFFFFF) }
          (setup ++ [.u (Gtpu.encapF1uDlUserData (f1uTeid peer psi) sn packet)],
            { t with ues := t.ues.insert peer ue })
  | .released =>
      match t.ues.lookup peer with
      | none => ([], t)
      | some ue =>
          ([.c (.ueContextReleaseCommand peer ue.duUeId CAUSE_NORMAL_RELEASE none)],
            { t with ues := t.ues.erase peer })

/-- Send one message after the other. -/
def sendAll (t : F1Transport) : List (Nat × DlMessage) → List F1Message × F1Transport
  | [] => ([], t)
  | (peer, msg) :: rest =>
      let (sent, t) := t.send peer msg
      let (more, t) := t.sendAll rest
      (sent ++ more, t)

end F1Transport

/-! ### The DU's side -/

/-- One UE that the DU is bridging. -/
structure DuUe (P : Type) where
  duUeId : Nat
  /-- The CU-UE-F1AP-ID, learned from the CU's first DL RRC Message Transfer. -/
  cuUeId : Option Nat := none
  peer : P
  deriving DecidableEq

structure Du (P : Type) where
  ues : List (DuUe P) := []
  /-- Every endpoint that ever camped; it outlives its UE context. -/
  camped : List P := []
  nextDuUeId : Nat := 1
  nextCRnti : UInt16 := 0x4601

/-- What the DU sends on reading a message of the CU. -/
structure DuSent (P : Type) where
  uu : List (P × DlMessage) := []
  f1 : List F1Message := []

namespace Du

variable {P : Type} [DecidableEq P]

def ueByPeer (d : Du P) (peer : P) : Option (DuUe P) := d.ues.find? fun u => u.peer = peer

def ueByDuId (d : Du P) (duUeId : Nat) : Option (DuUe P) := d.ues.find? fun u => u.duUeId = duUeId

def peerByCuId (d : Du P) (cuUeId : Nat) : Option P :=
  (d.ues.find? fun u => u.cuUeId = some cuUeId).map fun u => u.peer

/-- The identities of an endpoint's UE, once the CU has addressed it. -/
def idsByPeer (d : Du P) (peer : P) : Option (Nat × Nat) := do
  let ue ← d.ueByPeer peer
  let cuUeId ← ue.cuUeId
  return (ue.duUeId, cuUeId)

/-- A fresh UE context for `peer`, in place of the one it has. -/
def camp (d : Du P) (peer : P) : Du P where
  ues := d.ues.filter (fun u => u.peer ≠ peer) ++ [{ duUeId := d.nextDuUeId, peer }]
  camped := if d.camped.contains peer then d.camped else d.camped ++ [peer]
  nextDuUeId := (d.nextDuUeId + 1) % 2 ^ 32
  nextCRnti := max (d.nextCRnti + 1) 0x4601

def handleUu (d : Du P) (peer : P) (msg : UlMessage) : Option F1Message × Du P :=
  match msg with
  | .srb srbId payload =>
      if srbId = 0 then
        (some (.c (.initialUlRrcMessageTransfer d.nextDuUeId d.nextCRnti payload)), d.camp peer)
      else
        ((d.idsByPeer peer).map fun (duUeId, cuUeId) =>
          .c (.ulRrcMessageTransfer cuUeId duUeId srbId payload), d)
  | .idle =>
      ((d.idsByPeer peer).map fun (duUeId, cuUeId) =>
        .c (.ueContextReleaseRequest cuUeId duUeId CAUSE_NORMAL_RELEASE), d)
  | .data psi packet =>
      ((d.idsByPeer peer).map fun (_, cuUeId) => .u (Gtpu.encap (f1uTeid cuUeId psi) packet), d)

/-- The UEs, with the CU-UE-F1AP-ID of the first with a DU-UE-F1AP-ID. -/
def learn (cuUeId duUeId : Nat) : List (DuUe P) → List (DuUe P)
  | [] => []
  | u :: us => if u.duUeId = duUeId then { u with cuUeId := some cuUeId } :: us else u :: learn cuUeId duUeId us

def handleF1ap (d : Du P) (pdu : F1apPdu) : DuSent P × Du P :=
  match pdu with
  | .dlRrcMessageTransfer cuUeId duUeId srbId rrc =>
      match d.ueByDuId duUeId with
      | none => ({}, d)
      | some ue => ({ uu := [(ue.peer, .srb srbId rrc)] }, { d with ues := learn cuUeId duUeId d.ues })
  | .ueContextSetupRequest cuUeId rrc =>
      match d.peerByCuId cuUeId with
      | none => ({}, d)
      | some peer =>
          ({ uu := if rrc.isEmpty then [] else [(peer, .srb 1 rrc)]
             f1 := (d.ueByPeer peer).toList.map fun ue =>
               .c (.ueContextSetupResponse cuUeId ue.duUeId []) }, d)
  | .ueContextReleaseCommand cuUeId duUeId _ rrc =>
      let uu := match d.peerByCuId cuUeId with
        | some peer => rrc.toList.map (fun rrc => (peer, .srb 1 rrc)) ++ [(peer, .released)]
        | none => []
      ({ uu, f1 := [.c (.ueContextReleaseComplete cuUeId duUeId)] },
        { d with ues := d.ues.filter fun u => u.cuUeId ≠ some cuUeId })
  | .paging fiveGSTmsi =>
      ({ uu := d.camped.map fun peer => (peer, .paging (fiveGSTmsi % 2 ^ 32)) }, d)
  | _ => ({}, d)

def handleF1uDownlink (d : Du P) (datagram : Bytes) : DuSent P × Du P :=
  match Gtpu.parseNrRanContainer datagram with
  | .ok (some (teid, _, pdcp)) =>
      match d.peerByCuId (splitTeid teid).1 with
      | none => ({}, d)
      | some peer => ({ uu := [(peer, .data (splitTeid teid).2 pdcp)] }, d)
  | _ => ({}, d)

def read (d : Du P) : F1Message → DuSent P × Du P
  | .c pdu => d.handleF1ap pdu
  | .u datagram => d.handleF1uDownlink (datagram.take F1U_BUFFER)

omit [DecidableEq P] in
theorem handleF1uDownlink_encap (d : Du P) {cuUeId : Nat} (h : cuUeId < 2 ^ 24) (psi : UInt8)
    (sn : BitVec 32) {packet : Bytes} (hlen : packet.length + 20 ≤ F1U_BUFFER) :
    d.handleF1uDownlink ((Gtpu.encapF1uDlUserData (f1uTeid cuUeId psi) sn packet).take F1U_BUFFER) =
      ({ uu := (d.peerByCuId cuUeId).toList.map fun peer => (peer, .data psi packet) }, d) := by
  have hwhole : (Gtpu.encapF1uDlUserData (f1uTeid cuUeId psi) sn packet).length ≤ F1U_BUFFER := by
    rwa [Gtpu.length_encapF1uDlUserData]
  rw [List.take_of_length_le hwhole, handleF1uDownlink, Gtpu.parse_encapF1uDlUserData]
  dsimp only
  rw [splitTeid_f1uTeid h]
  cases d.peerByCuId cuUeId <;> rfl

end Du

end Radian.Ran
