import Radian.Gtpu.Encap
import Radian.Keyed.Basic
import Radian.Pdcp.Bearer

/-!
# The gNB

The gNB's UE contexts and PDU sessions over one N2 association, and what it makes of NGAP PDUs, Uu
messages and N3 datagrams.

- `GnbState` — UE contexts, the endpoints they belong to, and the counters for identities and TEIDs.
- `handleNgap`, `handleUu`, `handleN3` — the three interfaces; no result is a failed `expect`.
- `setUps` — the PDU sessions an NGAP PDU sets up.
- `handleUu_data`, `handleN3_gPdu` — user data goes by the session that is found for it.
-/

namespace Radian.Ran

open Keyed (Map)
open Pdcp (PdcpDrb PdcpSrb)
open Pfcp (Ipv4Addr Teid)
open Security (Bytes Algorithms)

def FIRST_DL_TEID : Nat := 0x2001
def NEA2 : UInt8 := 2
def NIA2 : UInt8 := 2
def SRB0 : UInt8 := 0
def SRB1 : UInt8 := 1
def GTPU_PORT : UInt16 := 2152

/-! ### SDAP -/

def QFI_MASK : UInt8 := 0x3F
def RDI : UInt8 := 0x80
def RQI : UInt8 := 0x40

/-- A packet behind its downlink SDAP header. -/
def sdapEncapDl (qfi : UInt8) (rqi rdi : Bool) (packet : Bytes) : Bytes :=
  ((if rdi then RDI else 0) ||| (if rqi then RQI else 0) ||| (qfi &&& QFI_MASK)) :: packet

def sdapDecap : Bytes → Option (UInt8 × Bytes)
  | [] => none
  | first :: rest => some (first &&& QFI_MASK, rest)

/-! ### RRC and keys -/

inductive UlCcch where
  | rrcSetupRequest (ueIdentity : Nat) (cause : UInt8)
  | other

inductive UlDcch where
  | rrcSetupComplete (nas : Bytes)
  | ulInformationTransfer (nas : Bytes)
  | securityModeComplete
  | rrcReconfigurationComplete
  | other

structure RrcKeys where
  krrcInt : Bytes
  krrcEnc : Bytes

structure UpKeys where
  kupInt : Bytes
  kupEnc : Bytes

/-- The security library, the key derivations and the RRC codec. -/
structure Functions where
  algorithms : Algorithms
  rrcKeys : Bytes → (nea nia : UInt8) → RrcKeys
  upKeys : Bytes → (nea nia : UInt8) → UpKeys
  rrcSetup : UInt8 → Bytes → Bytes
  dlInformationTransfer : UInt8 → Bytes → Bytes
  securityModeCommand : UInt8 → (nea nia : UInt8) → Bytes
  rrcRelease : UInt8 → Bytes
  parseUlCcch : Bytes → Option UlCcch
  parseUlDcch : Bytes → Option UlDcch

/-! ### Messages -/

/-- An NGAP PDU from the AMF, as its parameters are read. -/
inductive NgapPdu where
  | downlinkNasTransport (amfUeId ranUeId : Nat) (nas : Bytes)
  /-- The sessions set up inline, each with the UPF's F-TEID, and the QFIs read from them. -/
  | initialContextSetup (amfUeId ranUeId : Nat) (securityKey nas : Bytes)
      (qfis : List (UInt8 × UInt8)) (sessions : List (UInt8 × Teid × Ipv4Addr))
  | pduSessionResourceSetup (amfUeId ranUeId : Nat) (qfis : List (UInt8 × UInt8))
      (sessions : List (UInt8 × Teid × Ipv4Addr × Bytes))
  | ueContextReleaseCommand (amfUeId ranUeId : Nat)
  | paging (tmsi : Nat)
  | other

inductive UlMessage where
  | srb (srbId : UInt8) (payload : Bytes)
  | idle
  | data (psi : UInt8) (packet : Bytes)

inductive DlMessage where
  | srb (srbId : UInt8) (payload : Bytes)
  | paging (tmsi : Nat)
  | released
  | data (psi : UInt8) (packet : Bytes)
  deriving DecidableEq, Repr

/-- A parsed GTP-U datagram. -/
inductive N3Message where
  | gPdu (teid : Nat) (qfi : Option UInt8) (payload : Bytes)
  | echoRequest (sequence : UInt16)
  | endMarker (teid : Nat)
  | other

inductive NgapOut where
  | initialUeMessage (ranUeId : Nat) (nas : Bytes)
  | uplinkNasTransport (amfUeId ranUeId : Nat) (nas : Bytes)
  | ueContextReleaseRequest (amfUeId ranUeId : Nat)
  | ueContextReleaseComplete (amfUeId ranUeId : Nat)
  | initialContextSetupResponse (amfUeId ranUeId : Nat) (admitted : List (UInt8 × Nat × Ipv4Addr))
  | pduSessionResourceSetupResponse (amfUeId ranUeId : Nat) (psi qfi : UInt8) (dlTeid : Nat)
      (dlAddr : Ipv4Addr)
  deriving DecidableEq, Repr

inductive Output (P : Type) where
  | ngap (pdu : NgapOut)
  | uu (peer : P) (msg : DlMessage)
  | n3 (addr : Ipv4Addr) (port : UInt16) (datagram : Bytes)
  | echoResponse (sequence : UInt16)
  deriving DecidableEq, Repr

/-! ### State -/

/-- One PDU session's user plane. -/
structure SessionCtx where
  psi : UInt8
  qfi : UInt8
  upfTeid : Teid
  upfAddr : Ipv4Addr
  dlTeid : Nat
  drb : PdcpDrb
  deriving DecidableEq, Repr

def SessionCtx.new (psi qfi : UInt8) (upfTeid : Teid) (upfAddr : Ipv4Addr) (dlTeid : Nat)
    (upKeys : UpKeys) : SessionCtx :=
  { psi, qfi, upfTeid, upfAddr, dlTeid
    drb := (Pdcp.Entity.new .gnb (max psi 1)).activateCiphering upKeys.kupEnc NEA2 }

structure PendingIcs where
  amfUeId : Nat
  admitted : List (UInt8 × Nat × Ipv4Addr)

structure UeCtx (P : Type) where
  peer : P
  amfUeId : Option Nat := none
  sessions : List SessionCtx := []
  srb1 : PdcpSrb := Pdcp.Entity.new .gnb SRB1
  rrcTxn : UInt8 := 0
  pendingDlNas : List Bytes := []
  pendingIcs : Option PendingIcs := none
  upKeys : Option UpKeys := none

structure GnbState (P : Type) [DecidableEq P] where
  ues : Map Nat (UeCtx P) := ∅
  byPeer : Map P Nat := ∅
  camped : List P := []
  nextRanUeId : Nat := 1
  nextDlTeid : Nat := FIRST_DL_TEID

variable {P : Type} [DecidableEq P]

namespace UeCtx

/-- The next 2-bit RRC transaction identifier. -/
def nextTxn (ue : UeCtx P) : UInt8 × UeCtx P :=
  (ue.rrcTxn, { ue with rrcTxn := (ue.rrcTxn + 1) &&& 0x3 })

variable (F : Functions)

/-- Protect an RRC message on SRB1. -/
def protectSrb1 (ue : UeCtx P) (rrc : Bytes) : Bytes × UeCtx P :=
  let (payload, srb1) := ue.srb1.protect F.algorithms rrc
  (payload, { ue with srb1 })

def dlNasSrb1 (ue : UeCtx P) (nas : Bytes) : Bytes × UeCtx P :=
  let (txn, ue) := ue.nextTxn
  ue.protectSrb1 F (F.dlInformationTransfer txn nas)

/-- Protect one NAS message after the other. -/
def dlNasAll (ue : UeCtx P) : List Bytes → List Bytes × UeCtx P
  | [] => ([], ue)
  | nas :: rest =>
      let (payload, ue) := ue.dlNasSrb1 F nas
      let (payloads, ue) := ue.dlNasAll rest
      (payload :: payloads, ue)

/-- Change the first session that `p` finds. -/
def modifyFirst (p : SessionCtx → Bool) (f : SessionCtx → SessionCtx) :
    List SessionCtx → List SessionCtx
  | [] => []
  | x :: xs => if p x then f x :: xs else x :: modifyFirst p f xs

end UeCtx

namespace GnbState

/-- A fresh UE context for `peer`, in place of the one it has. -/
def newUe (s : GnbState P) (peer : P) : Nat × GnbState P :=
  let ues := match s.byPeer.lookup peer with
    | some old => s.ues.erase old
    | none => s.ues
  let ranUeId := s.nextRanUeId
  (ranUeId,
    { s with
      ues := ues.insert ranUeId { peer }
      byPeer := s.byPeer.insert peer ranUeId
      camped := if s.camped.contains peer then s.camped else s.camped ++ [peer]
      nextRanUeId := (s.nextRanUeId + 1) % 2 ^ 32 })

def removeUe (s : GnbState P) (ranUeId : Nat) : Option (UeCtx P × GnbState P) :=
  (s.ues.lookup ranUeId).map fun ctx =>
    (ctx, { s with ues := s.ues.erase ranUeId, byPeer := s.byPeer.erase ctx.peer })

/-- The UE context that owns a downlink TEID. -/
def sessionByDlTeid (s : GnbState P) (teid : Nat) : Option (Nat × UInt8 × P) :=
  s.ues.entries.findSome? fun e =>
    (e.2.sessions.find? fun x => x.dlTeid = teid).map fun x => (e.1, x.psi, e.2.peer)

def putUe (s : GnbState P) (ranUeId : Nat) (ue : UeCtx P) : GnbState P :=
  { s with ues := s.ues.insert ranUeId ue }

/-- `(ran_ue_id, amf_ue_id)` of a peer, once the AMF has addressed the UE. -/
def ueIdsForPeer (s : GnbState P) (peer : P) : Option (Nat × Nat) := do
  let ranUeId ← s.byPeer.lookup peer
  let ue ← s.ues.lookup ranUeId
  let amfUeId ← ue.amfUeId
  return (ranUeId, amfUeId)

/-- The session contexts for the sessions of a request, with the next TEIDs. -/
def admitted (upKeys : UpKeys) (qfis : List (UInt8 × UInt8)) :
    List (UInt8 × Teid × Ipv4Addr) → Nat → List SessionCtx
  | [], _ => []
  | (psi, upfTeid, upfAddr) :: rest, dlTeid =>
      SessionCtx.new psi ((Keyed.collect qfis psi).getD 1) upfTeid upfAddr dlTeid upKeys ::
        admitted upKeys qfis rest ((dlTeid + 1) % 2 ^ 32)

/-- The counter after `n` TEIDs. -/
def afterTeids : Nat → Nat → Nat
  | dlTeid, 0 => dlTeid
  | dlTeid, n + 1 => afterTeids ((dlTeid + 1) % 2 ^ 32) n

/-- The key of a DRB that is set up before security is. -/
def nullKeys : UpKeys := { kupInt := List.replicate 16 0, kupEnc := List.replicate 16 0 }

variable (F : Functions)

/-- The sessions a PDU sets up, and the UE context they are for. -/
def setUps (s : GnbState P) : NgapPdu → List (Nat × SessionCtx)
  | .initialContextSetup _ ranUeId securityKey _ qfis sessions =>
      if (s.ues.lookup ranUeId).isSome then
        (admitted (F.upKeys securityKey NEA2 NIA2) qfis sessions s.nextDlTeid).map fun x =>
          (ranUeId, x)
      else []
  | .pduSessionResourceSetup _ ranUeId qfis sessions =>
      match s.ues.lookup ranUeId with
      | some ue =>
          (admitted (ue.upKeys.getD nullKeys) qfis
            -- only the first session of the request is set up
            ((sessions.take 1).map fun x => (x.1, x.2.1, x.2.2.1)) s.nextDlTeid).map fun x =>
            (ranUeId, x)
      | none => []
  | _ => []

/-- The parts of the configuration that the handlers read. -/
structure GnbConfig where
  n3Addr : Ipv4Addr

def handleNgap (cfg : GnbConfig) (s : GnbState P) (pdu : NgapPdu) :
    Option (List (Output P) × GnbState P) :=
  match pdu with
  | .downlinkNasTransport amfUeId ranUeId nas =>
      match s.ues.lookup ranUeId with
      | none => some ([], s)
      | some ue =>
          let (payload, ue) := { ue with amfUeId := some amfUeId }.dlNasSrb1 F nas
          some ([.uu ue.peer (.srb SRB1 payload)], s.putUe ranUeId ue)
  | .initialContextSetup amfUeId ranUeId securityKey nas qfis sessions =>
      if (s.ues.lookup ranUeId).isNone then some ([], s)
      else
        let keys := F.rrcKeys securityKey NEA2 NIA2
        let upKeys := F.upKeys securityKey NEA2 NIA2
        let new := admitted upKeys qfis sessions s.nextDlTeid
        let s := { s with nextDlTeid := afterTeids s.nextDlTeid sessions.length }
        (s.ues.lookup ranUeId).map fun ue =>
          let ue := { ue with
            amfUeId := some amfUeId, upKeys := some upKeys, sessions := ue.sessions ++ new
            srb1 := ue.srb1.activateIntegrity keys.krrcInt NIA2 }
          let (txn, ue) := ue.nextTxn
          let (smc, ue) := ue.protectSrb1 F (F.securityModeCommand txn NEA2 NIA2)
          let ue := { ue with
            srb1 := ue.srb1.activateCiphering keys.krrcEnc NEA2
            pendingDlNas := if nas.isEmpty then ue.pendingDlNas else ue.pendingDlNas ++ [nas]
            pendingIcs := some
              { amfUeId, admitted := new.map fun x => (x.psi, x.dlTeid, cfg.n3Addr) } }
          ([.uu ue.peer (.srb SRB1 smc)], s.putUe ranUeId ue)
  | .pduSessionResourceSetup amfUeId ranUeId qfis sessions =>
      match s.ues.lookup ranUeId with
      | none => some ([], s)
      | some ue =>
          let peer := ue.peer
          match sessions with
          | [] => some ([], s)
          | (psi, upfTeid, upfAddr, nas) :: _ =>
              let dlTeid := s.nextDlTeid
              let s := { s with nextDlTeid := (dlTeid + 1) % 2 ^ 32 }
              let qfi := (Keyed.collect qfis psi).getD 1
              (s.ues.lookup ranUeId).map fun ue =>
                let upKeys := ue.upKeys.getD nullKeys
                let ue := { ue with
                  sessions := ue.sessions ++ [.new psi qfi upfTeid upfAddr dlTeid upKeys] }
                let response := .ngap
                  (.pduSessionResourceSetupResponse amfUeId ranUeId psi qfi dlTeid cfg.n3Addr)
                if nas.isEmpty then ([response], s.putUe ranUeId ue)
                else
                  let (payload, ue) := ue.dlNasSrb1 F nas
                  ([response, .uu peer (.srb SRB1 payload)], s.putUe ranUeId ue)
  | .ueContextReleaseCommand amfUeId ranUeId =>
      let complete := .ngap (.ueContextReleaseComplete amfUeId ranUeId)
      let (release, s) := match s.ues.lookup ranUeId with
        | some ue =>
            let (txn, ue) := ue.nextTxn
            let (payload, ue) := ue.protectSrb1 F (F.rrcRelease txn)
            ([Output.uu ue.peer (.srb SRB1 payload)], s.putUe ranUeId ue)
        | none => ([], s)
      match s.removeUe ranUeId with
      | some (ctx, s) => some (complete :: release ++ [.uu ctx.peer .released], s)
      | none => some (complete :: release, s)
  | .paging tmsi => some (s.camped.map fun peer => .uu peer (.paging tmsi), s)
  | .other => some ([], s)

/-- The UE confirmed AS security: what was held back for it goes out. -/
def onAsSecurityComplete (s : GnbState P) (ranUeId : Nat) : Option (List (Output P) × GnbState P) :=
  (s.ues.lookup ranUeId).map fun ue =>
    let held := ue.pendingDlNas
    let ics := ue.pendingIcs
    let (payloads, ue) := { ue with pendingDlNas := [], pendingIcs := none }.dlNasAll F held
    let response := match ics with
      | some ics => [.ngap (.initialContextSetupResponse ics.amfUeId ranUeId ics.admitted)]
      | none => []
    (payloads.map (fun payload => .uu ue.peer (.srb SRB1 payload)) ++ response, s.putUe ranUeId ue)

/-- The session that carries a peer's uplink data. -/
def uplinkSession (s : GnbState P) (peer : P) (psi : UInt8) : Option (Nat × UeCtx P × SessionCtx) := do
  let ranUeId ← s.byPeer.lookup peer
  let ue ← s.ues.lookup ranUeId
  let x ← ue.sessions.find? fun x => x.psi = psi
  return (ranUeId, ue, x)

def handleUu (s : GnbState P) (peer : P) (msg : UlMessage) : Option (List (Output P) × GnbState P) :=
  match msg with
  | .srb srbId payload =>
      if srbId = SRB0 then
        match F.parseUlCcch payload with
        | some (.rrcSetupRequest _ _) =>
            let (_, s) := s.newUe peer
            some ([.uu peer (.srb SRB0 (F.rrcSetup 0 [0x00]))], s)
        | _ => some ([], s)
      else if srbId = SRB1 then
        match s.byPeer.lookup peer with
        | none => some ([], s)
        | some ranUeId =>
            match s.ues.lookup ranUeId with
            | none => none
            | some ue =>
                let (opened, srb1) := ue.srb1.unprotect F.algorithms payload
                let s := s.putUe ranUeId { ue with srb1 }
                match opened with
                | .error _ => some ([], s)
                | .ok rrc =>
                    match F.parseUlDcch rrc with
                    | some (.rrcSetupComplete nas) =>
                        some ([.ngap (.initialUeMessage ranUeId nas)], s)
                    | some (.ulInformationTransfer nas) =>
                        match s.ueIdsForPeer peer with
                        | none => some ([], s)
                        | some (_, amfUeId) =>
                            some ([.ngap (.uplinkNasTransport amfUeId ranUeId nas)], s)
                    | some .securityModeComplete => s.onAsSecurityComplete F ranUeId
                    | _ => some ([], s)
      else some ([], s)
  | .idle =>
      match s.ueIdsForPeer peer with
      | none => some ([], s)
      | some (ranUeId, amfUeId) => some ([.ngap (.ueContextReleaseRequest amfUeId ranUeId)], s)
  | .data psi packet =>
      match s.uplinkSession peer psi with
      | none => some ([], s)
      | some (ranUeId, ue, x) =>
          let (opened, drb) := x.drb.unprotect F.algorithms packet
          let s := s.putUe ranUeId { ue with
            sessions := UeCtx.modifyFirst (fun x => x.psi = psi) (fun x => { x with drb })
              ue.sessions }
          match opened with
          | .error _ => some ([], s)
          | .ok sdapPdu =>
              match sdapDecap sdapPdu with
              | none => some ([], s)
              | some (qfi, ip) =>
                  some ([.n3 x.upfAddr GTPU_PORT (Gtpu.encapUlQfi x.upfTeid qfi ip)], s)

/-- The session that carries what comes down a tunnel: first the UE context and the PDU session id are
found by the TEID, then the session by its id. -/
def downlinkSession (s : GnbState P) (teid : Nat) : Option (Nat × UeCtx P × SessionCtx) := do
  let (ranUeId, psi, _) ← s.sessionByDlTeid teid
  let ue ← s.ues.lookup ranUeId
  let x ← ue.sessions.find? fun x => x.psi = psi
  return (ranUeId, ue, x)

def handleN3 (s : GnbState P) (msg : N3Message) : Option (List (Output P) × GnbState P) :=
  match msg with
  | .echoRequest sequence => some ([.echoResponse sequence], s)
  | .gPdu teid qfi payload =>
      match s.sessionByDlTeid teid with
      | none => some ([], s)
      | some (_, psi, peer) =>
          (s.downlinkSession teid).map fun (ranUeId, ue, x) =>
            let flowQfi := qfi.getD x.qfi
            let (packet, drb) := x.drb.protect F.algorithms (sdapEncapDl flowQfi false false payload)
            ([.uu peer (.data psi packet)],
              s.putUe ranUeId { ue with
                sessions := UeCtx.modifyFirst (fun x => x.psi = psi) (fun x => { x with drb })
                  ue.sessions })
  | .endMarker _ => some ([], s)
  | .other => some ([], s)

/-! ### User data -/

/-- What a session makes of an uplink PDU. -/
def uplinkOutput (x : SessionCtx) (packet : Bytes) : List (Output P) :=
  match (x.drb.unprotect F.algorithms packet).1 with
  | .error _ => []
  | .ok sdapPdu =>
      match sdapDecap sdapPdu with
      | none => []
      | some (qfi, ip) => [.n3 x.upfAddr GTPU_PORT (Gtpu.encapUlQfi x.upfTeid qfi ip)]

/-- What a session makes of a downlink packet for `peer`. -/
def downlinkOutput (peer : P) (x : SessionCtx) (qfi : Option UInt8) (payload : Bytes) :
    List (Output P) :=
  let sdapPdu := sdapEncapDl (qfi.getD x.qfi) false false payload
  [.uu peer (.data x.psi (x.drb.protect F.algorithms sdapPdu).1)]

variable {F} {s : GnbState P}

theorem handleUu_data {peer : P} {psi : UInt8} {ranUeId : Nat} {ue : UeCtx P} {x : SessionCtx}
    (h : s.uplinkSession peer psi = some (ranUeId, ue, x)) (packet : Bytes) :
    (s.handleUu F peer (.data psi packet)).map Prod.fst = some (uplinkOutput F x packet) := by
  simp only [handleUu, h, uplinkOutput]
  cases (x.drb.unprotect F.algorithms packet).1 with
  | error => rfl
  | ok sdapPdu =>
    dsimp only
    cases sdapDecap sdapPdu <;> rfl

theorem handleN3_gPdu {teid : Nat} {peer : P} {ranUeId ranUeId' : Nat} {ue : UeCtx P}
    {x : SessionCtx} (hteid : s.sessionByDlTeid teid = some (ranUeId', x.psi, peer))
    (h : s.downlinkSession teid = some (ranUeId, ue, x)) (qfi : Option UInt8) (payload : Bytes) :
    (s.handleN3 F (.gPdu teid qfi payload)).map Prod.fst =
      some (downlinkOutput F peer x qfi payload) := by
  simp [handleN3, hteid, h, downlinkOutput]

end GnbState

/-- What happens on one of the three interfaces. -/
inductive Event (P : Type) where
  | ngap (pdu : NgapPdu)
  | uu (peer : P) (msg : UlMessage)
  | n3 (msg : N3Message)

def GnbState.handle (F : Functions) (cfg : GnbState.GnbConfig) (s : GnbState P) :
    Event P → Option (List (Output P) × GnbState P)
  | .ngap pdu => s.handleNgap F cfg pdu
  | .uu peer msg => s.handleUu F peer msg
  | .n3 msg => s.handleN3 F msg

end Radian.Ran
