import Radian.N6.Datapath
import Radian.Pfcp.Mirror

/-!
# The UPF

The loops of the UPF over their shared state, one turn at a time: whichever takes the lock next.

- `serve` — a turn of any of the loops.
- `rehash` — the table in another iteration order.
- `admission` — the packet that a turn brings to a session's `admit`.
-/

namespace Radian.Upf

open Pfcp (Packet Teid Seid Ipv4Addr Ipv6Addr Gate FlowQer Session UpfState Codec Datagram Message
  Admission handleN4From deliver)
open Security (Bytes)

/-! ### N4 -/

/-- What `serve_n4` sends for a datagram. -/
structure N4Sends (D : Type) where
  resp : Option D
  flush : List (Teid × Ipv4Addr × UInt8 × Packet)
  endMarkers : List (Teid × Ipv4Addr)
  ras : List (Teid × Ipv4Addr × Ipv6Addr)

/-- A datagram on N4: the handler, then all that waits to be sent. -/
def serveN4 {D : Type} (codec : Codec D) (nodeIp : Ipv4Addr) (s : UpfState) (d : Datagram D) :
    N4Sends D × UpfState :=
  let (resp, s) := handleN4From codec d.data nodeIp s d.nowNanos (some d.peer)
  let (flush, s) := s.takeFlush
  let (endMarkers, s) := s.takeEndMarkers
  let (ras, s) := s.takePendingRa
  ({ resp, flush, endMarkers, ras }, s)

/-- The packets held for a session go out to its new tunnel. -/
def N4Sends.flushed {D : Type} (out : N4Sends D) : List (Ipv4Addr × Bytes) :=
  out.flush.map fun (gnbTeid, gnbIp, qfi, pkt) => (gnbIp, Gtpu.encapDlQfi gnbTeid qfi false pkt)

/-! ### Turns -/

/-- What the loops of the UPF wait for: a datagram on N4, a G-PDU on N3, a packet on N6, and the two
reports of a tick.  Between any two of them the table may iterate in another order. -/
inductive Input (D : Type) where
  | n4 (d : Datagram D)
  | n3 (teid : Teid) (payload : Packet) (nowNanos : Nat)
  | n6 (pkt : Packet) (nowNanos : Nat)
  | usageReport
  | dlDataReport
  | rehash (entries : List (Sigma fun _ : Seid => Session))

/-- The same sessions in another order. -/
def rehash (s : UpfState) (entries : List (Sigma fun _ : Seid => Session)) : UpfState :=
  if h : entries.Perm s.sessions.entries then
    have hnodup : entries.NodupKeys := (List.perm_nodupKeys h).mpr s.sessions.nodupKeys
    { s with
      sessions := ⟨entries, hnodup⟩
      fresh := by
        intro seid hseid
        have hsame : (⟨entries, hnodup⟩ : Keyed.Map Seid Session).lookup seid =
            s.sessions.lookup seid := AList.perm_lookup h
        rw [hsame]
        exact s.fresh seid hseid }
  else s

theorem lookup_rehash (s : UpfState) (entries : List (Sigma fun _ : Seid => Session)) (seid : Seid) :
    (rehash s entries).sessions.lookup seid = s.sessions.lookup seid := by
  unfold rehash
  split
  · rename_i h
    exact AList.perm_lookup h
  · rfl

section Serve

variable {D : Type} (codec : Codec D) (nodeIp : Ipv4Addr)

/-- A turn. -/
def serve (s : UpfState) : Input D → UpfState
  | .n4 d => (serveN4 codec nodeIp s d).2
  | .n3 teid payload nowNanos => (N6.uplink s teid payload nowNanos).2
  | .n6 pkt nowNanos => (N6.downlink s pkt nowNanos).2
  | .usageReport => s.takeDueReport.2
  | .dlDataReport => s.takeDlDataReport.2
  | .rehash entries => rehash s entries

/-- An N4 turn leaves the table that the handler leaves. -/
theorem sessions_serveN4 (s : UpfState) (d : Datagram D) :
    (serve codec nodeIp s (.n4 d)).sessions = (deliver codec nodeIp s d).sessions := rfl

/-- The packet that a turn brings to a session. -/
def admission (s : UpfState) : Input D → Option Admission
  | .n3 teid payload nowNanos => N6.uplinkAdmission s teid payload nowNanos
  | .n6 pkt nowNanos => N6.downlinkAdmission s pkt nowNanos
  | _ => none

end Serve

/-! ### What only N4 changes -/

/-- What is settled when a session is established: its TEIDs, whose it is and its addresses. -/
structure Standing where
  n3Teid : Teid
  dlIngressTeid : Option Teid
  cpSeid : Seid
  peerIp : Option Pfcp.IpAddr
  ueIp : Option Ipv4Addr
  ueIpv6 : Option Ipv6Addr

def standing (t : Session) : Standing where
  n3Teid := t.n3Teid
  dlIngressTeid := t.dlIngressTeid
  cpSeid := t.cpSeid
  peerIp := t.peerIp
  ueIp := t.ueIp
  ueIpv6 := t.ueIpv6

theorem standing_admitPacket (uplink : Bool) (nowNanos : Nat) (pkt : Packet) (t : Session) :
    standing (t.admitPacket uplink nowNanos pkt).2 = standing t := by
  obtain ⟨_, _, _, _, _, htouches⟩ := Pfcp.admitPacket_touches uplink nowNanos pkt t
  rw [htouches]
  rfl

/-- One session changes in place, in what is not settled at its establishment. -/
def InPlace (s s' : UpfState) : Prop :=
  ∃ upSeid f, s' = s.onSession upSeid f ∧
    ∀ t, s.sessions.lookup upSeid = some t → standing (f t) = standing t

theorem InPlace.refl (s : UpfState) : InPlace s s :=
  ⟨0, fun t => t, (s.onSession_id 0).symm, fun _ _ => rfl⟩

theorem InPlace.admitAt (s : UpfState) (a : Admission) : InPlace s (s.admitAt a) :=
  ⟨a.upSeid, _, rfl, fun t _ => standing_admitPacket a.uplink a.nowNanos a.pkt t⟩

section Quiet

variable {D : Type} (codec : Codec D) (nodeIp : Ipv4Addr) (s : UpfState)

/-- A turn without N4 changes one session in place. -/
theorem inPlace_serve {i : Input D} (hn4 : ∀ d, i ≠ .n4 d) (hrehash : ∀ entries, i ≠ .rehash entries) :
    InPlace s (serve codec nodeIp s i) := by
  cases i with
  | n4 d => exact absurd rfl (hn4 d)
  | n3 teid payload nowNanos =>
    rw [serve, N6.uplink_table]
    rcases N6.uplinkAdmission s teid payload nowNanos with _ | a
    · exact .refl s
    · exact .admitAt s a
  | n6 pkt nowNanos =>
    have hstep := N6.downlink_step s pkt nowNanos
    rw [serve]
    generalize N6.downlink s pkt nowNanos = r at hstep ⊢
    cases hstep with
    | admitted => exact .admitAt s _
    | held => exact ⟨_, _, rfl, fun _ _ => rfl⟩
    | dropped => exact .refl s
  | usageReport =>
    unfold serve UpfState.takeDueReport
    dsimp only
    split
    · exact .refl s
    · exact ⟨_, _, rfl, fun _ _ => rfl⟩
  | dlDataReport =>
    unfold serve UpfState.takeDlDataReport
    dsimp only
    split
    · exact .refl s
    · exact ⟨_, _, rfl, fun _ _ => rfl⟩
  | rehash entries => exact absurd rfl (hrehash entries)

end Quiet

/-! ### Sample turns -/

/-- A message of the SMF. -/
def fromSmf (msg : Message) : Input Message :=
  .n4 { peer := .v4 0x0A000001, data := msg, nowNanos := 0 }

/-- UDP on ports 5000 to 5010, on QFI 5. -/
def udpFlow (gate : Gate) : FlowQer :=
  { qfi := 5
    filter := .transport 17 5000 5010
    mfbrDlBps := 0
    mfbrUlBps := 0
    gate }

/-- Establish a session with that flow, and report every twenty bytes. -/
def establishUdp : Input Message :=
  fromSmf (Pfcp.sessionEstablishmentRequest 7 1 0x0A000001 ⟨some 0x0A2D0002, none⟩ "internet" none
    [udpFlow .OPEN] (some 20))

end Radian.Upf
