import Radian.Upf.Serve

/-!
# Downlink enforcement

Which downlink packets leave the UPF with the consent of `admit`.

- `released` — the G-PDUs with downlink packets that a turn sends to gNBs.
- `Enforced` — a G-PDU carries a packet that `admit` let through in that turn.
- `downlink_enforced_iff` — all of a run's are enforced exactly when no tunnel is installed for a
  session that holds packets.
-/

namespace Radian.Upf

open Pfcp (Teid Ipv4Addr Session UpfState Codec Datagram Message Admission LetThrough handleMessage
  refuses installs deliver)
open Security (Bytes)

section Turns

variable {D : Type} (codec : Codec D) (nodeIp : Ipv4Addr)

/-- The G-PDUs with packets for UEs, live or held until now, each with its gNB. -/
def released (s : UpfState) : Input D → List (Ipv4Addr × Bytes)
  | .n4 d => (serveN4 codec nodeIp s d).1.flushed
  | .n6 pkt nowNanos =>
      match (N6.downlink s pkt nowNanos).1 with
      | .toN3 gnbIp gpdu => [(gnbIp, gpdu)]
      | _ => []
  | _ => []

/-- A turn does not install a tunnel for a session that holds packets. -/
def Unheld (s : UpfState) : Input D → Prop
  | .n4 d =>
      ∀ msg ∈ codec.parse d.data, ∀ x ∈ msg.seid, ∀ t ∈ s.sessions.lookup x,
        msg.msgType = .sessionModificationRequest → refuses s (some d.peer) x = false →
        (installs msg).isSome → t.dlBuffer = []
  | _ => True

end Turns

/-- A G-PDU of a turn carries the packet that the turn brought to the `admit` of its session, to the
gNB of that session.  It was let through and is counted under one URR in the table that the turn
leaves. -/
structure Enforced {D : Type} (s : UpfState) (i : Input D) (s' : UpfState)
    (out : Ipv4Addr × Bytes) (a : Admission) (gnbTeid : Teid) : Prop where
  admission : admission s i = some a
  session : s.sessions.lookup a.upSeid = some a.session
  tunnel : a.session.downlink = some (gnbTeid, out.1)
  gpdu : out.2 = Gtpu.encapDlQfi gnbTeid (a.session.downlinkQfi a.pkt) false a.pkt
  passes : a.session.admitPacket false a.nowNanos a.pkt = (true, a.outcome.2)
  through : LetThrough false a.nowNanos a.pkt a.session a.outcome.2
  counted : ∃ u₁ c u₂, a.session.urrs = u₁ ++ c :: u₂ ∧
    a.outcome.2.urrs = u₁ ++ c.count false a.pkt.length :: u₂
  after : s'.sessions.lookup a.upSeid = some a.outcome.2

section Turn

variable {D : Type} {codec : Codec D} {nodeIp : Ipv4Addr} {s : UpfState}

/-- A live packet. -/
theorem enforced_n6 {pkt : Pfcp.Packet} {nowNanos : Nat} {out : Ipv4Addr × Bytes}
    (h : out ∈ released codec nodeIp s (.n6 pkt nowNanos : Input D)) :
    ∃ a gnbTeid, Enforced s (.n6 pkt nowNanos : Input D)
      (serve codec nodeIp s (.n6 pkt nowNanos)) out a gnbTeid := by
  have hstep := N6.downlink_step s pkt nowNanos
  rw [serve]
  rw [released] at h
  generalize N6.downlink s pkt nowNanos = r at hstep h ⊢
  cases hstep with
  | @admitted a gnbTeid gnbIp ha htunnel =>
    obtain ⟨huplink, -, hpkt⟩ := N6.downlinkAdmission_packet ha
    cases hpasses : a.outcome.1 with
    | true =>
      simp only [hpasses, if_true, List.mem_singleton] at h
      have houtcome : a.session.admitPacket false a.nowNanos a.pkt = (true, a.outcome.2) := by
        rw [← hpasses, Admission.outcome, huplink]
      have hthrough : LetThrough false a.nowNanos a.pkt a.session a.outcome.2 := by
        have hletThrough := Pfcp.letThrough_admitPacket (congrArg Prod.fst houtcome)
        rw [houtcome] at hletThrough
        exact hletThrough
      refine ⟨a, gnbTeid, ?_⟩
      constructor
      · exact ha
      · exact N6.lookup_downlinkAdmission ha
      · rw [h]
        exact htunnel
      · rw [h, hpkt]
      · exact houtcome
      · exact hthrough
      · exact hthrough.counted_once
      · rw [UpfState.lookup_admitAt (N6.lookup_downlinkAdmission ha), if_pos rfl]
    | false => simp [hpasses] at h
  | held => simp at h
  | @dropped verdict _ hverdict =>
    cases verdict with
    | toN3 gnbIp gpdu => exact absurd rfl (hverdict gnbIp gpdu)
    | _ => simp at h

/-- What a modification of a session flushes, if it installs a tunnel. -/
theorem flush_sends_iff (msg : Message) (t : Session) :
    (t.sends msg).flush = [] ↔ ((installs msg).isSome → t.dlBuffer = []) := by
  unfold Session.sends
  rcases installs msg with _ | gnb
  · simp [Pfcp.Sends.none]
  · simp [Session.flush]

/-- With nothing waiting before, an N4 turn releases something exactly when it installs a tunnel for a
session that holds packets. -/
theorem released_n4_iff (nodeIp : Ipv4Addr) {d : Datagram D} (hempty : s.pendingFlush = []) :
    released codec nodeIp s (.n4 d) = [] ↔ Unheld codec s (.n4 d) := by
  have hreleased : released codec nodeIp s (.n4 d) = [] ↔
      (deliver codec nodeIp s d).pendingFlush = [] := List.map_eq_nil_iff
  rw [hreleased, deliver, Pfcp.handleN4From]
  rcases hparse : codec.parse d.data with _ | msg
  · simp [Unheld, hparse, hempty]
  · dsimp only
    constructor
    · intro hnothing msg' hmsg' x hseid t hsession htype hpeer
      obtain rfl : msg = msg' := Option.mem_unique hparse hmsg'
      rw [Pfcp.handleMessage_modifies nodeIp d.nowNanos htype hseid hpeer hsession] at hnothing
      apply (flush_sends_iff msg t).mp
      exact (List.append_eq_nil_iff.mp hnothing).2
    · intro hunheld
      have heffect := Pfcp.effect_handleMessage msg nodeIp s d.nowNanos (some d.peer)
      generalize (handleMessage msg nodeIp s d.nowNanos (some d.peer)).2 = s' at heffect ⊢
      cases heffect with
      | nothing => exact hempty
      | established _ h =>
        obtain ⟨t, hopened⟩ := h.opened
        rw [hopened.pendingFlush, hempty]
      | @modified x t htype hseid hpeer hsession =>
        apply List.append_eq_nil_iff.mpr
        refine ⟨hempty, (flush_sends_iff msg t).mpr ?_⟩
        exact hunheld msg hparse x hseid t hsession htype hpeer
      | removed => exact hempty

/-- A packet that was held does not come to `admit` when it leaves. -/
theorem enforced_n4_iff {d : Datagram D} (hempty : s.pendingFlush = []) :
    (∀ out ∈ released codec nodeIp s (.n4 d), ∃ a gnbTeid,
      Enforced s (.n4 d) (serve codec nodeIp s (.n4 d)) out a gnbTeid) ↔
      Unheld codec s (.n4 d) := by
  rw [← released_n4_iff nodeIp hempty, List.eq_nil_iff_forall_not_mem]
  constructor
  · intro h out hout
    obtain ⟨a, gnbTeid, henforced⟩ := h out hout
    exact absurd henforced.admission (by simp [admission])
  · intro h out hout
    exact absurd hout (h out)

theorem enforced_iff (i : Input D) (hempty : s.pendingFlush = []) :
    (∀ out ∈ released codec nodeIp s i, ∃ a gnbTeid,
      Enforced s i (serve codec nodeIp s i) out a gnbTeid) ↔ Unheld codec s i := by
  cases i with
  | n4 d => exact enforced_n4_iff hempty
  | n6 pkt nowNanos => exact iff_of_true (fun out hout => enforced_n6 hout) trivial
  | _ => exact iff_of_true (fun out hout => absurd hout (by simp [released])) trivial

/-- Nothing is left waiting. -/
theorem pendingFlush_serve (i : Input D) (hempty : s.pendingFlush = []) :
    (serve codec nodeIp s i).pendingFlush = [] := by
  cases i with
  | n4 d => rfl
  | n3 teid payload nowNanos =>
    rw [serve, N6.uplink_table]
    rcases N6.uplinkAdmission s teid payload nowNanos with _ | a
    · exact hempty
    · exact hempty
  | n6 pkt nowNanos =>
    have hstep := N6.downlink_step s pkt nowNanos
    rw [serve]
    generalize N6.downlink s pkt nowNanos = r at hstep ⊢
    cases hstep with
    | admitted => exact hempty
    | held => exact hempty
    | dropped => exact hempty
  | usageReport =>
    unfold serve UpfState.takeDueReport
    dsimp only
    split
    · exact hempty
    · exact hempty
  | dlDataReport =>
    unfold serve UpfState.takeDlDataReport
    dsimp only
    split
    · exact hempty
    · exact hempty
  | rehash entries =>
    unfold serve rehash
    dsimp only
    split
    · exact hempty
    · exact hempty

end Turn

/-- In every run, each downlink packet that leaves is one that `admit` lets through as it leaves,
exactly when the run installs no tunnel for a session that holds packets. -/
theorem downlink_enforced_iff {D : Type} (codec : Codec D) (nodeIp : Ipv4Addr)
    (recoveryTime maxSessions : Nat) (inputs : List (Input D)) :
    Runs.Along (serve codec nodeIp)
      (fun s i => ∀ out ∈ released codec nodeIp s i, ∃ a gnbTeid,
        Enforced s i (serve codec nodeIp s i) out a gnbTeid)
      (Pfcp.started recoveryTime maxSessions) inputs ↔
    Runs.Along (serve codec nodeIp) (Unheld codec) (Pfcp.started recoveryTime maxSessions) inputs :=
  Runs.along_congr (I := fun s => s.pendingFlush = []) (fun _ i h => pendingFlush_serve i h)
    (fun _ i h => enforced_iff i h) rfl

/-! ### A held packet -/

/-- A packet for the UE, to port 5005. -/
def heldPacket : Pfcp.Packet :=
  [0x45, 0, 0, 28, 0, 0, 0, 0, 64, 17, 0, 0, 1, 1, 1, 1, 10, 45, 0, 2, 0, 1, 0x13, 0x8d, 0, 8, 0, 0]

/-- The UE goes idle, and a packet comes for it. -/
def idle : List (Input Message) :=
  [establishUdp, fromSmf (Pfcp.sessionDeactivateRequest 1 2 Pfcp.DOWNLINK_FAR_ID), .n6 heldPacket 0]

/-- The flow of the packet is blocked. -/
def block : Input Message :=
  fromSmf (Pfcp.sessionFlowModificationRequest 1 3 [] [udpFlow { uplink := false, downlink := false }]
    [])

/-- The UE comes back. -/
def resume : Input Message :=
  fromSmf (Pfcp.sessionModificationRequest 1 4 Pfcp.DOWNLINK_FAR_ID 9 0x0A000009 "internet" false)

/-- The packet leaves although its flow is blocked, and is counted under no URR; live it is dropped. -/
theorem downlink_not_enforced :
    (¬ ∀ inputs : List (Input Message),
      Runs.Along (serve Codec.direct 0x0A000003)
        (fun s i => ∀ out ∈ released Codec.direct 0x0A000003 s i, ∃ a gnbTeid,
          Enforced s i (serve Codec.direct 0x0A000003 s i) out a gnbTeid)
        (Pfcp.started 0 Pfcp.DEFAULT_MAX_SESSIONS) inputs) ∧
    let turn := serve Codec.direct 0x0A000003
    let s := Runs.run turn (Pfcp.started 0 Pfcp.DEFAULT_MAX_SESSIONS) (idle ++ [block])
    released Codec.direct 0x0A000003 s resume =
        [(0x0A000009, Gtpu.encapDlQfi 9 5 false heldPacket)] ∧
      ((turn s resume).sessions.lookup 1).map Session.urrs = some [.zero, .zero] ∧
      (N6.downlink (turn s resume) heldPacket 0).1 = .rateLimited := by
  constructor
  · intro h
    obtain ⟨-, -, -, -, hresume, -⟩ := h (idle ++ [block, resume])
    obtain ⟨a, gnbTeid, henforced⟩ :=
      hresume (0x0A000009, Gtpu.encapDlQfi 9 5 false heldPacket) (by decide +kernel)
    exact absurd henforced.admission (by simp [admission, resume, fromSmf])
  · decide +kernel

end Radian.Upf
