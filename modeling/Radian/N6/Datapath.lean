import Radian.Gtpu.Encap
import Radian.Pfcp.Admission

/-!
# The N6 datapath

The forwarding decisions between N3 and the data network, over the session table.

- `uplink` — a packet decapsulated from a G-PDU, on its way out.
- `downlink` — a packet of the data network, on its way to a gNB.
- `uplink_table`, `downlink_step` — what they do to the table: one `admit`, one packet held, or
  nothing.
-/

namespace Radian.N6

open Pfcp (Packet Teid Seid Session Ipv4Addr Ipv6Addr IpAddr UpfState Admission ipv4Addrs ipv6Addrs
  octet version)
open Security (Bytes)

def inPrefix64 (addr pre : Ipv6Addr) : Bool := addr >>> 64 == pre >>> 64

/-! ### Uplink -/

/-- What to do with an uplink packet. -/
inductive Uplink where
  | toN6 (pkt : Packet)
  | forward (teid : Teid) (peer : Ipv4Addr) (pkt : Packet)
  | unknownTeid
  | spoofed (claimed assigned : IpAddr)
  | unassignedFamily (claimed : Option IpAddr)
  | rateLimited
  | routerSolicitation
  deriving DecidableEq, Repr

/-- ICMPv6 type 133, without extension headers. -/
def isRouterSolicitation (pkt : Packet) : Bool :=
  41 ≤ pkt.length && version pkt == some 6 && octet pkt 6 == 58 && octet pkt 40 == 133

/-- The verdict on a packet whose source the UE was not assigned.  A session without an address is
not checked. -/
def sourceVerdict (assignedV4 : Option Ipv4Addr) (assignedV6 : Option Ipv6Addr) (inner : Packet) :
    Option Uplink :=
  if assignedV4.isSome || assignedV6.isSome then
    match ipv4Addrs inner with
    | some (src, _) =>
        match assignedV4 with
        | some ueIp => if src = ueIp then none else some (.spoofed (.v4 src) (.v4 ueIp))
        | none => some (.unassignedFamily (some (.v4 src)))
    | none =>
        match ipv6Addrs inner with
        | some (src, _) =>
            match assignedV6 with
            | some pre => if inPrefix64 src pre then none else some (.spoofed (.v6 src) (.v6 pre))
            | none => some (.unassignedFamily (some (.v6 src)))
        | none => some (.unassignedFamily none)
  else none

/-- The verdict on a packet that does not come to `admit`. -/
def uplinkVerdict (s : UpfState) (teid : Teid) (inner : Packet) : Option Uplink :=
  match s.downlinkViaN9Ingress teid with
  | some (gnbTeid, gnbIp) => some (.forward gnbTeid gnbIp inner)
  | none =>
      if s.knowsTeid teid = false then some .unknownTeid
      else if (s.ueIpv6ForTeid teid).isSome && isRouterSolicitation inner then
        some .routerSolicitation
      else sourceVerdict (s.ueIpForTeid teid) (s.ueIpv6ForTeid teid) inner

/-- The fate of a packet that arrived on N3 under `teid`. -/
def uplink (s : UpfState) (teid : Teid) (inner : Packet) (nowNanos : Nat) : Uplink × UpfState :=
  match uplinkVerdict s teid inner with
  | some verdict => (verdict, s)
  | none =>
      match s.admitUplink teid nowNanos inner with
      | (false, s) => (.rateLimited, s)
      | (true, s) =>
          match s.uplinkEgressFor teid inner with
          | some (.toPeer teid addr) => (.forward teid addr inner, s)
          | _ => (.toN6 inner, s)

/-! ### Downlink -/

/-- What to do with a downlink packet. -/
inductive Downlink where
  | toN3 (gnbIp : Ipv4Addr) (gpdu : Bytes)
  | buffered
  | noRoute
  | unsupported
  | rateLimited
  deriving DecidableEq, Repr

/-- The fate of a packet from the data network. -/
def downlink (s : UpfState) (pkt : Packet) (nowNanos : Nat) : Downlink × UpfState :=
  match ipv4Addrs pkt with
  | some (_, dst) =>
      match s.routeDownlinkMarked dst pkt with
      | none =>
          match s.bufferDownlink dst pkt with
          | (true, s) => (.buffered, s)
          | (false, s) => (.noRoute, s)
      | some (gnbTeid, gnbIp, qfi) =>
          match s.admitDownlink dst nowNanos pkt with
          | (false, s) => (.rateLimited, s)
          | (true, s) => (.toN3 gnbIp (Gtpu.encapDlQfi gnbTeid qfi false pkt), s)
  | none =>
      match ipv6Addrs pkt with
      | some (_, dst) =>
          -- an idle IPv6 session holds no packets
          match s.routeDownlinkMarkedV6 dst pkt with
          | none => (.noRoute, s)
          | some (gnbTeid, gnbIp, qfi) =>
              match s.admitDownlinkV6 dst nowNanos pkt with
              | (false, s) => (.rateLimited, s)
              | (true, s) => (.toN3 gnbIp (Gtpu.encapDlQfi gnbTeid qfi false pkt), s)
      | none => (.unsupported, s)

/-! ### What a packet does to the table -/

/-- The session whose `admit` an uplink packet comes to. -/
def uplinkAdmission (s : UpfState) (teid : Teid) (inner : Packet) (nowNanos : Nat) :
    Option Admission :=
  if (uplinkVerdict s teid inner).isNone then
    (s.byTeid teid).map (Admission.ofFound true nowNanos inner)
  else none

/-- The session that a downlink packet is for. -/
def owner (s : UpfState) (pkt : Packet) : Option (Seid × Session) :=
  match ipv4Addrs pkt with
  | some (_, dst) => s.byUeIp dst
  | none =>
      match ipv6Addrs pkt with
      | some (_, dst) => s.byUeIpv6 dst
      | none => none

/-- The session whose `admit` a downlink packet comes to. -/
def downlinkAdmission (s : UpfState) (pkt : Packet) (nowNanos : Nat) : Option Admission :=
  ((owner s pkt).filter fun e => e.2.downlink.isSome).map (Admission.ofFound false nowNanos pkt)

section Table

variable {s : UpfState} {pkt : Packet} {nowNanos : Nat} {a : Admission}

theorem lookup_uplinkAdmission {teid : Teid} (h : uplinkAdmission s teid pkt nowNanos = some a) :
    s.sessions.lookup a.upSeid = some a.session := by
  unfold uplinkAdmission at h
  split at h
  · obtain ⟨⟨upSeid, t⟩, hfound, rfl⟩ := Option.map_eq_some_iff.mp h
    exact (Keyed.Map.find?_eq_some hfound).1
  · exact absurd h (by simp)

/-- An uplink packet comes to one session or changes nothing. -/
theorem uplink_table (s : UpfState) (teid : Teid) (pkt : Packet) (nowNanos : Nat) :
    (uplink s teid pkt nowNanos).2 =
      ((uplinkAdmission s teid pkt nowNanos).map s.admitAt).getD s := by
  unfold uplink uplinkAdmission
  rcases uplinkVerdict s teid pkt with _ | verdict
  · have hstate := UpfState.admitFound_eq s (s.byTeid teid) true nowNanos pkt
    rw [← UpfState.admitUplink] at hstate
    rw [Option.isNone_none, if_pos rfl, ← hstate]
    dsimp only
    split
    · rename_i heq
      rw [heq]
    · rename_i heq
      rw [heq]
      split <;> rfl
  · rfl

theorem lookup_owner {e : Seid × Session} (h : owner s pkt = some e) :
    s.sessions.lookup e.1 = some e.2 := by
  unfold owner at h
  split at h
  · exact (Keyed.Map.find?_eq_some h).1
  · split at h
    · exact (Keyed.Map.find?_eq_some h).1
    · exact absurd h (by simp)

theorem lookup_downlinkAdmission (h : downlinkAdmission s pkt nowNanos = some a) :
    s.sessions.lookup a.upSeid = some a.session := by
  obtain ⟨e, hfound, rfl⟩ := Option.map_eq_some_iff.mp h
  exact lookup_owner (Option.filter_eq_some_iff.mp hfound).1

theorem downlinkAdmission_packet (h : downlinkAdmission s pkt nowNanos = some a) :
    a.uplink = false ∧ a.nowNanos = nowNanos ∧ a.pkt = pkt := by
  obtain ⟨e, -, rfl⟩ := Option.map_eq_some_iff.mp h
  exact ⟨rfl, rfl, rfl⟩

/-- What can happen to a downlink packet: it comes to its session's `admit`, and out of it towards
the session's gNB when it passes; it is held; or it is dropped. -/
inductive DownlinkStep (s : UpfState) (pkt : Packet) (nowNanos : Nat) : Downlink × UpfState → Prop
  | admitted {a gnbTeid gnbIp} (h : downlinkAdmission s pkt nowNanos = some a)
      (htunnel : a.session.downlink = some (gnbTeid, gnbIp)) :
      DownlinkStep s pkt nowNanos
        (if a.outcome.1 then
          .toN3 gnbIp (Gtpu.encapDlQfi gnbTeid (a.session.downlinkQfi pkt) false pkt)
        else .rateLimited, s.admitAt a)
  | held {upSeid} (h : downlinkAdmission s pkt nowNanos = none) :
      DownlinkStep s pkt nowNanos (.buffered, s.onSession upSeid fun t => t.buffer pkt)
  | dropped {verdict} (h : downlinkAdmission s pkt nowNanos = none)
      (hverdict : ∀ gnbIp gpdu, verdict ≠ .toN3 gnbIp gpdu) :
      DownlinkStep s pkt nowNanos (verdict, s)

/-- The session found is routed to its gNB through its `admit`. -/
theorem downlinkStep_routed {found : Option (Seid × Session)} (howner : owner s pkt = found)
    {noRoute : Downlink × UpfState}
    (hnoRoute : downlinkAdmission s pkt nowNanos = none → DownlinkStep s pkt nowNanos noRoute) :
    DownlinkStep s pkt nowNanos
      (match UpfState.marked pkt found with
      | none => noRoute
      | some (gnbTeid, gnbIp, qfi) =>
        match s.admitFound found false nowNanos pkt with
        | (false, s) => (.rateLimited, s)
        | (true, s) => (.toN3 gnbIp (Gtpu.encapDlQfi gnbTeid qfi false pkt), s)) := by
  rcases found with _ | ⟨upSeid, t⟩
  · apply hnoRoute
    rw [downlinkAdmission, howner]
    rfl
  · rcases htunnel : t.downlink with _ | ⟨gnbTeid, gnbIp⟩
    · simp only [UpfState.marked, Option.bind_some, htunnel, Option.map_none]
      apply hnoRoute
      simp [downlinkAdmission, howner, Option.filter_some, htunnel]
    · have hadmission : downlinkAdmission s pkt nowNanos = some
          (Admission.ofFound false nowNanos pkt (upSeid, t)) := by
        simp [downlinkAdmission, howner, Option.filter_some, htunnel]
      have hstep := DownlinkStep.admitted hadmission htunnel
      have houtcome : (Admission.ofFound false nowNanos pkt (upSeid, t)).outcome.1 =
          (t.admitPacket false nowNanos pkt).1 := rfl
      simp only [UpfState.marked, Option.bind_some, htunnel, Option.map_some, UpfState.admitFound]
      cases hpasses : (t.admitPacket false nowNanos pkt).1 with
      | true =>
        rw [houtcome, hpasses, if_pos rfl] at hstep
        exact hstep
      | false =>
        rw [houtcome, hpasses, if_neg Bool.false_ne_true] at hstep
        exact hstep

theorem downlink_step (s : UpfState) (pkt : Packet) (nowNanos : Nat) :
    DownlinkStep s pkt nowNanos (downlink s pkt nowNanos) := by
  unfold downlink
  rcases hv4 : ipv4Addrs pkt with _ | ⟨src, dst⟩
  · rcases hv6 : ipv6Addrs pkt with _ | ⟨src, dst⟩
    · apply DownlinkStep.dropped
      · simp [downlinkAdmission, owner, hv4, hv6]
      · simp
    · apply downlinkStep_routed
      · simp only [owner, hv4, hv6]
      · intro hnone
        exact .dropped hnone (by simp)
  · apply downlinkStep_routed
    · simp only [owner, hv4]
    · intro hnone
      unfold UpfState.bufferDownlink
      split
      · rename_i heq
        split at heq
        · exact absurd (Prod.mk.inj heq).1 Bool.false_ne_true
        · rw [← (Prod.mk.inj heq).2]
          exact .held hnone
      · rename_i heq
        split at heq
        · rw [← (Prod.mk.inj heq).2]
          exact .dropped hnone (by simp)
        · exact absurd (Prod.mk.inj heq).1.symm Bool.false_ne_true

end Table

end Radian.N6
