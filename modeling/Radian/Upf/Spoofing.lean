import Radian.Upf.Teids

/-!
# Uplink source addresses

No UE sends under an address that is not its own.

- `Sourced` — a packet's source is one of a session's addresses.
- `sourced_of_passes` — what passes the source check.
- `uplink_sourced` — what `uplink` lets out under a session's TEID has one of its addresses, whatever
  its egress, branches, flows and policers.
-/

namespace Radian.Pfcp

/-! ### Sources of packets -/

/-- An IPv4 packet from this address. -/
structure FromIpv4 (pkt : Packet) (src : Ipv4Addr) : Prop where
  version : version pkt = some 4
  length : 20 ≤ pkt.length
  source : ipv4At pkt 12 = src

/-- An IPv6 packet from an address in this /64. -/
structure FromIpv6 (pkt : Packet) (pre : Ipv6Addr) : Prop where
  version : version pkt = some 6
  length : 40 ≤ pkt.length
  source : ipv6InPrefix64 (ipv6At pkt 8) pre = true

theorem ipv4Addrs_eq_some {pkt : Packet} {src dst : Ipv4Addr} (h : ipv4Addrs pkt = some (src, dst)) :
    FromIpv4 pkt src := by
  unfold ipv4Addrs at h
  split at h
  · exact absurd h (by simp)
  · rename_i hparses
    obtain ⟨rfl, -⟩ := Prod.mk.inj (Option.some_inj.mp h)
    rw [not_or, not_lt, not_not] at hparses
    exact ⟨hparses.2, hparses.1, rfl⟩

theorem ipv6Addrs_eq_some {pkt : Packet} {src dst : Ipv6Addr} (h : ipv6Addrs pkt = some (src, dst)) :
    version pkt = some 6 ∧ 40 ≤ pkt.length ∧ src = ipv6At pkt 8 := by
  unfold ipv6Addrs at h
  split at h
  · exact absurd h (by simp)
  · rename_i hparses
    obtain ⟨rfl, -⟩ := Prod.mk.inj (Option.some_inj.mp h)
    rw [not_or, not_lt, not_not] at hparses
    exact ⟨hparses.2, hparses.1, rfl⟩

end Radian.Pfcp

namespace Radian.N6

open Pfcp (Packet Teid Seid Session Ipv4Addr Ipv6Addr UpfState FromIpv4 FromIpv6)

/-- The source is an address of the session: its IPv4 address or in its /64. -/
def Sourced (t : Session) (pkt : Packet) : Prop :=
  (∃ src ∈ t.ueIp, FromIpv4 pkt src) ∨ ∃ pre ∈ t.ueIpv6, FromIpv6 pkt pre

/-- The packet that leaves the UPF, to the data network or to another node. -/
def Uplink.sent : Uplink → Option Packet
  | .toN6 pkt => some pkt
  | .forward _ _ pkt => some pkt
  | _ => none

/-- What passes the source check of a session with an address. -/
theorem sourced_of_passes {t : Session} {pkt : Packet}
    (haddress : t.ueIp.isSome ∨ t.ueIpv6.isSome)
    (hpasses : sourceVerdict t.ueIp t.ueIpv6 pkt = none) : Sourced t pkt := by
  unfold sourceVerdict at hpasses
  rw [if_pos (by simpa using haddress)] at hpasses
  rcases hv4 : Pfcp.ipv4Addrs pkt with _ | ⟨src, dst⟩
  · rcases hv6 : Pfcp.ipv6Addrs pkt with _ | ⟨src, dst⟩
    · simp [hv4, hv6] at hpasses
    · rcases hpre : t.ueIpv6 with _ | pre
      · simp [hv4, hv6, hpre] at hpasses
      · obtain ⟨hversion, hlength, rfl⟩ := Pfcp.ipv6Addrs_eq_some hv6
        simp only [hv4, hv6, hpre, ite_eq_left_iff, reduceCtorEq, imp_false, not_not] at hpasses
        exact Or.inr ⟨pre, hpre, hversion, hlength, hpasses⟩
  · rcases hue : t.ueIp with _ | ueIp
    · simp [hv4, hue] at hpasses
    · simp only [hv4, hue, ite_eq_left_iff, reduceCtorEq, imp_false, not_not] at hpasses
      exact Or.inl ⟨ueIp, hue, hpasses ▸ Pfcp.ipv4Addrs_eq_some hv4⟩

/-- No verdict of the source check sends a packet. -/
theorem sent_sourceVerdict {v4 : Option Ipv4Addr} {v6 : Option Ipv6Addr} {pkt : Packet}
    {verdict : Uplink} (h : sourceVerdict v4 v6 pkt = some verdict) : verdict.sent = none := by
  unfold sourceVerdict at h
  grind [Uplink.sent]

/-- A packet without a verdict is sent as it is, if at all. -/
theorem sent_uplink {s : UpfState} {teid : Teid} {inner pkt : Packet} {nowNanos : Nat}
    (hverdict : uplinkVerdict s teid inner = none)
    (hsent : (uplink s teid inner nowNanos).1.sent = some pkt) : pkt = inner := by
  rw [uplink, hverdict] at hsent
  dsimp only at hsent
  split at hsent
  · exact absurd hsent (by simp [Uplink.sent])
  · split at hsent
    · exact (Option.some_inj.mp hsent).symm
    · exact (Option.some_inj.mp hsent).symm

section Own

variable {s : UpfState} {seid : Seid} {t : Session}

/-- The lookups under a session's own TEID all come to that session. -/
theorem uplinkVerdict_own (hunique : s.UniqueTeids) (hsession : s.sessions.lookup seid = some t)
    (inner : Packet) :
    uplinkVerdict s t.n3Teid inner =
      if t.ueIpv6.isSome && isRouterSolicitation inner then some .routerSolicitation
      else sourceVerdict t.ueIp t.ueIpv6 inner := by
  have hfound := hunique.byTeid hsession
  simp only [uplinkVerdict, hunique.downlinkViaN9Ingress hsession, UpfState.knowsTeid,
    UpfState.ueIpForTeid, UpfState.ueIpv6ForTeid, hfound, Option.isSome_some, Bool.true_eq_false,
    if_false, Option.bind_some]

theorem sourced_uplink (hunique : s.UniqueTeids) (hsession : s.sessions.lookup seid = some t)
    (haddress : t.ueIp.isSome ∨ t.ueIpv6.isSome) {inner pkt : Packet} {nowNanos : Nat}
    (hsent : (uplink s t.n3Teid inner nowNanos).1.sent = some pkt) :
    pkt = inner ∧ Sourced t inner := by
  have hown := uplinkVerdict_own hunique hsession inner
  rcases hverdict : uplinkVerdict s t.n3Teid inner with _ | verdict
  · rw [hverdict] at hown
    refine ⟨sent_uplink hverdict hsent, ?_⟩
    split at hown
    · exact absurd hown (by simp)
    · exact sourced_of_passes haddress hown.symm
  · rw [uplink, hverdict] at hsent
    rw [hverdict] at hown
    split at hown
    · rw [Option.some_inj.mp hown] at hsent
      exact absurd hsent (by simp [Uplink.sent])
    · rw [sent_sourceVerdict hown.symm] at hsent
      exact absurd hsent (by simp)

end Own

end Radian.N6

namespace Radian.Upf

open Pfcp (Teid Seid Session UpfState Codec)

/-- As long as fewer than `2 ^ 32` TEIDs have been drawn, whatever the UPF lets out under the uplink TEID
of a session with an address comes from one of the session's addresses. -/
theorem uplink_sourced {D : Type} (codec : Codec D) (nodeIp : Pfcp.Ipv4Addr)
    (recoveryTime maxSessions : Nat) (inputs : List (Input D))
    (hfew : Runs.tally (serve codec nodeIp) (teidsDrawn codec)
      (Pfcp.started recoveryTime maxSessions) inputs < 2 ^ 32) {seid : Seid} {t : Session}
    (hsession : (Runs.run (serve codec nodeIp) (Pfcp.started recoveryTime maxSessions)
      inputs).sessions.lookup seid = some t)
    (haddress : t.ueIp.isSome ∨ t.ueIpv6.isSome) {inner pkt : Pfcp.Packet} {nowNanos : Nat}
    (hsent : (N6.uplink (Runs.run (serve codec nodeIp) (Pfcp.started recoveryTime maxSessions) inputs)
      t.n3Teid inner nowNanos).1.sent = some pkt) :
    pkt = inner ∧ N6.Sourced t inner := by
  have hunique := unique_of_few codec nodeIp recoveryTime maxSessions inputs hfew
  exact N6.sourced_uplink hunique hsession haddress hsent

/-- A packet of the UE of the sample session leaves for the data network. -/
def uePacket : Pfcp.Packet :=
  [0x45, 0, 0, 20, 0, 0, 0, 0, 64, 17, 0, 0, 10, 45, 0, 2, 1, 1, 1, 1]

theorem uplink_sourced_sample :
    let s := Runs.run (serve Codec.direct 0x0A000003) (Pfcp.started 0 Pfcp.DEFAULT_MAX_SESSIONS)
      [openSession]
    ∃ t, s.sessions.lookup 1 = some t ∧ N6.Sourced t uePacket := by
  intro s
  obtain ⟨t, hsession⟩ : ∃ t, s.sessions.lookup 1 = some t :=
    Option.isSome_iff_exists.mp (by decide)
  have haddress : (s.sessions.lookup 1).map (fun t => t.ueIp) = some (some 0x0A2D0002) := rfl
  have hteid : (s.sessions.lookup 1).map (fun t => t.n3Teid) = some 1 := rfl
  rw [hsession, Option.map_some, Option.some_inj] at haddress hteid
  have hsent : (N6.uplink s t.n3Teid uePacket 0).1.sent = some uePacket := by
    rw [hteid]
    decide +kernel
  exact ⟨t, hsession, (uplink_sourced Codec.direct 0x0A000003 0 Pfcp.DEFAULT_MAX_SESSIONS
    [openSession] (by decide) hsession (Or.inl (by simp [haddress])) hsent).2⟩

end Radian.Upf
