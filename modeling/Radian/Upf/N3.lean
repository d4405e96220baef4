import Radian.Gtpu.Path
import Radian.N6.RouterAdvertisement
import Radian.Upf.Spoofing

/-!
# The N3 loop

What a UPF does with a datagram on its GTP-U port: it answers an echo, forwards a packet to the data
network or into another tunnel, advertises its prefix, or drops what came.

- `serveN3` — one turn of `serve_n3`.
- `serveN3_gPdu`, `serveN3_cases` — it never faults, and a G-PDU meets the datapath.
- `uplink_own`, `uplink_ingress` — the datapath under the TEIDs of a session.
-/

namespace Radian.Pfcp.UpfState

variable {s : UpfState} {seid : Seid} {t : Session} {teid : Teid}

/-- The /64 and the gNB target of the session under an uplink TEID. -/
def raTargetForTeid (s : UpfState) (teid : Teid) : Option (Ipv6Addr × Teid × Ipv4Addr) := do
  let e ← s.byTeid teid
  let pre ← e.2.ueIpv6
  let gnb ← e.2.downlink
  return (pre, gnb.1, gnb.2)

/-- The session found by its N9 ingress is the one that has it. -/
theorem UniqueTeids.byIngress (h : s.UniqueTeids) (hsession : s.sessions.lookup seid = some t)
    (hingress : t.dlIngressTeid = some teid) :
    s.sessions.find? (fun t => t.dlIngressTeid == some teid) = some (seid, t) := by
  have hmem : ∀ {t' : Session}, t'.dlIngressTeid = some teid → teid ∈ t'.teids := by
    intro t' ht'
    rw [Session.teids, ht']
    exact List.mem_cons_of_mem _ List.mem_cons_self
  rcases hfound : s.sessions.find? (fun t => t.dlIngressTeid == some teid) with _ | ⟨seid', t'⟩
  · have hother := Keyed.Map.find?_eq_none hfound hsession
    simp [hingress] at hother
  · obtain ⟨hsession', hteid⟩ := Keyed.Map.find?_eq_some hfound
    obtain ⟨rfl, rfl⟩ := h.session hsession hsession' (hmem hingress) (hmem (beq_iff_eq.mp hteid))
    exact hfound

/-- No uplink comes in under an N9 ingress. -/
theorem UniqueTeids.knowsTeid_ingress (h : s.UniqueTeids) (hsession : s.sessions.lookup seid = some t)
    (hingress : t.dlIngressTeid = some teid) : s.knowsTeid teid = false := by
  have hmem : teid ∈ t.dlIngressTeid.toList := by simp [hingress]
  rw [knowsTeid, Option.isSome_eq_false_iff, Option.isNone_iff_eq_none]
  rcases hfound : s.byTeid teid with _ | ⟨seid', t'⟩
  · rfl
  · obtain ⟨hsession', hteid⟩ := Keyed.Map.find?_eq_some hfound
    have hsame : t'.n3Teid = teid := beq_iff_eq.mp hteid
    obtain ⟨rfl, rfl⟩ := h.session hsession hsession' (List.mem_cons_of_mem _ hmem)
      (hsame ▸ List.mem_cons_self)
    have hown := h.own seid
    rw [teidsOf_some hsession, Session.teids, hsame] at hown
    exact absurd hmem (List.nodup_cons.mp hown).1

end Radian.Pfcp.UpfState

namespace Radian.Upf

open Octets (Fault)
open Pfcp (Packet Teid Seid Ipv4Addr Ipv6Addr Session UpfState Egress)
open N6 (Uplink)
open Security (Bytes)

/-- `ff02::1`. -/
def ALL_NODES : Ipv6Addr := BitVec.ofNat 128 (0xff02 * 2 ^ 112 + 1)

/-- What a turn of the N3 loop puts out: an answer to the sender, a datagram to the GTP-U port of an
address, a packet to the data network, or a line in the log. -/
inductive N3Out where
  | answer (data : Bytes)
  | tunnel (dst : Ipv4Addr) (data : Bytes)
  | toN6 (pkt : Packet)
  | dropped (verdict : Uplink)
  | unhandled
  deriving DecidableEq, Repr

/-- What becomes of a verdict of the datapath. -/
def act (s : UpfState) (teid : Teid) : Uplink → N3Out
  | .toN6 pkt => .toN6 pkt
  | .forward peerTeid peer pkt => .tunnel peer (Gtpu.encap peerTeid pkt)
  | .routerSolicitation =>
      match s.raTargetForTeid teid with
      | some (pre, gnbTeid, gnbIp) =>
          -- on the default QoS flow
          .tunnel gnbIp (Gtpu.encapDlQfi gnbTeid Pfcp.DEFAULT_QFI false
            (N6.routerAdvertisement pre 64 ALL_NODES))
      | none => .dropped .routerSolicitation
  | verdict => .dropped verdict

/-- The buffer a datagram is read into. -/
def N3_BUFFER : Nat := 2048

/-- A turn of `serve_n3`; what does not fit the buffer is cut off. -/
def serveN3 (s : UpfState) (datagram : Bytes) (nowNanos : Nat) : Except Fault (N3Out × UpfState) := do
  match ← Gtpu.parse (datagram.take N3_BUFFER) with
  | some (.echoRequest sequence) => return (.answer (Gtpu.echoResponse sequence), s)
  | some (.gPdu teid _ payload) =>
      let (verdict, s) := N6.uplink s teid payload nowNanos
      return (act s teid verdict, s)
  | _ => return (.unhandled, s)

section Turn

variable {s : UpfState} {datagram : Bytes} {nowNanos : Nat} {teid : Teid} {qfi : Option UInt8}
  {pkt : Packet}

/-- A G-PDU meets the datapath. -/
theorem serveN3_gPdu (hfits : datagram.length ≤ N3_BUFFER)
    (hparse : Gtpu.parse datagram = .ok (some (.gPdu teid qfi pkt))) (s : UpfState) (nowNanos : Nat) :
    serveN3 s datagram nowNanos = .ok (act (N6.uplink s teid pkt nowNanos).2 teid
      (N6.uplink s teid pkt nowNanos).1, (N6.uplink s teid pkt nowNanos).2) := by
  rw [serveN3, List.take_of_length_le hfits, hparse]
  rfl

/-- **No datagram faults**: it is a packet for the datapath, an echo, or nothing the loop handles. -/
theorem serveN3_cases (s : UpfState) (datagram : Bytes) (nowNanos : Nat) :
    (∃ teid pkt, serveN3 s datagram nowNanos = .ok (act (N6.uplink s teid pkt nowNanos).2 teid
      (N6.uplink s teid pkt nowNanos).1, (N6.uplink s teid pkt nowNanos).2)) ∨
    ∃ out, serveN3 s datagram nowNanos = .ok (out, s) := by
  have hread : ∃ m, Gtpu.parse (datagram.take N3_BUFFER) = .ok m := by
    rcases Gtpu.parse_cases (datagram.take N3_BUFFER) with hnone | ⟨g, hg⟩
    · exact ⟨none, hnone⟩
    · exact ⟨some g.message, hg ▸ Gtpu.parse_octets g⟩
  obtain ⟨m, hm⟩ := hread
  unfold serveN3
  rw [hm]
  rcases m with _ | m
  · exact .inr ⟨_, rfl⟩
  · cases m with
    | gPdu teid qfi pkt => exact .inl ⟨teid, pkt, rfl⟩
    | echoRequest sequence => exact .inr ⟨_, rfl⟩
    | _ => exact .inr ⟨_, rfl⟩

end Turn

/-! ### Under the TEIDs of a session -/

/-- Nothing stands in the table twice, and no zero. -/
theorem uniqueTeids_iff {s : UpfState} :
    s.UniqueTeids ↔ (s.sessions.entries.flatMap fun e => e.2.teids).Nodup ∧
      0 ∉ s.sessions.entries.flatMap fun e => e.2.teids := by
  have hof : ∀ e ∈ s.sessions.entries, s.teidsOf e.1 = e.2.teids := fun e he =>
    UpfState.teidsOf_some (Keyed.Map.lookup_eq_some_iff.mpr he)
  have hnone : ∀ {seid}, s.sessions.lookup seid = none → s.teidsOf seid = [] := by
    intro seid hseid
    rw [UpfState.teidsOf, hseid, Option.map_none, Option.getD_none]
  rw [List.nodup_flatMap, List.mem_flatMap]
  constructor
  · intro h
    refine ⟨⟨fun e he => hof e he ▸ h.own e.1, ?_⟩, ?_⟩
    · apply (List.Nodup.of_map _ s.sessions.nodupKeys).pairwise_of_forall_ne
      rintro ⟨seid, t⟩ he ⟨seid', t'⟩ he' hne
      show t.teids.Disjoint t'.teids
      rw [← hof _ he, ← hof _ he']
      apply h.apart
      rintro rfl
      apply hne
      rw [Option.some_inj.mp ((Keyed.Map.lookup_eq_some_iff.mpr he).symm.trans
        (Keyed.Map.lookup_eq_some_iff.mpr he'))]
    · rintro ⟨e, he, hzero⟩
      apply h.nonzero e.1
      rw [hof e he]
      exact hzero
  · rintro ⟨⟨hown, happart⟩, hzero⟩
    have hsymm : Std.Symm (Function.onFun List.Disjoint fun e : (_ : Seid) × Session => e.2.teids) :=
      ⟨fun _ _ h => h.symm⟩
    constructor
    · intro seid hmem
      cases hseid : s.sessions.lookup seid with
      | none => exact List.not_mem_nil (hnone hseid ▸ hmem)
      | some t =>
        have he := Keyed.Map.lookup_eq_some_iff.mp hseid
        exact hzero ⟨_, he, hof _ he ▸ hmem⟩
    · intro seid
      cases hseid : s.sessions.lookup seid with
      | none =>
        rw [hnone hseid]
        exact List.nodup_nil
      | some t =>
        rw [UpfState.teidsOf_some hseid]
        exact hown _ (Keyed.Map.lookup_eq_some_iff.mp hseid)
    · intro seid seid' hne
      cases hseid : s.sessions.lookup seid with
      | none =>
        rw [hnone hseid]
        exact List.disjoint_nil_left _
      | some t =>
        cases hseid' : s.sessions.lookup seid' with
        | none =>
          rw [hnone hseid']
          exact List.disjoint_nil_right _
        | some t' =>
          rw [UpfState.teidsOf_some hseid, UpfState.teidsOf_some hseid']
          apply happart.forall (Keyed.Map.lookup_eq_some_iff.mp hseid)
            (Keyed.Map.lookup_eq_some_iff.mp hseid')
          exact fun hsame => hne (congrArg Sigma.fst hsame)

instance (s : UpfState) : Decidable s.UniqueTeids := decidable_of_iff _ uniqueTeids_iff.symm

section Own

variable {s : UpfState} {seid : Seid} {t : Session}

/-- Traffic that the UE may send. -/
structure Sends (v4 : Option Ipv4Addr) (v6 : Option Ipv6Addr) (pkt : Packet) : Prop where
  source : N6.sourceVerdict v4 v6 pkt = none
  noSolicitation : (v6.isSome && N6.isRouterSolicitation pkt) = false

instance (v4 : Option Ipv4Addr) (v6 : Option Ipv6Addr) (pkt : Packet) : Decidable (Sends v4 v6 pkt) :=
  decidable_of_iff
    (N6.sourceVerdict v4 v6 pkt = none ∧ (v6.isSome && N6.isRouterSolicitation pkt) = false)
    ⟨fun h => ⟨h.1, h.2⟩, fun h => ⟨h.source, h.noSolicitation⟩⟩

/-- Where a packet of the UE goes once it is admitted. -/
def onward (egress : Egress) (pkt : Packet) : Uplink :=
  match egress with
  | .toPeer teid addr => .forward teid addr pkt
  | .toN6 => .toN6 pkt

/-- A packet of the UE follows its session's rules, unless it is policed. -/
theorem uplink_own (hunique : s.UniqueTeids) (hsession : s.sessions.lookup seid = some t) {pkt : Packet}
    (hsends : Sends t.ueIp t.ueIpv6 pkt) (nowNanos : Nat) :
    (N6.uplink s t.n3Teid pkt nowNanos).1 = .rateLimited ∨
      (N6.uplink s t.n3Teid pkt nowNanos).1 = onward (t.egressFor pkt) pkt := by
  have hverdict : N6.uplinkVerdict s t.n3Teid pkt = none := by
    rw [N6.uplinkVerdict_own hunique hsession, hsends.noSolicitation, hsends.source]
    rfl
  let admitted := t.admitPacket true nowNanos pkt
  let s₁ := s.onSession seid fun t => (t.admitPacket true nowNanos pkt).2
  have hadmit : s.admitUplink t.n3Teid nowNanos pkt = (admitted.1, s₁) := by
    rw [UpfState.admitUplink, hunique.byTeid hsession]
    rfl
  -- the session is found again, and its rules are as before
  have hegress : s₁.uplinkEgressFor t.n3Teid pkt = some (t.egressFor pkt) := by
    have hunique₁ : s₁.UniqueTeids := hunique.leave (noneDrawn_inPlace
      ⟨seid, _, rfl, fun t _ => standing_admitPacket true nowNanos pkt t⟩).teids
    have hsession₁ : s₁.sessions.lookup seid = some admitted.2 := by
      rw [UpfState.lookup_onSession, if_pos rfl, hsession]
      rfl
    obtain ⟨_, _, _, _, _, htouches⟩ := Pfcp.admitPacket_touches true nowNanos pkt t
    have hfound := hunique₁.byTeid hsession₁
    have hsame : admitted.2.n3Teid = t.n3Teid ∧ admitted.2.egressFor pkt = t.egressFor pkt := by
      rw [show admitted.2 = _ from htouches]
      exact ⟨rfl, rfl⟩
    rw [hsame.1] at hfound
    rw [UpfState.uplinkEgressFor, hfound, Option.map_some, hsame.2]
  unfold N6.uplink
  rw [hverdict, hadmit]
  cases hpasses : admitted.1 with
  | false => exact .inl rfl
  | true =>
    right
    dsimp only
    rw [hegress]
    cases t.egressFor pkt <;> rfl

/-- What comes back under a session's N9 ingress goes where its downlink does. -/
theorem uplink_ingress (hunique : s.UniqueTeids) (hsession : s.sessions.lookup seid = some t)
    {teid : Teid} (hingress : t.dlIngressTeid = some teid) (pkt : Packet) (nowNanos : Nat) :
    N6.uplink s teid pkt nowNanos = (match t.downlink with
      | some gnb => .forward gnb.1 gnb.2 pkt
      | none => .unknownTeid, s) := by
  have hvia : s.downlinkViaN9Ingress teid = t.downlink := by
    rw [UpfState.downlinkViaN9Ingress, hunique.byIngress hsession hingress, Option.bind_some]
  unfold N6.uplink N6.uplinkVerdict
  rw [hvia]
  cases hdownlink : t.downlink with
  | some gnb => rfl
  | none => simp [hunique.knowsTeid_ingress hsession hingress]

end Own

end Radian.Upf
