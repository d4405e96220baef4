import Radian.Smf.PathRuns
import Radian.Upf.N3

/-!
# Traffic on the paths

What becomes of a session's packets while its path is laid: the datagrams are followed from one UPF to
the next until they leave them.

- `Carried`, `Delivers` — where a datagram ends, whichever way it takes.
- `uplink_delivered` — a packet of the UE comes out at its anchor as it was sent.
- `downlink_delivered` — a packet for the UE comes out at its gNB, in the gNB's tunnel.
- `Fabric.Carries.idle` — without a gNB nothing is sent to the RAN.
-/

namespace Radian.Smf

open Pfcp (Ipv4Addr Seid Teid Packet UpfState Egress Wiring FlowFilter)
open Security (Bytes)
open Upf (N3Out serveN3 Sends)

/-! ### From UPF to UPF -/

/-- The UPFs after a turn of one. -/
def Nodes.turn (w : Nodes) (name : String) (s : UpfState) : Nodes :=
  { w with upf := Function.update w.upf name s }

/-- Where a datagram ends: it is for no UPF, or a UPF sends it on to none. -/
inductive Fate where
  | leaves (dst : Ipv4Addr) (data : Bytes)
  | ends (name : String) (out : N3Out)
  deriving DecidableEq, Repr

/-- A datagram to an address, followed to its end. -/
inductive Carried : Nodes → Ipv4Addr → Bytes → Fate → Nodes → Prop
  | leaves {w dst data} (hnone : ∀ name, w.addr name ≠ dst) : Carried w dst data (.leaves dst data) w
  | ends {w : Nodes} {name dst data nowNanos out s} (haddr : w.addr name = dst)
      (hserve : serveN3 (w.upf name) data nowNanos = .ok (out, s))
      (hout : ∀ dst data, out ≠ .tunnel dst data) :
      Carried w dst data (.ends name out) (w.turn name s)
  | onward {w : Nodes} {name dst data nowNanos dst' data' s fate w'} (haddr : w.addr name = dst)
      (hserve : serveN3 (w.upf name) data nowNanos = .ok (.tunnel dst' data', s))
      (hrest : Carried (w.turn name s) dst' data' fate w') : Carried w dst data fate w'

/-- A datagram ends somewhere, and wherever it does, as `P` says. -/
structure Delivers (w : Nodes) (dst : Ipv4Addr) (data : Bytes) (P : Fate → Prop) : Prop where
  ends : ∃ fate w', Carried w dst data fate w'
  only : ∀ fate w', Carried w dst data fate w' → P fate

section Delivers

variable {w : Nodes} {name : String} {dst : Ipv4Addr} {data : Bytes} {P Q : Fate → Prop}

theorem delivers_leaves (hnone : ∀ name, w.addr name ≠ dst) (h : P (.leaves dst data)) :
    Delivers w dst data P := by
  refine ⟨⟨_, _, .leaves hnone⟩, fun fate w' hcarried => ?_⟩
  cases hcarried with
  | leaves => exact h
  | ends haddr => exact absurd haddr (hnone _)
  | onward haddr => exact absurd haddr (hnone _)

/-- What is left to show once a UPF has taken its turn. -/
def Onward (w : Nodes) (name : String) (s : UpfState) (P : Fate → Prop) : N3Out → Prop
  | .tunnel dst data => Delivers (w.turn name s) dst data P
  | out => P (.ends name out)

/-- A datagram to a UPF that shares its address with no other. -/
theorem delivers_at (hsolo : ∀ n, w.addr n = w.addr name → n = name)
    (h : ∀ nowNanos, ∃ out s, serveN3 (w.upf name) data nowNanos = .ok (out, s) ∧
      Onward w name s P out) : Delivers w (w.addr name) data P := by
  constructor
  · obtain ⟨out, s, hserve, hrest⟩ := h 0
    cases out with
    | tunnel dst' data' =>
      obtain ⟨fate, w', hcarried⟩ := Delivers.ends hrest
      exact ⟨fate, w', .onward rfl hserve hcarried⟩
    | _ => exact ⟨_, _, .ends rfl hserve (by simp)⟩
  · intro fate w' hcarried
    generalize hdst : w.addr name = dst at hcarried
    cases hcarried with
    | leaves hnone => exact absurd hdst (hnone name)
    | @ends _ _ _ _ _ out _ haddr hserve hout =>
      obtain rfl := hsolo _ (haddr.trans hdst.symm)
      obtain ⟨_, _, hserve', hrest⟩ := h _
      obtain ⟨rfl, rfl⟩ := Prod.mk.inj (Except.ok.inj (hserve.symm.trans hserve'))
      cases out with
      | tunnel dst' data' => exact absurd rfl (hout dst' data')
      | _ => exact hrest
    | onward haddr hserve hcarried =>
      obtain rfl := hsolo _ (haddr.trans hdst.symm)
      obtain ⟨_, _, hserve', hrest⟩ := h _
      obtain ⟨rfl, rfl⟩ := Prod.mk.inj (Except.ok.inj (hserve.symm.trans hserve'))
      exact Delivers.only hrest _ _ hcarried

end Delivers

/-! ### A session at a UPF -/

/-- A UPF that shares its address with no other and its TEIDs between no two sessions. -/
structure Placed (w : Nodes) (name : String) : Prop where
  solo : ∀ n, w.addr n = w.addr name → n = name
  unique : (w.upf name).UniqueTeids

section Placed

variable {w : Nodes} {smfIp : Ipv4Addr} {name : String} {x : String × Seid} {u : Wiring}
  {teid : Teid} {pkt : Packet} {nowNanos : Nat}

/-- A turn that changes one session in place leaves the UPFs in their places. -/
theorem Placed.turn (h : Placed w name) {node : String} {s : UpfState}
    (hs : Upf.InPlace (w.upf node) s) : Placed (w.turn node s) name := by
  refine ⟨h.solo, ?_⟩
  show (Function.update w.upf node s name).UniqueTeids
  rw [Function.update_apply]
  split
  · rename_i hname
    subst hname
    exact h.unique.leave (Upf.noneDrawn_inPlace hs).teids
  · exact h.unique

/-- A wired session is in the table. -/
theorem session_of_wires (h : (w.fabric smfIp).wires x = some u) :
    ∃ t, (w.upf x.1).sessions.lookup x.2 = some t ∧ t.wiring = u := by
  rw [Nodes.wires_fabric] at h
  obtain ⟨t, ht, hwiring⟩ := Option.map_eq_some_iff.mp h
  exact ⟨t, (UpfState.sessionOf_eq_some_iff.mp ht).1, hwiring⟩

end Placed

/-! ### One hop -/

/-- A G-PDU that is read whole. -/
structure GPdu (teid : Teid) (pkt : Packet) (data : Bytes) : Prop where
  fits : data.length ≤ Upf.N3_BUFFER
  parses : ∃ qfi, Gtpu.parse data = .ok (some (.gPdu teid qfi pkt))

section Hop

variable {w : Nodes} {smfIp : Ipv4Addr} {x : String × Seid} {u : Wiring} {teid : Teid}
  {pkt : Packet} {data : Bytes} {P : Fate → Prop}

theorem gPdu_encap (teid : Teid) (hfits : pkt.length + 16 ≤ Upf.N3_BUFFER) :
    GPdu teid pkt (Gtpu.encap teid pkt) := by
  refine ⟨?_, none, Gtpu.parse_encap teid pkt⟩
  rw [Gtpu.length_encap]
  omega

theorem gPdu_encapUlQfi (teid : Teid) (qfi : UInt8) (hfits : pkt.length + 16 ≤ Upf.N3_BUFFER) :
    GPdu teid pkt (Gtpu.encapUlQfi teid qfi pkt) := by
  refine ⟨?_, _, Gtpu.parse_encapUlQfi teid qfi pkt⟩
  rw [Gtpu.encapUlQfi, Gtpu.length_encapWithContainer]
  exact hfits

theorem gPdu_encapDlQfi (teid : Teid) (qfi : UInt8) (hfits : pkt.length + 16 ≤ Upf.N3_BUFFER) :
    GPdu teid pkt (Gtpu.encapDlQfi teid qfi false pkt) := by
  refine ⟨?_, _, Gtpu.parse_encapDlQfi teid qfi false pkt⟩
  rw [Gtpu.encapDlQfi, Gtpu.length_encapWithContainer]
  exact hfits

/-- Where a packet of the UE goes, by the wiring. -/
def egressOf (u : Wiring) (pkt : Packet) : Egress :=
  match (Pfcp.packetKey pkt).bind fun key => u.branches.find? fun b => b.2.1.matches key with
  | some b => b.2.2
  | none => u.uplink

theorem egressOf_whole (h : u.branches = []) : egressOf u pkt = u.uplink := by
  rw [egressOf, h]
  cases Pfcp.packetKey pkt <;> rfl

theorem egressOf_branch {id : Nat} {filter : FlowFilter} {egress : Egress}
    (h : u.branches = [(id, filter, egress)]) :
    egressOf u pkt = if (Pfcp.packetKey pkt).any filter.matches then egress else u.uplink := by
  rw [egressOf, h]
  cases Pfcp.packetKey pkt with
  | none => rfl
  | some key =>
    rw [Option.bind_some, Option.any_some]
    cases hmatches : filter.matches key <;> simp [List.find?, hmatches]

/-- The same fabric, on UPFs in the same places. -/
structure Alike (smfIp : Ipv4Addr) (w w' : Nodes) : Prop where
  fabric : w'.fabric smfIp = w.fabric smfIp
  placed : ∀ name, Placed w name → Placed w' name

theorem Alike.addr {w' : Nodes} (h : Alike smfIp w w') : w'.addr = w.addr :=
  congrArg Fabric.addr h.fabric

/-- Traffic leaves the fabric alone, and the UPFs in their places. -/
theorem alike_serve (smfIp : Ipv4Addr) (w : Nodes) (name : String) {i : Upf.Input Pfcp.Message}
    (hn4 : ∀ d, i ≠ .n4 d) (hrehash : ∀ entries, i ≠ .rehash entries) :
    Alike smfIp w (w.turn name (Upf.serve Pfcp.Codec.direct (w.addr name) (w.upf name) i)) := by
  constructor
  · have hother : NotFrom smfIp i := by
      cases i with
      | n4 d => exact absurd rfl (hn4 d)
      | _ => trivial
    have helsewhere : Elsewhere Pfcp.Codec.direct smfIp w
        (w.turn name (Upf.serve Pfcp.Codec.direct (w.addr name) (w.upf name) i)) :=
      ⟨name, i, hother, rfl⟩
    exact fabric_elsewhere helsewhere
  · exact fun _ h => h.turn (Upf.inPlace_serve _ _ _ hn4 hrehash)

theorem alike_uplink (smfIp : Ipv4Addr) (w : Nodes) (name : String) (teid : Teid) (pkt : Packet)
    (nowNanos : Nat) :
    Alike smfIp w (w.turn name (N6.uplink (w.upf name) teid pkt nowNanos).2) :=
  alike_serve smfIp w name (i := .n3 teid pkt nowNanos) (by simp) (by simp)

theorem alike_downlink (smfIp : Ipv4Addr) (w : Nodes) (name : String) (pkt : Packet)
    (nowNanos : Nat) :
    Alike smfIp w (w.turn name (N6.downlink (w.upf name) pkt nowNanos).2) :=
  alike_serve smfIp w name (i := .n6 pkt nowNanos) (by simp) (by simp)

/-- **Uplink, one hop**: a packet of the UE goes where the wiring says, unless it is policed. -/
theorem delivers_uplink (hwired : (w.fabric smfIp).wires x = some u) (hplaced : Placed w x.1)
    (hsends : Sends u.ue.v4 u.ue.v6 pkt) (hdata : GPdu u.n3Teid pkt data)
    (hpoliced : P (.ends x.1 (.dropped .rateLimited)))
    (hexit : egressOf u pkt = .toN6 → P (.ends x.1 (.toN6 pkt)))
    (hpeer : ∀ teid addr, egressOf u pkt = .toPeer teid addr →
      ∀ w', Alike smfIp w w' → Delivers w' addr (Gtpu.encap teid pkt) P) :
    Delivers w (w.addr x.1) data P := by
  obtain ⟨t, ht, rfl⟩ := session_of_wires hwired
  obtain ⟨qfi, hparse⟩ := hdata.parses
  have hegress : egressOf t.wiring pkt = t.egressFor pkt := rfl
  refine delivers_at hplaced.solo fun nowNanos => ?_
  refine ⟨_, _, Upf.serveN3_gPdu hdata.fits hparse _ _, ?_⟩
  have halike := alike_uplink smfIp w x.1 t.n3Teid pkt nowNanos
  rcases Upf.uplink_own hplaced.unique ht hsends nowNanos with hverdict | hverdict
  · rw [show t.wiring.n3Teid = t.n3Teid from rfl, hverdict]
    exact hpoliced
  · rw [show t.wiring.n3Teid = t.n3Teid from rfl, hverdict]
    rw [hegress] at hexit hpeer
    cases he : t.egressFor pkt with
    | toN6 => exact hexit he
    | toPeer teid addr => exact hpeer teid addr he _ halike

/-- **Downlink, one hop**: what comes in under the ingress goes where the downlink does. -/
theorem delivers_ingress (hwired : (w.fabric smfIp).wires x = some u) (hplaced : Placed w x.1)
    (hingress : u.dlIngressTeid = some teid) (hdata : GPdu teid pkt data)
    (hnone : u.downlink = none → P (.ends x.1 (.dropped .unknownTeid)))
    (hsome : ∀ gnb, u.downlink = some gnb →
      ∀ w', Alike smfIp w w' → Delivers w' gnb.2 (Gtpu.encap gnb.1 pkt) P) :
    Delivers w (w.addr x.1) data P := by
  obtain ⟨t, ht, rfl⟩ := session_of_wires hwired
  obtain ⟨qfi, hparse⟩ := hdata.parses
  refine delivers_at hplaced.solo fun nowNanos => ?_
  refine ⟨_, _, Upf.serveN3_gPdu hdata.fits hparse _ _, ?_⟩
  have halike := alike_uplink smfIp w x.1 teid pkt nowNanos
  have hverdict := Upf.uplink_ingress hplaced.unique ht hingress pkt nowNanos
  cases hdownlink : t.downlink with
  | none =>
    rw [hdownlink] at hverdict
    rw [hverdict]
    exact hnone hdownlink
  | some gnb =>
    rw [hdownlink] at hverdict
    rw [hverdict] at halike ⊢
    exact hsome gnb hdownlink _ halike

end Hop

/-! ### Whole paths -/

section Paths

variable {w : Nodes} {smfIp : Ipv4Addr} {r : Course} {pkt : Packet} {data : Bytes}

/-- Where the uplink of a course leaves for the data network. -/
def Course.exit (r : Course) (pkt : Packet) : String :=
  match r.chain.bind fun leg => leg.breakoutSeid, r.path.breakout with
  | some _, some (psa2, pre) =>
      if (Pfcp.packetKey pkt).any (FlowFilter.toPrefix pre).matches then psa2 else r.path.anchor
  | _, _ => r.path.anchor

/-- A packet comes out at the end of its path, or was policed on the way. -/
def ComesOut (name : String) (pkt : Packet) (fate : Fate) : Prop :=
  fate = .ends name (.toN6 pkt) ∨ ∃ node, fate = .ends node (.dropped .rateLimited)

/-- At a session that leads to the data network. -/
theorem delivers_exit {x : String × Seid} {u : Wiring} (hwired : (w.fabric smfIp).wires x = some u)
    (hplaced : Placed w x.1) (hexits : r.Exits u) (hsends : Sends r.ue.v4 r.ue.v6 pkt)
    (hdata : GPdu u.n3Teid pkt data) : Delivers w (w.addr x.1) data (ComesOut x.1 pkt) := by
  have hegress : egressOf u pkt = .toN6 := by
    rw [egressOf_whole hexits.branches, hexits.uplink]
  refine delivers_uplink hwired hplaced (hexits.ue ▸ hsends) hdata (.inr ⟨_, rfl⟩)
    (fun _ => .inl rfl) ?_
  intro teid addr hpeer
  cases hegress.symm.trans hpeer

/-- **A packet of the UE comes out at its anchor**, whatever its path. -/
theorem Fabric.Carries.uplink (h : (w.fabric smfIp).Carries r)
    (hplaced : ∀ x ∈ r.fixed, Placed w x.1) (hsends : Sends r.ue.v4 r.ue.v6 pkt)
    (hfits : pkt.length + 16 ≤ Upf.N3_BUFFER) (qfi : UInt8) :
    Delivers w r.n3Addr (Gtpu.encapUlQfi r.n3Teid qfi pkt) (ComesOut (r.exit pkt) pkt) := by
  obtain ⟨a, ha, hexits, hreaches⟩ := h.anchored
  have hanchor := hplaced r.anchor List.mem_cons_self
  cases hreaches with
  | direct hchain hdirect =>
    rw [hdirect.n3Addr, ← hdirect.n3Teid]
    have hexit : r.exit pkt = r.anchor.1 := by
      rw [Course.exit, hchain]
      rfl
    rw [hexit]
    exact delivers_exit ha hanchor hexits hsends (gPdu_encapUlQfi _ _ hfits)
  | @chained leg iupf u hchain hiupf hwired hchained hbranched =>
    have hleg := hplaced _ (Course.leg_fixed hchain hiupf)
    rw [hchained.n3Addr, ← hchained.n3Teid]
    -- the peer that the leg sends the packet to, and where it comes out there
    have hpeer : ∃ x v, (w.fabric smfIp).wires x = some v ∧ Placed w x.1 ∧ r.Exits v ∧
        egressOf u pkt = .toPeer v.n3Teid (w.addr x.1) ∧ r.exit pkt = x.1 := by
      cases hbranched with
      | whole hseid hbranches =>
        refine ⟨r.anchor, a, ha, hanchor, hexits, ?_, ?_⟩
        · rw [egressOf_whole hbranches, hchained.uplink]
          rfl
        · rw [Course.exit, hchain, Option.bind_some, hseid]
          rfl
      | @steered seid psa2 pre v hseid hpath hv hexits' hbranches _ =>
        have hbreak := hplaced _ (Course.breakout_fixed hchain hiupf hseid hpath)
        have hexit : r.exit pkt = if (Pfcp.packetKey pkt).any (FlowFilter.toPrefix pre).matches
            then psa2 else r.path.anchor := by
          rw [Course.exit, hchain, Option.bind_some, hseid, hpath]
        cases hsteers : (Pfcp.packetKey pkt).any (FlowFilter.toPrefix pre).matches with
        | true =>
          refine ⟨(psa2, seid), v, hv, hbreak, hexits', ?_, ?_⟩
          · rw [egressOf_branch hbranches, hsteers, if_pos rfl]
            rfl
          · rw [hexit, hsteers, if_pos rfl]
        | false =>
          refine ⟨r.anchor, a, ha, hanchor, hexits, ?_, ?_⟩
          · rw [egressOf_branch hbranches, hsteers, if_neg Bool.false_ne_true, hchained.uplink]
            rfl
          · rw [hexit, hsteers, if_neg Bool.false_ne_true]
            rfl
    obtain ⟨x, v, hv, hx, hexits', hegress, hexit⟩ := hpeer
    rw [hexit]
    refine delivers_uplink hwired hleg (hchained.ue ▸ hsends) (gPdu_encapUlQfi _ _ hfits)
      (.inr ⟨_, rfl⟩) ?_ ?_
    · intro hout
      cases hegress.symm.trans hout
    · intro teid addr hout w' halike
      obtain ⟨rfl, rfl⟩ := Egress.toPeer.inj (hegress.symm.trans hout)
      rw [← halike.addr]
      exact delivers_exit (halike.fabric ▸ hv) (halike.placed _ hx) hexits' hsends
        (gPdu_encap _ hfits)

/-! #### Downlink -/

/-- The sessions that packets of the data network come in at. -/
def Course.anchors (r : Course) : List (String × Seid) :=
  r.anchor :: breakoutSession (r.chain.bind fun leg => leg.breakoutSeid) r.path.breakout

/-- A packet has reached its gNB, in the gNB's tunnel. -/
def Reached (gnb : Teid × Ipv4Addr) (pkt : Packet) (fate : Fate) : Prop :=
  ∃ data, fate = .leaves gnb.2 data ∧ Gtpu.decap data = .ok (some (gnb.1, pkt))

/-- A packet for the UE from the data network, where a session of the UE is found for it. -/
structure ForUe (w : Nodes) (x : String × Seid) (pkt : Packet) : Prop where
  found : ∃ t, N6.owner (w.upf x.1) pkt = some (x.2, t)

/-- That is the wired one. -/
theorem owner_of_wires {x : String × Seid} {u : Wiring} (hwired : (w.fabric smfIp).wires x = some u)
    (howner : ForUe w x pkt) : ∃ t, N6.owner (w.upf x.1) pkt = some (x.2, t) ∧ t.wiring = u := by
  obtain ⟨t, ht, rfl⟩ := session_of_wires hwired
  obtain ⟨t', howner⟩ := howner.found
  obtain rfl : t' = t := Option.some_inj.mp ((N6.lookup_owner howner).symm.trans ht)
  exact ⟨t', howner, rfl⟩

/-- What the datapath makes of it. -/
theorem downlink_routed {x : String × Seid} {u : Wiring} (hwired : (w.fabric smfIp).wires x = some u)
    (howner : ForUe w x pkt) {gnb : Teid × Ipv4Addr} (hdownlink : u.downlink = some gnb)
    (nowNanos : Nat) :
    (N6.downlink (w.upf x.1) pkt nowNanos).1 = .rateLimited ∨ ∃ qfi,
      (N6.downlink (w.upf x.1) pkt nowNanos).1 =
        .toN3 gnb.2 (Gtpu.encapDlQfi gnb.1 qfi false pkt) := by
  obtain ⟨t', howner, rfl⟩ := owner_of_wires hwired howner
  have hadmission : N6.downlinkAdmission (w.upf x.1) pkt nowNanos =
      some (Pfcp.Admission.ofFound false nowNanos pkt (x.2, t')) := by
    have htunnel : t'.downlink = some gnb := hdownlink
    simp [N6.downlinkAdmission, howner, Option.filter_some, htunnel]
  have hstep := N6.downlink_step (w.upf x.1) pkt nowNanos
  generalize N6.downlink (w.upf x.1) pkt nowNanos = out at hstep ⊢
  cases hstep with
  | admitted h htunnel =>
    obtain rfl := Option.mem_unique hadmission h
    obtain rfl := Option.mem_unique hdownlink htunnel
    dsimp only
    split
    · exact .inr ⟨_, rfl⟩
    · exact .inl rfl
  | held h => cases hadmission.symm.trans h
  | dropped h => cases hadmission.symm.trans h

theorem downlink_unrouted {x : String × Seid} {u : Wiring} (hwired : (w.fabric smfIp).wires x = some u)
    (howner : ForUe w x pkt) (hdownlink : u.downlink = none) (nowNanos : Nat) :
    ∀ dst gpdu, (N6.downlink (w.upf x.1) pkt nowNanos).1 ≠ .toN3 dst gpdu := by
  obtain ⟨t', howner, rfl⟩ := owner_of_wires hwired howner
  have hadmission : N6.downlinkAdmission (w.upf x.1) pkt nowNanos = none := by
    have htunnel : t'.downlink = none := hdownlink
    simp [N6.downlinkAdmission, howner, Option.filter_some, htunnel]
  have hstep := N6.downlink_step (w.upf x.1) pkt nowNanos
  generalize N6.downlink (w.upf x.1) pkt nowNanos = out at hstep ⊢
  cases hstep with
  | admitted h => cases hadmission.symm.trans h
  | held => simp
  | dropped _ hverdict => exact hverdict

/-- What a packet's fate is once the datapath has made its verdict. -/
def Comes (w : Nodes) (name : String) (out : N6.Downlink × UpfState) (P : Fate → Prop) : Prop :=
  match out.1 with
  | .toN3 dst gpdu => Delivers (w.turn name out.2) dst gpdu P
  | verdict => verdict = .rateLimited

/-- **A packet for the UE comes out at its gNB**, from whichever anchor and whatever its path. -/
theorem Fabric.Carries.downlink (h : (w.fabric smfIp).Carries r)
    (hplaced : ∀ x ∈ r.fixed, Placed w x.1) {gnb : Teid × Ipv4Addr} (hgnb : r.gnb = some gnb)
    (hran : ∀ name, w.addr name ≠ gnb.2) {x : String × Seid} (hx : x ∈ r.anchors)
    (howner : ForUe w x pkt) (hfits : pkt.length + 16 ≤ Upf.N3_BUFFER) (nowNanos : Nat) :
    Comes w x.1 (N6.downlink (w.upf x.1) pkt nowNanos) (Reached gnb pkt) := by
  have halike := alike_downlink smfIp w x.1 pkt nowNanos
  obtain ⟨a, ha, hexits, hreaches⟩ := h.anchored
  -- the tunnel that the anchor's downlink goes into, and what comes out at its end
  have htunnel : ∃ v target, (w.fabric smfIp).wires x = some v ∧ v.downlink = some target ∧
      ∀ w' data, Alike smfIp w w' → GPdu target.1 pkt data →
        Gtpu.decap data = .ok (some (target.1, pkt)) → Delivers w' target.2 data (Reached gnb pkt) := by
    cases hreaches with
    | direct hchain hdirect =>
      rw [Course.anchors, hchain] at hx
      obtain rfl := List.mem_singleton.mp hx
      refine ⟨a, gnb, ha, hdirect.downlink.trans hgnb, fun w' data halike _ hdecap => ?_⟩
      exact delivers_leaves (halike.addr ▸ hran) ⟨data, rfl, hdecap⟩
    | @chained leg iupf u hchain hiupf hwired hchained hbranched =>
      have hdownlink : ∃ v, (w.fabric smfIp).wires x = some v ∧ v.downlink = some leg.dlIngress := by
        rw [Course.anchors, hchain, Option.bind_some] at hx
        cases hbranched with
        | whole hseid =>
          rw [hseid] at hx
          obtain rfl := List.mem_singleton.mp hx
          exact ⟨a, ha, (hchained.active gnb hgnb).1⟩
        | steered hseid hpath hv _ _ hactive =>
          rw [hseid, hpath] at hx
          rcases List.mem_cons.mp hx with rfl | hx
          · exact ⟨a, ha, (hchained.active gnb hgnb).1⟩
          · obtain rfl := List.mem_singleton.mp hx
            exact ⟨_, hv, hactive gnb hgnb⟩
      obtain ⟨v, hv, hdownlink⟩ := hdownlink
      have hleg := hplaced _ (Course.leg_fixed hchain hiupf)
      refine ⟨v, leg.dlIngress, hv, hdownlink, fun w' data halike hdata _ => ?_⟩
      rw [hchained.ingressAddr, show (w.fabric smfIp).addr = w'.addr from halike.addr.symm]
      refine delivers_ingress (x := (iupf, leg.upSeid)) (halike.fabric ▸ hwired)
        (halike.placed _ hleg) hchained.ingress hdata ?_ ?_
      · intro hnone
        cases hnone.symm.trans (hchained.active gnb hgnb).2
      · intro gnb' hgnb' w'' halike'
        obtain rfl := Option.some_inj.mp ((hchained.active gnb hgnb).2.symm.trans hgnb')
        refine delivers_leaves ?_ ⟨_, rfl, Gtpu.decap_encap _ _⟩
        rw [halike'.addr, halike.addr]
        exact hran
  obtain ⟨v, target, hv, hdownlink, hdelivers⟩ := htunnel
  unfold Comes
  rcases downlink_routed hv howner hdownlink nowNanos with hverdict | ⟨qfi, hverdict⟩
  · rw [hverdict]
  · rw [hverdict]
    refine hdelivers _ _ halike (gPdu_encapDlQfi _ _ hfits) ?_
    rw [Gtpu.decap, Gtpu.parse_encapDlQfi]
    rfl

/-- **Without a gNB nothing leaves for the RAN** from the anchor. -/
theorem Fabric.Carries.idle (h : (w.fabric smfIp).Carries r)
    (hplaced : ∀ x ∈ r.fixed, Placed w x.1) (hgnb : r.gnb = none) (howner : ForUe w r.anchor pkt)
    (hfits : pkt.length + 16 ≤ Upf.N3_BUFFER) (nowNanos : Nat) {dst : Ipv4Addr} {gpdu : Bytes}
    (hout : (N6.downlink (w.upf r.path.anchor) pkt nowNanos).1 = .toN3 dst gpdu) :
    Delivers (w.turn r.path.anchor (N6.downlink (w.upf r.path.anchor) pkt nowNanos).2) dst gpdu
      fun fate => ∃ node, fate = .ends node (.dropped .unknownTeid) := by
  have halike := alike_downlink smfIp w r.path.anchor pkt nowNanos
  obtain ⟨a, ha, hexits, hreaches⟩ := h.anchored
  cases hreaches with
  | direct hchain hdirect =>
    exact absurd hout (downlink_unrouted ha howner (hdirect.downlink.trans hgnb) nowNanos dst gpdu)
  | @chained leg iupf u hchain hiupf hwired hchained hbranched =>
    rcases hchained.idle hgnb with hdownlink | ⟨hdownlink, hnone⟩
    · exact absurd hout (downlink_unrouted ha howner hdownlink nowNanos dst gpdu)
    · have hleg := hplaced _ (Course.leg_fixed hchain hiupf)
      have hrouted := downlink_routed ha howner hdownlink nowNanos
      rw [show (w.upf r.anchor.1) = w.upf r.path.anchor from rfl, hout] at hrouted
      rcases hrouted with hlimited | ⟨qfi, hverdict⟩
      · cases hlimited
      · obtain ⟨rfl, rfl⟩ := N6.Downlink.toN3.inj hverdict
        rw [hchained.ingressAddr, show (w.fabric smfIp).addr = _ from halike.addr.symm]
        refine delivers_ingress (x := (iupf, leg.upSeid)) (halike.fabric ▸ hwired)
          (halike.placed _ hleg) hchained.ingress (gPdu_encapDlQfi _ _ hfits) ?_ ?_
        · exact fun _ => ⟨_, rfl⟩
        · intro gnb hsome
          cases hnone.symm.trans hsome

end Paths

/-! ### After any run -/

section Runs

variable {D : Type} (cfg : SmfConfig) (codec : Pfcp.Codec D) (smfIp : Ipv4Addr)
  (stamp : Nat → Nat × Nat) {w₀ w : Nodes} {c : Core} {smRef : String} {ctx : SmContext} {pkt : Packet}

/-- **A packet of the UE comes out at its anchor** as it was sent, after any run. -/
theorem uplink_delivered (h : cfg.Runs codec smfIp stamp w₀ c w)
    (hctx : c.smf.contexts.lookup smRef = some ctx) (hplaced : ∀ x ∈ ctx.course.fixed, Placed w x.1)
    (hsends : Sends ctx.ueAddr.v4 ctx.ueAddr.v6 pkt) (hfits : pkt.length + 16 ≤ Upf.N3_BUFFER)
    (qfi : UInt8) :
    Delivers w ctx.n3Addr (Gtpu.encapUlQfi ctx.n3Teid qfi pkt) (ComesOut (ctx.course.exit pkt) pkt) :=
  ((paths_laid cfg codec smfIp stamp h).carries smRef _ (courses_lookup hctx)).uplink hplaced hsends
    hfits qfi

/-- **A packet for the UE comes out at its gNB**, in the gNB's tunnel; without a gNB nothing leaves for
the RAN. -/
theorem downlink_delivered (h : cfg.Runs codec smfIp stamp w₀ c w)
    (hctx : c.smf.contexts.lookup smRef = some ctx) (hplaced : ∀ x ∈ ctx.course.fixed, Placed w x.1)
    (hfits : pkt.length + 16 ≤ Upf.N3_BUFFER) (nowNanos : Nat) :
    (∀ gnb, ctx.gnb = some gnb → (∀ name, w.addr name ≠ gnb.2) → ∀ x ∈ ctx.course.anchors,
      ForUe w x pkt → Comes w x.1 (N6.downlink (w.upf x.1) pkt nowNanos) (Reached gnb pkt)) ∧
    (ctx.gnb = none → ForUe w ctx.course.anchor pkt → ∀ dst gpdu,
      (N6.downlink (w.upf ctx.path.anchor) pkt nowNanos).1 = .toN3 dst gpdu →
      Delivers (w.turn ctx.path.anchor (N6.downlink (w.upf ctx.path.anchor) pkt nowNanos).2) dst gpdu
        fun fate => ∃ node, fate = .ends node (.dropped .unknownTeid)) := by
  have hcarries := (paths_laid cfg codec smfIp stamp h).carries smRef _ (courses_lookup hctx)
  constructor
  · intro gnb hgnb hran x hx howner
    exact hcarries.downlink hplaced hgnb hran hx howner hfits nowNanos
  · intro hgnb howner dst gpdu hout
    exact hcarries.idle hplaced hgnb howner hfits nowNanos hout

end Runs

/-! #### Through two UPFs -/

theorem placed_twoSites {w : Nodes} (haddr : w.addr = twoSites.addr) {name : String}
    (hname : name = "anchor" ∨ name = "i-upf") (hunique : (w.upf name).UniqueTeids) :
    Placed w name := by
  refine ⟨fun n hn => ?_, hunique⟩
  rw [haddr] at hn
  simp only [twoSites] at hn
  rcases hname with rfl | rfl
  · by_contra hne
    rw [if_pos rfl, if_neg hne] at hn
    split at hn <;> simp at hn
  · by_contra hne
    rw [if_neg (by decide : ¬ ("i-upf" = "anchor")), if_pos rfl, if_neg hne] at hn
    split at hn <;> simp at hn

/-- A UDP packet of the UE, and one for it. -/
def packetFrom : Packet :=
  [0x45, 0, 0, 28, 0, 0, 0, 0, 64, 17, 0, 0, 10, 45, 0, 2, 1, 1, 1, 1, 0, 1, 0x13, 0x8d, 0, 8, 0, 0]

def packetFor : Packet :=
  [0x45, 0, 0, 28, 0, 0, 0, 0, 64, 17, 0, 0, 1, 1, 1, 1, 10, 45, 0, 2, 0x13, 0x8d, 0, 1, 0, 8, 0, 0]

/-- The chained session with its gNB. -/
theorem exists_connected : ∃ c w ctx,
    chainedUpf.Runs Pfcp.Codec.direct 0x0A000001 (fun n => (n, 0)) twoSites c w ∧
    c.smf.contexts.lookup "1" = some ctx ∧ (∀ x ∈ ctx.course.fixed, Placed w x.1) ∧
    Sends ctx.ueAddr.v4 ctx.ueAddr.v6 packetFrom ∧ ctx.gnb = some (5, 0x0A000002) ∧
    ctx.course.anchor = ("anchor", 1) ∧ ctx.chain.isSome ∧ ForUe w ("anchor", 1) packetFor := by
  have hrun : afterConnected.bind (fun p => (p.1.smf.contexts.lookup "1").map fun ctx =>
      (ctx.course.fixed, decide (Sends ctx.ueAddr.v4 ctx.ueAddr.v6 packetFrom), ctx.gnb,
        ctx.chain.isSome)) =
      some ([("anchor", 1), ("i-upf", 1)], true, some (5, 0x0A000002), true) := by
    decide +kernel
  have hnodes : afterConnected.map (fun p => (decide (p.2.upf "anchor").UniqueTeids,
      decide (p.2.upf "i-upf").UniqueTeids, (N6.owner (p.2.upf "anchor") packetFor).map Prod.fst)) =
      some (true, true, some 1) := by
    decide +kernel
  obtain ⟨⟨c, w⟩, hp, hview⟩ := Option.bind_eq_some_iff.mp hrun
  obtain ⟨ctx, hctx, hview⟩ := Option.map_eq_some_iff.mp hview
  rw [hp, Option.map_some, Option.some_inj] at hnodes
  simp only [Prod.mk.injEq, decide_eq_true_eq] at hview hnodes
  obtain ⟨hfixed, hsends, hgnb, hchain⟩ := hview
  obtain ⟨hanchor, hiupf, howner⟩ := hnodes
  obtain ⟨⟨seid, t⟩, howner, rfl⟩ := Option.map_eq_some_iff.mp howner
  have hruns := runs_connected hp
  refine ⟨c, w, ctx, hruns, hctx, ?_, hsends, hgnb, ?_, hchain, ⟨t, howner⟩⟩
  · intro x hx
    rw [hfixed] at hx
    rcases List.mem_cons.mp hx with rfl | hx
    · exact placed_twoSites hruns.addr (.inl rfl) hanchor
    · obtain rfl := List.mem_singleton.mp hx
      exact placed_twoSites hruns.addr (.inr rfl) hiupf
  · exact (List.cons.inj hfixed).1

theorem uplink_delivered_connected : ∃ c w ctx,
    chainedUpf.Runs Pfcp.Codec.direct 0x0A000001 (fun n => (n, 0)) twoSites c w ∧
    c.smf.contexts.lookup "1" = some ctx ∧ ctx.chain.isSome ∧
    Delivers w ctx.n3Addr (Gtpu.encapUlQfi ctx.n3Teid 9 packetFrom)
      (ComesOut (ctx.course.exit packetFrom) packetFrom) := by
  obtain ⟨c, w, ctx, hruns, hctx, hplaced, hsends, -, -, hchain, -⟩ := exists_connected
  refine ⟨c, w, ctx, hruns, hctx, hchain, ?_⟩
  exact uplink_delivered chainedUpf Pfcp.Codec.direct 0x0A000001 (fun n => (n, 0)) hruns hctx hplaced
    hsends (by decide) 9

theorem downlink_delivered_connected : ∃ c w ctx,
    chainedUpf.Runs Pfcp.Codec.direct 0x0A000001 (fun n => (n, 0)) twoSites c w ∧
    c.smf.contexts.lookup "1" = some ctx ∧ ctx.chain.isSome ∧
    Comes w "anchor" (N6.downlink (w.upf "anchor") packetFor 0) (Reached (5, 0x0A000002) packetFor) := by
  obtain ⟨c, w, ctx, hruns, hctx, hplaced, -, hgnb, hanchor, hchain, howner⟩ := exists_connected
  refine ⟨c, w, ctx, hruns, hctx, hchain, ?_⟩
  refine (downlink_delivered chainedUpf Pfcp.Codec.direct 0x0A000001 (fun n => (n, 0)) hruns hctx
    hplaced (by decide) 0).1 _ hgnb ?_ ("anchor", 1) ?_ howner
  · intro name
    rw [hruns.addr]
    simp only [twoSites]
    split
    · simp
    · split <;> simp
  · rw [Course.anchors, hanchor]
    exact List.mem_cons_self

end Radian.Smf
