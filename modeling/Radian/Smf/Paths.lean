import Radian.Smf.Fabric
import Radian.Smf.UserPlane

/-!
# Paths of sessions

What a context says of its session's traffic, and a fabric that does as it says.

- `Course` — the tunnels, addresses and peers a context has on record.
- `Fabric.Carries` — the sessions of a course are wired so that they lead from the RAN to the data
  network and back.
- `Laid` — a fabric carries every context, each on sessions of its own.
- `Spares`, `Laid.settle` — what one handler does to one context leaves the others laid.
-/

namespace Radian.Smf

open Pfcp (Ipv4Addr Seid Teid UeAddr IpPrefix FlowFilter Wiring)

/-- What a context says of the traffic of its session. -/
structure Course where
  upSeid : Seid
  n3Teid : Teid
  n3Addr : Ipv4Addr
  chain : Option ChainedLeg
  path : SessionPath
  ue : UeAddr
  gnb : Option (Teid × Ipv4Addr)
  indirectFwd : Option Seid
  deriving DecidableEq, Repr

def SmContext.course (c : SmContext) : Course where
  upSeid := c.upSeid
  n3Teid := c.n3Teid
  n3Addr := c.n3Addr
  chain := c.chain
  path := c.path
  ue := c.ueAddr
  gnb := c.gnb
  indirectFwd := c.indirectFwd

namespace Course

def anchor (r : Course) : String × Seid := (r.path.anchor, r.upSeid)

/-- The sessions between the RAN and the data network. -/
def fixed (r : Course) : List (String × Seid) := r.anchor :: legSessions r.chain r.path

/-- The sessions a course runs on, a handover's forwarding session among them. -/
def sessions (r : Course) : List (String × Seid) :=
  r.fixed ++ r.indirectFwd.toList.map fun seid => (r.path.anchor, seid)

/-! ### Wirings that do as the course says -/

/-- Out to the data network. -/
structure Exits (r : Course) (a : Wiring) : Prop where
  ue : a.ue = r.ue
  uplink : a.uplink = .toN6
  branches : a.branches = []

/-- Without an intermediate UPF the RAN and the anchor are the ends of one tunnel. -/
structure Direct (r : Course) (addr : String → Ipv4Addr) (a : Wiring) : Prop where
  n3Teid : a.n3Teid = r.n3Teid
  n3Addr : r.n3Addr = addr r.path.anchor
  downlink : a.downlink = r.gnb

/-- With one they meet there: uplink goes on to the anchor, and the anchor's downlink comes back to the
ingress of the leg.  A session without a gNB is interrupted on one of the two hops. -/
structure Chained (r : Course) (addr : String → Ipv4Addr) (leg : ChainedLeg) (iupf : String)
    (a u : Wiring) : Prop where
  ue : u.ue = r.ue
  n3Teid : u.n3Teid = r.n3Teid
  n3Addr : r.n3Addr = addr iupf
  ingress : u.dlIngressTeid = some leg.dlIngress.1
  ingressAddr : leg.dlIngress.2 = addr iupf
  uplink : u.uplink = .toPeer a.n3Teid (addr r.path.anchor)
  active : ∀ g, r.gnb = some g → a.downlink = some leg.dlIngress ∧ u.downlink = some g
  idle : r.gnb = none →
    a.downlink = none ∨ a.downlink = some leg.dlIngress ∧ u.downlink = none

/-- What is sent on to a breakout anchor instead. -/
inductive Branched (r : Course) (f : Fabric) (leg : ChainedLeg) (u : Wiring) : Prop
  | whole (hseid : leg.breakoutSeid = none) (hbranches : u.branches = [])
  | steered {seid psa2 pre v} (hseid : leg.breakoutSeid = some seid)
      (hpath : r.path.breakout = some (psa2, pre)) (hwired : f.wires (psa2, seid) = some v)
      (hexits : r.Exits v)
      (hbranches : u.branches =
        [(Pfcp.ULCL_PDR_BASE, FlowFilter.toPrefix pre, .toPeer v.n3Teid (f.addr psa2))])
      (hactive : ∀ g, r.gnb = some g → v.downlink = some leg.dlIngress)

/-- Between the RAN and the anchor. -/
inductive Reaches (r : Course) (f : Fabric) (a : Wiring) : Prop
  | direct (hchain : r.chain = none) (h : r.Direct f.addr a)
  | chained {leg iupf u} (hchain : r.chain = some leg) (hiupf : r.path.intermediate = some iupf)
      (hwired : f.wires (iupf, leg.upSeid) = some u) (h : r.Chained f.addr leg iupf a u)
      (hbranched : r.Branched f leg u)

end Course

/-- A fabric carries a session. -/
structure Fabric.Carries (f : Fabric) (r : Course) : Prop where
  nodup : r.sessions.Nodup
  forwarding : ∀ seid, r.indirectFwd = some seid → f.wires (r.path.anchor, seid) ≠ none
  anchored : ∃ a, f.wires r.anchor = some a ∧ r.Exits a ∧ r.Reaches f a

section Frame

variable {f f' : Fabric} {r : Course}

theorem Course.mem_fixed {x : String × Seid} :
    x ∈ r.fixed ↔ x = r.anchor ∨ x ∈ legSessions r.chain r.path := List.mem_cons

theorem Course.mem_sessions {x : String × Seid} :
    x ∈ r.sessions ↔ x = r.anchor ∨ x ∈ legSessions r.chain r.path ∨
      ∃ seid, r.indirectFwd = some seid ∧ x = (r.path.anchor, seid) := by
  simp [Course.sessions, Course.mem_fixed, or_assoc, eq_comm]

theorem Course.fixed_subset {x : String × Seid} (h : x ∈ r.fixed) : x ∈ r.sessions :=
  List.mem_append_left _ h

theorem Course.anchor_mem : r.anchor ∈ r.sessions := List.mem_cons_self

theorem Course.leg_fixed {leg : ChainedLeg} {iupf : String} (hchain : r.chain = some leg)
    (hiupf : r.path.intermediate = some iupf) : (iupf, leg.upSeid) ∈ r.fixed := by
  rw [mem_fixed, hchain, mem_legSessions hiupf]
  exact .inr (.inl rfl)

theorem Course.breakout_fixed {leg : ChainedLeg} {iupf psa2 : String} {seid : Seid} {pre : IpPrefix}
    (hchain : r.chain = some leg) (hiupf : r.path.intermediate = some iupf)
    (hseid : leg.breakoutSeid = some seid) (hpath : r.path.breakout = some (psa2, pre)) :
    (psa2, seid) ∈ r.fixed := by
  rw [mem_fixed, hchain, mem_legSessions hiupf, hseid, hpath]
  exact .inr (.inr List.mem_cons_self)

/-- A session that is wired is not one that is not. -/
theorem Fabric.ne_of_wired {x y : String × Seid} {u : Wiring} (hx : f.wires x = some u)
    (hy : f.wires y = none) : x ≠ y := by
  rintro rfl
  cases hx.symm.trans hy

/-- A branch seen in a fabric that has the breakout anchor's session. -/
theorem Course.Branched.frame {leg : ChainedLeg} {iupf : String} {u : Wiring}
    (h : r.Branched f leg u) (hchain : r.chain = some leg) (hiupf : r.path.intermediate = some iupf)
    (haddr : f'.addr = f.addr) (hsame : ∀ x ∈ r.fixed, f'.wires x = f.wires x) :
    r.Branched f' leg u := by
  cases h with
  | whole hseid hbranches => exact .whole hseid hbranches
  | @steered seid psa2 pre v hseid hpath hwired hexits hbranches hactive =>
    have hmem := Course.breakout_fixed hchain hiupf hseid hpath
    rw [← haddr] at hbranches
    exact .steered hseid hpath ((hsame _ hmem).trans hwired) hexits hbranches hactive

/-- The anchor is as before, and so is what leads there. -/
theorem Fabric.Carries.anchored_frame (h : f.Carries r) (haddr : f'.addr = f.addr)
    (hsame : ∀ x ∈ r.fixed, f'.wires x = f.wires x) :
    ∃ a, f'.wires r.anchor = some a ∧ r.Exits a ∧ r.Reaches f' a := by
  obtain ⟨a, ha, hexits, hreaches⟩ := h.anchored
  refine ⟨a, (hsame _ List.mem_cons_self).trans ha, hexits, ?_⟩
  cases hreaches with
  | direct hchain hdirect => exact .direct hchain (haddr ▸ hdirect)
  | @chained leg iupf u hchain hiupf hwired hchained hbranched =>
    have hmem := Course.leg_fixed hchain hiupf
    exact .chained hchain hiupf ((hsame _ hmem).trans hwired) (haddr ▸ hchained)
      (hbranched.frame hchain hiupf haddr hsame)

/-- A session is carried as long as its own sessions are as before. -/
theorem Fabric.Carries.frame (h : f.Carries r) (haddr : f'.addr = f.addr)
    (hsame : ∀ x ∈ r.sessions, f'.wires x = f.wires x) : f'.Carries r := by
  refine ⟨h.nodup, ?_, h.anchored_frame haddr fun x hx => hsame x (Course.fixed_subset hx)⟩
  intro seid hseid
  rw [hsame _ (Course.mem_sessions.mpr (.inr (.inr ⟨seid, hseid, rfl⟩)))]
  exact h.forwarding seid hseid

/-- With a leg, the anchor is reached through the intermediate UPF. -/
theorem Fabric.Carries.through (h : f.Carries r) {leg : ChainedLeg} {iupf : String} (hchain : r.chain = some leg)
    (hiupf : r.path.intermediate = some iupf) :
    ∃ a u, f.wires r.anchor = some a ∧ r.Exits a ∧ f.wires (iupf, leg.upSeid) = some u ∧
      r.Chained f.addr leg iupf a u ∧ r.Branched f leg u := by
  obtain ⟨a, ha, hexits, hreaches⟩ := h.anchored
  cases hreaches with
  | direct hnone => cases hchain.symm.trans hnone
  | @chained leg' iupf' u hchain' hiupf' hwired hchained hbranched =>
    obtain rfl : leg = leg' := Option.mem_unique hchain hchain'
    obtain rfl : iupf = iupf' := Option.mem_unique hiupf hiupf'
    exact ⟨a, u, ha, hexits, hwired, hchained, hbranched⟩

/-- Every session of a course that is carried is wired. -/
theorem Fabric.Carries.wired (h : f.Carries r) {x : String × Seid} (hx : x ∈ r.sessions) :
    f.wires x ≠ none := by
  obtain ⟨a, ha, -, hreaches⟩ := h.anchored
  rcases Course.mem_sessions.mp hx with rfl | hleg | ⟨seid, hseid, rfl⟩
  · simp [ha]
  · cases hreaches with
    | direct hchain =>
      rw [hchain] at hleg
      exact absurd hleg List.not_mem_nil
    | @chained leg iupf u hchain hiupf hwired _ hbranched =>
      rw [hchain, mem_legSessions hiupf] at hleg
      rcases hleg with rfl | hbreak
      · simp [hwired]
      · cases hbranched with
        | whole hnone =>
          rw [hnone] at hbreak
          cases hbreak
        | steered hseid hpath hv =>
          rw [hseid, hpath] at hbreak
          obtain rfl := List.mem_singleton.mp hbreak
          simp [hv]
  · exact h.forwarding seid hseid

end Frame

/-! ### All sessions -/

/-- The courses on record, by context. -/
def Core.courses (c : Core) (smRef : String) : Option Course :=
  (c.smf.contexts.lookup smRef).map SmContext.course

/-- **Every session's path is laid**, on sessions that are nobody else's. -/
structure Laid (m : String → Option Course) (f : Fabric) : Prop where
  carries : ∀ smRef r, m smRef = some r → f.Carries r
  apart : ∀ smRef smRef' r r', m smRef = some r → m smRef' = some r' → smRef ≠ smRef' →
    ∀ x ∈ r.sessions, x ∉ r'.sessions

/-- From `f` to `f'` only the sessions in `xs` change, and new ones come and go. -/
structure Spares (xs : List (String × Seid)) (f f' : Fabric) : Prop where
  addr : f'.addr = f.addr
  wires : ∀ x, x ∉ xs → f.wires x ≠ none → f'.wires x = f.wires x

section Spares

variable {xs : List (String × Seid)} {f f' : Fabric} {m : String → Option Course} {smRef : String}

theorem Spares.refl (xs : List (String × Seid)) (f : Fabric) : Spares xs f f :=
  ⟨rfl, fun _ _ _ => rfl⟩

/-- A change of one of them or of a new one. -/
theorem Spares.set (h : Spares xs f f') {x : String × Seid} (hx : x ∈ xs ∨ f.wires x = none)
    (u : Option Wiring) : Spares xs f (f'.set x u) := by
  refine ⟨h.addr, fun y hy hwired => ?_⟩
  rw [Fabric.wires_set_of_ne, h.wires y hy hwired]
  rintro rfl
  rcases hx with hx | hx
  · exact hy hx
  · exact hwired hx

/-- **One handler, one context**: what it changes is the context's own or new, so every other session
stays laid. -/
theorem Laid.settle (h : Laid m f) (hspares : Spares xs f f')
    (hown : ∀ x ∈ xs, ∃ r, m smRef = some r ∧ x ∈ r.sessions) (o : Option Course)
    (hcarries : ∀ r, o = some r → f'.Carries r)
    (hnew : ∀ r, o = some r → ∀ x ∈ r.sessions, x ∈ xs ∨ f.wires x = none) :
    Laid (Function.update m smRef o) f' := by
  -- the sessions of another context are neither the handler's nor new
  have hother : ∀ ref r, ref ≠ smRef → m ref = some r → ∀ x ∈ r.sessions,
      x ∉ xs ∧ f.wires x ≠ none := by
    intro ref r hne hr x hx
    refine ⟨fun hxs => ?_, (h.carries ref r hr).wired hx⟩
    obtain ⟨r', hr', hx'⟩ := hown x hxs
    exact h.apart ref smRef r r' hr hr' hne x hx hx'
  constructor
  · intro ref r hr
    by_cases hsame : ref = smRef
    · subst hsame
      rw [Function.update_self] at hr
      exact hcarries r hr
    · rw [Function.update_of_ne hsame] at hr
      exact (h.carries ref r hr).frame hspares.addr fun x hx =>
        hspares.wires x (hother ref r hsame hr x hx).1 (hother ref r hsame hr x hx).2
  · intro ref ref' r r' hr hr' hne x hx hx'
    by_cases hsame : ref = smRef
    · subst hsame
      rw [Function.update_self] at hr
      rw [Function.update_of_ne hne.symm] at hr'
      obtain ⟨hout, hwired⟩ := hother ref' r' hne.symm hr' x hx'
      rcases hnew r hr x hx with hxs | hnone
      · exact hout hxs
      · exact hwired hnone
    · rw [Function.update_of_ne hsame] at hr
      by_cases hsame' : ref' = smRef
      · subst hsame'
        rw [Function.update_self] at hr'
        obtain ⟨hout, hwired⟩ := hother ref r hsame hr x hx
        rcases hnew r' hr' x hx' with hxs | hnone
        · exact hout hxs
        · exact hwired hnone
      · rw [Function.update_of_ne hsame'] at hr'
        exact h.apart ref ref' r r' hr hr' hne x hx hx'

/-- Contexts may be dropped. -/
theorem Laid.restrict (h : Laid m f) {m' : String → Option Course}
    (hless : ∀ ref r, m' ref = some r → m ref = some r) : Laid m' f :=
  ⟨fun ref r hr => h.carries ref r (hless ref r hr), fun ref ref' r r' hr hr' =>
    h.apart ref ref' r r' (hless ref r hr) (hless ref' r' hr')⟩

end Spares

end Radian.Smf
