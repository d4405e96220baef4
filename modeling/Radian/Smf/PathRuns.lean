import Radian.Smf.Influence
import Radian.Smf.PathSteps

/-!
# Every path is laid

Establishment, release, recovery and refresh, and the runs they are part of.

- `…_lays` — the handlers that open and close sessions leave every path laid.
- `paths_laid` — so does every run at the UPFs, whatever else happens there.
-/

namespace Radian.Smf

open Proc (before Serial)
open Keyed (Map)
open Npcf (SmPolicyDecision)
open Pfcp (Ipv4Addr Ipv6Addr Seid Teid UeAddr IpPrefix N4Request N4Response EstablishedSession
  FlowFilter Egress Wiring)

/-! ### The chained half -/

section Chain

variable {α : Type} {c : Core} {f : Fabric} {path : SessionPath} {ue : UeAddr}
  {anchor est : EstablishedSession} {iupf : String} {a u : Wiring}

theorem lays_abandonChain {β : Type} {Q : Except String β → Core → Fabric → Prop}
    {sessions : List (String × Seid)} {why : String} (h : Q (.error why) c f) :
    Lays (abandonChain sessions why) Q c f := fun _ => h

/-- A refusal gives the chain up. -/
theorem lays_unopened {β : Type} {Q : Except String β → Core → Fabric → Prop}
    {sessions : List (String × Seid)} {why why' : String} {k : EstablishedSession → SmfM (Except String β)}
    {resp : Option N4Response} (hnone : (resp.bind fun r => r.session) = none)
    (h : ∀ e, Q (.error e) c f) :
    Lays (match resp with
      | none => abandonChain sessions why
      | some resp => match resp.session with
        | none => abandonChain sessions why'
        | some est => k est) Q c f := by
  cases resp with
  | none => exact lays_abandonChain (h _)
  | some resp =>
    have hsession : resp.session = none := hnone
    simp only [hsession]
    exact lays_abandonChain (h _)

theorem establishBreakout_lays {dnn : String}
    {Q : Except String (Option (String × EstablishedSession × IpPrefix)) → Core → Fabric → Prop}
    (hnone : path.breakout = none → Q (.ok none) c f)
    (hok : ∀ psa2 pre est c', path.breakout = some (psa2, pre) → c'.courses = c.courses →
      f.wires (psa2, est.upSeid) = none → est.n3Addr = f.addr psa2 →
      Q (.ok (some (psa2, est, pre))) c'
        (f.set (psa2, est.upSeid) (some (toDataNetwork est ue))))
    (hrefused : ∀ e c', c'.courses = c.courses → Q (.error e) c' f) :
    Lays (establishBreakout path ue dnn) Q c f := by
  unfold establishBreakout
  split
  · rename_i hpath
    exact hnone hpath
  · rename_i psa2 pre hpath
    refine lays_bind (lays_nextCpSeid (lays_bind (lays_opens_basic ?_ ?_)))
    · intro resp est hest hfresh haddr
      simp only [hest]
      exact hok psa2 pre est _ hpath rfl hfresh haddr
    · intro resp hrefuses
      exact lays_unopened hrefuses fun _ => hrefused _ _ rfl

/-- The course of a session that is being established. -/
def freshCourse (path : SessionPath) (anchor : EstablishedSession) (ue : UeAddr)
    (chain : Option ChainedLeg) (an : Teid × Ipv4Addr) : Course where
  upSeid := anchor.upSeid
  n3Teid := an.1
  n3Addr := an.2
  chain
  path
  ue
  gnb := none
  indirectFwd := none

/-- What an established chain is. -/
structure ChainLaid (path : SessionPath) (anchor : EstablishedSession) (ue : UeAddr) (f : Fabric)
    (leg : ChainedLeg) (an : Teid × Ipv4Addr) (f' : Fabric) : Prop where
  spares : Spares [(path.anchor, anchor.upSeid)] f f'
  carries : f'.Carries (freshCourse path anchor ue (some leg) an)
  fresh : ∀ x ∈ legSessions (some leg) path, f.wires x = none

/-- Both anchors' downlinks go to the ingress of the leg. -/
theorem splice_lays {b : Option (String × EstablishedSession × IpPrefix)}
    {dlIngress : Teid × Ipv4Addr} {dnn : String}
    {Q : Except String (ChainedLeg × Teid × Ipv4Addr) → Core → Fabric → Prop}
    (ha : f.wires (path.anchor, anchor.upSeid) = some a)
    (hwhole : b = none → Q (.ok (⟨est.upSeid, dlIngress, none⟩, est.n3Teid, est.n3Addr)) c
      (f.set (path.anchor, anchor.upSeid) (some { a with downlink := some dlIngress })))
    (hsteered : ∀ psa2 est₂ pre, b = some (psa2, est₂, pre) → ∃ v : Wiring,
      f.wires (psa2, est₂.upSeid) = some v ∧ (psa2, est₂.upSeid) ≠ (path.anchor, anchor.upSeid) ∧
      Q (.ok (⟨est.upSeid, dlIngress, some est₂.upSeid⟩, est.n3Teid, est.n3Addr)) c
        ((f.set (path.anchor, anchor.upSeid) (some { a with downlink := some dlIngress })).set
          (psa2, est₂.upSeid) (some { v with downlink := some dlIngress }))) :
    Lays (splice path anchor est iupf b dlIngress dnn) Q c f := by
  refine lays_bind (lays_pointDownlinkAt ha ?_)
  cases b with
  | none => exact hwhole rfl
  | some b =>
    obtain ⟨psa2, est₂, pre⟩ := b
    obtain ⟨v, hv, hne, h⟩ := hsteered psa2 est₂ pre rfl
    exact lays_bind (lays_pointDownlinkAt ((Fabric.wires_set_of_ne _ _ hne).trans hv) h)

/-- The wiring of an intermediate session that has just been opened. -/
def legWiring (est : EstablishedSession) (ue : UeAddr) (peerTeid : Teid) (peerAddr : Ipv4Addr)
    (branches : List Pfcp.Branch) : Wiring :=
  { n3Teid := est.n3Teid, dlIngressTeid := est.dlIngress.map fun d => d.1, ue
    downlink := none, uplink := .toPeer peerTeid peerAddr, branches }

/-- An intermediate session is opened. -/
theorem lays_opens_viaPeer {peer : String} {cpSeid : Seid} {dnn : String} {peerTeid : Teid}
    {peerAddr : Ipv4Addr} {branches : List (FlowFilter × Egress)} (hlen : branches.length ≤ 1000)
    {Q : Option N4Response → Core → Fabric → Prop}
    (hok : ∀ resp est, resp.session = some est → f.wires (peer, est.upSeid) = none →
      est.n3Addr = f.addr peer → (∀ d, est.dlIngress = some d → d.2 = f.addr peer) →
      Q (some resp) c (f.set (peer, est.upSeid)
        (some (legWiring est ue peerTeid peerAddr (Pfcp.numbered branches)))))
    (hrefused : ∀ resp, (resp.bind fun r => r.session) = none → Q resp c f) :
    Lays (transact peer (.sessionEstablishmentViaPeer cpSeid ue dnn peerTeid peerAddr branches)) Q
      c f := by
  refine lays_opens rfl (fun resp est hest hfresh haddr hingress => ?_) hrefused
  rw [Pfcp.wires_sessionEstablishmentViaPeer cpSeid ue dnn _ _ peerTeid peerAddr hlen]
  refine hok resp est hest hfresh haddr fun d hd => ?_
  rw [hd, Option.map_some] at hingress
  split at hingress
  · exact Option.some_inj.mp hingress
  · cases hingress

/-- The two ends of a new chain. -/
theorem chained_fresh {addr : String → Ipv4Addr} {dlIngress : Teid × Ipv4Addr} {seid : Option Seid}
    {branches : List Pfcp.Branch} (haddr : anchor.n3Addr = addr path.anchor)
    (hn3 : est.n3Addr = addr iupf) (hdl : est.dlIngress = some dlIngress)
    (hingress : dlIngress.2 = addr iupf) :
    (freshCourse path anchor ue (some ⟨est.upSeid, dlIngress, seid⟩) (est.n3Teid, est.n3Addr)).Chained
      addr ⟨est.upSeid, dlIngress, seid⟩ iupf
      { toDataNetwork anchor ue with downlink := some dlIngress }
      (legWiring est ue anchor.n3Teid anchor.n3Addr branches) := by
  constructor
  · rfl
  · rfl
  · exact hn3
  · exact congrArg (Option.map fun d => d.1) hdl
  · exact hingress
  · rw [haddr]
    rfl
  · intro _ hg
    cases hg
  · exact fun _ => .inr ⟨rfl, rfl⟩

/-- A chain without a breakout, from the fabric before it. -/
theorem ChainLaid.whole {dlIngress : Teid × Ipv4Addr}
    (ha : f.wires (path.anchor, anchor.upSeid) = some (toDataNetwork anchor ue))
    (haddr : anchor.n3Addr = f.addr path.anchor) (hiupf : path.intermediate = some iupf)
    (hfresh : f.wires (iupf, est.upSeid) = none) (hn3 : est.n3Addr = f.addr iupf)
    (hdl : est.dlIngress = some dlIngress) (hingress : dlIngress.2 = f.addr iupf) :
    ChainLaid path anchor ue f ⟨est.upSeid, dlIngress, none⟩ (est.n3Teid, est.n3Addr)
      ((f.set (iupf, est.upSeid) (some (legWiring est ue anchor.n3Teid anchor.n3Addr []))).set
        (path.anchor, anchor.upSeid)
        (some { toDataNetwork anchor ue with downlink := some dlIngress })) := by
  have hne : (iupf, est.upSeid) ≠ (path.anchor, anchor.upSeid) := (Fabric.ne_of_wired ha hfresh).symm
  refine ⟨?_, ?_, ?_⟩
  · exact ((Spares.refl _ f).set (.inr hfresh) _).set (.inl List.mem_cons_self) _
  · refine ⟨?_, (fun _ hnone => by cases hnone), _, Fabric.wires_set_self _ _ _, ⟨rfl, rfl, rfl⟩, ?_⟩
    · simp [Course.sessions, Course.fixed, freshCourse, legSessions, hiupf, breakoutSession,
        Course.anchor, hne.symm]
    · refine .chained rfl hiupf ((Fabric.wires_set_of_ne _ _ hne).trans (Fabric.wires_set_self _ _ _))
        ?_ (.whole rfl rfl)
      exact chained_fresh haddr hn3 hdl hingress
  · intro x hx
    rcases (mem_legSessions hiupf).mp hx with rfl | hx
    · exact hfresh
    · cases hx

/-- And with one. -/
theorem ChainLaid.steered {dlIngress : Teid × Ipv4Addr} {est₂ : EstablishedSession} {psa2 : String}
    {pre : IpPrefix}
    (ha : f.wires (path.anchor, anchor.upSeid) = some (toDataNetwork anchor ue))
    (haddr : anchor.n3Addr = f.addr path.anchor) (hiupf : path.intermediate = some iupf)
    (hpath : path.breakout = some (psa2, pre)) (hfresh₂ : f.wires (psa2, est₂.upSeid) = none)
    (haddr₂ : est₂.n3Addr = f.addr psa2)
    (hfresh : (f.set (psa2, est₂.upSeid) (some (toDataNetwork est₂ ue))).wires (iupf, est.upSeid) = none)
    (hn3 : est.n3Addr = f.addr iupf) (hdl : est.dlIngress = some dlIngress)
    (hingress : dlIngress.2 = f.addr iupf) :
    ChainLaid path anchor ue f ⟨est.upSeid, dlIngress, some est₂.upSeid⟩ (est.n3Teid, est.n3Addr)
      ((((f.set (psa2, est₂.upSeid) (some (toDataNetwork est₂ ue))).set (iupf, est.upSeid)
        (some (legWiring est ue anchor.n3Teid anchor.n3Addr
          [(Pfcp.ULCL_PDR_BASE, FlowFilter.toPrefix pre, .toPeer est₂.n3Teid est₂.n3Addr)]))).set
        (path.anchor, anchor.upSeid)
        (some { toDataNetwork anchor ue with downlink := some dlIngress })).set (psa2, est₂.upSeid)
        (some { toDataNetwork est₂ ue with downlink := some dlIngress })) := by
  have hne₂ : (psa2, est₂.upSeid) ≠ (path.anchor, anchor.upSeid) := (Fabric.ne_of_wired ha hfresh₂).symm
  have hne₁ : (iupf, est.upSeid) ≠ (psa2, est₂.upSeid) :=
    (Fabric.ne_of_wired (Fabric.wires_set_self _ _ _) hfresh).symm
  rw [Fabric.wires_set_of_ne _ _ hne₁] at hfresh
  have hne : (iupf, est.upSeid) ≠ (path.anchor, anchor.upSeid) := (Fabric.ne_of_wired ha hfresh).symm
  refine ⟨?_, ?_, ?_⟩
  · exact ((((Spares.refl _ f).set (.inr hfresh₂) _).set (.inr hfresh) _).set
      (.inl List.mem_cons_self) _).set (.inr hfresh₂) _
  · refine ⟨?_, (fun _ hnone => by cases hnone), _,
      (Fabric.wires_set_of_ne _ _ hne₂.symm).trans (Fabric.wires_set_self _ _ _), ⟨rfl, rfl, rfl⟩, ?_⟩
    · simp [Course.sessions, Course.fixed, freshCourse, legSessions, hiupf, hpath, breakoutSession,
        Course.anchor, hne.symm, hne₁, hne₂.symm]
    · refine .chained rfl hiupf ((Fabric.wires_set_of_ne _ _ hne₁).trans
        ((Fabric.wires_set_of_ne _ _ hne).trans (Fabric.wires_set_self _ _ _))) ?_
        (.steered rfl hpath (Fabric.wires_set_self _ _ _) ⟨rfl, rfl, rfl⟩ ?_ fun _ _ => rfl)
      · exact chained_fresh haddr hn3 hdl hingress
      · rw [haddr₂]
        rfl
  · intro x hx
    rcases (mem_legSessions hiupf).mp hx with rfl | hx
    · exact hfresh
    · rw [hpath] at hx
      obtain rfl := List.mem_singleton.mp hx
      exact hfresh₂

theorem establishChain_lays {dnn : String}
    {Q : Except String (ChainedLeg × Teid × Ipv4Addr) → Core → Fabric → Prop}
    (ha : f.wires (path.anchor, anchor.upSeid) = some (toDataNetwork anchor ue))
    (haddr : anchor.n3Addr = f.addr path.anchor)
    (hok : ∀ leg an c' f', path.intermediate.isSome → c'.courses = c.courses →
      ChainLaid path anchor ue f leg an f' → Q (.ok (leg, an)) c' f')
    (hfail : ∀ e c' f', c'.courses = c.courses →
      Spares [(path.anchor, anchor.upSeid)] f f' → Q (.error e) c' f') :
    Lays (establishChain path anchor ue dnn) Q c f := by
  unfold establishChain
  split
  · exact hfail _ _ _ rfl (.refl _ f)
  · rename_i iupf hiupf
    have hsome : path.intermediate.isSome := by simp [hiupf]
    refine lays_bind (establishBreakout_lays (fun hpath => ?_) ?_ ?_)
    · refine lays_bind (lays_nextCpSeid (lays_bind (lays_opens_viaPeer (by simp [breakoutBranches])
        ?_ ?_)))
      · intro resp est hest hfresh hn3 hingress
        simp only [hest]
        cases hdl : est.dlIngress with
        | none => exact lays_abandonChain (hfail _ _ _ rfl ((Spares.refl _ f).set (.inr hfresh) _))
        | some dlIngress =>
          have hlaid := ChainLaid.whole ha haddr hiupf hfresh hn3 hdl (hingress _ hdl)
          have hne : (path.anchor, anchor.upSeid) ≠ (iupf, est.upSeid) := Fabric.ne_of_wired ha hfresh
          refine splice_lays ((Fabric.wires_set_of_ne _ _ hne).trans ha) (fun _ => ?_) ?_
          · exact hok _ _ _ _ hsome rfl hlaid
          · intro _ _ _ hnone
            cases hnone
      · intro resp hnone
        exact lays_unopened hnone fun _ => hfail _ _ _ rfl (.refl _ f)
    · intro psa2 pre est₂ c' hpath hc' hfresh₂ haddr₂
      have hspares := (Spares.refl [(path.anchor, anchor.upSeid)] f).set (.inr hfresh₂)
        (some (toDataNetwork est₂ ue))
      refine lays_bind (lays_nextCpSeid (lays_bind (lays_opens_viaPeer (by simp [breakoutBranches])
        ?_ ?_)))
      · intro resp est hest hfresh hn3 hingress
        have hne₂ : (psa2, est₂.upSeid) ≠ (path.anchor, anchor.upSeid) := (Fabric.ne_of_wired ha hfresh₂).symm
        have hne₁ : (iupf, est.upSeid) ≠ (psa2, est₂.upSeid) :=
          (Fabric.ne_of_wired (Fabric.wires_set_self _ _ _) hfresh).symm
        have hnew : f.wires (iupf, est.upSeid) = none := by
          rwa [Fabric.wires_set_of_ne _ _ hne₁] at hfresh
        simp only [hest]
        cases hdl : est.dlIngress with
        | none => exact lays_abandonChain (hfail _ _ _ hc' (hspares.set (.inr hnew) _))
        | some dlIngress =>
          have hlaid := ChainLaid.steered ha haddr hiupf hpath hfresh₂ haddr₂ hfresh hn3 hdl
            (hingress _ hdl)
          have hne : (path.anchor, anchor.upSeid) ≠ (iupf, est.upSeid) := Fabric.ne_of_wired ha hnew
          refine splice_lays (a := toDataNetwork anchor ue) ?_ (fun hnone => by cases hnone) ?_
          · rw [Fabric.wires_set_of_ne _ _ hne, Fabric.wires_set_of_ne _ _ hne₂.symm, ha]
          · rintro _ _ _ ⟨⟩
            refine ⟨toDataNetwork est₂ ue, ?_, hne₂, hok _ _ _ _ hsome hc' hlaid⟩
            rw [Fabric.wires_set_of_ne _ _ hne₁.symm, Fabric.wires_set_self]
      · intro resp hnone
        exact lays_unopened hnone fun _ => hfail _ _ _ hc' hspares
    · intro e c' hc'
      exact hfail _ _ _ hc' (.refl _ f)

/-- From before the anchor's session on, a chain adds sessions only. -/
theorem Spares.before {f' : Fabric} {x : String × Seid} {u : Wiring}
    (hfresh : f.wires x = none) (h : Spares [x] (f.set x (some u)) f') : Spares [] f f' := by
  refine ⟨h.addr, fun y _ hy => ?_⟩
  have hne : y ≠ x := by
    rintro rfl
    exact hy hfresh
  rw [h.wires y (by simpa using hne) (Fabric.wired_set _ hy _), Fabric.wires_set_of_ne _ _ hne]

theorem lays_refuse {β : Type} {Q : Except SbiProblem β → Core → Fabric → Prop} {gfbr : Gfbr}
    {lease : IpLease} {p : SbiProblem} (h : ∀ c', c'.courses = c.courses → Q (.error p) c' f) :
    Lays (refuse gfbr lease p) Q c f :=
  h _ (courses_of_contexts (drop_contexts lease gfbr c.smf))

/-- A refusal leaves what was laid, whatever new sessions there were. -/
theorem refuse_lays {β : Type} {c' : Core} {f' : Fabric} (h : Laid c.courses f)
    (hc' : c'.courses = c.courses) (hspares : Spares [] f f') (gfbr : Gfbr) (lease : IpLease)
    (p : SbiProblem) :
    Lays (refuse (β := β) gfbr lease p) (fun _ c f => Laid c.courses f) c' f' := by
  refine lays_refuse fun c'' hc'' => ?_
  rw [hc''.trans hc']
  exact h.spares hspares

/-- A session is up, with its chain if its path has one, and nothing else has changed. -/
structure Raised (path : SessionPath) (anchor : EstablishedSession) (ue : UeAddr) (f : Fabric)
    (chain : Option ChainedLeg) (an : Teid × Ipv4Addr) (f' : Fabric) : Prop where
  spares : Spares [] f f'
  carries : f'.Carries (freshCourse path anchor ue chain an)
  fresh : ∀ x ∈ (freshCourse path anchor ue chain an).sessions, f.wires x = none

theorem chainOrRollBack_lays {a : Admitted} {lease : IpLease}
    {Q : Except SbiProblem (EstablishedSession × Option ChainedLeg) → Core → Fabric → Prop}
    (hfresh : f.wires (a.path.anchor, est.upSeid) = none) (haddr : est.n3Addr = f.addr a.path.anchor)
    (hok : ∀ est' chain c' f', c'.courses = c.courses → est'.upSeid = est.upSeid →
      Raised a.path est ue f chain (est'.n3Teid, est'.n3Addr) f' → Q (.ok (est', chain)) c' f')
    (hfail : ∀ p c' f', c'.courses = c.courses → Spares [] f f' → Q (.error p) c' f') :
    Lays (chainOrRollBack a lease ue est) Q c
      (f.set (a.path.anchor, est.upSeid) (some (toDataNetwork est ue))) := by
  have hanchor : ∀ {chain an x}, x ∈ (freshCourse a.path est ue chain an).sessions →
      x = (a.path.anchor, est.upSeid) ∨ x ∈ legSessions chain a.path := by
    intro chain an x hx
    rcases Course.mem_sessions.mp hx with hx | hx | ⟨_, hnone, _⟩
    · exact .inl hx
    · exact .inr hx
    · cases hnone
  unfold chainOrRollBack
  split
  · refine lays_bind (establishChain_lays (Fabric.wires_set_self _ _ _) haddr ?_ ?_)
    · intro leg an c' f' _ hc' hlaid
      refine hok _ _ _ _ hc' rfl ⟨hlaid.spares.before hfresh, hlaid.carries, ?_⟩
      intro x hx
      rcases hanchor hx with rfl | hx
      · exact hfresh
      · have hnew := hlaid.fresh x hx
        by_contra hwired
        exact Fabric.wired_set _ hwired _ hnew
    · intro e c' f' hc' hspares
      refine lays_bind (lays_deletes fun _ => lays_refuse fun c'' hc'' => ?_)
      exact hfail _ _ _ (hc''.trans hc') ((hspares.before hfresh).set (.inr hfresh) _)
  · refine hok _ _ _ _ rfl rfl ⟨(Spares.refl _ f).set (.inr hfresh) _, ?_, ?_⟩
    · refine ⟨List.nodup_singleton _, (fun _ hnone => by cases hnone), _,
        Fabric.wires_set_self _ _ _, ⟨rfl, rfl, rfl⟩, .direct rfl ⟨rfl, haddr, rfl⟩⟩
    · intro x hx
      rcases hanchor hx with rfl | hx
      · exact hfresh
      · cases hx

end Chain

/-! ### Creation -/

section Create

variable {c : Core} {f f' : Fabric} {ctx : SmContext}

theorem storeContext_lays (h : Laid c.courses f) (a : Admitted) (hspares : Spares [] f f')
    (hcarries : f'.Carries ctx.course) (hfresh : ∀ x ∈ ctx.course.sessions, f.wires x = none) :
    Lays (storeContext a ctx) (fun _ c f => Laid c.courses f) c f' := by
  let c₁ : Core := { c with smf := { c.smf with contexts := c.smf.contexts.insert a.smRef ctx } }
  have hcourses : c₁.courses = Function.update c.courses a.smRef (some ctx.course) := by
    funext ref
    rw [Core.courses, Map.lookup_insert_eq, Function.update_apply]
    split <;> rfl
  have hlaid : Laid c₁.courses f' := by
    rw [hcourses]
    refine h.settle hspares (fun _ hx => by cases hx) _ ?_ ?_
    · rintro r ⟨⟩
      exact hcarries
    · rintro r ⟨⟩ x hx
      exact .inr (hfresh x hx)
  refine lays_bind (lays_mark _ (lays_bind ?_))
  refine lays_bind (lays_mono ?_ (reconcileInfluenceBreakout_lays hlaid a.smRef))
  exact fun _ _ _ h' => h'

/-- Relations between states that leave the courses alone. -/
theorem beside_courses : Beside (fun c c' : Core => c'.courses = c.courses) fun e => ¬ IsN4 e where
  smf _ _ h := courses_of_contexts (congrArg (fun s => s.contexts) h)
  calls _ he := he

theorem establishSession_lays (h : Laid c.courses f) (a : Admitted) (cpSeid : Seid)
    (ueIp : Option Ipv4Addr) (ueIpv6 : Option (Ipv6Addr × BitVec 64)) :
    Lays (establishSession a cpSeid ueIp ueIpv6) (fun _ c f => Laid c.courses f) c f := by
  refine lays_bind (lays_readSmf (lays_bind (lays_opens_basic ?_ ?_)))
  · intro resp est hest hfresh haddr
    simp only [hest]
    refine lays_bind (chainOrRollBack_lays hfresh haddr ?_ ?_)
    · intro est' chain c' f' hc' hsame hraised
      refine lays_bind (lays_stays (fun _ he => he) (stays_openCharging beside_courses a.req) ?_)
      intro charging c'' hc''
      have hcourse : (a.context cpSeid est' chain ueIp ueIpv6 charging).course =
          freshCourse a.path est ⟨ueIp, ueIpv6.map fun v6 => v6.1⟩ chain (est'.n3Teid, est'.n3Addr) := by
        simp only [SmContext.course, Admitted.context, freshCourse, hsame]
        rfl
      have hlaid : Laid c''.courses f := by
        rw [hc''.trans hc']
        exact h
      exact storeContext_lays hlaid a hraised.spares (hcourse ▸ hraised.carries)
        (hcourse ▸ hraised.fresh)
    · intro p c' f' hc' hspares
      show Laid c'.courses f'
      rw [hc']
      exact h.spares hspares
  · intro resp hnone
    cases resp with
    | none => exact refuse_lays h rfl (.refl _ f) _ _ _
    | some resp =>
      have hsession : resp.session = none := hnone
      simp only [hsession]
      exact refuse_lays h rfl (.refl _ f) _ _ _

/-- What only takes an address or a reservation. -/
theorem lays_onSmf {α : Type} {Q : α → Core → Fabric → Prop} {g : SmfState → α × SmfState}
    (hg : ∀ s, (g s).2.contexts = s.contexts) (h : ∀ a c', c'.courses = c.courses → Q a c' f) :
    Lays (onSmf g) Q c f :=
  h _ _ (courses_of_contexts (hg c.smf))

theorem leaseAndEstablish_lays (h : Laid c.courses f) (a : Admitted) :
    Lays (leaseAndEstablish a) (fun _ c f => Laid c.courses f) c f := by
  have hkept : ∀ {c' : Core}, c'.courses = c.courses → Laid c'.courses f := fun hc' => hc' ▸ h
  have hv4 : ∀ {c' : Core} {Q : Option (Option Ipv4Addr) → Core → Fabric → Prop},
      (∀ r c'', c''.courses = c'.courses → Q r c'' f) → Lays (leaseIpv4 a.selectedType) Q c' f := by
    intro c' Q hQ
    unfold leaseIpv4
    split
    · exact lays_bind (lays_onSmf (fun _ => rfl) fun _ _ hc'' => hQ _ _ hc'')
    · exact hQ _ _ rfl
  have hv6 : ∀ {c' : Core} {Q : Option (Option (Ipv6Addr × BitVec 64)) → Core → Fabric → Prop},
      (∀ r c'', c''.courses = c'.courses → Q r c'' f) → Lays (leaseIpv6 a.selectedType) Q c' f := by
    intro c' Q hQ
    unfold leaseIpv6
    split
    · exact lays_bind (lays_onSmf (fun _ => rfl) fun _ _ hc'' => hQ _ _ hc'')
    · exact hQ _ _ rfl
  refine lays_bind (lays_nextCpSeid (lays_bind (hv4 fun v4 c' hc' => ?_)))
  cases v4 with
  | none => exact refuse_lays h hc' (.refl _ f) _ _ _
  | some ueIp =>
    refine lays_bind (hv6 fun v6 c'' hc'' => ?_)
    cases v6 with
    | none => exact refuse_lays h (hc''.trans hc') (.refl _ f) _ _ _
    | some ueIpv6 => exact establishSession_lays (hkept (hc''.trans hc')) a _ _ _

theorem admitSession_lays (h : Laid c.courses f) (req : SmContextCreateData)
    (sub : SessionSubscription) :
    Lays (admitSession req sub) (fun _ c f => Laid c.courses f) c f := by
  refine lays_bind (lays_bind ?_)
  refine lays_bind (lays_stays (fun _ he => he) (stays_fetchSmPolicy beside_courses _) ?_)
  intro created c' hc'
  refine lays_bind (lays_mark _ (lays_bind (lays_onSmf (fun s => tryReserveGfbr_contexts s _) ?_)))
  intro reserved c'' hc''
  have hlaid : Laid c''.courses f := by
    rw [hc''.trans hc']
    exact h
  split
  · refine lays_bind (lays_readSmf ?_)
    split
    · exact refuse_lays hlaid rfl (.refl _ f) _ _ _
    · exact leaseAndEstablish_lays hlaid _
  · exact hlaid

theorem createSmContext_lays (h : Laid c.courses f) (req : SmContextCreateData) :
    Lays (createSmContext req) (fun _ c f => Laid c.courses f) c f := by
  unfold createSmContext
  split
  · exact h
  · split
    · exact h
    · refine lays_bind (lays_ask id fun answer => ?_)
      cases answer with
      | error p => exact h
      | ok sub => exact admitSession_lays h req sub

end Create

/-! ### Release, recovery and refresh -/

section Release

variable {c : Core} {f : Fabric} {smRef : String} {ctx : SmContext}

theorem deleteLegs_lays {xs : List (String × Seid)} {f₀ : Fabric}
    {Q : Unit → Core → Fabric → Prop} (chain : Option ChainedLeg) (path : SessionPath)
    (hspares : Spares xs f₀ f) (hlegs : ∀ x ∈ legSessions chain path, x ∈ xs)
    (h : ∀ f', Spares xs f₀ f' → Q () c f') : Lays (deleteLegs chain path) Q c f := by
  obtain ⟨anchor, intermediate, breakout⟩ := path
  cases chain with
  | none => exact h f hspares
  | some leg =>
    obtain ⟨upSeid, dlIngress, breakoutSeid⟩ := leg
    cases intermediate with
    | none => exact h f hspares
    | some iupf =>
      have hleg := hspares.set (.inl (hlegs (iupf, upSeid) List.mem_cons_self)) none
      refine lays_bind (lays_accepted_delete fun _ => ?_)
      cases breakoutSeid with
      | none => exact h _ hleg
      | some seid =>
        cases breakout with
        | none => exact h _ hleg
        | some b =>
          refine lays_bind (lays_accepted_delete fun _ => h _ (hleg.set (.inl ?_) none))
          exact hlegs _ (List.mem_cons_of_mem _ List.mem_cons_self)

theorem teardownSmContext_lays (h : Laid c.courses f) (smRef : String) :
    Lays (teardownSmContext smRef) (fun _ c f => Laid c.courses f) c f := by
  refine lays_bind (lays_readSmf ?_)
  cases hctx : c.smf.contexts.lookup smRef with
  | none => exact h
  | some ctx =>
    refine lays_bind (lays_deletes fun resp => lays_bind ?_)
    have hanchor := (Spares.refl ctx.course.sessions f).set (.inl Course.anchor_mem) none
    refine deleteLegs_lays ctx.chain ctx.path hanchor ?_ fun f' hspares => ?_
    · exact fun x hx => Course.mem_sessions.mpr (.inr (.inl hx))
    · refine lays_bind (lays_bind (lays_mark _ (lays_bind ?_)))
      let c₁ : Core := { c with
        smf := reclaim ctx { c.smf with contexts := c.smf.contexts.erase smRef } }
      have hcourses : c₁.courses = Function.update c.courses smRef none := by
        funext ref
        rw [Core.courses, reclaim_contexts, Map.lookup_erase_eq, Function.update_apply]
        split <;> rfl
      have hlaid : Laid c₁.courses f' := by
        rw [hcourses]
        refine h.settle hspares (fun x hx => ⟨_, courses_lookup hctx, hx⟩) _ ?_ ?_
        · intro _ hnone
          cases hnone
        · intro _ hnone
          cases hnone
      exact hlaid

theorem recoverFromUpfRestart_lays (h : Laid c.courses f) (peer : String) :
    Lays (recoverFromUpfRestart peer) (fun _ c f => Laid c.courses f) c f := by
  refine lays_bind (lays_ask id fun _ => lays_bind (lays_mark _ ?_))
  refine h.restrict fun ref r hr => ?_
  obtain ⟨ctx, hctx, rfl⟩ := Option.map_eq_some_iff.mp hr
  have hkept : (dropAffected peer c).smf.contexts =
      (c.smf.contexts.partition fun ctx => ctx.path.uses peer).2 := by
    unfold dropAffected
    dsimp only
    rw [Ledger.foldl_reclaim_contexts]
  rw [hkept] at hctx
  exact courses_lookup (Map.lookup_partition.mp hctx).1

/-! #### Refresh -/

theorem lays_accepted_unseen {peer : String} {req : N4Request} {Q : Bool → Core → Fabric → Prop}
    (hopens : req.opens = false) (hdeletes : req.deletes = none) (hsame : ∀ u, req.rewire u = u)
    (h : ∀ b, Q b c f) : Lays (accepted peer req) Q c f :=
  lays_bind (lays_unseen hopens hdeletes hsame fun _ => h _)

theorem propagateAmbr_lays {Q : Unit → Core → Fabric → Prop} (ctx : SmContext)
    (decision : SmPolicyDecision) (h : Q () c f) : Lays (propagateAmbr ctx decision) Q c f := by
  unfold propagateAmbr
  split
  · split
    · exact lays_bind (lays_accepted_unseen rfl rfl (fun _ => rfl) fun _ => h)
    · exact h
  · exact h

theorem propagateFlows_lays {Q : Unit → Core → Fabric → Prop} (ctx : SmContext)
    (decision : SmPolicyDecision) (h : Q () c f) : Lays (propagateFlows ctx decision) Q c f := by
  unfold propagateFlows
  dsimp only
  split
  · exact lays_bind (lays_accepted_unseen rfl rfl (fun _ => rfl) fun _ => h)
  · exact h

theorem refreshSmPolicy_lays (h : Laid c.courses f) (smRef : String) :
    Lays (refreshSmPolicy smRef) (fun _ c f => Laid c.courses f) c f := by
  refine lays_bind (lays_readSmf ?_)
  split
  · exact h
  · rename_i ctx hctx
    split
    · exact h
    · rename_i base policyId hpolicy
      have hasked := stays_overHttp beside_courses "PCF"
        (stays_updateSmPolicy beside_courses policyId ctx.policy)
      refine lays_bind (lays_stays (fun _ he => he) hasked ?_)
      intro r c' hc'
      have h' : Laid c'.courses f := hc' ▸ h
      cases r with
      | error e => exact fun _ => h'
      | ok answer =>
        obtain ⟨number, update⟩ := answer
        refine lays_bind (propagateAmbr_lays _ _ ?_)
        refine lays_bind (propagateFlows_lays _ _ ?_)
        refine lays_bind (lays_mark _ (lays_bind ?_))
        let c₁ : Core := { c' with
          smf := storeDecision smRef (ctx.policy.apply update) c'.smf }
        have hsame : c₁.courses = c'.courses :=
          courses_modify_same (storeDecision_contexts smRef _ c'.smf) fun _ => rfl
        have hlaid : Laid c₁.courses f := hsame ▸ h'
        refine lays_bind (lays_mono ?_ (reconcileInfluenceBreakout_lays hlaid smRef))
        exact fun _ _ _ h'' => h''

theorem handleUsageReport_lays (h : Laid c.courses f) (cpSeid : Seid) (usage : Pfcp.UsageVolume) :
    Lays (handleUsageReport cpSeid usage) (fun _ c f => Laid c.courses f) c f := by
  refine lays_bind (lays_readSmf ?_)
  split
  · exact h
  · rename_i smRef ctx hfound
    refine lays_bind (lays_ask id fun _ => ?_)
    split
    · exact h
    · refine lays_bind (lays_ask id fun answer => ?_)
      split
      · split
        · exact lays_bind (lays_mono (fun _ _ _ h => h) (teardownSmContext_lays h smRef))
        · exact h
      · exact h

end Release

/-! ### All handlers -/

theorem handle_lays (req : Request) {c : Core} {f : Fabric} (h : Laid c.courses f) :
    Lays (handle req) (fun _ c f => Laid c.courses f) c f := by
  cases req with
  | create req => exact lays_bind (createSmContext_lays h req)
  | update smRef req => exact lays_bind (updateSmContext_lays h smRef req)
  | indirectForwarding smRef req => exact lays_bind (indirectForwarding_lays h smRef req)
  | breakout req => exact lays_bind (oamBreakout_lays h req)
  | refresh smRef => exact lays_bind (refreshSmPolicy_lays h smRef)
  | release smRef => exact lays_bind (teardownSmContext_lays h smRef)
  | usageReport cpSeid usage => exact handleUsageReport_lays h cpSeid usage
  | recover peer => exact recoverFromUpfRestart_lays h peer
  | job i =>
    refine lays_stays (fun _ he => he) (stays_runJob beside_courses i) fun _ c' hc' => ?_
    rw [hc']
    exact h

/-! ### Runs -/

/-- What the SMF's operations, one after another, make of its state and of the UPFs, each of which
answers every request and between two operations does whatever else it is asked to. -/
abbrev SmfConfig.Runs {D : Type} (cfg : SmfConfig) (codec : Pfcp.Codec D) (smfIp : Ipv4Addr)
    (stamp : Nat → Nat × Nat) : Nodes → Core → Nodes → Prop :=
  Serial (Nodes.answering smfIp stamp) (fun _ _ _ _ => True) handle (Elsewhere codec smfIp) ()
    cfg.start

/-- The UPFs stay at their addresses. -/
theorem SmfConfig.Runs.addr {D : Type} {cfg : SmfConfig} {codec : Pfcp.Codec D} {smfIp : Ipv4Addr}
    {stamp : Nat → Nat × Nat} {w₀ w : Nodes} {c : Core} (h : cfg.Runs codec smfIp stamp w₀ c w) :
    w.addr = w₀.addr := by
  apply Serial.view_eq _ _ _ h
  · intro e r w
    cases e <;> rfl
  · exact fun _ _ _ _ => rfl
  · rintro _ _ ⟨_, _, _, rfl⟩
    rfl

/-- **Every path is laid**, after any operations in any order, at UPFs that have anything else to do. -/
theorem paths_laid {D : Type} (cfg : SmfConfig) (codec : Pfcp.Codec D) (smfIp : Ipv4Addr)
    (stamp : Nat → Nat × Nat) {w₀ w : Nodes} {c : Core}
    (h : cfg.Runs codec smfIp stamp w₀ c w) : Laid c.courses (w.fabric smfIp) := by
  have hseen : Serial Fabric.outside (fun _ _ _ _ => True) handle (fun f f' => f' = f) () cfg.start
      (w₀.fabric smfIp) c (w.fabric smfIp) :=
    Serial.refine (answering_refines smfIp stamp) (fun _ _ _ _ _ => trivial) fabric_elsewhere h
  refine Serial.invariant (I := fun c f => Laid c.courses f) (fun q _ _ hI => handle_lays q hI) ?_
    hseen ?_
  · rintro c f _ hI rfl
    exact hI
  · have hnone : ∀ smRef, cfg.start.courses smRef = none := fun _ => rfl
    constructor
    · intro smRef r hr
      cases (hnone smRef).symm.trans hr
    · intro smRef _ r _ hr
      cases (hnone smRef).symm.trans hr

/-- Two UPFs at their own addresses. -/
def twoSites : Nodes :=
  { addr := fun name =>
      if name = "anchor" then 0x0A000004 else if name = "i-upf" then 0x0A000005 else 0
    upf := fun _ => .withRecoveryTime 0
    sent := 0 }

def chainedUpf : SmfConfig :=
  { peers := ["i-upf", "anchor"], routing := .fixed "anchor" (some "i-upf") none }

/-- A session is established and its gNB connected. -/
def connected : List Request :=
  [.create sampleCreate,
    .update "1" { gnbN3Teid := some "5", gnbN3Addr := some 0x0A000002, upCnxState := none }]

/-- What that makes of the SMF and the UPFs. -/
def afterConnected : Option (Core × Nodes) :=
  Proc.attemptAll (Nodes.answering 0x0A000001 fun n => (n, 0)) (fun _ _ _ _ => True) nodeAnswers
    handle () connected chainedUpf.start twoSites

theorem runs_connected {c : Core} {w : Nodes} (h : afterConnected = some (c, w)) :
    chainedUpf.Runs Pfcp.Codec.direct 0x0A000001 (fun n => (n, 0)) twoSites c w :=
  Proc.serial_attemptAll h

theorem paths_laid_connected :
    ∃ c w, chainedUpf.Runs Pfcp.Codec.direct 0x0A000001 (fun n => (n, 0)) twoSites c w ∧
      (c.courses "1").map Course.gnb = some (some (5, 0x0A000002)) ∧
      Laid c.courses (w.fabric 0x0A000001) := by
  have hrun : afterConnected.map (fun p => (p.1.courses "1").map Course.gnb) =
      some (some (some (5, 0x0A000002))) := by
    decide +kernel
  obtain ⟨⟨c, w⟩, hp, hview⟩ := Option.map_eq_some_iff.mp hrun
  exact ⟨c, w, runs_connected hp, hview,
    paths_laid chainedUpf Pfcp.Codec.direct 0x0A000001 (fun n => (n, 0)) (runs_connected hp)⟩

end Radian.Smf
