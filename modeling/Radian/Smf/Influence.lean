import Radian.Proc.Serial
import Radian.Smf.Ledger
import Radian.Smf.Wiring

/-!
# AF influence

A session's breakout at the SMF, at its intermediate UPF and at the breakout anchor, against the
route its policy asks for.

- `BreakoutIs` — the one breakout a session has, on record and installed.
- `reconcile_settles` — where reconciling leads from every breakout a policy owns.
- `reconcile_installs_iff` — when that is the route asked for.
-/

namespace Radian.Smf

open Proc (before Exec)
open Npcf (SmPolicyDecision)
open Pfcp (Seid IpPrefix UeAddr Session FlowFilter Egress N4Request Ipv4Addr)

/-! ### Branches of a session at its UPF -/

section Branches

theorem branchId_breakout : Pfcp.branchId midSessionBreakoutIndex = Pfcp.ULCL_PDR_BASE := rfl

variable {t : Session} {upSeid : Seid} {seq nowNanos : Nat}

/-- The first branch of a session. -/
theorem branches_addBranch (filter : FlowFilter) (egress : Egress) (dnn : String)
    (h : t.branches = []) :
    (t.modify (Pfcp.sessionModificationAddBranch upSeid seq midSessionBreakoutIndex filter egress
      dnn) nowNanos).branches = [(Pfcp.ULCL_PDR_BASE, filter, egress)] := by
  have hwiring := Pfcp.wiring_modify (Pfcp.sessionModificationAddBranch upSeid seq midSessionBreakoutIndex
    filter egress dnn) nowNanos t
  rw [Pfcp.changes_sessionModificationAddBranch, if_pos branchId_breakout.ge] at hwiring
  simp only [Session.wiring, h] at hwiring
  exact congrArg Pfcp.Wiring.branches hwiring

/-- Its last one. -/
theorem branches_removeBranch {b : FlowFilter × Egress}
    (h : t.branches = [(Pfcp.ULCL_PDR_BASE, b)]) :
    (t.modify (Pfcp.sessionModificationRemoveBranch upSeid seq midSessionBreakoutIndex)
      nowNanos).branches = [] := by
  have hwiring := Pfcp.wiring_modify (Pfcp.sessionModificationRemoveBranch upSeid seq
    midSessionBreakoutIndex) nowNanos t
  rw [Pfcp.changes_sessionModificationRemoveBranch, if_pos branchId_breakout.ge] at hwiring
  simp only [Session.wiring, h] at hwiring
  exact congrArg Pfcp.Wiring.branches hwiring

end Branches

/-! ### The breakout of a session -/

/-- A breakout anchor's node and the prefix steered to it. -/
abbrev BreakoutRoute : Type := String × IpPrefix

/-- A breakout installed: a branch at the classifier, toward a session at the anchor. -/
structure Installed (w : Nodes) (leg : ChainedLeg) (iupf : String) (t : Session)
    (route : BreakoutRoute) (seid : Seid) (u : Session) : Prop where
  recorded : leg.breakoutSeid = some seid
  apart : (route.1, seid) ≠ (iupf, leg.upSeid)
  anchored : w.session (route.1, seid) = some u
  branch : t.branches =
    [(Pfcp.ULCL_PDR_BASE, FlowFilter.toPrefix route.2, .toPeer u.n3Teid (w.addr route.1))]

/-- At the classifier there is a branch for this breakout and no other. -/
def BranchesTo (w : Nodes) (leg : ChainedLeg) (iupf : String) (t : Session) :
    Option BreakoutRoute → Prop
  | none => leg.breakoutSeid = none ∧ t.branches = []
  | some route => ∃ seid u, Installed w leg iupf t route seid u

/-- The breakout a chained session has, on record and at the UPFs. -/
structure BreakoutIs (w : Nodes) (c : SmContext) (route : Option BreakoutRoute) : Prop where
  recorded : c.path.breakout = route
  installed : ∃ leg iupf t, c.chain = some leg ∧ c.path.intermediate = some iupf ∧
    w.session (iupf, leg.upSeid) = some t ∧ BranchesTo w leg iupf t route

/-- The route a decision asks for, when its prefix is one and its node is connected. -/
def askedRoute (s : SmfState) (d : SmPolicyDecision) : Option (Option BreakoutRoute) :=
  match d.influenceRoute with
  | none => some none
  | some (pre, dnai) => do
      let pre ← IpPrefix.fromStr pre
      let via ← (s.nodeForDnai dnai).bind s.peerByName
      return some (via, pre)

/-- Where reconciling leads: a breakout that is there is only ever withdrawn. -/
def settles (old : Option BreakoutRoute) (asked : Option (Option BreakoutRoute)) :
    Option BreakoutRoute :=
  match old, asked with
  | none, asked => asked.join
  | some _, some none => none
  | some old, _ => some old

/-! ### What the handlers do -/

section Handlers

variable {smfIp : Ipv4Addr} {stamp : Nat → Nat × Nat} {core : Core} {w : Nodes} {smRef : String}
  {leg : ChainedLeg} {iupf : String} {t : Session} {ue : UeAddr} {dnn : String}

/-- An insertion with every request accepted. -/
theorem before_insertBreakout {routePrefix via node : String} {pre : IpPrefix}
    (hleg : leg.breakoutSeid = none) (hpre : IpPrefix.fromStr routePrefix = some pre)
    (hvia : core.smf.peerByName via = some node) (ht : w.session (iupf, leg.upSeid) = some t)
    (hbranches : t.branches = []) :
    before (Nodes.accepting smfIp stamp) (fun _ _ _ _ => True)
      (insertBreakout smRef leg iupf ue dnn routePrefix via)
      (fun r _ core' w' => r.isSuccess = true ∧ ∃ seid u t',
        Installed w' { leg with breakoutSeid := some seid } iupf t' (node, pre) seid u ∧
        w'.session (iupf, leg.upSeid) = some t' ∧
        core'.smf.contexts = core.smf.contexts.modify smRef fun c =>
          { c with
            chain := c.chain.map fun l => { l with breakoutSeid := some seid }
            path := { c.path with breakout := some (node, pre) } }) () core w := by
  unfold insertBreakout
  simp only [hleg, Option.isSome_none, Bool.false_eq_true, if_false, hpre, Proc.wp_bind,
    wp_readSmf, hvia, wp_nextCpSeid, wp_establish]
  -- the anchor's session
  rw [Nodes.call_transact]
  intro hestablished
  obtain ⟨u, est, hest, hteid, haddr, hfresh, hsessions⟩ :=
    Nodes.session_establishment rfl rfl hestablished
  generalize hw1 : (w.exchange smfIp stamp node _).2 = w1 at hsessions ⊢
  simp only [hest, Proc.wp_bind, pointDownlinkAt, wp_transact]
  -- its downlink, back to the classifier
  rw [Nodes.call_transact]
  intro hpointed
  have hown : w1.session (node, est.upSeid) = some u := by rw [hsessions, if_pos rfl]
  have hmodified := Nodes.session_modification rfl rfl hpointed hown
  generalize hw2 : (w1.exchange smfIp stamp node _).2 = w2 at hmodified ⊢
  obtain ⟨r, hr, haccepts⟩ := (Option.any_eq_true _ _).mp hpointed
  simp only [hr, haccepts, if_true, Proc.wp_pure, Proc.wp_bind, wp_accepted]
  -- the branch at the classifier
  rw [Nodes.call_transact]
  intro hadded
  have hapart : (iupf, leg.upSeid) ≠ (node, est.upSeid) := by
    intro hsame
    rw [hsame, hfresh] at ht
    exact absurd ht (by simp)
  have ht2 : w2.session (iupf, leg.upSeid) = some t := by
    rw [hmodified, if_neg hapart, hsessions, if_neg hapart, ht]
  have hbranched := Nodes.session_modification rfl rfl hadded ht2
  obtain ⟨r', hr', haccepts'⟩ := (Option.any_eq_true _ _).mp hadded
  simp only [hr', haccepts', Option.map_some, beq_self_eq_true, if_true, Proc.wp_bind,
    wp_updateContext, Proc.wp_pure]
  have hclassifier := (hbranched (iupf, leg.upSeid)).trans (if_pos rfl)
  have hanchor := (hbranched (node, est.upSeid)).trans (if_neg hapart.symm)
  rw [hmodified, if_pos rfl] at hanchor
  refine ⟨rfl, est.upSeid, _, _, ⟨rfl, hapart.symm, hanchor, ?_⟩, hclassifier, rfl⟩
  have hnode : w2.addr node = est.n3Addr := by
    rw [haddr, ← hw2, ← hw1, Nodes.addr_exchange, Nodes.addr_exchange]
  rw [Pfcp.n3Teid_modify, ← hteid, Nodes.addr_exchange, hnode]
  exact branches_addBranch _ _ _ hbranches

/-- A removal with every request accepted. -/
theorem before_removeBreakout {path : SessionPath} {route : BreakoutRoute} {seid : Seid}
    {u : Session} (ht : w.session (iupf, leg.upSeid) = some t)
    (hinstalled : Installed w leg iupf t route seid u) (hpath : path.breakout = some route) :
    before (Nodes.accepting smfIp stamp) (fun _ _ _ _ => True)
      (removeBreakout smRef leg iupf path)
      (fun r _ core' w' => r.isSuccess = true ∧ ∃ t', w'.session (iupf, leg.upSeid) = some t' ∧
        t'.branches = [] ∧
        core'.smf.contexts = core.smf.contexts.modify smRef fun c =>
          { c with
            chain := c.chain.map fun l => { l with breakoutSeid := none }
            path := { c.path with breakout := none } }) () core w := by
  unfold removeBreakout
  simp only [hinstalled.recorded, hpath, Proc.wp_bind, wp_accepted]
  rw [Nodes.call_transact]
  intro hremoved
  have hbranch := Nodes.session_modification rfl rfl hremoved ht
  obtain ⟨r, hr, haccepts⟩ := (Option.any_eq_true _ _).mp hremoved
  simp only [hr, haccepts, Option.map_some, beq_self_eq_true, if_true, Proc.wp_bind, wp_accepted]
  -- the anchor's session is another one
  rw [Nodes.call_transact]
  intro _
  have hclassifier := (hbranch (iupf, leg.upSeid)).trans (if_pos rfl)
  exact ⟨rfl, _, (Nodes.session_deletion hinstalled.apart.symm).trans hclassifier,
    branches_removeBranch hinstalled.branch, rfl⟩

end Handlers

/-! ### Reconciling -/

theorem lookup_modify_modify {contexts : Npcf.HashMap SmContext} {smRef : String} {c : SmContext}
    (hc : contexts.lookup smRef = some c) (f g : SmContext → SmContext) :
    ((contexts.modify smRef f).modify smRef g).lookup smRef = some (g (f c)) := by
  rw [Keyed.Map.lookup_modify, if_pos rfl, Keyed.Map.lookup_modify, if_pos rfl, hc]
  rfl

/-- Reconciling settles the breakout. -/
theorem reconcile_settles {smfIp : Ipv4Addr} {stamp : Nat → Nat × Nat} {core core' : Core}
    {w w' : Nodes} {smRef : String} {c : SmContext} {old : Option BreakoutRoute}
    (hc : core.smf.contexts.lookup smRef = some c)
    (hroute : core.smf.dnnHasConfigRoute c.dnn = false) (hold : BreakoutIs w c old)
    (howned : old.isSome → c.policyBreakout = true)
    (hresolves : ∀ pre dnai, c.policy.influenceRoute = some (pre, dnai) →
      ((core.smf.nodeForDnai dnai).bind core.smf.peerByName).isSome)
    (hexec : Exec (Nodes.accepting smfIp stamp) (fun _ _ _ _ => True)
      (reconcileInfluenceBreakout smRef) () core w () () core' w') :
    ∃ c', core'.smf.contexts.lookup smRef = some c' ∧
      BreakoutIs w' c' (settles old (askedRoute core.smf c.policy)) := by
  apply hexec.sound (Q := fun _ _ core' w' => ∃ c', core'.smf.contexts.lookup smRef = some c' ∧
    BreakoutIs w' c' (settles old (askedRoute core.smf c.policy)))
  obtain ⟨hrecorded, leg, iupf, t, hchain, hiupf, ht, hinstalled⟩ := hold
  unfold reconcileInfluenceBreakout
  simp only [Proc.wp_bind, wp_readSmf, hc, hchain, hiupf, hroute, Bool.false_eq_true, if_false]
  rcases hasked : c.policy.influenceRoute with _ | ⟨routePrefix, dnai⟩
  · have hsettled : settles old (askedRoute core.smf c.policy) = none := by
      rw [askedRoute, hasked]
      cases old <;> rfl
    rw [hsettled]
    rcases old with _ | route
    · -- there is none and none is asked for
      obtain ⟨hnone, hbranches⟩ := hinstalled
      simp only [hnone, Option.isSome_none, Proc.wp_pure]
      exact ⟨c, hc, hrecorded, leg, iupf, t, hchain, hiupf, ht, hnone, hbranches⟩
    · obtain ⟨seid, u, hinstalled⟩ := hinstalled
      simp only [hinstalled.recorded, Option.isSome_some, howned rfl, if_true, Proc.wp_bind]
      apply Proc.before_mono _ (before_removeBreakout ht hinstalled hrecorded)
      rintro r _ core' w' ⟨hsuccess, t', ht', hbranches, hcontexts⟩
      simp only [hsuccess, if_true, wp_updateContext, hcontexts, lookup_modify_modify hc]
      refine ⟨_, rfl, rfl, { leg with breakoutSeid := none }, iupf, t', ?_, hiupf, ht', rfl,
        hbranches⟩
      rw [hchain]
      rfl
  · have hsome := hresolves routePrefix dnai hasked
    obtain ⟨node, hnode⟩ := Option.isSome_iff_exists.mp hsome
    obtain ⟨via, hvia, hpeer⟩ := Option.bind_eq_some_iff.mp hnode
    have hroute : askedRoute core.smf c.policy =
        (IpPrefix.fromStr routePrefix).map fun pre => some (node, pre) := by
      rcases hpre : IpPrefix.fromStr routePrefix with _ | pre <;> simp [askedRoute, hasked, hpre, hnode]
    rcases old with _ | route
    · obtain ⟨hnone, hbranches⟩ := hinstalled
      simp only [hnone, Option.isSome_none, Proc.wp_bind, wp_readSmf, hvia]
      rcases hpre : IpPrefix.fromStr routePrefix with _ | pre
      · -- what is no prefix is turned down
        have hsettled : settles none (askedRoute core.smf c.policy) = none := by
          rw [hroute, hpre]
          rfl
        rw [hsettled]
        simp only [insertBreakout, hnone, Option.isSome_none, Bool.false_eq_true, if_false, hpre,
          Proc.wp_pure]
        exact ⟨c, hc, hrecorded, leg, iupf, t, hchain, hiupf, ht, hnone, hbranches⟩
      · apply Proc.before_mono _ (before_insertBreakout hnone hpre hpeer ht hbranches)
        rintro r _ core' w' ⟨hsuccess, seid, u, t', hinstalled, ht', hcontexts⟩
        simp only [hsuccess, if_true, wp_updateContext, hcontexts, lookup_modify_modify hc]
        have hsettled : settles none (askedRoute core.smf c.policy) = some (node, pre) := by
          rw [hroute, hpre]
          rfl
        rw [hsettled]
        refine ⟨_, rfl, rfl, { leg with breakoutSeid := some seid }, iupf, t', ?_, hiupf, ht', seid,
          u, hinstalled⟩
        rw [hchain]
        rfl
    · -- a breakout that is there stays
      obtain ⟨seid, u, hthere⟩ := hinstalled
      have hsettled : settles (some route) (askedRoute core.smf c.policy) = some route := by
        rw [hroute]
        cases IpPrefix.fromStr routePrefix <;> rfl
      rw [hsettled]
      simp only [hthere.recorded, Option.isSome_some, Proc.wp_pure]
      exact ⟨c, hc, hrecorded, leg, iupf, t, hchain, hiupf, ht, seid, u, hthere⟩

/-- A policy's breakout ends up as the decision asks exactly when none has to move. -/
theorem reconcile_installs_iff (smfIp : Ipv4Addr) (stamp : Nat → Nat × Nat) (core core' : Core)
    (w w' : Nodes) (smRef : String) (c : SmContext) (old : Option BreakoutRoute)
    (hc : core.smf.contexts.lookup smRef = some c)
    (hroute : core.smf.dnnHasConfigRoute c.dnn = false) (hold : BreakoutIs w c old)
    (howned : old.isSome → c.policyBreakout = true)
    (hresolves : ∀ pre dnai, c.policy.influenceRoute = some (pre, dnai) →
      ((core.smf.nodeForDnai dnai).bind core.smf.peerByName).isSome)
    (hexec : Exec (Nodes.accepting smfIp stamp) (fun _ _ _ _ => True)
      (reconcileInfluenceBreakout smRef) () core w () () core' w') :
    (∃ c' route, core'.smf.contexts.lookup smRef = some c' ∧
        askedRoute core.smf c.policy = some route ∧ BreakoutIs w' c' route) ↔
      ∃ route, askedRoute core.smf c.policy = some route ∧
        (old = none ∨ route = none ∨ old = route) := by
  obtain ⟨c', hc', hsettled⟩ := reconcile_settles hc hroute hold howned hresolves hexec
  constructor
  · rintro ⟨c'', route, hc'', hasked, hinstalled⟩
    obtain rfl := Option.mem_unique hc' hc''
    have hsame : settles old (askedRoute core.smf c.policy) = route :=
      hsettled.recorded.symm.trans hinstalled.recorded
    rw [hasked] at hsame
    refine ⟨route, hasked, ?_⟩
    rcases old with _ | o
    · exact Or.inl rfl
    · rcases route with _ | r
      · exact Or.inr (Or.inl rfl)
      · exact Or.inr (Or.inr hsame)
  · rintro ⟨route, hasked, hcondition⟩
    refine ⟨c', route, hc', hasked, ?_⟩
    have hsame : settles old (askedRoute core.smf c.policy) = route := by
      rw [hasked]
      rcases hcondition with rfl | rfl | rfl
      · rfl
      · cases old <;> rfl
      · cases old <;> rfl
    rw [hsame] at hsettled
    exact hsettled

/-! #### A chained session -/

/-- Two DNAIs, each with a node of its own. -/
def edges : Topology :=
  { pathForDnn := fun _ => some ["i-upf", "anchor"]
    breakoutForDnn := fun _ => none
    nodeForDnai := fun dnai =>
      if dnai = "dnai-a" then some "edge-a" else if dnai = "dnai-b" then some "edge-b" else none }

/-- A decision that steers `10.0.0.0/8` to a DNAI. -/
def steeredTo (dnai : String) : SmPolicyDecision :=
  { trafficControlData := (∅ : Npcf.HashMap Npcf.TrafficControlData).insert "influence"
      { routeToLocs := [⟨dnai⟩], trafficPrefix := some "10.0.0.0/8" } }

def edgePrefix : IpPrefix := ⟨.v4 0x0A000000, 8⟩

/-- A chained session with this breakout, under this policy. -/
def chainedSession (breakout : Option (Seid × BreakoutRoute)) (policy : SmPolicyDecision) :
    SmContext :=
  { upSeid := 7, cpSeid := 1, n3Teid := 1, n3Addr := 0x0A000004
    chain := some
      { upSeid := 1
        dlIngress := (2, 0x0A000004)
        breakoutSeid := breakout.map fun b => b.1 }
    path :=
      { anchor := "anchor", intermediate := some "i-upf", breakout := breakout.map fun b => b.2 }
    ueIp := some 0x0A2D0002, pduType := .ipv4, ueIpv6 := none, dnn := "internet"
    snssai := sampleSnssai, gnb := none, indirectFwd := none, supi := sampleCreate.supi
    pduSessionId := 1, smPolicy := none, policy, reservedGfbr := (0, 0)
    policyBreakout := breakout.isSome, charging := none }

def chainedCore (c : SmContext) : Core :=
  { smf :=
      { peers := ["i-upf", "anchor", "edge-a", "edge-b"]
        routing := .graph edges
        contexts := (∅ : Npcf.HashMap SmContext).insert "1" c } }

/-- The requests the UPFs have accepted, in order. -/
def afterRequests (requests : List (String × N4Request)) : Nodes :=
  requests.foldl (fun w r => (w.exchange 0x0A000001 (fun n => (n, 0)) r.1 r.2).2)
    { addr := fun _ => 0x0A000004, upf := fun _ => .withRecoveryTime 0, sent := 0 }

/-- The session at the intermediate UPF. -/
def chainedLeg : String × N4Request :=
  ("i-upf", .sessionEstablishmentViaPeer 1 ⟨some 0x0A2D0002, none⟩ "internet" 9 0x0A000005 [])

/-- The breakout to the first edge. -/
def edgeBranch : List (String × N4Request) :=
  [("edge-a", .sessionEstablishment 2 ⟨some 0x0A2D0002, none⟩ "internet" none [] none),
    ("i-upf", .sessionModificationAddBranch 1 midSessionBreakoutIndex (.toPrefix edgePrefix)
      (.toPeer 1 0x0A000004) "internet")]

/-- The answers of the nodes. -/
def nodeAnswers : (e : Call) → Nodes → e.Answer
  | .transact peer req, w => (w.exchange 0x0A000001 (fun n => (n, 0)) peer req).1
  | e, _ => sampleAnswer [] e

/-- An influence that comes to a session without a breakout. -/
theorem reconcile_installs_first :
    ∃ core' w', Exec (Nodes.accepting 0x0A000001 fun n => (n, 0)) (fun _ _ _ _ => True)
        (reconcileInfluenceBreakout "1") () (chainedCore (chainedSession none (steeredTo "dnai-a")))
        (afterRequests [chainedLeg]) () () core' w' ∧
      ∃ c' route, core'.smf.contexts.lookup "1" = some c' ∧
        askedRoute (chainedCore (chainedSession none (steeredTo "dnai-a"))).smf
          (steeredTo "dnai-a") = some route ∧ BreakoutIs w' c' route := by
  have hrun : (Proc.attempt (Nodes.accepting 0x0A000001 fun n => (n, 0)) (fun _ _ _ _ => True)
      nodeAnswers (reconcileInfluenceBreakout "1") ()
      (chainedCore (chainedSession none (steeredTo "dnai-a")))
      (afterRequests [chainedLeg])).isSome := by decide +kernel
  obtain ⟨⟨⟨⟩, ⟨⟩, core', w'⟩, hattempt⟩ := Option.isSome_iff_exists.mp hrun
  have hexec := Proc.exec_attempt hattempt
  obtain ⟨t, ht, hbranches⟩ := Option.map_eq_some_iff.mp
    (show ((afterRequests [chainedLeg]).session ("i-upf", 1)).map Session.branches = some [] by
      decide +kernel)
  have hasked : askedRoute (chainedCore (chainedSession none (steeredTo "dnai-a"))).smf
      (steeredTo "dnai-a") = some (some ("edge-a", edgePrefix)) := by decide +kernel
  refine ⟨core', w', hexec, ?_⟩
  exact (reconcile_installs_iff 0x0A000001 (fun n => (n, 0)) _ core' _ w' "1"
    (chainedSession none (steeredTo "dnai-a")) none (AList.lookup_insert _) rfl
    ⟨rfl, _, _, t, rfl, rfl, ht, rfl, hbranches⟩ (by simp)
    (by
      intro pre dnai h
      obtain ⟨rfl, rfl⟩ := Prod.mk.inj (Option.some_inj.mp (show some ("10.0.0.0/8", "dnai-a") = _
        from h))
      decide) hexec).mpr ⟨_, hasked, Or.inl rfl⟩

/-- An influence that moves to another DNAI leaves the breakout where it is. -/
theorem reconcile_leaves_route :
    ¬ ∀ (smfIp : Ipv4Addr) (stamp : Nat → Nat × Nat) (core core' : Core) (w w' : Nodes)
      (smRef : String) (c : SmContext) (old : Option BreakoutRoute),
      core.smf.contexts.lookup smRef = some c → core.smf.dnnHasConfigRoute c.dnn = false →
      BreakoutIs w c old → (old.isSome → c.policyBreakout = true) →
      (∀ pre dnai, c.policy.influenceRoute = some (pre, dnai) →
        ((core.smf.nodeForDnai dnai).bind core.smf.peerByName).isSome) →
      Exec (Nodes.accepting smfIp stamp) (fun _ _ _ _ => True) (reconcileInfluenceBreakout smRef) ()
        core w () () core' w' →
      ∃ c' route, core'.smf.contexts.lookup smRef = some c' ∧
        askedRoute core.smf c.policy = some route ∧ BreakoutIs w' c' route := by
  intro h
  let c := chainedSession (some (1, "edge-a", edgePrefix)) (steeredTo "dnai-b")
  let w := afterRequests (chainedLeg :: edgeBranch)
  have hview : (w.session ("i-upf", 1)).map Session.branches =
        some [(Pfcp.ULCL_PDR_BASE, FlowFilter.toPrefix edgePrefix, .toPeer 1 0x0A000004)] ∧
      (w.session ("edge-a", 1)).map Session.n3Teid = some 1 := by decide +kernel
  obtain ⟨t, ht, hbranches⟩ := Option.map_eq_some_iff.mp hview.1
  obtain ⟨u, hu, hteid⟩ := Option.map_eq_some_iff.mp hview.2
  have hold : BreakoutIs w c (some ("edge-a", edgePrefix)) := by
    refine ⟨rfl, _, _, t, rfl, rfl, ht, 1, u, rfl, by decide, hu, ?_⟩
    rw [hbranches, hteid]
    rfl
  have hattempt : Proc.attempt (Nodes.accepting 0x0A000001 fun n => (n, 0)) (fun _ _ _ _ => True)
      nodeAnswers (reconcileInfluenceBreakout "1") () (chainedCore c) w =
        some ((), (), chainedCore c, w) := by rfl
  have hexec := Proc.exec_attempt hattempt
  obtain ⟨c', route, hc', hasked, hinstalled⟩ := h 0x0A000001 (fun n => (n, 0)) (chainedCore c)
    (chainedCore c) w w "1" c (some ("edge-a", edgePrefix)) (AList.lookup_insert _) rfl hold
    (fun _ => rfl)
    (by
      intro pre dnai h
      obtain ⟨rfl, rfl⟩ := Prod.mk.inj (Option.some_inj.mp (show some ("10.0.0.0/8", "dnai-b") = _
        from h))
      decide) hexec
  obtain rfl : c = c' := Option.some_inj.mp ((AList.lookup_insert _).symm.trans hc')
  have hroute : some ("edge-a", edgePrefix) = route := hinstalled.recorded
  rw [← hroute] at hasked
  revert hasked
  decide +kernel

end Radian.Smf
