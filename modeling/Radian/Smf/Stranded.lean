import Radian.Smf.UserPlane

/-!
# No stranded sessions

The SMF's operations, one after another, keep every session at the UPFs anchored in a live context
as long as no handler lets go of one.

- `…_leads` — what each handler makes of an anchored state, one lemma a process.
- `none_stranded` — the claim about runs; `some_stranded` — a run that lets a session go.
-/

namespace Radian.Smf

open Proc (before Stays Serial)
open Keyed (Map)
open Pfcp (Ipv4Addr Ipv6Addr Seid UeAddr IpPrefix N4Request N4Response EstablishedSession)

/-- What holds after a handler, run alone with nothing let go. -/
abbrev Leads {α : Type} (t : SmfM α) (Q : α → Core → UserPlane → Prop) (c : Core)
    (w : UserPlane) : Prop :=
  before upfs lettingNothingGo t (fun a _ => Q a) () c w

section Steps

variable {α β : Type} {Q : α → Core → UserPlane → Prop} {c : Core} {w : UserPlane}

theorem leads_bind {t : SmfM α} {k : α → SmfM β} {Q : β → Core → UserPlane → Prop}
    (h : Leads t (fun a => Leads (k a) Q) c w) : Leads (t >>= k) Q c w :=
  (Proc.wp_bind t k _).mpr h

theorem leads_mono {t : SmfM α} {P : α → Core → UserPlane → Prop}
    (h : ∀ a c w, P a c w → Q a c w) (ht : Leads t P c w) : Leads t Q c w :=
  Proc.before_mono (fun a _ c w => h a c w) ht

theorem leads_pure {a : α} (h : Q a c w) : Leads (pure a) Q c w := h

theorem leads_readSmf {f : SmfState → α} (h : Q (f c.smf) c w) : Leads (readSmf f) Q c w := h

theorem leads_onSmf {f : SmfState → α × SmfState}
    (h : Q (f c.smf).1 { c with smf := (f c.smf).2 } w) : Leads (onSmf f) Q c w := h

/-! ### N4 exchanges -/

/-- An N4 exchange that opens and deletes no session. -/
def OpensNothing : Call → Prop
  | .transact _ req => req.opens = false ∧ req.deletes = none
  | _ => True

/-- Such an exchange leaves the UPFs' sessions alone. -/
theorem upfs_quiet {e : Call} {r : e.Answer} (he : OpensNothing e)
    (hr : upfs.answers e w r = true) : upfs.effect e r w = w := by
  cases e with
  | transact peer req =>
    obtain ⟨hopens, hdeletes⟩ := he
    have hinst : N4Outcome.installed r = none := by
      simp only [upfs, N4Outcome.answers, hopens, Bool.and_eq_true] at hr
      simpa using hr.2
    simp [upfs, UserPlane.exchanged, hdeletes, hinst]
  | _ => rfl

/-- A call that is no N4 exchange. -/
theorem leads_ask {e : Call} {Q : e.Answer → Core → UserPlane → Prop} (he : ¬ IsN4 e)
    (h : ∀ r, Q r c w) : Leads (Proc.ask (R := Call.Answer) e) Q c w := by
  intro r hr
  have hquiet : OpensNothing e := by
    cases e with
    | transact peer req => exact absurd trivial he
    | _ => trivial
  rw [upfs_quiet hquiet hr]
  exact h r

theorem leads_open {peer : String} {req : N4Request}
    {Q : Option N4Response → Core → UserPlane → Prop} (hopens : req.opens = true)
    (hdeletes : req.deletes = none)
    (hok : ∀ resp est, resp.session = some est →
      Q (some resp) c (w.install (peer, est.upSeid) req.ue))
    (hrefused : ∀ resp, resp.session = none → Q (some resp) c w) :
    Leads (transact peer req) Q c w := by
  rintro ⟨installed, reply⟩ hr
  simp only [upfs, N4Outcome.answers, hopens, if_true, Bool.and_eq_true, beq_iff_eq] at hr
  obtain ⟨hreply, hinst, -⟩ := hr
  obtain ⟨resp, rfl⟩ := Option.isSome_iff_exists.mp hreply
  simp only [Option.bind_some] at hinst
  cases hsession : resp.session with
  | none =>
    obtain rfl : installed = none := by simpa [hsession] using hinst
    have hsame : w.exchanged peer req ⟨none, some resp⟩ = w := by
      simp [UserPlane.exchanged, hdeletes]
    show Q (some resp) c (w.exchanged peer req ⟨none, some resp⟩)
    rw [hsame]
    exact hrefused resp hsession
  | some est =>
    obtain rfl : installed = some est.upSeid := by simpa [hsession] using hinst
    have hmore : w.exchanged peer req ⟨some est.upSeid, some resp⟩ =
        w.install (peer, est.upSeid) req.ue := by
      simp [UserPlane.exchanged, hdeletes]
    show Q (some resp) c (w.exchanged peer req ⟨some est.upSeid, some resp⟩)
    rw [hmore]
    exact hok resp est hsession

theorem leads_delete {peer : String} {seid : Seid}
    {Q : Option N4Response → Core → UserPlane → Prop}
    (h : ∀ resp, Q resp c (w.removeAll [(peer, seid)])) :
    Leads (transact peer (.sessionDeletion seid)) Q c w :=
  fun _ _ => h _

theorem leads_quiet {t : SmfM α} (ht : Stays (fun c c' : Core => c' = c) OpensNothing t)
    (h : ∀ a, Q a c w) : Leads t Q c w := by
  have hframe : before upfs lettingNothingGo t (fun _ l' c' w' => l' = () ∧ c' = c ∧ w' = w)
      () c w := by
    refine Stays.before (I := fun c' w' => c' = c ∧ w' = w) ?_ ?_ (fun _ hI => hI) ht ⟨rfl, rfl⟩
    · rintro s s' w' rfl hI
      exact hI
    · rintro e r s w' he hr ⟨rfl, rfl⟩
      exact ⟨rfl, upfs_quiet he hr⟩
  refine Proc.before_mono ?_ hframe
  rintro a ⟨⟩ c' w' ⟨-, rfl, rfl⟩
  exact h a

theorem leads_establish {peer : String} {req : N4Request}
    {Q : Option EstablishedSession → Core → UserPlane → Prop} (hopens : req.opens = true)
    (hdeletes : req.deletes = none)
    (hok : ∀ est, Q (some est) c (w.install (peer, est.upSeid) req.ue))
    (hrefused : Q none c w) : Leads (establish peer req) Q c w := by
  refine leads_bind (leads_open hopens hdeletes ?_ ?_)
  · intro resp est hest
    show Q (resp.session) c _
    rw [hest]
    exact hok est
  · intro resp hnone
    show Q (resp.session) c _
    rw [hnone]
    exact hrefused

theorem leads_accepted_delete {peer : String} {seid : Seid} {Q : Bool → Core → UserPlane → Prop}
    (h : ∀ b, Q b c (w.removeAll [(peer, seid)])) :
    Leads (accepted peer (.sessionDeletion seid)) Q c w :=
  leads_bind (leads_delete fun _ => h _)

theorem leads_accepted_quiet {peer : String} {req : N4Request} {Q : Bool → Core → UserPlane → Prop}
    (hopens : req.opens = false) (hdeletes : req.deletes = none) (h : ∀ b, Q b c w) :
    Leads (accepted peer req) Q c w :=
  leads_quiet (.bind (.bind (.ask ⟨hopens, hdeletes⟩) fun _ => .pure _) fun _ => .pure _) h

theorem leads_pointDownlinkAt {peer : String} {upSeid : Seid} {target : Pfcp.Teid × Ipv4Addr}
    {dnn : String} {Q : Except String Unit → Core → UserPlane → Prop} (h : ∀ r, Q r c w) :
    Leads (pointDownlinkAt peer upSeid target dnn) Q c w :=
  leads_quiet (stays_pointDownlinkAt (fun _ _ ho hd => ⟨ho, hd⟩) _ _ _ _) h

end Steps

/-! ### What the invariant does not see -/

/-- The accounts and what the UPFs see are as before. -/
structure SameAnchors (c c' : Core) : Prop where
  accounts : SameAccounts c c'
  userPlane : SameUserPlane c c'

theorem SameAnchors.calm : Calm SameAnchors OpensNothing where
  context c smRef f hkept hsessions := by
    refine ⟨.modify c smRef fun ctx => congrArg Prod.fst (hkept ctx),
      .modify c smRef fun ctx => ?_⟩
    have hholdings : (f ctx).holdings = ctx.holdings := congrArg Prod.fst (hkept ctx)
    have haddr : (f ctx).ueAddr = ctx.ueAddr :=
      congrArg (fun x : Holdings => ({ v4 := x.v4, v6 := x.v6 } : UeAddr)) hholdings
    exact Prod.ext haddr (hsessions ctx)
  n4 _ _ hopens hdeletes := ⟨hopens, hdeletes⟩

theorem SameAnchors.beside : Beside SameAnchors OpensNothing where
  smf c c' h := by
    refine ⟨.of_smf h, fun smRef => ?_⟩
    rw [h]
  calls e he := by
    cases e with
    | transact peer req => exact absurd trivial he
    | _ => trivial

section Handlers

variable {α : Type} {x : Holdings} {pending : List (String × Seid)} {ue : UeAddr} {c : Core}
  {w : UserPlane}

theorem leads_stays {t : SmfM α} (ht : Stays SameAnchors OpensNothing t)
    (h : Anchored x pending ue c w) : Leads t (fun _ => Anchored x pending ue) c w := by
  refine Proc.before_mono (fun _ _ _ _ hI => hI.2) (Stays.before ?_ ?_ (fun _ hI => hI) ht h)
  · exact fun hs hI => hI.same hs.accounts hs.userPlane
  · intro e r s w' he hr hI
    rwa [upfs_quiet he hr]

/-! ### Breakouts -/

variable {smRef : String} {ctx : SmContext} {leg : ChainedLeg} {iupf : String}

/-- One context takes over what is pending. -/
theorem updateContext_leads {f : SmContext → SmContext}
    (h : Anchored Holdings.nothing pending ctx.ueAddr c w)
    (hctx : c.smf.contexts.lookup smRef = some ctx) (hf : ∀ ctx, (f ctx).holdings = ctx.holdings)
    (hs : ∀ y, y ∈ pending ∨ y ∈ ctx.sessions → y ∈ (f ctx).sessions ∨ w.MayForget y) :
    Leads (updateContext smRef f) (fun _ => AtRest) c w := by
  have hall : Anchored Holdings.nothing [] ctx.ueAddr _ w :=
    h.update hctx hf fun y hy => (hs y hy).imp_right .inr
  exact hall.nothingPending _

theorem insertBreakout_leads (h : AtRest c w) (hctx : c.smf.contexts.lookup smRef = some ctx)
    (hleg : ctx.chain = some leg) (hiupf : ctx.path.intermediate = some iupf)
    (dnn routePrefix via : String) :
    Leads (insertBreakout smRef leg iupf ctx.ueAddr dnn routePrefix via) (fun _ => AtRest) c w := by
  unfold insertBreakout
  split
  · exact h
  · rename_i hfree
    split
    · exact h
    · refine leads_bind (leads_readSmf ?_)
      split
      · exact h
      · rename_i pre _ psa2 _
        have hseid : AtRest { c with smf := { c.smf with cpSeid := c.smf.cpSeid + 1 } } w :=
          ⟨h.held, h.leases⟩
        refine leads_bind (leads_bind (leads_establish rfl rfl (fun est => ?_) hseid))
        -- the new session is this handler's until the context refers to it
        have hopen := (hseid.nothingPending ctx.ueAddr).install (psa2, est.upSeid) (.refl _)
        refine leads_bind (leads_pointDownlinkAt fun pointed => ?_)
        cases pointed with
        | error e => exact leads_bind (leads_delete fun _ => (hopen.undo _ (by simp)).nothingPending _)
        | ok _ =>
          refine leads_bind (leads_accepted_quiet rfl rfl fun added => ?_)
          cases added with
          | false =>
            exact leads_bind (leads_delete fun _ => (hopen.undo _ (by simp)).nothingPending _)
          | true =>
            refine leads_bind (updateContext_leads hopen hctx (fun _ => rfl) ?_)
            have hnone : leg.breakoutSeid = none := by simpa using hfree
            intro y hy
            left
            rw [SmContext.mem_sessions] at hy ⊢
            rw [hleg, mem_legSessions hiupf, hnone] at hy
            simp only [hleg, Option.map_some]
            rcases hy with hy | hy | (hy | hy) | hy
            · exact .inr (.inl ((mem_legSessions (by exact hiupf)).mpr (.inr hy)))
            · exact .inl hy
            · exact .inr (.inl ((mem_legSessions (by exact hiupf)).mpr (.inl hy)))
            · cases hy
            · exact .inr (.inr hy)

theorem removeBreakout_leads (h : AtRest c w) (hctx : c.smf.contexts.lookup smRef = some ctx)
    (hleg : ctx.chain = some leg) (hiupf : ctx.path.intermediate = some iupf) :
    Leads (removeBreakout smRef leg iupf ctx.path) (fun _ => AtRest) c w := by
  unfold removeBreakout
  split
  · rename_i seid psa2 pre hseid hpath
    refine leads_bind (leads_accepted_quiet rfl rfl fun removed => ?_)
    cases removed with
    | false => exact h
    | true =>
      refine leads_bind (leads_accepted_delete fun deleted => ?_)
      have hgone := (h.removeAll [(psa2, seid)]).nothingPending ctx.ueAddr
      refine leads_bind (updateContext_leads hgone hctx (fun _ => rfl) ?_)
      rintro y (hy | hy)
      · cases hy
      · rw [SmContext.mem_sessions, hleg, mem_legSessions hiupf, hseid, hpath] at hy
        simp only [SmContext.mem_sessions, hleg, Option.map_some]
        rcases hy with hy | (hy | hy) | hy
        · exact .inl (.inl hy)
        · exact .inl (.inr (.inl ((mem_legSessions (by exact hiupf)).mpr (.inl hy))))
        · exact .inr (UserPlane.mayForget_removeAll (.inl hy))
        · exact .inl (.inr (.inr hy))
  · exact h

/-- Who owns a breakout is nothing to the UPFs. -/
theorem policyBreakout_leads (h : AtRest c w) (smRef : String) (owned : Bool) :
    Leads (updateContext smRef fun c => { c with policyBreakout := owned }) (fun _ => AtRest) c w :=
  leads_stays (.change fun c => SameAnchors.calm.context c smRef _ (fun _ => rfl) fun _ => rfl) h

theorem reconcileInfluenceBreakout_leads (h : AtRest c w) (smRef : String) :
    Leads (reconcileInfluenceBreakout smRef) (fun _ => AtRest) c w := by
  refine leads_bind (leads_readSmf ?_)
  split
  · exact h
  · rename_i ctx hctx
    split
    · rename_i leg iupf hleg hiupf
      refine leads_bind (leads_readSmf ?_)
      split
      · exact h
      · split
        · refine leads_bind (leads_readSmf ?_)
          split
          · refine leads_bind (leads_mono ?_ (insertBreakout_leads h hctx hleg hiupf _ _ _))
            intro r c' w' h'
            split
            · exact policyBreakout_leads h' smRef true
            · exact h'
          · exact h
        · split
          · refine leads_bind (leads_mono ?_ (removeBreakout_leads h hctx hleg hiupf))
            intro r c' w' h'
            split
            · exact policyBreakout_leads h' smRef false
            · exact h'
          · exact h
        · exact h
    · exact h

theorem oamBreakout_leads (h : AtRest c w) (req : BreakoutReq) :
    Leads (oamBreakout req) (fun _ => AtRest) c w := by
  unfold oamBreakout
  split
  · exact h
  · refine leads_bind (leads_readSmf ?_)
    split
    · exact h
    · rename_i smRef ctx hfound
      have hctx : c.smf.contexts.lookup smRef = some ctx :=
        Map.lookup_eq_some_iff.mpr (List.mem_of_find?_eq_some hfound)
      split
      · rename_i leg iupf hleg hiupf
        split
        · exact removeBreakout_leads h hctx hleg hiupf
        · refine leads_bind (leads_readSmf ?_)
          split
          · exact insertBreakout_leads h hctx hleg hiupf _ _ _
          · exact h
      · exact h

/-! ### Indirect forwarding -/

theorem releaseForwarding_leads (h : AtRest c w) (smRef : String) :
    Leads (releaseForwarding smRef) (fun _ => AtRest) c w := by
  refine leads_bind (leads_onSmf ?_)
  cases hctx : c.smf.contexts.lookup smRef with
  | none =>
    have hsame : c.smf.contexts.modify smRef (fun c => { c with indirectFwd := none }) =
        c.smf.contexts := by
      simp [Map.modify, hctx]
    rw [hsame]
    exact h
  | some ctx =>
    have hpending : Anchored Holdings.nothing ctx.forwarding ctx.ueAddr
        { c with
          smf := { c.smf with
            contexts := c.smf.contexts.modify smRef fun c => { c with indirectFwd := none } } }
        w := by
      refine (h.nothingPending _).update hctx (fun _ => rfl) ?_
      rintro y (hy | hy)
      · cases hy
      · rw [SmContext.mem_sessions] at hy ⊢
        rcases hy with hy | hy | hy
        · exact .inl (.inl hy)
        · exact .inl (.inr (.inl hy))
        · exact .inr (.inl hy)
    cases hfwd : ctx.indirectFwd with
    | none =>
      rw [SmContext.forwarding, hfwd] at hpending
      simp only [Option.bind_some, hfwd, Option.map_none]
      exact hpending.nothingPending _
    | some seid =>
      rw [SmContext.forwarding, hfwd] at hpending
      simp only [Option.bind_some, hfwd, Option.map_some]
      refine leads_bind (leads_accepted_delete fun deleted => ?_)
      have hgone : Anchored Holdings.nothing [] ctx.ueAddr _ _ :=
        hpending.undo [(ctx.path.anchor, seid)] (by simp)
      cases deleted <;> exact hgone.nothingPending _

theorem indirectForwarding_leads (h : AtRest c w) (smRef : String) (req : IndirectForwardingReq) :
    Leads (indirectForwarding smRef req) (fun _ => AtRest) c w := by
  unfold indirectForwarding
  split
  · exact releaseForwarding_leads h smRef
  · split
    · split
      · exact h
      · refine leads_bind (leads_readSmf ?_)
        split
        · exact h
        · rename_i ctx hctx
          have hseid : AtRest { c with smf := { c.smf with cpSeid := c.smf.cpSeid + 1 } } w :=
            ⟨h.held, h.leases⟩
          refine leads_bind (leads_bind (leads_establish rfl rfl (fun est => ?_) hseid))
          refine leads_bind fun hallow => ?_
          have hopen := (hseid.nothingPending ctx.ueAddr).install
            (ctx.path.anchor, est.upSeid) (.nothing _)
          refine leads_bind (updateContext_leads hopen hctx (fun _ => rfl) ?_)
          rintro y (hy | hy)
          · obtain rfl := List.mem_singleton.mp hy
            exact .inl (SmContext.mem_sessions.mpr (.inr (.inr (List.mem_singleton.mpr rfl))))
          · rw [SmContext.mem_sessions] at hy ⊢
            rcases hy with hy | hy | hy
            · exact .inl (.inl hy)
            · exact .inl (.inr (.inl hy))
            · exact .inr (hallow ctx hctx y hy)
    · exact h

/-! ### Establishment -/

/-- What a chain under way leaves pending on top of the anchor's session. -/
def Chained (x : Holdings) (anchor : List (String × Seid)) (ue : UeAddr) (path : SessionPath) :
    Except String (ChainedLeg × Pfcp.Teid × Ipv4Addr) → Core → UserPlane → Prop
  | .ok (leg, _), c, w => Anchored x (legSessions (some leg) path ++ anchor) ue c w
  | .error _, c, w => Anchored x anchor ue c w

theorem abandonChain_leads {sessions : List (String × Seid)} {path : SessionPath} (why : String)
    (h : Anchored x (sessions ++ pending) ue c w) :
    Leads (abandonChain sessions why) (Chained x pending ue path) c w := by
  intro hallow
  refine h.forget fun y hy => ?_
  rcases List.mem_append.mp hy with hy | hy
  · exact .inr (hallow y hy)
  · exact .inl hy

/-- Whether a breakout anchor that is up is the path's. -/
def BreakoutOf (path : SessionPath) (b : Option (String × EstablishedSession × IpPrefix)) : Prop :=
  b.map (fun b => (b.1, b.2.2)) = path.breakout

theorem establishBreakout_leads (path : SessionPath) (dnn : String)
    (h : Anchored x pending ue c w) :
    Leads (establishBreakout path ue dnn) (fun r c w => match r with
      | .ok b => BreakoutOf path b ∧ Anchored x (breakoutSessions b ++ pending) ue c w
      | .error _ => Anchored x pending ue c w) c w := by
  unfold establishBreakout
  split
  · rename_i hpath
    exact ⟨hpath.symm, h⟩
  · rename_i psa2 pre hpath
    have hseid : Anchored x pending ue
        { c with smf := { c.smf with cpSeid := c.smf.cpSeid + 1 } } w := ⟨h.held, h.leases⟩
    refine leads_bind (leads_bind (leads_open rfl rfl (fun resp est hest => ?_)
      fun resp hnone => ?_))
    · simp only [hest]
      exact ⟨hpath.symm, hseid.install (psa2, est.upSeid) (.refl _)⟩
    · simp only [hnone]
      exact fun _ => hseid

theorem splice_leads {path : SessionPath} {anchor est : EstablishedSession} {iupf : String}
    {b : Option (String × EstablishedSession × IpPrefix)} (dlIngress : Pfcp.Teid × Ipv4Addr)
    (dnn : String) (hiupf : path.intermediate = some iupf) (hb : BreakoutOf path b)
    (h : Anchored x ((iupf, est.upSeid) :: (breakoutSessions b ++ pending)) ue c w) :
    Leads (splice path anchor est iupf b dlIngress dnn) (Chained x pending ue path) c w := by
  have hsessions : Anchored x ((breakoutSessions b ++ [(iupf, est.upSeid)]) ++ pending) ue c w := by
    refine h.forget fun y hy => .inl ?_
    simp only [List.mem_cons, List.mem_append] at hy ⊢
    tauto
  refine leads_bind (leads_pointDownlinkAt fun pointed => ?_)
  cases pointed with
  | error e => exact abandonChain_leads _ hsessions
  | ok _ =>
    cases b with
    | none =>
      refine h.forget fun y hy => .inl ?_
      simpa [legSessions, hiupf, breakoutSession, breakoutSessions] using hy
    | some b =>
      obtain ⟨psa2, est2, pre⟩ := b
      refine leads_bind (leads_pointDownlinkAt fun pointed => ?_)
      cases pointed with
      | error e => exact abandonChain_leads _ hsessions
      | ok _ =>
        refine h.forget fun y hy => .inl ?_
        have hpath : path.breakout = some (psa2, pre) := hb.symm
        simpa [legSessions, hiupf, hpath, breakoutSession, breakoutSessions] using hy

theorem establishChain_leads (path : SessionPath) (anchor : EstablishedSession) (dnn : String)
    (h : Anchored x pending ue c w) :
    Leads (establishChain path anchor ue dnn) (Chained x pending ue path) c w := by
  unfold establishChain
  split
  · exact h
  · rename_i iupf hiupf
    refine leads_bind (leads_mono ?_ (establishBreakout_leads path dnn h))
    intro r c' w' h'
    cases r with
    | error e => exact h'
    | ok b =>
      obtain ⟨hb, h'⟩ := h'
      have hseid : Anchored x (breakoutSessions b ++ pending) ue
          { c' with smf := { c'.smf with cpSeid := c'.smf.cpSeid + 1 } } w' :=
        ⟨h'.held, h'.leases⟩
      refine leads_bind (leads_bind (leads_open rfl rfl (fun resp est hest => ?_)
        fun resp hnone => ?_))
      · simp only [hest]
        have hopen := hseid.install (iupf, est.upSeid) (.refl ue)
        cases hdl : est.dlIngress with
        | none =>
          refine abandonChain_leads _ (hopen.forget fun y hy => .inl ?_)
          simp only [List.mem_cons, List.mem_append] at hy ⊢
          tauto
        | some dlIngress =>
          exact splice_leads dlIngress dnn hiupf hb hopen
      · simp only [hnone]
        exact abandonChain_leads _ hseid

theorem storeContext_leads (a : Admitted) (h : Anchored ctx.holdings pending ctx.ueAddr c w)
    (hp : ∀ y ∈ pending, y ∈ ctx.sessions) :
    Leads (storeContext a ctx) (fun _ => AtRest) c w := by
  refine leads_bind fun hallow => leads_bind ?_
  refine leads_bind (leads_mono ?_ (reconcileInfluenceBreakout_leads (h.store hallow hp) a.smRef))
  intro _ c' w' h'
  exact leads_stays (.bind (stays_spawn SameAnchors.beside _) fun _ => .pure _) h'

theorem chainOrRollBack_leads {a : Admitted} {lease : IpLease} (est : EstablishedSession)
    (h : Anchored (lease.holdings a.reservedGfbr) [(a.path.anchor, est.upSeid)] ue c w) :
    Leads (chainOrRollBack a lease ue est) (fun r c w => match r with
      | .ok (est', chain) => est'.upSeid = est.upSeid ∧ Anchored (lease.holdings a.reservedGfbr)
          (legSessions chain a.path ++ [(a.path.anchor, est.upSeid)]) ue c w
      | .error _ => AtRest c w) c w := by
  unfold chainOrRollBack
  split
  · refine leads_bind (leads_mono ?_ (establishChain_leads a.path est a.req.dnn h))
    intro r c' w' h'
    cases r with
    | ok built => exact ⟨rfl, h'⟩
    | error e =>
      refine leads_bind (leads_delete fun resp => ?_)
      exact Anchored.refuse (h'.undo _ (by simp))
  · exact ⟨rfl, h⟩

theorem establishSession_leads {a : Admitted} {ueIp : Option Ipv4Addr}
    {ueIpv6 : Option (Ipv6Addr × BitVec 64)} (cpSeid : Seid)
    (h : Anchored ⟨ueIp, ueIpv6.map fun v6 => v6.1, a.reservedGfbr⟩ [] ue c w) :
    Leads (establishSession a cpSeid ueIp ueIpv6) (fun _ => AtRest) c w := by
  have hlease := h.nothingPending { v4 := ueIp, v6 := ueIpv6.map fun v6 => v6.1 }
  refine leads_bind (leads_bind (leads_open rfl rfl (fun resp est hest => ?_) fun resp hnone => ?_))
  · simp only [hest]
    refine leads_bind (leads_mono ?_
      (chainOrRollBack_leads est (hlease.install (a.path.anchor, est.upSeid) (.refl _))))
    intro r c' w' h'
    cases r with
    | error p => exact h'
    | ok built =>
      obtain ⟨est', chain⟩ := built
      obtain ⟨hsame, h'⟩ := h'
      refine leads_bind (leads_mono ?_ (leads_stays (stays_openCharging SameAnchors.beside a.req) h'))
      intro charging c'' w'' h''
      refine storeContext_leads a h'' fun y hy => SmContext.mem_sessions.mpr ?_
      rcases List.mem_append.mp hy with hy | hy
      · exact .inr (.inl hy)
      · left
        rw [List.mem_singleton.mp hy, ← hsame]
        rfl
  · simp only [hnone]
    have hback : Anchored (IpLease.holdings ⟨ueIp, ueIpv6.map fun v6 => v6.1⟩ a.reservedGfbr) []
        _ c w := hlease
    exact hback.refuse

theorem leaseIpv4_leads {g : Gfbr} (t : PduSessionType) (h : Anchored ⟨none, none, g⟩ [] ue c w) :
    Leads (leaseIpv4 t) (fun r => Anchored ⟨r.join, none, g⟩ [] ue) c w := by
  unfold leaseIpv4
  split
  · refine leads_bind (leads_onSmf (leads_pure ?_))
    rw [join_map_some]
    exact h.leaseIpv4
  · exact h

theorem leaseIpv6_leads {g : Gfbr} {v4 : Option Ipv4Addr} (t : PduSessionType)
    (h : Anchored ⟨v4, none, g⟩ [] ue c w) :
    Leads (leaseIpv6 t) (fun r => Anchored ⟨v4, r.join.map fun a => a.1, g⟩ [] ue) c w := by
  unfold leaseIpv6
  split
  · refine leads_bind (leads_onSmf (leads_pure ?_))
    rw [join_map_some]
    exact h.leaseIpv6
  · exact h

theorem leaseAndEstablish_leads {a : Admitted}
    (h : Anchored ⟨none, none, a.reservedGfbr⟩ [] ue c w) :
    Leads (leaseAndEstablish a) (fun _ => AtRest) c w := by
  have hseid : Anchored ⟨none, none, a.reservedGfbr⟩ [] ue
      { c with smf := { c.smf with cpSeid := c.smf.cpSeid + 1 } } w := ⟨h.held, h.leases⟩
  refine leads_bind (leads_bind (leads_mono ?_ (leaseIpv4_leads _ hseid)))
  intro v4 c' w' h'
  cases v4 with
  | none =>
    have hback : Anchored (IpLease.holdings ⟨none, none⟩ a.reservedGfbr) [] ue c' w' := h'
    exact hback.refuse
  | some ueIp =>
    refine leads_bind (leads_mono ?_ (leaseIpv6_leads _ h'))
    intro v6 c'' w'' h''
    cases v6 with
    | none =>
      have hback : Anchored (IpLease.holdings ⟨ueIp, none⟩ a.reservedGfbr) [] ue c'' w'' := h''
      exact hback.refuse
    | some ueIpv6 => exact establishSession_leads _ h''

/-- Admission control: what fits the budget is reserved. -/
theorem admit_leads {Q : α → Core → UserPlane → Prop} (g : Gfbr) {t e : SmfM α} (h : AtRest c w)
    (ht : ∀ c, Anchored ⟨none, none, g⟩ [] { v4 := none, v6 := none } c w → Leads t Q c w)
    (he : Leads e Q c w) :
    Leads (do
      Proc.mark (.reserving g)
      if ← onSmf fun s => s.tryReserveGfbr g then t else e) Q c w := by
  refine leads_bind fun _ => leads_bind (leads_onSmf ?_)
  split
  · rename_i hfits
    exact ht _ (h.reserve hfits)
  · rename_i hfull
    rw [tryReserveGfbr_refused hfull]
    exact he

theorem admitSession_leads (h : AtRest c w) (req : SmContextCreateData)
    (sub : SessionSubscription) : Leads (admitSession req sub) (fun _ => AtRest) c w := by
  have href : AtRest { c with smf := { c.smf with nextRef := c.smf.nextRef + 1 } } w :=
    ⟨h.held, h.leases⟩
  refine leads_bind (leads_bind ?_)
  refine leads_bind (leads_mono ?_ (leads_stays (stays_fetchSmPolicy SameAnchors.beside _) href))
  intro created c' w' h'
  refine admit_leads _ h' (fun c hreserved => ?_) h'
  refine leads_bind (leads_readSmf ?_)
  split
  · have hback : Anchored (IpLease.holdings ⟨none, none⟩ _) [] _ c w' := hreserved
    exact hback.refuse
  · exact leaseAndEstablish_leads hreserved

theorem createSmContext_leads (h : AtRest c w) (req : SmContextCreateData) :
    Leads (createSmContext req) (fun _ => AtRest) c w := by
  unfold createSmContext
  split
  · exact h
  · split
    · exact h
    · refine leads_bind (leads_ask id fun answer => ?_)
      cases answer with
      | error p => exact h
      | ok sub => exact admitSession_leads h req sub

/-! ### Release, recovery and refresh -/

/-- Deleting the legs deletes exactly these sessions. -/
theorem deleteLegs_leads {Q : Unit → Core → UserPlane → Prop} (chain : Option ChainedLeg)
    (path : SessionPath) (h : Q () c (w.removeAll (legSessions chain path))) :
    Leads (deleteLegs chain path) Q c w := by
  obtain ⟨anchor, intermediate, breakout⟩ := path
  cases chain with
  | none => exact h
  | some leg =>
    obtain ⟨upSeid, dlIngress, breakoutSeid⟩ := leg
    cases intermediate with
    | none => exact h
    | some iupf =>
      refine leads_bind (leads_accepted_delete fun _ => ?_)
      cases breakoutSeid with
      | none => exact h
      | some seid =>
        cases breakout with
        | none => exact h
        | some b => exact leads_bind (leads_accepted_delete fun _ => h)

theorem teardownSmContext_leads (h : AtRest c w) (smRef : String) :
    Leads (teardownSmContext smRef) (fun _ => AtRest) c w := by
  refine leads_bind (leads_readSmf ?_)
  cases hctx : c.smf.contexts.lookup smRef with
  | none => exact h
  | some ctx =>
    refine leads_bind (leads_delete fun resp => ?_)
    cases resp with
    | none => exact h.removeAll _
    | some resp =>
      refine leads_bind (deleteLegs_leads _ _ ?_)
      have hleft : AtRest c ((w.removeAll [(ctx.path.anchor, ctx.upSeid)]).removeAll
          (legSessions ctx.chain ctx.path)) := (h.removeAll _).removeAll _
      refine leads_bind (leads_bind fun hallow => ?_)
      have hforgotten : ∀ y ∈ ctx.sessions,
          ((w.removeAll [(ctx.path.anchor, ctx.upSeid)]).removeAll
            (legSessions ctx.chain ctx.path)).MayForget y := by
        intro y hy
        rcases SmContext.mem_sessions.mp hy with hy | hy | hy
        · refine UserPlane.mayForget_removeAll (.inr (UserPlane.mayForget_removeAll (.inl ?_)))
          exact List.mem_singleton.mpr hy
        · exact UserPlane.mayForget_removeAll (.inl hy)
        · exact hallow y hy
      exact (hleft.release hctx hforgotten).of_smf rfl

theorem recoverFromUpfRestart_leads (h : AtRest c w) (peer : String) :
    Leads (recoverFromUpfRestart peer) (fun _ => AtRest) c w := by
  intro associated _ hallow
  exact h.recover hallow

theorem refreshSmPolicy_leads (h : AtRest c w) (smRef : String) :
    Leads (refreshSmPolicy smRef) (fun _ => AtRest) c w := by
  refine leads_bind (leads_readSmf ?_)
  split
  · exact h
  · rename_i ctx hctx
    split
    · exact h
    · rename_i base policyId hpolicy
      have hasked := leads_stays (stays_overHttp SameAnchors.beside "PCF"
        (stays_updateSmPolicy SameAnchors.beside policyId ctx.policy)) h
      refine leads_bind (leads_mono ?_ hasked)
      intro r c' w' h'
      cases r with
      | error e => exact fun _ => h'
      | ok answer =>
        obtain ⟨number, update⟩ := answer
        refine leads_bind (leads_mono ?_
          (leads_stays (stays_propagateAmbr SameAnchors.calm ctx (ctx.policy.apply update)) h'))
        intro _ c' w' h'
        refine leads_bind (leads_mono ?_
          (leads_stays (stays_propagateFlows SameAnchors.calm ctx (ctx.policy.apply update)) h'))
        intro _ c' w' h'
        refine leads_bind fun _ => leads_bind ?_
        refine leads_bind (leads_mono ?_ (reconcileInfluenceBreakout_leads h'.merge smRef))
        intro _ c' w' h'
        exact leads_stays (.bind (stays_spawn SameAnchors.beside _) fun _ => .pure _) h'

theorem handleUsageReport_leads (h : AtRest c w) (cpSeid : Seid) (usage : Pfcp.UsageVolume) :
    Leads (handleUsageReport cpSeid usage) (fun _ => AtRest) c w := by
  refine leads_bind (leads_readSmf ?_)
  split
  · exact h
  · rename_i smRef ctx hfound
    refine leads_bind (leads_ask id fun _ => ?_)
    split
    · exact h
    · refine leads_bind (leads_ask id fun answer => ?_)
      split
      · split
        · exact leads_bind (leads_mono (fun _ _ _ h => h) (teardownSmContext_leads h smRef))
        · exact h
      · exact h

/-! ### All handlers -/

theorem handle_leads (req : Request) (c : Core) (w : UserPlane) (h : AtRest c w) :
    Leads (handle req) (fun _ => AtRest) c w := by
  cases req with
  | create req => exact leads_bind (createSmContext_leads h req)
  | update smRef req =>
    exact leads_bind (leads_stays (stays_updateSmContext SameAnchors.calm smRef req) h)
  | indirectForwarding smRef req => exact leads_bind (indirectForwarding_leads h smRef req)
  | breakout req => exact leads_bind (oamBreakout_leads h req)
  | refresh smRef => exact leads_bind (refreshSmPolicy_leads h smRef)
  | release smRef => exact leads_bind (teardownSmContext_leads h smRef)
  | usageReport cpSeid usage => exact handleUsageReport_leads h cpSeid usage
  | recover peer => exact recoverFromUpfRestart_leads h peer
  | job i => exact leads_stays (stays_runJob SameAnchors.beside i) h

end Handlers

/-! ### The claim about runs -/

/-- What the SMF's operations, one after another, make of its state and the UPFs', each of which may
restart between two of them. -/
abbrev SmfConfig.Serves (cfg : SmfConfig) (allow : Mark → Unit → Core → UserPlane → Prop) :
    Core → UserPlane → Prop :=
  Serial upfs allow handle (fun w w' => ∃ peer, w' = w.restart peer) () cfg.start {}

theorem atRest_start (cfg : SmfConfig) : AtRest cfg.start {} := by
  constructor
  · intro y ue hy
    cases hy
  · exact ⟨.nothing _, .nothing _⟩

/-- **No session is stranded** by any sequence of operations in which no handler lets go of one. -/
theorem none_stranded (cfg : SmfConfig) (c : Core) (w : UserPlane)
    (h : cfg.Serves lettingNothingGo c w) : NoneStranded c.smf w := by
  have hrest : AtRest c w := by
    refine Serial.invariant (fun q c w hI => handle_leads q c w hI) ?_ h (atRest_start cfg)
    rintro c w _ hI ⟨peer, rfl⟩
    exact hI.restart peer
  exact hrest.noneStranded

instance : ∀ (n : Mark) (l : Unit) (c : Core) (w : UserPlane), Decidable (lettingNothingGo n l c w)
  | .storing _ _, _, _, _ | .abandoning _, _, _, _ | .releasing _ _, _, _, _ | .recovering _, _, _, _
  | .forwarding _ _, _, _, _ => by
      dsimp only [lettingNothingGo, LetsNothingGo]
      infer_instance
  | .reserving _, _, _, _ | .reauthorizing _ _, _, _, _ | .merging _ _ _, _, _, _
  | .refreshFailed _, _, _, _ => instDecidableTrue

/-- UPFs that accept everything, with SEIDs from 7 on. -/
def accepting : (e : Call) → UserPlane → e.Answer
  | .transact peer req, w =>
      if req.opens then
        let upSeid := BitVec.ofNat 64 (7 + (w.sessions peer).entries.length)
        { installed := some upSeid
          reply := some
            { accepted := true
              session := some { upSeid, n3Teid := 1, n3Addr := 0x0A000001, dlIngress := none }
              usages := [] } }
      else { installed := none, reply := some { accepted := true, session := none, usages := [] } }
  | e, _ => sampleAnswer [] e

def sampleForwarding : IndirectForwardingReq :=
  { targetN3Teid := some "1", targetN3Addr := some 0x0A000002, release := false }

/-- A handover ends before the session is released, and another session follows. -/
def handoverDone : List Request :=
  [.create sampleCreate, .indirectForwarding "1" sampleForwarding,
    .indirectForwarding "1" { sampleForwarding with release := true }, .release "1",
    .create sampleCreate]

theorem none_stranded_handoverDone :
    ∃ c w, oneUpf.Serves lettingNothingGo c w ∧
      (w.session ("anchor", 7)).bind UeAddr.v4 = some 0x0A2D0002 ∧ NoneStranded c.smf w := by
  have hrun : (Proc.attemptAll upfs lettingNothingGo accepting handle () handoverDone oneUpf.start
      {}).map (fun p => (p.2.session ("anchor", 7)).bind UeAddr.v4) = some (some 0x0A2D0002) := by
    decide +kernel
  obtain ⟨⟨c, w⟩, hp, hview⟩ := Option.map_eq_some_iff.mp hrun
  have hserved : oneUpf.Serves lettingNothingGo c w := Proc.serial_attemptAll hp
  exact ⟨c, w, hserved, hview, none_stranded oneUpf c w hserved⟩

/-- A session is released while its forwarding session is up. -/
def releaseDuringHandover : List Request :=
  [.create sampleCreate, .indirectForwarding "1" sampleForwarding, .release "1"]

/-- Not every sequence of operations leaves no session stranded: the forwarding session stays. -/
theorem some_stranded :
    ¬ ∀ (cfg : SmfConfig) (c : Core) (w : UserPlane),
      cfg.Serves (fun _ _ _ _ => True) c w → NoneStranded c.smf w := by
  intro hall
  have hrun : (Proc.attemptAll upfs (fun _ _ _ _ => True) accepting handle ()
      releaseDuringHandover oneUpf.start {}).map (fun p =>
        (p.1.smf.contexts.entries.length, (p.2.session ("anchor", 8)).isSome,
          p.2.restarted "anchor")) = some (0, true, false) := by
    decide +kernel
  obtain ⟨⟨c, w⟩, hp, hview⟩ := Option.map_eq_some_iff.mp hrun
  obtain ⟨hempty, hrest⟩ := Prod.mk.inj hview
  obtain ⟨hheld, hup⟩ := Prod.mk.inj hrest
  obtain ⟨ue, hue⟩ := Option.isSome_iff_exists.mp hheld
  obtain ⟨smRef, ctx, hctx, -⟩ :=
    (hall oneUpf c w (Proc.serial_attemptAll hp)).referenced _ ue hue hup
  have hmem := Map.lookup_eq_some_iff.mp hctx
  rw [List.length_eq_zero_iff.mp hempty] at hmem
  cases hmem

end Radian.Smf
