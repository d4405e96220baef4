import Radian.Smf.Paths

/-!
# Paths stay laid

What each of the SMF's handlers makes of a fabric that carries every session, one lemma a process.

- `Lays` — what holds after a handler, run alone against a fabric; the rules of its N4 exchanges.
- `…_lays` — activation, breakouts and indirect forwarding leave every path laid.
-/

namespace Radian.Smf

open Proc (before Stays)
open Keyed (Map)
open Pfcp (Ipv4Addr Seid Teid UeAddr IpPrefix N4Request N4Response EstablishedSession FlowFilter
  Egress Wiring)

/-- What holds after a handler, run alone against a fabric. -/
abbrev Lays {α : Type} (t : SmfM α) (Q : α → Core → Fabric → Prop) (c : Core) (f : Fabric) : Prop :=
  before Fabric.outside (fun _ _ _ _ => True) t (fun a _ => Q a) () c f

section Rules

variable {α β : Type} {Q : α → Core → Fabric → Prop} {c : Core} {f : Fabric} {peer : String}
  {req : N4Request} {seid : Seid} {u : Wiring}

theorem lays_bind {t : SmfM α} {k : α → SmfM β} {Q : β → Core → Fabric → Prop}
    (h : Lays t (fun a => Lays (k a) Q) c f) : Lays (t >>= k) Q c f :=
  (Proc.wp_bind t k _).mpr h

theorem lays_mono {t : SmfM α} {P : α → Core → Fabric → Prop} (h : ∀ a c f, P a c f → Q a c f)
    (ht : Lays t P c f) : Lays t Q c f :=
  Proc.before_mono (fun a _ c f => h a c f) ht

/-- A call that is no N4 exchange. -/
theorem lays_ask {e : Call} {Q : e.Answer → Core → Fabric → Prop} (he : ¬ IsN4 e)
    (h : ∀ r, Q r c f) : Lays (Proc.ask (R := Call.Answer) e) Q c f := by
  intro r _
  cases e with
  | transact peer req => exact absurd trivial he
  | _ => exact h r

theorem Fabric.set_set (f : Fabric) (x : String × Seid) (u v : Option Wiring) :
    (f.set x u).set x v = f.set x v := by
  rw [Fabric.set, Fabric.set, Fabric.set, Function.update_idem]

theorem lays_mark (n : Mark) {Q : Unit → Core → Fabric → Prop} (h : Q () c f) :
    Lays (Proc.mark n) Q c f := fun _ => h

theorem set_wires_self (f : Fabric) (x : String × Seid) : f.set x (f.wires x) = f :=
  fabric_ext rfl fun y => by
    rw [Fabric.wires_set]
    split
    · rename_i hsame
      rw [hsame]
    · rfl

/-- A session is opened at a UP-SEID that was not wired, or none is. -/
theorem lays_opens {Q : Option N4Response → Core → Fabric → Prop} (hopens : req.opens = true)
    (hok : ∀ resp est, resp.session = some est → f.wires (peer, est.upSeid) = none →
      est.n3Addr = f.addr peer → (est.dlIngress.map fun d => d.2) =
        (if req.wantsDlIngress then some (f.addr peer) else none) →
      Q (some resp) c
        (f.set (peer, est.upSeid) (some (req.wires est.n3Teid (est.dlIngress.map fun d => d.1)))))
    (hrefused : ∀ resp, (resp.bind fun r => r.session) = none → Q resp c f) :
    Lays (transact peer req) Q c f := by
  rintro ⟨installed, reply⟩ hr
  simp only [Fabric.outside, Fabric.answers, hopens, if_true] at hr
  show Q reply c (f.exchanged peer req ⟨installed, reply⟩)
  unfold Fabric.exchanged
  cases hsession : reply.bind fun r => r.session with
  | none =>
    simp only [hopens, if_true]
    exact hrefused reply hsession
  | some est =>
    obtain ⟨resp, rfl, hest⟩ := Option.bind_eq_some_iff.mp hsession
    simp only [hsession, Bool.and_eq_true, beq_iff_eq] at hr
    simp only [hopens, if_true]
    exact hok resp est hest hr.1.1 hr.1.2 hr.2

/-- A session that is wired is rewired. -/
theorem lays_modifies {Q : Option N4Response → Core → Fabric → Prop} (hopens : req.opens = false)
    (hdeletes : req.deletes = none) (htarget : req.target = some seid)
    (hwired : f.wires (peer, seid) = some u)
    (h : ∀ r : N4Response, r.accepted = true → Q (some r) c (f.set (peer, seid) (some (req.rewire u)))) :
    Lays (transact peer req) Q c f := by
  rintro ⟨installed, reply⟩ hr
  cases reply with
  | none => simp [Fabric.outside, Fabric.answers, hopens] at hr
  | some r =>
    have haccepted : r.accepted = true := by
      simpa [Fabric.outside, Fabric.answers, hopens, htarget, hwired] using hr
    have hafter : f.exchanged peer req ⟨installed, some r⟩ =
        f.set (peer, seid) (some (req.rewire u)) := by
      simp [Fabric.exchanged, hopens, htarget, hdeletes, hwired]
    show Q (some r) c (f.exchanged peer req ⟨installed, some r⟩)
    rw [hafter]
    exact h r haccepted

theorem lays_deletes {Q : Option N4Response → Core → Fabric → Prop}
    (h : ∀ r : N4Response, Q (some r) c (f.set (peer, seid) none)) :
    Lays (transact peer (.sessionDeletion seid)) Q c f := by
  rintro ⟨installed, reply⟩ hr
  cases reply with
  | none => cases hr
  | some r => exact h r

/-- A modification that the wiring does not show. -/
theorem lays_unseen {Q : Option N4Response → Core → Fabric → Prop} (hopens : req.opens = false)
    (hdeletes : req.deletes = none) (hsame : ∀ u, req.rewire u = u) (h : ∀ r, Q r c f) :
    Lays (transact peer req) Q c f := by
  rintro ⟨installed, reply⟩ _
  have hafter : f.exchanged peer req ⟨installed, reply⟩ = f := by
    obtain ⟨seid, htarget⟩ := target_of_opens hopens
    simp only [Fabric.exchanged, hopens, htarget, hdeletes, hsame, Bool.false_eq_true, if_false,
      Option.isSome_none, Option.map_id']
    exact set_wires_self f (peer, seid)
  show Q reply c (f.exchanged peer req ⟨installed, reply⟩)
  rw [hafter]
  exact h reply

theorem lays_accepted {Q : Bool → Core → Fabric → Prop} (hopens : req.opens = false)
    (hdeletes : req.deletes = none) (htarget : req.target = some seid)
    (hwired : f.wires (peer, seid) = some u)
    (h : Q true c (f.set (peer, seid) (some (req.rewire u)))) : Lays (accepted peer req) Q c f := by
  refine lays_bind (lays_modifies hopens hdeletes htarget hwired fun r haccepted => ?_)
  show Q ((some r).map (fun r => r.accepted) == some true) c _
  rw [Option.map_some, haccepted]
  exact h

/-- What a wired session is rewired to. -/
theorem lays_rewired {u' : Wiring} {Q : Bool → Core → Fabric → Prop} (hopens : req.opens = false)
    (hdeletes : req.deletes = none) (htarget : req.target = some seid)
    (hwired : f.wires (peer, seid) = some u) (hrewire : req.rewire u = u')
    (h : Q true c (f.set (peer, seid) (some u'))) : Lays (accepted peer req) Q c f := by
  subst hrewire
  exact lays_accepted hopens hdeletes htarget hwired h

theorem lays_accepted_delete {Q : Bool → Core → Fabric → Prop}
    (h : ∀ b, Q b c (f.set (peer, seid) none)) : Lays (accepted peer (.sessionDeletion seid)) Q c f :=
  lays_bind (lays_deletes fun _ => h _)

/-- The downlink of a wired session is pointed elsewhere. -/
theorem lays_pointDownlinkAt {target : Teid × Ipv4Addr} {dnn : String}
    {Q : Except String Unit → Core → Fabric → Prop} (hwired : f.wires (peer, seid) = some u)
    (h : Q (.ok ()) c (f.set (peer, seid) (some { u with downlink := some target }))) :
    Lays (pointDownlinkAt peer seid target dnn) Q c f := by
  refine lays_bind (lays_modifies rfl rfl rfl hwired fun r haccepted => ?_)
  show Q (if r.accepted then .ok () else _) c _
  rw [haccepted, if_pos rfl]
  exact h

/-- The downlink of a session that was just opened is. -/
theorem lays_pointNew {target : Teid × Ipv4Addr} {dnn : String}
    {Q : Except String Unit → Core → Fabric → Prop}
    (h : Q (.ok ()) c (f.set (peer, seid) (some { u with downlink := some target }))) :
    Lays (pointDownlinkAt peer seid target dnn) Q c (f.set (peer, seid) (some u)) := by
  apply lays_pointDownlinkAt (Fabric.wires_set_self _ _ _)
  rw [Fabric.set_set]
  exact h

/-- What neither changes a course nor exchanges anything over N4. -/
theorem lays_stays {t : SmfM α} {κ : Call → Prop} (hκ : ∀ e, κ e → ¬ IsN4 e)
    (ht : Stays (fun c c' : Core => c'.courses = c.courses) κ t)
    (h : ∀ a c', c'.courses = c.courses → Q a c' f) : Lays t Q c f := by
  have hframe : before Fabric.outside (fun _ _ _ _ => True) t
      (fun _ l' c' f' => l' = () ∧ c'.courses = c.courses ∧ f' = f) () c f := by
    let I : Core → Fabric → Prop := fun c' f' => c'.courses = c.courses ∧ f' = f
    have hmark : ∀ {n : Mark} {l : Unit} {s : Core} {f' : Fabric}, True → I s f' →
        I s (Fabric.outside.mark n l s f') := fun _ hI => hI
    refine Stays.before (I := I) ?_ ?_ hmark ht ⟨rfl, rfl⟩
    · intro s s' _ hs hI
      exact ⟨hs.trans hI.1, hI.2⟩
    · intro e r s f' he _ hI
      cases e with
      | transact peer req => exact absurd trivial (hκ _ he)
      | _ => exact hI
  refine Proc.before_mono ?_ hframe
  rintro a ⟨⟩ c' f' ⟨-, hc', rfl⟩
  exact h a c' hc'

end Rules

/-! ### Contexts and their courses -/

section Contexts

variable {c c' : Core} {f f' : Fabric} {smRef : String} {ctx : SmContext}

theorem courses_of_contexts (h : c'.smf.contexts = c.smf.contexts) : c'.courses = c.courses := by
  funext ref
  rw [Core.courses, Core.courses, h]

theorem courses_modify {g : SmContext → SmContext}
    (h : c'.smf.contexts = c.smf.contexts.modify smRef g) :
    c'.courses = Function.update c.courses smRef
      ((c.smf.contexts.lookup smRef).map fun ctx => (g ctx).course) := by
  funext ref
  rw [Core.courses, h, Map.lookup_modify, Function.update_apply]
  split
  · rename_i hsame
    subst hsame
    rw [Option.map_map]
    rfl
  · rfl

theorem courses_lookup (hctx : c.smf.contexts.lookup smRef = some ctx) :
    c.courses smRef = some ctx.course := by
  rw [Core.courses, hctx, Option.map_some]

/-- A change of a context that its course does not show. -/
theorem courses_modify_same {g : SmContext → SmContext}
    (h : c'.smf.contexts = c.smf.contexts.modify smRef g) (hg : ∀ ctx, (g ctx).course = ctx.course) :
    c'.courses = c.courses := by
  rw [courses_modify h]
  simp only [hg]
  exact Function.update_eq_self smRef c.courses

/-- A context settles on a new course. -/
theorem Laid.update {g : SmContext → SmContext} (h : Laid c.courses f)
    (hctx : c.smf.contexts.lookup smRef = some ctx) (hspares : Spares ctx.course.sessions f f')
    (hcarries : f'.Carries (g ctx).course)
    (hnew : ∀ x ∈ (g ctx).course.sessions, x ∈ ctx.course.sessions ∨ f.wires x = none)
    (hc' : c'.smf.contexts = c.smf.contexts.modify smRef g) : Laid c'.courses f' := by
  rw [courses_modify hc', hctx, Option.map_some]
  refine h.settle hspares (fun x hx => ⟨_, courses_lookup hctx, hx⟩) _ ?_ ?_
  · intro r hr
    exact Option.some_inj.mp hr ▸ hcarries
  · intro r hr x hx
    exact hnew x (Option.some_inj.mp hr ▸ hx)

/-- What is done to new sessions only. -/
theorem Laid.spares {m : String → Option Course} (h : Laid m f) (hspares : Spares [] f f') :
    Laid m f' :=
  ⟨fun ref r hr => (h.carries ref r hr).frame hspares.addr fun x hx =>
    hspares.wires x List.not_mem_nil ((h.carries ref r hr).wired hx), h.apart⟩

end Contexts

/-! ### Activation and deactivation -/

section Downlinks

variable {c : Core} {f f' : Fabric} {r : Course} {leg : ChainedLeg} {iupf psa2 peer : String}
  {seid : Seid} {a u : Wiring} {pre : IpPrefix} {x : String × Seid}

/-- The sessions of a chained course are different ones. -/
theorem Fabric.Carries.ne_leg (h : f.Carries r) (hchain : r.chain = some leg)
    (hiupf : r.path.intermediate = some iupf) : (iupf, leg.upSeid) ≠ r.anchor := by
  have hnodup := h.nodup
  rw [Course.sessions, Course.fixed, hchain, List.cons_append, List.nodup_cons] at hnodup
  rintro hsame
  exact hnodup.1 (hsame ▸ List.mem_append_left _ ((mem_legSessions hiupf).mpr (.inl rfl)))

theorem Fabric.Carries.ne_breakout (h : f.Carries r) (hchain : r.chain = some leg)
    (hiupf : r.path.intermediate = some iupf) (hseid : leg.breakoutSeid = some seid)
    (hpath : r.path.breakout = some (psa2, pre)) :
    (psa2, seid) ≠ r.anchor ∧ (psa2, seid) ≠ (iupf, leg.upSeid) := by
  have hnodup := h.nodup
  have hlegs : legSessions r.chain r.path = [(iupf, leg.upSeid), (psa2, seid)] := by
    simp only [hchain, legSessions, hiupf, hseid, hpath, breakoutSession]
  rw [Course.sessions, Course.fixed, hlegs] at hnodup
  simp only [List.cons_append, List.nil_append, List.nodup_cons, List.mem_cons, not_or] at hnodup
  exact ⟨Ne.symm hnodup.1.2.1, Ne.symm hnodup.2.1.1⟩

theorem Course.leg_mem (hchain : r.chain = some leg) (hiupf : r.path.intermediate = some iupf) :
    (iupf, leg.upSeid) ∈ r.sessions := fixed_subset (leg_fixed hchain hiupf)

theorem Course.breakout_mem (hchain : r.chain = some leg)
    (hiupf : r.path.intermediate = some iupf) (hseid : leg.breakoutSeid = some seid)
    (hpath : r.path.breakout = some (psa2, pre)) : (psa2, seid) ∈ r.sessions :=
  fixed_subset (breakout_fixed hchain hiupf hseid hpath)

theorem Fabric.wired_self (f : Fabric) (x : String × Seid) (u : Wiring) :
    (f.set x (some u)).wires x ≠ none := by
  rw [Fabric.wires_set_self]
  exact Option.some_ne_none u

theorem Fabric.wired_set (u : Wiring) (h : f.wires x ≠ none) (y : String × Seid) :
    (f.set y (some u)).wires x ≠ none := by
  rw [Fabric.wires_set]
  split
  · simp
  · exact h

/-- A course with another gNB. -/
def Course.toward (r : Course) (g : Option (Teid × Ipv4Addr)) : Course := { r with gnb := g }

/-- The end of a direct session is pointed elsewhere. -/
theorem Fabric.Carries.redirect_direct (h : f.Carries r) (hexits : r.Exits a) (hchain : r.chain = none) (hdirect : r.Direct f.addr a)
    (g : Option (Teid × Ipv4Addr)) :
    (f.set r.anchor (some { a with downlink := g })).Carries (r.toward g) where
  nodup := h.nodup
  forwarding seid hseid := Fabric.wired_set _ (h.forwarding seid hseid) _
  anchored := by
    refine ⟨_, Fabric.wires_set_self _ _ _, ⟨hexits.ue, hexits.uplink, hexits.branches⟩, ?_⟩
    exact .direct hchain ⟨hdirect.n3Teid, hdirect.n3Addr, rfl⟩

/-- The two hops of a chained session are. -/
theorem Fabric.Carries.redirect_chained (h : f.Carries r) (hexits : r.Exits a)
    (hchain : r.chain = some leg) (hiupf : r.path.intermediate = some iupf)
    (hchained : r.Chained f.addr leg iupf a u) {g d e : Option (Teid × Ipv4Addr)}
    (haddr : f'.addr = f.addr) (hkept : ∀ x, f.wires x ≠ none → f'.wires x ≠ none)
    (ha : f'.wires r.anchor = some { a with downlink := d })
    (hu : f'.wires (iupf, leg.upSeid) = some { u with downlink := e })
    (hbranched : (r.toward g).Branched f' leg { u with downlink := e })
    (hactive : ∀ gnb, g = some gnb → d = some leg.dlIngress ∧ e = some gnb)
    (hidle : g = none → d = none ∨ d = some leg.dlIngress ∧ e = none) : f'.Carries (r.toward g) where
  nodup := h.nodup
  forwarding seid hseid := hkept _ (h.forwarding seid hseid)
  anchored := by
    refine ⟨_, ha, ⟨hexits.ue, hexits.uplink, hexits.branches⟩, .chained hchain hiupf hu ?_ hbranched⟩
    constructor
    · exact hchained.ue
    · exact hchained.n3Teid
    · exact haddr ▸ hchained.n3Addr
    · exact hchained.ingress
    · exact haddr ▸ hchained.ingressAddr
    · exact haddr ▸ hchained.uplink
    · exact hactive
    · exact hidle

theorem lays_deactivate {Q : Bool → Core → Fabric → Prop} (hwired : f.wires (peer, seid) = some u)
    (h : Q true c (f.set (peer, seid) (some { u with downlink := none }))) :
    Lays (accepted peer (.sessionDeactivate seid farId)) Q c f :=
  lays_accepted rfl rfl rfl hwired h

theorem lays_pointed {target : Teid × Ipv4Addr} {dnn : String} {endMarker : Bool}
    {Q : Bool → Core → Fabric → Prop} (hwired : f.wires (peer, seid) = some u)
    (h : Q true c (f.set (peer, seid) (some { u with downlink := some target }))) :
    Lays (accepted peer (.sessionModification seid farId target.1 target.2 dnn endMarker)) Q c f :=
  lays_accepted rfl rfl rfl hwired h

end Downlinks

section Live

variable {α : Type} {Q : α → Core → Fabric → Prop} {c : Core} {f : Fabric} {smRef : String}
  {ctx : SmContext}

theorem lays_readSmf {g : SmfState → α} (h : Q (g c.smf) c f) : Lays (readSmf g) Q c f := h

/-- A context settles on another gNB. -/
theorem Laid.toward {f' : Fabric} (h : Laid c.courses f)
    (hctx : c.smf.contexts.lookup smRef = some ctx) (hspares : Spares ctx.course.sessions f f')
    {g : Option (Teid × Ipv4Addr)} (hcarries : f'.Carries (ctx.course.toward g)) :
    Lays (updateContext smRef fun c => { c with gnb := g }) (fun _ c f => Laid c.courses f) c f' :=
  h.update (g := fun c => { c with gnb := g }) hctx hspares hcarries (fun _ hx => .inl hx) rfl

theorem deactivateUp_lays (h : Laid c.courses f) (smRef : String) :
    Lays (deactivateUp smRef) (fun _ c f => Laid c.courses f) c f := by
  refine lays_bind (lays_readSmf ?_)
  split
  · exact h
  · rename_i ctx hctx
    have hcarries := h.carries smRef _ (courses_lookup hctx)
    obtain ⟨a, ha, hexits, hreaches⟩ := hcarries.anchored
    have hspares : Spares ctx.course.sessions f
        (f.set ctx.course.anchor (some { a with downlink := none })) :=
      (Spares.refl _ f).set (.inl Course.anchor_mem) _
    refine lays_bind (lays_deactivate ha (lays_bind ?_))
    cases hreaches with
    | direct hchain hdirect =>
      have hnone : ctx.chain = none := hchain
      simp only [parkBreakout, hnone, Option.bind_none]
      exact lays_bind (h.toward hctx hspares (hcarries.redirect_direct hexits hchain hdirect none))
    | @chained leg iupf u hchain hiupf hwired hchained hbranched =>
      have hsome : ctx.chain = some leg := hchain
      have hne := hcarries.ne_leg hchain hiupf
      cases hbranched with
      | whole hseid hbranches =>
        simp only [parkBreakout, hsome, Option.bind_some, hseid]
        refine lays_bind (h.toward hctx hspares ?_)
        apply hcarries.redirect_chained (d := none) (e := u.downlink) hexits hchain hiupf hchained
        · rfl
        · exact fun _ hx => Fabric.wired_set _ hx _
        · exact Fabric.wires_set_self _ _ _
        · rw [Fabric.wires_set_of_ne _ _ hne, hwired]
        · exact .whole hseid hbranches
        · intro _ hg
          cases hg
        · exact fun _ => .inl rfl
      | @steered seid psa2 pre v hseid hpath hv hexits' hbranches hactive =>
        have hpath' : ctx.path.breakout = some (psa2, pre) := hpath
        obtain ⟨hne₁, hne₂⟩ := hcarries.ne_breakout hchain hiupf hseid hpath
        simp only [parkBreakout, hsome, Option.bind_some, hseid, hpath']
        refine lays_bind (lays_deactivate ((Fabric.wires_set_of_ne _ _ hne₁).trans hv) ?_)
        refine h.toward hctx (hspares.set (.inl ?_) _) ?_
        · exact Course.breakout_mem hchain hiupf hseid hpath
        apply hcarries.redirect_chained (d := none) (e := u.downlink) hexits hchain hiupf hchained
        · rfl
        · exact fun _ hx => Fabric.wired_set _ (Fabric.wired_set _ hx _) _
        · rw [Fabric.wires_set_of_ne _ _ hne₁.symm, Fabric.wires_set_self]
        · rw [Fabric.wires_set_of_ne _ _ hne₂.symm, Fabric.wires_set_of_ne _ _ hne, hwired]
        · exact .steered hseid hpath (Fabric.wires_set_self _ _ _)
            ⟨hexits'.ue, hexits'.uplink, hexits'.branches⟩ hbranches fun _ hg => by cases hg
        · intro _ hg
          cases hg
        · exact fun _ => .inl rfl

theorem activateUp_lays (h : Laid c.courses f) (smRef : String) (gnb : Teid × Ipv4Addr) :
    Lays (activateUp smRef gnb) (fun _ c f => Laid c.courses f) c f := by
  refine lays_bind (lays_readSmf ?_)
  split
  · exact h
  · rename_i ctx hctx
    have hcarries := h.carries smRef _ (courses_lookup hctx)
    obtain ⟨a, ha, hexits, hreaches⟩ := hcarries.anchored
    cases hreaches with
    | direct hchain hdirect =>
      have hnone : ctx.chain = none := hchain
      simp only [hnone, installDownlink, restoreBreakout]
      refine lays_bind (lays_pointed ha (lays_bind (h.toward hctx ?_ ?_)))
      · exact (Spares.refl _ f).set (.inl Course.anchor_mem) _
      · exact hcarries.redirect_direct hexits hchain hdirect (some gnb)
    | @chained leg iupf u hchain hiupf hwired hchained hbranched =>
      have hsome : ctx.chain = some leg := hchain
      have hiupf' : ctx.path.intermediate = some iupf := hiupf
      have hne := hcarries.ne_leg hchain hiupf
      have hspares : Spares ctx.course.sessions f
          ((f.set (iupf, leg.upSeid) (some { u with downlink := some gnb })).set ctx.course.anchor
            (some { a with downlink := some leg.dlIngress })) := by
        refine ((Spares.refl _ f).set (.inl ?_) _).set (.inl Course.anchor_mem) _
        exact Course.leg_mem hchain hiupf
      simp only [hsome, hiupf', installDownlink]
      refine lays_bind (lays_pointed hwired ?_)
      refine lays_bind (lays_pointed ((Fabric.wires_set_of_ne _ _ hne.symm).trans ha) ?_)
      cases hbranched with
      | whole hseid hbranches =>
        simp only [restoreBreakout, hsome, hseid]
        refine lays_bind (h.toward hctx hspares ?_)
        apply hcarries.redirect_chained hexits hchain hiupf hchained
        · rfl
        · exact fun _ hx => Fabric.wired_set _ (Fabric.wired_set _ hx _) _
        · exact Fabric.wires_set_self _ _ _
        · rw [Fabric.wires_set_of_ne _ _ hne, Fabric.wires_set_self]
        · exact .whole hseid hbranches
        · rintro _ ⟨⟩
          exact ⟨rfl, rfl⟩
        · intro hg
          cases hg
      | @steered seid psa2 pre v hseid hpath hv hexits' hbranches hactive =>
        have hpath' : ctx.path.breakout = some (psa2, pre) := hpath
        obtain ⟨hne₁, hne₂⟩ := hcarries.ne_breakout hchain hiupf hseid hpath
        simp only [restoreBreakout, hsome, hseid, hpath']
        refine lays_bind (lays_pointDownlinkAt ((Fabric.wires_set_of_ne _ _ hne₁).trans
          ((Fabric.wires_set_of_ne _ _ hne₂).trans hv)) ?_)
        refine lays_bind (h.toward hctx (hspares.set (.inl ?_) _) ?_)
        · exact Course.breakout_mem hchain hiupf hseid hpath
        apply hcarries.redirect_chained hexits hchain hiupf hchained
        · rfl
        · exact fun _ hx => Fabric.wired_set _ (Fabric.wired_set _ (Fabric.wired_set _ hx _) _) _
        · rw [Fabric.wires_set_of_ne _ _ hne₁.symm, Fabric.wires_set_self]
        · rw [Fabric.wires_set_of_ne _ _ hne₂.symm, Fabric.wires_set_of_ne _ _ hne,
            Fabric.wires_set_self]
        · exact .steered hseid hpath (Fabric.wires_set_self _ _ _)
            ⟨hexits'.ue, hexits'.uplink, hexits'.branches⟩ hbranches fun _ _ => rfl
        · rintro _ ⟨⟩
          exact ⟨rfl, rfl⟩
        · intro hg
          cases hg

theorem updateSmContext_lays (h : Laid c.courses f) (smRef : String) (req : SmContextUpdateData) :
    Lays (updateSmContext smRef req) (fun _ c f => Laid c.courses f) c f := by
  unfold updateSmContext
  split
  · exact deactivateUp_lays h smRef
  · split
    · refine lays_bind (lays_readSmf ?_)
      split <;> exact h
    · split
      · split
        · exact h
        · split
          · exact activateUp_lays h smRef _
          · exact h
      · exact h

/-! ### Breakouts -/

theorem lays_nextCpSeid {Q : Seid → Core → Fabric → Prop}
    (h : Q c.smf.cpSeid { c with smf := { c.smf with cpSeid := c.smf.cpSeid + 1 } } f) :
    Lays nextCpSeid Q c f := h

/-- The wiring of a new session that leads to the data network. -/
def toDataNetwork (est : EstablishedSession) (ue : UeAddr) : Wiring where
  n3Teid := est.n3Teid
  dlIngressTeid := est.dlIngress.map fun d => d.1
  ue
  downlink := none
  uplink := .toN6
  branches := []

theorem lays_opens_basic {peer : String} {cpSeid : Seid} {ue : UeAddr} {dnn : String}
    {ambr : Option Pfcp.SessionAmbr} {flows : List Pfcp.FlowQer} {threshold : Option Nat}
    {Q : Option N4Response → Core → Fabric → Prop}
    (hok : ∀ resp est, resp.session = some est → f.wires (peer, est.upSeid) = none →
      est.n3Addr = f.addr peer →
      Q (some resp) c (f.set (peer, est.upSeid) (some (toDataNetwork est ue))))
    (hrefused : ∀ resp, (resp.bind fun r => r.session) = none → Q resp c f) :
    Lays (transact peer (.sessionEstablishment cpSeid ue dnn ambr flows threshold)) Q c f := by
  refine lays_opens rfl (fun resp est hest hfresh haddr _ => ?_) hrefused
  rw [Pfcp.wires_sessionEstablishment]
  exact hok resp est hest hfresh haddr

theorem lays_establish_basic {peer : String} {cpSeid : Seid} {ue : UeAddr} {dnn : String}
    {ambr : Option Pfcp.SessionAmbr} {flows : List Pfcp.FlowQer} {threshold : Option Nat}
    {Q : Option EstablishedSession → Core → Fabric → Prop}
    (hok : ∀ est, f.wires (peer, est.upSeid) = none → est.n3Addr = f.addr peer →
      Q (some est) c (f.set (peer, est.upSeid) (some (toDataNetwork est ue))))
    (hrefused : Q none c f) :
    Lays (establish peer (.sessionEstablishment cpSeid ue dnn ambr flows threshold)) Q c f := by
  apply lays_bind (lays_opens_basic _ _)
  · intro resp est hest hfresh haddr
    show Q resp.session c _
    rw [hest]
    exact hok est hfresh haddr
  · intro resp hnone
    show Q (resp.bind fun r => r.session) c f
    rw [hnone]
    exact hrefused

/-- A classifier without branches gets its first. -/
theorem lays_addBranch {peer : String} {seid : Seid} {u : Wiring} {filter : FlowFilter}
    {egress : Egress} {dnn : String} {Q : Bool → Core → Fabric → Prop}
    (hwired : f.wires (peer, seid) = some u) (hbranches : u.branches = [])
    (h : Q true c (f.set (peer, seid)
      (some { u with branches := [(Pfcp.ULCL_PDR_BASE, filter, egress)] }))) :
    Lays (accepted peer (.sessionModificationAddBranch seid midSessionBreakoutIndex filter egress dnn))
      Q c f := by
  refine lays_rewired rfl rfl rfl hwired ?_ h
  show ({ u with branches := _ } : Wiring) = _
  rw [hbranches]
  rfl

/-- And loses its only one. -/
theorem lays_removeBranch {peer : String} {seid : Seid} {u : Wiring} {filter : FlowFilter}
    {egress : Egress} {Q : Bool → Core → Fabric → Prop} (hwired : f.wires (peer, seid) = some u)
    (hbranches : u.branches = [(Pfcp.ULCL_PDR_BASE, filter, egress)])
    (h : Q true c (f.set (peer, seid) (some { u with branches := [] }))) :
    Lays (accepted peer (.sessionModificationRemoveBranch seid midSessionBreakoutIndex)) Q c f := by
  refine lays_rewired rfl rfl rfl hwired ?_ h
  show ({ u with branches := _ } : Wiring) = _
  rw [hbranches]
  rfl

section Breakouts

variable {leg : ChainedLeg} {iupf psa2 : String} {seid : Seid} {pre : IpPrefix} {a u v : Wiring}
  {r : Course} {f' : Fabric}

/-- A course with another breakout, or none. -/
def Course.branching (r : Course) (leg : ChainedLeg) (seid : Option Seid)
    (via : Option (String × IpPrefix)) : Course :=
  { r with
    chain := some { leg with breakoutSeid := seid }
    path := { r.path with breakout := via } }

/-- The two ends of a chained session meet whatever is branched off in between. -/
theorem Course.Chained.branching {addr : String → Ipv4Addr} (h : r.Chained addr leg iupf a u)
    (seid : Option Seid) (via : Option (String × IpPrefix)) (branches : List Pfcp.Branch) :
    (r.branching leg seid via).Chained addr { leg with breakoutSeid := seid } iupf a
      { u with branches } :=
  ⟨h.ue, h.n3Teid, h.n3Addr, h.ingress, h.ingressAddr, h.uplink, h.active, h.idle⟩

/-- A context settles on another breakout. -/
theorem Laid.branching (h : Laid c.courses f) (hctx : c.smf.contexts.lookup smRef = some ctx)
    (hleg : ctx.chain = some leg) (seid : Option Seid) (via : Option (String × IpPrefix))
    (hspares : Spares ctx.course.sessions f f')
    (hcarries : f'.Carries (ctx.course.branching leg seid via))
    (hnew : ∀ x ∈ (ctx.course.branching leg seid via).sessions,
      x ∈ ctx.course.sessions ∨ f.wires x = none) {c' : Core}
    (hc' : c'.smf.contexts = c.smf.contexts) :
    Lays (updateContext smRef fun c => { c with
        chain := c.chain.map fun l => { l with breakoutSeid := seid }
        path := { c.path with breakout := via } })
      (fun _ c f => Laid c.courses f) c' f' := by
  let g : SmContext → SmContext := fun c => { c with
    chain := c.chain.map fun l => { l with breakoutSeid := seid }
    path := { c.path with breakout := via } }
  have hcourse : (g ctx).course = ctx.course.branching leg seid via := by
    simp only [g, SmContext.course, Course.branching, hleg, Option.map_some]
    rfl
  rw [← hcourse] at hcarries hnew
  exact h.update (g := g) hctx hspares hcarries hnew (congrArg (fun m => m.modify smRef g) hc')

theorem Course.sessions_whole (hchain : r.chain = some leg)
    (hiupf : r.path.intermediate = some iupf) (hseid : leg.breakoutSeid = none) :
    r.sessions = r.anchor :: (iupf, leg.upSeid) ::
      r.indirectFwd.toList.map fun seid => (r.path.anchor, seid) := by
  simp only [Course.sessions, Course.fixed, hchain, legSessions, hiupf, hseid, breakoutSession,
    List.cons_append, List.nil_append]

theorem Course.sessions_branching (hiupf : r.path.intermediate = some iupf) (leg : ChainedLeg)
    (seid : Seid) (psa2 : String) (pre : IpPrefix) :
    (r.branching leg (some seid) (some (psa2, pre))).sessions =
      r.anchor :: (iupf, leg.upSeid) :: (psa2, seid) ::
        r.indirectFwd.toList.map fun seid => (r.path.anchor, seid) := by
  simp only [Course.sessions, Course.fixed, Course.branching, legSessions, hiupf, breakoutSession,
    List.cons_append, List.nil_append]
  rfl

/-- A chained session gets a breakout on a new session. -/
theorem Fabric.Carries.insert (h : f.Carries r) (hchain : r.chain = some leg)
    (hiupf : r.path.intermediate = some iupf) (hseid : leg.breakoutSeid = none)
    (hexits : r.Exits a) (hchained : r.Chained f.addr leg iupf a u)
    (hfresh : f.wires (psa2, seid) = none)
    (haddr : f'.addr = f.addr) (hkept : ∀ x, f.wires x ≠ none → f'.wires x ≠ none)
    (ha' : f'.wires r.anchor = some a)
    (hu' : f'.wires (iupf, leg.upSeid) = some { u with
      branches := [(Pfcp.ULCL_PDR_BASE, FlowFilter.toPrefix pre, .toPeer v.n3Teid (f.addr psa2))] })
    (hv' : f'.wires (psa2, seid) = some v) (hexits' : r.Exits v)
    (hdownlink : v.downlink = some leg.dlIngress) :
    f'.Carries (r.branching leg (some seid) (some (psa2, pre))) where
  nodup := by
    have hnodup := h.nodup
    have hnew : (psa2, seid) ∉ r.sessions := fun hmem => h.wired hmem hfresh
    rw [Course.sessions_whole hchain hiupf hseid] at hnodup hnew
    rw [Course.sessions_branching hiupf]
    simp only [List.nodup_cons, List.mem_cons, not_or] at hnodup hnew ⊢
    exact ⟨⟨hnodup.1.1, Ne.symm hnew.1, hnodup.1.2⟩, ⟨Ne.symm hnew.2.1, hnodup.2.1⟩, hnew.2.2,
      hnodup.2.2⟩
  forwarding seid hfwd := hkept _ (h.forwarding seid hfwd)
  anchored := by
    refine ⟨a, ha', ⟨hexits.ue, hexits.uplink, hexits.branches⟩, .chained rfl hiupf hu' ?_ ?_⟩
    · rw [haddr]
      exact hchained.branching _ _ _
    · exact .steered rfl rfl hv' ⟨hexits'.ue, hexits'.uplink, hexits'.branches⟩ (haddr ▸ rfl)
        fun _ _ => hdownlink

/-- And loses it. -/
theorem Fabric.Carries.remove (h : f.Carries r) (hchain : r.chain = some leg)
    (hiupf : r.path.intermediate = some iupf) (hseid : leg.breakoutSeid = some seid)
    (hpath : r.path.breakout = some (psa2, pre)) (hexits : r.Exits a)
    (hchained : r.Chained f.addr leg iupf a u) (haddr : f'.addr = f.addr)
    (hkept : ∀ x, x ≠ (psa2, seid) → f.wires x ≠ none → f'.wires x ≠ none)
    (ha : f'.wires r.anchor = some a)
    (hu : f'.wires (iupf, leg.upSeid) = some { u with branches := [] }) :
    f'.Carries (r.branching leg none none) := by
  have hsame : r.branching leg (some seid) (some (psa2, pre)) = r := by
    obtain ⟨_, _, _, chain, ⟨_, _, _⟩, _, _, _⟩ := r
    obtain ⟨_, _, _⟩ := leg
    cases hchain
    cases hseid
    cases hpath
    rfl
  have hnodup := h.nodup
  rw [← hsame, Course.sessions_branching hiupf] at hnodup
  simp only [List.nodup_cons, List.mem_cons, not_or] at hnodup
  have hwhole : (r.branching leg none none).chain = some { leg with breakoutSeid := none } := rfl
  have hsessions : (r.branching leg none none).sessions = r.anchor :: (iupf, leg.upSeid) ::
      r.indirectFwd.toList.map fun seid => (r.path.anchor, seid) := by
    have hpath : (r.branching leg none none).path.intermediate = some iupf := hiupf
    rw [Course.sessions_whole hwhole hpath rfl]
    rfl
  refine ⟨?_, ?_, a, ha, ⟨hexits.ue, hexits.uplink, hexits.branches⟩, ?_⟩
  · rw [hsessions]
    simp only [List.nodup_cons, List.mem_cons, not_or]
    exact ⟨⟨hnodup.1.1, hnodup.1.2.2⟩, hnodup.2.1.2, hnodup.2.2.2⟩
  · intro fwd hfwd
    refine hkept _ ?_ (h.forwarding fwd hfwd)
    rintro hmem
    have hin : (r.path.anchor, fwd) ∈ r.indirectFwd.toList.map fun seid => (r.path.anchor, seid) := by
      rw [show r.indirectFwd = some fwd from hfwd]
      exact List.mem_cons_self
    exact hnodup.2.2.1 (hmem ▸ hin)
  · refine .chained rfl hiupf hu ?_ (.whole rfl rfl)
    rw [haddr]
    exact hchained.branching _ _ _

theorem insertBreakout_lays (h : Laid c.courses f) (hctx : c.smf.contexts.lookup smRef = some ctx)
    (hleg : ctx.chain = some leg) (hiupf : ctx.path.intermediate = some iupf)
    (dnn routePrefix via : String) :
    Lays (insertBreakout smRef leg iupf ctx.ueAddr dnn routePrefix via)
      (fun _ c f => Laid c.courses f) c f := by
  have hcarries := h.carries smRef _ (courses_lookup hctx)
  have hchain : ctx.course.chain = some leg := hleg
  unfold insertBreakout
  split
  · exact h
  · rename_i hfree
    have hnone : leg.breakoutSeid = none := by simpa using hfree
    split
    · exact h
    · rename_i pre _
      refine lays_bind (lays_readSmf ?_)
      split
      · exact h
      · rename_i psa2 _
        refine lays_bind (lays_nextCpSeid (lays_bind (lays_establish_basic ?_ h)))
        intro est hfresh haddr
        refine lays_bind (lays_pointNew ?_)
        obtain ⟨a, u, ha, hexits, hwired, hchained, hbranched⟩ := hcarries.through hchain hiupf
        have hwhole : u.branches = [] := by
          cases hbranched with
          | whole _ hbranches => exact hbranches
          | steered hseid => cases hnone.symm.trans hseid
        -- the new session is none of the old ones
        have hne : (iupf, leg.upSeid) ≠ (psa2, est.upSeid) := Fabric.ne_of_wired hwired hfresh
        have hne' : ctx.course.anchor ≠ (psa2, est.upSeid) := Fabric.ne_of_wired ha hfresh
        let v : Wiring := { toDataNetwork est ctx.ueAddr with downlink := some leg.dlIngress }
        refine lays_bind (lays_addBranch ((Fabric.wires_set_of_ne _ _ hne).trans hwired) hwhole ?_)
        refine lays_bind (h.branching hctx hleg (some est.upSeid) (some (psa2, pre)) ?_ ?_ ?_ rfl)
        · exact ((Spares.refl _ f).set (.inr hfresh) _).set (.inl (Course.leg_mem hchain hiupf)) _
        · apply hcarries.insert (v := v) hchain hiupf hnone hexits hchained hfresh
          · rfl
          · exact fun _ hx => Fabric.wired_set _ (Fabric.wired_set _ hx _) _
          · rw [Fabric.wires_set_of_ne _ _ (hcarries.ne_leg hchain hiupf).symm,
              Fabric.wires_set_of_ne _ _ hne', ha]
          · rw [Fabric.wires_set_self, haddr]
            rfl
          · rw [Fabric.wires_set_of_ne _ _ hne.symm, Fabric.wires_set_self]
          · exact ⟨rfl, rfl, rfl⟩
          · rfl
        · intro x hx
          rw [Course.sessions_branching hiupf] at hx
          rw [Course.sessions_whole hchain hiupf hnone]
          simp only [List.mem_cons] at hx ⊢
          rcases hx with hx | hx | rfl | hx
          · exact .inl (.inl hx)
          · exact .inl (.inr (.inl hx))
          · exact .inr hfresh
          · exact .inl (.inr (.inr hx))

theorem removeBreakout_lays (h : Laid c.courses f) (hctx : c.smf.contexts.lookup smRef = some ctx)
    (hleg : ctx.chain = some leg) (hiupf : ctx.path.intermediate = some iupf) :
    Lays (removeBreakout smRef leg iupf ctx.path) (fun _ c f => Laid c.courses f) c f := by
  have hcarries := h.carries smRef _ (courses_lookup hctx)
  have hchain : ctx.course.chain = some leg := hleg
  obtain ⟨a, u, ha, hexits, hwired, hchained, hbranched⟩ := hcarries.through hchain hiupf
  cases hbranched with
  | whole hseid =>
    simp only [removeBreakout, hseid]
    exact h
  | @steered seid psa2 pre v hseid hpath hv hexits' hbranches hactive =>
    have hpath' : ctx.path.breakout = some (psa2, pre) := hpath
    have hne := hcarries.ne_leg hchain hiupf
    obtain ⟨hne₁, hne₂⟩ := hcarries.ne_breakout hchain hiupf hseid hpath
    simp only [removeBreakout, hseid, hpath']
    refine lays_bind (lays_removeBranch hwired hbranches (lays_bind (lays_accepted_delete ?_)))
    refine fun _ => lays_bind (h.branching hctx hleg none none ?_ ?_ ?_ rfl)
    · exact ((Spares.refl _ f).set (.inl (Course.leg_mem hchain hiupf)) _).set
        (.inl (Course.breakout_mem hchain hiupf hseid hpath)) _
    · apply hcarries.remove hchain hiupf hseid hpath hexits hchained
      · rfl
      · intro x hx hwired
        rw [Fabric.wires_set_of_ne _ _ hx]
        exact Fabric.wired_set _ hwired _
      · rw [Fabric.wires_set_of_ne _ _ hne₁.symm, Fabric.wires_set_of_ne _ _ hne.symm, ha]
      · rw [Fabric.wires_set_of_ne _ _ hne₂.symm, Fabric.wires_set_self]
    · intro x hx
      left
      rw [Course.mem_sessions] at hx ⊢
      rcases hx with hx | hx | hx
      · exact .inl hx
      · have hleg' := (mem_legSessions (by exact hiupf)).mp hx
        rw [hchain]
        exact .inr (.inl ((mem_legSessions hiupf).mpr (hleg'.imp_right fun hnone => by cases hnone)))
      · exact .inr (.inr hx)

/-- Who owns a breakout is nothing to a course. -/
theorem policyBreakout_lays (h : Laid c.courses f) (smRef : String) (owned : Bool) :
    Lays (updateContext smRef fun c => { c with policyBreakout := owned })
      (fun _ c f => Laid c.courses f) c f := by
  let g : SmContext → SmContext := fun c => { c with policyBreakout := owned }
  let c₁ : Core := { c with smf := { c.smf with contexts := c.smf.contexts.modify smRef g } }
  have hmodify : c₁.smf.contexts = c.smf.contexts.modify smRef g := rfl
  have hsame := courses_modify_same hmodify fun _ => rfl
  show Laid c₁.courses f
  rw [hsame]
  exact h

theorem reconcileInfluenceBreakout_lays (h : Laid c.courses f) (smRef : String) :
    Lays (reconcileInfluenceBreakout smRef) (fun _ c f => Laid c.courses f) c f := by
  refine lays_bind (lays_readSmf ?_)
  split
  · exact h
  · rename_i ctx hctx
    split
    · rename_i leg iupf hleg hiupf
      refine lays_bind (lays_readSmf ?_)
      split
      · exact h
      · split
        · refine lays_bind (lays_readSmf ?_)
          split
          · apply lays_bind (lays_mono _ (insertBreakout_lays h hctx hleg hiupf _ _ _))
            intro r c' f' h'
            split
            · exact policyBreakout_lays h' smRef true
            · exact h'
          · exact h
        · split
          · apply lays_bind (lays_mono _ (removeBreakout_lays h hctx hleg hiupf))
            intro r c' f' h'
            split
            · exact policyBreakout_lays h' smRef false
            · exact h'
          · exact h
        · exact h
    · exact h

theorem oamBreakout_lays (h : Laid c.courses f) (req : BreakoutReq) :
    Lays (oamBreakout req) (fun _ c f => Laid c.courses f) c f := by
  unfold oamBreakout
  split
  · exact h
  · refine lays_bind (lays_readSmf ?_)
    split
    · exact h
    · rename_i smRef ctx hfound
      have hctx : c.smf.contexts.lookup smRef = some ctx :=
        Map.lookup_eq_some_iff.mpr (List.mem_of_find?_eq_some hfound)
      split
      · rename_i leg iupf hleg hiupf
        split
        · exact removeBreakout_lays h hctx hleg hiupf
        · refine lays_bind (lays_readSmf ?_)
          split
          · exact insertBreakout_lays h hctx hleg hiupf _ _ _
          · exact h
      · exact h

end Breakouts

/-! ### Indirect forwarding -/

section Forwarding

variable {r : Course} {f' : Fabric}

/-- A course with another forwarding session, or none. -/
def Course.forwardingTo (r : Course) (seid : Option Seid) : Course := { r with indirectFwd := seid }

theorem Course.mem_forwardingTo {seid : Option Seid} {x : String × Seid} :
    x ∈ (r.forwardingTo seid).sessions ↔ x = r.anchor ∨ x ∈ legSessions r.chain r.path ∨
      ∃ fwd, seid = some fwd ∧ x = (r.path.anchor, fwd) := Course.mem_sessions

/-- A session is carried whatever its forwarding session is. -/
theorem Fabric.Carries.refit (h : f.Carries r) (haddr : f'.addr = f.addr)
    (hsame : ∀ x ∈ r.fixed, f'.wires x = f.wires x) (seid : Option Seid)
    (hfwd : ∀ fwd, seid = some fwd →
      f'.wires (r.path.anchor, fwd) ≠ none ∧ (r.path.anchor, fwd) ∉ r.fixed) :
    f'.Carries (r.forwardingTo seid) := by
  have hnodup := (List.nodup_append.mp h.nodup).1
  refine ⟨?_, fun fwd hfwd' => (hfwd fwd hfwd').1, ?_⟩
  · cases seid with
    | none => exact List.nodup_append.mpr ⟨hnodup, List.nodup_nil, fun _ _ _ hb => by cases hb⟩
    | some fwd =>
      refine List.nodup_append.mpr ⟨hnodup, List.nodup_singleton _, ?_⟩
      rintro x hx y hy rfl
      obtain rfl := List.mem_singleton.mp hy
      exact (hfwd fwd rfl).2 hx
  · obtain ⟨a, ha, hexits, hreaches⟩ := h.anchored_frame haddr hsame
    refine ⟨a, ha, ⟨hexits.ue, hexits.uplink, hexits.branches⟩, ?_⟩
    cases hreaches with
    | direct hchain hdirect =>
      exact .direct hchain ⟨hdirect.n3Teid, hdirect.n3Addr, hdirect.downlink⟩
    | chained hchain hiupf hwired hchained hbranched =>
      refine .chained hchain hiupf hwired ?_ ?_
      · exact ⟨hchained.ue, hchained.n3Teid, hchained.n3Addr, hchained.ingress,
          hchained.ingressAddr, hchained.uplink, hchained.active, hchained.idle⟩
      · cases hbranched with
        | whole hseid hbranches => exact .whole hseid hbranches
        | steered hseid hpath hv hexits' hbranches hactive =>
          exact .steered hseid hpath hv ⟨hexits'.ue, hexits'.uplink, hexits'.branches⟩ hbranches
            hactive

/-- What is taken out of the state. -/
theorem lays_takeSmf {α : Type} {Q : α → Core → Fabric → Prop} {g : SmfState → α × SmfState}
    (h : Q (g c.smf).1 { c with smf := (g c.smf).2 } f) : Lays (onSmf g) Q c f := h

theorem releaseForwarding_lays (h : Laid c.courses f) (smRef : String) :
    Lays (releaseForwarding smRef) (fun _ c f => Laid c.courses f) c f := by
  let g : SmContext → SmContext := fun c => { c with indirectFwd := none }
  let c₁ : Core := { c with smf := { c.smf with contexts := c.smf.contexts.modify smRef g } }
  refine lays_bind (lays_takeSmf ?_)
  cases hctx : c.smf.contexts.lookup smRef with
  | none =>
    have hsame : c₁.courses = c.courses := by
      have hmodify : c₁.smf.contexts = c.smf.contexts.modify smRef g := rfl
      rw [courses_modify hmodify, hctx, Option.map_none]
      refine Function.update_eq_self_iff.mpr ?_
      rw [Core.courses, hctx, Option.map_none]
    show Laid c₁.courses f
    rw [hsame]
    exact h
  | some ctx =>
    have hcarries := h.carries smRef _ (courses_lookup hctx)
    -- the course afterwards, on a fabric that has lost the forwarding session
    have hsettle : ∀ f', Spares ctx.course.sessions f f' →
        (∀ x ∈ ctx.course.fixed, f'.wires x = f.wires x) → Laid c₁.courses f' := by
      intro f' hspares hsame
      refine h.update (g := g) hctx hspares ?_ ?_ rfl
      · exact hcarries.refit hspares.addr hsame none fun _ hnone => by cases hnone
      · intro x hx
        left
        have hx : x ∈ (ctx.course.forwardingTo none).sessions := hx
        rw [Course.mem_sessions]
        rcases Course.mem_forwardingTo.mp hx with hx | hx | ⟨_, hnone, _⟩
        · exact .inl hx
        · exact .inr (.inl hx)
        · cases hnone
    cases hfwd : ctx.indirectFwd with
    | none =>
      simp only [Option.bind_some, hfwd, Option.map_none]
      exact hsettle f (Spares.refl _ f) fun _ _ => rfl
    | some seid =>
      have hmem : (ctx.course.path.anchor, seid) ∈ ctx.course.sessions :=
        Course.mem_sessions.mpr (.inr (.inr ⟨seid, hfwd, rfl⟩))
      have hout : ∀ x ∈ ctx.course.fixed, x ≠ (ctx.course.path.anchor, seid) := by
        intro x hx
        refine (List.nodup_append.mp hcarries.nodup).2.2 x hx _ ?_
        rw [show ctx.course.indirectFwd = some seid from hfwd]
        exact List.mem_cons_self
      simp only [Option.bind_some, hfwd, Option.map_some]
      refine lays_bind (lays_accepted_delete fun deleted => ?_)
      have hlaid := hsettle (f.set (ctx.path.anchor, seid) none)
        ((Spares.refl _ f).set (.inl hmem) _) fun x hx => Fabric.wires_set_of_ne _ _ (hout x hx)
      cases deleted <;> exact hlaid

theorem indirectForwarding_lays (h : Laid c.courses f) (smRef : String)
    (req : IndirectForwardingReq) :
    Lays (indirectForwarding smRef req) (fun _ c f => Laid c.courses f) c f := by
  unfold indirectForwarding
  split
  · exact releaseForwarding_lays h smRef
  · split
    · split
      · exact h
      · refine lays_bind (lays_readSmf ?_)
        split
        · exact h
        · rename_i ctx hctx
          have hcarries := h.carries smRef _ (courses_lookup hctx)
          refine lays_bind (lays_nextCpSeid (lays_bind (lays_bind (lays_opens rfl ?_ ?_))))
          · intro resp est hest hfresh _ _
            simp only [Option.bind_some, hest]
            refine lays_bind (lays_mark _ ?_)
            let g : SmContext → SmContext := fun c => { c with indirectFwd := some est.upSeid }
            have hnew : ∀ x ∈ ctx.course.fixed, x ≠ (ctx.course.path.anchor, est.upSeid) := by
              rintro x hx rfl
              exact hcarries.wired (Course.fixed_subset hx) hfresh
            refine lays_bind (h.update (g := g) hctx ((Spares.refl _ f).set (.inr hfresh) _) ?_ ?_ rfl)
            · apply hcarries.refit
              · rfl
              · exact fun x hx => Fabric.wires_set_of_ne _ _ (hnew x hx)
              · rintro fwd ⟨⟩
                exact ⟨Fabric.wired_self _ _ _, fun hmem => hnew _ hmem rfl⟩
            · intro x hx
              have hx : x ∈ (ctx.course.forwardingTo (some est.upSeid)).sessions := hx
              rcases Course.mem_forwardingTo.mp hx with hx | hx | ⟨fwd, hfwd, rfl⟩
              · exact .inl (Course.mem_sessions.mpr (.inl hx))
              · exact .inl (Course.mem_sessions.mpr (.inr (.inl hx)))
              · obtain rfl := Option.some_inj.mp hfwd
                exact .inr hfresh
          · intro resp hnone
            simp only [hnone]
            exact h
    · exact h

end Forwarding

end Live

end Radian.Smf
