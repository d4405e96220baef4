import Radian.Proc.Triple
import Radian.Smf.Release

/-!
# What most handlers leave alone

Most handlers send N4 requests and record what came of them on one context.  Whatever their calls
answer, they leave alone what the context holds of the shared pools and the policy it runs under.

- `Permits`, `Calm`, `Beside` — relations between states wide enough for what those handlers do, for
  what those do that open and delete no session, and for what happens beside the SMF's state.
- `stays_…` — one lemma a process, for any such relation.
- `SameAccounts` — the relation of the resource proofs: the pools, the GFBR account and every
  context's holdings are as before.
-/

namespace Radian.Smf

open Proc (Stays)
open Keyed (Map)
open Npcf (SmPolicyDecision SmPolicyContextData HashMap)
open Pfcp (Ipv4Addr Ipv6Addr Seid Teid UeAddr N4Request EstablishedSession)

/-- What a context holds of the address pools and the GFBR account. -/
structure Holdings where
  v4 : Option Ipv4Addr
  v6 : Option Ipv6Addr
  gfbr : Gfbr
  deriving DecidableEq, Repr

def Holdings.nothing : Holdings := { v4 := none, v6 := none, gfbr := (0, 0) }

def SmContext.holdings (c : SmContext) : Holdings :=
  { v4 := c.ueIp, v6 := c.ueIpv6.map fun a => a.1, gfbr := c.reservedGfbr }

/-! ### Wide relations -/

/-- What the handlers of a live session never change on a context. -/
def SmContext.kept (c : SmContext) : Holdings × Option (String × String) × SmPolicyDecision :=
  (c.holdings, c.smPolicy, c.policy)

/-- The breakout anchor's session of a chained session. -/
def breakoutSession : Option Seid → Option (String × Pfcp.IpPrefix) → List (String × Seid)
  | some seid, some (psa2, _) => [(psa2, seid)]
  | _, _ => []

/-- The N4 sessions beside the anchor's: the intermediate UPF's and the breakout anchor's. -/
def legSessions (chain : Option ChainedLeg) (path : SessionPath) : List (String × Seid) :=
  match chain, path.intermediate with
  | some leg, some iupf => (iupf, leg.upSeid) :: breakoutSession leg.breakoutSeid path.breakout
  | _, _ => []

/-- The forwarding session of a handover, on the anchor. -/
def SmContext.forwarding (c : SmContext) : List (String × Seid) :=
  c.indirectFwd.toList.map fun seid => (c.path.anchor, seid)

/-- The N4 sessions a context refers to, each with its peer. -/
def SmContext.sessions (c : SmContext) : List (String × Seid) :=
  (c.path.anchor, c.upSeid) :: (legSessions c.chain c.path ++ c.forwarding)

/-- An N4 exchange. -/
def IsN4 : Call → Prop
  | .transact .. => True
  | _ => False

/-- A relation wide enough for the handlers of a live session: the CP F-SEID counter may advance, a
context may change where `kept` does not show it, and any N4 request may be sent. -/
structure Permits (ρ : Core → Core → Prop) (κ : Call → Prop) : Prop where
  seid : ∀ c : Core, ρ c { c with smf := { c.smf with cpSeid := c.smf.cpSeid + 1 } }
  context : ∀ (c : Core) (smRef : String) (f : SmContext → SmContext),
    (∀ ctx, (f ctx).kept = ctx.kept) →
    ρ c { c with smf := { c.smf with contexts := c.smf.contexts.modify smRef f } }
  n4 : ∀ peer req, κ (.transact peer req)

/-- A relation wide enough for the handlers of a live session that neither open nor delete one. -/
structure Calm (ρ : Core → Core → Prop) (κ : Call → Prop) : Prop where
  context : ∀ (c : Core) (smRef : String) (f : SmContext → SmContext),
    (∀ ctx, (f ctx).kept = ctx.kept) → (∀ ctx, (f ctx).sessions = ctx.sessions) →
    ρ c { c with smf := { c.smf with contexts := c.smf.contexts.modify smRef f } }
  n4 : ∀ peer req, req.opens = false → req.deletes = none → κ (.transact peer req)

theorem Permits.calm {ρ : Core → Core → Prop} {κ : Call → Prop} (h : Permits ρ κ) : Calm ρ κ where
  context c smRef f hf _ := h.context c smRef f hf
  n4 peer req _ _ := h.n4 peer req

/-- A relation wide enough for what leaves the SMF's state alone and sends nothing over N4. -/
structure Beside (ρ : Core → Core → Prop) (κ : Call → Prop) : Prop where
  smf : ∀ c c' : Core, c'.smf = c.smf → ρ c c'
  calls : ∀ e, ¬ IsN4 e → κ e

/-! ### The chained half

Building a chain opens sessions and points tunnels.  It stays within any relation that lets the CP
F-SEID counter advance, and every N4 request it sends deletes nothing. -/

section Chain

variable {α β : Type} {ρ : Core → Core → Prop} {κ : Call → Prop}
  (hseid : ∀ c : Core, ρ c { c with smf := { c.smf with cpSeid := c.smf.cpSeid + 1 } })
  (hn4 : ∀ peer req, req.deletes = none → κ (.transact peer req))

theorem stays_pointDownlinkAt
    (hn4 : ∀ peer req, req.opens = false → req.deletes = none → κ (.transact peer req))
    (peer : String) (upSeid : Seid) (target : Teid × Ipv4Addr) (dnn : String) :
    Stays ρ κ (pointDownlinkAt peer upSeid target dnn) := by
  refine .bind (.bind (.ask (hn4 _ _ rfl rfl)) fun _ => .pure _) fun resp => ?_
  cases resp <;> exact .pure _

theorem stays_abandonChain (sessions : List (String × Seid)) (why : String) :
    Stays ρ κ (abandonChain sessions why : SmfM (Except String β)) :=
  .bind (.mark _) fun _ => .pure _

include hseid hn4

theorem stays_establishBreakout (path : SessionPath) (ue : UeAddr) (dnn : String) :
    Stays ρ κ (establishBreakout path ue dnn) := by
  unfold establishBreakout
  split
  · exact .pure _
  · refine .bind (.actShared hseid) fun _ =>
      .bind (.bind (.ask (hn4 _ _ rfl)) fun _ => .pure _) fun resp => ?_
    split
    · exact stays_abandonChain _ _
    · split
      · exact stays_abandonChain _ _
      · exact .pure _

omit hseid in
theorem stays_splice (path : SessionPath) (anchor est : EstablishedSession) (iupf : String)
    (breakout : Option (String × EstablishedSession × Pfcp.IpPrefix))
    (dlIngress : Teid × Ipv4Addr) (dnn : String) :
    Stays ρ κ (splice path anchor est iupf breakout dlIngress dnn) := by
  refine .bind (stays_pointDownlinkAt (fun _ _ _ => hn4 _ _) _ _ _ _) fun pointed => ?_
  split
  · exact stays_abandonChain _ _
  · split
    · exact .pure _
    · refine .bind (stays_pointDownlinkAt (fun _ _ _ => hn4 _ _) _ _ _ _) fun pointed => ?_
      split
      · exact stays_abandonChain _ _
      · exact .pure _

theorem stays_establishChain (path : SessionPath) (anchor : EstablishedSession) (ue : UeAddr)
    (dnn : String) : Stays ρ κ (establishChain path anchor ue dnn) := by
  unfold establishChain
  split
  · exact .pure _
  · refine .bind (stays_establishBreakout hseid hn4 _ _ _) fun breakout => ?_
    split
    · exact .pure _
    · refine .bind (.actShared hseid) fun _ =>
        .bind (.bind (.ask (hn4 _ _ rfl)) fun _ => .pure _) fun resp => ?_
      split
      · exact stays_abandonChain _ _
      · split
        · exact stays_abandonChain _ _
        · split
          · exact stays_abandonChain _ _
          · exact stays_splice hn4 _ _ _ _ _ _ _

end Chain

/-! ### Operations on a live session -/

section Calm

variable {ρ : Core → Core → Prop} {κ : Call → Prop} (hc : Calm ρ κ)
include hc

theorem stays_accepted_calm (peer : String) {req : N4Request} (hopens : req.opens = false)
    (hdeletes : req.deletes = none) : Stays ρ κ (accepted peer req) :=
  .bind (.bind (.ask (hc.n4 _ _ hopens hdeletes)) fun _ => .pure _) fun _ => .pure _

theorem stays_setGnb (smRef : String) (gnb : Option (Teid × Ipv4Addr)) :
    Stays ρ κ (updateContext smRef fun c => { c with gnb }) :=
  .change fun c => hc.context c smRef _ (fun _ => rfl) fun _ => rfl

theorem stays_parkBreakout (c : SmContext) : Stays ρ κ (parkBreakout c) := by
  unfold parkBreakout
  split
  · exact .bind (stays_accepted_calm hc _ rfl rfl) fun _ => .pure _
  · exact .pure _

theorem stays_deactivateUp (smRef : String) : Stays ρ κ (deactivateUp smRef) := by
  refine .bind (.look _) fun found => ?_
  split
  · exact .pure _
  · refine .bind (stays_accepted_calm hc _ rfl rfl) fun parked => ?_
    split
    · exact .bind (stays_parkBreakout hc _) fun _ =>
        .bind (stays_setGnb hc _ _) fun _ => .pure _
    · exact .pure _

theorem stays_restoreBreakout (c : SmContext) : Stays ρ κ (restoreBreakout c) := by
  unfold restoreBreakout
  split
  · exact .pure _
  · split
    · exact stays_pointDownlinkAt hc.n4 _ _ _ _
    · exact .pure _

theorem stays_installDownlink (smRef : String) (c : SmContext) (gnb : Teid × Ipv4Addr)
    (sendEndMarker : Bool) : Stays ρ κ (installDownlink smRef c gnb sendEndMarker) := by
  refine .bind (stays_accepted_calm hc _ rfl rfl) fun installed => ?_
  split
  · refine .bind (stays_restoreBreakout hc c) fun restored => ?_
    split
    · exact .pure _
    · exact .bind (stays_setGnb hc _ _) fun _ => .pure _
  · exact .pure _

theorem stays_activateUp (smRef : String) (gnb : Teid × Ipv4Addr) :
    Stays ρ κ (activateUp smRef gnb) := by
  refine .bind (.look _) fun found => ?_
  split
  · exact .pure _
  · split
    · exact stays_installDownlink hc _ _ _ _
    · split
      · exact .pure _
      · refine .bind (stays_accepted_calm hc _ rfl rfl) fun moved => ?_
        split
        · exact stays_installDownlink hc _ _ _ _
        · exact .pure _

theorem stays_updateSmContext (smRef : String) (req : SmContextUpdateData) :
    Stays ρ κ (updateSmContext smRef req) := by
  unfold updateSmContext
  split
  · exact stays_deactivateUp hc smRef
  · split
    · refine .bind (.look _) fun found => ?_
      split <;> exact .pure _
    · split
      · split
        · exact .pure _
        · split
          · exact stays_activateUp hc _ _
          · exact .pure _
      · exact .pure _

theorem stays_propagateAmbr (c : SmContext) (decision : SmPolicyDecision) :
    Stays ρ κ (propagateAmbr c decision) := by
  unfold propagateAmbr
  split
  · split
    · exact .bind (stays_accepted_calm hc _ rfl rfl) fun _ => .pure _
    · exact .pure _
  · exact .pure _

theorem stays_propagateFlows (c : SmContext) (decision : SmPolicyDecision) :
    Stays ρ κ (propagateFlows c decision) := by
  unfold propagateFlows
  dsimp only
  split
  · exact .bind (stays_accepted_calm hc _ rfl rfl) fun _ => .pure _
  · exact .pure _

end Calm

/-! ### Primitives -/

section Live

variable {ρ : Core → Core → Prop} {κ : Call → Prop} (hp : Permits ρ κ)
include hp

theorem stays_nextCpSeid : Stays ρ κ nextCpSeid := .actShared hp.seid

theorem stays_updateContext (smRef : String) {f : SmContext → SmContext}
    (hf : ∀ ctx, (f ctx).kept = ctx.kept) : Stays ρ κ (updateContext smRef f) :=
  .change fun c => hp.context c smRef f hf

theorem stays_transact (peer : String) (req : N4Request) : Stays ρ κ (transact peer req) :=
  .bind (.ask (hp.n4 _ _)) fun _ => .pure _

theorem stays_establish (peer : String) (req : N4Request) : Stays ρ κ (establish peer req) :=
  .bind (stays_transact hp peer req) fun _ => .pure _

theorem stays_accepted (peer : String) (req : N4Request) : Stays ρ κ (accepted peer req) :=
  .bind (stays_transact hp peer req) fun _ => .pure _

/-! ### Breakouts -/

theorem stays_insertBreakout (smRef : String) (leg : ChainedLeg) (iupf : String) (ue : UeAddr)
    (dnn routePrefix via : String) :
    Stays ρ κ (insertBreakout smRef leg iupf ue dnn routePrefix via) := by
  unfold insertBreakout
  split
  · exact .pure _
  · split
    · exact .pure _
    · refine .bind (.look _) fun peer => ?_
      split
      · exact .pure _
      · refine .bind (stays_nextCpSeid hp) fun cpSeid => .bind (stays_establish hp _ _) fun est => ?_
        split
        · exact .pure _
        · refine .bind (stays_pointDownlinkAt (fun _ _ _ _ => hp.n4 _ _) _ _ _ _) fun pointed => ?_
          split
          · exact .bind (stays_transact hp _ _) fun _ => .pure _
          · refine .bind (stays_accepted hp _ _) fun added => ?_
            split
            · exact .bind (stays_updateContext hp _ fun _ => rfl) fun _ => .pure _
            · exact .bind (stays_transact hp _ _) fun _ => .pure _

theorem stays_removeBreakout (smRef : String) (leg : ChainedLeg) (iupf : String)
    (path : SessionPath) : Stays ρ κ (removeBreakout smRef leg iupf path) := by
  unfold removeBreakout
  split
  · refine .bind (stays_accepted hp _ _) fun removed => ?_
    split
    · exact .bind (stays_accepted hp _ _) fun _ =>
        .bind (stays_updateContext hp _ fun _ => rfl) fun _ => .pure _
    · exact .pure _
  · exact .pure _

theorem stays_oamBreakout (req : BreakoutReq) : Stays ρ κ (oamBreakout req) := by
  unfold oamBreakout
  split
  · exact .pure _
  · refine .bind (.look _) fun found => ?_
    split
    · exact .pure _
    · split
      · split
        · exact stays_removeBreakout hp _ _ _ _
        · refine .bind (.look _) fun via => ?_
          split
          · exact stays_insertBreakout hp _ _ _ _ _ _ _
          · exact .pure _
      · exact .pure _

theorem stays_reconcileInfluenceBreakout (smRef : String) :
    Stays ρ κ (reconcileInfluenceBreakout smRef) := by
  refine .bind (.look _) fun found => ?_
  split
  · exact .pure _
  · split
    · refine .bind (.look _) fun owned => ?_
      split
      · exact .pure _
      · split
        · refine .bind (.look _) fun via => ?_
          split
          · refine .bind (stays_insertBreakout hp _ _ _ _ _ _ _) fun r => ?_
            split
            · exact stays_updateContext hp _ fun _ => rfl
            · exact .pure _
          · exact .pure _
        · split
          · refine .bind (stays_removeBreakout hp _ _ _ _) fun r => ?_
            split
            · exact stays_updateContext hp _ fun _ => rfl
            · exact .pure _
          · exact .pure _
        · exact .pure _
    · exact .pure _

/-! ### Indirect forwarding -/

theorem stays_releaseForwarding (smRef : String) : Stays ρ κ (releaseForwarding smRef) := by
  refine .bind (.actShared fun c => hp.context c smRef _ fun _ => rfl) fun taken => ?_
  split
  · exact .pure _
  · refine .bind (stays_accepted hp _ _) fun deleted => ?_
    split <;> exact .pure _

theorem stays_indirectForwarding (smRef : String) (req : IndirectForwardingReq) :
    Stays ρ κ (indirectForwarding smRef req) := by
  unfold indirectForwarding
  split
  · exact stays_releaseForwarding hp smRef
  · split
    · split
      · exact .pure _
      · refine .bind (.look _) fun found => ?_
        split
        · exact .pure _
        · refine .bind (stays_nextCpSeid hp) fun _ => .bind (stays_establish hp _ _) fun session => ?_
          split
          · exact .pure _
          · exact .bind (.mark _) fun _ =>
              .bind (stays_updateContext hp _ fun _ => rfl) fun _ => .pure _
    · exact .pure _

/-! ### Release -/

theorem stays_deleteLegs (chain : Option ChainedLeg) (path : SessionPath) :
    Stays ρ κ (deleteLegs chain path) := by
  unfold deleteLegs
  split
  · refine .bind (stays_accepted hp _ _) fun _ => ?_
    split
    · exact .bind (stays_accepted hp _ _) fun _ => .pure _
    · exact .pure _
  · exact .pure _

end Live

/-! ### Beside the SMF's state -/

section Beside

variable {α β : Type} {ρ : Core → Core → Prop} {κ : Call → Prop}

theorem stays_readSmf (f : SmfState → α) : Stays ρ κ (readSmf f) := .look _

variable (hb : Beside ρ κ)
include hb

theorem stays_spawn (js : List Job) : Stays ρ κ (spawn js) := .change fun _ => hb.smf _ _ rfl

theorem stays_overHttp (nfType : String) {body : SmfM (Except String β)} (h : Stays ρ κ body) :
    Stays ρ κ (overHttp nfType body) := by
  refine .bind (.ask (hb.calls _ id)) fun delivered => ?_
  split
  · refine .bind h fun r => .bind (.ask (hb.calls _ id)) fun returned => ?_
    split <;> exact .pure _
  · exact .pure _

/-! ### The PCF -/

theorem stays_createSmPolicy (ctx : SmPolicyContextData) : Stays ρ κ (createSmPolicy ctx) :=
  .bind (.ask (hb.calls _ id)) fun _ => .bind (.actShared fun _ => hb.smf _ _ rfl) fun _ =>
    .bind (.change fun _ => hb.smf _ _ rfl) fun _ => .pure _

theorem stays_updateSmPolicy (policyId : String) (snapshot : SmPolicyDecision) :
    Stays ρ κ (updateSmPolicy policyId snapshot) := by
  refine .bind (.mark _) fun _ => .bind (.look _) fun found => ?_
  cases found with
  | none => exact .pure _
  | some entry =>
    exact .bind (.ask (hb.calls _ id)) fun _ => .bind (.change fun _ => hb.smf _ _ rfl) fun _ => .pure _

theorem stays_deleteSmPolicy (policyId : String) : Stays ρ κ (deleteSmPolicy policyId) :=
  .bind (.look _) fun _ => .bind (.change fun _ => hb.smf _ _ rfl) fun _ => .pure _

theorem stays_fetchSmPolicy (ctx : SmPolicyContextData) : Stays ρ κ (fetchSmPolicy ctx) := by
  refine .bind (.ask (hb.calls _ id)) fun found => ?_
  cases found with
  | error e => exact .pure _
  | ok base =>
    refine .bind (stays_overHttp hb "PCF" (stays_createSmPolicy hb ctx)) fun created => ?_
    cases created <;> exact .pure _

/-! ### Charging -/

theorem stays_openCharging (req : SmContextCreateData) : Stays ρ κ (openCharging req) := by
  refine .bind (.ask (hb.calls _ id)) fun found => ?_
  cases found with
  | error e => exact .pure _
  | ok base =>
    refine .bind (.ask (hb.calls _ id)) fun created => ?_
    cases created <;> exact .pure _

theorem stays_runJob (i : Nat) : Stays ρ κ (runJob i) := by
  refine .bind (.actShared fun _ => hb.smf _ _ rfl) fun picked => ?_
  split
  · exact .bind (stays_overHttp hb _ (stays_deleteSmPolicy hb _)) fun _ => .pure _
  · exact .ask (hb.calls _ id)
  · exact .pure _

end Beside

/-! ### The accounts -/

/-- Each reference with what its context holds. -/
def holdingsOf (m : HashMap SmContext) : List (String × Holdings) :=
  m.entries.map fun e => (e.1, e.2.holdings)

/-- The pools, the account and all holdings are as before. -/
structure SameAccounts (c c' : Core) : Prop where
  ipv4 : c'.smf.ueIpv4Pool = c.smf.ueIpv4Pool
  ipv6 : c'.smf.ueIpv6Pool = c.smf.ueIpv6Pool
  gfbr : c'.smf.reservedGfbrBps = c.smf.reservedGfbrBps
  contexts : (holdingsOf c'.smf.contexts).Perm (holdingsOf c.smf.contexts)

namespace SameAccounts

/-- Changes beside the SMF's state. -/
theorem of_smf {c c' : Core} (h : c'.smf = c.smf) : SameAccounts c c' := by
  refine ⟨?_, ?_, ?_, ?_⟩ <;> rw [h]

/-- An update of one context that leaves its holdings alone. -/
theorem modify (c : Core) (smRef : String) {f : SmContext → SmContext}
    (hf : ∀ ctx, (f ctx).holdings = ctx.holdings) :
    SameAccounts c
      { c with smf := { c.smf with contexts := c.smf.contexts.modify smRef f } } :=
  ⟨rfl, rfl, rfl, Map.perm_modify hf c.smf.contexts smRef⟩

end SameAccounts

theorem SameAccounts.permits : Permits SameAccounts fun _ => True where
  seid _ := ⟨rfl, rfl, rfl, .rfl⟩
  context c smRef _ hf := .modify c smRef fun ctx => congrArg Prod.fst (hf ctx)
  n4 _ _ := trivial

theorem SameAccounts.beside : Beside SameAccounts fun _ => True where
  smf _ _ h := .of_smf h
  calls _ _ := trivial

/-- A process that stays within `SameAccounts`. -/
abbrev Neutral {α : Type} (t : SmfM α) : Prop := Stays SameAccounts (fun _ => True) t

end Radian.Smf
