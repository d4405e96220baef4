import Radian.Smf.Neutral

/-!
# Ledgers

A ledger says what a session's holdings are worth and when the shared accounts are in order for a
given total.  The total runs over the stored contexts and over what handlers under way hold in
local variables: an establishment before it stores its context.

- `Ledger.Sound` — what each section that touches the accounts must keep, one field a section.
- `Ledger.keeps` — every handler keeps a sound ledger.
- `Ledger.reach` — so the ledger is in order in every state of every allowed run.
-/

namespace Radian.Smf

open Keyed (Map)
open Npcf (SmPolicyDecision QosFlowPolicy HashMap)
open Pfcp (Ipv4Addr Ipv6Addr Seid UeAddr EstablishedSession)

/-! ### The shared accounts -/

/-- The accounts sessions draw on. -/
structure Accounts where
  ipv4 : U32Pool
  ipv6 : U32Pool
  gfbr : Gfbr

def SmfState.accounts (s : SmfState) : Accounts :=
  { ipv4 := s.ueIpv4Pool, ipv6 := s.ueIpv6Pool, gfbr := s.reservedGfbrBps }

/-- Everything held goes back. -/
def Accounts.giveBack (a : Accounts) (x : Holdings) : Accounts :=
  { ipv4 := match x.v4 with
      | some v4 => a.ipv4.release v4.toNat
      | none => a.ipv4
    ipv6 := match x.v6 with
      | some v6 => a.ipv6.release (SmfState.ipv6Index v6).toNat
      | none => a.ipv6
    gfbr := (saturatingSub a.gfbr.1 x.gfbr.1, saturatingSub a.gfbr.2 x.gfbr.2) }

theorem reclaim_accounts (c : SmContext) (s : SmfState) :
    (reclaim c s).accounts = s.accounts.giveBack c.holdings := by
  unfold reclaim Accounts.giveBack SmContext.holdings
  cases c.ueIp <;> cases c.ueIpv6 <;> rfl

theorem reclaim_contexts (c : SmContext) (s : SmfState) :
    (reclaim c s).contexts = s.contexts := by
  unfold reclaim
  cases c.ueIp <;> cases c.ueIpv6 <;> rfl

/-- What an establishment that fails gives back. -/
def IpLease.holdings (lease : IpLease) (gfbr : Gfbr) : Holdings :=
  { v4 := lease.v4, v6 := lease.v6, gfbr }

theorem drop_accounts (lease : IpLease) (gfbr : Gfbr) (s : SmfState) :
    (lease.drop (s.releaseGfbr gfbr)).accounts = s.accounts.giveBack (lease.holdings gfbr) := by
  obtain ⟨v4, v6⟩ := lease
  cases v4 <;> cases v6 <;> rfl

theorem drop_contexts (lease : IpLease) (gfbr : Gfbr) (s : SmfState) :
    (lease.drop (s.releaseGfbr gfbr)).contexts = s.contexts := by
  obtain ⟨v4, v6⟩ := lease
  cases v4 <;> cases v6 <;> rfl

/-- A refreshed decision goes into its context. -/
theorem storeDecision_contexts (smRef : String) (d : SmPolicyDecision) (s : SmfState) :
    (storeDecision smRef d s).contexts = s.contexts.modify smRef fun c =>
      { c with reservedGfbr := decisionGfbr d, policy := d } := by
  unfold storeDecision
  cases hr : s.contexts.lookup smRef with
  | none => simp [Map.modify, hr]
  | some c =>
    dsimp only
    split <;> rfl

theorem tryReserveGfbr_contexts (s : SmfState) (g : Gfbr) :
    (s.tryReserveGfbr g).2.contexts = s.contexts := by
  unfold SmfState.tryReserveGfbr
  dsimp only
  split <;> rfl

/-- A reservation touches neither pool. -/
theorem tryReserveGfbr_pools (s : SmfState) (g : Gfbr) :
    (s.tryReserveGfbr g).2.ueIpv4Pool = s.ueIpv4Pool ∧
      (s.tryReserveGfbr g).2.ueIpv6Pool = s.ueIpv6Pool := by
  unfold SmfState.tryReserveGfbr
  dsimp only
  split <;> exact ⟨rfl, rfl⟩

/-- Nor does a refreshed decision. -/
theorem storeDecision_pools (smRef : String) (d : SmPolicyDecision) (s : SmfState) :
    (storeDecision smRef d s).ueIpv4Pool = s.ueIpv4Pool ∧
      (storeDecision smRef d s).ueIpv6Pool = s.ueIpv6Pool := by
  unfold storeDecision
  split
  · exact ⟨rfl, rfl⟩
  · dsimp only
    split <;> exact ⟨rfl, rfl⟩

/-- A reservation that does not fit changes nothing. -/
theorem tryReserveGfbr_refused {s : SmfState} {g : Gfbr} (h : ¬(s.tryReserveGfbr g).1 = true) :
    (s.tryReserveGfbr g).2 = s := by
  unfold SmfState.tryReserveGfbr at h ⊢
  dsimp only at h ⊢
  split
  · rfl
  · rename_i hfits
    simp [hfits] at h

theorem join_map_some {α : Type} {o : Option α} : (o.map some).join = o := by cases o <;> rfl

/-! ### Configuration -/

/-- How an SMF is set up. -/
structure SmfConfig where
  peers : List String
  routing : Routing
  gfbrBudgetBps : Gfbr := (0xFFFFFFFFFFFFFFFF, 0xFFFFFFFFFFFFFFFF)
  usageThresholdBytes : Option Nat := none
  callbackBase : String := "http://127.0.0.1:8002"

/-- The state the SMF and the PCF start in. -/
def SmfConfig.start (cfg : SmfConfig) : Core :=
  { smf :=
      { peers := cfg.peers
        routing := cfg.routing
        gfbrBudgetBps := cfg.gfbrBudgetBps
        usageThresholdBytes := cfg.usageThresholdBytes
        callbackBase := cfg.callbackBase } }

/-- The SMF under any requests and any answers. -/
def smfSystem : System Unit Core Mark Call Call.Answer Unit Request where
  answers _ _ _ := true
  effect _ _ w := w
  mark _ _ _ w := w
  body := handle
  enabled _ _ _ := true
  initial _ := true

/-- An SMF that has just started, with no request yet. -/
def SmfConfig.pool (cfg : SmfConfig) : Pool Unit Core Mark Call Call.Answer Unit :=
  { threads := [], shared := cfg.start, world := () }

/-! ### A small SMF

One UPF without an intermediate, a subscription for IPv4 sessions, and no PCF or CHF registered. -/

def oneUpf : SmfConfig := { peers := ["anchor"], routing := .fixed "anchor" none none }

def sampleSnssai : Snssai := { sst := 1, sd := none }

def sampleCreate : SmContextCreateData :=
  { supi := "imsi-999700000000001"
    pduSessionId := 1
    dnn := "internet"
    servingNetwork := some ("999", "70")
    sNssai := none
    pduSessionType := none }

/-- Every peer answers: the subscription has `flows`, the UPF accepts everything under UP-SEID 7. -/
def sampleAnswer (flows : List QosFlowPolicy) : (e : Call) → e.Answer
  | .fetchSessionSubscription .. =>
      .ok { snssai := sampleSnssai, ambr := none, qosFlows := flows, allowV4 := true, allowV6 := false
            defaultType := .ipv4, dnsIpv6 := none }
  | .discoverEndpoint _ => .error "not registered"
  | .request _ => true
  | .response _ => true
  | .decideFor _ => { number := 0, decision := {} }
  | .transact .. =>
      { installed := some 7
        reply := some
          { accepted := true
            session := some { upSeid := 7, n3Teid := 1, n3Addr := 0x0A000001, dlIngress := none }
            usages := [] } }
  | .associate _ => true
  | .chargingCreate .. => .error "no CHF"
  | .chargingUpdate .. => .error "no CHF"
  | .reportAck .. => ()
  | .job _ => ()

/-- A choice of the scheduler of the SMF. -/
abbrev SmfMove : Type := Pool.Move Unit Call Call.Answer Request

/-- Thread `i` serves the sample request to its end: the subscription, the PCF, the UPF and the
CHF are asked. -/
def createOn (flows : List QosFlowPolicy) (i : Nat) : List SmfMove :=
  .start i (.create sampleCreate) :: List.replicate 4 (.resume i (sampleAnswer flows))

/-! ### Ledgers -/

/-- What holdings are worth, and when the accounts are in order for a total. -/
structure Ledger (M : Type) where
  worth : Holdings → M
  ok : M → Accounts → Prop
  /-- The side condition of runs. -/
  allow : Mark → Core → Prop

namespace Ledger

variable {M : Type} [AddCommMonoid M] (K : Ledger M)

/-- The worth of all stored contexts. -/
def total (m : HashMap SmContext) : M := Map.total (fun c => K.worth c.holdings) m

def discipline : Discipline Unit Core Mark Unit M where
  inv m c _ := K.ok (m + K.total c.smf.contexts) c.smf.accounts
  own _ := 0
  allow n _ c _ := K.allow n c

/-- What each section that touches the accounts keeps, for any total `t`. -/
structure Sound : Prop where
  reserve : ∀ {t g c}, K.allow (.reserving g) c → K.ok t c.smf.accounts →
    (c.smf.tryReserveGfbr g).1 = true →
    K.ok (t + K.worth ⟨none, none, g⟩) (c.smf.tryReserveGfbr g).2.accounts
  leaseIpv4 : ∀ {t g a v p}, K.ok (t + K.worth ⟨none, none, g⟩) a → a.ipv4.alloc = (some v, p) →
    K.ok (t + K.worth ⟨some (BitVec.ofNat 32 v), none, g⟩) { a with ipv4 := p }
  leaseIpv6 : ∀ {t v4 g a v p}, K.ok (t + K.worth ⟨v4, none, g⟩) a →
    a.ipv6.alloc = (some v, p) →
    K.ok (t + K.worth ⟨v4, some (SmfState.ipv6Prefix (BitVec.ofNat 32 v)), g⟩)
      { a with ipv6 := p }
  giveBack : ∀ {t x a}, K.ok (t + K.worth x) a → K.ok t (a.giveBack x)
  store : ∀ {t r ctx c}, K.allow (.storing r ctx) c →
    K.ok (t + K.worth ctx.holdings + K.total c.smf.contexts) c.smf.accounts →
    K.ok (t + K.total (c.smf.contexts.insert r ctx)) c.smf.accounts
  release : ∀ {t r copy c}, K.allow (.releasing r copy) c →
    K.ok (t + K.total c.smf.contexts) c.smf.accounts →
    K.ok (t + K.total (c.smf.contexts.erase r)) (c.smf.accounts.giveBack copy.holdings)
  merge : ∀ {t r n d c}, K.allow (.merging r n d) c →
    K.ok (t + K.total c.smf.contexts) c.smf.accounts →
    K.ok (t + K.total (storeDecision r d c.smf).contexts) (storeDecision r d c.smf).accounts

/-- A triple over shares of the ledger. -/
abbrev Triple {α : Type} (m : M) (t : SmfM α) (P : α → M) : Prop :=
  Discipline.Triple K.discipline smfSystem.toOutside m t P

variable {K} {α β : Type}

theorem steady : K.discipline.Steady smfSystem.toOutside (fun _ => True) where
  effect _ _ h := h
  mark _ h := h

/-- What stays within `SameAccounts` keeps any share. -/
theorem neutral {m : M} {t : SmfM α} (ht : Neutral t) : K.Triple m t fun _ => m := by
  refine Discipline.Triple.of_stays steady ?_ ht
  rintro m c c' w hs hinv
  have hacc : c'.smf.accounts = c.smf.accounts := by
    simp only [SmfState.accounts, hs.ipv4, hs.ipv6, hs.gfbr]
  have htot : K.total c'.smf.contexts = K.total c.smf.contexts :=
    Map.total_of_perm hs.contexts K.worth
  show K.ok (m + K.total c'.smf.contexts) c'.smf.accounts
  rw [hacc, htot]
  exact hinv

theorem neutral_bind {m : M} {t : SmfM α} {k : α → SmfM β} {P : β → M} (ht : Neutral t)
    (hk : ∀ a, K.Triple m (k a) P) : K.Triple m (t >>= k) P :=
  .bind (neutral ht) hk

/-! ### Establishment -/

section Establishment

variable (hK : K.Sound)
include hK

theorem refuse_triple (gfbr : Gfbr) (lease : IpLease) (p : SbiProblem)
    {P : Except SbiProblem β → M} (hP : P (.error p) = 0) :
    K.Triple (K.worth (lease.holdings gfbr)) (refuse gfbr lease p) P := by
  refine .bind (P := fun _ => 0) (.change fun t c w hinv => ?_) fun _ => .pure _ hP
  show K.ok (t + 0 + K.total (lease.drop (c.smf.releaseGfbr gfbr)).contexts)
    (lease.drop (c.smf.releaseGfbr gfbr)).accounts
  rw [drop_accounts, drop_contexts, add_zero]
  apply hK.giveBack
  rw [add_right_comm]
  exact hinv

theorem leaseIpv4_triple (g : Gfbr) (ty : PduSessionType) :
    K.Triple (K.worth ⟨none, none, g⟩) (leaseIpv4 ty) fun r => K.worth ⟨r.join, none, g⟩ := by
  unfold leaseIpv4
  split
  · refine .bind (P := fun ip => K.worth ⟨ip, none, g⟩) (.actShared fun t c w hinv => ?_)
      fun ip => .pure _ (by cases ip <;> rfl)
    have hinv : K.ok (t + K.total c.smf.contexts + K.worth ⟨none, none, g⟩) c.smf.accounts := by
      rw [add_right_comm]
      exact hinv
    cases halloc : c.smf.ueIpv4Pool.alloc with
    | mk v p =>
      cases v with
      | none =>
        have hp := U32Pool.alloc_none halloc
        simpa [discipline, SmfState.allocUeIp, SmfState.accounts, halloc, hp, add_right_comm]
          using hinv
      | some v =>
        have hok := hK.leaseIpv4 hinv halloc
        simpa [discipline, SmfState.allocUeIp, SmfState.accounts, halloc, add_right_comm]
          using hok
  · exact .pure _ rfl

theorem leaseIpv6_triple (g : Gfbr) (v4 : Option Ipv4Addr) (ty : PduSessionType) :
    K.Triple (K.worth ⟨v4, none, g⟩) (leaseIpv6 ty)
      fun r => K.worth ⟨v4, r.join.map fun a => a.1, g⟩ := by
  unfold leaseIpv6
  split
  · refine .bind (P := fun a => K.worth ⟨v4, a.map fun x => x.1, g⟩)
      (.actShared fun t c w hinv => ?_) fun a => .pure _ (by cases a <;> rfl)
    have hinv : K.ok (t + K.total c.smf.contexts + K.worth ⟨v4, none, g⟩) c.smf.accounts := by
      rw [add_right_comm]
      exact hinv
    cases halloc : c.smf.ueIpv6Pool.alloc with
    | mk v p =>
      cases v with
      | none =>
        have hp := U32Pool.alloc_none halloc
        simpa [discipline, SmfState.allocUeIpv6, SmfState.accounts, halloc, hp,
          add_right_comm] using hinv
      | some v =>
        have hok := hK.leaseIpv6 hinv halloc
        simpa [discipline, SmfState.allocUeIpv6, SmfState.accounts, halloc, add_right_comm]
          using hok
  · exact .pure _ rfl

theorem storeContext_triple (a : Admitted) (ctx : SmContext) :
    K.Triple (K.worth ctx.holdings) (storeContext a ctx) fun _ => 0 := by
  refine Discipline.Triple.mark_change_bind (fun t _ c w ha hinv => ?_)
    (neutral (.bind (stays_reconcileInfluenceBreakout SameAccounts.permits _) fun _ =>
      .bind (stays_spawn SameAccounts.beside _) fun _ => .pure _))
  · show K.ok (t + 0 + K.total (c.smf.contexts.insert a.smRef ctx)) c.smf.accounts
    rw [add_zero]
    exact hK.store ha hinv

theorem chainOrRollBack_triple (a : Admitted) (lease : IpLease) (ue : UeAddr)
    (est : EstablishedSession) :
    K.Triple (K.worth (lease.holdings a.reservedGfbr)) (chainOrRollBack a lease ue est)
      fun r => match r with
        | .ok _ => K.worth (lease.holdings a.reservedGfbr)
        | .error _ => 0 := by
  unfold chainOrRollBack
  split
  · refine neutral_bind (stays_establishChain (fun _ => ⟨rfl, rfl, rfl, .rfl⟩)
      (fun _ _ _ => trivial) _ _ _ _) fun r => ?_
    cases r with
    | ok leg => exact .pure _ rfl
    | error e =>
      refine neutral_bind (stays_transact SameAccounts.permits _ _) fun _ => ?_
      exact refuse_triple hK a.reservedGfbr lease _ rfl
  · exact .pure _ rfl

theorem establishSession_triple (a : Admitted) (cpSeid : Seid) (ueIp : Option Ipv4Addr)
    (ueIpv6 : Option (Ipv6Addr × BitVec 64)) :
    K.Triple (K.worth (IpLease.holdings ⟨ueIp, ueIpv6.map fun v6 => v6.1⟩ a.reservedGfbr))
      (establishSession a cpSeid ueIp ueIpv6) fun _ => 0 := by
  refine neutral_bind (stays_readSmf _) fun _ => neutral_bind (stays_transact SameAccounts.permits _ _) fun resp => ?_
  cases resp with
  | none => exact refuse_triple hK (P := fun _ => 0) _ _ _ rfl
  | some resp =>
    dsimp only
    cases resp.session with
    | none => exact refuse_triple hK (P := fun _ => 0) _ _ _ rfl
    | some est =>
      refine .bind (chainOrRollBack_triple hK a _ _ est)
        fun r => ?_
      cases r with
      | error p => exact .pure _ rfl
      | ok built =>
        refine neutral_bind (stays_openCharging SameAccounts.beside _) fun charging => ?_
        exact storeContext_triple hK a
          (a.context cpSeid built.1 built.2 ueIp ueIpv6 charging)

theorem leaseAndEstablish_triple {a : Admitted} {g : Gfbr} (hg : a.reservedGfbr = g) :
    K.Triple (K.worth ⟨none, none, g⟩) (leaseAndEstablish a) fun _ => 0 := by
  subst hg
  refine neutral_bind (stays_nextCpSeid SameAccounts.permits) fun cpSeid =>
    .bind (leaseIpv4_triple hK a.reservedGfbr _) fun v4 => ?_
  cases v4 with
  | none => exact refuse_triple hK (P := fun _ => 0) _ ⟨none, none⟩ _ rfl
  | some ueIp =>
    refine .bind (leaseIpv6_triple hK a.reservedGfbr ueIp _) fun v6 => ?_
    cases v6 with
    | none => exact refuse_triple hK (P := fun _ => 0) _ ⟨ueIp, none⟩ _ rfl
    | some ueIpv6 => exact establishSession_triple hK a cpSeid ueIp ueIpv6

/-- Admission control: what fits the budget is reserved. -/
theorem admit_triple (g : Gfbr) {t e : SmfM β} {P : β → M}
    (ht : K.Triple (K.worth ⟨none, none, g⟩) t P) (he : K.Triple 0 e P) :
    K.Triple 0 (do
      Proc.mark (.reserving g)
      if ← onSmf fun s => s.tryReserveGfbr g then t else e) P := by
  refine Discipline.Triple.mark_actShared_bind
    (P := fun admitted => if admitted then K.worth ⟨none, none, g⟩ else 0)
    (fun f _ c w ha hinv => ?_) fun admitted => ?_
  · show K.ok (f + (if (c.smf.tryReserveGfbr g).1 then K.worth ⟨none, none, g⟩ else 0) +
      K.total (c.smf.tryReserveGfbr g).2.contexts) (c.smf.tryReserveGfbr g).2.accounts
    have hinv : K.ok (f + K.total c.smf.contexts) c.smf.accounts := by
      simpa [discipline] using hinv
    rw [tryReserveGfbr_contexts]
    by_cases h : (c.smf.tryReserveGfbr g).1 = true
    · rw [if_pos h, add_right_comm]
      exact hK.reserve ha hinv h
    · rw [if_neg h, add_zero, tryReserveGfbr_refused h]
      exact hinv
  · cases admitted with
    | false => exact he
    | true => exact ht

theorem admitSession_triple (req : SmContextCreateData) (sub : SessionSubscription) :
    K.Triple 0 (admitSession req sub) fun _ => 0 := by
  refine neutral_bind (.actShared fun _ => ⟨rfl, rfl, rfl, .rfl⟩) fun smRef =>
    neutral_bind (stays_readSmf _) fun _ => neutral_bind (stays_fetchSmPolicy SameAccounts.beside _) fun created => ?_
  refine admit_triple hK _ ?_ (.pure _ rfl)
  refine neutral_bind (stays_readSmf _) fun path => ?_
  cases path with
  | error e => exact refuse_triple hK (P := fun _ => 0) _ ⟨none, none⟩ _ rfl
  | ok path => exact leaseAndEstablish_triple hK rfl

theorem createSmContext_triple (req : SmContextCreateData) :
    K.Triple 0 (createSmContext req) fun _ => 0 := by
  unfold createSmContext
  split
  · exact .pure _ rfl
  · split
    · exact .pure _ rfl
    · refine neutral_bind (.ask trivial) fun r => ?_
      cases r with
      | error p => exact .pure _ rfl
      | ok sub => exact admitSession_triple hK req sub

end Establishment

/-! ### Release and refresh -/

section Release

variable (hK : K.Sound)
include hK

theorem finishTeardown_triple (smRef : String) (c : SmContext) (usages : List Pfcp.UsageVolume) :
    K.Triple 0 (finishTeardown smRef c usages) fun _ => 0 := by
  refine neutral_bind (stays_spawn SameAccounts.beside _) fun _ =>
    Discipline.Triple.mark_change_bind (fun t _ core w ha hinv => ?_)
      (neutral (.bind (stays_spawn SameAccounts.beside _) fun _ => .pure _))
  show K.ok (t + 0 + K.total (reclaim c _).contexts) (reclaim c _).accounts
  rw [reclaim_accounts, reclaim_contexts, add_zero]
  have hinv : K.ok (t + K.total core.smf.contexts) core.smf.accounts := by
    simpa [discipline] using hinv
  exact hK.release ha hinv

theorem teardownSmContext_triple (smRef : String) :
    K.Triple 0 (teardownSmContext smRef) fun _ => 0 := by
  refine neutral_bind (stays_readSmf _) fun found => ?_
  cases found with
  | none => exact .pure _ rfl
  | some c =>
    refine neutral_bind (stays_transact SameAccounts.permits _ _) fun resp => ?_
    cases resp with
    | none => exact .pure _ rfl
    | some resp =>
      exact neutral_bind (stays_deleteLegs SameAccounts.permits _ _) fun _ => finishTeardown_triple hK _ _ _

/-- Giving back the holdings of contexts already taken out of the table, one by one. -/
theorem reclaim_all {t : M} {dropped : List SmContext} {s : SmfState}
    (h : K.ok (t + (dropped.map fun c => K.worth c.holdings).sum) s.accounts) :
    K.ok t (dropped.foldl (fun s ctx => reclaim ctx s) s).accounts := by
  induction dropped generalizing s with
  | nil => simpa using h
  | cons c rest ih =>
    refine ih (s := reclaim c s) ?_
    rw [reclaim_accounts]
    apply hK.giveBack
    rw [List.map_cons, List.sum_cons] at h
    rwa [add_assoc, add_comm _ (K.worth c.holdings)]

omit [AddCommMonoid M] hK in
theorem foldl_reclaim_contexts (dropped : List SmContext) (s : SmfState) :
    (dropped.foldl (fun s ctx => reclaim ctx s) s).contexts = s.contexts := by
  induction dropped generalizing s with
  | nil => rfl
  | cons c rest ih => rw [List.foldl_cons, ih, reclaim_contexts]

theorem recoverFromUpfRestart_triple (peer : String) :
    K.Triple 0 (recoverFromUpfRestart peer) fun _ => 0 := by
  refine neutral_bind (.ask trivial) fun _ => Discipline.Triple.mark_change fun t _ c w _ hinv => ?_
  show K.ok (t + 0 + K.total (dropAffected peer c).smf.contexts) (dropAffected peer c).smf.accounts
  have hinv : K.ok (t + K.total c.smf.contexts) c.smf.accounts := by
    simpa [discipline] using hinv
  unfold dropAffected
  dsimp only
  rw [foldl_reclaim_contexts, add_zero]
  apply reclaim_all hK
  rw [total, Map.total_partition _ fun ctx => ctx.path.uses peer, ← add_assoc] at hinv
  exact hinv

theorem handleUsageReport_triple (cpSeid : Seid) (usage : Pfcp.UsageVolume) :
    K.Triple 0 (handleUsageReport cpSeid usage) fun _ => 0 := by
  refine neutral_bind (stays_readSmf _) fun found => ?_
  rcases found with _ | ⟨smRef, c⟩
  · exact .pure _ rfl
  · refine neutral_bind (.ask trivial) fun _ => ?_
    split
    · exact .pure _ rfl
    · refine neutral_bind (.ask trivial) fun answer => ?_
      split
      · split
        · exact .bind (teardownSmContext_triple hK smRef) fun _ => .pure _ rfl
        · exact .pure _ rfl
      · exact .pure _ rfl

theorem refreshSmPolicy_triple (smRef : String) :
    K.Triple 0 (refreshSmPolicy smRef) fun _ => 0 := by
  refine neutral_bind (stays_readSmf _) fun found => ?_
  cases found with
  | none => exact .pure _ rfl
  | some c =>
    dsimp only
    split
    · exact .pure _ rfl
    · refine neutral_bind (stays_overHttp SameAccounts.beside _ (stays_updateSmPolicy SameAccounts.beside _ _)) fun answer => ?_
      cases answer with
      | error e => exact neutral (.bind (.mark _) fun _ => .pure _)
      | ok update =>
        refine neutral_bind (stays_propagateAmbr SameAccounts.permits.calm _ _) fun _ =>
          neutral_bind (stays_propagateFlows SameAccounts.permits.calm _ _) fun _ =>
            Discipline.Triple.mark_change_bind (fun t _ core w ha hinv => ?_)
              (neutral (.bind (stays_reconcileInfluenceBreakout SameAccounts.permits _) fun _ =>
                .bind (stays_spawn SameAccounts.beside _) fun _ => .pure _))
        rw [add_zero] at hinv ⊢
        exact hK.merge ha hinv

end Release

/-! ### All handlers -/

/-- Every handler starts and ends with nothing of its own. -/
theorem handle_triple (hK : K.Sound) (req : Request) : K.Triple 0 (handle req) fun _ => 0 := by
  cases req with
  | create req => exact .bind (createSmContext_triple hK req) fun _ => .pure _ rfl
  | update smRef req => exact neutral (.bind (stays_updateSmContext SameAccounts.permits.calm _ _) fun _ => .pure _)
  | indirectForwarding smRef req =>
    exact neutral (.bind (stays_indirectForwarding SameAccounts.permits _ _) fun _ => .pure _)
  | breakout req => exact neutral (.bind (stays_oamBreakout SameAccounts.permits _) fun _ => .pure _)
  | refresh smRef => exact .bind (refreshSmPolicy_triple hK smRef) fun _ => .pure _ rfl
  | release smRef => exact .bind (teardownSmContext_triple hK smRef) fun _ => .pure _ rfl
  | usageReport cpSeid usage => exact handleUsageReport_triple hK cpSeid usage
  | recover peer => exact recoverFromUpfRestart_triple hK peer
  | job i => exact neutral (stays_runJob SameAccounts.beside i)

theorem keeps (hK : K.Sound) : K.discipline.Keeps smfSystem where
  fresh _ _ := rfl
  body req f l s w _ hinv :=
    Proc.wp_mono (K.discipline.sharing_monotone _) (fun _ _ _ _ h => h.2)
      (handle_triple hK req f l s w hinv)

theorem holds_start {cfg : SmfConfig} (h₀ : K.ok 0 cfg.start.smf.accounts) :
    K.discipline.Holds smfSystem cfg.pool := by
  refine Discipline.holds_empty ?_
  show K.ok (0 + K.total cfg.start.smf.contexts) cfg.start.smf.accounts
  simpa [total, SmfConfig.start] using h₀

/-- **The ledger is in order in every state of every allowed run**, for the stored contexts
together with whatever the handlers under way hold. -/
theorem reach (hK : K.Sound) {cfg : SmfConfig} (h₀ : K.ok 0 cfg.start.smf.accounts)
    {p : Pool Unit Core Mark Call Call.Answer Unit}
    (h : Pool.Reach smfSystem (fun n _ c _ => K.allow n c) cfg.pool p) :
    ∃ m, K.ok (m + K.total p.shared.smf.contexts) p.shared.smf.accounts := by
  obtain ⟨m, -, hinv⟩ := Discipline.reach (keeps hK) (holds_start h₀) h
  exact ⟨m, hinv⟩

/-- When no handler is under way, the stored contexts alone make up the total. -/
theorem reach_quiet (hK : K.Sound) {cfg : SmfConfig} (h₀ : K.ok 0 cfg.start.smf.accounts)
    {p : Pool Unit Core Mark Call Call.Answer Unit}
    (h : Pool.Reach smfSystem (fun n _ c _ => K.allow n c) cfg.pool p) (hq : p.Quiet) :
    K.ok (K.total p.shared.smf.contexts) p.shared.smf.accounts := by
  have hinv : K.ok (0 + K.total p.shared.smf.contexts) p.shared.smf.accounts :=
    Discipline.reach_idle (keeps hK) (fun _ => rfl) (holds_start h₀) h hq
  rwa [zero_add] at hinv

end Ledger

end Radian.Smf
