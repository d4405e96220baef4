import Radian.Replica.Basic
import Radian.Smf.Ledger

/-!
# The SMF's policy follows the PCF's

Refreshes of one session: the PCF is the base, the policy stored on the SM context the replica.

- `policies_agree` — once all refreshes have completed the two policies agree, in every run in which
  each refresh reaches the PCF while the PCF's base is what the refresh has read at the SMF, and no
  refresh overwrites what a later one stored.
- `policies_not_agree` — and not in every run: of two overlapping refreshes the second gets an empty
  delta, and merges it onto the snapshot from before the first.
-/

namespace Radian.Smf

open Proc (Stays wp)
open Keyed (Map)
open Npcf (SmPolicyDecision SmPolicyUpdate SmPolicyContextData HashMap)
open Replica (Progress Following)

/-- Agreement of decisions is transitive. -/
instance : IsTrans SmPolicyDecision SmPolicyDecision.Agree := ⟨fun _ _ _ h h' => h.trans h'⟩

/-! ### Refreshes of one session -/

/-- Any number of refreshes of the session `smRef`.  The PCF's readings are numbered; the policy
sources may change between any two of them. -/
def refreshSystem (smRef : String) : System Unit Core Mark Call Call.Answer Progress Unit where
  answers e w r := match e, r with
    | .decideFor _, reading => reading.number == w.issued + 1
    | _, _ => true
  effect e r w := match e, r with
    | .decideFor _, reading => { w with issued := reading.number }
    | _, _ => w
  mark n _ _ w := match n with
    | .merging _ number _ => { w with merged := max w.merged number }
    | .refreshFailed _ => { w with lost := true }
    | _ => w
  body _ := handle (.refresh smRef)
  enabled _ _ _ := true
  initial _ := true

/-- When a refresh reaches the PCF, the decision stored there is the one the refresh has read at the
SMF; and when it stores its own, no later one has been stored, or one with the same content. -/
def FollowsBase : Mark → Core → Progress → Prop
  | .reauthorizing policyId snapshot, c, _ =>
      ∀ entry ∈ c.pcf.associations.lookup policyId, snapshot.same entry.2 = true
  | .merging smRef number decision, c, w =>
      w.merged ≤ number ∨
        ∀ ctx ∈ c.smf.contexts.lookup smRef, decision.same ctx.policy = true
  | _, _, _ => True

/-- The association and the policy on a context. -/
def policyOn (smRef : String) (c : Core) : Option (Option (String × String) × SmPolicyDecision) :=
  (c.smf.contexts.lookup smRef).map fun ctx => (ctx.smPolicy, ctx.policy)

/-- The context and the PCF's association are there, and the one follows the other. -/
def PolicyFollows (smRef policyId : String) (pending : Multiset (Nat × SmPolicyDecision))
    (c : Core) (w : Progress) : Prop :=
  ∃ base policy pctx stored, policyOn smRef c = some (some (base, policyId), policy) ∧
    c.pcf.associations.lookup policyId = some (pctx, stored) ∧
    Following SmPolicyDecision.Agree pending w policy stored

def policyDiscipline (smRef policyId : String) :
    Discipline Unit Core Mark Progress (Multiset (Nat × SmPolicyDecision)) where
  inv := PolicyFollows smRef policyId
  own _ := 0
  allow n _ c w := FollowsBase n c w

/-! ### What leaves the policy alone -/

/-- No context's policy and nothing at the PCF changes. -/
structure SamePolicies (c c' : Core) : Prop where
  smf : ∀ smRef, policyOn smRef c' = policyOn smRef c
  pcf : c'.pcf = c.pcf

theorem SamePolicies.permits : Permits SamePolicies IsN4 where
  seid _ := ⟨fun _ => rfl, rfl⟩
  context c smRef f hf := by
    refine ⟨fun smRef' => ?_, rfl⟩
    have hview : ∀ ctx, ((f ctx).smPolicy, (f ctx).policy) = (ctx.smPolicy, ctx.policy) :=
      fun ctx => congrArg Prod.snd (hf ctx)
    simp only [policyOn, Map.lookup_modify]
    by_cases h : smRef' = smRef
    · subst h
      rw [if_pos rfl, Option.map_map]
      exact congrArg (Option.map · _) (funext hview)
    · rw [if_neg h]
  n4 _ _ := trivial

section Refresh

variable {smRef policyId : String}

theorem PolicyFollows.same {m : Multiset (Nat × SmPolicyDecision)} {c c' : Core} {w : Progress}
    (hs : SamePolicies c c') (h : PolicyFollows smRef policyId m c w) :
    PolicyFollows smRef policyId m c' w := by
  obtain ⟨base, policy, pctx, stored, hon, hat, hfollow⟩ := h
  refine ⟨base, policy, pctx, stored, ?_, ?_, hfollow⟩
  · rw [hs.smf, hon]
  · rw [hs.pcf, hat]

theorem policyDiscipline_steady :
    (policyDiscipline smRef policyId).Steady (refreshSystem smRef).toOutside IsN4 where
  effect {e r m s w} he _ h := by
    cases e with
    | transact peer req => exact h
    | _ => exact he.elim
  mark {n l m c w} _ h := by
    obtain ⟨base, policy, pctx, stored, hon, hat, hissued, hnewest, hcovered⟩ := h
    cases n with
    | merging r number decision =>
      refine ⟨base, policy, pctx, stored, hon, hat, hissued, hnewest, ?_⟩
      exact hcovered.imp_right (.imp_left fun h => ⟨h.1, le_max_of_le_left h.2⟩)
    | refreshFailed r => exact ⟨base, policy, pctx, stored, hon, hat, hissued, hnewest, .inl rfl⟩
    | _ => exact ⟨base, policy, pctx, stored, hon, hat, hissued, hnewest, hcovered⟩

/-- A triple over the updates on their way. -/
abbrev RefreshTriple (smRef policyId : String) {α : Type}
    (m : Multiset (Nat × SmPolicyDecision)) (t : SmfM α)
    (P : α → Multiset (Nat × SmPolicyDecision)) : Prop :=
  Discipline.Triple (policyDiscipline smRef policyId) (refreshSystem smRef).toOutside m t P

theorem refresh_stays {α : Type} {m : Multiset (Nat × SmPolicyDecision)} {t : SmfM α}
    (ht : Stays SamePolicies IsN4 t) : RefreshTriple smRef policyId m t fun _ => m :=
  .of_stays policyDiscipline_steady PolicyFollows.same ht

/-! ### The two ends of a refresh -/

/-- A refresh that fails drops the update it may have had. -/
theorem fail_triple {α : Type} (m : Multiset (Nat × SmPolicyDecision)) (a : α) :
    RefreshTriple smRef policyId m (do Proc.mark (.refreshFailed smRef); return a) fun _ => 0 := by
  rintro f l c w ⟨base, policy, pctx, stored, hon, hat, hfollow⟩ _
  refine ⟨rfl, base, policy, pctx, stored, hon, hat, ?_⟩
  rw [add_zero]
  exact hfollow.lose

/-- The last section of a refresh stores its decision. -/
theorem merge_follows {f : Multiset (Nat × SmPolicyDecision)} {number : Nat}
    {decision : SmPolicyDecision} {c : Core} {w : Progress}
    (hallow : FollowsBase (.merging smRef number decision) c w)
    (h : PolicyFollows smRef policyId (f + {(number, decision)}) c w) :
    PolicyFollows smRef policyId f
      { c with smf := storeDecision smRef decision c.smf }
      { w with merged := max w.merged number } := by
  obtain ⟨base, policy, pctx, stored, hon, hat, hfollow⟩ := h
  obtain ⟨ctx, hctx, hview⟩ := Option.map_eq_some_iff.mp hon
  obtain ⟨hpolicyId, rfl⟩ := Prod.mk.inj hview
  have horder : w.merged ≤ number ∨ SmPolicyDecision.Agree decision ctx.policy :=
    hallow.imp_right fun hsame => SmPolicyDecision.same_iff_agree.mp (hsame ctx hctx)
  refine ⟨base, decision, pctx, stored, ?_, hat, hfollow.merge horder⟩
  simp only [policyOn, storeDecision_contexts, Map.lookup_modify, if_true, hctx, Option.map_some,
    hpolicyId]

theorem mergeAndReconcile_triple (c : SmContext) (number : Nat) (decision : SmPolicyDecision)
    (js : List Job) (resp : Except SbiProblem Response) :
    RefreshTriple smRef policyId {(number, decision)} (do
      propagateAmbr c decision
      propagateFlows c decision
      Proc.mark (.merging smRef number decision)
      changeSmf (storeDecision smRef decision)
      reconcileInfluenceBreakout smRef
      spawn js
      return resp) fun _ => 0 := by
  refine .bind (refresh_stays (stays_propagateAmbr SamePolicies.permits.calm c decision)) fun _ =>
    .bind (refresh_stays (stays_propagateFlows SamePolicies.permits.calm c decision)) fun _ =>
      Discipline.Triple.mark_change_bind (fun f _ core w ha hinv => ?_) (refresh_stays ?_)
  · rw [add_zero]
    exact merge_follows ha hinv
  · exact .bind (stays_reconcileInfluenceBreakout SamePolicies.permits smRef) fun _ =>
      .bind (.change fun _ => ⟨fun _ => rfl, rfl⟩) fun _ => .pure _

/-! ### At the PCF -/

/-- What a refresh has on its way when the PCF has answered. -/
def Carries (smRef policyId : String) (snapshot : SmPolicyDecision)
    (r : Except String (Nat × SmPolicyUpdate)) (c : Core)
    (x : Multiset (Nat × SmPolicyDecision) × Progress) : Prop :=
  ∃ m, PolicyFollows smRef policyId (x.1 + m) c x.2 ∧
    ∀ number update, r = .ok (number, update) → m = {(number, snapshot.apply update)}

/-- The PCF's base steps to the decision it reads; the delta, merged onto the snapshot, agrees with
it. -/
theorem updateSmPolicy_carries (snapshot : SmPolicyDecision)
    {f : Multiset (Nat × SmPolicyDecision)} {l : Unit} {c : Core} {w : Progress}
    (h : PolicyFollows smRef policyId f c w) :
    wp ((policyDiscipline smRef policyId).sharing (refreshSystem smRef).toOutside)
      (updateSmPolicy policyId snapshot)
      (fun r _ c' x => Carries smRef policyId snapshot r c' x) l c (f, w) := by
  obtain ⟨base, policy, pctx, stored, hon, hat, hfollow⟩ := h
  simp only [updateSmPolicy, Proc.wp_bind, Proc.wp_mark, Discipline.sharing_note, Proc.wp_look, hat,
    wp_decideFor]
  intro hallow
  have hbase : SmPolicyDecision.Agree snapshot stored :=
    SmPolicyDecision.same_iff_agree.mp (hallow (pctx, stored) hat)
  refine Discipline.sharing_call 0 ⟨base, policy, pctx, stored, hon, hat, ?_⟩ ?_
  · rw [add_zero]
    exact hfollow
  rintro f c w ⟨base, policy, pctx', stored', hon, hat, hfollow⟩ reading hreading
  have hnumber : reading.number = w.issued + 1 := eq_of_beq hreading
  refine ⟨{(reading.number, snapshot.apply ((stored.diff reading.decision).getD {}))},
    ⟨base, policy, pctx', reading.decision, hon, ?_, ?_⟩, ?_⟩
  · simp only [Map.lookup_modify, if_true, hat, Option.map_some]
  · rw [add_zero] at hfollow
    have hsent : SmPolicyDecision.Agree
        (snapshot.apply ((stored.diff reading.decision).getD {})) reading.decision :=
      SmPolicyDecision.apply_diff_same hbase
    have hissue := hfollow.issue hsent
    rw [← hnumber] at hissue
    exact hissue
  · rintro number update ⟨⟩
    rfl

theorem overHttp_carries (snapshot : SmPolicyDecision)
    {f : Multiset (Nat × SmPolicyDecision)} {l : Unit} {c : Core} {w : Progress}
    (h : PolicyFollows smRef policyId f c w) :
    wp ((policyDiscipline smRef policyId).sharing (refreshSystem smRef).toOutside)
      (overHttp "PCF" (updateSmPolicy policyId snapshot))
      (fun r _ c' x => Carries smRef policyId snapshot r c' x) l c (f, w) := by
  simp only [overHttp, Proc.wp_bind, wp_sendRequest]
  refine Discipline.sharing_call 0 (by rwa [add_zero]) ?_
  intro f c w h delivered _
  rw [add_zero] at h
  cases delivered with
  | false =>
    refine ⟨0, by rwa [add_zero], ?_⟩
    rintro number update ⟨⟩
  | true =>
    simp only [if_true, Proc.wp_bind]
    refine Proc.wp_mono (Discipline.sharing_monotone _ _) ?_ (updateSmPolicy_carries snapshot h)
    rintro r l' c' ⟨f', w'⟩ ⟨m, hm, hcarries⟩
    refine Discipline.sharing_call m hm ?_
    intro f'' c'' w'' h'' returned _
    cases returned with
    | true => exact ⟨m, h'', hcarries⟩
    | false =>
      refine ⟨m, h'', ?_⟩
      rintro number update ⟨⟩

theorem refreshSmPolicy_keeps {f : Multiset (Nat × SmPolicyDecision)} {l : Unit} {c : Core}
    {w : Progress} (h : PolicyFollows smRef policyId f c w) :
    wp ((policyDiscipline smRef policyId).sharing (refreshSystem smRef).toOutside)
      (refreshSmPolicy smRef)
      (fun _ _ c' x => PolicyFollows smRef policyId (x.1 + 0) c' x.2) l c (f, w) := by
  obtain ⟨base, policy, pctx, stored, hon, -⟩ := id h
  obtain ⟨ctx, hctx, hview⟩ := Option.map_eq_some_iff.mp hon
  obtain ⟨hpolicyId, -⟩ := Prod.mk.inj hview
  simp only [refreshSmPolicy, Proc.wp_bind, wp_readSmf, hctx, hpolicyId]
  refine Proc.wp_mono (Discipline.sharing_monotone _ _) ?_ (overHttp_carries ctx.policy h)
  rintro r l' c' ⟨f', w'⟩ ⟨m, hm, hcarries⟩
  have hmono := Discipline.sharing_monotone (policyDiscipline smRef policyId)
    (refreshSystem smRef).toOutside
  cases r with
  | error e => exact Proc.wp_mono hmono (fun _ _ _ _ h => h.2) (fail_triple m _ f' l' c' w' hm)
  | ok answer =>
    obtain ⟨number, update⟩ := answer
    obtain rfl := hcarries number update rfl
    exact Proc.wp_mono hmono (fun _ _ _ _ h => h.2)
      (mergeAndReconcile_triple ctx number _ _ _ f' l' c' w' hm)

end Refresh

/-! ### The claim about runs -/

theorem policyDiscipline_keeps (smRef policyId : String) :
    (policyDiscipline smRef policyId).Keeps (refreshSystem smRef) where
  fresh _ _ := rfl
  body _ f l c w _ hinv := by
    rw [show (policyDiscipline smRef policyId).own l = 0 from rfl, add_zero] at hinv
    refine (Proc.wp_bind _ _ _).mpr ?_
    refine Proc.wp_mono (Discipline.sharing_monotone _ _) ?_ (refreshSmPolicy_keeps hinv)
    exact fun _ _ _ _ h => h

/-- **Once all refreshes have completed, the SMF's policy is the PCF's**, in every run in which each
refresh meets the PCF's base it has read and none overwrites a later one. -/
theorem policies_agree (smRef base policyId : String) (c₀ : Core) (ctx : SmContext)
    (pctx : SmPolicyContextData) (stored : SmPolicyDecision)
    (hctx : c₀.smf.contexts.lookup smRef = some ctx) (hid : ctx.smPolicy = some (base, policyId))
    (hstored : c₀.pcf.associations.lookup policyId = some (pctx, stored))
    (hsame : ctx.policy.same stored = true)
    (p : Pool Unit Core Mark Call Call.Answer Progress)
    (h : Pool.Reach (refreshSystem smRef) (fun n _ c w => FollowsBase n c w)
      { threads := [], shared := c₀, world := {} } p)
    (hq : p.Quiet) (hlost : p.world.lost = false) :
    ∃ ctx' pctx' stored', p.shared.smf.contexts.lookup smRef = some ctx' ∧
      p.shared.pcf.associations.lookup policyId = some (pctx', stored') ∧
      ctx'.policy.same stored' = true := by
  have hstart : PolicyFollows smRef policyId 0 c₀ {} := by
    refine ⟨base, ctx.policy, pctx, stored, ?_, hstored, ?_⟩
    · simp [policyOn, hctx, hid]
    · exact .start (SmPolicyDecision.same_iff_agree.mp hsame)
  obtain ⟨base', policy, pctx', stored', hon, hat, hfollow⟩ :=
    Discipline.reach_idle (policyDiscipline_keeps smRef policyId) (fun _ => rfl)
      (Discipline.holds_empty hstart) h hq
  obtain ⟨ctx', hctx', hview⟩ := Option.map_eq_some_iff.mp hon
  obtain ⟨-, rfl⟩ := Prod.mk.inj hview
  exact ⟨ctx', pctx', stored', hctx', hat,
    SmPolicyDecision.same_iff_agree.mpr (hfollow.settled hlost)⟩

/-! ### Two runs -/

instance : ∀ (n : Mark) (c : Core) (w : Progress), Decidable (FollowsBase n c w)
  | .reauthorizing _ _, _, _ | .merging _ _ _, _, _ => by
      dsimp only [FollowsBase]
      infer_instance
  | .reserving _, _, _ | .storing _ _, _, _ | .abandoning _, _, _ | .releasing _ _, _, _
  | .recovering _, _, _ | .forwarding _ _, _, _ | .refreshFailed _, _, _ => instDecidableTrue

/-- A decision whose only content is one charging decision. -/
def chargedUnder (ratingGroup : UInt32) : SmPolicyDecision :=
  { chargingDescs := (∅ : HashMap Npcf.ChargingData).insert "data" { ratingGroup } }

def samplePolicyContext : SmPolicyContextData :=
  { supi := sampleCreate.supi, pduSessionId := 1, dnn := "internet", snssaiSst := some 1
    snssaiSd := none, notificationUri := none }

def sampleSession : SmContext :=
  { upSeid := 7, cpSeid := 1, n3Teid := 1, n3Addr := 0x0A000001, chain := none
    path := { anchor := "anchor", intermediate := none, breakout := none }
    ueIp := some 0x0A2D0002, pduType := .ipv4, ueIpv6 := none, dnn := "internet"
    snssai := sampleSnssai, gnb := none, indirectFwd := none, supi := sampleCreate.supi
    pduSessionId := 1, smPolicy := some ("http://pcf", "1"), policy := chargedUnder 10
    reservedGfbr := (0, 0), policyBreakout := false, charging := none }

/-- One session under a policy the PCF stores as well. -/
def oneSession : Core :=
  { smf := { oneUpf.start.smf with contexts := (∅ : HashMap SmContext).insert "1" sampleSession }
    pcf := { associations := (∅ : HashMap _).insert "1" (samplePolicyContext, chargedUnder 10) } }

/-- The sources now give rating group 20; this is the `number`th reading. -/
def rated (number : Nat) : (e : Call) → e.Answer
  | .decideFor _ => { number, decision := chargedUnder 20 }
  | e => sampleAnswer [] e

abbrev RefreshMove : Type := Pool.Move Unit Call Call.Answer Unit

/-- A refresh that thread `i` has begun reaches the PCF, which reads its sources, and comes back. -/
def complete (i number : Nat) : List RefreshMove :=
  [.resume i (rated number), .resume i (rated number), .resume i (rated number)]

/-- The rating group of a decision. -/
def ratingOf (d : SmPolicyDecision) : Option UInt32 :=
  (d.chargingDescs.lookup "data").map fun data => data.ratingGroup

/-- The rating group at the SMF and at the PCF, and whether all is quiet with nothing lost. -/
def ratings (p : Pool Unit Core Mark Call Call.Answer Progress) :
    Option UInt32 × Option UInt32 × Bool :=
  ((p.shared.smf.contexts.lookup "1").bind fun c => ratingOf c.policy,
    (p.shared.pcf.associations.lookup "1").bind fun e => ratingOf e.2,
    p.threads.all Thread.isIdle && !p.world.lost)

/-- One refresh after the other. -/
def refreshTwice : List RefreshMove :=
  [.spawn (), .start 0 ()] ++ complete 0 1 ++ [.start 0 ()] ++ complete 0 2

theorem policies_agree_refreshTwice :
    ∃ p, Pool.moves (refreshSystem "1") (fun n _ c w => FollowsBase n c w) refreshTwice
        { threads := [], shared := oneSession, world := {} } = some p ∧
      p.world.issued = 2 ∧
      ∃ ctx' pctx' stored', p.shared.smf.contexts.lookup "1" = some ctx' ∧
        p.shared.pcf.associations.lookup "1" = some (pctx', stored') ∧
        ctx'.policy.same stored' = true := by
  have hrun : (Pool.moves (refreshSystem "1") (fun n _ c w => FollowsBase n c w) refreshTwice
      { threads := [], shared := oneSession, world := {} }).map
        (fun p => (p.world.issued, p.threads.all Thread.isIdle, p.world.lost)) =
          some (2, true, false) := by
    decide +kernel
  obtain ⟨p, hp, hview⟩ := Option.map_eq_some_iff.mp hrun
  obtain ⟨hissued, hrest⟩ := Prod.mk.inj hview
  obtain ⟨hidle, hlost⟩ := Prod.mk.inj hrest
  exact ⟨p, hp, hissued, policies_agree "1" "http://pcf" "1" oneSession sampleSession
    samplePolicyContext (chargedUnder 10) (AList.lookup_insert _) rfl (AList.lookup_insert _)
    (by decide) p (Pool.reach_moves hp) (Pool.quiet_of_all hidle) hlost⟩

/-- Two refreshes both read the session's policy; then one completes, and after it the other. -/
def refreshTogether : List RefreshMove :=
  [.spawn (), .spawn (), .start 0 (), .start 1 ()] ++ complete 0 1 ++ complete 1 2

/-- Not every run ends in agreement: the SMF has gone back to rating group 10. -/
theorem policies_not_agree :
    ¬ ∀ (smRef base policyId : String) (c₀ : Core) (ctx : SmContext)
      (pctx : SmPolicyContextData) (stored : SmPolicyDecision),
      c₀.smf.contexts.lookup smRef = some ctx → ctx.smPolicy = some (base, policyId) →
      c₀.pcf.associations.lookup policyId = some (pctx, stored) →
      ctx.policy.same stored = true →
      ∀ p : Pool Unit Core Mark Call Call.Answer Progress,
        Pool.Reach (refreshSystem smRef) (fun _ _ _ _ => True)
          { threads := [], shared := c₀, world := {} } p →
        p.Quiet → p.world.lost = false →
        ∃ ctx' pctx' stored', p.shared.smf.contexts.lookup smRef = some ctx' ∧
          p.shared.pcf.associations.lookup policyId = some (pctx', stored') ∧
          ctx'.policy.same stored' = true := by
  intro hall
  have hrun : (Pool.moves (refreshSystem "1") (fun _ _ _ _ => True) refreshTogether
      { threads := [], shared := oneSession, world := {} }).map ratings =
        some (some 10, some 20, true) := by
    decide +kernel
  obtain ⟨p, hp, hview⟩ := Option.map_eq_some_iff.mp hrun
  obtain ⟨hsmf, hrest⟩ := Prod.mk.inj hview
  obtain ⟨hpcf, hdone⟩ := Prod.mk.inj hrest
  simp only [Bool.and_eq_true, Bool.not_eq_true'] at hdone
  obtain ⟨ctx', pctx', stored', hctx', hstored', hsame⟩ := hall "1" "http://pcf" "1" oneSession
    sampleSession samplePolicyContext (chargedUnder 10) (AList.lookup_insert _) rfl
    (AList.lookup_insert _) (by decide) p (Pool.reach_moves hp) (Pool.quiet_of_all hdone.1) hdone.2
  rw [hctx', Option.bind_some] at hsmf
  rw [hstored', Option.bind_some] at hpcf
  have hagree := (SmPolicyDecision.same_iff_agree.mp hsame).chargingDescs "data"
  rw [ratingOf, hagree] at hsmf
  exact absurd (hsmf.symm.trans hpcf) (by decide)

end Radian.Smf
