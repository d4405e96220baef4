import Radian.Npcf.Pcf

/-!
# AF influences at the PCF

What the AF influences ask of a session, against the decision stored for it, under any interleaving of
the PCF's handlers.

- `Carries` — a decision carries the routes asked for, and none of an app session that is gone.
- `Standing` — every association carries them or has an update in flight that will.
- `Heeds` — the steps that keep this.
- `influenced_of_heeds` — in a run of such steps every association carries them whenever no handler is
  in flight.
-/

namespace Radian.Npcf

open Keyed (Map)

/-! ### What is asked for -/

/-- The traffic-control decision that an app session asks for a UE on a DNN. -/
def asked (influences : HashMap AfInfluence) (supi dnn id : String) : Option TrafficControlData :=
  (influences.lookup id).bind fun inf =>
    if inf.supi = supi ∧ inf.dnn = dnn then some inf.control else none

/-- The same routes are asked for the session. -/
def SameAsked (influences influences' : HashMap AfInfluence) (ctx : SmPolicyContextData) : Prop :=
  ∀ id, asked influences ctx.supi ctx.dnn id = asked influences' ctx.supi ctx.dnn id

/-- A decision carries the routes asked for, and no other app session's. -/
def Carries (influences : HashMap AfInfluence) (ctx : SmPolicyContextData) (d : SmPolicyDecision) :
    Prop :=
  ∀ id, d.trafficControlData.lookup (afKey id) = asked influences ctx.supi ctx.dnn id

/-- Every stored decision carries the routes asked for. -/
def Influenced (pcf : PcfState) : Prop :=
  ∀ policyId a, pcf.associations.lookup policyId = some a → Carries pcf.influences a.1 a.2

/-- A policy of its own has no entry under the key of an app session. -/
def Plain (d : SmPolicyDecision) : Prop := ∀ id, d.trafficControlData.lookup (afKey id) = none

theorem SameAsked.carries {influences influences' : HashMap AfInfluence} {ctx : SmPolicyContextData}
    {d : SmPolicyDecision} (h : SameAsked influences influences' ctx) (hd : Carries influences ctx d) :
    Carries influences' ctx d := fun id => (hd id).trans (h id)

theorem afKey_injective : Function.Injective afKey := fun _ _ h => (String.append_right_inj _).mp h

theorem influenceKey_ne (id id' : String) : influenceKey id ≠ afKey id' := by
  intro h
  have hchars := congrArg String.toList h
  simp [influenceKey, afKey] at hchars

/-- The influences are folded into a policy of its own. -/
theorem carries_apply (influences : HashMap AfInfluence) (ctx : SmPolicyContextData)
    {d : SmPolicyDecision} (hplain : Plain d) :
    Carries influences ctx (applyInfluences influences ctx d) := by
  intro id
  have loop := Map.lookup_foldl_of_injective afKey_injective
    (g := fun tcs (e : Sigma fun _ : String => AfInfluence) =>
      if e.2.supi = ctx.supi ∧ e.2.dnn = ctx.dnn then tcs.insert (afKey e.1) e.2.control else tcs)
    (c := fun _ inf old => if inf.supi = ctx.supi ∧ inf.dnn = ctx.dnn then some inf.control else old)
    (fun m k inf => by
      dsimp only
      split
      · exact AList.lookup_insert m
      · rfl)
    (fun m k inf k' hk => by
      dsimp only
      split
      · exact AList.lookup_insert_ne hk
      · rfl)
    influences d.trafficControlData id
  rw [hplain id] at loop
  rw [applyInfluences, loop, asked]
  cases influences.lookup id <;> rfl

/-- Influences for groups have keys of their own. -/
theorem carries_group {influences : HashMap AfInfluence} {ctx : SmPolicyContextData}
    {d : SmPolicyDecision} (hd : Carries influences ctx d) (pcf : PcfState)
    (influenceData : Except String (List (String × Option TrafficInfluData))) :
    Carries influences ctx (pcf.applyGroupInfluences ctx influenceData d) := by
  intro id
  rw [← hd id]
  unfold PcfState.applyGroupInfluences
  split
  · split
    · rename_i docs
      dsimp only
      generalize d.trafficControlData = tcs
      induction docs generalizing tcs with
      | nil => rfl
      | cons doc docs ih =>
        rw [List.foldl_cons, ih]
        split
        · exact AList.lookup_insert_ne (influenceKey_ne _ _).symm
        · rfl
    · rfl
  · rfl

/-! ### The condition -/

/-- No handler is in flight. -/
def Quiet (p : Tasks.Pool PcfState Task) : Prop := ∀ t ∈ p.tasks, t.isReturned = true

/-- An update of the association, which has yet to read the influences. -/
def Task.ToRead (policyId : String) : Task → Prop
  | .notify id _ _ => id = policyId
  | .policyData (.update id _ _ _) _ => id = policyId
  | _ => False

/-- An update of the association, since whose reading the session is asked for the same. -/
def Task.HasRead (influences : HashMap AfInfluence) (policyId : String) : Task → Prop
  | .influenceData (.update id ctx _ _) _ seen _ => id = policyId ∧ SameAsked seen influences ctx
  | _ => False

/-- The association whose decision a handler is making. -/
def Task.target : Task → Option String
  | .policyData (.update id _ _ _) _ => some id
  | .influenceData (.update id _ _ _) _ _ _ => some id
  | _ => none

/-- Every association of the UE on the DNN is the one that is notified, or has an update in flight
that has yet to read the influences. -/
def Reaches (p : Tasks.Pool PcfState Task) (scan : List String) (supi dnn : String) : Prop :=
  ∀ policyId a, p.shared.associations.lookup policyId = some a → a.1.supi = supi → a.1.dnn = dnn →
    (p.shared.notifyUriFor scan supi dnn).map Prod.fst = some policyId ∨
      ∃ t ∈ p.tasks, t.ToRead policyId

/-- An influence comes or goes only where all associations it concerns are reached; a decision is
stored only while it, or another update of the association, reflects what is asked for; no policy of
its own uses the keys of app sessions; and no id is drawn that is in use. -/
def Heeds (p : Tasks.Pool PcfState Task) : Tasks.Move Request → Prop
  | .start (.createAppSession req scan _) =>
      ∀ inf, req.influence = some inf →
        p.shared.influences.lookup (toString p.shared.nextId) = none ∧
          Reaches p scan inf.supi inf.dnn
  | .start (.deleteAppSession id scan _) =>
      ∀ inf, p.shared.influences.lookup id = some inf → Reaches p scan inf.supi inf.dnn
  | .start _ => True
  | .step i =>
      match p.tasks[i]? with
      | some (.policyData goal udr) => Plain (p.shared.baseDecisionFor goal.ctx udr.policyData)
      | some (.influenceData (.create ctx) _ seen _) =>
          SameAsked seen p.shared.influences ctx ∧
            ∀ t ∈ p.tasks, t.target ≠ some (toString p.shared.nextId)
      | some (.influenceData (.update policyId _ _ _) _ _ _) =>
          (p.shared.associations.lookup policyId).isSome = true →
            ∃ t ∈ p.tasks, t.ToRead policyId ∨ t.HasRead p.shared.influences policyId
      | _ => True

/-! ### The invariant -/

/-- An association that is updated has the context that the update has read. -/
def Placed (associations : HashMap Association) : Goal → Prop
  | .create _ => True
  | .update policyId ctx _ _ => ∀ a, associations.lookup policyId = some a → a.1 = ctx

def Spot (associations : HashMap Association) : Task → Prop
  | .policyData goal _ => Placed associations goal
  | .influenceData goal decision seen _ => Placed associations goal ∧ Carries seen goal.ctx decision
  | _ => True

/-- An update that will bring what is asked for. -/
def Task.Refreshes (influences : HashMap AfInfluence) (policyId : String) (t : Task) : Prop :=
  t.ToRead policyId ∨ t.HasRead influences policyId

/-- Every association carries what is asked for, or will. -/
structure Standing (p : Tasks.Pool PcfState Task) : Prop where
  spot : ∀ t ∈ p.tasks, Spot p.shared.associations t
  covered : ∀ policyId a, p.shared.associations.lookup policyId = some a →
    Carries p.shared.influences a.1 a.2 ∨ ∃ t ∈ p.tasks, t.Refreshes p.shared.influences policyId

/-- Where the associations that a handler concerns keep their contexts, its assertion stands. -/
theorem Spot.transport {associations associations' : HashMap Association} {t : Task}
    (h : ∀ policyId, t.target = some policyId → ∀ a, associations'.lookup policyId = some a →
      ∃ a₀, associations.lookup policyId = some a₀ ∧ a₀.1 = a.1)
    (ht : Spot associations t) : Spot associations' t := by
  have hplaced : ∀ {goal : Goal}, (∀ policyId ctx prev reply,
      goal = .update policyId ctx prev reply → t.target = some policyId) →
      Placed associations goal → Placed associations' goal := by
    intro goal htarget hplaced
    cases goal with
    | create ctx => trivial
    | update policyId ctx prev reply =>
      intro a ha
      obtain ⟨a₀, ha₀, hctx⟩ := h policyId (htarget _ _ _ _ rfl) a ha
      exact hctx ▸ hplaced a₀ ha₀
  cases t with
  | policyData goal udr => exact hplaced (fun _ _ _ _ heq => by rw [heq]; rfl) ht
  | influenceData goal decision seen udr =>
    exact ⟨hplaced (fun _ _ _ _ heq => by rw [heq]; rfl) ht.1, ht.2⟩
  | notify policyId udr answer => trivial
  | returned answer => trivial

theorem Task.Refreshes.transport {influences influences' : HashMap AfInfluence}
    {associations : HashMap Association} {policyId : String} {a : Association} {t : Task}
    (h : t.Refreshes influences policyId) (hspot : Spot associations t)
    (ha : associations.lookup policyId = some a) (hsame : SameAsked influences influences' a.1) :
    t.Refreshes influences' policyId := by
  refine h.imp_right fun hread => ?_
  cases t with
  | influenceData goal decision seen udr =>
    cases goal with
    | create ctx => cases hread
    | update id ctx prev reply =>
      obtain ⟨rfl, hseen⟩ := hread
      have hctx := hspot.1 a ha
      exact ⟨rfl, fun id' => (hseen id').trans (hctx ▸ hsame id')⟩
  | _ => cases hread

theorem updateSmPolicy_of_lookup {pcf : PcfState} {policyId : String} {a : Association}
    (ha : pcf.associations.lookup policyId = some a) (udr : UdrAnswers) (reply : Option Answer) :
    pcf.updateSmPolicy policyId udr reply = .policyData (.update policyId a.1 a.2 reply) udr := by
  simp only [PcfState.updateSmPolicy, ha]

theorem spot_updateSmPolicy (pcf : PcfState) (policyId : String) (udr : UdrAnswers)
    (reply : Option Answer) : Spot pcf.associations (pcf.updateSmPolicy policyId udr reply) := by
  unfold PcfState.updateSmPolicy
  split
  · rename_i ctx prev hlookup
    intro a ha
    rw [hlookup, Option.some.injEq] at ha
    rw [← ha]
  · trivial

theorem spot_notifySmf (pcf : PcfState) (scan : List String) (supi dnn : String) (udr : UdrAnswers)
    (answer : Answer) : Spot pcf.associations (pcf.notifySmf scan supi dnn udr answer) := by
  unfold PcfState.notifySmf
  split <;> trivial

theorem toRead_notifySmf {pcf : PcfState} {scan : List String} {supi dnn policyId : String}
    (h : (pcf.notifyUriFor scan supi dnn).map Prod.fst = some policyId) (udr : UdrAnswers)
    (answer : Answer) : (pcf.notifySmf scan supi dnn udr answer).ToRead policyId := by
  obtain ⟨found, hfound, rfl⟩ := Option.map_eq_some_iff.mp h
  rw [PcfState.notifySmf, hfound]
  rfl

/-! ### Steps -/

section Steps

variable {p : Tasks.Pool PcfState Task}

/-- A handler begins and changes nothing. -/
theorem standing_begin (h : Standing p) {t : Task} (ht : Spot p.shared.associations t) :
    Standing { shared := p.shared, tasks := p.tasks ++ [t] } where
  spot u hu := by
    rcases List.mem_append.mp hu with hold | hnew
    · exact h.spot u hold
    · exact List.mem_singleton.mp hnew ▸ ht
  covered policyId a ha := by
    refine (h.covered policyId a ha).imp_right ?_
    rintro ⟨u, hu, hrefreshes⟩
    exact ⟨u, List.mem_append_left _ hu, hrefreshes⟩

theorem standing_delete (h : Standing p) (policyId : String) :
    Standing
      { shared := (p.shared.deleteSmPolicy policyId).2
        tasks := p.tasks ++ [(p.shared.deleteSmPolicy policyId).1] } where
  spot u hu := by
    rcases List.mem_append.mp hu with hold | hnew
    · refine (h.spot u hold).transport fun policyId' _ a ha => ⟨a, ?_, rfl⟩
      exact (Map.of_lookup_erase ha).2
    · rw [List.mem_singleton.mp hnew]
      trivial
  covered policyId' a ha := by
    refine (h.covered policyId' a (Map.of_lookup_erase ha).2).imp_right ?_
    rintro ⟨u, hu, hrefreshes⟩
    exact ⟨u, List.mem_append_left _ hu, hrefreshes⟩

/-- An influence on the UE's sessions on the DNN comes or goes. -/
theorem standing_influence (h : Standing p) {influences : HashMap AfInfluence} {supi dnn : String}
    (hsame : ∀ ctx : SmPolicyContextData, ¬ (ctx.supi = supi ∧ ctx.dnn = dnn) →
      SameAsked p.shared.influences influences ctx)
    {scan : List String} (hreaches : Reaches p scan supi dnn) (n : UInt64) (udr : UdrAnswers)
    (answer : Answer) :
    Standing
      { shared := { p.shared with nextId := n, influences := influences }
        tasks := p.tasks ++ [p.shared.notifySmf scan supi dnn udr answer] } where
  spot u hu := by
    rcases List.mem_append.mp hu with hold | hnew
    · exact h.spot u hold
    · rw [List.mem_singleton.mp hnew]
      exact spot_notifySmf p.shared scan supi dnn udr answer
  covered policyId a ha := by
    by_cases hctx : a.1.supi = supi ∧ a.1.dnn = dnn
    · right
      rcases hreaches policyId a ha hctx.1 hctx.2 with hnotified | ⟨t, ht, htoRead⟩
      · exact ⟨_, List.mem_append_right _ List.mem_cons_self,
          .inl (toRead_notifySmf hnotified udr answer)⟩
      · exact ⟨t, List.mem_append_left _ ht, .inl htoRead⟩
    · refine (h.covered policyId a ha).imp (hsame a.1 hctx).carries ?_
      rintro ⟨t, ht, hrefreshes⟩
      exact ⟨t, List.mem_append_left _ ht, hrefreshes.transport (h.spot t ht) ha (hsame a.1 hctx)⟩

/-- A handler goes on and changes nothing. -/
theorem standing_go (h : Standing p) {i : Nat} {t t' : Task} (hi : p.tasks[i]? = some t)
    (hspot : Spot p.shared.associations t')
    (hon : ∀ policyId a, p.shared.associations.lookup policyId = some a →
      t.Refreshes p.shared.influences policyId → t'.Refreshes p.shared.influences policyId) :
    Standing { shared := p.shared, tasks := p.tasks.set i t' } where
  spot u hu := by
    rcases List.mem_or_eq_of_mem_set hu with hold | rfl
    · exact h.spot u hold
    · exact hspot
  covered policyId a ha := by
    refine (h.covered policyId a ha).imp_right ?_
    rintro ⟨u, hu, hrefreshes⟩
    by_cases hut : u = t
    · exact ⟨t', Tasks.mem_set_self hi, hon policyId a ha (hut ▸ hrefreshes)⟩
    · exact ⟨u, Tasks.mem_set_of_ne hi hu hut, hrefreshes⟩

/-- An association is created with a decision that is up to date. -/
theorem standing_create (h : Standing p) {i : Nat} {ctx : SmPolicyContextData}
    {decision fresh : SmPolicyDecision} {seen : HashMap AfInfluence} {udr : UdrAnswers}
    (hi : p.tasks[i]? = some (.influenceData (.create ctx) decision seen udr))
    (hsame : SameAsked seen p.shared.influences ctx)
    (hunused : ∀ t ∈ p.tasks, t.target ≠ some (toString p.shared.nextId))
    (hfresh : Carries seen ctx fresh) (answer : Answer) :
    Standing
      { shared := (p.shared.decided fresh (.create ctx)).2
        tasks := p.tasks.set i (.returned answer) } where
  spot u hu := by
    rcases List.mem_or_eq_of_mem_set hu with hold | rfl
    · refine (h.spot u hold).transport fun policyId htarget a ha => ⟨a, ?_, rfl⟩
      have hne : policyId ≠ toString p.shared.nextId :=
        fun heq => hunused u hold (heq ▸ htarget)
      exact (AList.lookup_insert_ne hne).symm.trans ha
    · trivial
  covered policyId a ha := by
    obtain ⟨-, rfl⟩ | ⟨-, ha⟩ := Map.of_lookup_insert ha
    · exact .inl (hsame.carries hfresh)
    · refine (h.covered policyId a ha).imp_right ?_
      rintro ⟨u, hu, hrefreshes⟩
      refine ⟨u, Tasks.mem_set_of_ne hi hu ?_, hrefreshes⟩
      rintro rfl
      exact hrefreshes.elim False.elim False.elim

/-- An update stores its decision, unless the association is gone. -/
theorem standing_update (h : Standing p) {i : Nat} {policyId : String} {ctx : SmPolicyContextData}
    {prev decision fresh : SmPolicyDecision} {reply : Option Answer} {seen : HashMap AfInfluence}
    {udr : UdrAnswers}
    (hi : p.tasks[i]? = some (.influenceData (.update policyId ctx prev reply) decision seen udr))
    (hheeds : (p.shared.associations.lookup policyId).isSome = true →
      ∃ t ∈ p.tasks, t.Refreshes p.shared.influences policyId)
    (hfresh : Carries seen ctx fresh) (answer : Answer) :
    Standing
      { shared := (p.shared.decided fresh (.update policyId ctx prev reply)).2
        tasks := p.tasks.set i (.returned answer) } where
  spot u hu := by
    rcases List.mem_or_eq_of_mem_set hu with hold | rfl
    · refine (h.spot u hold).transport fun policyId' _ a ha => ?_
      rw [PcfState.decided, Map.lookup_modify] at ha
      split at ha
      · rename_i heq
        obtain ⟨a₀, ha₀, rfl⟩ := Option.map_eq_some_iff.mp ha
        exact ⟨a₀, heq ▸ ha₀, rfl⟩
      · exact ⟨a, ha, rfl⟩
    · trivial
  covered policyId' a ha := by
    rw [PcfState.decided, Map.lookup_modify] at ha
    split at ha
    · rename_i heq
      obtain ⟨a₀, ha₀, rfl⟩ := Option.map_eq_some_iff.mp ha
      have hctx : a₀.1 = ctx := (h.spot _ (List.mem_of_getElem? hi)).1 a₀ ha₀
      obtain ⟨u, hu, hrefreshes⟩ := hheeds (Option.isSome_iff_exists.mpr ⟨a₀, ha₀⟩)
      by_cases hself : u = .influenceData (.update policyId ctx prev reply) decision seen udr
      · left
        subst hself
        obtain hread | ⟨-, hsame⟩ := hrefreshes
        · exact hread.elim
        · rw [hctx]
          exact hsame.carries hfresh
      · exact .inr ⟨u, Tasks.mem_set_of_ne hi hu hself, heq ▸ hrefreshes⟩
    · rename_i hne
      refine (h.covered policyId' a ha).imp_right ?_
      rintro ⟨u, hu, hrefreshes⟩
      refine ⟨u, Tasks.mem_set_of_ne hi hu ?_, hrefreshes⟩
      rintro rfl
      obtain hread | ⟨heq, -⟩ := hrefreshes
      · exact hread
      · exact hne heq.symm

end Steps

/-- An influence that is stored under a new id asks nothing of other sessions. -/
theorem sameAsked_insert {influences : HashMap AfInfluence} {id : String}
    (hnew : influences.lookup id = none) (inf : AfInfluence) {ctx : SmPolicyContextData}
    (hctx : ¬ (ctx.supi = inf.supi ∧ ctx.dnn = inf.dnn)) :
    SameAsked influences (influences.insert id inf) ctx := by
  intro id'
  rw [asked, asked, Map.lookup_insert_eq]
  split
  · rename_i heq
    have hother : ¬ (inf.supi = ctx.supi ∧ inf.dnn = ctx.dnn) :=
      fun h => hctx ⟨h.1.symm, h.2.symm⟩
    rw [heq, hnew, Option.bind_some, if_neg hother]
    rfl
  · rfl

/-- Nor did one that is withdrawn. -/
theorem sameAsked_erase {influences : HashMap AfInfluence} {id : String} {inf : AfInfluence}
    (hold : influences.lookup id = some inf) {ctx : SmPolicyContextData}
    (hctx : ¬ (ctx.supi = inf.supi ∧ ctx.dnn = inf.dnn)) :
    SameAsked influences (influences.erase id) ctx := by
  intro id'
  rw [asked, asked, Map.lookup_erase_eq]
  split
  · rename_i heq
    have hother : ¬ (inf.supi = ctx.supi ∧ inf.dnn = ctx.dnn) :=
      fun h => hctx ⟨h.1.symm, h.2.symm⟩
    rw [heq, hold, Option.bind_some, if_neg hother]
    rfl
  · rfl

theorem standing_enter {p : Tasks.Pool PcfState Task} (h : Standing p) {e : Request} {t : Task}
    {pcf : PcfState} (henter : enter e p.shared = some (t, pcf)) (hheeds : Heeds p (.start e)) :
    Standing { shared := pcf, tasks := p.tasks ++ [t] } := by
  cases e with
  | createSmPolicy ctx udr =>
    cases henter
    exact standing_begin h trivial
  | updateSmPolicy policyId udr =>
    cases henter
    exact standing_begin h (spot_updateSmPolicy p.shared policyId udr none)
  | deleteSmPolicy policyId =>
    cases henter
    exact standing_delete h policyId
  | createAppSession req scan udr =>
    rw [enter, Option.ite_none_right_eq_some, Option.some.injEq, PcfState.createAppSession] at henter
    obtain ⟨-, henter⟩ := henter
    split at henter
    · rename_i inf hinf
      cases henter
      obtain ⟨hnew, hreaches⟩ := hheeds inf hinf
      exact standing_influence h (fun _ => sameAsked_insert hnew inf) hreaches _ udr _
    · cases henter
      exact standing_begin h trivial
  | deleteAppSession id scan udr =>
    rw [enter, Option.ite_none_right_eq_some, Option.some.injEq, PcfState.deleteAppSession] at henter
    obtain ⟨-, henter⟩ := henter
    split at henter
    · rename_i inf hinf
      cases henter
      exact standing_influence h (fun _ => sameAsked_erase hinf) (hheeds inf hinf) _ udr _
    · cases henter
      exact standing_begin h trivial

theorem standing_act {p : Tasks.Pool PcfState Task} (h : Standing p) {i : Nat} {t : Task}
    (hi : p.tasks[i]? = some t) (hheeds : Heeds p (.step i)) :
    Standing { shared := (act t p.shared).2, tasks := p.tasks.set i (act t p.shared).1 } := by
  have hspot := h.spot t (List.mem_of_getElem? hi)
  simp only [Heeds, hi] at hheeds
  cases t with
  | policyData goal udr =>
    refine standing_go h hi ⟨hspot, carries_apply p.shared.influences goal.ctx hheeds⟩ ?_
    intro policyId a _ hrefreshes
    cases goal with
    | create ctx => exact hrefreshes.elim False.elim False.elim
    | update id ctx prev reply =>
      obtain hid | hread := hrefreshes
      · exact .inr ⟨hid, fun _ => rfl⟩
      · exact hread.elim
  | influenceData goal decision seen udr =>
    have hfresh := carries_group hspot.2 p.shared udr.influenceData
    cases goal with
    | create ctx => exact standing_create h hi hheeds.1 hheeds.2 hfresh _
    | update policyId ctx prev reply => exact standing_update h hi hheeds hfresh _
  | notify id udr answer =>
    refine standing_go h hi (spot_updateSmPolicy p.shared id udr (some answer)) ?_
    intro policyId a ha hrefreshes
    obtain hid | hread := hrefreshes
    · obtain rfl : id = policyId := hid
      left
      change (p.shared.updateSmPolicy id udr (some answer)).ToRead id
      rw [updateSmPolicy_of_lookup ha]
      rfl
    · exact hread.elim
  | returned answer => exact standing_go h hi trivial fun _ _ _ hrefreshes => hrefreshes

theorem standing_step {p : Tasks.Pool PcfState Task} (h : Standing p) {m : Tasks.Move Request}
    (hheeds : Heeds p m) : Standing (program.step p m) := by
  obtain hsame | ⟨e, t, s, rfl, henter, hstep⟩ | ⟨i, t, rfl, hi, hstep⟩ :=
    Tasks.Program.step_cases (P := program) p m
  · rwa [hsame]
  · rw [hstep]
    exact standing_enter h henter hheeds
  · rw [hstep]
    exact standing_act h hi hheeds

/-! ### Runs -/

/-- A PCF without associations and influences. -/
def PcfState.new (config : PolicyConfig) (udr : Bool) : PcfState :=
  { config, udr, associations := ∅, nextId := 1, influences := ∅ }

def start (config : PolicyConfig) (udr : Bool) : Tasks.Pool PcfState Task :=
  { shared := .new config udr, tasks := [] }

theorem standing_start (config : PolicyConfig) (udr : Bool) : Standing (start config udr) where
  spot _ ht := absurd ht List.not_mem_nil
  covered policyId _ ha :=
    absurd ((AList.lookup_empty policyId).symm.trans ha) (Option.some_ne_none _).symm

theorem Standing.influenced {p : Tasks.Pool PcfState Task} (h : Standing p) (hquiet : Quiet p) :
    Influenced p.shared := by
  intro policyId a ha
  refine (h.covered policyId a ha).resolve_right ?_
  rintro ⟨t, ht, hrefreshes⟩
  have hreturned := hquiet t ht
  cases t with
  | returned answer => exact hrefreshes.elim False.elim False.elim
  | _ => cases hreturned

/-- **Influences reach every session.** In a run that heeds the condition every association carries
the routes asked for whenever no handler is in flight. -/
theorem influenced_of_heeds (config : PolicyConfig) (udr : Bool) (ms : List (Tasks.Move Request))
    (hheeds : Runs.Along program.step Heeds (start config udr) ms)
    (hquiet : Quiet (Runs.run program.step (start config udr) ms)) :
    Influenced (Runs.run program.step (start config udr) ms).shared :=
  Standing.influenced
    (Runs.invariant_along (I := Standing) (fun _ _ hm h => standing_step h hm) hheeds
      (standing_start config udr))
    hquiet

/-- Where a UE has one association on the DNN, its notification reaches all. -/
theorem reaches_of_only {p : Tasks.Pool PcfState Task} {scan : List String} {supi dnn : String}
    (policyId : String) (honly : ∀ id a, p.shared.associations.lookup id = some a → id = policyId)
    (hnotified : (p.shared.notifyUriFor scan supi dnn).map Prod.fst = some policyId) :
    Reaches p scan supi dnn := by
  intro id a ha _ _
  rw [honly id a ha]
  exact .inl hnotified

def sampleConfig : PolicyConfig := { perDnn := ∅, default := {} }

def sampleUdr : UdrAnswers := { policyData := .ok none, influenceData := .ok [] }

def sampleSession (pduSessionId : UInt8) : SmPolicyContextData :=
  { supi := "imsi-1"
    pduSessionId
    dnn := "internet"
    snssaiSst := some 1
    snssaiSd := none
    notificationUri := some s!"http://smf/sm-policy-notify/{pduSessionId}" }

def sampleReq : AppSessionContextReqData :=
  { supi := some "imsi-1"
    dnn := some "internet"
    afRoutReq := some ⟨[⟨"edge-1"⟩]⟩
    trafficPrefix := some "10.9.0.0/16" }

/-- A session is established, and influenced. -/
def oneSession : List (Tasks.Move Request) :=
  [.start (.createSmPolicy (sampleSession 1) sampleUdr), .step 0, .step 0,
    .start (.createAppSession sampleReq ["1"] sampleUdr), .step 1, .step 1, .step 1]

theorem influenced_oneSession :
    Influenced (Runs.run program.step (start sampleConfig false) oneSession).shared := by
  refine influenced_of_heeds sampleConfig false oneSession ?_ ?_
  · refine ⟨trivial, fun _ => rfl, ⟨fun _ => rfl, ?_⟩, ?_, trivial, fun _ => rfl, ?_, trivial⟩
    · intro t ht
      rw [List.mem_singleton.mp ht]
      exact (Option.some_ne_none _).symm
    · intro inf hinf
      cases hinf
      exact ⟨rfl, reaches_of_only "1" (by decide) rfl⟩
    · exact fun _ => ⟨_, List.mem_cons_of_mem _ List.mem_cons_self, .inr ⟨rfl, fun _ => rfl⟩⟩
  · exact List.all_eq_true.mp (show (Runs.run program.step (start sampleConfig false)
      oneSession).tasks.all Task.isReturned = true from rfl)

/-- Two sessions of a UE are established, and the second is not notified of the influence. -/
def twoSessions : List (Tasks.Move Request) :=
  [.start (.createSmPolicy (sampleSession 1) sampleUdr), .step 0, .step 0,
    .start (.createSmPolicy (sampleSession 2) sampleUdr), .step 1, .step 1,
    .start (.createAppSession sampleReq ["1", "2"] sampleUdr), .step 2, .step 2, .step 2]

/-- It goes without the route. -/
theorem missed_twoSessions :
    let p := Runs.run program.step (start sampleConfig false) twoSessions
    Quiet p ∧ asked p.shared.influences "imsi-1" "internet" "3" =
        some { routeToLocs := [⟨"edge-1"⟩], trafficPrefix := some "10.9.0.0/16" } ∧
      (p.shared.associations.lookup "2").map (fun a => (a.1, a.2.trafficControlData.lookup "af-3")) =
        some (sampleSession 2, none) ∧
      ¬ Influenced p.shared := by
  have hquiet : (Runs.run program.step (start sampleConfig false) twoSessions).tasks.all
      Task.isReturned = true := rfl
  refine ⟨List.all_eq_true.mp hquiet, rfl, rfl, ?_⟩
  intro h
  have hnone := h "2" _ rfl "3"
  cases hnone

end Radian.Npcf
