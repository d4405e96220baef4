import Radian.Keyed.Ordered
import Radian.Npcf.Decision

/-!
# What a flow is charged under

QoS-flow binding against the rating group that usage is charged under, whatever order the maps of a decision
come in.

- `Binds` — one flow for each QoS decision that a rule is bound to, by its lowest-precedence rule.
- `binds_of_distinct` — `qosFlows` binds so.
- `charged_iff` — usage is charged under its flow's rating group exactly when all rules of a flow are charged alike.
-/

namespace Radian.Npcf

open Keyed (Map)

namespace SmPolicyDecision

variable {d d' : SmPolicyDecision} {id : String} {r r' : PccRule} {qfi : UInt8}

/-! ### Rules and flows -/

/-- The rules bound to a QoS decision. -/
def bound (d : SmPolicyDecision) (id : String) : List PccRule :=
  (values d.pccRules).filter fun r => r.refQosData = some id

theorem mem_values {V : Type} {m : HashMap V} {v : V} : v ∈ values m ↔ ∃ k, m.lookup k = some v := by
  rw [values, List.mem_map]
  constructor
  · rintro ⟨e, he, rfl⟩
    exact ⟨e.1, Map.lookup_eq_some_iff.mpr he⟩
  · rintro ⟨k, hk⟩
    exact ⟨⟨k, v⟩, Map.lookup_eq_some_iff.mp hk, rfl⟩

theorem mem_bound : r ∈ d.bound id ↔ (∃ k, d.pccRules.lookup k = some r) ∧ r.refQosData = some id := by
  rw [bound, List.mem_filter, mem_values, decide_eq_true_iff]

/-- No two QoS decisions share a QFI, and no two rules bound to one of them a precedence. -/
structure Distinct (d : SmPolicyDecision) : Prop where
  qfi : ∀ id id' q q', d.qosDescs.lookup id = some q → d.qosDescs.lookup id' = some q' →
    q.qfi = q'.qfi → id = id'
  precedence : ∀ id q k k' r r', d.qosDescs.lookup id = some q → d.pccRules.lookup k = some r →
    d.pccRules.lookup k' = some r' → r.refQosData = some id → r'.refQosData = some id →
      r.precedence = r'.precedence → k = k'

theorem Distinct.congr (h : d.Distinct) (hagree : Agree d' d) : d'.Distinct := by
  refine ⟨fun id id' q q' hq hq' => ?_, fun id q k k' r r' hq hr hr' => ?_⟩
  · rw [hagree.qosDescs] at hq hq'
    exact h.qfi id id' q q' hq hq'
  · rw [hagree.qosDescs] at hq
    rw [hagree.pccRules] at hr hr'
    exact h.precedence id q k k' r r' hq hr hr'

/-- A rule of the lowest precedence number among those bound to a QoS decision. -/
structure Leads (d : SmPolicyDecision) (id : String) (r : PccRule) : Prop where
  mem : r ∈ d.bound id
  least : ∀ r' ∈ d.bound id, r.precedence ≤ r'.precedence

/-- The flow of a QoS decision and the rule that leads it. -/
def flowOf (q : QosData) (r : PccRule) : QosFlowPolicy :=
  { qfi := q.qfi
    fiveQi := q.fiveQi
    arpPriority := q.arpPriority
    preEmptCap := q.preEmptCap
    preEmptVuln := q.preEmptVuln
    gbr := q.gbr
    filter := r.flowInfo
    refChgData := r.refChgData
    flowStatus := r.flowStatus }

/-- One flow for each QoS decision that a rule is bound to, ordered by QFI. -/
structure Binds (d : SmPolicyDecision) : Prop where
  sorted : d.qosFlows.Pairwise fun f g => f.qfi < g.qfi
  mem : ∀ f, f ∈ d.qosFlows ↔
    ∃ id q r, d.qosDescs.lookup id = some q ∧ d.Leads id r ∧ f = flowOf q r

/-! ### Binding -/

theorem leads_of_representative (h : d.representative id = some r) : d.Leads id r := by
  have hmem := List.argmin_mem (Option.mem_def.mpr h)
  refine ⟨hmem, fun r' hr' => ?_⟩
  exact List.le_of_mem_argmin hr' (Option.mem_def.mpr h)

theorem representative_eq_none : d.representative id = none ↔ d.bound id = [] := List.argmin_eq_none

/-- With distinct precedences one rule leads. -/
theorem Leads.unique (h : d.Distinct) {q : QosData} (hq : d.qosDescs.lookup id = some q) (hr : d.Leads id r)
    (hr' : d.Leads id r') : r = r' := by
  obtain ⟨⟨k, hk⟩, hid⟩ := mem_bound.mp hr.mem
  obtain ⟨⟨k', hk'⟩, hid'⟩ := mem_bound.mp hr'.mem
  have hprecedence := UInt16.le_antisymm (hr.least r' hr'.mem) (hr'.least r hr.mem)
  obtain rfl := h.precedence id q k k' r r' hq hk hk' hid hid' hprecedence
  exact Option.mem_unique hk hk'

theorem representative_of_leads (h : d.Distinct) {q : QosData} (hq : d.qosDescs.lookup id = some q)
    (hr : d.Leads id r) : d.representative id = some r := by
  cases hrep : d.representative id with
  | none =>
    have hmem := hr.mem
    rw [representative_eq_none.mp hrep] at hmem
    cases hmem
  | some r' => rw [Leads.unique h hq hr (leads_of_representative hrep)]

theorem qosFlows_eq : d.qosFlows = (d.qosDescs.entries.filterMap fun e =>
    (d.representative e.1).map fun r => flowOf e.2 r).insertionSort fun f g => f.qfi ≤ g.qfi := rfl

theorem mem_qosFlows {f : QosFlowPolicy} : f ∈ d.qosFlows ↔
    ∃ id q r, d.qosDescs.lookup id = some q ∧ d.representative id = some r ∧ f = flowOf q r := by
  rw [qosFlows_eq, List.mem_insertionSort, List.mem_filterMap]
  constructor
  · rintro ⟨e, he, hf⟩
    obtain ⟨r, hr, rfl⟩ := Option.map_eq_some_iff.mp hf
    exact ⟨e.1, e.2, r, Map.lookup_eq_some_iff.mpr he, hr, rfl⟩
  · rintro ⟨id, q, r, hq, hr, rfl⟩
    exact ⟨⟨id, q⟩, Map.lookup_eq_some_iff.mp hq, Option.map_eq_some_iff.mpr ⟨r, hr, rfl⟩⟩

theorem sublist_of_filterMap {α β γ : Type} (o : α → Option β) (g : α → γ) (l : List α) :
    (l.filterMap fun a => (o a).map fun _ => g a).Sublist (l.map g) := by
  induction l with
  | nil => exact List.Sublist.refl _
  | cons a l ih =>
    rw [List.filterMap_cons, List.map_cons]
    cases o a with
    | none => exact ih.cons _
    | some b => exact ih.cons_cons _

/-- Each QFI comes once. -/
theorem nodup_qosFlows (h : d.Distinct) : (d.qosFlows.map fun f => f.qfi).Nodup := by
  have hperm : (d.qosFlows.map fun f => f.qfi).Perm
      (d.qosDescs.entries.filterMap fun e => (d.representative e.1).map fun _ => e.2.qfi) := by
    have hmap : (d.qosDescs.entries.filterMap fun e => (d.representative e.1).map fun _ => e.2.qfi) =
        (d.qosDescs.entries.filterMap fun e => (d.representative e.1).map fun r => flowOf e.2 r).map
          fun f => f.qfi := by
      rw [List.map_filterMap]
      simp only [Option.map_map]
      rfl
    rw [hmap, qosFlows_eq]
    exact (List.perm_insertionSort ..).map _
  rw [hperm.nodup_iff]
  have hqfis : (d.qosDescs.entries.map fun e => e.2.qfi).Nodup := by
    refine d.qosDescs.nodupKeys.nodup.map_on fun e he e' he' hqfi => ?_
    have hlookup := Map.lookup_eq_some_iff.mpr he
    have hlookup' := Map.lookup_eq_some_iff.mpr he'
    have hid := h.qfi e.1 e'.1 e.2 e'.2 hlookup hlookup' hqfi
    rw [hid, hlookup'] at hlookup
    exact Sigma.ext hid (heq_of_eq (Option.some.inj hlookup).symm)
  exact hqfis.sublist (sublist_of_filterMap (fun e : Sigma fun _ : String => QosData => d.representative e.1)
    (fun e => e.2.qfi) _)

theorem binds_of_distinct (h : d.Distinct) : d.Binds := by
  constructor
  · have hsorted : d.qosFlows.Pairwise fun f g => f.qfi.toNat ≤ g.qfi.toNat := by
      rw [qosFlows_eq]
      exact List.pairwise_insertionSort (fun f g : QosFlowPolicy => f.qfi ≤ g.qfi) _
    have hnodup : (d.qosFlows.map fun f => f.qfi.toNat).Nodup := by
      have hmap := (nodup_qosFlows h).map (f := UInt8.toNat) fun _ _ heq => UInt8.toNat_inj.mp heq
      rwa [List.map_map] at hmap
    exact Keyed.ordered_of_le hsorted hnodup
  · intro f
    rw [mem_qosFlows]
    constructor
    · rintro ⟨id, q, r, hq, hr, rfl⟩
      exact ⟨id, q, r, hq, leads_of_representative hr, rfl⟩
    · rintro ⟨id, q, r, hq, hr, rfl⟩
      exact ⟨id, q, r, hq, representative_of_leads h hq hr, rfl⟩

/-! ### Charging -/

/-- The rating group that a rule names. -/
def rated (d : SmPolicyDecision) (r : PccRule) : Option UInt32 :=
  r.refChgData.bind fun chg => (d.chargingDescs.lookup chg).map fun c => c.ratingGroup

/-- The rating group of the flow with a QFI: of the charging decision that it names. -/
def chargedAs (d : SmPolicyDecision) (qfi : UInt8) : Option UInt32 :=
  (d.qosFlows.find? fun f => f.qfi = qfi).bind fun f =>
    f.refChgData.bind fun chg => (d.chargingDescs.lookup chg).map fun c => c.ratingGroup

theorem ratingGroupFor_eq (d : SmPolicyDecision) (qfi : UInt8) : d.ratingGroupFor qfi =
    (d.qosDescs.entries.find? fun e => e.2.qfi = qfi).bind fun e =>
      ((d.bound e.1).findSome? fun r => r.refChgData).bind fun chg =>
        (d.chargingDescs.lookup chg).map fun c => c.ratingGroup := by
  unfold ratingGroupFor
  refine congrArg _ (funext fun e => ?_)
  refine congrArg _ (funext fun chg => ?_)
  cases d.chargingDescs.lookup chg <;> rfl

/-- The QoS decision with a QFI, in whatever order they come. -/
theorem find_qfi (h : d.Distinct) {q : QosData} (hq : d.qosDescs.lookup id = some q) :
    (d.qosDescs.entries.find? fun e => e.2.qfi = q.qfi) = some ⟨id, q⟩ := by
  cases hfound : d.qosDescs.entries.find? fun e => e.2.qfi = q.qfi with
  | none =>
    have hno := List.find?_eq_none.mp hfound ⟨id, q⟩ (Map.lookup_eq_some_iff.mp hq)
    simp at hno
  | some e =>
    have hlookup := Map.lookup_eq_some_iff.mpr (List.mem_of_find?_eq_some hfound)
    have hqfi : e.2.qfi = q.qfi := by simpa using List.find?_some hfound
    obtain rfl := h.qfi e.1 id e.2 q hlookup hq hqfi
    rw [hlookup] at hq
    cases hq
    rfl

/-- A flow is charged as the rule that leads it says. -/
theorem chargedAs_of_leads (h : d.Distinct) {q : QosData} (hq : d.qosDescs.lookup id = some q)
    (hr : d.Leads id r) : d.chargedAs q.qfi = d.rated r := by
  have hmem : flowOf q r ∈ d.qosFlows := (binds_of_distinct h).mem _ |>.mpr ⟨id, q, r, hq, hr, rfl⟩
  have hfound : (d.qosFlows.find? fun f => f.qfi = q.qfi) = some (flowOf q r) :=
    Keyed.find?_eq_of_nodup (nodup_qosFlows h) hmem
  rw [chargedAs, hfound]
  rfl

theorem chargedAs_eq_none (hno : ∀ id q, d.qosDescs.lookup id = some q → q.qfi = qfi → d.bound id = []) :
    d.chargedAs qfi = none := by
  have hfound : (d.qosFlows.find? fun f => f.qfi = qfi) = none := by
    refine List.find?_eq_none.mpr fun f hf hqfi => ?_
    obtain ⟨id, q, r, hq, hr, rfl⟩ := mem_qosFlows.mp hf
    have hnone := representative_eq_none.mpr (hno id q hq (of_decide_eq_true hqfi))
    rw [hr] at hnone
    cases hnone
  rw [chargedAs, hfound]
  rfl

/-- All rules of a flow that name a charging decision name the same rating group, and the rule that leads the
flow names it. -/
def Uniform (d : SmPolicyDecision) : Prop :=
  ∀ id q r r', d.qosDescs.lookup id = some q → d.Leads id r → r' ∈ d.bound id →
    r'.refChgData.isSome = true → d.rated r' = d.rated r

theorem findSome_bound {chg : String} (h : ((d.bound id).findSome? fun r => r.refChgData) = some chg) :
    ∃ r ∈ d.bound id, r.refChgData = some chg := by
  obtain ⟨r, hr, hchg⟩ := List.exists_of_findSome?_eq_some h
  exact ⟨r, hr, hchg⟩

theorem rated_of_none (h : r.refChgData = none) : d.rated r = none := by
  rw [rated, h]
  rfl

theorem ratingGroupFor_of_uniform (h : d.Distinct) (huniform : d.Uniform) (qfi : UInt8) :
    d.ratingGroupFor qfi = d.chargedAs qfi := by
  rw [ratingGroupFor_eq]
  cases hfound : d.qosDescs.entries.find? fun e => e.2.qfi = qfi with
  | none =>
    refine (chargedAs_eq_none fun id q hq hqfi => ?_).symm
    have hno := List.find?_eq_none.mp hfound ⟨id, q⟩ (Map.lookup_eq_some_iff.mp hq)
    simp [hqfi] at hno
  | some e =>
    have hq := Map.lookup_eq_some_iff.mpr (List.mem_of_find?_eq_some hfound)
    obtain rfl : e.2.qfi = qfi := by simpa using List.find?_some hfound
    rw [Option.bind_some]
    cases hrep : d.representative e.1 with
    | none =>
      have hempty := representative_eq_none.mp hrep
      rw [hempty]
      refine (chargedAs_eq_none fun id q hq' hqfi => ?_).symm
      obtain rfl := h.qfi id e.1 q e.2 hq' hq hqfi
      exact hempty
    | some r =>
      have hleads := leads_of_representative hrep
      rw [chargedAs_of_leads h hq hleads]
      cases hchg : (d.bound e.1).findSome? fun r => r.refChgData with
      | none =>
        rw [rated_of_none (List.findSome?_eq_none_iff.mp hchg r hleads.mem)]
        rfl
      | some chg =>
        obtain ⟨r', hr', hchg'⟩ := findSome_bound hchg
        have hsame := huniform e.1 e.2 r r' hq hleads hr' (by rw [hchg']; rfl)
        rw [← hsame, rated, hchg']

/-! ### Orders -/

theorem Agree.mem_bound (h : Agree d' d) : r ∈ d'.bound id ↔ r ∈ d.bound id := by
  rw [SmPolicyDecision.mem_bound, SmPolicyDecision.mem_bound]
  simp only [h.pccRules]

theorem Agree.leads (h : Agree d' d) : d'.Leads id r ↔ d.Leads id r := by
  constructor
  · exact fun hr => ⟨h.mem_bound.mp hr.mem, fun s hs => hr.least s (h.mem_bound.mpr hs)⟩
  · exact fun hr => ⟨h.mem_bound.mpr hr.mem, fun s hs => hr.least s (h.mem_bound.mp hs)⟩

theorem Agree.rated (h : Agree d' d) (r : PccRule) : d'.rated r = d.rated r := by
  rw [SmPolicyDecision.rated, SmPolicyDecision.rated]
  simp only [h.chargingDescs]

theorem Uniform.congr (huniform : d.Uniform) (h : Agree d' d) : d'.Uniform := by
  intro id q r r' hq hr hr' hchg
  rw [h.rated, h.rated]
  rw [h.qosDescs] at hq
  exact huniform id q r r' hq (h.leads.mp hr) (h.mem_bound.mp hr') hchg

/-- A rule comes first in some order of the rules. -/
theorem exists_order {k : String} (hr : d.pccRules.lookup k = some r) :
    ∃ d', Agree d' d ∧ ∃ rest, values d'.pccRules = r :: rest := by
  refine ⟨{ d with pccRules := d.pccRules.insert k r }, ?_, ?_⟩
  · refine ⟨fun _ => rfl, fun k' => ?_, fun _ => rfl, fun _ => rfl, fun _ => rfl⟩
    rw [Map.lookup_insert_eq]
    split
    next hk => rw [hk, hr]
    next => rfl
  · exact ⟨_, by rw [values, AList.entries_insert]; rfl⟩

theorem uniform_of_charged (h : d.Distinct)
    (hcharged : ∀ d', Agree d' d → ∀ qfi, d'.ratingGroupFor qfi = d'.chargedAs qfi) : d.Uniform := by
  intro id q r r' hq hr hr' hchg
  obtain ⟨⟨k, hk⟩, hid⟩ := mem_bound.mp hr'
  obtain ⟨d', hagree, rest, hfirst⟩ := exists_order hk
  have h' := h.congr hagree
  have hq' : d'.qosDescs.lookup id = some q := (hagree.qosDescs id).trans hq
  obtain ⟨chg, hchg⟩ := Option.isSome_iff_exists.mp hchg
  have hbound : ((d'.bound id).findSome? fun s => s.refChgData) = some chg := by
    have hkept : decide (r'.refQosData = some id) = true := decide_eq_true hid
    rw [bound, hfirst, List.filter_cons, if_pos hkept, List.findSome?_cons, hchg]
  have hsame := hcharged d' hagree q.qfi
  rw [ratingGroupFor_eq, find_qfi h' hq', Option.bind_some, hbound,
    chargedAs_of_leads h' hq' (hagree.leads.mpr hr), hagree.rated] at hsame
  rw [← hsame, ← hagree.rated, rated, hchg]

/-- **Charged where it is bound.** A flow is bound as it should be in every order of the maps; usage is charged
under its flow's rating group in every order exactly when the rules of each flow are charged alike. -/
theorem charged_iff (h : d.Distinct) :
    (∀ d', Agree d' d → d'.Binds ∧ ∀ qfi, d'.ratingGroupFor qfi = d'.chargedAs qfi) ↔ d.Uniform := by
  constructor
  · exact fun hcharged => uniform_of_charged h fun d' hagree => (hcharged d' hagree).2
  · intro huniform d' hagree
    have h' := h.congr hagree
    exact ⟨binds_of_distinct h', ratingGroupFor_of_uniform h' (huniform.congr hagree)⟩

/-! ### A flow of two rules -/

/-- One flow, with a rule of precedence 20 that comes first in the map, and one of precedence 10. -/
def twoRules (charged : UInt32) : SmPolicyDecision :=
  { qosDescs := (∅ : HashMap QosData).insert "qos"
      { qfi := 2, fiveQi := 1, arpPriority := 8, preEmptCap := false, preEmptVuln := false, gbr := none }
    pccRules := (∅ : HashMap PccRule)
      |>.insert "voice"
        { precedence := 10, flowInfo := none, refQosData := some "qos", refChgData := some "chg-1"
          flowStatus := .enabled }
      |>.insert "signalling"
        { precedence := 20, flowInfo := none, refQosData := some "qos", refChgData := some "chg-2"
          flowStatus := .enabled }
    chargingDescs := (∅ : HashMap ChargingData)
      |>.insert "chg-1" { ratingGroup := 100 }
      |>.insert "chg-2" { ratingGroup := charged } }

theorem distinct_twoRules (charged : UInt32) : (twoRules charged).Distinct := by
  have hqos : ∀ id q, (twoRules charged).qosDescs.lookup id = some q → id = "qos" := by
    intro id q hq
    rw [twoRules, Map.lookup_insert_eq] at hq
    by_contra hne
    rw [if_neg hne] at hq
    cases hq
  have hrules : ∀ k r, (twoRules charged).pccRules.lookup k = some r →
      k = "signalling" ∧ r.precedence = 20 ∨ k = "voice" ∧ r.precedence = 10 := by
    intro k r hr
    simp only [twoRules, Map.lookup_insert_eq] at hr
    split at hr
    next hk =>
      cases hr
      exact .inl ⟨hk, rfl⟩
    next =>
      split at hr
      next hk =>
        cases hr
        exact .inr ⟨hk, rfl⟩
      next => cases hr
  constructor
  · intro id id' q q' hq hq' _
    rw [hqos id q hq, hqos id' q' hq']
  · intro id q k k' r r' _ hr hr' _ _ hsame
    obtain ⟨rfl, hp⟩ | ⟨rfl, hp⟩ := hrules k r hr
    · obtain ⟨rfl, -⟩ | ⟨-, hp'⟩ := hrules k' r' hr'
      · rfl
      · rw [hp, hp'] at hsame
        cases hsame
    · obtain ⟨-, hp'⟩ | ⟨rfl, -⟩ := hrules k' r' hr'
      · rw [hp, hp'] at hsame
        cases hsame
      · rfl

theorem charged_iff_sample :
    (∀ d', Agree d' (twoRules 200) → d'.Binds ∧ ∀ qfi, d'.ratingGroupFor qfi = d'.chargedAs qfi) ↔
      (twoRules 200).Uniform :=
  charged_iff (distinct_twoRules 200)

/-- **Whichever rule comes first.** Usage is charged under the rating group of a rule that does not lead the
flow. -/
theorem not_charged : ¬ ∀ d : SmPolicyDecision, d.Distinct → ∀ d', Agree d' d →
    d'.Binds ∧ ∀ qfi, d'.ratingGroupFor qfi = d'.chargedAs qfi := by
  intro h
  have hsame := (h _ (distinct_twoRules 200) _ (.refl _)).2 2
  have hgroup : (twoRules 200).ratingGroupFor 2 = some 200 := by decide +kernel
  have hflow : (twoRules 200).chargedAs 2 = some 100 := by decide +kernel
  rw [hgroup, hflow] at hsame
  cases hsame

end SmPolicyDecision

end Radian.Npcf
