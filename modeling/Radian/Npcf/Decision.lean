import Radian.Keyed.Delta
import Radian.Text
import Mathlib.Data.List.MinMax
import Mathlib.Data.List.Sort

/-!
# SM policy decisions

The policy shapes the PCF and the SMF share: a decision of five keyed maps, the flattened view of
its QoS flows, and the partial updates by which a decision travels.

- `SmPolicyDecision.diff`, `SmPolicyDecision.apply` — the delta between two decisions and its merge.
- `SmPolicyDecision.apply_diff_same` — a delta merged onto its own base gives the next decision.
- `SmPolicyDecision.deltas_lossless` — the deltas along a chain of decisions lead to its end.
-/

namespace Radian.Npcf

open Keyed (Map)

/-- A hash map keyed by ids. -/
abbrev HashMap (V : Type) : Type := Map String V

/-- A GBR flow's rates, as BitRate strings. -/
structure GbrPolicy where
  gfbrDl : String
  gfbrUl : String
  mfbrDl : String
  mfbrUl : String
  deriving DecidableEq, Repr

/-- A packet classifier: transport protocol and a port range. -/
structure PacketFilterPolicy where
  protocol : UInt8
  portLow : UInt16
  portHigh : UInt16
  deriving DecidableEq, Repr

/-- Whether a rule's flow passes, per direction. -/
inductive FlowStatus where
  | enabled
  | enabledUplink
  | enabledDownlink
  | disabled
  | removed
  deriving DecidableEq, Repr

/-- The `(uplink_open, downlink_open)` gate of a status. -/
def FlowStatus.gate : FlowStatus → Bool × Bool
  | .enabled => (true, true)
  | .enabledUplink => (true, false)
  | .enabledDownlink => (false, true)
  | .disabled | .removed => (false, false)

/-- One authorized QoS flow. -/
structure QosFlowPolicy where
  qfi : UInt8
  fiveQi : UInt8
  arpPriority : UInt8
  preEmptCap : Bool
  preEmptVuln : Bool
  gbr : Option GbrPolicy
  filter : Option PacketFilterPolicy
  refChgData : Option String
  flowStatus : FlowStatus
  deriving DecidableEq, Repr

structure ChargingData where
  ratingGroup : UInt32
  meteringMethod : Option String := none
  online : Option Bool := none
  offline : Option Bool := none
  deriving DecidableEq, Repr

structure SessionAmbrPolicy where
  uplink : String
  downlink : String
  deriving DecidableEq, Repr

/-- The multiplier of a BitRate unit. -/
def bitrateUnit (unit : List Char) : Option Nat :=
  if unit = "bps".toList then some 1
  else if unit = "Kbps".toList then some 1000
  else if unit = "Mbps".toList then some 1000000
  else if unit = "Gbps".toList then some 1000000000
  else if unit = "Tbps".toList then some 1000000000000
  else none

/-- A BitRate string in bits per second; `none` when malformed or beyond 64 bits. -/
def bitrateToBps (s : String) : Option Nat := do
  let (value, unit) ← Text.splitOnce ' ' (Text.trim s.toList)
  let value ← Text.parseUnsigned 10 64 value
  let mult ← bitrateUnit unit
  if value * mult < 2 ^ 64 then some (value * mult) else none

/-- The `(uplink_bps, downlink_bps)` of an AMBR, if both parse. -/
def SessionAmbrPolicy.toBps (a : SessionAmbrPolicy) : Option (Nat × Nat) := do
  let ul ← bitrateToBps a.uplink
  let dl ← bitrateToBps a.downlink
  return (ul, dl)

/-- What the SMF tells the PCF about a session. -/
structure SmPolicyContextData where
  supi : String
  pduSessionId : UInt8
  dnn : String
  snssaiSst : Option UInt8
  snssaiSd : Option String
  notificationUri : Option String
  deriving DecidableEq, Repr

structure SessionRule where
  authSessAmbr : Option SessionAmbrPolicy
  deriving DecidableEq, Repr

/-- The authorized QoS of one QoS flow. -/
structure QosData where
  qfi : UInt8
  fiveQi : UInt8
  arpPriority : UInt8
  preEmptCap : Bool
  preEmptVuln : Bool
  gbr : Option GbrPolicy
  deriving DecidableEq, Repr

structure PccRule where
  precedence : UInt16
  flowInfo : Option PacketFilterPolicy
  refQosData : Option String
  refChgData : Option String
  flowStatus : FlowStatus
  deriving DecidableEq, Repr

structure RouteToLocation where
  dnai : String
  deriving DecidableEq, Repr

/-- A traffic-steering decision an AF influence adds to the policy. -/
structure TrafficControlData where
  routeToLocs : List RouteToLocation
  trafficPrefix : Option String
  deriving DecidableEq, Repr

/-- The session rules, PCC rules, QoS, charging and traffic-control decisions, keyed by id. -/
structure SmPolicyDecision where
  sessionRules : HashMap SessionRule := ∅
  pccRules : HashMap PccRule := ∅
  qosDescs : HashMap QosData := ∅
  chargingDescs : HashMap ChargingData := ∅
  trafficControlData : HashMap TrafficControlData := ∅
  deriving DecidableEq

namespace SmPolicyDecision

/-- The values of a hash map, in its iteration order. -/
def values {V : Type} (m : HashMap V) : List V := m.entries.map fun e => e.2

/-- The `authSessAmbr` of a session rule that carries one. -/
def sessionAmbr (d : SmPolicyDecision) : Option SessionAmbrPolicy :=
  (values d.sessionRules).findSome? fun r => r.authSessAmbr

/-- A single "default" session rule carrying `ambr`, or no rules. -/
def sessionRulesFor : Option SessionAmbrPolicy → HashMap SessionRule
  | some a => (∅ : HashMap SessionRule).insert "default" ⟨some a⟩
  | none => ∅

/-- The rule of highest precedence (lowest number) bound to a QoS decision. -/
def representative (d : SmPolicyDecision) (id : String) : Option PccRule :=
  ((values d.pccRules).filter fun r => r.refQosData = some id).argmin fun r => r.precedence.toNat

/-- QoS-flow binding: each QoS decision some rule binds to is one flow, ordered by QFI. -/
def qosFlows (d : SmPolicyDecision) : List QosFlowPolicy :=
  (d.qosDescs.entries.filterMap fun e =>
    (d.representative e.1).map fun rep =>
      { qfi := e.2.qfi
        fiveQi := e.2.fiveQi
        arpPriority := e.2.arpPriority
        preEmptCap := e.2.preEmptCap
        preEmptVuln := e.2.preEmptVuln
        gbr := e.2.gbr
        filter := rep.flowInfo
        refChgData := rep.refChgData
        -- the representative rule's status gates the whole flow
        flowStatus := rep.flowStatus : QosFlowPolicy }).insertionSort fun f g => f.qfi ≤ g.qfi

/-- One flow as a QoS decision `qos-{qfi}` and a PCC rule `pcc-{qfi}` bound to it. -/
def setFlow (d : SmPolicyDecision) (f : QosFlowPolicy) : SmPolicyDecision :=
  let qosId := s!"qos-{f.qfi.toNat}"
  { d with
    qosDescs := d.qosDescs.insert qosId
      { qfi := f.qfi
        fiveQi := f.fiveQi
        arpPriority := f.arpPriority
        preEmptCap := f.preEmptCap
        preEmptVuln := f.preEmptVuln
        gbr := f.gbr }
    pccRules := d.pccRules.insert s!"pcc-{f.qfi.toNat}"
      { precedence := f.qfi.toUInt16
        flowInfo := f.filter
        refQosData := some qosId
        refChgData := f.refChgData
        flowStatus := f.flowStatus } }

/-- Populate the rules and QoS decisions from a flat list of flows. -/
def setFlows (d : SmPolicyDecision) (flows : List QosFlowPolicy) : SmPolicyDecision :=
  flows.foldl setFlow d

/-- The rating group a QoS flow is charged under. -/
def ratingGroupFor (d : SmPolicyDecision) (qfi : UInt8) : Option UInt32 := do
  let qos ← d.qosDescs.entries.find? fun e => e.2.qfi = qfi
  let chgId ← ((values d.pccRules).filter fun r => r.refQosData = some qos.1).findSome?
    fun r => r.refChgData
  let chg ← d.chargingDescs.lookup chgId
  return chg.ratingGroup

/-- The `(traffic prefix, DNAI)` of the first traffic-control decision that names both. -/
def influenceRoute (d : SmPolicyDecision) : Option (String × String) :=
  (values d.trafficControlData).findSome? fun tc => do
    let loc ← tc.routeToLocs.head?
    let tp ← tc.trafficPrefix
    return (tp, loc.dnai)

end SmPolicyDecision

/-- A partial decision: a present entry is installed, a `none` one removed, an absent one kept. -/
structure SmPolicyUpdate where
  sessionRules : HashMap (Option SessionRule) := ∅
  pccRules : HashMap (Option PccRule) := ∅
  qosDescs : HashMap (Option QosData) := ∅
  chargingDescs : HashMap (Option ChargingData) := ∅
  trafficControlData : HashMap (Option TrafficControlData) := ∅
  deriving DecidableEq

namespace SmPolicyDecision

/-- The partial update from `self` to `next`; `none` when nothing changed. -/
def diff (self next : SmPolicyDecision) : Option SmPolicyUpdate :=
  let sessionRules := self.sessionRules.diff next.sessionRules
  let pccRules := self.pccRules.diff next.pccRules
  let qosDescs := self.qosDescs.diff next.qosDescs
  let chargingDescs := self.chargingDescs.diff next.chargingDescs
  let trafficControlData := self.trafficControlData.diff next.trafficControlData
  if !sessionRules.entries.isEmpty || !pccRules.entries.isEmpty || !qosDescs.entries.isEmpty ||
      !chargingDescs.entries.isEmpty || !trafficControlData.entries.isEmpty then
    some { sessionRules, pccRules, qosDescs, chargingDescs, trafficControlData }
  else none

/-- Merge a partial update onto this decision. -/
def apply (self : SmPolicyDecision) (update : SmPolicyUpdate) : SmPolicyDecision :=
  { sessionRules := self.sessionRules.apply update.sessionRules
    pccRules := self.pccRules.apply update.pccRules
    qosDescs := self.qosDescs.apply update.qosDescs
    chargingDescs := self.chargingDescs.apply update.chargingDescs
    trafficControlData := self.trafficControlData.apply update.trafficControlData }

/-- Equality of decisions: the same entries in all five maps. -/
def same (a b : SmPolicyDecision) : Bool :=
  a.sessionRules.same b.sessionRules && a.pccRules.same b.pccRules &&
    a.qosDescs.same b.qosDescs && a.chargingDescs.same b.chargingDescs &&
    a.trafficControlData.same b.trafficControlData

/-! ### Deltas and their bases -/

/-- The same entry under every id of every map. -/
structure Agree (a b : SmPolicyDecision) : Prop where
  sessionRules : ∀ k, a.sessionRules.lookup k = b.sessionRules.lookup k
  pccRules : ∀ k, a.pccRules.lookup k = b.pccRules.lookup k
  qosDescs : ∀ k, a.qosDescs.lookup k = b.qosDescs.lookup k
  chargingDescs : ∀ k, a.chargingDescs.lookup k = b.chargingDescs.lookup k
  trafficControlData : ∀ k, a.trafficControlData.lookup k = b.trafficControlData.lookup k

theorem same_iff_agree {a b : SmPolicyDecision} : same a b = true ↔ Agree a b := by
  simp only [same, Bool.and_eq_true, Map.same_iff]
  constructor
  · rintro ⟨⟨⟨⟨h₁, h₂⟩, h₃⟩, h₄⟩, h₅⟩
    exact ⟨h₁, h₂, h₃, h₄, h₅⟩
  · rintro ⟨h₁, h₂, h₃, h₄, h₅⟩
    exact ⟨⟨⟨⟨h₁, h₂⟩, h₃⟩, h₄⟩, h₅⟩

namespace Agree

theorem refl (a : SmPolicyDecision) : Agree a a :=
  ⟨fun _ => rfl, fun _ => rfl, fun _ => rfl, fun _ => rfl, fun _ => rfl⟩

theorem trans {a b c : SmPolicyDecision} (h : Agree a b) (h' : Agree b c) : Agree a c :=
  ⟨fun k => (h.1 k).trans (h'.1 k), fun k => (h.2 k).trans (h'.2 k),
    fun k => (h.3 k).trans (h'.3 k), fun k => (h.4 k).trans (h'.4 k),
    fun k => (h.5 k).trans (h'.5 k)⟩

end Agree

private theorem lookup_apply_empty_diff {V : Type} [DecidableEq V] {prev next base : HashMap V}
    (h : (prev.diff next).entries.isEmpty = true) (k : String) :
    base.lookup k = (base.apply (prev.diff next)).lookup k := by
  rw [Map.apply, List.isEmpty_iff.mp h]
  rfl

/-- What merging the update from `prev` to `next` onto `base` stores under each id: the entry of
`next` where the two differ, the entry of `base` where they do not. -/
theorem apply_diff_agree (prev next base : SmPolicyDecision) :
    Agree (base.apply ((prev.diff next).getD {}))
      { sessionRules := base.sessionRules.apply (prev.sessionRules.diff next.sessionRules)
        pccRules := base.pccRules.apply (prev.pccRules.diff next.pccRules)
        qosDescs := base.qosDescs.apply (prev.qosDescs.diff next.qosDescs)
        chargingDescs := base.chargingDescs.apply (prev.chargingDescs.diff next.chargingDescs)
        trafficControlData :=
          base.trafficControlData.apply (prev.trafficControlData.diff next.trafficControlData) } := by
  unfold diff
  dsimp only
  split
  · exact Agree.refl _
  · rename_i h
    simp only [Bool.or_eq_true, Bool.not_eq_true', not_or, Bool.not_eq_false] at h
    obtain ⟨⟨⟨⟨h₁, h₂⟩, h₃⟩, h₄⟩, h₅⟩ := h
    exact ⟨lookup_apply_empty_diff h₁, lookup_apply_empty_diff h₂, lookup_apply_empty_diff h₃,
      lookup_apply_empty_diff h₄, lookup_apply_empty_diff h₅⟩

private theorem lookup_apply_diff {V : Type} [DecidableEq V] {prev next base : HashMap V}
    (h : ∀ k, base.lookup k = prev.lookup k) (k : String) :
    (base.apply (prev.diff next)).lookup k = next.lookup k := by
  rw [Map.lookup_apply_diff, h k, ite_eq_right_iff]
  exact id

/-- **A delta fits its base.** Merged onto a decision that agrees with `prev`, the update from
`prev` to `next` gives `next`. -/
theorem apply_diff_same {prev next base : SmPolicyDecision} (h : Agree base prev) :
    Agree (base.apply ((prev.diff next).getD {})) next :=
  (apply_diff_agree prev next base).trans ⟨lookup_apply_diff h.1, lookup_apply_diff h.2,
    lookup_apply_diff h.3, lookup_apply_diff h.4, lookup_apply_diff h.5⟩

end SmPolicyDecision

/-! ### Chains of updates -/

/-- The same change under every id of every map. -/
structure SmPolicyUpdate.Agree (u v : SmPolicyUpdate) : Prop where
  sessionRules : ∀ k, u.sessionRules.lookup k = v.sessionRules.lookup k
  pccRules : ∀ k, u.pccRules.lookup k = v.pccRules.lookup k
  qosDescs : ∀ k, u.qosDescs.lookup k = v.qosDescs.lookup k
  chargingDescs : ∀ k, u.chargingDescs.lookup k = v.chargingDescs.lookup k
  trafficControlData : ∀ k, u.trafficControlData.lookup k = v.trafficControlData.lookup k

theorem SmPolicyUpdate.Agree.refl (u : SmPolicyUpdate) : u.Agree u :=
  ⟨fun _ => rfl, fun _ => rfl, fun _ => rfl, fun _ => rfl, fun _ => rfl⟩

namespace SmPolicyDecision

theorem Agree.apply {a b : SmPolicyDecision} {u v : SmPolicyUpdate} (h : Agree a b) (hu : u.Agree v) :
    Agree (a.apply u) (b.apply v) :=
  ⟨Map.lookup_apply_congr h.1 hu.1, Map.lookup_apply_congr h.2 hu.2, Map.lookup_apply_congr h.3 hu.3,
    Map.lookup_apply_congr h.4 hu.4, Map.lookup_apply_congr h.5 hu.5⟩

/-- Nothing is sent exactly when nothing has changed. -/
theorem diff_eq_none_iff {prev next : SmPolicyDecision} :
    prev.diff next = none ↔ Agree prev next := by
  have hmaps : Agree prev next ↔
      (prev.sessionRules.diff next.sessionRules).entries.isEmpty = true ∧
        (prev.pccRules.diff next.pccRules).entries.isEmpty = true ∧
        (prev.qosDescs.diff next.qosDescs).entries.isEmpty = true ∧
        (prev.chargingDescs.diff next.chargingDescs).entries.isEmpty = true ∧
        (prev.trafficControlData.diff next.trafficControlData).entries.isEmpty = true := by
    simp only [Map.isEmpty_diff_iff]
    exact ⟨fun h => ⟨h.1, h.2, h.3, h.4, h.5⟩, fun ⟨h₁, h₂, h₃, h₄, h₅⟩ => ⟨h₁, h₂, h₃, h₄, h₅⟩⟩
  rw [hmaps, diff]
  split
  next hsome =>
    refine iff_of_false (Option.some_ne_none _) ?_
    rintro ⟨h₁, h₂, h₃, h₄, h₅⟩
    simp only [h₁, h₂, h₃, h₄, h₅, Bool.not_true, Bool.or_self, Bool.false_eq_true] at hsome
  next hnone =>
    simp only [Bool.or_eq_true, Bool.not_eq_true', not_or, Bool.not_eq_false, and_assoc] at hnone
    exact iff_of_true rfl hnone

/-- The updates along a chain of decisions. -/
def deltas : SmPolicyDecision → List SmPolicyDecision → List SmPolicyUpdate
  | _, [] => []
  | prev, next :: rest => (prev.diff next).getD {} :: deltas next rest

/-- Whatever order the maps come in, the updates lead from the first decision to the last. -/
theorem foldl_deltas {prev base : SmPolicyDecision} {chain : List SmPolicyDecision}
    {us : List SmPolicyUpdate} (hbase : Agree base prev)
    (hus : List.Forall₂ SmPolicyUpdate.Agree us (deltas prev chain)) :
    Agree (us.foldl apply base) (chain.getLastD prev) := by
  induction chain generalizing prev base us with
  | nil =>
    cases hus
    exact hbase
  | cons next rest ih =>
    cases hus with
    | cons hu hrest =>
      have hnext := (hbase.apply hu).trans (apply_diff_same (Agree.refl prev))
      rw [List.getLastD_cons, List.foldl_cons]
      exact ih hnext hrest

/-- **No change is lost.** The update from one decision to the next, merged onto the one, gives the other; there
is none exactly when they are equal; and the updates along a chain lead to its end.  The maps of the base and of
the updates may come in any order. -/
theorem deltas_lossless (prev next : SmPolicyDecision) (chain : List SmPolicyDecision) :
    (∀ base u, Agree base prev → u.Agree ((prev.diff next).getD {}) → Agree (base.apply u) next) ∧
      (prev.diff next = none ↔ Agree prev next) ∧
        ∀ base us, Agree base prev → List.Forall₂ SmPolicyUpdate.Agree us (deltas prev chain) →
          Agree (us.foldl apply base) (chain.getLastD prev) := by
  refine ⟨fun base u hbase hu => ?_, diff_eq_none_iff, fun base us hbase hus => foldl_deltas hbase hus⟩
  exact (hbase.apply hu).trans (apply_diff_same (Agree.refl prev))

/-- A session rule and nothing else. -/
def ambrOnly (a : SessionAmbrPolicy) : SmPolicyDecision := { sessionRules := sessionRulesFor (some a) }

theorem deltas_lossless_sample :
    Agree (apply {} ((diff {} (ambrOnly ⟨"1 Gbps", "2 Gbps"⟩)).getD {})) (ambrOnly ⟨"1 Gbps", "2 Gbps"⟩) :=
  (deltas_lossless {} (ambrOnly ⟨"1 Gbps", "2 Gbps"⟩) []).1 {} _ (.refl _) (.refl _)

end SmPolicyDecision

end Radian.Npcf
