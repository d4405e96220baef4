import Radian.Pfcp.Admission
import Radian.Pfcp.Binding

/-!
# Usage

What a session has counted and not reported, and how each change of the session moves it.

- `Session.unreported` — what the session URR has counted since its last report, and all that the
  flows have.
- `unreported_admitPacket`, `unreported_takeReport`, `measured_finalUsages`, `unreported_modify` —
  packets add to it, reports and dropped flows take from it.
-/

namespace Radian.Pfcp

/-! ### Adding counters up -/

namespace Counters

attribute [ext] Counters

instance : Zero Counters := ⟨zero⟩

instance : Add Counters :=
  ⟨fun a b => ⟨a.ulBytes + b.ulBytes, a.dlBytes + b.dlBytes, a.ulPkts + b.ulPkts,
    a.dlPkts + b.dlPkts⟩⟩

@[simp] theorem zero_eq : (0 : Counters) = ⟨0, 0, 0, 0⟩ := rfl

@[simp] theorem add_eq (a b : Counters) :
    a + b = ⟨a.ulBytes + b.ulBytes, a.dlBytes + b.dlBytes, a.ulPkts + b.ulPkts,
      a.dlPkts + b.dlPkts⟩ := rfl

instance : AddCancelCommMonoid Counters where
  add_assoc a b c := by simp [Nat.add_assoc]
  zero_add a := by simp
  add_zero a := by simp
  add_comm a b := by simp [Nat.add_comm]
  add_left_cancel a b c h := by
    simp only [add_eq, mk.injEq] at h
    ext <;> omega
  nsmul := nsmulRec

theorem add_eq_zero_iff (a b : Counters) : a + b = 0 ↔ a = 0 ∧ b = 0 := by
  simp only [add_eq, zero_eq, Counters.ext_iff]
  omega

/-- One packet. -/
def ofPacket (uplink : Bool) (bytes : Nat) : Counters :=
  if uplink then ⟨bytes, 0, 1, 0⟩ else ⟨0, bytes, 0, 1⟩

/-- Every counter is below `2^63`. -/
def Small (c : Counters) : Prop :=
  c.ulBytes < 2 ^ 63 ∧ c.dlBytes < 2 ^ 63 ∧ c.ulPkts < 2 ^ 63 ∧ c.dlPkts < 2 ^ 63

instance : DecidablePred Small := fun c =>
  inferInstanceAs (Decidable (c.ulBytes < 2 ^ 63 ∧ c.dlBytes < 2 ^ 63 ∧ c.ulPkts < 2 ^ 63 ∧
    c.dlPkts < 2 ^ 63))

/-- Below `2^63` no counter has saturated. -/
theorem count_eq {c : Counters} {uplink : Bool} {bytes : Nat} (h : (c.count uplink bytes).Small) :
    c.count uplink bytes = c + ofPacket uplink bytes := by
  cases uplink with
  | true =>
    simp only [count, if_true, Small, saturatingAdd, u64Max] at h
    simp only [count, ofPacket, if_true, saturatingAdd, u64Max, add_eq, Counters.ext_iff]
    omega
  | false =>
    simp only [count, Bool.false_eq_true, if_false, Small, saturatingAdd, u64Max] at h
    simp only [count, ofPacket, Bool.false_eq_true, if_false, saturatingAdd, u64Max, add_eq,
      Counters.ext_iff]
    omega

@[simp] theorem since_add (r c : Counters) : (r + c).since r = c := by
  ext <;> simp [since]

end Counters

/-- The volumes of a usage report. -/
def UsageVolume.measured (u : UsageVolume) : Counters :=
  ⟨u.uplink, u.downlink, u.uplinkPkts, u.downlinkPkts⟩

@[simp] theorem measured_volume (c : Counters) (urrId : Nat) : (c.volume urrId).measured = c := rfl

/-! ### What a session has not reported -/

namespace Session

/-- Counted since the last report, or under a flow. -/
def unreported (t : Session) : Counters :=
  t.counted.since t.reported + (t.flowQers.map fun f => f.counted).sum

/-- Nothing is reported before it is counted. -/
def Covered (t : Session) : Prop := ∃ c, t.counted = t.reported + c

/-- No URR has counted to `2^63`. -/
def Small (t : Session) : Prop := ∀ c ∈ t.urrs, c.Small

instance : DecidablePred Small := fun t =>
  inferInstanceAs (Decidable (∀ c ∈ t.urrs, c.Small))

theorem Covered.reported_add {t : Session} (h : t.Covered) :
    t.reported + t.unreported = t.urrs.sum := by
  obtain ⟨c, hc⟩ := h
  rw [unreported, urrs, List.sum_cons, hc, Counters.since_add, ← add_assoc]

/-- Equal counters are equally covered. -/
theorem covered_congr {t t' : Session} (hurrs : t'.urrs = t.urrs) (hreported : t'.reported = t.reported)
    (h : t.Covered) : t'.Covered := by
  obtain ⟨c, hc⟩ := h
  simp only [urrs, List.cons.injEq] at hurrs
  exact ⟨c, by rw [hurrs.1, hreported, hc]⟩

theorem unreported_congr {t t' : Session} (hurrs : t'.urrs = t.urrs)
    (hreported : t'.reported = t.reported) : t'.unreported = t.unreported := by
  simp only [urrs, List.cons.injEq] at hurrs
  rw [unreported, unreported, hurrs.1, hurrs.2, hreported]

end Session

/-! #### Packets -/

section Packet

variable {uplink : Bool} {nowNanos : Nat} {pkt : Packet} {t t' : Session}

/-- What is let through adds to the counters. -/
theorem LetThrough.sum_urrs (h : LetThrough uplink nowNanos pkt t t') (hsmall : t'.Small) :
    t'.urrs.sum = t.urrs.sum + .ofPacket uplink pkt.length := by
  obtain ⟨u₁, c, u₂, hbefore, hafter⟩ := h.counted_once
  have hc : (c.count uplink pkt.length).Small := by
    apply hsmall
    rw [hafter]
    simp
  rw [hafter, hbefore, Counters.count_eq hc, List.sum_append, List.sum_cons, List.sum_append,
    List.sum_cons]
  abel

theorem LetThrough.covered (h : LetThrough uplink nowNanos pkt t t')
    (hreported : t'.reported = t.reported) (hsmall : t'.Small) (hcovered : t.Covered) :
    t'.Covered := by
  obtain ⟨d, hd⟩ := hcovered
  obtain ⟨u₁, c, u₂, hbefore, hafter⟩ := h.counted_once
  rcases u₁ with _ | ⟨c₀, u₁⟩
  · simp only [Session.urrs, List.nil_append, List.cons.injEq] at hbefore hafter
    have hc : (c.count uplink pkt.length).Small := by
      apply hsmall
      rw [Session.urrs, hafter.1]
      exact List.mem_cons_self
    refine ⟨d + .ofPacket uplink pkt.length, ?_⟩
    rw [hafter.1, Counters.count_eq hc, ← hbefore.1, hd, hreported, add_assoc]
  · simp only [Session.urrs, List.cons_append, List.cons.injEq] at hbefore hafter
    exact ⟨d, by rw [hafter.1, ← hbefore.1, hd, hreported]⟩

/-- What `admit` adds: the packet, when it passes. -/
theorem unreported_admitPacket (hcovered : t.Covered)
    (hsmall : (t.admitPacket uplink nowNanos pkt).2.Small) :
    (t.admitPacket uplink nowNanos pkt).2.Covered ∧
      (t.admitPacket uplink nowNanos pkt).2.unreported = t.unreported +
        if (t.admitPacket uplink nowNanos pkt).1 then .ofPacket uplink pkt.length else 0 := by
  have hreported := reported_admitPacket uplink nowNanos pkt t
  cases hpasses : (t.admitPacket uplink nowNanos pkt).1 with
  | true =>
    have hthrough := letThrough_admitPacket hpasses
    have hcovered' := hthrough.covered hreported hsmall hcovered
    refine ⟨hcovered', ?_⟩
    have hsum := hcovered'.reported_add
    rw [hthrough.sum_urrs hsmall, ← hcovered.reported_add, hreported, add_assoc] at hsum
    rw [if_pos rfl]
    exact add_left_cancel hsum
  | false =>
    have hurrs := urrs_refused hpasses
    refine ⟨Session.covered_congr hurrs hreported hcovered, ?_⟩
    rw [if_neg Bool.false_ne_true, add_zero]
    exact Session.unreported_congr hurrs hreported

end Packet

/-! #### Reports -/

theorem covered_takeReport (t : Session) : t.takeReport.2.Covered := ⟨0, (add_zero _).symm⟩

/-- A report takes what the session URR has not reported. -/
theorem unreported_takeReport (t : Session) :
    t.takeReport.2.unreported + t.takeReport.1.measured = t.unreported := by
  have hself : t.counted.since t.counted = 0 := by
    simp [Counters.since]
  simp only [Session.unreported, Session.takeReport, measured_volume, hself, zero_add]
  exact add_comm _ _

/-- The final report takes all. -/
theorem measured_finalUsages (t : Session) :
    (t.finalUsages.map UsageVolume.measured).sum = t.unreported := by
  simp only [Session.finalUsages, Session.unreported, List.map_cons, List.sum_cons, List.map_map,
    measured_volume]
  rfl

/-! #### Modifications -/

/-- Whether a change removes or replaces the flows with a QFI. -/
def Change.drops : Change → UInt8 → Bool
  | .addFlow f, qfi => f.qfi == qfi
  | .removeFlow q, qfi => q == qfi
  | _, _ => false

/-- Whether a message removes or replaces the flows with a QFI. -/
def Message.drops (msg : Message) (qfi : UInt8) : Bool := (changesOf msg).any fun c => c.drops qfi

namespace Session

/-- The QFI and the counters of each flow. -/
def flowCounts (t : Session) : List (UInt8 × Counters) :=
  t.flowQers.map fun f => (f.qfi, f.counted)

/-- What the flows have counted that a modification removes or replaces. -/
def dropped (msg : Message) (t : Session) : Counters :=
  ((t.flowCounts.filter fun e => msg.drops e.1).map Prod.snd).sum

end Session

/-- A change of a flow that keeps its QFI and its counters. -/
theorem map_updateFirst {A : Type} {g : FlowEnforcer → FlowEnforcer} {h : FlowEnforcer → A}
    (hg : ∀ f, h (g f) = h f) (qfi : UInt8) (fs : List FlowEnforcer) :
    (FlowEnforcer.updateFirst qfi g fs).map h = fs.map h := by
  induction fs with
  | nil => rfl
  | cons f fs ih =>
    rw [FlowEnforcer.updateFirst]
    split
    · rw [List.map_cons, List.map_cons, hg]
    · rw [List.map_cons, List.map_cons, ih]

/-- A change leaves the counters of the flows it does not drop, and a new flow starts from zero. -/
theorem flowCounts_apply (nowNanos : Nat) (t : Session) (c : Change) :
    ∃ new : List (UInt8 × Counters), (∀ e ∈ new, e.2 = 0) ∧
      (Change.apply nowNanos t c).flowCounts = (t.flowCounts.filter fun e => !c.drops e.1) ++ new := by
  have hkept : ∀ t' : Session, t'.flowCounts = t.flowCounts → (∀ qfi, c.drops qfi = false) →
      t'.flowCounts = (t.flowCounts.filter fun e => !c.drops e.1) ++ [] := by
    intro t' hcounts hdrops
    simp [hcounts, hdrops]
  cases c with
  | addFlow f =>
    refine ⟨[(f.qfi, 0)], by simp, ?_⟩
    simp only [Change.apply, Session.addFlow, Session.flowCounts, List.map_append,
      List.filter_map, Change.drops]
    congr 2
    apply List.filter_congr
    intro e _
    exact congrArg not (Bool.beq_comm ..)
  | removeFlow qfi =>
    refine ⟨[], by simp, ?_⟩
    simp only [Change.apply, Session.removeFlow, Session.flowCounts, List.filter_map,
      Change.drops, List.append_nil]
    congr 1
    apply List.filter_congr
    intro e _
    exact congrArg not (Bool.beq_comm ..)
  | updateFlowRate =>
    refine ⟨[], by simp, hkept _ ?_ fun _ => rfl⟩
    apply map_updateFirst
    intro f
    rfl
  | setFlowGate =>
    refine ⟨[], by simp, hkept _ ?_ fun _ => rfl⟩
    apply map_updateFirst
    intro f
    rfl
  | _ => exact ⟨[], by simp, hkept _ rfl fun _ => rfl⟩

/-- What a list of changes leaves of the flows' counters. -/
theorem sum_flowCounts_applyAll (nowNanos : Nat) (changes : List Change) (t : Session) :
    ((Change.applyAll nowNanos t changes).flowCounts.map Prod.snd).sum =
      ((t.flowCounts.filter fun e => !changes.any fun c => c.drops e.1).map Prod.snd).sum := by
  induction changes generalizing t with
  | nil => simp [Change.applyAll]
  | cons c changes ih =>
    obtain ⟨new, hzero, hcounts⟩ := flowCounts_apply nowNanos t c
    have hnew : ((new.filter fun e => !changes.any fun c => c.drops e.1).map Prod.snd).sum = 0 := by
      apply List.sum_eq_zero
      intro n hn
      obtain ⟨e, he, rfl⟩ := List.mem_map.mp hn
      exact hzero e (List.mem_filter.mp he).1
    rw [Change.applyAll, List.foldl_cons, ← Change.applyAll, ih, hcounts, List.filter_append,
      List.map_append, List.sum_append, hnew, add_zero, List.filter_filter]
    congr 2
    apply List.filter_congr
    intro e _
    rw [List.any_cons, Bool.not_or, Bool.and_comm]

theorem sum_filter_not (p : UInt8 × Counters → Bool) (l : List (UInt8 × Counters)) :
    ((l.filter fun e => !p e).map Prod.snd).sum + ((l.filter p).map Prod.snd).sum =
      (l.map Prod.snd).sum := by
  have hsum := ((List.filter_append_perm p l).map Prod.snd).sum_eq
  rw [List.map_append, List.sum_append, add_comm] at hsum
  exact hsum

theorem counted_modify (t : Session) (msg : Message) (nowNanos : Nat) :
    (t.modify msg nowNanos).counted = t.counted := by
  apply modify_kept
  intro c t
  cases c <;> rfl

theorem reported_modify (t : Session) (msg : Message) (nowNanos : Nat) :
    (t.modify msg nowNanos).reported = t.reported := by
  apply modify_kept
  intro c t
  cases c <;> rfl

theorem covered_modify {t : Session} (msg : Message) (nowNanos : Nat) (h : t.Covered) :
    (t.modify msg nowNanos).Covered := by
  rw [Session.Covered, counted_modify, reported_modify]
  exact h

/-- A modification takes what the flows that it drops have counted. -/
theorem unreported_modify (t : Session) (msg : Message) (nowNanos : Nat) :
    (t.modify msg nowNanos).unreported + t.dropped msg = t.unreported := by
  have hsum := sum_flowCounts_applyAll nowNanos (changesOf msg) t
  have hall := sum_filter_not (fun e => msg.drops e.1) t.flowCounts
  rw [← modify_eq_foldl] at hsum
  unfold Message.drops at hall
  rw [← hsum] at hall
  simp only [Session.flowCounts, List.map_map] at hall
  rw [Session.unreported, Session.unreported, counted_modify, reported_modify, add_assoc]
  congr 1

/-- A request about a session takes all that a deletion reports, or what a modification drops. -/
theorem unreported_onTarget (msg : Message) (nowNanos : Nat) (t : Session) :
    ((msg.onTarget nowNanos t).map Session.unreported).getD 0 +
      ((if msg.msgType = .sessionDeletionRequest then t.unreported else 0) +
        if msg.msgType = .sessionModificationRequest then t.dropped msg else 0) = t.unreported := by
  cases htype : msg.msgType with
  | sessionModificationRequest =>
    simp only [Message.onTarget, htype, Option.map_some, Option.getD_some, reduceCtorEq, if_false,
      if_true, zero_add]
    exact unreported_modify t msg nowNanos
  | sessionDeletionRequest =>
    simp only [Message.onTarget, htype, Option.map_none, Option.getD_none, reduceCtorEq, if_false,
      if_true, add_zero, zero_add]
  | _ => simp only [Message.onTarget, htype, Option.map_some, Option.getD_some, reduceCtorEq,
      if_false, add_zero]

theorem covered_onTarget {msg : Message} {nowNanos : Nat} {t t' : Session}
    (h : msg.onTarget nowNanos t = some t') (hcovered : t.Covered) : t'.Covered := by
  unfold Message.onTarget at h
  split at h
  · rw [← Option.some_inj.mp h]
    exact covered_modify msg nowNanos hcovered
  · exact absurd h (by simp)
  · rw [← Option.some_inj.mp h]
    exact hcovered

end Radian.Pfcp
