import Radian.Pfcp.Establishment
import Radian.Runs.Basic

/-!
# QER ids in a modification

What the QER IEs of a modification do to the flows and to the AMBR, one IE after the other.

- `QerIe`, `qerIes` — the IEs of a message, in the order in which they are applied.
- `sameQos_modify` — they are all that a modification does to the flows and to the AMBR.
- `exact_iff_addressed` — when an IE touches only what its id names.
- `namesFlow_sessionFlowModificationRequest` — the IEs of the SMF's own requests do.
- `queryUrr_addressed` — a Query URR, whose id is checked, always does.
-/

namespace Radian.Pfcp

/-! ### Re-rating a bucket -/

namespace TokenBucket

/-- A bucket of this rate that has just been refilled. -/
def RatedAt (b : TokenBucket) (rateBps nowNanos : Nat) : Prop :=
  b.rateBps = rateBps ∧ b.burstBits = max rateBps MIN_BURST_BITS ∧ b.lastNanos = nowNanos ∧
    b.levelBits ≤ min b.burstBits u64Max

instance (b : TokenBucket) (rateBps nowNanos : Nat) : Decidable (b.RatedAt rateBps nowNanos) :=
  inferInstanceAs (Decidable (_ ∧ _ ∧ _ ∧ _))

/-- With no time elapsed there is nothing to refill. -/
theorem levelBits_poll_now {b : TokenBucket} (h : b.rateBps ≠ 0) :
    (b.poll b.lastNanos 0).2.levelBits = min (min b.levelBits u64Max) b.burstBits := by
  simp [poll, h, saturatingAdd, saturatingMul]

theorem setRate_eq_self_iff {b : TokenBucket} {rateBps nowNanos : Nat} :
    b.setRate rateBps nowNanos = b ↔ b.RatedAt rateBps nowNanos := by
  obtain ⟨rate, burst, level, last⟩ := b
  simp only [setRate, new, RatedAt, TokenBucket.mk.injEq]
  constructor
  · rintro ⟨rfl, rfl, hlevel, rfl⟩
    refine ⟨rfl, rfl, rfl, ?_⟩
    by_cases hrate : rateBps = 0
    · subst hrate
      simp only [poll, if_pos, MIN_BURST_BITS, u64Max] at hlevel ⊢
      omega
    · rw [levelBits_poll_now (b := ⟨rateBps, _, level, nowNanos⟩) hrate] at hlevel
      simp only at hlevel
      omega
  · rintro ⟨rfl, rfl, rfl, hlevel⟩
    refine ⟨rfl, rfl, ?_, rfl⟩
    by_cases hrate : rate = 0
    · simp only [poll, hrate, if_pos] at hlevel ⊢
      omega
    · rw [levelBits_poll_now (b := ⟨rate, _, level, last⟩) hrate]
      simp only at hlevel ⊢
      omega

end TokenBucket

/-! ### Updating the first flow of a QFI -/

namespace FlowEnforcer

/-- The flows of a QFI, in order. -/
def withQfi (qfi : UInt8) (flows : List FlowEnforcer) : List FlowEnforcer :=
  flows.filter fun f => f.qfi == qfi

theorem withQfi_cons_self (f : FlowEnforcer) (flows : List FlowEnforcer) :
    withQfi f.qfi (f :: flows) = f :: withQfi f.qfi flows := by
  simp [withQfi]

theorem withQfi_cons_of_ne {f : FlowEnforcer} {qfi : UInt8} (h : f.qfi ≠ qfi)
    (flows : List FlowEnforcer) : withQfi qfi (f :: flows) = withQfi qfi flows := by
  simp [withQfi, h]

section UpdateFirst

variable {g : FlowEnforcer → FlowEnforcer}

theorem updateFirst_comp (hg : ∀ f, (g f).qfi = f.qfi) (g' : FlowEnforcer → FlowEnforcer)
    (qfi : UInt8) (flows : List FlowEnforcer) :
    updateFirst qfi g' (updateFirst qfi g flows) = updateFirst qfi (g' ∘ g) flows := by
  induction flows with
  | nil => rfl
  | cons f flows ih =>
    by_cases hf : f.qfi = qfi
    · simp [updateFirst, hf, hg]
    · simp [updateFirst, hf, ih]

theorem updateFirst_id (qfi : UInt8) (flows : List FlowEnforcer) :
    updateFirst qfi id flows = flows := by
  induction flows with
  | nil => rfl
  | cons f flows ih => simp [updateFirst, ih]

/-- Of the flows of the QFI the first is updated. -/
theorem withQfi_updateFirst (hg : ∀ f, (g f).qfi = f.qfi) (qfi : UInt8)
    (flows : List FlowEnforcer) :
    withQfi qfi (updateFirst qfi g flows) = (withQfi qfi flows).modifyHead g := by
  induction flows with
  | nil => rfl
  | cons f flows ih =>
    by_cases hf : f.qfi = qfi
    · subst hf
      have hself : (g f).qfi = f.qfi := hg f
      rw [updateFirst, if_pos rfl, withQfi_cons_self, ← hself, withQfi_cons_self]
      rfl
    · rw [updateFirst, if_neg hf, withQfi_cons_of_ne hf, withQfi_cons_of_ne hf, ih]

/-- The flows of other QFIs stay. -/
theorem withQfi_updateFirst_of_ne (hg : ∀ f, (g f).qfi = f.qfi) {qfi q : UInt8} (hq : q ≠ qfi)
    (flows : List FlowEnforcer) : withQfi q (updateFirst qfi g flows) = withQfi q flows := by
  induction flows with
  | nil => rfl
  | cons f flows ih =>
    by_cases hf : f.qfi = qfi
    · have hgf : (g f).qfi ≠ q := by
        rw [hg, hf]
        exact hq.symm
      rw [updateFirst, if_pos hf, withQfi_cons_of_ne hgf, withQfi_cons_of_ne (hg f ▸ hgf)]
    · rw [updateFirst, if_neg hf]
      simp only [withQfi, List.filter_cons] at ih ⊢
      rw [ih]

end UpdateFirst

theorem withQfi_filter_self (qfi : UInt8) (flows : List FlowEnforcer) :
    withQfi qfi (flows.filter fun e => e.qfi != qfi) = [] := by
  simp [withQfi, List.filter_filter]

theorem withQfi_filter_of_ne {qfi q : UInt8} (hq : q ≠ qfi) (flows : List FlowEnforcer) :
    withQfi q (flows.filter fun e => e.qfi != qfi) = withQfi q flows := by
  rw [withQfi, List.filter_filter, withQfi]
  apply List.filter_congr
  intro e _
  by_cases he : e.qfi = q
  · simp [he, hq]
  · simp [he]

end FlowEnforcer

/-- A list is kept by a change of its head exactly when the head is. -/
theorem modifyHead_eq_self_iff {A : Type} {g : A → A} {xs : List A} :
    xs.modifyHead g = xs ↔ ∀ x ∈ xs.head?, g x = x := by
  cases xs <;> simp

/-! ### The IEs of a message -/

/-- A Remove QER, a Create QER with the flow it provisions, or an Update QER. -/
inductive QerIe where
  | remove (qerId : Nat)
  | create (qerId : Nat) (f : FlowQer)
  | update (uq : UpdateQer)
  deriving DecidableEq, Repr

namespace QerIe

def qerId : QerIe → Nat
  | .remove qerId => qerId
  | .create qerId _ => qerId
  | .update uq => uq.qerId

/-- The QFI the id is mapped to. -/
def qfi : QerIe → UInt8
  | .remove qerId => qfiOfQerId qerId
  | .create _ f => f.qfi
  | .update uq => qfiOfQerId uq.qerId

def apply (nowNanos : Nat) (t : Session) : QerIe → Session
  | .remove qerId => if qerId = AMBR_QER_ID then t else t.removeFlow (qfiOfQerId qerId)
  | .create _ f => t.addFlow f nowNanos
  | .update uq => t.applyUpdateQer nowNanos uq

end QerIe

/-- The QER ids of the flows a message provisions, as `parseCreatedFlows` reads them. -/
def createdQerIes (msg : Message) : List QerIe :=
  msg.createPdrs.filterMap fun pdr =>
    (createdFlow msg pdr).bind fun f => pdr.qerId.map fun qerId => .create qerId f

/-- The IEs in the order in which they are applied. -/
def qerIes (msg : Message) : List QerIe :=
  msg.removeQers.map .remove ++ createdQerIes msg ++ msg.updateQers.map .update

/-- A provisioned flow has the QFI that its QER id is mapped to. -/
theorem createdFlow_qerId {msg : Message} {pdr : CreatePdr} {f : FlowQer}
    (h : createdFlow msg pdr = some f) :
    ∃ qerId, pdr.qerId = some qerId ∧ f.qfi = qfiOfQerId qerId := by
  simp only [createdFlow, Option.bind_eq_bind, Option.bind_eq_some_iff] at h
  obtain ⟨_, -, _, -, qerId, hqerId, _, -, hf⟩ := h
  exact ⟨qerId, hqerId, (congrArg FlowQer.qfi (Option.some.inj hf)).symm⟩

/-- The provisioned flows are added one after the other. -/
theorem run_createdQerIes (msg : Message) (nowNanos : Nat) (t : Session) :
    Runs.run (QerIe.apply nowNanos) t (createdQerIes msg) =
      (parseCreatedFlows msg).foldl (fun t f => t.addFlow f nowNanos) t := by
  unfold createdQerIes parseCreatedFlows
  generalize msg.createPdrs = pdrs
  induction pdrs generalizing t with
  | nil => rfl
  | cons pdr pdrs ih =>
    rcases hf : createdFlow msg pdr with _ | f
    · simpa [hf] using ih t
    · obtain ⟨qerId, hqerId, -⟩ := createdFlow_qerId hf
      simpa [hf, hqerId, QerIe.apply] using ih _

theorem run_remove (ids : List Nat) (nowNanos : Nat) (t : Session) :
    Runs.run (QerIe.apply nowNanos) t (ids.map .remove) =
      (ids.filter fun id => id != AMBR_QER_ID).foldl
        (fun t id => t.removeFlow (qfiOfQerId id)) t := by
  induction ids generalizing t with
  | nil => rfl
  | cons id ids ih =>
    by_cases hid : id = AMBR_QER_ID
    · simpa [hid, QerIe.apply] using ih t
    · simpa [hid, QerIe.apply] using ih _

/-! ### What a modification does to the flows and the AMBR -/

/-- The same flows and the same AMBR. -/
structure Session.SameQos (t u : Session) : Prop where
  flowQers : t.flowQers = u.flowQers
  ambr : t.ambr = u.ambr
  ulBucket : t.ulBucket = u.ulBucket
  dlBucket : t.dlBucket = u.dlBucket

namespace Session.SameQos

protected theorem refl (t : Session) : t.SameQos t := ⟨rfl, rfl, rfl, rfl⟩

theorem trans {t u v : Session} (h : t.SameQos u) (h' : u.SameQos v) : t.SameQos v :=
  ⟨h.flowQers.trans h'.flowQers, h.ambr.trans h'.ambr, h.ulBucket.trans h'.ulBucket,
    h.dlBucket.trans h'.dlBucket⟩

/-- Changes that leave the flows and the AMBR alone. -/
theorem foldl {A : Type} {f : Session → A → Session} (hf : ∀ t a, (f t a).SameQos t) (t : Session)
    (xs : List A) : (xs.foldl f t).SameQos t := by
  induction xs generalizing t with
  | nil => exact Session.SameQos.refl t
  | cons a xs ih => exact (ih (f t a)).trans (hf t a)

end Session.SameQos

theorem sameQos_applyRules (msg : Message) (nowNanos : Nat) (t : Session) :
    (t.applyRules msg nowNanos).SameQos (Runs.run (QerIe.apply nowNanos) t (qerIes msg)) := by
  have hrun : Runs.run (QerIe.apply nowNanos) t (qerIes msg) =
      msg.updateQers.foldl (Session.applyUpdateQer nowNanos)
        ((parseCreatedFlows msg).foldl (fun t f => t.addFlow f nowNanos)
          ((msg.removeQers.filter fun id => id != AMBR_QER_ID).foldl
            (fun t id => t.removeFlow (qfiOfQerId id)) t)) := by
    rw [qerIes, Runs.run_append, Runs.run_append, run_remove, run_createdQerIes, Runs.run,
      List.foldl_map]
    rfl
  rw [hrun]
  refine (Session.SameQos.foldl ?_ _ (parseBranches msg)).trans (Session.SameQos.foldl ?_ _ _)
  · exact fun _ _ => ⟨rfl, rfl, rfl, rfl⟩
  · exact fun _ _ => ⟨rfl, rfl, rfl, rfl⟩

/-- The QER IEs are all that a modification does to the flows and the AMBR. -/
theorem sameQos_modify (msg : Message) (nowNanos : Nat) (t : Session) :
    (t.modify msg nowNanos).SameQos
      (Runs.run (QerIe.apply nowNanos) (t.applyDownlinkUpdate msg) (qerIes msg)) :=
  sameQos_applyRules msg nowNanos _

/-! ### What an IE names and what it touches -/

/-- What an Update QER makes of a flow. -/
def UpdateQer.amend (nowNanos : Nat) (uq : UpdateQer) (f : FlowEnforcer) : FlowEnforcer :=
  let f := match uq.mbr with
    | some m => f.setRate m.downlink m.uplink nowNanos
    | none => f
  match uq.gateStatus with
  | some gate => { f with gate }
  | none => f

/-- A flow that is already as the Update QER wants it. -/
def UpdateQer.Agrees (nowNanos : Nat) (uq : UpdateQer) (f : FlowEnforcer) : Prop :=
  (∀ m ∈ uq.mbr, f.ulBucket.RatedAt m.uplink nowNanos ∧ f.dlBucket.RatedAt m.downlink nowNanos) ∧
    ∀ gate ∈ uq.gateStatus, f.gate = gate

theorem UpdateQer.qfi_amend (nowNanos : Nat) (uq : UpdateQer) (f : FlowEnforcer) :
    (uq.amend nowNanos f).qfi = f.qfi := by
  obtain ⟨qerId, mbr, gateStatus⟩ := uq
  cases mbr <;> cases gateStatus <;> rfl

theorem UpdateQer.amend_eq_self_iff {nowNanos : Nat} {uq : UpdateQer} {f : FlowEnforcer} :
    uq.amend nowNanos f = f ↔ uq.Agrees nowNanos f := by
  obtain ⟨qerId, mbr, gateStatus⟩ := uq
  obtain ⟨q, filter, gate, ul, dl, counted⟩ := f
  have hrate (b : TokenBucket) (rate : Nat) :
      b = b.setRate rate nowNanos ↔ b.RatedAt rate nowNanos :=
    eq_comm.trans TokenBucket.setRate_eq_self_iff
  cases mbr <;> cases gateStatus <;>
    simp [amend, Agrees, FlowEnforcer.setRate, eq_comm, and_comm, hrate]

/-- An Update QER of a flow updates the first flow of the QFI. -/
theorem flowQers_applyUpdateQer {nowNanos : Nat} {t : Session} {uq : UpdateQer}
    (h : uq.qerId ≠ AMBR_QER_ID) :
    (t.applyUpdateQer nowNanos uq).flowQers =
      FlowEnforcer.updateFirst (qfiOfQerId uq.qerId) (uq.amend nowNanos) t.flowQers := by
  obtain ⟨qerId, mbr, gateStatus⟩ := uq
  have hid : qerId ≠ AMBR_QER_ID := h
  rcases mbr with _ | m <;> rcases gateStatus with _ | gate
  · simp only [Session.applyUpdateQer, if_neg hid]
    exact (FlowEnforcer.updateFirst_id _ _).symm
  · simp only [Session.applyUpdateQer, if_neg hid, Session.setFlowGate]
    rfl
  · simp only [Session.applyUpdateQer, if_neg hid, Session.updateFlowRate]
    rfl
  · simp only [Session.applyUpdateQer, if_neg hid, Session.setFlowGate, Session.updateFlowRate]
    exact FlowEnforcer.updateFirst_comp
      (g := fun f => f.setRate m.downlink m.uplink nowNanos) (fun _ => rfl) _ _ _

namespace QerIe

/-- What becomes of the flows of a QFI under an IE that leaves them alone: they stay, and a new one
may come behind them. -/
def Leaves : QerIe → List FlowEnforcer → List FlowEnforcer → Prop
  | .create _ _, before, after => before.Sublist after
  | _, before, after => after = before

/-- An IE touches only what its id names: the flows of QFI `q` under `1000 + q`, the AMBR under
`1`. -/
structure Exact (nowNanos : Nat) (t : Session) (ie : QerIe) : Prop where
  flows : ∀ q : UInt8, ie.qerId ≠ PER_FLOW_QER_BASE + q.toNat →
    ie.Leaves (FlowEnforcer.withQfi q t.flowQers)
      (FlowEnforcer.withQfi q (ie.apply nowNanos t).flowQers)
  ambr : ie.qerId ≠ AMBR_QER_ID →
    (ie.apply nowNanos t).ambr = t.ambr ∧ (ie.apply nowNanos t).ulBucket = t.ulBucket ∧
      (ie.apply nowNanos t).dlBucket = t.dlBucket

/-- The id is that of a flow. -/
def NamesFlow (ie : QerIe) : Prop := ie.qerId = PER_FLOW_QER_BASE + ie.qfi.toNat

/-- The IE is about the AMBR, or there is nothing to touch at the QFI its id is mapped to. -/
def Spares (nowNanos : Nat) (t : Session) : QerIe → Prop
  | .remove qerId =>
      qerId = AMBR_QER_ID ∨ FlowEnforcer.withQfi (qfiOfQerId qerId) t.flowQers = []
  | .create _ f =>
      FlowEnforcer.withQfi f.qfi t.flowQers = [] ∨
        FlowEnforcer.withQfi f.qfi t.flowQers = [.new f nowNanos]
  | .update uq =>
      uq.qerId = AMBR_QER_ID ∨
        ∀ f ∈ (FlowEnforcer.withQfi (qfiOfQerId uq.qerId) t.flowQers).head?, uq.Agrees nowNanos f

def Addressed (nowNanos : Nat) (t : Session) (ie : QerIe) : Prop :=
  ie.NamesFlow ∨ ie.Spares nowNanos t

/-! ### One IE -/

/-- The flows of the QFI afterwards. -/
def outcome (nowNanos : Nat) (ie : QerIe) (flows : List FlowEnforcer) : List FlowEnforcer :=
  match ie with
  | .remove qerId => if qerId = AMBR_QER_ID then flows else []
  | .create _ f => [.new f nowNanos]
  | .update uq => if uq.qerId = AMBR_QER_ID then flows else flows.modifyHead (uq.amend nowNanos)

theorem flowQers_applyAmbr {nowNanos : Nat} {t : Session} {uq : UpdateQer}
    (h : uq.qerId = AMBR_QER_ID) : (t.applyUpdateQer nowNanos uq).flowQers = t.flowQers := by
  simp only [Session.applyUpdateQer, if_pos h]
  cases uq.mbr <;> rfl

/-- The flows of the QFI that the id is mapped to. -/
theorem withQfi_apply (nowNanos : Nat) (t : Session) (ie : QerIe) :
    FlowEnforcer.withQfi ie.qfi (ie.apply nowNanos t).flowQers =
      ie.outcome nowNanos (FlowEnforcer.withQfi ie.qfi t.flowQers) := by
  cases ie with
  | remove qerId =>
    by_cases hid : qerId = AMBR_QER_ID
    · simp only [apply, outcome, if_pos hid]
    · simp only [apply, outcome, if_neg hid]
      exact FlowEnforcer.withQfi_filter_self _ _
  | create qerId f =>
    have hnew : (FlowEnforcer.new f nowNanos).qfi = f.qfi := rfl
    have hkept := FlowEnforcer.withQfi_filter_self f.qfi t.flowQers
    simp only [FlowEnforcer.withQfi] at hkept
    simp [apply, outcome, Session.addFlow, qfi, FlowEnforcer.withQfi, hkept, hnew]
  | update uq =>
    by_cases hid : uq.qerId = AMBR_QER_ID
    · simp only [apply, outcome, if_pos hid, flowQers_applyAmbr hid]
    · simp only [apply, outcome, if_neg hid, flowQers_applyUpdateQer hid]
      exact FlowEnforcer.withQfi_updateFirst (uq.qfi_amend nowNanos) _ _

/-- The flows of other QFIs stay. -/
theorem withQfi_apply_of_ne (nowNanos : Nat) (t : Session) {ie : QerIe} {q : UInt8}
    (hq : q ≠ ie.qfi) :
    FlowEnforcer.withQfi q (ie.apply nowNanos t).flowQers = FlowEnforcer.withQfi q t.flowQers := by
  cases ie with
  | remove qerId =>
    by_cases hid : qerId = AMBR_QER_ID
    · simp only [apply, if_pos hid]
    · simp only [apply, if_neg hid]
      exact FlowEnforcer.withQfi_filter_of_ne hq _
  | create qerId f =>
    have hkept := FlowEnforcer.withQfi_filter_of_ne hq t.flowQers
    have hnew : (FlowEnforcer.new f nowNanos).qfi ≠ q := hq.symm
    simp only [FlowEnforcer.withQfi, qfi] at hkept
    simp [apply, Session.addFlow, FlowEnforcer.withQfi, hkept, hnew]
  | update uq =>
    by_cases hid : uq.qerId = AMBR_QER_ID
    · simp only [apply, flowQers_applyAmbr hid]
    · simp only [apply, flowQers_applyUpdateQer hid]
      exact FlowEnforcer.withQfi_updateFirst_of_ne (uq.qfi_amend nowNanos) hq _

/-- Only an Update QER of id 1 changes the AMBR. -/
theorem ambr_apply {nowNanos : Nat} {t : Session} {ie : QerIe} (h : ie.qerId ≠ AMBR_QER_ID) :
    (ie.apply nowNanos t).ambr = t.ambr ∧ (ie.apply nowNanos t).ulBucket = t.ulBucket ∧
      (ie.apply nowNanos t).dlBucket = t.dlBucket := by
  cases ie with
  | remove qerId =>
    simp only [apply]
    split <;> exact ⟨rfl, rfl, rfl⟩
  | create qerId f => exact ⟨rfl, rfl, rfl⟩
  | update uq =>
    obtain ⟨qerId, mbr, gateStatus⟩ := uq
    have hid : qerId ≠ AMBR_QER_ID := h
    simp only [apply, Session.applyUpdateQer, if_neg hid]
    cases mbr <;> cases gateStatus <;> exact ⟨rfl, rfl, rfl⟩

/-- The flows of the QFI are left alone exactly when the IE spares them. -/
theorem leaves_outcome_iff {nowNanos : Nat} {t : Session} {ie : QerIe} :
    ie.Leaves (FlowEnforcer.withQfi ie.qfi t.flowQers)
        (ie.outcome nowNanos (FlowEnforcer.withQfi ie.qfi t.flowQers)) ↔ ie.Spares nowNanos t := by
  cases ie with
  | remove qerId =>
    by_cases hid : qerId = AMBR_QER_ID
    · simp [Leaves, outcome, Spares, hid]
    · simp only [Leaves, outcome, Spares, qfi, hid, if_false, false_or]
      exact eq_comm
  | create qerId f =>
    simp only [Leaves, outcome, Spares, qfi]
    exact List.sublist_singleton
  | update uq =>
    by_cases hid : uq.qerId = AMBR_QER_ID
    · simp [Leaves, outcome, Spares, hid]
    · simp only [Leaves, outcome, Spares, qfi, hid, if_false, false_or,
        modifyHead_eq_self_iff, UpdateQer.amend_eq_self_iff]

theorem Leaves.refl (ie : QerIe) (flows : List FlowEnforcer) : ie.Leaves flows flows := by
  cases ie with
  | remove qerId => rfl
  | create qerId f => exact List.Sublist.refl flows
  | update uq => rfl

theorem exact_iff_addressed {nowNanos : Nat} {t : Session} {ie : QerIe} :
    ie.Exact nowNanos t ↔ ie.Addressed nowNanos t := by
  constructor
  · intro h
    by_cases hnames : ie.NamesFlow
    · exact .inl hnames
    · have hleaves := h.flows ie.qfi hnames
      rw [withQfi_apply] at hleaves
      exact .inr (leaves_outcome_iff.mp hleaves)
  · intro h
    refine ⟨fun q hq => ?_, ambr_apply⟩
    by_cases hqfi : q = ie.qfi
    · subst hqfi
      have hspares : ie.Spares nowNanos t := h.resolve_left hq
      rw [withQfi_apply]
      exact leaves_outcome_iff.mpr hspares
    · rw [withQfi_apply_of_ne nowNanos t hqfi]
      exact Leaves.refl ie _

end QerIe

/-! ### A request -/

/-- A session after a modification has the flows and the AMBR that the QER IEs leave it, and each
of these touches only what its id names exactly when each is addressed. -/
theorem qer_ids_exact_iff {msg : Message} {s : UpfState} {upSeid : Seid} {t : Session}
    {peer : Option IpAddr} (nodeIp : Ipv4Addr) (nowNanos : Nat)
    (htype : msg.msgType = .sessionModificationRequest) (hseid : msg.seid = some upSeid)
    (hpeer : refuses s peer upSeid = false) (hsession : s.sessions.lookup upSeid = some t) :
    let before := t.applyDownlinkUpdate msg
    (∃ t', (handleMessage msg nodeIp s nowNanos peer).2.sessions.lookup upSeid = some t' ∧
      t'.SameQos (Runs.run (QerIe.apply nowNanos) before (qerIes msg))) ∧
    (Runs.Along (QerIe.apply nowNanos) (fun t ie => ie.Exact nowNanos t) before (qerIes msg) ↔
      Runs.Along (QerIe.apply nowNanos) (fun t ie => ie.Addressed nowNanos t) before
        (qerIes msg)) := by
  intro before
  constructor
  · refine ⟨t.modify msg nowNanos, ?_, sameQos_modify msg nowNanos t⟩
    rw [handleMessage_modifies nodeIp nowNanos htype hseid hpeer hsession,
      UpfState.lookup_modify_self, hsession]
    rfl
  · exact Runs.along_congr (I := fun _ => True) (fun _ _ _ => trivial)
      (fun _ _ _ => QerIe.exact_iff_addressed) trivial

theorem namesFlow_base (qfi : UInt8) :
    PER_FLOW_QER_BASE + qfi.toNat =
      PER_FLOW_QER_BASE + (qfiOfQerId (PER_FLOW_QER_BASE + qfi.toNat)).toNat := by
  rw [qfiOfQerId_base]

/-- The IEs that the SMF builds from its flows are all addressed. -/
theorem namesFlow_sessionFlowModificationRequest {upSeid : Seid} {seq : Nat}
    {create update : List FlowQer} {removeQfis : List UInt8} {ie : QerIe}
    (h : ie ∈ qerIes (sessionFlowModificationRequest upSeid seq create update removeQfis)) :
    ie.NamesFlow := by
  simp only [qerIes, List.mem_append, createdQerIes, List.mem_filterMap, List.mem_map] at h
  rcases h with (⟨_, hremove, rfl⟩ | ⟨pdr, hpdr, hie⟩) | ⟨_, hupdate, rfl⟩
  · obtain ⟨q, -, rfl⟩ := List.mem_map.mp hremove
    exact namesFlow_base q
  · obtain ⟨f, -, rfl⟩ := List.mem_map.mp hpdr
    obtain ⟨created, hcreated, hie⟩ := Option.bind_eq_some_iff.mp hie
    obtain ⟨qerId, hqerId, hqfi⟩ := createdFlow_qerId hcreated
    rw [hqerId] at hie
    obtain rfl := Option.some.inj hie
    obtain rfl := Option.some.inj hqerId
    rw [QerIe.NamesFlow, QerIe.qerId, QerIe.qfi, hqfi]
    exact namesFlow_base f.qfi
  · obtain ⟨f, -, rfl⟩ := List.mem_map.mp hupdate
    exact namesFlow_base f.qfi

/-- A UPF with one session, which has a flow of QFI 2. -/
def withFlow : UpfState :=
  let flow : FlowQer :=
    { qfi := 2
      filter := .transport 17 5000 5001
      mfbrDlBps := 1000000
      mfbrUlBps := 1000000
      gate := .OPEN }
  let establish := sessionEstablishmentRequest 1 1 0x0A000001 ⟨some 0x0A2D0002, none⟩ "internet"
    none [flow] none
  (handleMessage establish 0x0A000003 (.withRecoveryTime 0) 0 none).2

def withFlow.session : Session := (withFlow.sessions.lookup 1).get (by decide +kernel)

theorem withFlow.lookup : withFlow.sessions.lookup 1 = some withFlow.session :=
  (Option.some_get _).symm

/-- The SMF's own removal of the flow is addressed. -/
theorem qer_ids_exact_iff_sample :
    let msg := sessionFlowModificationRequest 1 2 [] [] [2]
    Runs.Along (QerIe.apply 0) (fun t ie => ie.Exact 0 t)
      (withFlow.session.applyDownlinkUpdate msg) (qerIes msg) := by
  intro msg
  have hpeer : refuses withFlow none 1 = false := rfl
  have htype : msg.msgType = .sessionModificationRequest := rfl
  have hiff := (qer_ids_exact_iff 0x0A000003 0 htype rfl hpeer withFlow.lookup).2
  exact hiff.mpr ⟨.inl (by rfl), trivial⟩

/-- A Remove QER, with the id of no flow, that is taken for one of QFI 2. -/
def removesAliased : Message :=
  { msgType := .sessionModificationRequest, seid := some 1, sequence := 2, removeQers := [1258] }

/-- The aliased Remove QER takes away the flow of QFI 2. -/
theorem not_qer_ids_exact :
    ¬ ∀ (msg : Message) (s : UpfState) (upSeid : Seid) (t : Session) (nowNanos : Nat),
      msg.msgType = .sessionModificationRequest → msg.seid = some upSeid →
      s.sessions.lookup upSeid = some t →
      Runs.Along (QerIe.apply nowNanos) (fun t ie => ie.Exact nowNanos t)
        (t.applyDownlinkUpdate msg) (qerIes msg) := by
  intro h
  obtain ⟨hexact, -⟩ := h removesAliased withFlow 1 withFlow.session 0 rfl rfl withFlow.lookup
  have hflows := hexact.flows 2 (by decide)
  exact absurd hflows (by
    change ¬ _ = _
    decide +kernel)

/-- A Query URR reports a flow's usage under `2000 + q` only. -/
theorem queryUrr_addressed {t : Session} {urrId : Nat} {u : UsageVolume}
    (h : t.queryUrr urrId = some u) :
    urrId = SESSION_URR_ID ∨
      ∃ f ∈ t.flowQers, urrId = PER_FLOW_URR_BASE + f.qfi.toNat ∧ u = f.counted.volume urrId := by
  unfold Session.queryUrr at h
  split at h
  · exact .inl ‹_›
  · split at h
    · rename_i hband
      obtain ⟨f, hf, rfl⟩ := Option.map_eq_some_iff.mp h
      have hqfi : f.qfi = .ofNat (urrId - PER_FLOW_URR_BASE) := by
        simpa using List.find?_some hf
      have htoNat : f.qfi.toNat = urrId - PER_FLOW_URR_BASE := by
        rw [hqfi, UInt8.toNat_ofNat', Nat.mod_eq_of_lt hband.2]
      exact .inr ⟨f, List.mem_of_find?_eq_some hf, by omega, rfl⟩
    · simp at h

end Radian.Pfcp
