import Radian.Mobility.PathSwitch
import Radian.Proc.Stays
import Radian.Proc.Amid

/-!
# Who may act on a handover

The handovers in flight are found by AMF-UE-NGAP-ID alone; the handlers do not look at which
association a message came on.

- `Untouched` — what a gNB's message may do where it has no say: nothing, but to that gNB.
- `Entitled` — the recorded target, or the recorded source, of the handover.
- `Harmless` — there is no such handover.
- `untouched_iff` — a message of a gNB that is not entitled does nothing exactly when it is harmless.
-/

namespace Radian.Mobility

open Amf (AmfUeId Channel Association)
open Proc (StaysFrom WithinFrom)
open Security (Bytes)

variable {nh : Bytes → Bytes → Bytes}

/-! ### Doing nothing -/

/-- The same handovers in flight, the same tables, no timer that may end a handover later, no command
to an association. -/
structure Unchanged (s s' : Shared) : Prop where
  handovers : ∀ amfUeId, s'.handovers.lookup amfUeId = s.handovers.lookup amfUeId
  tables : s'.tables = s.tables
  timers : s'.timers = s.timers
  commands : s'.commands = s.commands

/-- A call that moves a user plane. -/
def UserPlane : Call → Prop
  | .nextReply _ => False
  | _ => True

/-- A message to a gNB other than the one on `tx`. -/
def Elsewhere (tx : Channel) : Mark → Prop
  | .forwarding tx' _ => tx' ≠ tx
  | _ => False

/-- Whatever the calls answer and whatever others do meanwhile: no section changes a context, a table or
the timers, no user plane is moved, and no other association is sent anything. -/
structure Untouched {α : Type} (t : MobilityM α) (l : Association) (s : Shared) : Prop where
  stays : StaysFrom Unchanged (fun e => ¬ UserPlane e) t l s
  within : WithinFrom (fun l l' => l' = l) (fun n => ¬ Elsewhere l.tx n) t l s

/-- Taking an entry out that is not there. -/
theorem Unchanged.erase {s : Shared} {amfUeId : AmfUeId} (h : s.handovers.lookup amfUeId = none) :
    Unchanged s { s with handovers := s.handovers.erase amfUeId } := by
  refine ⟨fun id => ?_, rfl, rfl, rfl⟩
  rw [Keyed.Map.lookup_erase_eq]
  split
  · rename_i hid
    rw [hid, h]
  · rfl

/-- An entry that is taken out was not there. -/
theorem Unchanged.of_erase {s : Shared} {amfUeId : AmfUeId}
    (h : Unchanged s { s with handovers := s.handovers.erase amfUeId }) :
    s.handovers.lookup amfUeId = none := by
  rw [← h.handovers amfUeId, Keyed.Map.lookup_erase_eq, if_pos rfl]

/-! ### Senders -/

/-- Whether the gNB on `tx` has a say: about an acknowledgement, a failure and a notify the recorded
target, about a notify only once it is acknowledged, and about a cancel the recorded source.  Other
messages are not about a handover in flight. -/
def Entitled (s : Shared) (tx : Channel) : Pdu → Prop
  | .handoverRequestAcknowledge (some ack) =>
      ∃ p, s.handovers.lookup ack.amfUeId = some p ∧ p.targetTx = tx
  | .handoverFailure (some failure) =>
      ∃ p, s.handovers.lookup failure.amfUeId = some p ∧ p.targetTx = tx
  | .handoverCancel (some cancel) =>
      ∃ p, s.handovers.lookup cancel.amfUeId = some p ∧ p.sourceTx = tx
  | .handoverNotify (some notify) =>
      ∃ p, s.handovers.lookup notify.amfUeId = some p ∧ p.targetTx = tx ∧ p.commanded = true
  | .handoverRequired _ | .pathSwitchRequest _ => True
  | _ => False

/-- There is no handover in flight under the message's id. -/
def Harmless (s : Shared) : Pdu → Prop
  | .handoverRequestAcknowledge (some ack) => s.handovers.lookup ack.amfUeId = none
  | .handoverFailure (some failure) => s.handovers.lookup failure.amfUeId = none
  | .handoverCancel (some cancel) => s.handovers.lookup cancel.amfUeId = none
  | .handoverNotify (some notify) => s.handovers.lookup notify.amfUeId = none
  | _ => True

/-! ### All four messages -/

/-- An acknowledgement that finds its handover arms a timer, even where it repeats another. -/
theorem untouched_ack_iff {ack : HandoverRequestAcknowledge} {l : Association} {s : Shared} :
    Untouched (onHandoverRequestAck (some ack)) l s ↔ s.handovers.lookup ack.amfUeId = none := by
  unfold onHandoverRequestAck
  dsimp only
  constructor
  · rintro ⟨hstays, -⟩
    rw [Proc.staysFrom_look_bind] at hstays
    cases hp : s.handovers.lookup ack.amfUeId with
    | none => rfl
    | some p =>
      rw [hp] at hstays
      have hsame : Unchanged s (s.acknowledged ack p) := hstays.2.1
      have htimers := congrArg List.length hsame.timers
      simp [Shared.acknowledged] at htimers
  · intro hp
    constructor
    · rw [Proc.staysFrom_look_bind, hp]
      trivial
    · rw [Proc.withinFrom_look_bind, hp]
      trivial

/-- What takes an entry out first does something exactly when there is one. -/
theorem untouched_remove_iff {α : Type} {amfUeId : AmfUeId}
    {k : Option PendingHandover → MobilityM α} {l : Association} {s : Shared}
    (hnone : ∀ s', Untouched (k none) l s') :
    Untouched (removeHandover amfUeId >>= k) l s ↔ s.handovers.lookup amfUeId = none := by
  constructor
  · intro h
    have hsame : Unchanged s { s with handovers := s.handovers.erase amfUeId } := h.stays.2.1
    exact hsame.of_erase
  · intro h
    have hquiet := hnone { s with handovers := s.handovers.erase amfUeId }
    rw [← h] at hquiet
    exact ⟨⟨rfl, Unchanged.erase h, hquiet.stays⟩, ⟨rfl, hquiet.within⟩⟩

/-- **Who may act on a handover.** A message of a gNB that is not the recorded target, or for a cancel
the source, or a notify before the acknowledgement, leaves the handovers, their timers, the contexts,
the user planes and the other associations alone exactly when there is no handover in flight under its
id. -/
theorem untouched_iff (pdu : Pdu) (l : Association) (s : Shared) (h : ¬ Entitled s l.tx pdu) :
    Untouched (handleNgap nh pdu) l s ↔ Harmless s pdu := by
  have hnothing : ∀ s', Untouched (pure () : MobilityM Unit) l s' := fun _ => ⟨trivial, trivial⟩
  cases pdu with
  | handoverRequired params => exact absurd trivial h
  | pathSwitchRequest params => exact absurd trivial h
  | handoverRequestAcknowledge params =>
      cases params with
      | none => exact iff_of_true (hnothing s) trivial
      | some ack => exact untouched_ack_iff
  | handoverFailure params =>
      cases params with
      | none => exact iff_of_true (hnothing s) trivial
      | some failure => exact untouched_remove_iff hnothing
  | handoverCancel params =>
      cases params with
      | none => exact iff_of_true (hnothing s) trivial
      | some cancel =>
          have hsent : ∀ s', Untouched
              (send (some (.handoverCancelAcknowledge cancel.amfUeId cancel.ranUeId))) l s' :=
            fun _ => ⟨trivial, id, trivial⟩
          change Untouched ((removeHandover cancel.amfUeId >>= _) >>= send) l s ↔ _
          rw [bind_assoc]
          exact untouched_remove_iff hsent
  | handoverNotify params =>
      cases params with
      | none => exact iff_of_true (hnothing s) trivial
      | some notify => exact untouched_remove_iff hnothing

/-! ### A stranger -/

/-- A handover of UE 7 from association 1 to association 2, not yet acknowledged. -/
def sampleHandover : PendingHandover :=
  { number := 0, sourceTx := 1, sourceRanUeId := 3, targetTx := 2, nh := [], ncc := 1
    directForwarding := true, sessions := [] }

def sampleShared : Shared :=
  { handovers := (∅ : Keyed.Map AmfUeId PendingHandover).insert 7 sampleHandover
    begun := 1 }

/-- A failure from association 5. -/
def sampleFailure : Pdu := .handoverFailure (some { amfUeId := 7, cause := none })

theorem not_entitled_sample : ¬ Entitled sampleShared 5 sampleFailure := by
  rintro ⟨p, hp, htx⟩
  have hfound : sampleShared.handovers.lookup 7 = some sampleHandover := by decide
  obtain rfl : sampleHandover = p := Option.mem_unique hfound hp
  exact absurd htx (by decide)

theorem untouched_iff_sample :
    ¬ Entitled sampleShared 5 sampleFailure ∧
      (Untouched (handleNgap (fun _ _ => []) sampleFailure) { tx := 5 } sampleShared ↔
        Harmless sampleShared sampleFailure) :=
  ⟨not_entitled_sample, untouched_iff sampleFailure { tx := 5 } sampleShared not_entitled_sample⟩

/-- A gNB that has no part in a handover ends it. -/
theorem touched_by_stranger :
    ¬ ∀ (nh : Bytes → Bytes → Bytes) (pdu : Pdu) (l : Association) (s : Shared),
      ¬ Entitled s l.tx pdu → Untouched (handleNgap nh pdu) l s := by
  intro h
  have huntouched := h (fun _ _ => []) sampleFailure { tx := 5 } sampleShared not_entitled_sample
  have hsame : Unchanged sampleShared
      { sampleShared with handovers := sampleShared.handovers.erase 7 } := huntouched.stays.2.1
  have hfound : sampleShared.handovers.lookup 7 = some sampleHandover := by decide
  have hnone : sampleShared.handovers.lookup 7 = none := hsame.of_erase
  exact absurd (hfound.symm.trans hnone) (by simp)

end Radian.Mobility
