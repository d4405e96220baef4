import Radian.Pfcp.Handle

/-!
# Changes of a session

A modification as a list of primitive changes of the session it addresses.

- `modify_eq_foldl` — a modification is its changes, one after the other.
- `modify_rel`, `modify_kept` — what every change preserves a modification preserves.
-/

namespace Radian.Pfcp

/-- One change of a session. -/
inductive Change where
  | setDownlink (gnb : Teid × Ipv4Addr)
  | clearDownlink
  | setAmbr (ambr : SessionAmbr)
  | addFlow (f : FlowQer)
  | updateFlowRate (qfi : UInt8) (mfbrDlBps mfbrUlBps : Nat)
  | setFlowGate (qfi : UInt8) (gate : Gate)
  | removeFlow (qfi : UInt8)
  | addBranch (b : Branch)
  | removeBranch (id : Nat)
  deriving DecidableEq, Repr

namespace Change

def apply (nowNanos : Nat) (t : Session) : Change → Session
  | .setDownlink gnb => t.setDownlink gnb
  | .clearDownlink => t.clearDownlink
  | .setAmbr ambr => t.setAmbr ambr nowNanos
  | .addFlow f => t.addFlow f nowNanos
  | .updateFlowRate qfi mfbrDlBps mfbrUlBps => t.updateFlowRate qfi mfbrDlBps mfbrUlBps nowNanos
  | .setFlowGate qfi gate => t.setFlowGate qfi gate
  | .removeFlow qfi => t.removeFlow qfi
  | .addBranch b => t.addBranch b.1 b.2.1 b.2.2
  | .removeBranch id => t.removeBranch id

/-- One after the other. -/
def applyAll (nowNanos : Nat) (t : Session) (changes : List Change) : Session :=
  changes.foldl (apply nowNanos) t

end Change

/-! ### The changes of a message -/

def downlinkChanges (msg : Message) : List Change :=
  match downlinkUpdateOf msg with
  | some (some gnb, _) => [.setDownlink gnb]
  | some (none, true) => [.clearDownlink]
  | _ => []

def qerChanges (uq : UpdateQer) : List Change :=
  if uq.qerId = AMBR_QER_ID then
    (uq.mbr.map fun m => .setAmbr { uplinkBps := m.uplink, downlinkBps := m.downlink }).toList
  else
    (uq.mbr.map fun m => .updateFlowRate (qfiOfQerId uq.qerId) m.downlink m.uplink).toList ++
      (uq.gateStatus.map fun gate => .setFlowGate (qfiOfQerId uq.qerId) gate).toList

/-- The changes of the rules. -/
def ruleChanges (msg : Message) : List Change :=
  (msg.removeQers.filter fun id => id != AMBR_QER_ID).map (fun id => .removeFlow (qfiOfQerId id)) ++
    (parseCreatedFlows msg).map .addFlow ++ msg.updateQers.flatMap qerChanges ++
    (msg.removePdrs.filter fun id => ULCL_PDR_BASE ≤ id).map .removeBranch ++
    (parseBranches msg).map .addBranch

def changesOf (msg : Message) : List Change := downlinkChanges msg ++ ruleChanges msg

theorem applyDownlinkUpdate_eq_foldl (msg : Message) (nowNanos : Nat) (t : Session) :
    t.applyDownlinkUpdate msg = Change.applyAll nowNanos t (downlinkChanges msg) := by
  unfold Session.applyDownlinkUpdate downlinkChanges
  rcases downlinkUpdateOf msg with _ | ⟨_ | gnb, _ | _⟩ <;> rfl

theorem applyUpdateQer_eq_foldl (nowNanos : Nat) (t : Session) (uq : UpdateQer) :
    t.applyUpdateQer nowNanos uq = Change.applyAll nowNanos t (qerChanges uq) := by
  obtain ⟨qerId, mbr, gateStatus⟩ := uq
  unfold Session.applyUpdateQer qerChanges
  split
  · cases mbr <;> rfl
  · cases mbr <;> cases gateStatus <;> rfl

theorem applyRules_eq_foldl (msg : Message) (nowNanos : Nat) (t : Session) :
    t.applyRules msg nowNanos = Change.applyAll nowNanos t (ruleChanges msg) := by
  have hqer : Session.applyUpdateQer nowNanos = fun t uq =>
      (qerChanges uq).foldl (Change.apply nowNanos) t := by
    funext t uq
    exact applyUpdateQer_eq_foldl nowNanos t uq
  simp only [Session.applyRules, Change.applyAll, ruleChanges, List.foldl_append, List.foldl_map,
    List.foldl_flatMap, hqer]
  rfl

theorem modify_eq_foldl (msg : Message) (nowNanos : Nat) (t : Session) :
    t.modify msg nowNanos = Change.applyAll nowNanos t (changesOf msg) := by
  rw [Session.modify, applyDownlinkUpdate_eq_foldl msg nowNanos, applyRules_eq_foldl, changesOf,
    Change.applyAll, Change.applyAll, Change.applyAll, List.foldl_append]

/-! ### What changes preserve -/

/-- A relation kept by every change on both sides. -/
theorem modify_rel {R : Session → Session → Prop} {nowNanos : Nat}
    (hR : ∀ c t u, R t u → R (Change.apply nowNanos t c) (Change.apply nowNanos u c)) {t u : Session}
    (h : R t u) (msg : Message) : R (t.modify msg nowNanos) (u.modify msg nowNanos) := by
  rw [modify_eq_foldl, modify_eq_foldl]
  generalize changesOf msg = changes
  induction changes generalizing t u with
  | nil => exact h
  | cons c changes ih => exact ih (hR c t u h)

/-- What no change alters. -/
theorem modify_kept {A : Type} {g : Session → A} {nowNanos : Nat}
    (hg : ∀ c t, g (Change.apply nowNanos t c) = g t) (t : Session) (msg : Message) :
    g (t.modify msg nowNanos) = g t := by
  have hrel : ∀ c (_ u : Session), g u = g t → g (Change.apply nowNanos u c) = g t := by
    intro c _ u hu
    rw [hg, hu]
  exact modify_rel (t := t) (R := fun _ u => g u = g t) hrel rfl msg

/-- A session stays bound to its peer. -/
theorem peerIp_modify (t : Session) (msg : Message) (nowNanos : Nat) :
    (t.modify msg nowNanos).peerIp = t.peerIp := by
  apply modify_kept
  intro c t
  cases c <;> rfl

/-- A session keeps its uplink TEID. -/
theorem n3Teid_modify (t : Session) (msg : Message) (nowNanos : Nat) :
    (t.modify msg nowNanos).n3Teid = t.n3Teid := by
  apply modify_kept
  intro c t
  cases c <;> rfl

end Radian.Pfcp
