import Mathlib.Logic.Function.Basic
import Mathlib.Order.Bounds.Basic
import Radian.Keyed.Ordered
import Radian.Pfcp.Establishment

/-!
# Branches of an uplink classifier

The branches of a session are a table by id, whatever the order they were installed and removed in, and
the first branch of the list that matches a packet is the matching one of least id.

- `BranchEdit` — a mid-session change, on the session and on the table.
- `Session.Tabled` — the branches are the table, in order of their ids.
- `filters_survive` — filters are read back from their text, and every history of branch edits steers
  by the least id.
-/

namespace Radian.Pfcp

/-! ### Edits -/

/-- A branch installed or taken away in mid-session. -/
inductive BranchEdit where
  | add (id : Nat) (filter : FlowFilter) (egress : Egress)
  | remove (id : Nat)
  deriving DecidableEq, Repr

/-- What is provisioned under each id. -/
abbrev BranchTable : Type := Nat → Option (FlowFilter × Egress)

/-- The table after an edit. -/
def BranchEdit.table : BranchEdit → BranchTable → BranchTable
  | .add id filter egress, m => Function.update m id (some (filter, egress))
  | .remove id, m => Function.update m id none

def BranchEdit.session : BranchEdit → Session → Session
  | .add id filter egress, t => t.addBranch id filter egress
  | .remove id, t => t.removeBranch id

/-- An edit of the branches of one session. -/
def UpfState.editBranch (s : UpfState) (e : Seid × BranchEdit) : UpfState :=
  match e.2 with
  | .add id filter egress => s.addBranch e.1 (id, filter, egress)
  | .remove id => s.removeBranch e.1 id

/-- What a history of edits leaves provisioned in a session: for each id the last edit counts. -/
def provisioned (upSeid : Seid) (edits : List (Seid × BranchEdit)) (m : BranchTable) : BranchTable :=
  edits.foldl (fun m e => if e.1 = upSeid then e.2.table m else m) m

/-- Whether a filter matches a packet.  One that is neither IPv4 nor IPv6 has no key to match. -/
def FlowFilter.Matches (f : FlowFilter) (pkt : Packet) : Prop :=
  ∃ key, packetKey pkt = some key ∧ f.matches key = true

/-! ### The list of a session is its table -/

/-- The branches of a session are the table `m`, in order of their ids. -/
structure Session.Tabled (t : Session) (m : BranchTable) : Prop where
  ordered : Keyed.Ordered Prod.fst t.branches
  mem : ∀ b, b ∈ t.branches ↔ m b.1 = some b.2

namespace Session

variable {t : Session} {m : BranchTable}

/-- A session that starts without branches. -/
theorem tabled_nil (h : t.branches = []) : t.Tabled fun _ => none :=
  ⟨by rw [h]; exact List.Pairwise.nil, by simp [h]⟩

/-- Installing a branch updates the table. -/
theorem Tabled.addBranch (h : t.Tabled m) (id : Nat) (filter : FlowFilter) (egress : Egress) :
    (t.addBranch id filter egress).Tabled (Function.update m id (some (filter, egress))) := by
  constructor
  · exact h.ordered.replace (id, filter, egress)
  · rintro ⟨k, b⟩
    rw [Session.addBranch, List.mem_insertionSort, List.mem_append, List.mem_filter, h.mem,
      List.mem_singleton]
    by_cases hk : k = id
    · subst hk
      simp [eq_comm]
    · simp [hk]

/-- Removing one clears its id. -/
theorem Tabled.removeBranch (h : t.Tabled m) (id : Nat) :
    (t.removeBranch id).Tabled (Function.update m id none) := by
  constructor
  · exact h.ordered.filter _
  · rintro ⟨k, b⟩
    rw [Session.removeBranch, List.mem_filter, h.mem]
    by_cases hk : k = id <;> simp [hk]

/-- One edit. -/
theorem Tabled.edit (h : t.Tabled m) (e : BranchEdit) : (e.session t).Tabled (e.table m) := by
  cases e with
  | add id filter egress => exact h.addBranch id filter egress
  | remove id => exact h.removeBranch id

/-- The matching branch of least id decides. -/
theorem Tabled.egressFor (h : t.Tabled m) (pkt : Packet) {id : Nat} {filter : FlowFilter}
    {egress : Egress} (hid : m id = some (filter, egress)) (hmatch : filter.Matches pkt)
    (hleast : ∀ other f g, m other = some (f, g) → f.Matches pkt → id ≤ other) :
    t.egressFor pkt = egress := by
  obtain ⟨key, hkey, hmatches⟩ := hmatch
  have hfind : t.branches.find? (fun b => b.2.1.matches key) = some (id, filter, egress) := by
    rw [h.ordered.find?_eq_some_iff]
    refine ⟨(h.mem _).mpr hid, hmatches, fun b hb hp => ?_⟩
    exact hleast b.1 b.2.1 b.2.2 ((h.mem b).mp hb) ⟨key, hkey, hp⟩
  rw [Session.egressFor, hkey, Option.bind_some, hfind]

/-- Without a matching branch the session default does. -/
theorem Tabled.egressFor_default (h : t.Tabled m) (pkt : Packet)
    (hnone : ∀ id f g, m id = some (f, g) → ¬ f.Matches pkt) : t.egressFor pkt = t.uplink := by
  unfold Session.egressFor
  cases hkey : packetKey pkt with
  | none => rfl
  | some key =>
    have hfind : t.branches.find? (fun b => b.2.1.matches key) = none := by
      rw [List.find?_eq_none]
      intro b hb hp
      exact hnone b.1 b.2.1 b.2.2 ((h.mem b).mp hb) ⟨key, hkey, hp⟩
    rw [Option.bind_some, hfind]

end Session

/-! ### Histories -/

theorem BranchEdit.n3Teid_session (e : BranchEdit) (t : Session) : (e.session t).n3Teid = t.n3Teid := by
  cases e <;> rfl

theorem BranchEdit.uplink_session (e : BranchEdit) (t : Session) : (e.session t).uplink = t.uplink := by
  cases e <;> rfl

namespace UpfState

variable {s : UpfState} {teid : Teid} {upSeid : Seid} {t : Session} {m : BranchTable}

theorem editBranch_eq (s : UpfState) (e : Seid × BranchEdit) :
    s.editBranch e = s.onSession e.1 e.2.session := by
  obtain ⟨seid, add | remove⟩ := e <;> rfl

/-- An edit leaves the owner of a TEID the owner. -/
theorem byTeid_editBranch (h : s.byTeid teid = some (upSeid, t)) (e : Seid × BranchEdit) :
    (s.editBranch e).byTeid teid = some (upSeid, if e.1 = upSeid then e.2.session t else t) := by
  rw [editBranch_eq, byTeid, onSession, Keyed.Map.find?_adjust (fun v => by rw [e.2.n3Teid_session])]
  rw [byTeid] at h
  rw [h, Option.map_some]
  simp only [eq_comm]

/-- After a history the owner has the table of the history, and its default. -/
theorem byTeid_edits (h : s.byTeid teid = some (upSeid, t)) (ht : t.Tabled m)
    (edits : List (Seid × BranchEdit)) :
    ∃ t', (edits.foldl editBranch s).byTeid teid = some (upSeid, t') ∧
      t'.Tabled (provisioned upSeid edits m) ∧ t'.uplink = t.uplink := by
  induction edits generalizing s t m with
  | nil => exact ⟨t, h, ht, rfl⟩
  | cons e edits ih =>
    have hstep := byTeid_editBranch h e
    rw [List.foldl_cons, provisioned, List.foldl_cons, ← provisioned]
    by_cases hseid : e.1 = upSeid
    · rw [if_pos hseid] at hstep ⊢
      obtain ⟨t', hfound, htable, huplink⟩ := ih hstep (ht.edit e.2)
      exact ⟨t', hfound, htable, huplink.trans (e.2.uplink_session t)⟩
    · rw [if_neg hseid] at hstep ⊢
      exact ih hstep ht

end UpfState

/-- The text of every filter is read back as that filter.  And after any edits of branches, of this and of
other sessions, an uplink packet takes the egress of the least id whose branch matches it, or the default
of its session when no branch does. -/
theorem filters_survive :
    (∀ f : FlowFilter, FlowFilter.fromFlowDescription f.toFlowDescription = some f) ∧
    ∀ (s : UpfState) (teid : Teid) (upSeid : Seid) (t : Session) (m : BranchTable)
      (edits : List (Seid × BranchEdit)) (pkt : Packet),
      s.byTeid teid = some (upSeid, t) → t.Tabled m →
        (∀ id filter egress, provisioned upSeid edits m id = some (filter, egress) → filter.Matches pkt →
          (∀ other f g, provisioned upSeid edits m other = some (f, g) → f.Matches pkt → id ≤ other) →
            (edits.foldl UpfState.editBranch s).uplinkEgressFor teid pkt = some egress) ∧
        ((∀ id f g, provisioned upSeid edits m id = some (f, g) → ¬ f.Matches pkt) →
          (edits.foldl UpfState.editBranch s).uplinkEgressFor teid pkt = some t.uplink) := by
  refine ⟨FlowFilter.fromFlowDescription_toFlowDescription, ?_⟩
  intro s teid upSeid t m edits pkt hfound ht
  obtain ⟨t', hfound', ht', huplink⟩ := UpfState.byTeid_edits hfound ht edits
  have hegress : (edits.foldl UpfState.editBranch s).uplinkEgressFor teid pkt =
      some (t'.egressFor pkt) := by
    rw [UpfState.uplinkEgressFor, hfound', Option.map_some]
  rw [hegress]
  constructor
  · intro id filter egress hid hmatch hleast
    rw [ht'.egressFor pkt hid hmatch hleast]
  · intro hnone
    rw [ht'.egressFor_default pkt hnone, huplink]

/-- Of two branches that match everything the one of lower id, installed last, decides until it is taken
away. -/
theorem filters_survive_sample :
    ∃ s : UpfState, ∃ low high : Egress, low ≠ high ∧
      ([((1 : Seid), BranchEdit.add 401 ⟨none, none, none⟩ high), (1, .add 400 ⟨none, none, none⟩ low)].foldl
        UpfState.editBranch s).uplinkEgressFor 1 (0x45 :: List.replicate 19 0) = some low ∧
      ([((1 : Seid), BranchEdit.add 401 ⟨none, none, none⟩ high), (1, .add 400 ⟨none, none, none⟩ low),
        (1, .remove 400)].foldl
        UpfState.editBranch s).uplinkEgressFor 1 (0x45 :: List.replicate 19 0) = some high := by
  let t := UpfState.newSession 1 9 none ⟨none, none⟩ none [] none 0 .toN6 [] none
  let s : UpfState :=
    { UpfState.withRecoveryTime 0 with
      nextSeid := 2
      sessions := (∅ : Keyed.Map Seid Session).insert 1 t
      fresh := by
        intro seid h
        have hne : seid ≠ 1 := by
          rintro rfl
          exact absurd h (by decide)
        rw [Keyed.Map.lookup_insert_eq, if_neg hne]
        rfl }
  have ht : t.Tabled fun _ => none := Session.tabled_nil rfl
  have hkey : (⟨none, none, none⟩ : FlowFilter).Matches (0x45 :: List.replicate 19 0) :=
    ⟨_, rfl, rfl⟩
  refine ⟨s, .toPeer 5 1, .toPeer 6 2, by decide, ?_, ?_⟩
  · refine (filters_survive.2 s 1 1 t _ _ _ rfl ht).1 400 ⟨none, none, none⟩ _ rfl hkey ?_
    intro other f g hother _
    by_contra hlt
    have hne : other ≠ 400 ∧ other ≠ 401 := by omega
    simp [provisioned, BranchEdit.table, Function.update, hne.1, hne.2] at hother
  · refine (filters_survive.2 s 1 1 t _ _ _ rfl ht).1 401 ⟨none, none, none⟩ _ rfl hkey ?_
    intro other f g hother _
    by_contra hlt
    have hne : other ≠ 401 := by omega
    simp [provisioned, BranchEdit.table, Function.update, hne] at hother

end Radian.Pfcp
