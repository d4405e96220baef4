import Radian.Pfcp.Binding
import Radian.Runs.Basic

/-!
# A peer on its own

A UPF that hears several peers next to one that hears a single peer.

- `Joint` — the two UPFs, and which session is which.
- `Mirrors` — they hold the same sessions of that peer.
- `n4_source_binding` — no peer changes a session of another, in one step and over whole runs.
-/

namespace Radian.Pfcp

/-- A UPF that has just started. -/
def started (recoveryTime maxSessions : Nat) : UpfState :=
  (UpfState.withRecoveryTime recoveryTime).setMaxSessions maxSessions

/-! ### TEIDs -/

/-- A session with its TEIDs blanked. -/
def Session.withoutTeids (t : Session) : Session :=
  { t with n3Teid := 0, dlIngressTeid := t.dlIngressTeid.map fun _ => 0 }

theorem withoutTeids_modify (t : Session) (msg : Message) (nowNanos : Nat) :
    (t.modify msg nowNanos).withoutTeids = t.withoutTeids.modify msg nowNanos := by
  apply modify_rel (R := fun t u => t.withoutTeids = u)
  · rintro c t _ rfl
    cases c <;> rfl
  · rfl

theorem withoutTeids_onTarget (msg : Message) (nowNanos : Nat) (t : Session) :
    (msg.onTarget nowNanos t).map Session.withoutTeids =
      msg.onTarget nowNanos t.withoutTeids := by
  unfold Message.onTarget
  split
  · rw [Option.map_some, withoutTeids_modify]
  · rfl
  · rfl

/-! ### Two UPFs -/

/-- A UPF that hears everyone, one that hears `p` only, and the UP-SEIDs that `p`'s sessions have in
the first and in the second. -/
structure Joint where
  all : UpfState
  alone : UpfState
  names : Keyed.Map Seid Seid

namespace Joint

/-- The UP-SEID in the second UPF.  A session of nobody there has one that was not given out yet. -/
def name (j : Joint) (seid : Seid) : Seid := (j.names.lookup seid).getD j.alone.nextSeid

/-- What `p` sends to the second UPF for a message to the first. -/
def readdress (j : Joint) (msg : Message) : Message := { msg with seid := msg.seid.map j.name }

/-- A datagram reaches the first UPF; the second one gets it when it is from `p`.  When a session is
opened it has the next UP-SEID of each. -/
def deliver {D : Type} (codec : Codec D) (nodeIp : Ipv4Addr) (p : IpAddr) (j : Joint)
    (d : Datagram D) : Joint :=
  let all := Pfcp.deliver codec nodeIp j.all d
  if d.peer = p then
    { all
      alone := match codec.parse d.data with
        | none => j.alone
        | some msg => (handleMessage (j.readdress msg) nodeIp j.alone d.nowNanos (some p)).2
      names := if all.nextSeid = j.all.nextSeid then j.names
        else j.names.insert j.all.nextSeid j.alone.nextSeid }
  else { j with all }

end Joint

/-- The table is below its ceiling, and the UP-SEID counter has not come to its end. -/
def Below (s : UpfState) : Prop := s.sessionCount < s.maxSessions ∧ s.nextSeid ≠ maxSeid

instance : DecidablePred Below := fun s =>
  inferInstanceAs (Decidable (s.sessionCount < s.maxSessions ∧ s.nextSeid ≠ maxSeid))

/-- The sessions of `p` are the same in both, but for their ids. -/
structure SameSessions (p : IpAddr) (j : Joint) : Prop where
  injective : ∀ x x' y, j.names.lookup x = some y → j.names.lookup x' = some y → x = x'
  there : ∀ x t, j.all.sessionOf p x = some t → ∃ y u, j.names.lookup x = some y ∧
    j.alone.sessions.lookup y = some u ∧ u.withoutTeids = t.withoutTeids
  back : ∀ y u, j.alone.sessions.lookup y = some u → ∃ x t, j.names.lookup x = some y ∧
    j.all.sessionOf p x = some t ∧ u.withoutTeids = t.withoutTeids

/-- What is kept over a run. -/
structure Mirrors (p : IpAddr) (j : Joint) : Prop where
  injective : ∀ x x' y, j.names.lookup x = some y → j.names.lookup x' = some y → x = x'
  given : ∀ x y, j.names.lookup x = some y → x < j.all.nextSeid ∧ y < j.alone.nextSeid
  same : ∀ x y, j.names.lookup x = some y →
    (j.alone.sessionOf p y).map Session.withoutTeids =
      (j.all.sessionOf p x).map Session.withoutTeids
  named : ∀ x t, j.all.sessionOf p x = some t → ∃ y, j.names.lookup x = some y
  onto : ∀ y u, j.alone.sessionOf p y = some u → ∃ x, j.names.lookup x = some y
  own : ∀ y u, j.alone.sessions.lookup y = some u → u.peerIp = some p
  later : j.alone.nextSeid ≤ j.all.nextSeid
  ceiling : j.alone.maxSessions = j.all.maxSessions

namespace Mirrors

variable {p : IpAddr} {j : Joint}

theorem sameSessions (h : Mirrors p j) : SameSessions p j := by
  constructor
  · exact h.injective
  · intro x t ht
    obtain ⟨y, hy⟩ := h.named x t ht
    have hsame := h.same x y hy
    rw [ht, Option.map_some] at hsame
    obtain ⟨u, hu, heq⟩ := Option.map_eq_some_iff.mp hsame
    exact ⟨y, u, hy, (UpfState.sessionOf_eq_some_iff.mp hu).1, heq⟩
  · intro y u hu
    have hown : j.alone.sessionOf p y = some u :=
      UpfState.sessionOf_eq_some_iff.mpr ⟨hu, h.own y u hu⟩
    obtain ⟨x, hx⟩ := h.onto y u hown
    have hsame := h.same x y hx
    rw [hown, Option.map_some] at hsame
    obtain ⟨t, ht, heq⟩ := Option.map_eq_some_iff.mp hsame.symm
    exact ⟨x, t, hx, ht, heq.symm⟩

/-- The second UPF has no more sessions than the first. -/
theorem sessionCount_le (h : Mirrors p j) : j.alone.sessionCount ≤ j.all.sessionCount := by
  apply Keyed.Map.length_le_of_onto (f := fun x => (j.names.lookup x).getD 0)
  intro y hy
  obtain ⟨u, hu⟩ := Keyed.Map.mem_iff_lookup.mp hy
  obtain ⟨x, t, hx, ht, -⟩ := h.sameSessions.back y u hu
  refine ⟨x, Keyed.Map.mem_iff_lookup.mpr ⟨t, (UpfState.sessionOf_eq_some_iff.mp ht).1⟩, ?_⟩
  rw [hx, Option.getD_some]

/-- Room in the first UPF is room in the second. -/
theorem below (h : Mirrors p j) (hbelow : Below j.all) : Below j.alone := by
  have hcount := h.sessionCount_le
  constructor
  · rw [h.ceiling]
    exact Nat.lt_of_le_of_lt hcount hbelow.1
  · intro hmax
    have hle := h.later
    rw [hmax, maxSeid, BitVec.allOnes_le_iff] at hle
    exact hbelow.2 hle

/-! #### One datagram -/

/-- A step of the first UPF that leaves the sessions of `p`. -/
theorem of_untouched (h : Mirrors p j) {all : UpfState}
    (hsame : ∀ seid, all.sessionOf p seid = j.all.sessionOf p seid)
    (hlater : j.all.nextSeid ≤ all.nextSeid) (hceiling : all.maxSessions = j.all.maxSessions) :
    Mirrors p { j with all } := by
  constructor
  · exact h.injective
  · intro x y hx
    obtain ⟨hltx, hlty⟩ := h.given x y hx
    exact ⟨Nat.lt_of_lt_of_le (BitVec.lt_def.mp hltx) (BitVec.le_def.mp hlater), hlty⟩
  · intro x y hx
    rw [hsame]
    exact h.same x y hx
  · intro x t ht
    rw [hsame] at ht
    exact h.named x t ht
  · exact h.onto
  · exact h.own
  · exact BitVec.le_trans h.later hlater
  · exact h.ceiling.trans hceiling.symm

/-- The same UP-SEID in the first UPF exactly when in the second. -/
theorem name_eq_iff (h : Mirrors p j) {x y : Seid} (hx : j.names.lookup x = some y) (seid : Seid) :
    j.name seid = y ↔ seid = x := by
  constructor
  · intro hname
    rcases hnamed : j.names.lookup seid with _ | y'
    · rw [Joint.name, hnamed, Option.getD_none] at hname
      have hlt := (h.given x y hx).2
      rw [hname] at hlt
      exact absurd hlt (BitVec.lt_irrefl y)
    · rw [Joint.name, hnamed, Option.getD_some] at hname
      exact h.injective seid x y (hname ▸ hnamed) hx
  · rintro rfl
    rw [Joint.name, hx, Option.getD_some]

/-- A message of `p` about a session. -/
theorem of_request (h : Mirrors p j) {msg : Message} (nodeIp : Ipv4Addr) (nowNanos : Nat)
    (htype : msg.msgType ≠ .sessionEstablishmentRequest) :
    Mirrors p { j with
      all := (handleMessage msg nodeIp j.all nowNanos (some p)).2
      alone := (handleMessage (j.readdress msg) nodeIp j.alone nowNanos (some p)).2 } := by
  have htype' : (j.readdress msg).msgType ≠ .sessionEstablishmentRequest := htype
  have htarget : (j.readdress msg).onTarget nowNanos = msg.onTarget nowNanos := rfl
  obtain ⟨hnext, hmax⟩ := @counters_handleMessage msg j.all nowNanos (some p) nodeIp htype
  obtain ⟨hnext', hmax'⟩ :=
    @counters_handleMessage (j.readdress msg) j.alone nowNanos (some p) nodeIp htype'
  have hseid : ∀ x y, j.names.lookup x = some y →
      ((j.readdress msg).seid = some y ↔ msg.seid = some x) := by
    intro x y hx
    rcases hmsg : msg.seid with _ | seid
    · simp [Joint.readdress, hmsg]
    · simpa [Joint.readdress, hmsg] using h.name_eq_iff hx seid
  constructor
  · exact h.injective
  · intro x y hx
    rw [hnext, hnext']
    exact h.given x y hx
  · intro x y hx
    have hsame := h.same x y hx
    simp only [sessionOf_own nodeIp _ htype, sessionOf_own nodeIp _ htype', hseid x y hx, htarget]
    split
    · rcases hall : j.all.sessionOf p x with _ | t <;>
        rcases halone : j.alone.sessionOf p y with _ | u <;>
        simp only [hall, halone, Option.map_none, Option.map_some, reduceCtorEq,
          Option.some.injEq] at hsame
      · rfl
      · simp only [Option.bind_some, withoutTeids_onTarget, hsame]
    · exact hsame
  · intro x t ht
    simp only [sessionOf_own nodeIp _ htype] at ht
    split at ht
    · obtain ⟨t', ht', -⟩ := Option.bind_eq_some_iff.mp ht
      exact h.named x t' ht'
    · exact h.named x t ht
  · intro y u hu
    simp only [sessionOf_own nodeIp _ htype'] at hu
    split at hu
    · obtain ⟨u', hu', -⟩ := Option.bind_eq_some_iff.mp hu
      exact h.onto y u' hu'
    · exact h.onto y u hu
  · intro y u hu
    simp only [lookup_handleMessage nodeIp y htype'] at hu
    split at hu
    · obtain ⟨u', hu', hafter⟩ := Option.bind_eq_some_iff.mp hu
      rw [peerIp_onTarget hafter]
      exact h.own y u' hu'
    · exact h.own y u hu
  · rw [hnext, hnext']
    exact h.later
  · rw [hmax, hmax']
    exact h.ceiling

/-- The two new UP-SEIDs name each other, and no one else. -/
theorem lookup_insert_names (h : Mirrors p j) (x y : Seid) :
    (j.names.insert j.all.nextSeid j.alone.nextSeid).lookup x = some y ↔
      (x = j.all.nextSeid ∧ y = j.alone.nextSeid) ∨
        (x ≠ j.all.nextSeid ∧ y ≠ j.alone.nextSeid ∧ j.names.lookup x = some y) := by
  rw [Keyed.Map.lookup_insert_eq]
  split
  · rename_i hx
    rw [Option.some_inj, eq_comm]
    simp [hx]
  · rename_i hx
    constructor
    · intro hy
      refine Or.inr ⟨hx, ?_, hy⟩
      rintro rfl
      exact BitVec.lt_irrefl _ (h.given x _ hy).2
    · rintro (⟨hx', -⟩ | ⟨-, -, hy⟩)
      · exact absurd hx' hx
      · exact hy

/-- Both open a session of `p`. -/
theorem of_opened (h : Mirrors p j) {t u : Session} {all alone : UpfState}
    (hall : Opened j.all (some p) t all) (halone : Opened j.alone (some p) u alone)
    (hteids : u.withoutTeids = t.withoutTeids) :
    Mirrors p { all, alone, names := j.names.insert j.all.nextSeid j.alone.nextSeid } := by
  have hnames := h.lookup_insert_names
  have hown : t.peerIp = some p ∧ u.peerIp = some p := ⟨hall.bound, halone.bound⟩
  constructor
  · intro x x' y hx hx'
    rcases (hnames x y).mp hx with ⟨rfl, hy⟩ | ⟨-, hy, hold⟩ <;>
      rcases (hnames x' y).mp hx' with ⟨rfl, hy'⟩ | ⟨-, hy', hold'⟩
    · rfl
    · exact absurd hy hy'
    · exact absurd hy' hy
    · exact h.injective x x' y hold hold'
  · intro x y hx
    have hnext := toNat_next hall.left
    have hnext' := toNat_next halone.left
    simp only [hall.nextSeid, halone.nextSeid, BitVec.lt_def, hnext, hnext']
    rcases (hnames x y).mp hx with ⟨rfl, rfl⟩ | ⟨-, -, hold⟩
    · omega
    · obtain ⟨hltx, hlty⟩ := h.given x y hold
      rw [BitVec.lt_def] at hltx hlty
      omega
  · intro x y hx
    simp only [UpfState.sessionOf_insert hall.sessions, UpfState.sessionOf_insert halone.sessions]
    rcases (hnames x y).mp hx with ⟨rfl, rfl⟩ | ⟨hx', hy', hold⟩
    · simp [Option.filter_some, hown, hteids]
    · rw [if_neg hx', if_neg hy']
      exact h.same x y hold
  · intro x t' ht'
    simp only [UpfState.sessionOf_insert hall.sessions] at ht'
    split at ht'
    · rename_i hx
      exact ⟨_, (hnames x _).mpr (Or.inl ⟨hx, rfl⟩)⟩
    · rename_i hx
      obtain ⟨y, hy⟩ := h.named x t' ht'
      rw [Keyed.Map.lookup_insert_eq, if_neg hx]
      exact ⟨y, hy⟩
  · intro y u' hu'
    simp only [UpfState.sessionOf_insert halone.sessions] at hu'
    split at hu'
    · rename_i hy
      exact ⟨_, (hnames _ y).mpr (Or.inl ⟨rfl, hy⟩)⟩
    · obtain ⟨x, hx⟩ := h.onto y u' hu'
      refine ⟨x, (hnames x y).mpr (Or.inr ⟨?_, by assumption, hx⟩)⟩
      rintro rfl
      exact BitVec.lt_irrefl _ (h.given _ y hx).1
  · intro y u' hu'
    rw [halone.sessions] at hu'
    obtain ⟨-, rfl⟩ | ⟨-, hu'⟩ := Keyed.Map.of_lookup_insert hu'
    · exact hown.2
    · exact h.own y u' hu'
  · have hle := h.later
    simp only [hall.nextSeid, halone.nextSeid, BitVec.le_def, toNat_next hall.left,
      toNat_next halone.left] at hle ⊢
    omega
  · rw [hall.maxSessions, halone.maxSessions]
    exact h.ceiling

/-- An establishment request of `p` that both have room for. -/
theorem of_establishment (h : Mirrors p j) {msg : Message} (nodeIp : Ipv4Addr) (nowNanos : Nat)
    (htype : msg.msgType = .sessionEstablishmentRequest) {cpSeid : Seid}
    (hfseid : msg.fseids.head?.join = some cpSeid) (hbelow : Below j.all) :
    (handleMessage msg nodeIp j.all nowNanos (some p)).2.nextSeid ≠ j.all.nextSeid ∧
      Mirrors p
        { all := (handleMessage msg nodeIp j.all nowNanos (some p)).2
          alone := (handleMessage (j.readdress msg) nodeIp j.alone nowNanos (some p)).2
          names := j.names.insert j.all.nextSeid j.alone.nextSeid } := by
  have hbelow' := h.below hbelow
  obtain ⟨t, all, hhandle, hall, ht⟩ :=
    handleMessage_establishes nodeIp nowNanos (some p) htype hfseid hbelow.1 hbelow.2
  obtain ⟨u, alone, hhandle', halone, hu⟩ := @handleMessage_establishes (j.readdress msg) j.alone
    cpSeid nodeIp nowNanos (some p) htype hfseid hbelow'.1 hbelow'.2
  rw [hhandle, hhandle']
  constructor
  · intro hsame
    have hnext := toNat_next hall.left
    rw [← hall.nextSeid, hsame] at hnext
    omega
  · apply h.of_opened hall halone
    rw [ht, hu]
    have hwants : wantsDlIngress (j.readdress msg) = wantsDlIngress msg := rfl
    rw [hwants]
    cases wantsDlIngress msg <;> rfl

/-- One datagram, of whomever. -/
theorem deliver {D : Type} (h : Mirrors p j) (codec : Codec D) (nodeIp : Ipv4Addr)
    (d : Datagram D) (hbelow : Below j.all) : Mirrors p (j.deliver codec nodeIp p d) := by
  unfold Joint.deliver
  by_cases hpeer : d.peer = p
  · simp only [if_pos hpeer]
    rcases hparse : codec.parse d.data with _ | msg
    · have hall : Pfcp.deliver codec nodeIp j.all d = j.all := by
        simp only [Pfcp.deliver, handleN4From, hparse]
      simp only [hall, if_true]
      exact h
    · have hall : Pfcp.deliver codec nodeIp j.all d =
          (handleMessage msg nodeIp j.all d.nowNanos (some p)).2 := by
        simp only [Pfcp.deliver, handleN4From, hparse, hpeer]
      simp only [hall]
      by_cases htype : msg.msgType = .sessionEstablishmentRequest
      · rcases hfseid : msg.fseids.head?.join with _ | cpSeid
        · have hnothing : ∀ m s, m.msgType = .sessionEstablishmentRequest →
              m.fseids.head?.join = none →
              (handleMessage m nodeIp s d.nowNanos (some p)).2 = s := by
            intro m s hm hnone
            simp only [handleMessage, hm, handleEstablishment, hnone]
          rw [hnothing msg j.all htype hfseid, hnothing (j.readdress msg) j.alone htype hfseid,
            if_pos rfl]
          exact h
        · obtain ⟨hmoved, hmirrors⟩ := h.of_establishment nodeIp d.nowNanos htype hfseid hbelow
          rw [if_neg hmoved]
          exact hmirrors
      · obtain ⟨hnext, -⟩ := @counters_handleMessage msg j.all d.nowNanos (some p) nodeIp htype
        rw [if_pos hnext]
        exact h.of_request nodeIp d.nowNanos htype
  · simp only [if_neg hpeer]
    obtain ⟨hlater, hceiling⟩ := later_deliver codec nodeIp j.all d
    exact h.of_untouched
      (fun seid => sessionOf_deliver_other codec nodeIp j.all d seid (Ne.symm hpeer)) hlater
      hceiling

end Mirrors

/-! ### Runs -/

section Runs

variable {D : Type} (codec : Codec D) (nodeIp : Ipv4Addr) (p : IpAddr)

/-- Two UPFs that have just started. -/
def Joint.started (recoveryTime maxSessions : Nat) : Joint :=
  { all := Pfcp.started recoveryTime maxSessions
    alone := Pfcp.started recoveryTime maxSessions
    names := ∅ }

theorem mirrors_started (recoveryTime maxSessions : Nat) :
    Mirrors p (Joint.started recoveryTime maxSessions) := by
  have hnames : ∀ x y, (Joint.started recoveryTime maxSessions).names.lookup x ≠ some y := by
    intro x y h
    exact absurd h (by simp [Joint.started])
  have hsessions : ∀ x t, (Pfcp.started recoveryTime maxSessions).sessions.lookup x ≠ some t := by
    intro x t h
    exact absurd h (by simp [Pfcp.started, UpfState.setMaxSessions, UpfState.withRecoveryTime])
  have hown : ∀ x t, (Pfcp.started recoveryTime maxSessions).sessionOf p x ≠ some t := by
    intro x t h
    exact hsessions x t (UpfState.sessionOf_eq_some_iff.mp h).1
  constructor
  · intro x x' y hx _
    exact absurd hx (hnames x y)
  · intro x y hx
    exact absurd hx (hnames x y)
  · intro x y hx
    exact absurd hx (hnames x y)
  · intro x t ht
    exact absurd ht (hown x t)
  · intro y u hu
    exact absurd hu (hown y u)
  · intro y u hu
    exact absurd hu (hsessions y u)
  · exact BitVec.le_refl _
  · rfl

/-- The first of the two UPFs is the UPF. -/
theorem all_deliver (j : Joint) (d : Datagram D) :
    (j.deliver codec nodeIp p d).all = deliver codec nodeIp j.all d := by
  unfold Joint.deliver
  split <;> rfl

theorem all_run (j : Joint) (ds : List (Datagram D)) :
    (Runs.run (Joint.deliver codec nodeIp p) j ds).all =
      Runs.run (deliver codec nodeIp) j.all ds := by
  induction ds generalizing j with
  | nil => rfl
  | cons d ds ih => rw [Runs.run_cons, Runs.run_cons, ih, all_deliver]

/-- While the table is below its ceiling, both hold the same sessions of `p`. -/
theorem mirrors_run {j : Joint} {ds : List (Datagram D)} (h : Mirrors p j)
    (hbelow : Runs.Along (deliver codec nodeIp) (fun s _ => Below s) j.all ds) :
    Mirrors p (Runs.run (Joint.deliver codec nodeIp p) j ds) := by
  induction ds generalizing j with
  | nil => exact h
  | cons d ds ih =>
    obtain ⟨hnow, hrest⟩ := hbelow
    rw [Runs.run_cons]
    apply ih (h.deliver codec nodeIp d hnow)
    rw [all_deliver]
    exact hrest

/-- Over any run every session is bound to some peer. -/
theorem allBound_run (recoveryTime maxSessions : Nat) (ds : List (Datagram D)) :
    AllBound (Runs.run (deliver codec nodeIp) (started recoveryTime maxSessions) ds) := by
  apply Runs.invariant_of_step fun s d h => allBound_deliver codec nodeIp s d h
  intro seid t h
  exact absurd h (by simp [started, UpfState.setMaxSessions, UpfState.withRecoveryTime])

end Runs

/-- No datagram changes a session of another peer, or queues something for one; and over a run below
the ceiling the sessions of a peer are those it has on its own. -/
theorem n4_source_binding {D : Type} (codec : Codec D) (nodeIp : Ipv4Addr)
    (recoveryTime maxSessions : Nat) (ds : List (Datagram D)) :
    let s := Runs.run (deliver codec nodeIp) (started recoveryTime maxSessions) ds
    (∀ d : Datagram D,
      (∀ seid t p, s.sessions.lookup seid = some t → t.peerIp = some p → p ≠ d.peer →
        (deliver codec nodeIp s d).sessions.lookup seid = some t) ∧
      QueuesFor d.peer s (deliver codec nodeIp s d)) ∧
    ∀ p, Runs.Along (deliver codec nodeIp) (fun s _ => Below s) (started recoveryTime maxSessions)
        ds →
      let j := Runs.run (Joint.deliver codec nodeIp p) (.started recoveryTime maxSessions) ds
      j.all = s ∧ SameSessions p j := by
  intro s
  constructor
  · intro d
    constructor
    · intro seid t p hsession hbound hne
      have hown : s.sessionOf p seid = some t :=
        UpfState.sessionOf_eq_some_iff.mpr ⟨hsession, hbound⟩
      rw [← sessionOf_deliver_other codec nodeIp s d seid hne] at hown
      exact (UpfState.sessionOf_eq_some_iff.mp hown).1
    · exact queuesFor_deliver codec nodeIp s d (allBound_run codec nodeIp recoveryTime maxSessions ds)
  · intro p hbelow
    refine ⟨all_run codec nodeIp p _ ds, ?_⟩
    exact (mirrors_run codec nodeIp p (mirrors_started p recoveryTime maxSessions)
      hbelow).sameSessions

/-- Two peers establish a session each; the second one installs the downlink of its own, and the
first one tries to. -/
def twoPeers : List (Datagram Message) :=
  let establish := fun ue => sessionEstablishmentRequest 1 1 0x0A000001 ⟨some ue, none⟩ "internet"
    none [] none
  let install := sessionModificationRequest 2 2 DOWNLINK_FAR_ID 5 0x0A000002 "internet" false
  [⟨.v4 0x0A000001, establish 0x0A2D0002, 0⟩, ⟨.v4 0x0A000009, establish 0x0A2D0003, 0⟩,
    ⟨.v4 0x0A000009, install, 0⟩, ⟨.v4 0x0A000001, install, 0⟩]

/-- The second peer's session is its first one when it is alone. -/
theorem n4_source_binding_twoPeers :
    let j := Runs.run (Joint.deliver Codec.direct 0x0A000003 (.v4 0x0A000009))
      (.started 0 DEFAULT_MAX_SESSIONS) twoPeers
    j.names.lookup 2 = some 1 ∧ SameSessions (.v4 0x0A000009) j := by
  have hbinding := (n4_source_binding Codec.direct 0x0A000003 0 DEFAULT_MAX_SESSIONS twoPeers).2
    (.v4 0x0A000009) (by decide +kernel)
  exact ⟨by decide +kernel, hbinding.2⟩

end Radian.Pfcp
