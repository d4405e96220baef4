import Radian.Pfcp.Upf

/-!
# Admission

What `admit` decides on a packet, and under which URR it counts it.

- `LetThrough` — the gate, the policer and the URR of a packet that passes.
- `letThrough_admitPacket`, `urrs_refused` — the two outcomes.
- `Admission` — a packet that comes to a session of the table.
-/

namespace Radian.Pfcp

namespace FlowEnforcer

variable {key : PacketKey} {uplink : Bool} {nowNanos bytes : Nat} {fs : List FlowEnforcer}

@[simp] theorem counted_poll (f : FlowEnforcer) (uplink : Bool) (nowNanos bytes : Nat) :
    (f.poll uplink nowNanos bytes).2.counted = f.counted := by
  unfold poll
  split <;> rfl

/-- A flow that refuses a packet counts nothing. -/
theorem counted_refused {f : FlowEnforcer} (h : (f.admitPacket uplink nowNanos bytes).1 = false) :
    (f.admitPacket uplink nowNanos bytes).2.counted = f.counted := by
  unfold admitPacket at h ⊢
  split
  · split
    · simp_all
    · exact counted_poll f uplink nowNanos bytes
  · rfl

/-- The flow that a packet meets is the first that it matches. -/
theorem admitFirst_some {r : Bool × List FlowEnforcer}
    (h : admitFirst key uplink nowNanos bytes fs = some r) :
    ∃ l₁ f l₂, fs = l₁ ++ f :: l₂ ∧ (∀ g ∈ l₁, g.filter.matches key = false) ∧
      f.filter.matches key = true ∧
      r = ((f.admitPacket uplink nowNanos bytes).1,
        l₁ ++ (f.admitPacket uplink nowNanos bytes).2 :: l₂) := by
  induction fs generalizing r with
  | nil => exact absurd h (by simp [admitFirst])
  | cons f fs ih =>
    rw [admitFirst] at h
    split at h
    · rename_i hmatch
      exact ⟨[], f, fs, rfl, by simp, hmatch, (Option.some_inj.mp h).symm⟩
    · rename_i hmatch
      obtain ⟨r', hr', rfl⟩ := Option.map_eq_some_iff.mp h
      obtain ⟨l₁, f', l₂, rfl, hbefore, hmatch', rfl⟩ := ih hr'
      refine ⟨f :: l₁, f', l₂, rfl, ?_, hmatch', rfl⟩
      intro g hg
      rcases List.mem_cons.mp hg with rfl | hg
      · exact Bool.eq_false_iff.mpr hmatch
      · exact hbefore g hg

theorem admitFirst_none (h : admitFirst key uplink nowNanos bytes fs = none) :
    ∀ f ∈ fs, f.filter.matches key = false := by
  induction fs with
  | nil => simp
  | cons f fs ih =>
    rw [admitFirst] at h
    split at h
    · exact absurd h (by simp)
    · rename_i hmatch
      intro g hg
      rcases List.mem_cons.mp hg with rfl | hg
      · exact Bool.eq_false_iff.mpr hmatch
      · exact ih (Option.map_eq_none_iff.mp h) g hg

end FlowEnforcer

/-! ### One packet -/

/-- The counters of each URR: the session's, then the flows'. -/
def Session.urrs (t : Session) : List Counters := t.counted :: t.flowQers.map fun f => f.counted

/-- How a packet gets through: it passes the gate and the policer of the first flow it matches, or,
when it matches none, the session AMBR; and the one URR it is counted under is that flow's or the
session's. -/
inductive LetThrough (uplink : Bool) (nowNanos : Nat) (pkt : Packet) (t t' : Session) : Prop where
  | flow {key l₁ f l₂} (hkey : packetKey pkt = some key) (hflows : t.flowQers = l₁ ++ f :: l₂)
      (hbefore : ∀ g ∈ l₁, g.filter.matches key = false) (hmatch : f.filter.matches key = true)
      (hgate : f.gate.opens uplink = true)
      (hpoll : (f.poll uplink nowNanos pkt.length).1 = true)
      (hafter : t' = { t with
        flowQers := l₁ ++ { (f.poll uplink nowNanos pkt.length).2 with
          counted := f.counted.count uplink pkt.length } :: l₂ })
  | session
      (hnone : ∀ key, packetKey pkt = some key → ∀ f ∈ t.flowQers, f.filter.matches key = false)
      (hpoll : (t.poll uplink nowNanos pkt.length).1 = true)
      (hafter : t' = (t.poll uplink nowNanos pkt.length).2.measure uplink pkt.length)

section Packet

variable {uplink : Bool} {nowNanos : Nat} {pkt : Packet} {t : Session}

@[simp] theorem urrs_poll (t : Session) (uplink : Bool) (nowNanos bytes : Nat) :
    (t.poll uplink nowNanos bytes).2.urrs = t.urrs := by
  unfold Session.poll
  split
  · split <;> rfl
  · split <;> rfl

@[simp] theorem reported_poll (t : Session) (uplink : Bool) (nowNanos bytes : Nat) :
    (t.poll uplink nowNanos bytes).2.reported = t.reported := by
  unfold Session.poll
  split
  · split <;> rfl
  · split <;> rfl

theorem urrs_measure (t : Session) (uplink : Bool) (bytes : Nat) :
    (t.measure uplink bytes).urrs =
      t.counted.count uplink bytes :: t.flowQers.map fun f => f.counted := by
  unfold Session.measure
  dsimp only
  split
  · split <;> rfl
  · rfl

@[simp] theorem reported_measure (t : Session) (uplink : Bool) (bytes : Nat) :
    (t.measure uplink bytes).reported = t.reported := by
  unfold Session.measure
  dsimp only
  split
  · split <;> rfl
  · rfl

/-- Where a packet of a session goes: to the first flow it matches, or to the session. -/
theorem admitPacket_cases (uplink : Bool) (nowNanos : Nat) (pkt : Packet) (t : Session) :
    (∃ key l₁ f l₂, packetKey pkt = some key ∧ t.flowQers = l₁ ++ f :: l₂ ∧
      (∀ g ∈ l₁, g.filter.matches key = false) ∧ f.filter.matches key = true ∧
      t.admitPacket uplink nowNanos pkt = ((f.admitPacket uplink nowNanos pkt.length).1,
        { t with flowQers := l₁ ++ (f.admitPacket uplink nowNanos pkt.length).2 :: l₂ })) ∨
    ((∀ key, packetKey pkt = some key → ∀ f ∈ t.flowQers, f.filter.matches key = false) ∧
      t.admitPacket uplink nowNanos pkt = if (t.poll uplink nowNanos pkt.length).1 then
        (true, (t.poll uplink nowNanos pkt.length).2.measure uplink pkt.length)
        else (false, (t.poll uplink nowNanos pkt.length).2)) := by
  unfold Session.admitPacket
  split
  · rename_i r hr
    obtain ⟨key, hkey, hfirst⟩ := Option.bind_eq_some_iff.mp hr
    obtain ⟨l₁, f, l₂, hflows, hbefore, hmatch, rfl⟩ := FlowEnforcer.admitFirst_some hfirst
    exact Or.inl ⟨key, l₁, f, l₂, hkey, hflows, hbefore, hmatch, rfl⟩
  · rename_i hnone
    refine Or.inr ⟨?_, rfl⟩
    intro key hkey
    rw [hkey, Option.bind_some] at hnone
    exact FlowEnforcer.admitFirst_none hnone

/-- A packet that passes is let through. -/
theorem letThrough_admitPacket (h : (t.admitPacket uplink nowNanos pkt).1 = true) :
    LetThrough uplink nowNanos pkt t (t.admitPacket uplink nowNanos pkt).2 := by
  rcases admitPacket_cases uplink nowNanos pkt t with
    ⟨key, l₁, f, l₂, hkey, hflows, hbefore, hmatch, heq⟩ | ⟨hnone, heq⟩
  · rw [heq] at h ⊢
    unfold FlowEnforcer.admitPacket at h ⊢
    split at h
    · rename_i hgate
      rw [if_pos hgate]
      dsimp only at h ⊢
      split at h
      · rename_i hpoll
        apply LetThrough.flow hkey hflows hbefore hmatch hgate hpoll
        rw [if_pos hpoll, FlowEnforcer.counted_poll]
      · exact absurd h Bool.false_ne_true
    · exact absurd h Bool.false_ne_true
  · rw [heq] at h ⊢
    split at h
    · rename_i hpoll
      rw [if_pos hpoll]
      exact .session hnone hpoll rfl
    · exact absurd h Bool.false_ne_true

/-- A packet that is refused is counted under no URR. -/
theorem urrs_refused (h : (t.admitPacket uplink nowNanos pkt).1 = false) :
    (t.admitPacket uplink nowNanos pkt).2.urrs = t.urrs := by
  rcases admitPacket_cases uplink nowNanos pkt t with
    ⟨key, l₁, f, l₂, -, hflows, -, -, heq⟩ | ⟨-, heq⟩
  · rw [heq] at h ⊢
    simp only [Session.urrs, hflows, List.map_append, List.map_cons,
      FlowEnforcer.counted_refused h]
  · rw [heq] at h ⊢
    split at h
    · exact absurd h.symm Bool.false_ne_true
    · rename_i hpoll
      rw [if_neg hpoll]
      exact urrs_poll t uplink nowNanos pkt.length

/-- A packet moves no watermark. -/
theorem reported_admitPacket (uplink : Bool) (nowNanos : Nat) (pkt : Packet) (t : Session) :
    (t.admitPacket uplink nowNanos pkt).2.reported = t.reported := by
  rcases admitPacket_cases uplink nowNanos pkt t with
    ⟨key, l₁, f, l₂, -, -, -, -, heq⟩ | ⟨-, heq⟩
  · rw [heq]
  · rw [heq]
    split
    · rw [reported_measure, reported_poll]
    · exact reported_poll t uplink nowNanos pkt.length

/-- A packet changes the flows' state, the session's buckets and counters and the report due, and
nothing else. -/
theorem admitPacket_touches (uplink : Bool) (nowNanos : Nat) (pkt : Packet) (t : Session) :
    ∃ flowQers ulBucket dlBucket counted reportDue, (t.admitPacket uplink nowNanos pkt).2 =
      { t with flowQers, ulBucket, dlBucket, counted, reportDue } := by
  have hpoll : ∃ ulBucket dlBucket, (t.poll uplink nowNanos pkt.length).2 =
      { t with ulBucket, dlBucket } := by
    unfold Session.poll
    split
    · split <;> exact ⟨_, _, rfl⟩
    · split <;> exact ⟨_, _, rfl⟩
  have hmeasure : ∀ t : Session, ∃ counted reportDue, t.measure uplink pkt.length =
      { t with counted, reportDue } := by
    intro t
    unfold Session.measure
    dsimp only
    split
    · split <;> exact ⟨_, _, rfl⟩
    · exact ⟨_, _, rfl⟩
  obtain ⟨ulBucket, dlBucket, hpoll⟩ := hpoll
  rcases admitPacket_cases uplink nowNanos pkt t with
    ⟨key, l₁, f, l₂, -, -, -, -, heq⟩ | ⟨-, heq⟩
  · rw [heq]
    exact ⟨_, t.ulBucket, t.dlBucket, t.counted, t.reportDue, rfl⟩
  · rw [heq]
    split
    · rw [hpoll]
      obtain ⟨counted, reportDue, hmeasure⟩ := hmeasure { t with ulBucket, dlBucket }
      rw [hmeasure]
      exact ⟨t.flowQers, ulBucket, dlBucket, counted, reportDue, rfl⟩
    · rw [hpoll]
      exact ⟨t.flowQers, ulBucket, dlBucket, t.counted, t.reportDue, rfl⟩

namespace LetThrough

variable {t' : Session}

/-- The packet is counted under exactly one URR. -/
theorem counted_once (h : LetThrough uplink nowNanos pkt t t') :
    ∃ u₁ c u₂, t.urrs = u₁ ++ c :: u₂ ∧ t'.urrs = u₁ ++ c.count uplink pkt.length :: u₂ := by
  cases h with
  | @flow key l₁ f l₂ _ hflows _ _ _ _ hafter =>
    refine ⟨t.counted :: l₁.map fun f => f.counted, f.counted, l₂.map fun f => f.counted, ?_, ?_⟩
    · simp [Session.urrs, hflows]
    · simp [hafter, Session.urrs]
  | session _ _ hafter =>
    have hurrs := urrs_poll t uplink nowNanos pkt.length
    simp only [Session.urrs, List.cons.injEq] at hurrs
    refine ⟨[], t.counted, t.flowQers.map fun f => f.counted, rfl, ?_⟩
    rw [hafter, urrs_measure, hurrs.1, hurrs.2, List.nil_append]

end LetThrough

end Packet

/-! ### In the table -/

/-- A packet that comes to a session. -/
structure Admission where
  upSeid : Seid
  session : Session
  uplink : Bool
  nowNanos : Nat
  pkt : Packet

namespace Admission

/-- A packet for a session that was found. -/
def ofFound (uplink : Bool) (nowNanos : Nat) (pkt : Packet) (e : Seid × Session) : Admission :=
  { upSeid := e.1, session := e.2, uplink, nowNanos, pkt }

/-- The outcome, and the session afterwards. -/
def outcome (a : Admission) : Bool × Session := a.session.admitPacket a.uplink a.nowNanos a.pkt

end Admission

namespace UpfState

/-- The table after the packet. -/
def admitAt (s : UpfState) (a : Admission) : UpfState :=
  s.onSession a.upSeid fun t => (t.admitPacket a.uplink a.nowNanos a.pkt).2

theorem admitFound_eq (s : UpfState) (found : Option (Seid × Session)) (uplink : Bool)
    (nowNanos : Nat) (pkt : Packet) :
    (s.admitFound found uplink nowNanos pkt).2 =
      ((found.map (Admission.ofFound uplink nowNanos pkt)).map s.admitAt).getD s := by
  rcases found with _ | e <;> rfl

theorem lookup_admitAt {s : UpfState} {a : Admission}
    (h : s.sessions.lookup a.upSeid = some a.session) (seid : Seid) :
    (s.admitAt a).sessions.lookup seid =
      if seid = a.upSeid then some a.outcome.2 else s.sessions.lookup seid := by
  rw [admitAt, lookup_onSession, h]
  rfl

end UpfState

end Radian.Pfcp
