import Radian.Pfcp.Change
import Radian.Pfcp.Establishment

/-!
# N4 source binding

A session answers to the peer that established it, and to that peer only.

- `lookup_handleMessage` — the table after a message.
- `sessionOf_own`, `sessionOf_other` — the sessions of a peer after a message of its own or of
  another peer.
- `queuesFor_deliver` — what a datagram queues for N3 belongs to a session of its sender.
-/

namespace Radian.Pfcp

/-- A datagram on N4. -/
structure Datagram (D : Type) where
  peer : IpAddr
  data : D
  nowNanos : Nat

/-- The UPF after a datagram. -/
def deliver {D : Type} (codec : Codec D) (nodeIp : Ipv4Addr) (s : UpfState) (d : Datagram D) :
    UpfState :=
  (handleN4From codec d.data nodeIp s d.nowNanos (some d.peer)).2

/-! ### What a message does to the table -/

/-- What a request makes of the session it addresses. -/
def Message.onTarget (msg : Message) (nowNanos : Nat) (t : Session) : Option Session :=
  match msg.msgType with
  | .sessionModificationRequest => some (t.modify msg nowNanos)
  | .sessionDeletionRequest => none
  | _ => some t

section Table

variable {msg : Message} {s : UpfState} {nowNanos : Nat} {peer : Option IpAddr}

/-- The addressed session changes unless it is refused, and no other does. -/
theorem lookup_addressed {s' : UpfState} {upSeid : Seid} {f : Session → Option Session}
    (hseid : msg.seid = some upSeid) (hrefused : refuses s peer upSeid = true → s' = s)
    (haccepted : refuses s peer upSeid = false → ∀ seid, s'.sessions.lookup seid =
      if seid = upSeid then (s.sessions.lookup upSeid).bind f else s.sessions.lookup seid)
    (seid : Seid) :
    s'.sessions.lookup seid = if msg.seid = some seid ∧ refuses s peer seid = false then
      (s.sessions.lookup seid).bind f else s.sessions.lookup seid := by
  cases hpeer : refuses s peer upSeid with
  | true =>
    rw [hrefused hpeer, if_neg]
    rintro ⟨hsame, haccepts⟩
    rw [Option.mem_unique hseid hsame, haccepts] at hpeer
    exact absurd hpeer Bool.false_ne_true
  | false =>
    rw [haccepted hpeer seid]
    by_cases hsame : seid = upSeid
    · rw [if_pos hsame, if_pos ⟨hsame ▸ hseid, hsame ▸ hpeer⟩, hsame]
    · rw [if_neg hsame, if_neg]
      rintro ⟨heq, -⟩
      exact hsame (Option.mem_unique hseid heq).symm

theorem lookup_handleModification (seid : Seid) (htype : msg.msgType = .sessionModificationRequest) :
    (handleModification msg s nowNanos peer).2.sessions.lookup seid =
      if msg.seid = some seid ∧ refuses s peer seid = false then
        (s.sessions.lookup seid).bind (msg.onTarget nowNanos)
      else s.sessions.lookup seid := by
  have htarget : msg.onTarget nowNanos = fun t => some (t.modify msg nowNanos) := by
    funext t
    simp only [Message.onTarget, htype]
  rcases hseid : msg.seid with _ | upSeid
  · simp [handleModification, hseid]
  · rw [← hseid]
    apply lookup_addressed hseid
    · intro hpeer
      simp only [handleModification, hseid, hpeer, if_true]
    · intro hpeer seid
      rcases hsession : s.sessions.lookup upSeid with _ | t
      · simp only [handleModification, hseid, hpeer, modification_unknown hsession,
          Bool.false_eq_true, if_false]
        split
        · rename_i hsame
          rw [hsame, hsession, Option.bind_none]
        · rfl
      · simp only [handleModification, hseid, hpeer, modification_known hsession,
          Bool.false_eq_true, if_false, UpfState.lookup_modify, htarget, hsession,
          Option.map_some, Option.bind_some]

theorem lookup_handleDeletion (seid : Seid) (htype : msg.msgType = .sessionDeletionRequest) :
    (handleDeletion msg s peer).2.sessions.lookup seid =
      if msg.seid = some seid ∧ refuses s peer seid = false then
        (s.sessions.lookup seid).bind (msg.onTarget nowNanos)
      else s.sessions.lookup seid := by
  have htarget : msg.onTarget nowNanos = fun _ => none := by
    funext t
    simp only [Message.onTarget, htype]
  rcases hseid : msg.seid with _ | upSeid
  · simp [handleDeletion, hseid]
  · rw [← hseid]
    apply lookup_addressed hseid
    · intro hpeer
      simp only [handleDeletion, hseid, hpeer, if_true]
    · intro hpeer seid
      have hremoved : (handleDeletion msg s peer).2 = (s.remove upSeid).2 := by
        simp only [handleDeletion, hseid, hpeer, Bool.false_eq_true, if_false]
        split <;> rename_i h <;> rw [h]
      rw [hremoved, htarget, Option.bind_fun_none]
      exact Keyed.Map.lookup_erase_eq _ _ _

/-- Without an establishment, a message changes the session it addresses, unless it is refused. -/
theorem lookup_handleMessage (nodeIp : Ipv4Addr) (seid : Seid)
    (htype : msg.msgType ≠ .sessionEstablishmentRequest) :
    (handleMessage msg nodeIp s nowNanos peer).2.sessions.lookup seid =
      if msg.seid = some seid ∧ refuses s peer seid = false then
        (s.sessions.lookup seid).bind (msg.onTarget nowNanos)
      else s.sessions.lookup seid := by
  cases h : msg.msgType with
  | sessionEstablishmentRequest => exact absurd h htype
  | sessionModificationRequest =>
    simp only [handleMessage, h]
    exact lookup_handleModification seid h
  | sessionDeletionRequest =>
    simp only [handleMessage, h]
    exact lookup_handleDeletion seid h
  | _ =>
    have htarget : msg.onTarget nowNanos = some := by
      funext t
      simp only [Message.onTarget, h]
    simp [handleMessage, h, htarget]

/-- Without an establishment the allocator and the ceiling stay. -/
theorem counters_handleMessage (nodeIp : Ipv4Addr)
    (htype : msg.msgType ≠ .sessionEstablishmentRequest) :
    (handleMessage msg nodeIp s nowNanos peer).2.nextSeid = s.nextSeid ∧
      (handleMessage msg nodeIp s nowNanos peer).2.maxSessions = s.maxSessions := by
  have heffect := effect_handleMessage msg nodeIp s nowNanos peer
  generalize (handleMessage msg nodeIp s nowNanos peer).2 = s' at heffect ⊢
  cases heffect with
  | nothing => exact ⟨rfl, rfl⟩
  | established h => exact absurd h htype
  | modified => exact ⟨rfl, rfl⟩
  | removed => exact ⟨rfl, rfl⟩

/-- No message takes a UP-SEID back or moves the ceiling. -/
theorem later_handleMessage (msg : Message) (nodeIp : Ipv4Addr) (s : UpfState) (nowNanos : Nat)
    (peer : Option IpAddr) :
    s.nextSeid ≤ (handleMessage msg nodeIp s nowNanos peer).2.nextSeid ∧
      (handleMessage msg nodeIp s nowNanos peer).2.maxSessions = s.maxSessions := by
  have heffect := effect_handleMessage msg nodeIp s nowNanos peer
  generalize (handleMessage msg nodeIp s nowNanos peer).2 = s' at heffect ⊢
  cases heffect with
  | nothing => exact ⟨BitVec.le_refl _, rfl⟩
  | established _ h =>
    obtain ⟨t, hopened⟩ := h.opened
    refine ⟨?_, hopened.maxSessions⟩
    rw [hopened.nextSeid, BitVec.le_def, toNat_next hopened.left]
    omega
  | modified => exact ⟨BitVec.le_refl _, rfl⟩
  | removed => exact ⟨BitVec.le_refl _, rfl⟩

/-- A request keeps the binding of a session. -/
theorem peerIp_onTarget {t t' : Session} (h : msg.onTarget nowNanos t = some t') :
    t'.peerIp = t.peerIp := by
  unfold Message.onTarget at h
  split at h
  · rw [← Option.some_inj.mp h, peerIp_modify]
  · exact absurd h (by simp)
  · rw [Option.some_inj.mp h]

end Table

/-! ### The sessions of a peer -/

namespace UpfState

/-- A session bound to `p`. -/
def sessionOf (p : IpAddr) (s : UpfState) (seid : Seid) : Option Session :=
  (s.sessions.lookup seid).filter fun t => t.peerIp == some p

theorem sessionOf_eq_some_iff {p : IpAddr} {s : UpfState} {seid : Seid} {t : Session} :
    s.sessionOf p seid = some t ↔ s.sessions.lookup seid = some t ∧ t.peerIp = some p := by
  rw [sessionOf, Option.filter_eq_some_iff, beq_iff_eq]

/-- A new session in the view of a peer. -/
theorem sessionOf_insert {p : IpAddr} {s s' : UpfState} {t : Session}
    (h : s'.sessions = s.sessions.insert s.nextSeid t) (seid : Seid) :
    s'.sessionOf p seid = if seid = s.nextSeid then (some t).filter fun t => t.peerIp == some p
      else s.sessionOf p seid := by
  rw [sessionOf, h, Keyed.Map.lookup_insert_eq]
  split <;> rfl

/-- A UP-SEID not given out yet is nobody's. -/
theorem sessionOf_fresh (p : IpAddr) {s : UpfState} {seid : Seid} (h : s.nextSeid ≤ seid) :
    s.sessionOf p seid = none := by
  rw [sessionOf, s.fresh seid h, Option.filter_none]

end UpfState

section Views

variable {msg : Message} {s : UpfState} {nowNanos : Nat} {p q : IpAddr}

/-- A session of `p` is refused to everyone else. -/
theorem refuses_sessionOf {seid : Seid} {t : Session} (h : s.sessionOf p seid = some t)
    (q : IpAddr) : refuses s (some q) seid = (q != p) := by
  obtain ⟨hsession, hbound⟩ := UpfState.sessionOf_eq_some_iff.mp h
  simp only [refuses, UpfState.sessionPeer, hsession, Option.bind_some, hbound]

/-- A request in the view of a peer. -/
theorem filter_onTarget (o : Option Session) :
    ((o.bind (msg.onTarget nowNanos)).filter fun t => t.peerIp == some p) =
      (o.filter fun t => t.peerIp == some p).bind (msg.onTarget nowNanos) := by
  rcases o with _ | t
  · rfl
  · rcases hafter : msg.onTarget nowNanos t with _ | t'
    · by_cases hbound : t.peerIp = some p <;> simp [Option.filter_some, hbound, hafter]
    · have hkept := peerIp_onTarget hafter
      by_cases hbound : t.peerIp = some p <;> simp [Option.filter_some, hbound, hafter, hkept]

/-- A request of `p` about a session changes it if it is one of `p`, and nothing else. -/
theorem sessionOf_own (nodeIp : Ipv4Addr) (seid : Seid)
    (htype : msg.msgType ≠ .sessionEstablishmentRequest) :
    (handleMessage msg nodeIp s nowNanos (some p)).2.sessionOf p seid =
      if msg.seid = some seid then (s.sessionOf p seid).bind (msg.onTarget nowNanos)
      else s.sessionOf p seid := by
  rw [UpfState.sessionOf, lookup_handleMessage nodeIp seid htype]
  by_cases hseid : msg.seid = some seid
  · rw [if_pos hseid]
    cases hpeer : refuses s (some p) seid with
    | true =>
      have hnone : s.sessionOf p seid = none := by
        rcases hown : s.sessionOf p seid with _ | t
        · rfl
        · rw [refuses_sessionOf hown p] at hpeer
          simp at hpeer
      rw [if_neg (by simp), hnone, Option.bind_none]
      exact hnone
    | false =>
      rw [if_pos ⟨hseid, rfl⟩, filter_onTarget]
      rfl
  · rw [if_neg hseid, if_neg (fun h => hseid h.1)]
    rfl

/-- A message of another peer changes no session of `p`. -/
theorem sessionOf_other (msg : Message) (nodeIp : Ipv4Addr) (s : UpfState) (nowNanos : Nat)
    (seid : Seid) (hne : p ≠ q) :
    (handleMessage msg nodeIp s nowNanos (some q)).2.sessionOf p seid = s.sessionOf p seid := by
  by_cases htype : msg.msgType = .sessionEstablishmentRequest
  · have heffect := effect_handleMessage msg nodeIp s nowNanos (some q)
    generalize (handleMessage msg nodeIp s nowNanos (some q)).2 = s' at heffect ⊢
    cases heffect with
    | nothing => rfl
    | established _ h =>
      obtain ⟨t, hopened⟩ := h.opened
      rw [UpfState.sessionOf_insert hopened.sessions]
      split
      · rename_i hnew
        rw [hnew, UpfState.sessionOf_fresh p (BitVec.le_refl _)]
        simp [Option.filter_some, hopened.bound, hne.symm]
      · rfl
    | modified h => exact absurd (h.symm.trans htype) (by decide)
    | removed h => exact absurd (h.symm.trans htype) (by decide)
  · rw [UpfState.sessionOf, lookup_handleMessage nodeIp seid htype]
    split
    · rename_i haddressed
      have hnone : s.sessionOf p seid = none := by
        rcases hown : s.sessionOf p seid with _ | t
        · rfl
        · rw [refuses_sessionOf hown q] at haddressed
          simp [hne.symm] at haddressed
      rw [filter_onTarget]
      rw [UpfState.sessionOf] at hnone
      rw [hnone, UpfState.sessionOf, hnone, Option.bind_none]
    · rfl

end Views

/-! ### What is queued -/

/-- All that is queued is what one session bound to `q` sends, or nothing. -/
def QueuesFor (q : IpAddr) (s s' : UpfState) : Prop :=
  ∃ out : Sends,
    (out = .none ∨ ∃ msg seid t, s.sessionOf q seid = some t ∧ out = Session.sends msg t) ∧
    s'.pendingFlush = s.pendingFlush ++ out.flush ∧
    s'.pendingEndMarkers = s.pendingEndMarkers ++ out.endMarkers ∧
    s'.pendingRa = s.pendingRa ++ out.ras

/-- Every session is bound to some peer. -/
def AllBound (s : UpfState) : Prop :=
  ∀ seid t, s.sessions.lookup seid = some t → t.peerIp.isSome

theorem queuesFor_nothing {q : IpAddr} {s s' : UpfState} (hflush : s'.pendingFlush = s.pendingFlush)
    (hmarkers : s'.pendingEndMarkers = s.pendingEndMarkers) (hras : s'.pendingRa = s.pendingRa) :
    QueuesFor q s s' := by
  refine ⟨.none, Or.inl rfl, ?_, ?_, ?_⟩
  · rw [hflush, Sends.none, List.append_nil]
  · rw [hmarkers, Sends.none, List.append_nil]
  · rw [hras, Sends.none, List.append_nil]

theorem queuesFor_handleMessage (msg : Message) (nodeIp : Ipv4Addr) {s : UpfState} (nowNanos : Nat)
    (q : IpAddr) (hbound : AllBound s) :
    QueuesFor q s (handleMessage msg nodeIp s nowNanos (some q)).2 := by
  have heffect := effect_handleMessage msg nodeIp s nowNanos (some q)
  generalize (handleMessage msg nodeIp s nowNanos (some q)).2 = s' at heffect ⊢
  cases heffect with
  | nothing => exact queuesFor_nothing rfl rfl rfl
  | established _ h =>
    obtain ⟨t, hopened⟩ := h.opened
    exact queuesFor_nothing hopened.pendingFlush hopened.pendingEndMarkers hopened.pendingRa
  | @modified upSeid t _ hseid hpeer hsession =>
    obtain ⟨p, hp⟩ := Option.isSome_iff_exists.mp (hbound upSeid t hsession)
    have hown : s.sessionOf p upSeid = some t :=
      UpfState.sessionOf_eq_some_iff.mpr ⟨hsession, hp⟩
    have hsame : q = p := by
      rw [refuses_sessionOf hown q] at hpeer
      simpa using hpeer
    exact ⟨t.sends msg, Or.inr ⟨msg, upSeid, t, hsame ▸ hown, rfl⟩, rfl, rfl, rfl⟩
  | removed => exact queuesFor_nothing rfl rfl rfl

theorem allBound_handleMessage (msg : Message) (nodeIp : Ipv4Addr) {s : UpfState} (nowNanos : Nat)
    (q : IpAddr) (hbound : AllBound s) :
    AllBound (handleMessage msg nodeIp s nowNanos (some q)).2 := by
  intro seid t hsession
  by_cases htype : msg.msgType = .sessionEstablishmentRequest
  · have heffect := effect_handleMessage msg nodeIp s nowNanos (some q)
    generalize (handleMessage msg nodeIp s nowNanos (some q)).2 = s' at heffect hsession
    cases heffect with
    | nothing => exact hbound seid t hsession
    | established _ h =>
      obtain ⟨t', hopened⟩ := h.opened
      rw [hopened.sessions] at hsession
      obtain ⟨-, rfl⟩ | ⟨-, hsession⟩ := Keyed.Map.of_lookup_insert hsession
      · rw [hopened.bound]
        rfl
      · exact hbound seid t hsession
    | modified h => exact absurd (h.symm.trans htype) (by decide)
    | removed h => exact absurd (h.symm.trans htype) (by decide)
  · rw [lookup_handleMessage nodeIp seid htype] at hsession
    split at hsession
    · obtain ⟨t', hbefore, hafter⟩ := Option.bind_eq_some_iff.mp hsession
      rw [peerIp_onTarget hafter]
      exact hbound seid t' hbefore
    · exact hbound seid t hsession

/-! ### A datagram -/

section Deliver

variable {D : Type} (codec : Codec D) (nodeIp : Ipv4Addr) (s : UpfState) (d : Datagram D)

/-- What a message cannot break a datagram cannot. -/
theorem deliver_cases {P : UpfState → Prop} (hs : P s)
    (hmsg : ∀ msg, P (handleMessage msg nodeIp s d.nowNanos (some d.peer)).2) :
    P (deliver codec nodeIp s d) := by
  unfold deliver handleN4From
  split
  · exact hs
  · exact hmsg _

theorem sessionOf_deliver_other (seid : Seid) {p : IpAddr} (hne : p ≠ d.peer) :
    (deliver codec nodeIp s d).sessionOf p seid = s.sessionOf p seid :=
  deliver_cases codec nodeIp s d (P := fun s' => s'.sessionOf p seid = s.sessionOf p seid) rfl
    fun msg => sessionOf_other msg nodeIp s d.nowNanos seid hne

theorem later_deliver : s.nextSeid ≤ (deliver codec nodeIp s d).nextSeid ∧
    (deliver codec nodeIp s d).maxSessions = s.maxSessions :=
  deliver_cases codec nodeIp s d
    (P := fun s' => s.nextSeid ≤ s'.nextSeid ∧ s'.maxSessions = s.maxSessions)
    ⟨BitVec.le_refl _, rfl⟩ fun msg => later_handleMessage msg nodeIp s d.nowNanos (some d.peer)

theorem queuesFor_deliver (hbound : AllBound s) :
    QueuesFor d.peer s (deliver codec nodeIp s d) :=
  deliver_cases codec nodeIp s d (queuesFor_nothing rfl rfl rfl)
    fun msg => queuesFor_handleMessage msg nodeIp d.nowNanos d.peer hbound

theorem allBound_deliver (hbound : AllBound s) : AllBound (deliver codec nodeIp s d) :=
  deliver_cases codec nodeIp s d hbound
    fun msg => allBound_handleMessage msg nodeIp d.nowNanos d.peer hbound

end Deliver

end Radian.Pfcp
