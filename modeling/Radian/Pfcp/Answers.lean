import Radian.Pfcp.Handle

/-!
# Answers to N4 requests

Whether the cause of an answer tells the SMF what happened to the session it addressed.

- `handleModification_answer`, `handleDeletion_answer` — every request about a session is answered.
- `deletion_truthful` — a deletion is accepted when there was a session to delete, and only then.
- `modification_truthful_iff` — a modification is answered truthfully when the session exists.
-/

namespace Radian.Pfcp

/-- The cause of an answer and the state afterwards, against the state before: accepted only for a
session of this peer, and a session that does not exist is rejected with nothing changed. -/
structure AnswersTruthfully (s : UpfState) (peer : Option IpAddr) (upSeid : Seid)
    (answered : Option Message × UpfState) : Prop where
  accepts : ∀ m, answered.1 = some m → m.cause = some .requestAccepted →
    ∃ t, s.sessions.lookup upSeid = some t ∧
      ∀ req bound, peer = some req → t.peerIp = some bound → req = bound
  missing : s.sessions.lookup upSeid = none →
    (∃ m, answered.1 = some m ∧ m.cause ≠ some .requestAccepted) ∧ answered.2 = s

/-- A session is refused to every peer but the one it is bound to. -/
theorem refuses_eq_false {s : UpfState} {peer : Option IpAddr} {upSeid : Seid} {t : Session}
    (hsession : s.sessions.lookup upSeid = some t) (h : refuses s peer upSeid = false)
    {req bound : IpAddr} (hreq : peer = some req) (hbound : t.peerIp = some bound) : req = bound := by
  have hpeer : s.sessionPeer upSeid = some bound := by
    rw [UpfState.sessionPeer, hsession, Option.bind_some, hbound]
  simp only [refuses, hreq, hpeer] at h
  simpa using h

/-- A session that does not exist is refused to nobody. -/
theorem refuses_missing {s : UpfState} {upSeid : Seid} (peer : Option IpAddr)
    (h : s.sessions.lookup upSeid = none) : refuses s peer upSeid = false := by
  have hpeer : s.sessionPeer upSeid = none := by rw [UpfState.sessionPeer, h, Option.bind_none]
  unfold refuses
  rw [hpeer]
  cases peer <;> rfl

section Requests

variable {msg : Message} {upSeid : Seid} {s : UpfState} {peer : Option IpAddr}

/-- A modification is rejected for the wrong peer, and accepted otherwise. -/
theorem handleModification_answer (nowNanos : Nat) (hseid : msg.seid = some upSeid) :
    ∃ reports, (handleModification msg s nowNanos peer).1 =
      some (sessionModificationResponse upSeid msg.sequence
        (if refuses s peer upSeid then .requestRejected else .requestAccepted) reports) := by
  simp only [handleModification, hseid]
  cases hpeer : refuses s peer upSeid
  · exact ⟨_, rfl⟩
  · exact ⟨[], rfl⟩

/-- A deletion is rejected for the wrong peer, accepted for a session that exists, and otherwise
answered with `sessionContextNotFound`. -/
theorem handleDeletion_answer (hseid : msg.seid = some upSeid) :
    ∃ reports, (handleDeletion msg s peer).1 =
      some (sessionDeletionResponse upSeid msg.sequence
        (if refuses s peer upSeid then .requestRejected
          else if (s.sessions.lookup upSeid).isSome then .requestAccepted
          else .sessionContextNotFound) reports) := by
  simp only [handleDeletion, hseid]
  cases hpeer : refuses s peer upSeid
  · rcases hsession : s.sessions.lookup upSeid with _ | t
    · rw [UpfState.remove_none hsession]
      exact ⟨[], by simp⟩
    · rw [UpfState.remove_some hsession]
      exact ⟨finalReports t.finalUsages, by simp⟩
  · exact ⟨[], by simp⟩

/-- Deletions are answered truthfully. -/
theorem deletion_truthful (hseid : msg.seid = some upSeid) :
    AnswersTruthfully s peer upSeid (handleDeletion msg s peer) := by
  obtain ⟨reports, hanswer⟩ := @handleDeletion_answer msg upSeid s peer hseid
  constructor
  · intro m hm hcause
    rw [hanswer, Option.some_inj] at hm
    subst hm
    cases hpeer : refuses s peer upSeid with
    | true => simp [sessionDeletionResponse, hpeer] at hcause
    | false =>
      rcases hsession : s.sessions.lookup upSeid with _ | t
      · simp [sessionDeletionResponse, hpeer, hsession] at hcause
      · exact ⟨t, rfl, fun _ _ => refuses_eq_false hsession hpeer⟩
  · intro hmissing
    refine ⟨⟨_, hanswer, ?_⟩, ?_⟩
    · simp [sessionDeletionResponse, refuses_missing peer hmissing, hmissing]
    · simp [handleDeletion, hseid, refuses_missing peer hmissing, UpfState.remove_none hmissing]

end Requests

/-- A modification is answered truthfully exactly when the session it addresses exists. -/
theorem modification_truthful_iff (s : UpfState) (msg : Message) (nodeIp : Ipv4Addr)
    (nowNanos : Nat) (peer : Option IpAddr) (upSeid : Seid)
    (hrequest : msg.msgType = .sessionModificationRequest) (hseid : msg.seid = some upSeid) :
    AnswersTruthfully s peer upSeid (handleMessage msg nodeIp s nowNanos peer) ↔
      (s.sessions.lookup upSeid).isSome := by
  have hhandle : handleMessage msg nodeIp s nowNanos peer =
      handleModification msg s nowNanos peer := by
    simp only [handleMessage, hrequest]
  obtain ⟨reports, hanswer⟩ := @handleModification_answer msg upSeid s peer nowNanos hseid
  rw [hhandle, Option.isSome_iff_exists]
  constructor
  · intro htruthful
    rcases hsession : s.sessions.lookup upSeid with _ | t
    · -- the answer to an unknown UP-SEID has an accepted cause
      obtain ⟨⟨m, hm, hcause⟩, -⟩ := htruthful.missing hsession
      rw [hanswer, Option.some_inj] at hm
      subst hm
      simp [sessionModificationResponse, refuses_missing peer hsession] at hcause
    · exact ⟨t, rfl⟩
  · rintro ⟨t, hsession⟩
    constructor
    · intro m hm hcause
      rw [hanswer, Option.some_inj] at hm
      subst hm
      cases hpeer : refuses s peer upSeid with
      | true => simp [sessionModificationResponse, hpeer] at hcause
      | false => exact ⟨t, hsession, fun _ _ => refuses_eq_false hsession hpeer⟩
    · intro hmissing
      rw [hsession] at hmissing
      exact absurd hmissing (by simp)

/-- A UPF that just started, and the request to install a downlink in its session 7. -/
theorem modification_truthful_iff_restarted :
    AnswersTruthfully (.withRecoveryTime 0) (some (.v4 0x0A000001)) 7
        (handleMessage (sessionModificationRequest 7 1 DOWNLINK_FAR_ID 5 0x0A000002 "internet" false)
          0x0A000003 (.withRecoveryTime 0) 0 (some (.v4 0x0A000001))) ↔
      ((UpfState.withRecoveryTime 0).sessions.lookup (7 : Seid)).isSome :=
  modification_truthful_iff _ _ _ _ _ _ rfl rfl

/-- There the request is accepted. -/
theorem modification_accepted_without_session :
    ¬ ∀ (s : UpfState) (msg : Message) (nodeIp : Ipv4Addr) (nowNanos : Nat) (peer : Option IpAddr)
      (upSeid : Seid), msg.msgType = .sessionModificationRequest → msg.seid = some upSeid →
      AnswersTruthfully s peer upSeid (handleMessage msg nodeIp s nowNanos peer) := by
  intro h
  have htruthful := h (.withRecoveryTime 0)
    (sessionModificationRequest 7 1 DOWNLINK_FAR_ID 5 0x0A000002 "internet" false) 0x0A000003 0
    (some (.v4 0x0A000001)) 7 rfl rfl
  obtain ⟨⟨m, hm, hcause⟩, -⟩ := htruthful.missing rfl
  have hanswer : (handleMessage
      (sessionModificationRequest 7 1 DOWNLINK_FAR_ID 5 0x0A000002 "internet" false) 0x0A000003
      (.withRecoveryTime 0) 0 (some (.v4 0x0A000001))).1 =
        some (sessionModificationResponse 7 1 .requestAccepted []) := by decide +kernel
  rw [hanswer, Option.some_inj] at hm
  subst hm
  exact hcause rfl

end Radian.Pfcp
