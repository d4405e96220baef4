import Radian.Pfcp.Answers
import Radian.Pfcp.Binding
import Radian.Smf.Calls

/-!
# UPF nodes

The UPFs behind the SMF's N4 calls, each with its own table, answering as the N4 handler does.

- `N4Request.message` — the datagram the SMF builds for a request.
- `Nodes.exchange` — a request reaches a node, and its answer is read.
- `accepting` — the outside in which every request is accepted.
- `session_establishment`, `session_request` — the tables after an accepted request.
-/

namespace Radian.Pfcp

/-- The message of a request. -/
def N4Request.message (smfIp : Ipv4Addr) (seq : Nat) : N4Request → Message
  | .sessionEstablishment cpSeid ue dnn ambr flows usageThreshold =>
      Pfcp.sessionEstablishmentRequest cpSeid seq smfIp ue dnn ambr flows usageThreshold
  | .sessionEstablishmentViaPeer cpSeid ue dnn peerTeid peerAddr branches =>
      Pfcp.sessionEstablishmentRequestViaPeer cpSeid seq smfIp ue dnn peerTeid peerAddr branches
  | .sessionEstablishmentIndirectForwarding cpSeid targetTeid targetAddr =>
      Pfcp.sessionEstablishmentRequestIndirectForwarding cpSeid seq smfIp targetTeid targetAddr
  | .sessionModification upSeid farId teid addr dnn endMarker =>
      Pfcp.sessionModificationRequest upSeid seq farId teid addr dnn endMarker
  | .sessionDeactivate upSeid farId => Pfcp.sessionDeactivateRequest upSeid seq farId
  | .sessionQerUpdate upSeid ambr => Pfcp.sessionQerUpdateRequest upSeid seq ambr
  | .sessionFlowModification upSeid create update remove =>
      Pfcp.sessionFlowModificationRequest upSeid seq create update remove
  | .sessionModificationAddBranch upSeid index filter egress dnn =>
      Pfcp.sessionModificationAddBranch upSeid seq index filter egress dnn
  | .sessionModificationRemoveBranch upSeid index =>
      Pfcp.sessionModificationRemoveBranch upSeid seq index
  | .sessionDeletion upSeid => Pfcp.sessionDeletionRequest upSeid seq

end Radian.Pfcp

namespace Radian.Smf

open Pfcp (Ipv4Addr Seid N4Request N4Response Message Session UpfState Codec handleMessage)

/-- What the SMF reads in an answer. -/
def readResponse (m : Message) : N4Response :=
  { accepted := m.cause == some .requestAccepted
    session := Pfcp.parseSessionEstablishmentResponse Codec.direct m
    usages := m.usageReports.map fun r => r.usage }

/-! ### The nodes -/

/-- The UPFs by node name, and how many requests the SMF has sent so far. -/
structure Nodes where
  addr : String → Ipv4Addr
  upf : String → UpfState
  sent : Nat

namespace Nodes

/-- A session at a node. -/
def session (w : Nodes) (x : String × Seid) : Option Session := (w.upf x.1).sessions.lookup x.2

variable (smfIp : Ipv4Addr) (stamp : Nat → Nat × Nat)

/-- What the handler at `peer` does with a request.  `stamp` gives each request its sequence number
and its time of arrival. -/
def handled (w : Nodes) (peer : String) (req : N4Request) : Option Message × UpfState :=
  handleMessage (req.message smfIp (stamp w.sent).1) (w.addr peer) (w.upf peer) (stamp w.sent).2
    (some (.v4 smfIp))

/-- A request and its answer. -/
def exchange (w : Nodes) (peer : String) (req : N4Request) : N4Outcome × Nodes :=
  let h := w.handled smfIp stamp peer req
  let reply := h.1.map readResponse
  ({ installed := if req.opens then (reply.bind fun r => r.session).map fun e => e.upSeid else none
     reply },
    { w with upf := Function.update w.upf peer h.2, sent := w.sent + 1 })

end Nodes

/-- Every N4 request is answered by its node, and accepted. -/
def Nodes.accepting (smfIp : Ipv4Addr) (stamp : Nat → Nat × Nat) :
    Outside Unit Core Mark Call Call.Answer Nodes where
  answers
    | .transact peer req, w, out =>
        out == (w.exchange smfIp stamp peer req).1 && out.reply.any fun r => r.accepted
    | _, _, _ => true
  effect
    | .transact peer req, _, w => (w.exchange smfIp stamp peer req).2
    | _, _, w => w
  mark := fun _ _ _ w => w

/-! ### Accepted requests -/

namespace Nodes

variable {smfIp : Ipv4Addr} {stamp : Nat → Nat × Nat} {w : Nodes} {peer : String} {req : N4Request}

@[simp] theorem addr_exchange : (w.exchange smfIp stamp peer req).2.addr = w.addr := rfl

/-- The session table of the node a request goes to. -/
theorem session_exchange (y : String × Seid) :
    (w.exchange smfIp stamp peer req).2.session y =
      if y.1 = peer then (w.handled smfIp stamp peer req).2.sessions.lookup y.2
      else w.session y := by
  simp only [session, exchange, Function.update_apply]
  split <;> rfl

/-- An accepted request has an answer with an accepting cause. -/
theorem accepted_cause (h : (w.exchange smfIp stamp peer req).1.reply.any (fun r => r.accepted)) :
    ∃ m, (w.handled smfIp stamp peer req).1 = some m ∧ m.cause = some .requestAccepted := by
  rcases hanswer : (w.handled smfIp stamp peer req).1 with _ | m
  · simp [exchange, hanswer] at h
  · refine ⟨m, rfl, ?_⟩
    simpa [exchange, hanswer, readResponse] using h

/-- What an accepted modification does to the sessions. -/
theorem session_modification {upSeid : Seid} {t : Session}
    (htype : (req.message smfIp (stamp w.sent).1).msgType = .sessionModificationRequest)
    (hseid : (req.message smfIp (stamp w.sent).1).seid = some upSeid)
    (haccepted : (w.exchange smfIp stamp peer req).1.reply.any fun r => r.accepted)
    (ht : w.session (peer, upSeid) = some t) (y : String × Seid) :
    (w.exchange smfIp stamp peer req).2.session y = if y = (peer, upSeid) then
        some (t.modify (req.message smfIp (stamp w.sent).1) (stamp w.sent).2)
      else w.session y := by
  obtain ⟨m, hm, hcause⟩ := accepted_cause haccepted
  have hpeer : Pfcp.refuses (w.upf peer) (some (.v4 smfIp)) upSeid = false := by
    rw [handled] at hm
    simp only [handleMessage, htype] at hm
    obtain ⟨reports, hanswer⟩ := @Pfcp.handleModification_answer
      (req.message smfIp (stamp w.sent).1) upSeid (w.upf peer) (some (.v4 smfIp))
      (stamp w.sent).2 hseid
    rw [hm, Option.some_inj] at hanswer
    rw [hanswer] at hcause
    cases hrefuses : Pfcp.refuses (w.upf peer) (some (.v4 smfIp)) upSeid with
    | false => rfl
    | true => simp [Pfcp.sessionModificationResponse, hrefuses] at hcause
  rw [session_exchange, handled, Pfcp.handleMessage_modifies _ _ htype hseid hpeer ht,
    UpfState.lookup_modify]
  obtain ⟨name, seid⟩ := y
  by_cases hname : name = peer
  · subst hname
    by_cases hsame : seid = upSeid
    · subst hsame
      have hlookup : (w.upf name).sessions.lookup seid = some t := ht
      simp [hlookup]
    · simp [hsame, session]
  · simp [hname]

/-- A request about a session leaves the others. -/
theorem session_other {upSeid : Seid}
    (htype : (req.message smfIp (stamp w.sent).1).msgType ≠ .sessionEstablishmentRequest)
    (hseid : (req.message smfIp (stamp w.sent).1).seid = some upSeid) {y : String × Seid}
    (hne : y ≠ (peer, upSeid)) : (w.exchange smfIp stamp peer req).2.session y = w.session y := by
  rw [session_exchange, handled]
  split
  · rename_i hname
    rw [Pfcp.lookup_handleMessage _ _ htype, if_neg]
    · rw [session, hname]
    · rintro ⟨hsame, -⟩
      apply hne
      rw [← hname, Option.mem_unique hseid hsame]
  · rfl

theorem session_deletion {seid : Seid} {y : String × Seid} (hne : y ≠ (peer, seid)) :
    (w.exchange smfIp stamp peer (.sessionDeletion seid)).2.session y = w.session y := by
  apply session_other _ rfl hne
  simp [N4Request.message, Pfcp.sessionDeletionRequest]

/-- An accepted establishment opens one session and answers with it. -/
theorem session_establishment {cpSeid : Seid}
    (htype : (req.message smfIp (stamp w.sent).1).msgType = .sessionEstablishmentRequest)
    (hfseid : (req.message smfIp (stamp w.sent).1).fseids.head?.join = some cpSeid)
    (haccepted : (w.exchange smfIp stamp peer req).1.reply.any fun r => r.accepted) :
    ∃ u est, ((w.exchange smfIp stamp peer req).1.reply.bind fun r => r.session) = some est ∧
      est.n3Teid = u.n3Teid ∧ est.n3Addr = w.addr peer ∧ w.session (peer, est.upSeid) = none ∧
      ∀ y, (w.exchange smfIp stamp peer req).2.session y =
        if y = (peer, est.upSeid) then some u else w.session y := by
  obtain ⟨m, hm, hcause⟩ := accepted_cause haccepted
  have hroom : (w.upf peer).sessionCount < (w.upf peer).maxSessions := by
    by_contra hfull
    rw [handled] at hm
    simp only [handleMessage, htype, Pfcp.handleEstablishment, hfseid,
      if_pos (Nat.not_lt.mp hfull), Option.some_inj] at hm
    rw [← hm] at hcause
    exact absurd hcause (by simp [Pfcp.sessionEstablishmentResponse])
  have hleft : (w.upf peer).nextSeid ≠ Pfcp.maxSeid := by
    intro hmax
    rw [handled] at hm
    simp only [handleMessage, htype, Pfcp.handleEstablishment, hfseid,
      if_neg (Nat.not_le.mpr hroom), UpfState.establish, dif_pos hmax] at hm
    exact absurd hm (by simp)
  obtain ⟨u, s', hhandle, hopened, -⟩ := Pfcp.handleMessage_establishes (w.addr peer)
    (stamp w.sent).2 (some (.v4 smfIp)) htype hfseid hroom hleft
  refine ⟨u, { upSeid := (w.upf peer).nextSeid
               n3Teid := u.n3Teid
               n3Addr := w.addr peer
               dlIngress := u.dlIngressTeid.map fun teid => (teid, w.addr peer) }, ?_, rfl, rfl,
    (w.upf peer).fresh _ (BitVec.le_refl _), ?_⟩
  · simp only [exchange, handled, hhandle, Option.map_some, Option.bind_some, readResponse]
    exact @Pfcp.parse_sessionEstablishmentResponse Message Codec.direct _ _ _ _ _ _ _ rfl rfl
  · intro y
    rw [session_exchange, handled, hhandle, hopened.sessions, Keyed.Map.lookup_insert_eq]
    obtain ⟨name, seid⟩ := y
    by_cases hname : name = peer
    · subst hname
      by_cases hsame : seid = (w.upf name).nextSeid
      · simp [hsame]
      · simp [hsame, session]
    · simp [hname]

/-- Awaiting an answer is one exchange, accepted. -/
theorem call_transact {allow : Mark → Unit → Core → Nodes → Prop}
    {K : N4Outcome → Unit → Core → Nodes → Prop} {l : Unit} {c : Core} :
    (Proc.sequentially (accepting smfIp stamp) allow).call (.transact peer req) K l c w ↔
      ((w.exchange smfIp stamp peer req).1.reply.any (fun r => r.accepted) = true →
        K (w.exchange smfIp stamp peer req).1 l c (w.exchange smfIp stamp peer req).2) := by
  simp only [Proc.sequentially_call, accepting, Bool.and_eq_true, beq_iff_eq]
  constructor
  · intro h haccepted
    exact h _ ⟨rfl, haccepted⟩
  · rintro h out ⟨rfl, haccepted⟩
    exact h haccepted

end Nodes

end Radian.Smf
