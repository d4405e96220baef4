import Radian.Pfcp.Usage
import Radian.Upf.Serve

/-!
# Charging

What the UPF reports of a session against what `admit` let through, over any run.

- `accepted`, `handed`, `dropped` — what a turn counts for a session, reports of it, and forgets with
  a flow.
- `Balanced` — what a turn holds back is what it counts and neither reports nor forgets.
- `usage_reported_iff` — a deleted session was reported in full exactly when no flow was dropped
  that had counted something.
-/

namespace Radian.Upf

open Pfcp (Teid Seid Ipv4Addr Session UpfState Codec Datagram Message Counters UsageVolume
  handleMessage refuses deliver Opened)

/-! ### What a turn does to the usage of a session -/

/-- The usage in an answer that is no immediate report. -/
def periodUsages (answer : Message) : List UsageVolume :=
  (answer.usageReports.filter fun r => r.trigger != 0x40).map fun r => r.usage

/-- The packet that a turn counts for a session. -/
def accepted {D : Type} (x : Seid) (s : UpfState) (i : Input D) : Counters :=
  match admission s i with
  | some a => if a.upSeid = x ∧ a.outcome.1 then .ofPacket a.uplink a.pkt.length else 0
  | none => 0

section Turns

variable {D : Type} (codec : Codec D) (nodeIp : Ipv4Addr) (x : Seid)

/-- The volumes that a turn hands out for a session. -/
def handed (s : UpfState) : Input D → Counters
  | .n4 d =>
      match codec.parse d.data with
      | some msg =>
          if msg.seid = some x then
            (((handleMessage msg nodeIp s d.nowNanos (some d.peer)).1.toList.flatMap
              periodUsages).map UsageVolume.measured).sum
          else 0
      | none => 0
  | .usageReport =>
      if (s.sessions.find? fun t => t.reportDue).map Prod.fst = some x then
        (s.takeDueReport.1.map fun report => report.2.measured).getD 0
      else 0
  | _ => 0

/-- What the flows of a session have counted that a turn removes or replaces. -/
def dropped (s : UpfState) : Input D → Counters
  | .n4 d =>
      match codec.parse d.data, s.sessions.lookup x with
      | some msg, some t =>
          if msg.msgType = .sessionModificationRequest ∧ msg.seid = some x ∧
              refuses s (some d.peer) x = false then t.dropped msg else 0
      | _, _ => 0
  | _ => 0

end Turns

/-- No URR of the session has counted to `2^63`. -/
def SmallAt (x : Seid) (s : UpfState) : Prop := ∀ t ∈ s.sessions.lookup x, t.Small

instance (x : Seid) : DecidablePred (SmallAt x) := fun s =>
  inferInstanceAs (Decidable (∀ t ∈ s.sessions.lookup x, t.Small))

/-- What a session has not reported; without the session, nothing. -/
def held (x : Seid) (s : UpfState) : Counters :=
  ((s.sessions.lookup x).map Session.unreported).getD 0

def CoveredAt (x : Seid) (s : UpfState) : Prop := ∀ t ∈ s.sessions.lookup x, t.Covered

/-! ### Balance -/

/-- What enters a session is held back, or leaves. -/
structure Balanced (x : Seid) (s s' : UpfState) (inflow outflow : Counters) : Prop where
  covered : CoveredAt x s'
  balance : held x s' + outflow = held x s + inflow

namespace Balanced

variable {x : Seid} {s s' : UpfState} {inflow outflow : Counters}

/-- The session is as it was. -/
theorem of_same (hcovered : CoveredAt x s)
    (hlookup : s'.sessions.lookup x = s.sessions.lookup x) : Balanced x s s' 0 0 := by
  constructor
  · rw [CoveredAt, hlookup]
    exact hcovered
  · rw [held, hlookup, held]

/-- The session is there, and afterwards is there or not. -/
theorem of_session {t : Session} (ht : s.sessions.lookup x = some t) {o : Option Session}
    (ho : s'.sessions.lookup x = o) (hcovered : ∀ t' ∈ o, t'.Covered)
    (hbalance : (o.map Session.unreported).getD 0 + outflow = t.unreported + inflow) :
    Balanced x s s' inflow outflow := by
  constructor
  · rw [CoveredAt, ho]
    exact hcovered
  · rw [held, ho, held, ht]
    exact hbalance

/-- One session changes, and its counters do not. -/
theorem of_onSession (hcovered : CoveredAt x s) (y : Seid) {f : Session → Session}
    (hurrs : ∀ t, (f t).urrs = t.urrs) (hreported : ∀ t, (f t).reported = t.reported) :
    Balanced x s (s.onSession y f) 0 0 := by
  have hlookup := s.lookup_onSession y x f
  by_cases hx : x = y
  · subst hx
    rw [if_pos rfl] at hlookup
    rcases ht : s.sessions.lookup x with _ | t
    · apply of_same hcovered
      rw [hlookup, ht, Option.map_none]
    · rw [ht, Option.map_some] at hlookup
      apply of_session ht hlookup
      · rintro t' ⟨⟩
        exact Session.covered_congr (hurrs t) (hreported t) (hcovered t ht)
      · rw [Option.map_some, Option.getD_some,
          Session.unreported_congr (hurrs t) (hreported t)]
  · rw [if_neg hx] at hlookup
    exact of_same hcovered hlookup

end Balanced

/-! ### One turn -/

section Turn

variable {D : Type} {codec : Codec D} {nodeIp : Ipv4Addr} {x : Seid} {s : UpfState}

theorem accepted_none {i : Input D} (h : admission s i = none) : accepted x s i = 0 := by
  simp only [accepted, h]

/-- A packet at `admit`. -/
theorem balanced_admitAt (hcovered : CoveredAt x s) {a : Pfcp.Admission}
    (ha : s.sessions.lookup a.upSeid = some a.session) (hsmall : SmallAt x (s.admitAt a)) :
    Balanced x s (s.admitAt a)
      (if a.upSeid = x ∧ a.outcome.1 then .ofPacket a.uplink a.pkt.length else 0) 0 := by
  have hlookup := UpfState.lookup_admitAt ha x
  by_cases hx : x = a.upSeid
  · subst hx
    rw [if_pos rfl] at hlookup
    obtain ⟨hcovered', hunreported⟩ :=
      Pfcp.unreported_admitPacket (hcovered _ ha) (hsmall _ hlookup)
    apply Balanced.of_session ha hlookup
    · rintro t' ⟨⟩
      exact hcovered'
    · rw [Option.map_some, Option.getD_some, add_zero]
      simp only [true_and]
      exact hunreported
  · rw [if_neg hx] at hlookup
    rw [if_neg fun h => hx h.1.symm]
    exact Balanced.of_same hcovered hlookup

/-- A G-PDU on N3. -/
theorem balanced_n3 (teid : Teid) (payload : Pfcp.Packet) (nowNanos : Nat)
    (hcovered : CoveredAt x s)
    (hsmall : SmallAt x (serve codec nodeIp s (.n3 teid payload nowNanos))) :
    Balanced x s (serve codec nodeIp s (.n3 teid payload nowNanos))
      (accepted x s (.n3 teid payload nowNanos : Input D)) 0 := by
  have htable := N6.uplink_table s teid payload nowNanos
  rcases ha : N6.uplinkAdmission s teid payload nowNanos with _ | a
  · have hnone : admission s (.n3 teid payload nowNanos : Input D) = none := ha
    rw [accepted_none hnone]
    rw [ha] at htable
    apply Balanced.of_same hcovered
    rw [serve, htable, Option.map_none, Option.getD_none]
  · rw [ha, Option.map_some, Option.getD_some] at htable
    rw [serve, htable] at hsmall ⊢
    simp only [accepted, admission, ha]
    exact balanced_admitAt hcovered (N6.lookup_uplinkAdmission ha) hsmall

/-- A packet on N6. -/
theorem balanced_n6 (pkt : Pfcp.Packet) (nowNanos : Nat) (hcovered : CoveredAt x s)
    (hsmall : SmallAt x (serve codec nodeIp s (.n6 pkt nowNanos))) :
    Balanced x s (serve codec nodeIp s (.n6 pkt nowNanos))
      (accepted x s (.n6 pkt nowNanos : Input D)) 0 := by
  have hstep := N6.downlink_step s pkt nowNanos
  rw [serve] at hsmall ⊢
  generalize N6.downlink s pkt nowNanos = r at hstep hsmall ⊢
  cases hstep with
  | admitted ha =>
    simp only [accepted, admission, ha]
    exact balanced_admitAt hcovered (N6.lookup_downlinkAdmission ha) hsmall
  | held ha =>
    have hnone : admission s (.n6 pkt nowNanos : Input D) = none := ha
    rw [accepted_none hnone]
    exact .of_onSession hcovered _ (fun _ => rfl) fun _ => rfl
  | dropped ha =>
    have hnone : admission s (.n6 pkt nowNanos : Input D) = none := ha
    rw [accepted_none hnone]
    exact .of_same hcovered rfl

/-- A threshold report. -/
theorem balanced_usageReport (hcovered : CoveredAt x s) :
    Balanced x s (serve codec nodeIp s .usageReport) 0
      (handed codec nodeIp x s (.usageReport : Input D)) := by
  rcases hfound : s.sessions.find? fun t => t.reportDue with _ | ⟨y, t⟩
  · have hstate : serve codec nodeIp s .usageReport = s := by
      simp only [serve, UpfState.takeDueReport, hfound]
    have hhanded : handed codec nodeIp x s (.usageReport : Input D) = 0 := by
      simp only [handed, hfound, Option.map_none, reduceCtorEq, if_false]
    rw [hstate, hhanded]
    exact .of_same hcovered rfl
  · have hstate : serve codec nodeIp s .usageReport = s.onSession y fun t => t.takeReport.2 := by
      simp only [serve, UpfState.takeDueReport, hfound]
    have hhanded : handed codec nodeIp x s (.usageReport : Input D) =
        if y = x then t.takeReport.1.measured else 0 := by
      simp only [handed, UpfState.takeDueReport, hfound, Option.map_some, Option.some_inj,
        Option.getD_some]
    obtain ⟨ht, -⟩ := Keyed.Map.find?_eq_some hfound
    have hlookup := s.lookup_onSession y x fun t => t.takeReport.2
    rw [hstate, hhanded]
    by_cases hx : x = y
    · subst hx
      rw [if_pos rfl, ht, Option.map_some] at hlookup
      rw [if_pos rfl]
      apply Balanced.of_session ht hlookup
      · rintro t' ⟨⟩
        exact Pfcp.covered_takeReport t
      · rw [Option.map_some, Option.getD_some, add_zero]
        exact Pfcp.unreported_takeReport t
    · rw [if_neg hx] at hlookup
      rw [if_neg (Ne.symm hx)]
      exact .of_same hcovered hlookup

theorem balanced_dlDataReport (hcovered : CoveredAt x s) :
    Balanced x s (serve codec nodeIp s .dlDataReport) 0 0 := by
  unfold serve UpfState.takeDlDataReport
  dsimp only
  split
  · exact .of_same hcovered rfl
  · exact .of_onSession hcovered _ (fun _ => rfl) fun _ => rfl

theorem balanced_rehash (entries : List (Sigma fun _ : Seid => Session)) (hcovered : CoveredAt x s) :
    Balanced x s (serve codec nodeIp s (.rehash entries)) 0 0 :=
  .of_same hcovered (lookup_rehash s entries x)

/-! #### N4 -/

section Answer

variable (msg : Message) (s : UpfState) (nowNanos : Nat) (peer : Option Pfcp.IpAddr)

theorem usages_handleEstablishment (nodeIp : Ipv4Addr) :
    (Pfcp.handleEstablishment msg nodeIp s nowNanos peer).1.toList.flatMap periodUsages = [] := by
  unfold Pfcp.handleEstablishment
  split
  · rfl
  · split
    · rfl
    · split <;> rfl

/-- The reports in the answer to a modification are immediate. -/
theorem usages_handleModification :
    (Pfcp.handleModification msg s nowNanos peer).1.toList.flatMap periodUsages = [] := by
  have hqueries : ∀ upSeid s', (Pfcp.queryReports msg upSeid s').filter
      (fun r => r.trigger != 0x40) = [] := by
    intro upSeid s'
    rw [List.filter_eq_nil_iff]
    intro r hr
    obtain ⟨q, -, hq⟩ := List.mem_filterMap.mp hr
    obtain ⟨usage, -, rfl⟩ := Option.map_eq_some_iff.mp hq
    simp
  unfold Pfcp.handleModification
  split
  · rfl
  · split
    · rfl
    · simp [periodUsages, Pfcp.sessionModificationResponse, hqueries]

/-- The reports in the answer to a deletion are all of the final usage. -/
theorem usages_handleDeletion (hseid : msg.seid = some x) :
    (Pfcp.handleDeletion msg s peer).1.toList.flatMap periodUsages =
      if refuses s peer x = false then ((s.sessions.lookup x).map Session.finalUsages).getD []
      else [] := by
  have hfinal : ∀ usages, (Pfcp.finalReports usages).filter (fun r => r.trigger != 0x40) =
      Pfcp.finalReports usages := by
    intro usages
    rw [List.filter_eq_self]
    intro r hr
    obtain ⟨u, -, rfl⟩ := List.mem_map.mp hr
    rfl
  have husage : ∀ usages, (Pfcp.finalReports usages).map (fun r => r.usage) = usages := by
    intro usages
    rw [Pfcp.finalReports, List.map_map]
    exact List.zipIdx_map_fst 0 usages
  cases hpeer : refuses s peer x with
  | true => simp [Pfcp.handleDeletion, hseid, hpeer, periodUsages, Pfcp.sessionDeletionResponse]
  | false =>
    rcases ht : s.sessions.lookup x with _ | t
    · simp [Pfcp.handleDeletion, hseid, hpeer, UpfState.remove_none ht, periodUsages,
        Pfcp.sessionDeletionResponse]
    · have hremove := UpfState.remove_some ht
      simp only [Pfcp.handleDeletion, hseid, hpeer, Bool.false_eq_true, if_false]
      rw [hremove]
      simp [periodUsages, Pfcp.sessionDeletionResponse, hfinal, husage]

/-- Only a deletion hands out usage that is not immediate. -/
theorem usages_handleMessage (nodeIp : Ipv4Addr) (hseid : msg.seid = some x) :
    (handleMessage msg nodeIp s nowNanos peer).1.toList.flatMap periodUsages =
      if msg.msgType = .sessionDeletionRequest ∧ refuses s peer x = false then
        ((s.sessions.lookup x).map Session.finalUsages).getD []
      else [] := by
  cases htype : msg.msgType with
  | sessionEstablishmentRequest =>
    simp [handleMessage, htype, usages_handleEstablishment]
  | sessionModificationRequest =>
    simp [handleMessage, htype, usages_handleModification]
  | sessionDeletionRequest =>
    simp [handleMessage, htype, usages_handleDeletion msg s peer hseid]
  | _ => simp [handleMessage, htype, periodUsages]

end Answer

/-- What a message hands out: what a session has not reported, when it deletes it. -/
theorem handed_n4 {d : Datagram D} {msg : Message} (hparse : codec.parse d.data = some msg) :
    handed codec nodeIp x s (.n4 d) =
      if msg.msgType = .sessionDeletionRequest ∧ msg.seid = some x ∧
        refuses s (some d.peer) x = false then held x s else 0 := by
  simp only [handed, hparse]
  by_cases hseid : msg.seid = some x
  · rw [if_pos hseid, usages_handleMessage msg s d.nowNanos (some d.peer) nodeIp hseid]
    simp only [hseid, true_and]
    split
    · rw [held]
      rcases s.sessions.lookup x with _ | t
      · rfl
      · exact Pfcp.measured_finalUsages t
    · rfl
  · rw [if_neg hseid, if_neg fun h => hseid h.2.1]

theorem dropped_n4 {d : Datagram D} {msg : Message} (hparse : codec.parse d.data = some msg) :
    dropped codec x s (.n4 d) =
      if msg.msgType = .sessionModificationRequest ∧ msg.seid = some x ∧
        refuses s (some d.peer) x = false then
          ((s.sessions.lookup x).map fun t => t.dropped msg).getD 0 else 0 := by
  simp only [dropped, hparse]
  rcases s.sessions.lookup x with _ | t
  · exact (ite_self 0).symm
  · rfl

/-- A session that is opened has nothing to report. -/
theorem balanced_opened {s' : UpfState} {peer : Option Pfcp.IpAddr} {t : Session}
    (hcovered : CoveredAt x s) (hopened : Opened s peer t s') (hunused : t.Unused) :
    Balanced x s s' 0 0 := by
  have hlookup : s'.sessions.lookup x = if x = s.nextSeid then some t else s.sessions.lookup x := by
    rw [hopened.sessions, Keyed.Map.lookup_insert_eq]
  by_cases hx : x = s.nextSeid
  · rw [if_pos hx] at hlookup
    have hnone : s.sessions.lookup x = none := by
      rw [hx]
      exact s.fresh _ (BitVec.le_refl _)
    have hflows : (t.flowQers.map fun f => f.counted).sum = 0 := by
      apply List.sum_eq_zero
      intro c hc
      obtain ⟨f, hf, rfl⟩ := List.mem_map.mp hc
      exact hunused.flows f hf
    constructor
    · intro t' ht'
      rw [hlookup] at ht'
      cases ht'
      exact ⟨0, by rw [hunused.counted, hunused.reported]; rfl⟩
    · rw [held, hlookup, held, hnone, Option.map_some, Option.getD_some, Session.unreported, hflows,
        hunused.counted, hunused.reported]
      rfl
  · rw [if_neg hx] at hlookup
    exact .of_same hcovered hlookup

section Table

variable {s' : UpfState} {d : Datagram D} {msg : Message}

/-- An establishment. -/
theorem balanced_establishment (hcovered : CoveredAt x s)
    (hsessions : s'.sessions = (handleMessage msg nodeIp s d.nowNanos (some d.peer)).2.sessions)
    (htype : msg.msgType = .sessionEstablishmentRequest) : Balanced x s s' 0 0 := by
  have heffect := Pfcp.effect_handleMessage msg nodeIp s d.nowNanos (some d.peer)
  generalize (handleMessage msg nodeIp s d.nowNanos (some d.peer)).2 = after at heffect hsessions
  cases heffect with
  | nothing =>
    apply Balanced.of_same hcovered
    rw [hsessions]
  | established _ h =>
    obtain ⟨t, hopened, hunused⟩ := h.opened_unused
    obtain ⟨hcovered', hbalance⟩ := balanced_opened hcovered hopened hunused
    constructor
    · rw [CoveredAt, hsessions]
      exact hcovered'
    · rw [held, hsessions]
      exact hbalance
  | modified h => exact absurd (h.symm.trans htype) (by simp)
  | removed h => exact absurd (h.symm.trans htype) (by simp)

/-- A request that the session answers to: a deletion takes what it holds, a modification what it
drops. -/
theorem balanced_addressed (hcovered : CoveredAt x s)
    (hlookup : s'.sessions.lookup x = (s.sessions.lookup x).bind (msg.onTarget d.nowNanos)) :
    Balanced x s s' 0
      ((if msg.msgType = .sessionDeletionRequest then held x s else 0) +
        if msg.msgType = .sessionModificationRequest then
          ((s.sessions.lookup x).map fun t => t.dropped msg).getD 0 else 0) := by
  rcases ht : s.sessions.lookup x with _ | t
  · have hnone : s'.sessions.lookup x = s.sessions.lookup x := by
      rw [hlookup, ht, Option.bind_none]
    simp only [held, ht, Option.map_none, Option.getD_none, ite_self, add_zero]
    exact .of_same hcovered hnone
  · rw [ht, Option.bind_some] at hlookup
    apply Balanced.of_session ht hlookup
    · intro t' ht'
      exact Pfcp.covered_onTarget ht' (hcovered t ht)
    · rw [held, ht]
      simp only [Option.map_some, Option.getD_some, add_zero]
      exact Pfcp.unreported_onTarget msg d.nowNanos t

end Table

/-- A datagram. -/
theorem balanced_n4 (d : Datagram D) (hcovered : CoveredAt x s) :
    Balanced x s (serve codec nodeIp s (.n4 d)) 0
      (handed codec nodeIp x s (.n4 d) + dropped codec x s (.n4 d)) := by
  rcases hparse : codec.parse d.data with _ | msg
  · have hsessions : (serve codec nodeIp s (.n4 d)).sessions = s.sessions := by
      simp only [sessions_serveN4, deliver, Pfcp.handleN4From, hparse]
    have hnothing : handed codec nodeIp x s (.n4 d) + dropped codec x s (.n4 d) = 0 := by
      simp only [handed, dropped, hparse, add_zero]
    rw [hnothing]
    apply Balanced.of_same hcovered
    rw [hsessions]
  · have hsessions : (serve codec nodeIp s (.n4 d)).sessions =
        (handleMessage msg nodeIp s d.nowNanos (some d.peer)).2.sessions := by
      simp only [sessions_serveN4, deliver, Pfcp.handleN4From, hparse]
    rw [handed_n4 hparse, dropped_n4 hparse]
    by_cases htype : msg.msgType = .sessionEstablishmentRequest
    · simp only [htype, reduceCtorEq, false_and, if_false, add_zero]
      exact balanced_establishment hcovered hsessions htype
    · have hlookup := @Pfcp.lookup_handleMessage msg s d.nowNanos (some d.peer) nodeIp x htype
      rw [← hsessions] at hlookup
      by_cases haddressed : msg.seid = some x ∧ refuses s (some d.peer) x = false
      · rw [if_pos haddressed] at hlookup
        simp only [haddressed, and_true]
        exact balanced_addressed hcovered hlookup
      · rw [if_neg haddressed] at hlookup
        rw [if_neg fun h => haddressed h.2, if_neg fun h => haddressed h.2, add_zero]
        exact .of_same hcovered hlookup

/-- Every turn is balanced. -/
theorem balanced_serve (i : Input D) (hcovered : CoveredAt x s)
    (hsmall : SmallAt x (serve codec nodeIp s i)) :
    Balanced x s (serve codec nodeIp s i) (accepted x s i)
      (handed codec nodeIp x s i + dropped codec x s i) := by
  cases i with
  | n4 d => exact balanced_n4 d hcovered
  | n3 teid payload nowNanos =>
    have hbalanced := balanced_n3 teid payload nowNanos hcovered hsmall
    exact (add_zero (0 : Counters)).symm ▸ hbalanced
  | n6 pkt nowNanos =>
    have hbalanced := balanced_n6 pkt nowNanos hcovered hsmall
    exact (add_zero (0 : Counters)).symm ▸ hbalanced
  | usageReport =>
    have hbalanced := @balanced_usageReport _ codec nodeIp x s hcovered
    exact (add_zero (handed codec nodeIp x s .usageReport)).symm ▸ hbalanced
  | dlDataReport => exact balanced_dlDataReport hcovered
  | rehash entries => exact balanced_rehash entries hcovered

end Turn

/-! ### Runs -/

section Run

variable {D : Type} (codec : Codec D) (nodeIp : Ipv4Addr) (x : Seid)

/-- Over a run, what is counted for a session is reported, forgotten with a flow, or held. -/
theorem usage_ledger {s : UpfState} {inputs : List (Input D)} (hcovered : CoveredAt x s)
    (hsmall : Runs.Along (serve codec nodeIp) (fun s i => SmallAt x (serve codec nodeIp s i)) s
      inputs) :
    held x (Runs.run (serve codec nodeIp) s inputs) +
        (Runs.tally (serve codec nodeIp) (handed codec nodeIp x) s inputs +
          Runs.tally (serve codec nodeIp) (dropped codec x) s inputs) =
      held x s + Runs.tally (serve codec nodeIp) (accepted x) s inputs := by
  rw [← Runs.tally_add]
  apply Runs.conserved (I := CoveredAt x) _ _ hcovered hsmall
  · intro s i hcovered hsmall
    exact (balanced_serve i hcovered hsmall).covered
  · intro s i hcovered hsmall
    exact (balanced_serve i hcovered hsmall).balance

end Run

/-- Over any run in which the counters stay small and that ends with a session deleted, the volumes
handed out for it add up to what was let through exactly when every modification that removes or
replaces a flow finds that it has counted nothing. -/
theorem usage_reported_iff {D : Type} (codec : Codec D) (nodeIp : Ipv4Addr)
    (recoveryTime maxSessions : Nat) (inputs : List (Input D)) (x : Seid)
    (hsmall : Runs.Along (serve codec nodeIp) (fun s i => SmallAt x (serve codec nodeIp s i))
      (Pfcp.started recoveryTime maxSessions) inputs)
    (hgone : (Runs.run (serve codec nodeIp) (Pfcp.started recoveryTime maxSessions)
      inputs).sessions.lookup x = none) :
    Runs.tally (serve codec nodeIp) (handed codec nodeIp x) (Pfcp.started recoveryTime maxSessions)
        inputs =
      Runs.tally (serve codec nodeIp) (accepted x) (Pfcp.started recoveryTime maxSessions) inputs ↔
    Runs.Along (serve codec nodeIp) (fun s i => dropped codec x s i = 0)
      (Pfcp.started recoveryTime maxSessions) inputs := by
  have hstart : (Pfcp.started recoveryTime maxSessions).sessions.lookup x = none := rfl
  have hcovered : CoveredAt x (Pfcp.started recoveryTime maxSessions) := by
    intro t ht
    exact absurd (hstart.symm.trans ht) (by simp)
  have hledger := usage_ledger codec nodeIp x hcovered hsmall
  rw [held, hgone, held, hstart, Option.map_none, Option.getD_none, zero_add, zero_add] at hledger
  rw [← hledger, ← Runs.tally_eq_zero_iff Counters.add_eq_zero_iff, left_eq_add]

/-! ### Two runs -/

/-- A packet of the UE, from port 5005. -/
def uplinkPacket (protocol : UInt8) : Input Message :=
  .n3 1 [0x45, 0, 0, 28, 0, 0, 0, 0, 64, protocol, 0, 0, 10, 45, 0, 2, 1, 1, 1, 1,
    0x13, 0x8d, 0, 1, 0, 8, 0, 0] 0

/-- Remove the flow. -/
def removeUdp : Input Message := fromSmf (Pfcp.sessionFlowModificationRequest 1 2 [] [] [5])

/-- Delete the session. -/
def delete : Input Message := fromSmf (Pfcp.sessionDeletionRequest 1 3)

/-- The flow goes before it has counted anything; what the session counts is reported at the
threshold and at the end. -/
theorem usage_reported_early :
    let inputs := [establishUdp, removeUdp, uplinkPacket 6, .usageReport, uplinkPacket 17, delete]
    let s := Pfcp.started 0 Pfcp.DEFAULT_MAX_SESSIONS
    let turn := serve Pfcp.Codec.direct 0x0A000003
    Runs.tally turn (accepted 1) s inputs = ⟨56, 0, 2, 0⟩ ∧
      Runs.tally turn (handed Pfcp.Codec.direct 0x0A000003 1) s inputs =
        Runs.tally turn (accepted 1) s inputs := by
  intro inputs s turn
  constructor
  · decide +kernel
  · apply (usage_reported_iff Pfcp.Codec.direct 0x0A000003 0 Pfcp.DEFAULT_MAX_SESSIONS inputs 1 _ _).mpr
    · decide +kernel
    · decide +kernel
    · decide +kernel

/-- A flow goes with the packet it has counted. -/
theorem usage_not_reported :
    ¬ ∀ (inputs : List (Input Message)) (x : Seid),
      let s := Pfcp.started 0 Pfcp.DEFAULT_MAX_SESSIONS
      let turn := serve Pfcp.Codec.direct 0x0A000003
      Runs.Along turn (fun s i => SmallAt x (turn s i)) s inputs →
      (Runs.run turn s inputs).sessions.lookup x = none →
      Runs.tally turn (handed Pfcp.Codec.direct 0x0A000003 x) s inputs =
        Runs.tally turn (accepted x) s inputs := by
  intro h
  have hreported := h [establishUdp, uplinkPacket 17, removeUdp, delete] 1 (by decide +kernel)
    (by decide +kernel)
  exact absurd hreported (by decide +kernel)

end Radian.Upf
