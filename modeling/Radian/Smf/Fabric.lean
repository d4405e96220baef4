import Radian.Proc.Serial
import Radian.Smf.Wiring
import Radian.Upf.Serve

/-!
# The fabric

The SMF's sessions at all its UPFs, reduced to their wiring.  It is what the SMF's requests make of it:
the UPFs' tables, allocators and N4 handlers refine it, and nothing else that happens at a UPF shows.

- `Fabric`, `Fabric.outside` — the wiring by node and UP-SEID, and how it answers the SMF.
- `Nodes.answering` — the UPFs, every request answered by its node.
- `answering_refines` — the UPFs refine the fabric.
- `Elsewhere`, `fabric_elsewhere` — the turns of a UPF that are not the SMF's.
-/

namespace Radian.Smf

open Pfcp (Ipv4Addr IpAddr Seid N4Request Message Session UpfState Codec Wiring handleMessage)

/-- The SMF's sessions at the UPFs, and where the UPFs are. -/
structure Fabric where
  addr : String → Ipv4Addr
  wires : String × Seid → Option Wiring

namespace Fabric

/-- Another wiring in one place. -/
def set (f : Fabric) (x : String × Seid) (u : Option Wiring) : Fabric :=
  { f with wires := Function.update f.wires x u }

@[simp] theorem addr_set (f : Fabric) (x : String × Seid) (u : Option Wiring) :
    (f.set x u).addr = f.addr := rfl

theorem wires_set (f : Fabric) (x : String × Seid) (u : Option Wiring) (y : String × Seid) :
    (f.set x u).wires y = if y = x then u else f.wires y := Function.update_apply _ _ _ _

@[simp] theorem wires_set_self (f : Fabric) (x : String × Seid) (u : Option Wiring) :
    (f.set x u).wires x = u := Function.update_self _ _ _

theorem wires_set_of_ne (f : Fabric) {x y : String × Seid} (u : Option Wiring) (h : y ≠ x) :
    (f.set x u).wires y = f.wires y := Function.update_of_ne h _ _

/-- How a fabric may answer a request.  A session that is opened gets a new UP-SEID; a request about a
session that is there is accepted. -/
def answers (f : Fabric) (peer : String) (req : N4Request) (out : N4Outcome) : Bool :=
  if req.opens then
    match out.reply.bind fun r => r.session with
    | some est =>
        f.wires (peer, est.upSeid) == none && est.n3Addr == f.addr peer &&
          (est.dlIngress.map fun d => d.2) == if req.wantsDlIngress then some (f.addr peer) else none
    | none => true
  else
    match out.reply, req.target.bind fun seid => f.wires (peer, seid) with
    | none, _ => false
    | some r, some _ => r.accepted
    | some _, none => true

/-- A fabric after a request. -/
def exchanged (f : Fabric) (peer : String) (req : N4Request) (out : N4Outcome) : Fabric :=
  if req.opens then
    match out.reply.bind fun r => r.session with
    | some est =>
        f.set (peer, est.upSeid) (some (req.wires est.n3Teid (est.dlIngress.map fun d => d.1)))
    | none => f
  else
    match req.target with
    | some seid =>
        f.set (peer, seid)
          (if req.deletes.isSome then none else (f.wires (peer, seid)).map fun u => req.rewire u)
    | none => f

def outside : Outside Unit Core Mark Call Call.Answer Fabric where
  answers
    | .transact peer req, f, out => f.answers peer req out
    | _, _, _ => true
  effect
    | .transact peer req, out, f => f.exchanged peer req out
    | _, _, f => f
  mark := fun _ _ _ f => f

end Fabric

namespace Nodes

/-- Every N4 request is answered by its node. -/
def answering (smfIp : Ipv4Addr) (stamp : Nat → Nat × Nat) :
    Outside Unit Core Mark Call Call.Answer Nodes where
  answers
    | .transact peer req, w, out => out == (w.exchange smfIp stamp peer req).1
    | _, _, _ => true
  effect
    | .transact peer req, _, w => (w.exchange smfIp stamp peer req).2
    | _, _, w => w
  mark := fun _ _ _ w => w

/-- The wiring of the SMF's sessions. -/
def fabric (smfIp : Ipv4Addr) (w : Nodes) : Fabric where
  addr := w.addr
  wires := fun x => ((w.upf x.1).sessionOf (.v4 smfIp) x.2).map Session.wiring

@[simp] theorem addr_fabric (smfIp : Ipv4Addr) (w : Nodes) : (w.fabric smfIp).addr = w.addr := rfl

theorem wires_fabric (smfIp : Ipv4Addr) (w : Nodes) (x : String × Seid) :
    (w.fabric smfIp).wires x = ((w.upf x.1).sessionOf (.v4 smfIp) x.2).map Session.wiring := rfl

/-- What is wired is a session of the SMF. -/
theorem sessionOf_of_wired {smfIp : Ipv4Addr} {w : Nodes} {peer : String} {seid : Seid}
    (h : (w.fabric smfIp).wires (peer, seid) ≠ none) :
    ∃ t, (w.upf peer).sessionOf (.v4 smfIp) seid = some t := by
  rw [← Option.ne_none_iff_exists']
  intro hnone
  apply h
  rw [wires_fabric, hnone, Option.map_none]

end Nodes

/-! ### The UPFs refine the fabric -/

section Refinement

variable {smfIp : Ipv4Addr} {stamp : Nat → Nat × Nat} {w : Nodes} {peer : String} {req : N4Request}

/-- Two fabrics with the same wires at the same places. -/
theorem fabric_ext {f g : Fabric} (haddr : f.addr = g.addr) (hwires : ∀ x, f.wires x = g.wires x) :
    f = g := by
  obtain ⟨addr, wires⟩ := f
  obtain ⟨addr', wires'⟩ := g
  obtain rfl : addr = addr' := haddr
  obtain rfl : wires = wires' := funext hwires
  rfl

theorem wires_exchange (x : String × Seid) :
    ((w.exchange smfIp stamp peer req).2.fabric smfIp).wires x =
      if x.1 = peer then
        ((w.handled smfIp stamp peer req).2.sessionOf (.v4 smfIp) x.2).map Session.wiring
      else (w.fabric smfIp).wires x := by
  simp only [Nodes.fabric, Nodes.exchange, Function.update_apply]
  split <;> rfl

/-- What an answer to an establishment amounts to. -/
inductive OpensAs (w : Nodes) (smfIp : Ipv4Addr) (peer : String) (req : N4Request)
    (out : N4Outcome) (w' : Nodes) : Prop
  | refused (hreply : (out.reply.bind fun r => r.session) = none)
      (hsame : w'.fabric smfIp = w.fabric smfIp)
  | opened {est} (hreply : (out.reply.bind fun r => r.session) = some est)
      (hfresh : (w.fabric smfIp).wires (peer, est.upSeid) = none) (haddr : est.n3Addr = w.addr peer)
      (hingress : (est.dlIngress.map fun d => d.2) =
        if req.wantsDlIngress then some (w.addr peer) else none)
      (hafter : ∀ x, (w'.fabric smfIp).wires x = if x = (peer, est.upSeid) then
          some (req.wires est.n3Teid (est.dlIngress.map fun d => d.1))
        else (w.fabric smfIp).wires x)

variable (smfIp stamp w peer) in
theorem exchange_opens (hopens : req.opens = true) :
    OpensAs w smfIp peer req (w.exchange smfIp stamp peer req).1
      (w.exchange smfIp stamp peer req).2 := by
  have htype : (req.message smfIp (stamp w.sent).1).msgType = .sessionEstablishmentRequest :=
    Pfcp.msgType_message_opens hopens
  obtain ⟨cpSeid, hfseid⟩ := Pfcp.fseid_message smfIp (stamp w.sent).1 hopens
  -- the table of a node that installs nothing
  have hsame : (w.handled smfIp stamp peer req).2 = w.upf peer →
      (w.exchange smfIp stamp peer req).2.fabric smfIp = w.fabric smfIp := by
    intro htable
    refine fabric_ext (by rfl) fun x => ?_
    rw [wires_exchange, htable]
    split
    · rename_i hname
      rw [← hname]
      rfl
    · rfl
  by_cases hroom : (w.upf peer).sessionCount < (w.upf peer).maxSessions
  · by_cases hleft : (w.upf peer).nextSeid = Pfcp.maxSeid
    · have hnone : w.handled smfIp stamp peer req = (none, w.upf peer) := by
        simp only [Nodes.handled, handleMessage, htype, Pfcp.handleEstablishment, hfseid,
          if_neg (Nat.not_le.mpr hroom), UpfState.establish, dif_pos hleft]
      apply OpensAs.refused
      · simp only [Nodes.exchange, hnone]
        rfl
      · exact hsame (congrArg Prod.snd hnone)
    · obtain ⟨t, s', hhandle, hopened, ht⟩ := Pfcp.handleMessage_establishes (w.addr peer)
        (stamp w.sent).2 (some (.v4 smfIp)) htype hfseid hroom hleft
      have hwiring : t.wiring = req.wires t.n3Teid t.dlIngressTeid := by
        rw [ht]
        exact Pfcp.wiring_newSession _ _ _ _ _
      have hingress : t.dlIngressTeid =
          if req.wantsDlIngress then some ((w.upf peer).nextTeid + 1) else none := by
        rw [ht, ← Pfcp.wantsDlIngress_message req smfIp (stamp w.sent).1]
        rfl
      have hreply : ((w.exchange smfIp stamp peer req).1.reply.bind fun r => r.session) = some
          { upSeid := (w.upf peer).nextSeid
            n3Teid := t.n3Teid
            n3Addr := w.addr peer
            dlIngress := t.dlIngressTeid.map fun teid => (teid, w.addr peer) } := by
        simp only [Nodes.exchange, Nodes.handled, hhandle, Option.map_some, Option.bind_some,
          readResponse]
        exact @Pfcp.parse_sessionEstablishmentResponse Message Codec.direct _ _ _ _ _ _ _ rfl rfl
      apply OpensAs.opened hreply
      · simp only [Nodes.fabric, UpfState.sessionOf_fresh _ (BitVec.le_refl _), Option.map_none]
      · rfl
      · rw [hingress]
        split <;> rfl
      · rintro ⟨name, seid⟩
        have hback : ((t.dlIngressTeid.map fun teid => (teid, w.addr peer)).map fun d => d.1) =
            t.dlIngressTeid := by
          rw [Option.map_map]
          exact Option.map_id'
        rw [wires_exchange, Nodes.handled, hhandle, hback, ← hwiring]
        by_cases hname : name = peer
        · subst hname
          rw [if_pos rfl, UpfState.sessionOf_insert hopened.sessions]
          by_cases hseid : seid = (w.upf name).nextSeid
          · simp [hseid, Option.filter_some, hopened.bound]
          · simp [hseid, Nodes.fabric]
        · simp [hname]
  · have hfull : w.handled smfIp stamp peer req = (some (Pfcp.sessionEstablishmentResponse cpSeid
        (req.message smfIp (stamp w.sent).1).sequence .noResourcesAvailable (w.addr peer) 0 []),
        w.upf peer) := by
      simp only [Nodes.handled, handleMessage, htype, Pfcp.handleEstablishment, hfseid,
        if_pos (Nat.not_lt.mp hroom)]
    apply OpensAs.refused
    · simp only [Nodes.exchange, hfull]
      rfl
    · exact hsame (congrArg Prod.snd hfull)

/-- A modification is answered, and accepted when the session is one of the SMF's. -/
theorem exchange_modifies {seid : Seid} (hopens : req.opens = false) (hdeletes : req.deletes = none)
    (htarget : req.target = some seid) :
    (∃ r, (w.exchange smfIp stamp peer req).1.reply = some r ∧
      ((w.fabric smfIp).wires (peer, seid) ≠ none → r.accepted = true)) ∧
    ∀ x, ((w.exchange smfIp stamp peer req).2.fabric smfIp).wires x = if x = (peer, seid) then
        ((w.fabric smfIp).wires (peer, seid)).map fun u => req.rewire u
      else (w.fabric smfIp).wires x := by
  obtain ⟨upSeid, hsame, hseid⟩ := Pfcp.seid_message smfIp (stamp w.sent).1 hopens
  obtain rfl : upSeid = seid := Option.mem_unique hsame htarget
  have htype : (req.message smfIp (stamp w.sent).1).msgType = .sessionModificationRequest :=
    Pfcp.msgType_message hopens hdeletes
  constructor
  · obtain ⟨reports, hanswer⟩ := @Pfcp.handleModification_answer
      (req.message smfIp (stamp w.sent).1) upSeid (w.upf peer) (some (.v4 smfIp)) (stamp w.sent).2 hseid
    have hhandled : w.handled smfIp stamp peer req = Pfcp.handleModification
        (req.message smfIp (stamp w.sent).1) (w.upf peer) (stamp w.sent).2 (some (.v4 smfIp)) := by
      simp only [Nodes.handled, handleMessage, htype]
    have hreply : (w.exchange smfIp stamp peer req).1.reply = (Pfcp.handleModification
        (req.message smfIp (stamp w.sent).1) (w.upf peer) (stamp w.sent).2
        (some (.v4 smfIp))).1.map readResponse := congrArg (Option.map readResponse ∘ Prod.fst) hhandled
    rw [hanswer] at hreply
    refine ⟨_, hreply, fun hwired => ?_⟩
    obtain ⟨t, ht⟩ := Nodes.sessionOf_of_wired hwired
    simp [readResponse, Pfcp.sessionModificationResponse, Pfcp.refuses_sessionOf ht]
  · have htarget : (req.message smfIp (stamp w.sent).1).onTarget (stamp w.sent).2 = fun t =>
        some (t.modify (req.message smfIp (stamp w.sent).1) (stamp w.sent).2) := by
      funext t
      simp only [Message.onTarget, htype]
    rintro ⟨name, seid⟩
    rw [wires_exchange, Nodes.handled]
    by_cases hname : name = peer
    · subst hname
      rw [if_pos rfl, Pfcp.sessionOf_own _ _ (by rw [htype]; simp), hseid, htarget]
      by_cases hsame : seid = upSeid
      · subst hsame
        rw [if_pos rfl, if_pos rfl, Nodes.wires_fabric]
        rcases (w.upf name).sessionOf (.v4 smfIp) seid with _ | t
        · rfl
        · exact congrArg some (Pfcp.wiring_modify_request t _ hopens hdeletes)
      · have hother : (upSeid : Seid) ≠ seid := fun h => hsame h.symm
        simp [hsame, hother, Nodes.fabric]
    · simp [hname]

/-- A deletion is answered, and accepted when the session is one of the SMF's, and then it is gone. -/
theorem exchange_deletes (seid : Seid) :
    (∃ r, (w.exchange smfIp stamp peer (.sessionDeletion seid)).1.reply = some r ∧
      ((w.fabric smfIp).wires (peer, seid) ≠ none → r.accepted = true)) ∧
    ∀ x, ((w.exchange smfIp stamp peer (.sessionDeletion seid)).2.fabric smfIp).wires x =
      if x = (peer, seid) then none else (w.fabric smfIp).wires x := by
  let msg := N4Request.message smfIp (stamp w.sent).1 (.sessionDeletion seid)
  have htype : msg.msgType = .sessionDeletionRequest := rfl
  have hseid : msg.seid = some seid := rfl
  constructor
  · obtain ⟨reports, hanswer⟩ := @Pfcp.handleDeletion_answer msg seid (w.upf peer)
      (some (.v4 smfIp)) hseid
    have hreply : (w.exchange smfIp stamp peer (.sessionDeletion seid)).1.reply =
        (Pfcp.handleDeletion msg (w.upf peer) (some (.v4 smfIp))).1.map readResponse := rfl
    rw [hanswer] at hreply
    refine ⟨_, hreply, fun hwired => ?_⟩
    obtain ⟨t, ht⟩ := Nodes.sessionOf_of_wired hwired
    obtain ⟨hsession, -⟩ := UpfState.sessionOf_eq_some_iff.mp ht
    simp [readResponse, Pfcp.sessionDeletionResponse, Pfcp.refuses_sessionOf ht, hsession]
  · rintro ⟨name, other⟩
    rw [wires_exchange, Nodes.handled]
    by_cases hname : name = peer
    · subst hname
      rw [if_pos rfl, @Pfcp.sessionOf_own msg _ _ _ _ _ (by rw [htype]; simp), hseid]
      by_cases hsame : other = seid
      · subst hsame
        have hgone : msg.onTarget (stamp w.sent).2 = fun _ => none := by
          funext t
          simp only [Message.onTarget, htype]
        simp [hgone]
      · have hother : (seid : Seid) ≠ other := fun h => hsame h.symm
        simp [hsame, hother, Nodes.fabric]
    · simp [hname]

variable (smfIp stamp w peer) in
/-- What an answer to a request about a session amounts to. -/
theorem exchange_addressed {seid : Seid} (hopens : req.opens = false) (htarget : req.target = some seid) :
    (∃ r, (w.exchange smfIp stamp peer req).1.reply = some r ∧
      ((w.fabric smfIp).wires (peer, seid) ≠ none → r.accepted = true)) ∧
    ∀ x, ((w.exchange smfIp stamp peer req).2.fabric smfIp).wires x = if x = (peer, seid) then
        if req.deletes.isSome then none
        else ((w.fabric smfIp).wires (peer, seid)).map fun u => req.rewire u
      else (w.fabric smfIp).wires x := by
  cases hdeletes : req.deletes with
  | none => exact exchange_modifies hopens hdeletes htarget
  | some gone =>
    cases req with
    | sessionDeletion upSeid =>
      obtain rfl : upSeid = seid := Option.some_inj.mp htarget
      exact exchange_deletes upSeid
    | _ => cases hdeletes

theorem target_of_opens (hopens : req.opens = false) : ∃ seid, req.target = some seid := by
  obtain ⟨seid, htarget, -⟩ := Pfcp.seid_message 0 0 hopens
  exact ⟨seid, htarget⟩

theorem exchange_answers :
    (w.fabric smfIp).answers peer req (w.exchange smfIp stamp peer req).1 = true := by
  unfold Fabric.answers
  cases hopens : req.opens with
  | true =>
    cases exchange_opens smfIp stamp w peer hopens with
    | refused hreply => simp [hreply]
    | opened hreply hfresh haddr hingress => simp [hreply, hfresh, haddr, hingress]
  | false =>
    obtain ⟨seid, htarget⟩ := target_of_opens hopens
    obtain ⟨⟨r, hreply, haccepted⟩, -⟩ := exchange_addressed smfIp stamp w peer hopens htarget
    cases hwired : (w.fabric smfIp).wires (peer, seid) with
    | none => simp [hreply, htarget, hwired]
    | some u =>
      have hyes : r.accepted = true := haccepted (by simp [hwired])
      simp [hreply, htarget, hwired, hyes]

theorem exchange_exchanged :
    (w.exchange smfIp stamp peer req).2.fabric smfIp =
      (w.fabric smfIp).exchanged peer req (w.exchange smfIp stamp peer req).1 := by
  unfold Fabric.exchanged
  cases hopens : req.opens with
  | true =>
    cases exchange_opens smfIp stamp w peer hopens with
    | refused hreply hsame => simp [hreply, hsame]
    | opened hreply hfresh haddr hingress hafter =>
      simp only [hreply, if_true]
      refine fabric_ext (by rfl) fun x => ?_
      exact (hafter x).trans (Fabric.wires_set _ _ _ x).symm
  | false =>
    obtain ⟨seid, htarget⟩ := target_of_opens hopens
    obtain ⟨-, hafter⟩ := exchange_addressed smfIp stamp w peer hopens htarget
    simp only [htarget, Bool.false_eq_true, if_false]
    refine fabric_ext (by rfl) fun x => ?_
    exact (hafter x).trans (Fabric.wires_set _ _ _ x).symm

/-- **The UPFs refine the fabric.** -/
theorem answering_refines (smfIp : Ipv4Addr) (stamp : Nat → Nat × Nat) :
    (Nodes.answering smfIp stamp).Refines Fabric.outside (Nodes.fabric smfIp) where
  answers {e w r} h := by
    cases e with
    | transact peer req =>
      obtain rfl : r = (w.exchange smfIp stamp peer req).1 := beq_iff_eq.mp h
      exact exchange_answers
    | _ => rfl
  effect {e w r} h := by
    cases e with
    | transact peer req =>
      obtain rfl : r = (w.exchange smfIp stamp peer req).1 := beq_iff_eq.mp h
      exact exchange_exchanged
    | _ => rfl
  mark _ _ _ _ := rfl

end Refinement

/-! ### What else happens at a UPF -/

/-- A turn that the SMF has no part in. -/
def NotFrom {D : Type} (smfIp : Ipv4Addr) : Upf.Input D → Prop
  | .n4 d => d.peer ≠ .v4 smfIp
  | _ => True

/-- Some UPF takes a turn that is not the SMF's: traffic, a report, another N4 peer. -/
def Elsewhere {D : Type} (codec : Codec D) (smfIp : Ipv4Addr) (w w' : Nodes) : Prop :=
  ∃ name i, NotFrom smfIp i ∧
    w' = { w with upf := Function.update w.upf name (Upf.serve codec (w.addr name) (w.upf name) i) }

/-- One session changes in place, and its wiring does not. -/
theorem sessionOf_onSession {p : IpAddr} {s : UpfState} {upSeid : Seid} {f : Session → Session}
    (hpeer : ∀ t, (f t).peerIp = t.peerIp) (hwiring : ∀ t, (f t).wiring = t.wiring) (seid : Seid) :
    ((s.onSession upSeid f).sessionOf p seid).map Session.wiring =
      (s.sessionOf p seid).map Session.wiring := by
  rw [UpfState.sessionOf, UpfState.sessionOf, UpfState.lookup_onSession]
  split
  · rename_i hsame
    subst hsame
    rcases s.sessions.lookup seid with _ | t
    · rfl
    · simp only [Option.map_some, Option.filter_some, hpeer]
      split
      · exact congrArg some (hwiring t)
      · rfl
  · rfl

theorem wiring_admitPacket (uplink : Bool) (nowNanos : Nat) (pkt : Pfcp.Packet) (t : Session) :
    (t.admitPacket uplink nowNanos pkt).2.peerIp = t.peerIp ∧
      (t.admitPacket uplink nowNanos pkt).2.wiring = t.wiring := by
  obtain ⟨_, _, _, _, _, htouches⟩ := Pfcp.admitPacket_touches uplink nowNanos pkt t
  rw [htouches]
  exact ⟨rfl, rfl⟩

theorem sessionOf_admitAt (p : IpAddr) (s : UpfState) (a : Pfcp.Admission) (seid : Seid) :
    ((s.admitAt a).sessionOf p seid).map Session.wiring = (s.sessionOf p seid).map Session.wiring :=
  sessionOf_onSession (fun t => (wiring_admitPacket a.uplink a.nowNanos a.pkt t).1)
    (fun t => (wiring_admitPacket a.uplink a.nowNanos a.pkt t).2) seid

/-- Such a turn leaves the wiring of the SMF's sessions alone. -/
theorem sessionOf_serve {D : Type} (codec : Codec D) (nodeIp smfIp : Ipv4Addr) (s : UpfState)
    {i : Upf.Input D} (hother : NotFrom smfIp i) (seid : Seid) :
    ((Upf.serve codec nodeIp s i).sessionOf (.v4 smfIp) seid).map Session.wiring =
      (s.sessionOf (.v4 smfIp) seid).map Session.wiring := by
  cases i with
  | n4 d =>
    have hsame := Pfcp.sessionOf_deliver_other codec nodeIp s d seid (Ne.symm hother)
    rw [UpfState.sessionOf] at hsame ⊢
    rw [Upf.sessions_serveN4, hsame]
  | n3 teid payload nowNanos =>
    rw [Upf.serve, N6.uplink_table]
    rcases N6.uplinkAdmission s teid payload nowNanos with _ | a
    · rfl
    · exact sessionOf_admitAt _ s a seid
  | n6 pkt nowNanos =>
    have hstep := N6.downlink_step s pkt nowNanos
    rw [Upf.serve]
    generalize N6.downlink s pkt nowNanos = r at hstep ⊢
    cases hstep with
    | admitted => exact sessionOf_admitAt _ s _ seid
    | held => exact sessionOf_onSession (f := fun t => t.buffer pkt) (fun _ => rfl) (fun _ => rfl) seid
    | dropped => rfl
  | usageReport =>
    unfold Upf.serve UpfState.takeDueReport
    dsimp only
    split
    · rfl
    · exact sessionOf_onSession (f := fun t => t.takeReport.2) (fun _ => rfl) (fun _ => rfl) seid
  | dlDataReport =>
    unfold Upf.serve UpfState.takeDlDataReport
    dsimp only
    split
    · rfl
    · exact sessionOf_onSession (f := Session.takeDlDataReport) (fun _ => rfl) (fun _ => rfl) seid
  | rehash entries => rw [Upf.serve, UpfState.sessionOf, Upf.lookup_rehash, UpfState.sessionOf]

/-- **Nothing else shows**: the fabric is the SMF's alone. -/
theorem fabric_elsewhere {D : Type} {codec : Codec D} {smfIp : Ipv4Addr} {w w' : Nodes}
    (h : Elsewhere codec smfIp w w') : w'.fabric smfIp = w.fabric smfIp := by
  obtain ⟨name, i, hother, rfl⟩ := h
  refine fabric_ext (by rfl) fun x => ?_
  simp only [Nodes.wires_fabric, Function.update_apply]
  split
  · rename_i hname
    rw [hname]
    exact sessionOf_serve codec (w.addr name) smfIp (w.upf name) hother x.2
  · rfl

end Radian.Smf
