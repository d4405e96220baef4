import Radian.Ran.Sealing

/-!
# What the gNB core sends

What goes to the core network and what to the endpoints, event by event.

- `northbound`, `southbound` — the two kinds of output.
- `GnbState.addressee` — the endpoint that an event sends something to, pages apart.
- `sends_handle` — all of it goes to that one, and a release comes last and drops its context.
-/

namespace Radian.Ran

open Security (Bytes)

variable {P : Type} [DecidableEq P]

/-! ### Messages -/

/-- What goes to the AMF and over N3. -/
def northbound (out : List (Output P)) : List (Output Empty) :=
  out.filterMap fun o => match o with
    | .ngap pdu => some (.ngap pdu)
    | .uu _ _ => none
    | .n3 addr port datagram => some (.n3 addr port datagram)
    | .echoResponse sequence => some (.echoResponse sequence)

/-- What goes to the endpoints. -/
def southbound (out : List (Output P)) : List (P × DlMessage) :=
  out.filterMap fun o => match o with
    | .uu peer msg => some (peer, msg)
    | _ => none

section Messages

omit [DecidableEq P]

@[simp] theorem northbound_nil : northbound ([] : List (Output P)) = [] := rfl

@[simp] theorem southbound_nil : southbound ([] : List (Output P)) = [] := rfl

@[simp] theorem northbound_uu (peer : P) (msg : DlMessage) (out : List (Output P)) :
    northbound (.uu peer msg :: out) = northbound out := rfl

@[simp] theorem southbound_uu (peer : P) (msg : DlMessage) (out : List (Output P)) :
    southbound (.uu peer msg :: out) = (peer, msg) :: southbound out := rfl

@[simp] theorem northbound_ngap (pdu : NgapOut) (out : List (Output P)) :
    northbound (.ngap pdu :: out) = .ngap pdu :: northbound out := rfl

@[simp] theorem southbound_ngap (pdu : NgapOut) (out : List (Output P)) :
    southbound (.ngap pdu :: out) = southbound out := rfl

@[simp] theorem northbound_append (out out' : List (Output P)) :
    northbound (out ++ out') = northbound out ++ northbound out' := List.filterMap_append

@[simp] theorem southbound_append (out out' : List (Output P)) :
    southbound (out ++ out') = southbound out ++ southbound out' := List.filterMap_append

theorem northbound_map_uu {α : Type} (xs : List α) (peer : α → P) (msg : α → DlMessage) :
    northbound (xs.map fun x => Output.uu (peer x) (msg x)) = [] := by
  induction xs with
  | nil => rfl
  | cons x xs ih => exact ih

theorem southbound_map_uu {α : Type} (xs : List α) (peer : α → P) (msg : α → DlMessage) :
    southbound (xs.map fun x => Output.uu (peer x) (msg x)) = xs.map fun x => (peer x, msg x) := by
  induction xs with
  | nil => rfl
  | cons x xs ih => exact congrArg ((peer x, msg x) :: ·) ih

theorem southbound_icsResponse (ranUeId : Nat) (pending : Option PendingIcs) :
    southbound (GnbState.icsResponse ranUeId pending : List (Output P)) = [] := by
  cases pending <;> rfl

theorem peer_dlNasAll (F : Functions) (ue : UeCtx P) (held : List Bytes) :
    (ue.dlNasAll F held).2.peer = ue.peer := by
  induction held generalizing ue with
  | nil => rfl
  | cons nas held ih => exact ih (ue.dlNasSrb1 F nas).2

theorem southbound_single (peer : P) (msg : DlMessage) :
    ∀ m ∈ southbound [Output.uu peer msg], m.1 = peer := by
  simp

end Messages

/-- Contexts and endpoints are in bijection. -/
def GnbState.Paired (s : GnbState P) : Prop :=
  ∀ ranUeId peer, s.byPeer.lookup peer = some ranUeId ↔
    ∃ ue, s.ues.lookup ranUeId = some ue ∧ ue.peer = peer

/-! ### What an event sends down -/

/-- A message to one endpoint that leaves its context there, with data of a limited length. -/
def DlMessage.Ordinary (limit : Nat) : DlMessage → Prop
  | .srb _ _ => True
  | .data _ packet => packet.length ≤ limit
  | .paging _ => False
  | .released => False

/-- The length of the data that an event brings from N3. -/
def Event.dataLength : Event P → Nat
  | .n3 (.gPdu _ _ payload) => payload.length
  | _ => 0

/-- The endpoint that an event sends something to; pages are for all. -/
def GnbState.addressee (F : Functions) (s : GnbState P) : Event P → Option P
  | .ngap (.downlinkNasTransport _ ranUeId _) => (s.ues.lookup ranUeId).map fun ue => ue.peer
  | .ngap (.initialContextSetup _ ranUeId _ _ _ _) => (s.ues.lookup ranUeId).map fun ue => ue.peer
  | .ngap (.pduSessionResourceSetup _ ranUeId _ sessions) =>
      -- what goes down is the NAS message of the first session
      if (sessions.head?.map fun x => x.2.2.2.isEmpty) = some false then
        (s.ues.lookup ranUeId).map fun ue => ue.peer
      else none
  | .ngap (.ueContextReleaseCommand _ ranUeId) => (s.ues.lookup ranUeId).map fun ue => ue.peer
  | .uu peer (.srb srbId payload) =>
      if srbId = SRB0 then some peer
      else if srbId = SRB1 then
        -- what was held goes out
        (s.confirmed F peer payload).bind fun found =>
          if found.2.pendingDlNas.isEmpty then none else some peer
      else none
  | .n3 (.gPdu teid _ _) => (s.sessionByDlTeid teid).map fun found => found.2.2
  | _ => none

/-- What goes down and the state after it: nothing, some messages to an endpoint with a context, or its
release at the end of them. -/
inductive Sends (s : GnbState P) (limit : Nat) (target : Option P) :
    List (P × DlMessage) → GnbState P → Prop where
  | nothing {s' : GnbState P} (hby : s'.byPeer = s.byPeer) (hcamped : s'.camped = s.camped) :
      Sends s limit target [] s'
  | messages {peer : P} (hto : target = some peer) (hknown : (s.byPeer.lookup peer).isSome)
      (msgs : List DlMessage) (hmsgs : ∀ m ∈ msgs, m.Ordinary limit) {s' : GnbState P}
      (hby : s'.byPeer = s.byPeer) (hcamped : s'.camped = s.camped) :
      Sends s limit target (msgs.map fun m => (peer, m)) s'
  | release {peer : P} (hto : target = some peer) (hknown : (s.byPeer.lookup peer).isSome)
      (msgs : List DlMessage) (hmsgs : ∀ m ∈ msgs, m.Ordinary limit) {s' : GnbState P}
      (hby : s'.byPeer = s.byPeer.erase peer) (hcamped : s'.camped = s.camped) :
      Sends s limit target (msgs.map (fun m => (peer, m)) ++ [(peer, .released)]) s'

namespace GnbState

variable {F : Functions} {cfg : GnbConfig} {s s' : GnbState P} {out : List (Output P)}

theorem Paired.lookup_isSome (hs : s.Paired) {ranUeId : Nat} {ue : UeCtx P}
    (hue : s.ues.lookup ranUeId = some ue) : (s.byPeer.lookup ue.peer).isSome = true :=
  Option.isSome_iff_exists.mpr ⟨ranUeId, (hs ranUeId ue.peer).mpr ⟨ue, hue, rfl⟩⟩

/-- One SRB1 message to the endpoint of a context. -/
theorem sends_srb1 (hs : s.Paired) {ranUeId : Nat} {ue : UeCtx P} (hue : s.ues.lookup ranUeId = some ue)
    {limit : Nat} {target : Option P} (hto : target = some ue.peer) (payload : Bytes)
    (hby : s'.byPeer = s.byPeer) (hcamped : s'.camped = s.camped) :
    Sends s limit target [(ue.peer, .srb SRB1 payload)] s' :=
  .messages hto (hs.lookup_isSome hue) [.srb SRB1 payload] (fun _ hm => List.mem_singleton.mp hm ▸ trivial)
    hby hcamped

theorem sends_ngap (hs : s.Paired) {pdu : NgapPdu} (hpage : ∀ tmsi, pdu ≠ .paging tmsi) {limit : Nat}
    (h : s.handleNgap F cfg pdu = some (out, s')) :
    Sends s limit (s.addressee F (.ngap pdu)) (southbound out) s' := by
  cases pdu with
  | downlinkNasTransport amfUeId ranUeId nas =>
    cases hue : s.ues.lookup ranUeId with
    | none =>
      simp only [handleNgap, hue] at h
      cases h
      exact .nothing rfl rfl
    | some ue =>
      simp only [handleNgap, hue] at h
      cases h
      exact sends_srb1 hs hue (by simp only [addressee, hue, Option.map_some]) _ rfl rfl
  | initialContextSetup amfUeId ranUeId securityKey nas qfis sessions =>
    cases hue : s.ues.lookup ranUeId with
    | none =>
      simp only [handleNgap, hue, Option.isNone_none, if_true] at h
      cases h
      exact .nothing rfl rfl
    | some ue =>
      simp only [handleNgap, hue, Option.isNone_some, Bool.false_eq_true, if_false,
        Option.map_some] at h
      cases h
      exact sends_srb1 hs hue (by simp only [addressee, hue, Option.map_some]) _ rfl rfl
  | pduSessionResourceSetup amfUeId ranUeId qfis sessions =>
    cases hue : s.ues.lookup ranUeId with
    | none =>
      simp only [handleNgap, hue] at h
      cases h
      exact .nothing rfl rfl
    | some ue =>
      rcases sessions with _ | ⟨⟨psi, upfTeid, upfAddr, nas⟩, rest⟩
      · simp only [handleNgap, hue] at h
        cases h
        exact .nothing rfl rfl
      · simp only [handleNgap, hue, Option.map_some, Option.some_inj] at h
        split at h
        next =>
          cases h
          exact .nothing rfl rfl
        next hnas =>
          cases h
          exact sends_srb1 hs hue (by simp [addressee, hue, hnas]) _ rfl rfl
  | ueContextReleaseCommand amfUeId ranUeId =>
    cases hue : s.ues.lookup ranUeId with
    | none =>
      simp only [handleNgap, hue, removeUe, Option.map_none] at h
      cases h
      exact .nothing rfl rfl
    | some ue =>
      simp only [handleNgap, hue, removeUe, putUe, AList.lookup_insert, Option.map_some] at h
      cases h
      have hto : s.addressee F (.ngap (.ueContextReleaseCommand amfUeId ranUeId)) = some ue.peer := by
        simp only [addressee, hue, Option.map_some]
      exact .release hto (hs.lookup_isSome hue) [.srb SRB1 _]
        (fun _ hm => List.mem_singleton.mp hm ▸ trivial) rfl rfl
  | paging tmsi => exact absurd rfl (hpage tmsi)
  | other =>
    cases h
    exact .nothing rfl rfl

theorem sends_uu (hs : s.Paired) {peer : P} {msg : UlMessage} (hnew : msg.newUes F = 0) {limit : Nat}
    (h : s.handleUu F peer msg = some (out, s')) :
    Sends s limit (s.addressee F (.uu peer msg)) (southbound out) s' := by
  cases msg with
  | srb srbId payload =>
    by_cases hsrb0 : srbId = SRB0
    · simp only [UlMessage.newUes, if_pos hsrb0] at hnew
      simp only [handleUu, if_pos hsrb0] at h
      split at h
      next hparse => simp [hparse] at hnew
      next =>
        cases h
        exact .nothing rfl rfl
    · by_cases hsrb1 : srbId = SRB1
      · subst hsrb1
        cases hconfirmed : s.confirmed F peer payload with
        | none =>
          obtain ⟨hout, hs'⟩ := handleUu_unconfirmed hconfirmed h
          have hsouth : southbound out = [] := by
            obtain rfl | ⟨ranUeId, nas, rfl⟩ | ⟨amfUeId, ranUeId, nas, rfl⟩ := hout
            · rfl
            · rfl
            · rfl
          rw [hsouth]
          obtain rfl | ⟨ranUeId, ue, -, rfl⟩ := hs'
          · exact .nothing rfl rfl
          · exact .nothing rfl rfl
        | some found =>
          obtain ⟨ranUeId, ue⟩ := found
          obtain ⟨before, rrc, hran, hbefore, -, -, hue⟩ := confirmed_eq_some hconfirmed
          obtain ⟨before', hbefore', rfl⟩ := (hs ranUeId peer).mp hran
          obtain rfl : before = before' := Option.mem_unique hbefore hbefore'
          have hpeer : ue.peer = before.peer := by rw [hue]
          rw [handleUu_confirmed hconfirmed, onAsSecurityComplete_putUe] at h
          cases h
          rw [southbound_append, southbound_icsResponse, List.append_nil, southbound_map_uu,
            peer_dlNasAll]
          cases hheld : ue.pendingDlNas with
          | nil => exact .nothing rfl rfl
          | cons nas held =>
            have hto : s.addressee F (.uu before.peer (.srb SRB1 payload)) = some ue.peer := by
              simp [addressee, hconfirmed, hheld, hpeer]
            have hmap : ∀ payloads : List Bytes,
                payloads.map (fun payload => (ue.peer, DlMessage.srb SRB1 payload)) =
                  (payloads.map (DlMessage.srb SRB1)).map fun m => (ue.peer, m) := fun payloads => by
              rw [List.map_map]
              rfl
            rw [hmap]
            refine .messages hto (hpeer ▸ hs.lookup_isSome hbefore) _ (fun m hm => ?_) rfl rfl
            obtain ⟨payload, -, rfl⟩ := List.mem_map.mp hm
            trivial
      · simp only [handleUu, if_neg hsrb0, if_neg hsrb1] at h
        cases h
        exact .nothing rfl rfl
  | idle =>
    rw [handleUu] at h
    split at h
    · cases h
      exact .nothing rfl rfl
    · cases h
      exact .nothing rfl rfl
  | data psi packet =>
    rw [handleUu] at h
    split at h
    · cases h
      exact .nothing rfl rfl
    · dsimp only at h
      split at h
      · cases h
        exact .nothing rfl rfl
      · split at h
        · cases h
          exact .nothing rfl rfl
        · cases h
          exact .nothing rfl rfl

theorem sends_n3 (hs : s.Paired) (hF : F.algorithms.KeepsLength) {msg : N3Message}
    (h : s.handleN3 F msg = some (out, s')) :
    Sends s ((Event.n3 msg : Event P).dataLength + 8) (s.addressee F (.n3 msg)) (southbound out) s' := by
  cases msg with
  | gPdu teid qfi payload =>
    rw [handleN3] at h
    split at h
    next =>
      cases h
      exact .nothing rfl rfl
    next ranUeId psi peer hteid =>
      obtain ⟨⟨ranUeId', ue, x⟩, hx, hmap⟩ := Option.map_eq_some_iff.mp h
      obtain ⟨ue', hue, rfl, -⟩ := World.sessionByDlTeid_sound hteid
      cases hmap
      have hto : s.addressee F (.n3 (.gPdu teid qfi payload)) = some ue'.peer := by
        simp only [addressee, hteid, Option.map_some]
      refine .messages hto (hs.lookup_isSome hue) [.data psi _] (fun m hm => ?_) rfl rfl
      rw [List.mem_singleton.mp hm]
      have hlen : (x.drb.protect F.algorithms (sdapEncapDl (qfi.getD x.qfi) false false payload)).1.length ≤
          _ := Pdcp.Entity.length_protect_le hF
      refine le_trans hlen ?_
      simp only [sdapEncapDl, List.length_cons, Pdcp.Kind.hdrLen, Pdcp.MAC_LEN, Event.dataLength]
      omega
  | echoRequest sequence =>
    cases h
    exact .nothing rfl rfl
  | endMarker teid =>
    cases h
    exact .nothing rfl rfl
  | other =>
    cases h
    exact .nothing rfl rfl

/-- What an event sends down, a page or an opening apart. -/
theorem sends_handle (hs : s.Paired) (hF : F.algorithms.KeepsLength) {e : Event P}
    (hpage : ∀ tmsi, e ≠ .ngap (.paging tmsi)) (hnew : e.newUes F = 0)
    (h : s.handle F cfg e = some (out, s')) :
    Sends s (e.dataLength + 8) (s.addressee F e) (southbound out) s' := by
  cases e with
  | ngap pdu => exact sends_ngap hs (fun tmsi hpdu => hpage tmsi (congrArg Event.ngap hpdu)) h
  | uu peer msg => exact sends_uu hs hnew h
  | n3 msg => exact sends_n3 hs hF h

end GnbState

end Radian.Ran
