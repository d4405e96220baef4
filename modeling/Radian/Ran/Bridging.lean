import Radian.Inbox.Basic
import Radian.Ran.F1

/-!
# The DU's UE table

What a message of the CU does to the UEs that the DU is bridging, and what an endpoint that opens a
connection does to it.

- `Du.Sound` — each UE has its own endpoint and its own identity.
- `Reads` — everything that reading a message does to the table.
- `Leads` — what one table says about the tables that it becomes by reading.
- `hear_camp` — a message that does not concern an endpoint is read the same after the endpoint opens
  a connection.
-/

namespace Radian.Ran

open Security (Bytes)

variable {P : Type} [DecidableEq P]

namespace Du

/-- What the endpoints get when the DU reads a message of the CU. -/
def hear (d : Du P) (m : F1Message) : List (P × DlMessage) × Du P := ((d.read m).1.uu, (d.read m).2)

/-- Each UE has its own endpoint and its own identity. -/
structure Sound (d : Du P) : Prop where
  ids : (d.ues.map fun u => u.duUeId).Nodup
  peers : (d.ues.map fun u => u.peer).Nodup
  used : ∀ u ∈ d.ues, u.duUeId < d.nextDuUeId
  camped : ∀ u ∈ d.ues, u.peer ∈ d.camped

/-! ### Looking up a UE -/

section Lookup

variable {d : Du P} {u v : DuUe P}

omit [DecidableEq P] in
theorem Sound.eq_of_id (hd : d.Sound) (hu : u ∈ d.ues) (hv : v ∈ d.ues) (h : u.duUeId = v.duUeId) :
    u = v :=
  List.inj_on_of_nodup_map hd.ids hu hv h

omit [DecidableEq P] in
theorem Sound.eq_of_peer (hd : d.Sound) (hu : u ∈ d.ues) (hv : v ∈ d.ues) (h : u.peer = v.peer) :
    u = v :=
  List.inj_on_of_nodup_map hd.peers hu hv h

theorem find?_key {α β : Type} [DecidableEq β] {l : List α} {a : α} (key : α → β) (hl : (l.map key).Nodup)
    (ha : a ∈ l) : (l.find? fun b => key b = key a) = some a := by
  cases hfound : l.find? fun b => key b = key a with
  | none => simpa using List.find?_eq_none.mp hfound a ha
  | some b =>
    have hkey : key b = key a := by simpa using List.find?_some hfound
    rw [List.inj_on_of_nodup_map hl (List.mem_of_find?_eq_some hfound) ha hkey]

omit [DecidableEq P] in
theorem ueByDuId_of_mem (hd : d.Sound) (hu : u ∈ d.ues) : d.ueByDuId u.duUeId = some u :=
  find?_key DuUe.duUeId hd.ids hu

theorem ueByPeer_of_mem (hd : d.Sound) (hu : u ∈ d.ues) : d.ueByPeer u.peer = some u :=
  find?_key DuUe.peer hd.peers hu

omit [DecidableEq P] in
theorem ueByDuId_none {duUeId : Nat} (h : ∀ u ∈ d.ues, u.duUeId ≠ duUeId) : d.ueByDuId duUeId = none :=
  List.find?_eq_none.mpr fun u hu => by simpa using h u hu

omit [DecidableEq P] in
theorem peerByCuId_none {cuUeId : Nat} (h : ∀ u ∈ d.ues, u.cuUeId ≠ some cuUeId) :
    d.peerByCuId cuUeId = none := by
  rw [peerByCuId, List.find?_eq_none.mpr fun u hu => by simpa using h u hu, Option.map_none]

omit [DecidableEq P] in
theorem peerByCuId_of_mem {cuUeId : Nat} (hu : u ∈ d.ues) (hcu : u.cuUeId = some cuUeId)
    (hsame : ∀ v ∈ d.ues, v.cuUeId = some cuUeId → v.peer = u.peer) :
    d.peerByCuId cuUeId = some u.peer := by
  rw [peerByCuId]
  cases hfound : d.ues.find? fun u => u.cuUeId = some cuUeId with
  | none =>
    have hne := List.find?_eq_none.mp hfound u hu
    simp [hcu] at hne
  | some v =>
    have hv : v.cuUeId = some cuUeId := by simpa using List.find?_some hfound
    rw [Option.map_some, hsame v (List.mem_of_find?_eq_some hfound) hv]

/-- The identities of an endpoint are those of its UE. -/
theorem idsByPeer_eq_some {peer : P} {duUeId cuUeId : Nat} (h : d.idsByPeer peer = some (duUeId, cuUeId)) :
    ∃ u ∈ d.ues, u.peer = peer ∧ u.duUeId = duUeId ∧ u.cuUeId = some cuUeId := by
  rw [idsByPeer, Option.bind_eq_bind] at h
  obtain ⟨u, hfound, h⟩ := Option.bind_eq_some_iff.mp h
  obtain ⟨cu, hcu, h⟩ := Option.bind_eq_some_iff.mp h
  rw [Option.pure_def, Option.some_inj, Prod.mk.injEq] at h
  obtain ⟨rfl, rfl⟩ := h
  exact ⟨u, List.mem_of_find?_eq_some hfound, by simpa using List.find?_some hfound, rfl, hcu⟩

/-- An endpoint without identities has no UE, or one that the CU has not addressed. -/
theorem idsByPeer_eq_none (hd : d.Sound) {peer : P} (h : d.idsByPeer peer = none) (hu : u ∈ d.ues)
    (hpeer : u.peer = peer) : u.cuUeId = none := by
  subst hpeer
  rw [idsByPeer, ueByPeer_of_mem hd hu] at h
  cases hcu : u.cuUeId with
  | none => rfl
  | some cuUeId => simp [hcu] at h

end Lookup

/-! ### What a message of the CU does -/

section Learn

omit [DecidableEq P]

theorem learn_eq_map {us : List (DuUe P)} (h : (us.map fun u => u.duUeId).Nodup) (cuUeId duUeId : Nat) :
    learn cuUeId duUeId us =
      us.map fun u => if u.duUeId = duUeId then { u with cuUeId := some cuUeId } else u := by
  induction us with
  | nil => rfl
  | cons u us ih =>
    rw [List.map_cons, List.nodup_cons] at h
    rw [learn, List.map_cons]
    split
    next hid =>
      have hrest : ∀ v ∈ us,
          (if v.duUeId = duUeId then { v with cuUeId := some cuUeId } else v) = v := by
        intro v hv
        rw [if_neg]
        rintro rfl
        exact h.1 (hid ▸ List.mem_map_of_mem hv)
      rw [List.map_congr_left hrest, List.map_id']
    next => rw [ih h.2]

theorem map_duUeId_learn (us : List (DuUe P)) (cuUeId duUeId : Nat) :
    (learn cuUeId duUeId us).map (fun u => u.duUeId) = us.map fun u => u.duUeId := by
  induction us with
  | nil => rfl
  | cons u us ih =>
    rw [learn]
    split
    · rfl
    · exact congrArg (u.duUeId :: ·) ih

theorem map_peer_learn (us : List (DuUe P)) (cuUeId duUeId : Nat) :
    (learn cuUeId duUeId us).map (fun u => u.peer) = us.map fun u => u.peer := by
  induction us with
  | nil => rfl
  | cons u us ih =>
    rw [learn]
    split
    · rfl
    · exact congrArg (u.peer :: ·) ih

/-- Where the UEs come from. -/
theorem mem_learn {us : List (DuUe P)} {cuUeId duUeId : Nat} {v : DuUe P}
    (h : v ∈ learn cuUeId duUeId us) :
    v ∈ us ∨ ∃ u ∈ us, u.duUeId = duUeId ∧ v = { u with cuUeId := some cuUeId } := by
  induction us with
  | nil => cases h
  | cons u us ih =>
    rw [learn] at h
    split at h
    next hid =>
      obtain rfl | h := List.mem_cons.mp h
      · exact .inr ⟨u, List.mem_cons_self, hid, rfl⟩
      · exact .inl (List.mem_cons_of_mem u h)
    next =>
      obtain rfl | h := List.mem_cons.mp h
      · exact .inl List.mem_cons_self
      · obtain h | ⟨u', hu', hid, rfl⟩ := ih h
        · exact .inl (List.mem_cons_of_mem u h)
        · exact .inr ⟨u', List.mem_cons_of_mem u hu', hid, rfl⟩

/-- A UE that knows the identity learns nothing. -/
theorem learn_known {us : List (DuUe P)} {u : DuUe P} (hids : (us.map fun u => u.duUeId).Nodup)
    (hu : u ∈ us) {cuUeId : Nat} (hcu : u.cuUeId = some cuUeId) : learn cuUeId u.duUeId us = us := by
  have hsame : ∀ v ∈ us, (if v.duUeId = u.duUeId then { v with cuUeId := some cuUeId } else v) = v := by
    intro v hv
    split
    next hid =>
      obtain rfl : v = u := List.inj_on_of_nodup_map hids hv hu hid
      rw [← hcu]
    next => rfl
  rw [learn_eq_map hids, List.map_congr_left hsame, List.map_id']

end Learn

/-- What reading a message does to the table: nothing, a UE learns its CU-UE-F1AP-ID, or the UEs with
one go. -/
inductive Reads (d : Du P) : F1Message → Du P → Prop where
  | same (m : F1Message) : Reads d m d
  | learned (cuUeId duUeId : Nat) (srbId : UInt8) (rrc : Bytes) :
      Reads d (.c (.dlRrcMessageTransfer cuUeId duUeId srbId rrc))
        { d with ues := learn cuUeId duUeId d.ues }
  | released (cuUeId duUeId : Nat) (cause : UInt8) (rrc : Option Bytes) :
      Reads d (.c (.ueContextReleaseCommand cuUeId duUeId cause rrc))
        { d with ues := d.ues.filter fun u => u.cuUeId ≠ some cuUeId }

theorem reads (d : Du P) (m : F1Message) : Reads d m (d.hear m).2 := by
  cases m with
  | u datagram =>
    rw [hear, read, handleF1uDownlink]
    split
    · split
      · exact .same _
      · exact .same _
    · exact .same _
  | c pdu =>
    cases pdu with
    | dlRrcMessageTransfer cuUeId duUeId srbId rrc =>
      rw [hear, read, handleF1ap]
      split
      · exact .same _
      · exact .learned cuUeId duUeId srbId rrc
    | ueContextSetupRequest cuUeId rrc =>
      rw [hear, read, handleF1ap]
      split
      · exact .same _
      · exact .same _
    | ueContextReleaseCommand cuUeId duUeId cause rrc => exact .released cuUeId duUeId cause rrc
    | _ => exact .same _

namespace Reads

variable {d e : Du P} {m : F1Message}

omit [DecidableEq P] in
theorem sound (h : Reads d m e) (hd : d.Sound) : e.Sound := by
  cases h with
  | same => exact hd
  | learned cuUeId duUeId srbId rrc =>
    refine ⟨?_, ?_, fun u hu => ?_, fun u hu => ?_⟩
    · rw [map_duUeId_learn]
      exact hd.ids
    · rw [map_peer_learn]
      exact hd.peers
    · obtain hu | ⟨u', hu', -, rfl⟩ := mem_learn hu
      · exact hd.used u hu
      · exact hd.used u' hu'
    · obtain hu | ⟨u', hu', -, rfl⟩ := mem_learn hu
      · exact hd.camped u hu
      · exact hd.camped u' hu'
  | released cuUeId duUeId cause rrc =>
    exact ⟨hd.ids.sublist (List.filter_sublist.map _), hd.peers.sublist (List.filter_sublist.map _),
      fun u hu => hd.used u (List.mem_of_mem_filter hu),
      fun u hu => hd.camped u (List.mem_of_mem_filter hu)⟩

end Reads

/-- What `d` says about the tables that it becomes by reading. -/
structure Leads (d e : Du P) : Prop where
  sound : d.Sound
  /-- No endpoint gets a UE. -/
  peers : ∀ v ∈ e.ues, ∃ u ∈ d.ues, u.peer = v.peer
  /-- A UE that the CU has not addressed was there. -/
  unlearned : ∀ v ∈ e.ues, v.cuUeId = none → v ∈ d.ues
  camped : e.camped = d.camped
  next : e.nextDuUeId = d.nextDuUeId

namespace Leads

variable {d d' e : Du P} {m : F1Message}

omit [DecidableEq P] in
protected theorem refl (hd : d.Sound) : Leads d d :=
  ⟨hd, fun v hv => ⟨v, hv, rfl⟩, fun _ hv _ => hv, rfl, rfl⟩

omit [DecidableEq P] in
theorem trans (h : Leads d d') (h' : Leads d' e) : Leads d e where
  sound := h.sound
  peers v hv := by
    obtain ⟨u', hu', hpeer'⟩ := h'.peers v hv
    obtain ⟨u, hu, hpeer⟩ := h.peers u' hu'
    exact ⟨u, hu, hpeer.trans hpeer'⟩
  unlearned v hv hcu := h.unlearned v (h'.unlearned v hv hcu) hcu
  camped := h'.camped.trans h.camped
  next := h'.next.trans h.next

omit [DecidableEq P] in
theorem of_reads (hd : d.Sound) (h : Reads d m e) : Leads d e := by
  cases h with
  | same => exact .refl hd
  | learned cuUeId duUeId srbId rrc =>
    refine ⟨hd, fun v hv => ?_, fun v hv hcu => ?_, rfl, rfl⟩
    · obtain hv | ⟨u, hu, -, rfl⟩ := mem_learn hv
      · exact ⟨v, hv, rfl⟩
      · exact ⟨u, hu, rfl⟩
    · obtain hv | ⟨u, -, -, rfl⟩ := mem_learn hv
      · exact hv
      · cases hcu
  | released cuUeId duUeId cause rrc =>
    exact ⟨hd, fun v hv => ⟨v, List.mem_of_mem_filter hv, rfl⟩,
      fun v hv _ => List.mem_of_mem_filter hv, rfl, rfl⟩

theorem hear (hd : d.Sound) (m : F1Message) : Leads d (d.hear m).2 := .of_reads hd (d.reads m)

end Leads

/-! ### What the endpoints get -/

section Hear

variable {d : Du P} {u : DuUe P}

/-- A UE that knows its identity gets its SRB messages, and the table stays. -/
theorem hear_srb (hd : d.Sound) (hu : u ∈ d.ues) {cuUeId : Nat} (hcu : u.cuUeId = some cuUeId)
    (srbId : UInt8) (rrc : Bytes) :
    d.hear (.c (.dlRrcMessageTransfer cuUeId u.duUeId srbId rrc)) = ([(u.peer, .srb srbId rrc)], d) := by
  simp only [Du.hear, read, handleF1ap, ueByDuId_of_mem hd hu, learn_known hd.ids hu hcu]

/-- A UE that the CU addresses for the first time learns its identity. -/
theorem hear_first (hd : d.Sound) (hu : u ∈ d.ues) (cuUeId : Nat) (srbId : UInt8) (rrc : Bytes) :
    d.hear (.c (.dlRrcMessageTransfer cuUeId u.duUeId srbId rrc)) =
      ([(u.peer, .srb srbId rrc)], { d with ues := learn cuUeId u.duUeId d.ues }) := by
  simp only [Du.hear, read, handleF1ap, ueByDuId_of_mem hd hu]

theorem hear_srb_unserved {duUeId : Nat} (h : ∀ u ∈ d.ues, u.duUeId ≠ duUeId) (cuUeId : Nat)
    (srbId : UInt8) (rrc : Bytes) :
    d.hear (.c (.dlRrcMessageTransfer cuUeId duUeId srbId rrc)) = ([], d) := by
  simp only [Du.hear, read, handleF1ap, ueByDuId_none h]

/-- A set-up request without an RRC message. -/
theorem hear_setUp (d : Du P) (cuUeId : Nat) : d.hear (.c (.ueContextSetupRequest cuUeId [])) = ([], d) := by
  simp only [Du.hear, read, handleF1ap]
  split
  · rfl
  · rfl

theorem hear_data (d : Du P) {cuUeId : Nat} (h : cuUeId < 2 ^ 24) (psi : UInt8) (sn : BitVec 32)
    {packet : Bytes} (hlen : packet.length + 20 ≤ F1U_BUFFER) :
    d.hear (.u (Gtpu.encapF1uDlUserData (f1uTeid cuUeId psi) sn packet)) =
      ((d.peerByCuId cuUeId).toList.map fun peer => (peer, .data psi packet), d) := by
  simp only [Du.hear, read, handleF1uDownlink_encap d h psi sn hlen]

theorem hear_page (d : Du P) {tmsi : Nat} (h : tmsi < 2 ^ 32) :
    d.hear (.c (.paging tmsi)) = (d.camped.map fun peer => (peer, .paging tmsi), d) := by
  simp only [Du.hear, read, handleF1ap, Nat.mod_eq_of_lt h]

theorem hear_release (d : Du P) (cuUeId duUeId : Nat) :
    d.hear (.c (.ueContextReleaseCommand cuUeId duUeId CAUSE_NORMAL_RELEASE none)) =
      ((d.peerByCuId cuUeId).toList.map fun peer => (peer, .released),
        { d with ues := d.ues.filter fun u => u.cuUeId ≠ some cuUeId }) := by
  simp only [Du.hear, read, handleF1ap]
  cases d.peerByCuId cuUeId with
  | none => rfl
  | some peer => rfl

/-- Who gets an SRB0 message knows its identity from then on. -/
theorem learned_of_srb0 (hd : d.Sound) {m : F1Message} {peer : P} {rrc : Bytes}
    (h : (peer, DlMessage.srb SRB0 rrc) ∈ (d.hear m).1) {v : DuUe P} (hv : v ∈ (d.hear m).2.ues)
    (hpeer : v.peer = peer) : v.cuUeId ≠ none := by
  cases m with
  | u datagram =>
    rw [Du.hear, read, handleF1uDownlink] at h
    split at h
    · split at h
      · cases h
      · cases List.mem_singleton.mp h
    · cases h
  | c pdu =>
    cases pdu with
    | dlRrcMessageTransfer cuUeId duUeId srbId rrc =>
      rw [Du.hear, read, handleF1ap] at h hv
      cases hfound : d.ueByDuId duUeId with
      | none =>
        simp only [hfound] at h
        cases h
      | some u =>
        have hu : u ∈ d.ues := List.mem_of_find?_eq_some hfound
        have hid : u.duUeId = duUeId := by simpa using List.find?_some hfound
        simp only [hfound] at h hv
        have hsame : peer = u.peer := congrArg Prod.fst (List.mem_singleton.mp h)
        rw [learn_eq_map hd.ids] at hv
        obtain ⟨u', hu', rfl⟩ := List.mem_map.mp hv
        split at hpeer
        next hid' => rw [if_pos hid']; exact Option.some_ne_none cuUeId
        next hid' =>
          rw [hsame] at hpeer
          exact absurd (hd.eq_of_peer hu' hu hpeer ▸ hid) hid'
    | ueContextSetupRequest cuUeId rrc =>
      rw [Du.hear, read, handleF1ap] at h
      split at h
      · cases h
      · dsimp only at h
        split at h
        · cases h
        · cases List.mem_singleton.mp h
    | ueContextReleaseCommand cuUeId duUeId cause rrc =>
      rw [Du.hear, read, handleF1ap] at h
      dsimp only at h
      split at h
      · obtain h | h := List.mem_append.mp h
        · obtain ⟨rrc, -, h⟩ := List.mem_map.mp h
          cases h
        · cases List.mem_singleton.mp h
      · cases h
    | paging tmsi =>
      obtain ⟨peer, -, h⟩ := List.mem_map.mp h
      cases h
    | _ => cases h

/-- The CU takes no notice of what the DU answers. -/
theorem receive_answer (t : F1Transport) {m m' : F1Message} (h : m' ∈ (d.read m).1.f1) :
    t.receive m' = (none, [], t) := by
  cases m with
  | u datagram =>
    rw [read, handleF1uDownlink] at h
    split at h
    · split at h
      · cases h
      · cases h
    · cases h
  | c pdu =>
    cases pdu with
    | dlRrcMessageTransfer cuUeId duUeId srbId rrc =>
      rw [read, handleF1ap] at h
      split at h
      · cases h
      · cases h
    | ueContextSetupRequest cuUeId rrc =>
      rw [read, handleF1ap] at h
      split at h
      · cases h
      · obtain ⟨u, -, rfl⟩ := List.mem_map.mp h
        rfl
    | ueContextReleaseCommand cuUeId duUeId cause rrc =>
      obtain rfl := List.mem_singleton.mp h
      rfl
    | _ => cases h

end Hear

/-! ### An endpoint opens a connection -/

end Du

/-- The message is for the UE. -/
def F1Message.concerns (u : DuUe P) : F1Message → Bool
  | .c (.dlRrcMessageTransfer _ duUeId _ _) => u.duUeId = duUeId
  | .c (.ueContextSetupRequest cuUeId _) => u.cuUeId = some cuUeId
  | .c (.ueContextReleaseCommand cuUeId _ _ _) => u.cuUeId = some cuUeId
  | .u datagram =>
      match Gtpu.parseNrRanContainer (datagram.take F1U_BUFFER) with
      | .ok (some (teid, _, _)) => u.cuUeId = some (splitTeid teid).1
      | _ => false
  | _ => false

def F1Message.isPage : F1Message → Bool
  | .c (.paging _) => true
  | _ => false

/-- A DL RRC message is for a UE with an identity below `n`. -/
def F1Message.Below (n : Nat) : F1Message → Prop
  | .c (.dlRrcMessageTransfer _ duUeId _ _) => duUeId < n
  | _ => True

namespace Du

section Camp

variable {d : Du P} {peer : P}

theorem sound_camp (hd : d.Sound) (hnext : d.nextDuUeId + 1 < 2 ^ 32) : (d.camp peer).Sound where
  ids := by
    rw [camp, List.map_append, List.nodup_append]
    refine ⟨hd.ids.sublist (List.filter_sublist.map _), List.nodup_singleton _, ?_⟩
    intro id hid id' hid' heq
    obtain ⟨u, hu, rfl⟩ := List.mem_map.mp hid
    rw [List.mem_singleton.mp hid'] at heq
    exact Nat.lt_irrefl _ (heq ▸ hd.used u (List.mem_of_mem_filter hu))
  peers := by
    rw [camp, List.map_append, List.nodup_append]
    refine ⟨hd.peers.sublist (List.filter_sublist.map _), List.nodup_singleton _, ?_⟩
    intro p hp p' hp' heq
    obtain ⟨u, hu, rfl⟩ := List.mem_map.mp hp
    rw [List.mem_singleton.mp hp'] at heq
    simpa [heq] using (List.mem_filter.mp hu).2
  used u hu := by
    rw [camp, Nat.mod_eq_of_lt hnext]
    obtain hu | hu := List.mem_append.mp hu
    · exact Nat.lt_succ_of_lt (hd.used u (List.mem_of_mem_filter hu))
    · rw [List.mem_singleton.mp hu]
      exact Nat.lt_succ_self _
  camped u hu := by
    have hcamped : ∀ p, p ∈ d.camped ∨ p = peer → p ∈ (d.camp peer).camped := by
      rintro p hp
      by_cases hpeer : peer ∈ d.camped
      · obtain hp | rfl := hp
        · simpa [camp, hpeer] using hp
        · simp [camp, hpeer]
      · simpa [camp, hpeer] using hp
    obtain hu | hu := List.mem_append.mp hu
    · exact hcamped u.peer (.inl (hd.camped u (List.mem_of_mem_filter hu)))
    · rw [List.mem_singleton.mp hu]
      exact hcamped peer (.inr rfl)

theorem mem_camp {v : DuUe P} :
    v ∈ (d.camp peer).ues ↔ (v ∈ d.ues ∧ v.peer ≠ peer) ∨ v = { duUeId := d.nextDuUeId, peer } := by
  rw [camp, List.mem_append, List.mem_filter, List.mem_singleton]
  simp

/-- What is looked up by something else is found as before. -/
theorem find?_camp {q : DuUe P → Bool} (hold : ∀ u ∈ d.ues, u.peer = peer → q u = false)
    (hnew : q { duUeId := d.nextDuUeId, peer } = false) :
    (d.camp peer).ues.find? q = d.ues.find? q := by
  have hfilter : ∀ us : List (DuUe P), (∀ u ∈ us, u.peer = peer → q u = false) →
      (us.filter fun u => u.peer ≠ peer).find? q = us.find? q := by
    intro us
    induction us with
    | nil => exact fun _ => rfl
    | cons u us ih =>
      intro hus
      obtain ⟨hu, hus⟩ := List.forall_mem_cons.mp hus
      by_cases hpeer : u.peer = peer
      · rw [List.filter_cons_of_neg (by simpa using hpeer), ih hus,
          List.find?_cons_of_neg (by simpa using hu hpeer)]
      · rw [List.filter_cons_of_pos (by simpa using hpeer), List.find?_cons, List.find?_cons, ih hus]
  rw [camp, List.find?_append, hfilter d.ues hold, List.find?_cons_of_neg (by simpa using hnew),
    List.find?_nil, Option.or_none]

/-- The others learn as before. -/
theorem learn_camp (hd : d.Sound) (hnext : d.nextDuUeId + 1 < 2 ^ 32) (cuUeId : Nat) {duUeId : Nat}
    (hne : d.nextDuUeId ≠ duUeId) :
    ({ d.camp peer with ues := learn cuUeId duUeId (d.camp peer).ues } : Du P) =
      camp { d with ues := learn cuUeId duUeId d.ues } peer := by
  have hues : learn cuUeId duUeId (d.camp peer).ues =
      (camp { d with ues := learn cuUeId duUeId d.ues } peer).ues := by
    rw [learn_eq_map (sound_camp hd hnext).ids, camp, camp, learn_eq_map hd.ids, List.map_append,
      List.map_singleton, if_neg hne, List.filter_map]
    congr 3
    funext u
    rw [Function.comp_apply]
    split
    · rfl
    · rfl
  rw [hues]
  rfl

theorem release_camp (cuUeId : Nat) :
    ({ d.camp peer with ues := (d.camp peer).ues.filter fun u => u.cuUeId ≠ some cuUeId } : Du P) =
      camp { d with ues := d.ues.filter fun u => u.cuUeId ≠ some cuUeId } peer := by
  have hues : ((d.camp peer).ues.filter fun u => u.cuUeId ≠ some cuUeId) =
      (camp { d with ues := d.ues.filter fun u => u.cuUeId ≠ some cuUeId } peer).ues := by
    rw [camp, camp, List.filter_append, List.filter_filter, List.filter_filter]
    congr 2
    funext u
    exact Bool.and_comm _ _
  rw [hues]
  rfl

/-- A message that does not concern the endpoint is read the same after the endpoint opens a
connection. -/
theorem hear_camp (hd : d.Sound) (hnext : d.nextDuUeId + 1 < 2 ^ 32) {m : F1Message}
    (hold : ∀ u ∈ d.ues, u.peer = peer → m.concerns u = false) (hbelow : m.Below d.nextDuUeId)
    (hpage : m.isPage = true → peer ∈ d.camped) :
    (d.camp peer).hear m = ((d.hear m).1, (d.hear m).2.camp peer) := by
  have hcu : ∀ cuUeId, (∀ u ∈ d.ues, u.peer = peer → u.cuUeId ≠ some cuUeId) →
      (d.camp peer).peerByCuId cuUeId = d.peerByCuId cuUeId := by
    intro cuUeId h
    rw [peerByCuId, peerByCuId, find?_camp (fun u hu hpeer => by simpa using h u hu hpeer) (by simp)]
  cases m with
  | u datagram =>
    simp only [Du.hear, read, handleF1uDownlink]
    cases hparse : Gtpu.parseNrRanContainer (datagram.take F1U_BUFFER) with
    | error err => rfl
    | ok found =>
      rcases found with _ | ⟨teid, container, pdcp⟩
      · rfl
      · dsimp only
        rw [hcu _ fun u hu hpeer => by
          have hother := hold u hu hpeer
          rw [F1Message.concerns, hparse] at hother
          simpa using hother]
        cases d.peerByCuId (splitTeid teid).1 with
        | none => rfl
        | some p => rfl
  | c pdu =>
    cases pdu with
    | dlRrcMessageTransfer cuUeId duUeId srbId rrc =>
      have hne : d.nextDuUeId ≠ duUeId := (Nat.ne_of_lt hbelow).symm
      have hfound : (d.camp peer).ueByDuId duUeId = d.ueByDuId duUeId :=
        find?_camp hold (by simpa using hne)
      simp only [Du.hear, read, handleF1ap, hfound]
      cases d.ueByDuId duUeId with
      | none => rfl
      | some u => rw [learn_camp hd hnext cuUeId hne]
    | ueContextSetupRequest cuUeId rrc =>
      have hfound := hcu cuUeId fun u hu hpeer => by
        simpa [F1Message.concerns] using hold u hu hpeer
      simp only [Du.hear, read, handleF1ap, hfound]
      cases d.peerByCuId cuUeId with
      | none => rfl
      | some p => rfl
    | ueContextReleaseCommand cuUeId duUeId cause rrc =>
      have hfound := hcu cuUeId fun u hu hpeer => by
        simpa [F1Message.concerns] using hold u hu hpeer
      simp only [Du.hear, read, handleF1ap, hfound, release_camp]
    | paging tmsi =>
      have hcamped : (d.camp peer).camped = d.camped := by
        simpa [camp] using hpage rfl
      simp only [Du.hear, read, handleF1ap, hcamped]
    | _ => rfl

/-- What reading a message does to the endpoint's UE, when it does not concern that. -/
theorem mem_of_hear {m : F1Message} (hold : ∀ u ∈ d.ues, u.peer = peer → m.concerns u = false)
    {v : DuUe P} (hv : v ∈ (d.hear m).2.ues) (hpeer : v.peer = peer) : v ∈ d.ues := by
  have hreads := d.reads m
  generalize (d.hear m).2 = e at hv hreads
  cases hreads with
  | same => exact hv
  | learned cuUeId duUeId srbId rrc =>
    obtain hv | ⟨u, hu, hid, rfl⟩ := mem_learn hv
    · exact hv
    · simp only [F1Message.concerns, decide_eq_false_iff_not] at hold
      exact absurd hid (hold u hu hpeer)
  | released => exact List.mem_of_mem_filter hv

/-- While messages that do not concern an endpoint are under way, the endpoint may open a connection. -/
theorem unnoticed_camp {ms : List F1Message} (hnext : d.nextDuUeId + 1 < 2 ^ 32)
    (hold : ∀ m ∈ ms, ∀ u ∈ d.ues, u.peer = peer → m.concerns u = false)
    (hbelow : ∀ m ∈ ms, m.Below d.nextDuUeId)
    (hpage : ∀ m ∈ ms, m.isPage = true → peer ∈ d.camped) :
    Inbox.Unnoticed Du.hear (fun e => e.camp peer)
      (fun e => e.Sound ∧ e.nextDuUeId = d.nextDuUeId ∧ e.camped = d.camped ∧
        ∀ u ∈ e.ues, u.peer = peer → u ∈ d.ues) ms where
  keeps e m hm he := by
    obtain ⟨hsound, hn, hcamped, hmem⟩ := he
    have hleads := Leads.hear hsound m
    refine ⟨(e.reads m).sound hsound, hleads.next.trans hn, hleads.camped.trans hcamped, ?_⟩
    intro v hv hpeer
    have hmem' := mem_of_hear (fun u hu hpeer => hold m hm u (hmem u hu hpeer) hpeer) hv hpeer
    exact hmem v hmem' hpeer
  same e m hm he := by
    obtain ⟨hsound, hn, hcamped, hmem⟩ := he
    refine hear_camp hsound (hn ▸ hnext) (fun u hu hpeer => hold m hm u (hmem u hu hpeer) hpeer) ?_ ?_
    · rw [hn]
      exact hbelow m hm
    · rw [hcamped]
      exact hpage m hm

/-- The same table leads to the other once the endpoint has opened a connection at both. -/
theorem Leads.camp {e : Du P} (h : Leads d e) (hnext : d.nextDuUeId + 1 < 2 ^ 32) (peer : P) :
    Leads (d.camp peer) (e.camp peer) where
  sound := sound_camp h.sound hnext
  peers v hv := by
    obtain ⟨hv, hne⟩ | rfl := mem_camp.mp hv
    · obtain ⟨u, hu, hpeer⟩ := h.peers v hv
      exact ⟨u, mem_camp.mpr (.inl ⟨hu, hpeer ▸ hne⟩), hpeer⟩
    · exact ⟨_, mem_camp.mpr (.inr rfl), rfl⟩
  unlearned v hv hcu := by
    obtain ⟨hv, hne⟩ | rfl := mem_camp.mp hv
    · exact mem_camp.mpr (.inl ⟨h.unlearned v hv hcu, hne⟩)
    · rw [h.next]
      exact mem_camp.mpr (.inr rfl)
  camped := by rw [Du.camp, Du.camp, h.camped]
  next := by rw [Du.camp, Du.camp, h.next]

end Camp

end Du

end Radian.Ran
