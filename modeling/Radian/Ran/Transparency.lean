import Radian.Ran.F1Link

/-!
# The F1 split is transparent

The CU over F1 with the DU beside a gNB core over the UDP Uu, with the same inputs, over every order in
which endpoints, AMF, UPF and the two ends of F1 take their steps.

- `Split` — the two gNBs, and what is on its way on F1.
- `Split.Allowed` — what is assumed of the endpoints and of the numbers.
- `Split.Heeds` — no session is set up for a UE whose endpoint has opened another connection, and nothing
  is on the way to an endpoint that opens one.
- `Split.Inv` — how the tables belong together.
- `transparent_of_heeds` — both say the same to the core network and to the endpoints.
- `not_transparent` — the CU's core serves a UE that the other has dropped.
-/

namespace Radian.Ran

open Security (Bytes)
open Inbox (drain Throughout Repeats)

variable {P : Type} [DecidableEq P]

/-- The UDP Uu of the CU and the DU; the endpoints of the CU's core are CU-UE-F1AP-IDs. -/
structure Split (P : Type) [DecidableEq P] where
  core : GnbState Nat := {}
  transport : F1Transport := {}
  du : Du P := {}
  /-- On the way to the CU, over F1-C and F1-U. -/
  up : List (Uplink P) := []
  /-- On the way to the DU. -/
  down : List F1Message := []
  /-- The core that serves the same endpoints over UDP. -/
  direct : GnbState P := {}
  /-- Which endpoint opened the connection of a CU-UE-F1AP-ID, if it has opened none since. -/
  reach : Nat → Option P := fun _ => none
  /-- The endpoints that wait for the RRCSetup. -/
  waiting : List P := []
  /-- Every session that was set up. -/
  log : List (Nat × SessionCtx) := []
  said : List (Output Empty) := []
  saidDirect : List (Output Empty) := []
  heard : List (P × DlMessage) := []
  heardDirect : List (P × DlMessage) := []

/-- A message of an endpoint to the DU, an NGAP PDU, an N3 datagram, or one end of F1 takes the next
message. -/
inductive SplitEvent (P : Type) where
  | uu (peer : P) (msg : UlMessage)
  | ngap (pdu : NgapPdu)
  | n3 (msg : N3Message)
  | up
  | down

def UlMessage.opens : UlMessage → Bool
  | .srb srbId _ => srbId = SRB0
  | _ => false

def DlMessage.isPage : DlMessage → Bool
  | .paging _ => true
  | _ => false

def DlMessage.isSetup : DlMessage → Bool
  | .srb srbId _ => srbId = SRB0
  | _ => false

/-- What an endpoint gets. -/
def heardBy (peer : P) (msgs : List (P × DlMessage)) : List DlMessage :=
  (msgs.filter fun m => m.1 = peer).map fun m => m.2

namespace Split

variable (F : Functions) (cfg : GnbState.GnbConfig)

/-- The two cores take an event each. -/
def serve (s : Split P) (e : Option (Event Nat)) (e' : Option (Event P)) : Split P :=
  let (out, core) := (e.bind (s.core.handle F cfg)).getD ([], s.core)
  let (out', direct) := (e'.bind (s.direct.handle F cfg)).getD ([], s.direct)
  let (sent, transport) := s.transport.sendAll (southbound out)
  { s with
    core, transport, direct
    down := s.down ++ sent
    log := s.log ++ ((e.map fun e => e.setUps F s.core).getD [])
    said := s.said ++ northbound out
    saidDirect := s.saidDirect ++ northbound out'
    heardDirect := s.heardDirect ++ southbound out' }

def step (s : Split P) : SplitEvent P → Split P
  | .uu peer msg =>
      let (f1, du) := s.du.handleUu peer msg
      { s with
        du
        up := s.up ++ [⟨f1, some (peer, msg)⟩]
        waiting := if msg.opens then peer :: s.waiting else s.waiting }
  | .ngap pdu => s.serve F cfg (some (.ngap pdu)) (some (.ngap pdu))
  | .n3 msg => s.serve F cfg (some (.n3 msg)) (some (.n3 msg))
  | .up =>
      match s.up with
      | [] => s
      | x :: up =>
          let s := { s with up }
          let e' := x.uu.map fun m => Event.uu m.1 m.2
          match x.f1 with
          | none => s.serve F cfg none e'
          | some m =>
              let (received, answers, transport) := s.transport.receive m
              let reach := match x.opening, received with
                | some (_, peer), some (cuUeId, _) => reassign s.reach cuUeId peer
                | _, _ => s.reach
              { s with transport, reach, down := s.down ++ answers }.serve F cfg
                (received.map fun (r : Nat × UlMessage) => Event.uu r.1 r.2) e'
  | .down =>
      match s.down with
      | [] => s
      | m :: down =>
          let (sent, du) := s.du.read m
          { s with
            du, down
            up := s.up ++ sent.f1.map fun answer => ⟨some answer, none⟩
            waiting := s.waiting.filter fun peer => !sent.uu.any fun m =>
              m.1 = peer && m.2.isSetup
            heard := s.heard ++ sent.uu }

/-- What is assumed: an endpoint opens a connection by an RRC Setup Request, and waits for the RRCSetup
before it goes on; messages are under 4000 octets; there are fewer than 2^24 UE contexts. -/
def Allowed (s : Split P) : SplitEvent P → Prop
  | .uu peer (.srb srbId payload) =>
      if srbId = SRB0 then (UlMessage.srb srbId payload).newUes F = 1 ∧ s.du.nextDuUeId < 2 ^ 24
      else peer ∉ s.waiting
  | .uu peer .idle => peer ∉ s.waiting
  | .uu peer (.data _ packet) => peer ∉ s.waiting ∧ packet.length < 4000
  | .ngap (.paging tmsi) => tmsi < 2 ^ 32
  | .ngap _ => True
  | .n3 (.gPdu _ _ payload) => payload.length < 4000
  | .n3 _ => True
  | .up => s.transport.nextCuUeId < 2 ^ 24
  | .down => True

/-- The UE of each session that an event sets up is one that its endpoint still uses, the endpoint that it
sends something to is not opening a connection, and there are TEIDs left. -/
def Current (s : Split P) (e : Event Nat) : Prop :=
  (∀ x ∈ e.setUps F s.core, ∀ ue ∈ s.core.ues.lookup x.1, (s.reach ue.peer).isSome) ∧
    (∀ cuUeId ∈ s.core.addressee F e, ∀ peer ∈ s.reach cuUeId, ∀ o ∈ openings s.up, o.2 ≠ peer) ∧
    s.log.length + (e.setUps F s.core).length < 2 ^ 32

/-- What is on its way does not meet an endpoint that is opening a connection. -/
def Heeds (s : Split P) : SplitEvent P → Prop
  | .uu peer msg => msg.opens →
      (∀ u ∈ s.du.ues, u.peer = peer → ∀ m ∈ s.down, m.concerns u = false) ∧
        (peer ∈ s.du.camped ∨ ∀ m ∈ s.down, m.isPage = false)
  | .ngap (.paging _) => s.core.camped = [] ∨ ∀ peer ∈ s.du.camped, peer ∈ s.direct.camped
  | .ngap pdu => s.Current F (.ngap pdu)
  | .n3 msg => s.Current F (.n3 msg)
  | .up => ∀ x ∈ s.up.head?,
      (∀ o ∈ x.opening, ∀ o' ∈ openings s.up.tail, o'.2 ≠ o.2) ∧
        (x.opening = none → ∀ m ∈ x.f1, ∀ r ∈ (s.transport.receive m).1, s.Current F (.uu r.1 r.2))
  | .down => True

/-- Both have said the same to the core network and, once the DU has read what is on its way, to each
endpoint, pages repeated or not. -/
def Transparent (s : Split P) : Prop :=
  s.said = s.saidDirect ∧ ∀ peer, Repeats (fun m => m.isPage)
    (heardBy peer (s.heard ++ (drain Du.hear s.du s.down).1)) (heardBy peer s.heardDirect)

/-- The DU once it has read what is on its way. -/
def settled (s : Split P) : Du P := (drain Du.hear s.du s.down).2

/-- The endpoints that the DU pages, and those that the two cores page. -/
structure Camped (du direct : List P) (core : List Nat) : Prop where
  once : du.Nodup
  onceDirect : direct.Nodup
  subset : ∀ peer ∈ direct, peer ∈ du
  nobody : core = [] ↔ direct = []

/-- How the tables belong together. -/
structure Inv (s : Split P) : Prop where
  link : Link F s.reach s.transport s.up s.settled
  tied : Throughout Du.hear (Tied s.reach s.settled) s.du s.down
  below : ∀ m ∈ s.down, m.Below s.du.nextDuUeId
  waiting : ∀ u ∈ s.du.ues, u.cuUeId = none → u.peer ∈ s.waiting
  counterpart : Counterpart s.reach s.core s.direct
  known : ∀ cuUeId, (s.core.byPeer.lookup cuUeId).isSome = (s.transport.duId cuUeId).isSome
  numbers : s.core.nextRanUeId = s.transport.nextCuUeId
  kept : World.Kept { state := s.core, log := s.log }
  keptDirect : World.Kept { state := s.direct, log := s.log }
  camped : Camped s.du.camped s.direct.camped s.core.camped
  transparent : s.Transparent

variable {F cfg} {s : Split P}

theorem Camped.camp {d : Du P} {direct : List P} {core : List Nat} (h : Camped d.camped direct core)
    (peer : P) : Camped (d.camp peer).camped direct core := by
  by_cases hpeer : peer ∈ d.camped
  · have hsame : (d.camp peer).camped = d.camped := by simp [Du.camp, hpeer]
    rw [hsame]
    exact h
  · have hmore : (d.camp peer).camped = d.camped ++ [peer] := by simp [Du.camp, hpeer]
    rw [hmore]
    refine ⟨?_, h.onceDirect, fun p hp => List.mem_append_left _ (h.subset p hp), h.nobody⟩
    rw [List.nodup_append]
    refine ⟨h.once, List.nodup_singleton _, ?_⟩
    rintro p hp _ hp' rfl
    exact hpeer (List.mem_singleton.mp hp' ▸ hp)

/-- An endpoint that the DU knows opens a connection at the cores. -/
theorem Camped.enter {du : List P} {core : GnbState Nat} {direct : GnbState P}
    (h : Camped du direct.camped core.camped) (cuUeId : Nat) {peer : P} (hpeer : peer ∈ du) :
    Camped du (direct.newUe peer).2.camped (core.newUe cuUeId).2.camped where
  once := h.once
  onceDirect := by
    rw [GnbState.newUe]
    dsimp only
    split
    next => exact h.onceDirect
    next hnew =>
      rw [List.nodup_append]
      refine ⟨h.onceDirect, List.nodup_singleton _, ?_⟩
      rintro p hp _ hp' rfl
      rw [List.mem_singleton.mp hp'] at hp
      exact hnew (List.contains_iff_mem.mpr hp)
  subset p hp := by
    rw [GnbState.newUe] at hp
    dsimp only at hp
    split at hp
    next => exact h.subset p hp
    next =>
      obtain hp | hp := List.mem_append.mp hp
      · exact h.subset p hp
      · exact List.mem_singleton.mp hp ▸ hpeer
  nobody := by
    have hsome : ∀ {Q : Type} [DecidableEq Q] (s : GnbState Q) (q : Q), (s.newUe q).2.camped ≠ [] := by
      intro Q _ s q
      rw [GnbState.newUe]
      dsimp only
      split
      next hin => exact List.ne_nil_of_mem (List.contains_iff_mem.mp hin)
      next => exact List.append_ne_nil_of_right_ne_nil _ (List.cons_ne_nil _ _)
    exact iff_of_false (hsome core cuUeId) (hsome direct peer)

theorem heardBy_append (peer : P) (msgs msgs' : List (P × DlMessage)) :
    heardBy peer (msgs ++ msgs') = heardBy peer msgs ++ heardBy peer msgs' := by
  rw [heardBy, List.filter_append, List.map_append]
  rfl

theorem DlMessage.eq_of_isSetup {msg : DlMessage} (h : msg.isSetup = true) :
    ∃ rrc, msg = .srb SRB0 rrc := by
  cases msg with
  | srb srbId rrc => exact ⟨rrc, by rw [of_decide_eq_true h]⟩
  | _ => cases h

theorem Inv.sound (h : s.Inv F) : s.du.Sound := h.tied.now.leads.sound

theorem Inv.sound_settled (h : s.Inv F) : s.settled.Sound := h.tied.last.leads.sound

/-! ### The DU takes a message -/

theorem Inv.down (h : s.Inv F) : (s.step F cfg .down).Inv F := by
  rw [step]
  split
  next => exact h
  next m down hdown =>
    have hsound := h.sound
    have hleads := Du.Leads.hear hsound m
    have hsettled : (drain Du.hear (s.du.hear m).2 down).2 = s.settled := by
      rw [settled, hdown, Inbox.drain_cons]
    obtain ⟨link, tied, below, waiting, counterpart, known, numbers, kept, keptDirect, camped,
      said, heard⟩ := h
    rw [hdown] at tied below heard
    constructor
    · change Link F s.reach s.transport _ (drain Du.hear (s.du.hear m).2 down).2
      rw [hsettled]
      exact link.push_answers fun answer hanswer t => s.du.receive_answer t hanswer
    · change Throughout Du.hear (Tied s.reach (drain Du.hear (s.du.hear m).2 down).2)
        (s.du.hear m).2 down
      rw [hsettled]
      exact tied.2
    · intro m' hm'
      change m'.Below (s.du.hear m).2.nextDuUeId
      rw [hleads.next]
      exact below m' (List.mem_cons_of_mem m hm')
    · intro u hu hcu
      refine List.mem_filter.mpr ⟨waiting u (hleads.unlearned u hu hcu) hcu, ?_⟩
      rw [Bool.not_eq_true', List.any_eq_false]
      intro got hgot hsetup
      obtain ⟨hpeer, hsetup⟩ := (Bool.and_eq_true _ _).mp hsetup
      obtain ⟨rrc, hrrc⟩ := DlMessage.eq_of_isSetup hsetup
      have hheard : (u.peer, DlMessage.srb SRB0 rrc) ∈ (s.du.hear m).1 := by
        rw [← hrrc, ← of_decide_eq_true hpeer]
        exact hgot
      exact Du.learned_of_srb0 hsound hheard hu rfl hcu
    · exact counterpart
    · exact known
    · exact numbers
    · exact kept
    · exact keptDirect
    · change Camped (s.du.hear m).2.camped s.direct.camped s.core.camped
      rw [hleads.camped]
      exact camped
    · refine ⟨said, fun peer => ?_⟩
      have hpeer := heard peer
      rw [Inbox.drain_cons, ← List.append_assoc] at hpeer
      exact hpeer

/-! ### An endpoint sends -/

theorem Below.mono {n n' : Nat} {m : F1Message} (h : m.Below n) (hle : n ≤ n') : m.Below n' := by
  cases m with
  | u datagram => trivial
  | c pdu =>
    cases pdu with
    | dlRrcMessageTransfer cuUeId duUeId srbId rrc => exact Nat.lt_of_lt_of_le h hle
    | _ => trivial

/-- An endpoint that does not wait is not opening a connection. -/
theorem Inv.free (h : s.Inv F) {peer : P} (hpeer : peer ∉ s.waiting) : ∀ o ∈ openings s.up, o.2 ≠ peer := by
  rintro o ho rfl
  obtain ⟨u, hu, hsame, hcu⟩ := h.link.opening o ho
  exact hpeer (hsame ▸ h.waiting u (h.tied.now.leads.unlearned u hu hcu) hcu)

/-- An endpoint that does not wait and has no identities has no UE at the CU. -/
theorem Inv.gone (h : s.Inv F) {peer : P} (hpeer : peer ∉ s.waiting) (hids : s.du.idsByPeer peer = none) :
    ∀ cuUeId, s.reach cuUeId = some peer → s.transport.duId cuUeId = none := by
  intro cuUeId hreach
  cases hid : s.transport.duId cuUeId with
  | none => rfl
  | some duUeId =>
    have hserved := h.link.served cuUeId duUeId peer hid hreach (h.free hpeer)
    obtain ⟨u, hu, hsame⟩ := h.tied.now.leads.peers _ hserved
    have hcu := Du.idsByPeer_eq_none h.sound hids hu hsame
    have hwaiting := h.waiting u hu hcu
    rw [hsame] at hwaiting
    exact absurd hwaiting hpeer

/-- What the DU makes of a message that opens no connection is what the CU takes for it. -/
theorem Inv.relays (h : s.Inv F) {peer : P} (hpeer : peer ∉ s.waiting) {msg : UlMessage}
    (hopens : msg.opens = false) (hlen : ∀ psi packet, msg = .data psi packet → packet.length < 4000) :
    ∃ f1, s.du.handleUu peer msg = (f1, s.du) ∧
      Uplink.Sound F s.reach s.transport.duId ⟨f1, some (peer, msg)⟩ ∧
      Uplink.opening ⟨f1, some (peer, msg)⟩ = none := by
  have hnew : msg.newUes F = 0 := by
    cases msg with
    | srb srbId payload => rw [UlMessage.newUes, if_neg (of_decide_eq_false hopens)]
    | idle => rfl
    | data psi packet => rfl
  cases hids : s.du.idsByPeer peer with
  | none =>
    refine ⟨none, ?_, .dropped (h.gone hpeer hids) hnew, rfl⟩
    cases msg with
    | srb srbId payload =>
      have hne : srbId ≠ 0 := of_decide_eq_false hopens
      simp only [Du.handleUu, if_neg hne, hids, Option.map_none]
    | idle => simp only [Du.handleUu, hids, Option.map_none]
    | data psi packet => simp only [Du.handleUu, hids, Option.map_none]
  | some ids =>
    obtain ⟨duUeId, cuUeId⟩ := ids
    obtain ⟨u, hu, rfl, rfl, hcu⟩ := Du.idsByPeer_eq_some hids
    have hreach := h.tied.now.addressed u hu cuUeId hcu
    have hlt : cuUeId < 2 ^ 24 := Nat.lt_of_lt_of_le
      (h.link.reached cuUeId (Option.isSome_iff_exists.mpr ⟨_, hreach⟩)) h.link.few
    have hrelayed : ∀ m, s.du.handleUu u.peer msg = (some m, s.du) →
        (∀ t : F1Transport, t.receive m = (some (cuUeId, msg), [], t)) →
        ∃ f1, s.du.handleUu u.peer msg = (f1, s.du) ∧
          Uplink.Sound F s.reach s.transport.duId ⟨f1, some (u.peer, msg)⟩ ∧
          Uplink.opening ⟨f1, some (u.peer, msg)⟩ = none :=
      fun m hm hreceive => ⟨some m, hm, .relayed hreceive hreach hnew, opening_relayed hreceive _⟩
    cases msg with
    | srb srbId payload =>
      have hne : srbId ≠ 0 := of_decide_eq_false hopens
      refine hrelayed (.c (.ulRrcMessageTransfer cuUeId u.duUeId srbId payload)) ?_ fun t => rfl
      simp only [Du.handleUu, if_neg hne, hids, Option.map_some]
    | idle =>
      refine hrelayed (.c (.ueContextReleaseRequest cuUeId u.duUeId CAUSE_NORMAL_RELEASE)) ?_
        fun t => rfl
      simp only [Du.handleUu, hids, Option.map_some]
    | data psi packet =>
      refine hrelayed (.u (Gtpu.encap (f1uTeid cuUeId psi) packet)) ?_ fun t => ?_
      · simp only [Du.handleUu, hids, Option.map_some]
      · have hfits : packet.length + 8 ≤ F1U_BUFFER :=
          le_trans (Nat.add_le_add_right (Nat.le_of_lt (hlen psi packet rfl)) 8) (by decide)
        rw [F1Transport.receive, F1Transport.handleF1u_encap hlt psi hfits]

theorem Inv.uu_relayed (h : s.Inv F) {peer : P} (hpeer : peer ∉ s.waiting) {msg : UlMessage}
    (hopens : msg.opens = false) (hlen : ∀ psi packet, msg = .data psi packet → packet.length < 4000) :
    (s.step F cfg (.uu peer msg)).Inv F := by
  obtain ⟨f1, hf1, hsound, hopening⟩ := h.relays hpeer hopens hlen
  have hfree := h.free hpeer
  rw [step, hf1, hopens]
  obtain ⟨link, tied, below, waiting, counterpart, known, numbers, kept, keptDirect, camped,
    transparent⟩ := h
  refine ⟨link.push hsound hopening ?_, tied, below, waiting, counterpart, known, numbers, kept,
    keptDirect, camped, transparent⟩
  intro p m hm
  obtain ⟨rfl, -⟩ := Prod.mk.inj (Option.some_inj.mp hm)
  exact hfree

theorem Inv.uu_opens (h : s.Inv F) {peer : P} {rrc : Bytes}
    (hnew : (UlMessage.srb SRB0 rrc).newUes F = 1) (hfew : s.du.nextDuUeId < 2 ^ 24)
    (hold : ∀ u ∈ s.du.ues, u.peer = peer → ∀ m ∈ s.down, m.concerns u = false)
    (hpage : peer ∈ s.du.camped ∨ ∀ m ∈ s.down, m.isPage = false) :
    (s.step F cfg (.uu peer (.srb SRB0 rrc))).Inv F := by
  have hnext : s.du.nextDuUeId + 1 < 2 ^ 32 := by omega
  have hpages : ∀ m ∈ s.down, m.isPage = true → peer ∈ s.du.camped := by
    intro m hm hm'
    obtain hin | hnone := hpage
    · exact hin
    · rw [hnone m hm] at hm'
      cases hm'
  have hunnoticed := Du.unnoticed_camp hnext (fun m hm u hu hpeer => hold u hu hpeer m hm) h.below hpages
  have hnow : s.du.Sound ∧ s.du.nextDuUeId = s.du.nextDuUeId ∧ s.du.camped = s.du.camped ∧
      ∀ u ∈ s.du.ues, u.peer = peer → u ∈ s.du.ues := ⟨h.sound, rfl, rfl, fun u hu _ => hu⟩
  have hdrain : drain Du.hear (s.du.camp peer) s.down =
      ((drain Du.hear s.du s.down).1, s.settled.camp peer) := hunnoticed.drain_eq hnow
  have hsame : s.settled.nextDuUeId = s.du.nextDuUeId := h.tied.now.leads.next
  obtain ⟨link, tied, below, waiting, counterpart, known, numbers, kept, keptDirect, camped,
    said, heard⟩ := h
  have hstep : s.step F cfg (.uu peer (.srb SRB0 rrc)) =
      { s with
        du := s.du.camp peer
        up := s.up ++ [⟨some (.c (.initialUlRrcMessageTransfer s.du.nextDuUeId s.du.nextCRnti rrc)),
          some (peer, .srb SRB0 rrc)⟩]
        waiting := peer :: s.waiting } := rfl
  rw [hstep]
  constructor
  · change Link F s.reach s.transport _ (drain Du.hear (s.du.camp peer) s.down).2
    rw [hdrain, ← hsame]
    exact link.camp (hsame ▸ hnext) s.du.nextCRnti peer hnew
  · change Throughout Du.hear (Tied s.reach (drain Du.hear (s.du.camp peer) s.down).2)
      (s.du.camp peer) s.down
    rw [hdrain]
    refine hunnoticed.throughout hnow (tied.mono fun e he => he.camp ?_ peer)
    rw [← he.leads.next, hsame]
    exact hnext
  · intro m hm
    change m.Below ((s.du.nextDuUeId + 1) % 2 ^ 32)
    rw [Nat.mod_eq_of_lt hnext]
    exact Below.mono (below m hm) (Nat.le_succ _)
  · intro u hu hcu
    obtain ⟨hu, -⟩ | rfl := Du.mem_camp.mp hu
    · exact List.mem_cons_of_mem peer (waiting u hu hcu)
    · exact List.mem_cons_self
  · exact counterpart
  · exact known
  · exact numbers
  · exact kept
  · exact keptDirect
  · exact camped.camp peer
  · refine ⟨said, fun p => ?_⟩
    change Repeats _ (heardBy p (s.heard ++ (drain Du.hear (s.du.camp peer) s.down).1)) _
    rw [hdrain]
    exact heard p

/-! ### The cores take an event -/

theorem Sends.camped {Q : Type} [DecidableEq Q] {core core' : GnbState Q} {limit : Nat} {target : Option Q}
    {msgs : List (Q × DlMessage)} (h : Sends core limit target msgs core') :
    core'.camped = core.camped := by
  cases h with
  | nothing _ hcamped => exact hcamped
  | messages _ _ _ _ _ hcamped => exact hcamped
  | release _ _ _ _ _ hcamped => exact hcamped

theorem Moves.nextRanUeId {Q : Type} [DecidableEq Q] {core core' : GnbState Q}
    {new : List (Nat × SessionCtx)} {announced : List (Nat × UInt8 × Nat)}
    (h : Moves core core' new announced 0) : core'.nextRanUeId = core.nextRanUeId := by
  cases h with
  | stay => rfl
  | rewrite _ _ _ _ _ _ _ _ hnextUe => exact hnextUe
  | leave _ _ _ hnextUe => exact hnextUe

/-- What the CU sends now comes behind what is on its way. -/
theorem Inv.settles (h : s.Inv F) {reach : Nat → Option P} {t : F1Transport} {up : List (Uplink P)}
    {sent : List F1Message} {heard : List (P × DlMessage)} {d : Du P}
    (hsettles : Settles F reach t up s.settled sent heard d)
    (htied : ∀ e, Tied s.reach s.settled e → Tied reach d e) :
    drain Du.hear s.du (s.down ++ sent) = ((drain Du.hear s.du s.down).1 ++ heard, d) ∧
      Throughout Du.hear (Tied reach d) s.du (s.down ++ sent) := by
  constructor
  · rw [Inbox.drain_append]
    change ((drain Du.hear s.du s.down).1 ++ (drain Du.hear s.settled sent).1,
      (drain Du.hear s.settled sent).2) = _
    rw [hsettles.drain]
  · exact (h.tied.mono htied).append hsettles.tied

theorem Inv.below_sent (h : s.Inv F) (msgs : List (Nat × DlMessage)) :
    ∀ m ∈ s.down ++ (s.transport.sendAll msgs).1, m.Below s.du.nextDuUeId := by
  rw [List.forall_mem_append]
  refine ⟨h.below, F1Transport.below_sendAll msgs fun cuUeId duUeId hid => ?_⟩
  rw [← h.tied.now.leads.next]
  exact (h.link.known cuUeId duUeId hid).2

theorem Inv.serve (h : s.Inv F) (hF : F.algorithms.KeepsLength) (cfg : GnbState.GnbConfig) {e : Event Nat}
    {e' : Event P} (hsame : GnbState.SameEvent s.reach e e') (hpage : ∀ tmsi, e ≠ .ngap (.paging tmsi))
    (hnew : e.newUes F = 0) (hlen : e.dataLength < 4000) (hcurrent : s.Current F e) :
    (s.serve F cfg (some e) (some e')).Inv F := by
  obtain ⟨hreached, hfree, hteids⟩ := hcurrent
  have hrouted : s.core.Routed := fun ranUeId ue x hue hx => h.kept.sessionByDlTeid hue hx
  have hroutedDirect : s.direct.Routed := fun ranUeId ue x hue hx => h.keptDirect.sessionByDlTeid hue hx
  have hmirrors : Mirrors s.reach (s.core.handle F cfg e) (s.direct.handle F cfg e') :=
    GnbState.mirrors_handle h.counterpart h.kept.peers h.keptDirect.peers hrouted hroutedDirect
      h.link.one hsame hpage hnew hreached
  obtain ⟨out, core, out', direct, hcore, hdirect, hnorth, hsouth, hcounterpart⟩ := hmirrors
  have hserve : s.serve F cfg (some e) (some e') =
      { s with
        core, direct
        transport := (s.transport.sendAll (southbound out)).2
        down := s.down ++ (s.transport.sendAll (southbound out)).1
        log := s.log ++ e.setUps F s.core
        said := s.said ++ northbound out
        saidDirect := s.saidDirect ++ northbound out'
        heardDirect := s.heardDirect ++ southbound out' } := by
    simp only [Split.serve, Option.bind_some, hcore, hdirect, Option.getD_some, Option.map_some]
  have hpage' : ∀ tmsi, e' ≠ .ngap (.paging tmsi) := by
    cases hsame with
    | ngap pdu => exact fun tmsi hpdu => hpage tmsi (congrArg _ (Event.ngap.inj hpdu))
    | uu _ msg => exact fun tmsi hpdu => nomatch hpdu
    | n3 msg => exact fun tmsi hpdu => nomatch hpdu
  have hnew' : e'.newUes F = 0 := by
    cases hsame with
    | ngap pdu => rfl
    | uu _ msg => exact hnew
    | n3 msg => rfl
  have hsends := GnbState.sends_handle h.kept.peers hF hpage hnew hcore
  have hsendsDirect := GnbState.sends_handle h.keptDirect.peers hF hpage' hnew' hdirect
  have hlimit : e.dataLength + 8 + 20 ≤ F1U_BUFFER := by
    rw [F1U_BUFFER]
    omega
  obtain ⟨d, hsettles, hknown, hnext⟩ := h.link.sends h.sound_settled h.known
    (fun cuUeId hto peer hreach => hfree cuUeId hto peer hreach) hlimit hsends
  obtain ⟨hdrain, htied⟩ := h.settles hsettles fun _ he => he.trans hsettles.tied.now.leads
  have hmoves := World.moves_handle e hcore
  have hmovesDirect := World.moves_handle e' hdirect
  rw [GnbState.setUps_counterpart h.counterpart hsame hreached] at hmovesDirect
  rw [hnew] at hmoves
  have hroom : s.core.nextRanUeId + 1 < 2 ^ 32 := by
    have hfew := h.link.few
    rw [h.numbers]
    omega
  have hroomDirect : s.direct.nextRanUeId + 1 < 2 ^ 32 := by
    rw [h.counterpart.nextRanUeId]
    exact hroom
  rw [hserve]
  constructor
  · change Link F s.reach _ s.up
      (drain Du.hear s.du (s.down ++ (s.transport.sendAll (southbound out)).1)).2
    rw [hdrain]
    exact hsettles.link
  · change Throughout Du.hear
      (Tied s.reach (drain Du.hear s.du (s.down ++ (s.transport.sendAll (southbound out)).1)).2) s.du _
    rw [hdrain]
    exact htied
  · exact h.below_sent (southbound out)
  · exact h.waiting
  · exact hcounterpart
  · exact hknown
  · exact (Moves.nextRanUeId hmoves).trans (h.numbers.trans hnext.symm)
  · exact h.kept.moves hmoves hteids hroom
  · exact h.keptDirect.moves hmovesDirect hteids hroomDirect
  · change Camped s.du.camped direct.camped core.camped
    rw [Sends.camped hsends, Sends.camped hsendsDirect]
    exact h.camped
  · obtain ⟨hsaid, hheard⟩ := h.transparent
    refine ⟨?_, fun peer => ?_⟩
    · change s.said ++ northbound out = s.saidDirect ++ northbound out'
      rw [hsaid, hnorth]
    · change Repeats _ (heardBy peer (s.heard ++
        (drain Du.hear s.du (s.down ++ (s.transport.sendAll (southbound out)).1)).1))
        (heardBy peer (s.heardDirect ++ southbound out'))
      rw [hdrain, hsouth, ← List.append_assoc, heardBy_append peer (s.heard ++ _),
        heardBy_append peer s.heardDirect]
      exact (hheard peer).append (.refl _)

/-- A message that the CU does not know the endpoint of is none for the other core either. -/
theorem serve_dropped (h : s.Inv F) {peer : P} {msg : UlMessage} (hnew : msg.newUes F = 0)
    (hgone : ∀ cuUeId, s.reach cuUeId = some peer → s.transport.duId cuUeId = none) :
    s.serve F cfg none (some (.uu peer msg)) = s := by
  have hby : s.direct.byPeer.lookup peer = none := by
    rw [Option.eq_none_iff_forall_not_mem]
    intro ranUeId hran
    obtain ⟨ctx, hctx, rfl⟩ := (h.keptDirect.peers ranUeId peer).mp hran
    obtain ⟨ue, hue, hreach, -⟩ := h.counterpart.exists_of_lookup hctx
    have hcu := GnbState.Paired.lookup_isSome h.kept.peers hue
    rw [h.known, hgone ue.peer hreach] at hcu
    cases hcu
  have hhandle : s.direct.handle F cfg (.uu peer msg) = some ([], s.direct) := by
    rw [GnbState.handle]
    cases msg with
    | srb srbId payload =>
      by_cases hsrb0 : srbId = SRB0
      · simp only [UlMessage.newUes, if_pos hsrb0] at hnew
        cases hread : F.parseUlCcch payload with
        | none => simp only [GnbState.handleUu, if_pos hsrb0, hread]
        | some request =>
          rw [hread] at hnew
          cases request with
          | rrcSetupRequest => cases hnew
          | other => simp only [GnbState.handleUu, if_pos hsrb0, hread]
      · simp only [GnbState.handleUu, if_neg hsrb0, hby, ite_self]
    | idle =>
      have hids : s.direct.ueIdsForPeer peer = none := by
        simp only [GnbState.ueIdsForPeer, hby, Option.bind_eq_bind, Option.bind_none]
      simp only [GnbState.handleUu, hids]
    | data psi packet =>
      have hsession : s.direct.uplinkSession peer psi = none := by
        simp only [GnbState.uplinkSession, hby, Option.bind_eq_bind, Option.bind_none]
      simp only [GnbState.handleUu, hsession]
  simp only [Split.serve, Option.bind_none, Option.bind_some, hhandle, Option.getD_none, Option.getD_some,
    Option.map_none, southbound_nil, northbound_nil, F1Transport.sendAll, List.append_nil]

theorem serve_none (s : Split P) : s.serve F cfg none none = s := by
  simp only [Split.serve, Option.bind_none, Option.getD_none, Option.map_none, southbound_nil,
    northbound_nil, F1Transport.sendAll, List.append_nil]

/-! ### Pages -/

theorem heardBy_once {peers : List P} (hpeers : peers.Nodup) (peer : P) (msg : DlMessage) :
    heardBy peer (peers.map fun p => (p, msg)) = if peer ∈ peers then [msg] else [] := by
  induction peers with
  | nil => rfl
  | cons p peers ih =>
    obtain ⟨hp, hpeers⟩ := List.nodup_cons.mp hpeers
    rw [List.map_cons, ← List.singleton_append, heardBy_append, ih hpeers]
    by_cases hpeer : p = peer
    · subst hpeer
      simp [heardBy, hp]
    · simp [heardBy, hpeer, Ne.symm hpeer]

theorem heardBy_repeated (core : List Nat) (peer : P) (msgs : List (P × DlMessage)) :
    heardBy peer (core.flatMap fun _ => msgs) =
      (List.replicate core.length (heardBy peer msgs)).flatten := by
  induction core with
  | nil => rfl
  | cons cuUeId core ih =>
    rw [List.flatMap_cons, heardBy_append, ih, List.length_cons, List.replicate_succ, List.flatten_cons]

/-- The DU pages each endpoint as often as the CU's core has camped UEs. -/
theorem Camped.pages {du direct : List P} {core : List Nat} (h : Camped du direct core)
    (hcamped : core = [] ∨ ∀ peer ∈ du, peer ∈ direct) (peer : P) (tmsi : Nat) :
    Repeats (fun m => m.isPage)
      (heardBy peer (core.flatMap fun _ => du.map fun p => (p, .paging tmsi)))
      (heardBy peer (direct.map fun p => (p, .paging tmsi))) := by
  rw [heardBy_repeated, heardBy_once h.once, heardBy_once h.onceDirect]
  cases core with
  | nil =>
    rw [h.nobody.mp rfl, if_neg List.not_mem_nil]
    exact .nil
  | cons cuUeId core =>
    have hsame : peer ∈ du ↔ peer ∈ direct := by
      obtain hnil | hin := hcamped
      · cases hnil
      · exact ⟨hin peer, h.subset peer⟩
    by_cases hpeer : peer ∈ direct
    · rw [if_pos hpeer, if_pos (hsame.mpr hpeer), List.flatten_replicate_singleton]
      refine Repeats.replicate ?_ core.length
      rfl
    · rw [if_neg hpeer, if_neg (hsame.not.mpr hpeer), List.flatten_replicate_nil]
      exact .nil

theorem Inv.page (h : s.Inv F) {tmsi : Nat} (htmsi : tmsi < 2 ^ 32)
    (hcamped : s.core.camped = [] ∨ ∀ peer ∈ s.du.camped, peer ∈ s.direct.camped) :
    (s.step F cfg (.ngap (.paging tmsi))).Inv F := by
  obtain ⟨hsettles, hsame⟩ := h.link.pages h.sound_settled s.core.camped htmsi
  obtain ⟨hdrain, htied⟩ := h.settles hsettles fun _ he => he
  have hstep : s.step F cfg (.ngap (.paging tmsi)) =
      { s with
        down := s.down ++ (s.transport.sendAll (s.core.camped.map fun cu => (cu, .paging tmsi))).1
        heardDirect := s.heardDirect ++ s.direct.camped.map fun peer => (peer, .paging tmsi) } := by
    simp only [Split.step, Split.serve, GnbState.handle, GnbState.handleNgap, Option.bind_some,
      Option.getD_some, Option.map_some, Event.setUps, GnbState.setUps, southbound_map_uu,
      northbound_map_uu, List.append_nil, hsame]
  have hbelow := h.below_sent (s.core.camped.map fun cu => (cu, .paging tmsi))
  rw [hstep]
  refine ⟨?_, ?_, hbelow, h.waiting, h.counterpart, h.known, h.numbers, h.kept, h.keptDirect, h.camped,
    h.transparent.1, fun peer => ?_⟩
  · change Link F s.reach s.transport s.up (drain Du.hear s.du (s.down ++ _)).2
    rw [hdrain]
    exact h.link
  · change Throughout Du.hear (Tied s.reach (drain Du.hear s.du (s.down ++ _)).2) s.du _
    rw [hdrain]
    exact htied
  · change Repeats _ (heardBy peer (s.heard ++ (drain Du.hear s.du (s.down ++ _)).1))
      (heardBy peer (s.heardDirect ++ _))
    rw [hdrain, ← List.append_assoc, heardBy_append peer (s.heard ++ _), heardBy_append peer s.heardDirect,
      h.tied.now.leads.camped]
    exact (h.transparent.2 peer).append (h.camped.pages hcamped peer tmsi)

/-! ### The CU takes a message -/

/-- The CU takes something other than an opening. -/
theorem Inv.pop (h : s.Inv F) {x : Uplink P} {up : List (Uplink P)} (hup : s.up = x :: up)
    (hx : x.opening = none) : Split.Inv F { s with up } := by
  obtain ⟨link, tied, below, waiting, counterpart, known, numbers, kept, keptDirect, camped,
    transparent⟩ := h
  rw [hup] at link
  exact ⟨link.pop hx, tied, below, waiting, counterpart, known, numbers, kept, keptDirect, camped,
    transparent⟩

theorem handle_opens {Q : Type} [DecidableEq Q] (core : GnbState Q) (peer : Q) {rrc : Bytes}
    (hnew : (UlMessage.srb SRB0 rrc).newUes F = 1) :
    core.handle F cfg (.uu peer (.srb SRB0 rrc)) =
      some ([.uu peer (.srb SRB0 (F.rrcSetup 0 [0x00]))], (core.newUe peer).2) := by
  simp only [UlMessage.newUes, if_true] at hnew
  split at hnew
  next identity cause hparse => simp only [GnbState.handle, GnbState.handleUu, if_true, hparse]
  next => cases hnew

theorem Inv.up_opens (h : s.Inv F) {duUeId : Nat} {cRnti : UInt16} {rrc : Bytes} {peer : P}
    {up : List (Uplink P)} (hup : s.up =
      ⟨some (.c (.initialUlRrcMessageTransfer duUeId cRnti rrc)), some (peer, .srb SRB0 rrc)⟩ :: up)
    (hnew : (UlMessage.srb SRB0 rrc).newUes F = 1) (hfew : s.transport.nextCuUeId < 2 ^ 24)
    (hothers : ∀ o ∈ openings up, o.2 ≠ peer) : (s.step F cfg .up).Inv F := by
  let cuUeId := s.transport.nextCuUeId
  let transport : F1Transport :=
    { ues := s.transport.ues.insert cuUeId { duUeId }, nextCuUeId := (cuUeId + 1) % 2 ^ 32 }
  let payload := F.rrcSetup 0 [0x00]
  have hsent : ∀ rrc, transport.sendAll [(cuUeId, .srb SRB0 rrc)] =
      ([.c (.dlRrcMessageTransfer cuUeId duUeId SRB0 rrc)], transport) := fun rrc => by
    simp only [F1Transport.sendAll_singleton, F1Transport.send, transport, AList.lookup_insert]
  have hstep : s.step F cfg .up =
      { s with
        up, transport
        core := (s.core.newUe cuUeId).2
        direct := (s.direct.newUe peer).2
        reach := reassign s.reach cuUeId peer
        down := s.down ++ [.c (.dlRrcMessageTransfer cuUeId duUeId SRB0 payload)]
        heardDirect := s.heardDirect ++ [(peer, .srb SRB0 payload)] } := by
    rw [step, hup]
    change Split.serve F cfg { s with
        up, transport
        reach := reassign s.reach cuUeId peer
        down := s.down ++ [] }
      (some (.uu cuUeId (.srb SRB0 rrc))) (some (.uu peer (.srb SRB0 rrc))) = _
    simp only [Split.serve, Option.bind_some, handle_opens _ _ hnew, Option.getD_some, Option.map_some,
      Event.setUps, southbound_uu, southbound_nil, northbound_uu, northbound_nil, hsent, List.append_nil, payload]
  have hlink := h.link
  rw [hup] at hlink
  obtain ⟨d, hsettles, htie⟩ := hlink.opens h.sound_settled rfl hothers hfew payload
  obtain ⟨hdrain, htied⟩ := h.settles hsettles htie
  have hfresh : s.transport.duId cuUeId = none := by
    rw [Option.eq_none_iff_forall_not_mem]
    intro id hid
    exact Nat.lt_irrefl _ (h.link.known cuUeId id hid).1
  have hfreshCore : s.core.byPeer.lookup cuUeId = none := by
    rw [← Option.not_isSome_iff_eq_none, h.known, hfresh]
    exact Bool.false_ne_true
  have hroom : s.core.nextRanUeId + 1 < 2 ^ 32 := by
    rw [h.numbers]
    omega
  have hroomDirect : s.direct.nextRanUeId + 1 < 2 ^ 32 := by
    rw [h.counterpart.nextRanUeId]
    exact hroom
  have hcamped : peer ∈ s.du.camped := by
    rw [← h.tied.now.leads.camped]
    exact h.sound_settled.camped _ (hlink.mem_of_opening rfl hothers)
  have hbelow : ∀ m ∈ s.down ++ [F1Message.c (.dlRrcMessageTransfer cuUeId duUeId SRB0 payload)],
      m.Below s.du.nextDuUeId := by
    rw [List.forall_mem_append, List.forall_mem_singleton]
    refine ⟨h.below, ?_⟩
    rw [← h.tied.now.leads.next]
    exact (hlink.fresh (duUeId, peer) List.mem_cons_self).1
  have hkept := h.kept.moves (.enter cuUeId) (by simpa using h.kept.few) hroom
  have hkeptDirect := h.keptDirect.moves (.enter peer) (by simpa using h.keptDirect.few) hroomDirect
  rw [List.append_nil] at hkept hkeptDirect
  rw [hstep]
  refine ⟨?_, ?_, hbelow, h.waiting, h.counterpart.enter h.kept.peers h.keptDirect.peers hfreshCore peer,
    fun cu => ?_, ?_, hkept, hkeptDirect, h.camped.enter cuUeId hcamped, h.transparent.1, fun p => ?_⟩
  · change Link F _ transport up (drain Du.hear s.du (s.down ++ _)).2
    rw [hdrain]
    exact hsettles.link
  · change Throughout Du.hear (Tied _ (drain Du.hear s.du (s.down ++ _)).2) s.du _
    rw [hdrain]
    exact htied
  · change ((s.core.byPeer.insert cuUeId s.core.nextRanUeId).lookup cu).isSome =
      (((s.transport.ues.insert cuUeId { duUeId }).lookup cu).map fun f => f.duUeId).isSome
    have hknown := h.known cu
    rw [F1Transport.duId, Option.isSome_map] at hknown
    rw [Option.isSome_map, Keyed.Map.lookup_insert_eq, Keyed.Map.lookup_insert_eq]
    split
    · rfl
    · exact hknown
  · change (s.core.nextRanUeId + 1) % 2 ^ 32 = (s.transport.nextCuUeId + 1) % 2 ^ 32
    rw [h.numbers]
  · change Repeats _ (heardBy p (s.heard ++ (drain Du.hear s.du (s.down ++ _)).1))
      (heardBy p (s.heardDirect ++ _))
    rw [hdrain, ← List.append_assoc, heardBy_append p (s.heard ++ _), heardBy_append p s.heardDirect]
    exact (h.transparent.2 p).append (.refl _)

theorem Inv.up (h : s.Inv F) (hF : F.algorithms.KeepsLength) (hfew : s.transport.nextCuUeId < 2 ^ 24)
    (hheeds : s.Heeds F .up) : (s.step F cfg .up).Inv F := by
  cases hup : s.up with
  | nil =>
    rw [step, hup]
    exact h
  | cons x up =>
    rw [Heeds, hup] at hheeds
    obtain ⟨hothers, hcurrent⟩ := hheeds x rfl
    cases h.link.uplinks x (hup ▸ List.mem_cons_self) with
    | opens duUeId cRnti peer hnew => exact h.up_opens hup hnew hfew (hothers _ rfl)
    | @relayed m cuUeId peer msg hreceive hreach hnew =>
      have hopening := opening_relayed hreceive (some (peer, msg))
      have hpop := h.pop hup hopening
      have hstep : s.step F cfg .up = Split.serve F cfg { s with up }
          (some (.uu cuUeId msg)) (some (.uu peer msg)) := by
        rw [step, hup]
        simp only [hreceive, hopening, Option.map_some, List.append_nil]
      rw [hstep]
      obtain ⟨hreached, hfree, hteids⟩ :=
        hcurrent hopening m rfl (cuUeId, msg) (by rw [hreceive]; rfl)
      rw [hup, openings_cons_none hopening] at hfree
      exact hpop.serve hF cfg (.uu hreach msg) (fun tmsi hpdu => nomatch hpdu) hnew
        (Nat.zero_lt_succ _) ⟨hreached, hfree, hteids⟩
    | @dropped peer msg hgone hnew =>
      have hpop := h.pop hup rfl
      have hstep : s.step F cfg .up =
          Split.serve F cfg { s with up } none (some (.uu peer msg)) := by
        rw [step, hup]
        rfl
      rw [hstep, serve_dropped hpop hnew hgone]
      exact hpop
    | @answer m hreceive =>
      have hopening : Uplink.opening (⟨some m, none⟩ : Uplink P) = none := by
        simp [Uplink.opening]
      have hpop := h.pop hup hopening
      have hstep : s.step F cfg .up = Split.serve F cfg { s with up } none none := by
        rw [step, hup]
        simp only [hreceive, hopening, Option.map_none, List.append_nil]
      rw [hstep, serve_none]
      exact hpop

/-! ### Runs -/

theorem Inv.start : Split.Inv F ({} : Split P) where
  link :=
    { one := fun _ _ _ hreach => nomatch hreach
      reached := fun _ hreach => nomatch hreach
      known := fun _ _ hid => nomatch hid
      few := Nat.one_le_two_pow
      apart := fun _ _ _ hid => nomatch hid
      addressed := fun _ hu => nomatch hu
      served := fun _ _ _ hid => nomatch hid
      waiting := fun _ hu => nomatch hu
      opening := fun _ ho => nomatch ho
      fresh := fun _ ho => nomatch ho
      ordered := List.Pairwise.nil
      uplinks := fun _ hx => nomatch hx
      order := List.Pairwise.nil }
  tied :=
    { leads := .refl ⟨List.nodup_nil, List.nodup_nil, fun _ hu => (nomatch hu), fun _ hu => (nomatch hu)⟩
      addressed := fun _ hu => nomatch hu }
  below _ hm := nomatch hm
  waiting _ hu := nomatch hu
  counterpart := ⟨fun _ => rfl, rfl, rfl⟩
  known _ := rfl
  numbers := rfl
  kept := World.kept_start
  keptDirect := World.kept_start
  camped := ⟨List.nodup_nil, List.nodup_nil, fun _ hp => (nomatch hp), ⟨fun _ => rfl, fun _ => rfl⟩⟩
  transparent := ⟨rfl, fun _ => .nil⟩

theorem Inv.step (h : s.Inv F) (hF : F.algorithms.KeepsLength) {e : SplitEvent P}
    (hallowed : s.Allowed F e) (hheeds : s.Heeds F e) : (s.step F cfg e).Inv F := by
  cases e with
  | uu peer msg =>
    cases msg with
    | srb srbId payload =>
      rw [Allowed] at hallowed
      by_cases hsrb : srbId = SRB0
      · subst hsrb
        rw [if_pos rfl] at hallowed
        obtain ⟨hold, hpage⟩ := hheeds rfl
        exact h.uu_opens hallowed.1 hallowed.2 hold hpage
      · rw [if_neg hsrb] at hallowed
        exact h.uu_relayed hallowed (decide_eq_false hsrb) fun _ _ hdata => nomatch hdata
    | idle => exact h.uu_relayed hallowed rfl fun _ _ hdata => nomatch hdata
    | data psi packet =>
      refine h.uu_relayed hallowed.1 rfl fun psi' packet' hdata => ?_
      obtain ⟨-, rfl⟩ := UlMessage.data.inj hdata
      exact hallowed.2
  | ngap pdu =>
    cases pdu with
    | paging tmsi => exact h.page hallowed hheeds
    | _ =>
      refine h.serve hF cfg (.ngap _) ?_ rfl (Nat.zero_lt_succ _) hheeds
      rintro tmsi ⟨⟩
  | n3 msg =>
    refine h.serve hF cfg (.n3 msg) (fun tmsi hpdu => nomatch hpdu) rfl ?_ hheeds
    cases msg with
    | gPdu teid qfi payload => exact hallowed
    | _ => exact Nat.zero_lt_succ _
  | up => exact h.up hF hallowed hheeds
  | down => exact h.down

end Split

/-- **The F1 split is transparent**, in every run in which no session is set up for a UE whose endpoint has
opened another connection and nothing on its way meets an endpoint that is opening one. -/
theorem transparent_of_heeds (F : Functions) (cfg : GnbState.GnbConfig) (hF : F.algorithms.KeepsLength)
    (es : List (SplitEvent P))
    (halong : Runs.Along (Split.step F cfg) (fun s e => s.Allowed F e ∧ s.Heeds F e) {} es) :
    (Runs.run (Split.step F cfg) {} es).Transparent :=
  (Runs.invariant_along (I := Split.Inv F) (fun _ _ hstep h => h.step hF hstep.1 hstep.2) halong
    Split.Inv.start).transparent

instance Split.decidableAllowed (F : Functions) (s : Split P) (e : SplitEvent P) :
    Decidable (s.Allowed F e) := by
  unfold Split.Allowed
  split <;> infer_instance

instance Split.decidableCurrent (F : Functions) (s : Split P) (e : Event Nat) :
    Decidable (s.Current F e) := by
  unfold Split.Current
  infer_instance

instance Split.decidableHeeds (F : Functions) (s : Split P) (e : SplitEvent P) :
    Decidable (s.Heeds F e) := by
  unfold Split.Heeds
  split <;> infer_instance

/-- Two endpoints open connections and get sessions and data; one of them is released, is paged and comes
back. -/
def splitSample : List (SplitEvent Nat) :=
  [.uu 10 (.srb 0 []), .uu 20 (.srb 0 []), .up, .up, .down, .down,
    .ngap (.pduSessionResourceSetup 1 1 [] [(5, 0x11, 0, [0xAA])]), .down, .n3 (.gPdu 0x2001 none [1]),
    .down, .down, .up, .uu 10 (.data 5 [0x80, 0, 0, 9, 1, 0, 0, 0, 0]), .up,
    .ngap (.ueContextReleaseCommand 1 1), .down, .down, .up, .ngap (.paging 7), .down, .down,
    .uu 10 (.srb 0 []), .up, .down, .ngap (.pduSessionResourceSetup 1 3 [] [(5, 0x11, 0, [])])]

theorem transparent_sample :
    (Runs.run (Split.step nullFunctions ⟨0⟩) {} splitSample).Transparent :=
  transparent_of_heeds nullFunctions ⟨0⟩ (fun _ _ _ _ _ _ => rfl) splitSample (by decide +kernel)

/-- An endpoint opens a connection, and another; then a session is set up for its first UE. -/
def openedTwice : List (SplitEvent Nat) :=
  [.uu 10 (.srb 0 []), .up, .down, .uu 10 (.srb 0 []), .up, .down,
    .ngap (.pduSessionResourceSetup 1 1 [] [(5, 0x11, 0, [])])]

/-- **The CU's core serves a UE that the other core has dropped.** It keeps the UE of an endpoint that has
opened another connection, and answers the AMF for it. -/
theorem not_transparent :
    ¬ ∀ (F : Functions) (cfg : GnbState.GnbConfig), F.algorithms.KeepsLength →
      ∀ es : List (SplitEvent Nat), Runs.Along (Split.step F cfg) (Split.Allowed F) {} es →
      (Runs.run (Split.step F cfg) {} es).Transparent := by
  intro h
  have hsaid := (h nullFunctions ⟨0⟩ (fun _ _ _ _ _ _ => rfl) openedTwice (by decide +kernel)).1
  exact absurd hsaid (by decide +kernel)

end Radian.Ran
