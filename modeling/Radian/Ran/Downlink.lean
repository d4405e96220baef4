import Radian.Histories.Basic
import Radian.Ran.Sealing

/-!
# What the gNB hands to the UE

The NAS messages and the Initial Context Setups that come for a UE context, and what becomes of them.

- `GnbState.entries` — what an event adds to the history of a UE context.
- `UeCtx.Keeps` — a context has handed on all but what it holds, and answered all but what is pending.
- `Hands` — everything an event does to the histories, and `hands_handle` that each event does so.
-/

namespace Radian.Ran

open Keyed (Map)
open Security (Bytes)

variable {P : Type} [DecidableEq P]

/-! ### Histories of a UE context -/

/-- The RRC messages on SRB1. -/
inductive DlDcch where
  | dlInformationTransfer (nas : Bytes)
  | securityModeCommand
  | rrcRelease
  deriving DecidableEq, Repr

def DlDcch.encode (F : Functions) (txn : UInt8) : DlDcch → Bytes
  | .dlInformationTransfer nas => F.dlInformationTransfer txn nas
  | .securityModeCommand => F.securityModeCommand txn NEA2 NIA2
  | .rrcRelease => F.rrcRelease txn

/-- A message that goes out on SRB1 to an endpoint, with the entity that protects it. -/
structure Relay (P : Type) where
  peer : P
  srb1 : Pdcp.PdcpSrb
  txn : UInt8
  message : DlDcch
  deriving DecidableEq, Repr

def Relay.pdu (F : Functions) (r : Relay P) : P × Bytes :=
  (r.peer, (r.srb1.protect F.algorithms (r.message.encode F r.txn)).1)

def Relay.nas (r : Relay P) : Option Bytes :=
  match r.message with
  | .dlInformationTransfer nas => some nas
  | _ => none

/-- An Initial Context Setup: its sessions, and the integrity key that comes from its K_gNB. -/
structure Request where
  amfUeId : Nat
  psis : List UInt8
  krrcInt : Option Bytes
  deriving DecidableEq, Repr

/-- An Initial Context Setup Response, with the SRB1 PDU it was sent upon and the entity that opened
that. -/
structure Answer where
  ranUeId : Nat
  ics : PendingIcs
  srb1 : Pdcp.PdcpSrb
  payload : Bytes

namespace Answer

/-- What is answered: a request under whose key the PDU was verified. -/
def request (a : Answer) : Request :=
  { amfUeId := a.ics.amfUeId
    psis := a.ics.admitted.map fun x => x.1
    krrcInt := a.srb1.inner.integrity.map Pdcp.Algo.key }

/-- The PDU was a Security Mode Complete. -/
def Verified (F : Functions) (a : Answer) : Prop :=
  ∃ rrc, (a.srb1.unprotect F.algorithms a.payload).1 = .ok rrc ∧
    F.parseUlDcch rrc = some .securityModeComplete

def response (a : Answer) : Nat × Nat × List (UInt8 × Nat × Pfcp.Ipv4Addr) :=
  (a.ics.amfUeId, a.ranUeId, a.ics.admitted)

end Answer

/-- What happens to a UE context. -/
inductive Entry (P : Type) where
  | addressed (nas : Bytes)
  | relayed (r : Relay P)
  | requested (r : Request)
  | answered (a : Answer)

namespace Entry

def addressedNas : Entry P → Option Bytes
  | addressed nas => some nas
  | _ => none

def relayedNas : Entry P → Option Bytes
  | relayed r => r.nas
  | _ => none

def request : Entry P → Option Request
  | requested r => some r
  | _ => none

def answer : Entry P → Option Answer
  | answered a => some a
  | _ => none

def peer : Entry P → Option P
  | relayed r => some r.peer
  | _ => none

/-- The PDU that goes out on SRB1, and to whom. -/
def pdu (F : Functions) : Entry P → Option (P × Bytes)
  | relayed r => some (r.pdu F)
  | _ => none

end Entry

/-- The NAS messages that came for a UE context, and those handed to the UE. -/
def addressedNas (h : List (Entry P)) : List Bytes := h.filterMap Entry.addressedNas

def relayedNas (h : List (Entry P)) : List Bytes := h.filterMap Entry.relayedNas

def requests (h : List (Entry P)) : List Request := h.filterMap Entry.request

def answers (h : List (Entry P)) : List Answer := h.filterMap Entry.answer

/-- The endpoints that PDUs of a UE context went to. -/
def peers (h : List (Entry P)) : List P := h.filterMap Entry.peer

namespace UeCtx

variable (F : Functions)

/-- The Initial Context Setup that waits for AS security, under the key that SRB1 has now. -/
def waiting (ue : UeCtx P) : Option Request :=
  ue.pendingIcs.map fun ics =>
    { amfUeId := ics.amfUeId
      psis := ics.admitted.map fun x => x.1
      krrcInt := ue.srb1.inner.integrity.map Pdcp.Algo.key }

/-- All NAS messages but those that are held have been handed on in order, and all requests but the one
that is pending have been answered.  All that was sent went to the context's endpoint. -/
structure Keeps (ue : UeCtx P) (h : List (Entry P)) : Prop where
  nas : relayedNas h ++ ue.pendingDlNas = addressedNas h
  /-- Nothing is held without a request that is pending. -/
  held : ue.pendingIcs = none → ue.pendingDlNas = []
  requests : (answers h).map Answer.request ++ ue.waiting.toList = requests h
  verified : ∀ a ∈ answers h, a.Verified F
  own : ∀ peer ∈ peers h, peer = ue.peer

/-- The messages that were held, one after the other. -/
def heldRelays : UeCtx P → List Bytes → List (Relay P)
  | _, [] => []
  | ue, nas :: rest =>
      { peer := ue.peer, srb1 := ue.srb1, txn := ue.rrcTxn, message := .dlInformationTransfer nas } ::
        heldRelays (ue.dlNasSrb1 F nas).2 rest

end UeCtx

/-! ### What an event adds -/

/-- The NAS messages that come with some sessions. -/
def addressedBy (sessions : List (UInt8 × Pfcp.Teid × Pfcp.Ipv4Addr × Bytes)) : List (Entry P) :=
  ((sessions.map fun session => session.2.2.2).filter fun nas => !nas.isEmpty).map .addressed

/-- What an event adds to the history of a UE context. -/
def GnbState.entries (F : Functions) (s : GnbState P) : Event P → List (Nat × Entry P)
  | .ngap (.downlinkNasTransport _ ranUeId nas) =>
      (s.ues.lookup ranUeId).toList.flatMap fun ue =>
        [(ranUeId, .addressed nas),
          (ranUeId, .relayed
            { peer := ue.peer, srb1 := ue.srb1, txn := ue.rrcTxn, message := .dlInformationTransfer nas })]
  | .ngap (.initialContextSetup amfUeId ranUeId securityKey nas _ sessions) =>
      (s.ues.lookup ranUeId).toList.flatMap fun ue =>
        let krrcInt := (F.rrcKeys securityKey NEA2 NIA2).krrcInt
        (if nas.isEmpty then [] else [(ranUeId, .addressed nas)]) ++
          [(ranUeId, .relayed
              { peer := ue.peer, srb1 := ue.srb1.activateIntegrity krrcInt NIA2, txn := ue.rrcTxn
                message := .securityModeCommand }),
            (ranUeId, .requested
              { amfUeId, psis := sessions.map fun session => session.1, krrcInt := some krrcInt })]
  | .ngap (.pduSessionResourceSetup _ ranUeId _ sessions) =>
      (s.ues.lookup ranUeId).toList.flatMap fun ue =>
        (addressedBy sessions).map (fun x => (ranUeId, x)) ++
          match sessions with
          | [] => []
          | (_, _, _, nas) :: _ =>
              if nas.isEmpty then []
              else [(ranUeId, .relayed
                { peer := ue.peer, srb1 := ue.srb1, txn := ue.rrcTxn
                  message := .dlInformationTransfer nas })]
  | .ngap (.ueContextReleaseCommand _ ranUeId) =>
      (s.ues.lookup ranUeId).toList.map fun ue =>
        (ranUeId, .relayed { peer := ue.peer, srb1 := ue.srb1, txn := ue.rrcTxn, message := .rrcRelease })
  | .uu peer (.srb srbId payload) =>
      if srbId = SRB1 then
        (s.confirmed F peer payload).toList.flatMap fun (ranUeId, ue) =>
          (({ ue with pendingDlNas := [], pendingIcs := none }.heldRelays F ue.pendingDlNas).map
              fun r => (ranUeId, .relayed r)) ++
            (s.ues.lookup ranUeId).toList.flatMap fun before =>
              ue.pendingIcs.toList.map fun ics =>
                (ranUeId, .answered { ranUeId, ics, srb1 := before.srb1, payload })
      else []
  | _ => []

/-- The PDUs on SRB1 in some messages, each with the endpoint it goes to. -/
def srb1Pdus (out : List (Output P)) : List (P × Bytes) :=
  out.filterMap fun
    | .uu peer (.srb srbId payload) => if srbId = SRB0 then none else some (peer, payload)
    | _ => none

/-- The Initial Context Setup Responses in some messages. -/
def responses (out : List (Output P)) : List (Nat × Nat × List (UInt8 × Nat × Pfcp.Ipv4Addr)) :=
  out.filterMap fun
    | .ngap (.initialContextSetupResponse amfUeId ranUeId admitted) => some (amfUeId, ranUeId, admitted)
    | _ => none

section Outputs

omit [DecidableEq P]

theorem srb1Pdus_append (out out' : List (Output P)) :
    srb1Pdus (out ++ out') = srb1Pdus out ++ srb1Pdus out' := List.filterMap_append

theorem responses_append (out out' : List (Output P)) :
    responses (out ++ out') = responses out ++ responses out' := List.filterMap_append

theorem srb1Pdus_map (peer : P) (payloads : List Bytes) :
    srb1Pdus (payloads.map fun payload => Output.uu peer (.srb SRB1 payload)) =
      payloads.map fun payload => (peer, payload) := by
  induction payloads with
  | nil => rfl
  | cons payload payloads ih => exact congrArg (_ :: ·) ih

theorem responses_map (peer : P) (payloads : List Bytes) :
    responses (payloads.map fun payload => Output.uu peer (.srb SRB1 payload)) = [] := by
  induction payloads with
  | nil => rfl
  | cons payload payloads ih => exact ih

theorem srb1Pdus_paging (camped : List P) (tmsi : Nat) :
    srb1Pdus (camped.map fun peer => Output.uu peer (.paging tmsi)) = [] := by
  induction camped with
  | nil => rfl
  | cons peer camped ih => exact ih

theorem responses_paging (camped : List P) (tmsi : Nat) :
    responses (camped.map fun peer => Output.uu peer (.paging tmsi)) = [] := by
  induction camped with
  | nil => rfl
  | cons peer camped ih => exact ih

end Outputs

/-- No NAS message overtakes one that is held, and no Initial Context Setup comes while one is
pending. -/
def GnbState.Heeds (s : GnbState P) : Event P → Prop
  | .ngap (.downlinkNasTransport _ ranUeId _) => ∀ ue ∈ s.ues.lookup ranUeId, ue.pendingDlNas = []
  | .ngap (.initialContextSetup _ ranUeId _ _ _ _) => ∀ ue ∈ s.ues.lookup ranUeId, ue.pendingIcs.isNone
  | .ngap (.pduSessionResourceSetup _ ranUeId _ sessions) =>
      ∀ ue ∈ s.ues.lookup ranUeId, (∃ session ∈ sessions, !session.2.2.2.isEmpty) → ue.pendingDlNas = []
  | _ => True

/-- A request to set up sessions carries at most one. -/
def Event.OneSession : Event P → Prop
  | .ngap (.pduSessionResourceSetup _ _ _ sessions) => sessions.length ≤ 1
  | _ => True

/-! ### Keeping the history -/

section Keeps

omit [DecidableEq P]

@[simp] theorem addressedNas_append (h h' : List (Entry P)) :
    addressedNas (h ++ h') = addressedNas h ++ addressedNas h' := List.filterMap_append

@[simp] theorem relayedNas_append (h h' : List (Entry P)) :
    relayedNas (h ++ h') = relayedNas h ++ relayedNas h' := List.filterMap_append

@[simp] theorem requests_append (h h' : List (Entry P)) : requests (h ++ h') = requests h ++ requests h' :=
  List.filterMap_append

@[simp] theorem answers_append (h h' : List (Entry P)) : answers (h ++ h') = answers h ++ answers h' :=
  List.filterMap_append

@[simp] theorem peers_append (h h' : List (Entry P)) : peers (h ++ h') = peers h ++ peers h' :=
  List.filterMap_append

/-- Messages that go out, and answers, as parts of a history. -/
theorem relayed_map (F : Functions) (relays : List (Relay P)) :
    (relays.map Entry.relayed).filterMap (Entry.pdu F) = relays.map (Relay.pdu F) ∧
      relayedNas (relays.map Entry.relayed) = relays.filterMap Relay.nas ∧
      addressedNas (relays.map Entry.relayed) = [] ∧ requests (relays.map Entry.relayed) = [] ∧
      answers (relays.map Entry.relayed) = [] ∧
      peers (relays.map Entry.relayed) = relays.map Relay.peer := by
  induction relays with
  | nil => exact ⟨rfl, rfl, rfl, rfl, rfl, rfl⟩
  | cons r relays ih =>
    obtain ⟨hpdu, hnas, haddressed, hrequests, hanswers, hpeers⟩ := ih
    refine ⟨congrArg (_ :: ·) hpdu, ?_, haddressed, hrequests, hanswers, congrArg (_ :: ·) hpeers⟩
    rw [List.map_cons, List.filterMap_cons, ← hnas, relayedNas, List.filterMap_cons]
    rfl

theorem answered_map (F : Functions) (answered : List Answer) :
    (answered.map (Entry.answered (P := P))).filterMap (Entry.pdu F) = [] ∧
      relayedNas (answered.map (Entry.answered (P := P))) = [] ∧
      addressedNas (answered.map (Entry.answered (P := P))) = [] ∧
      requests (answered.map (Entry.answered (P := P))) = [] ∧
      answers (answered.map (Entry.answered (P := P))) = answered ∧
      peers (answered.map (Entry.answered (P := P))) = [] := by
  induction answered with
  | nil => exact ⟨rfl, rfl, rfl, rfl, rfl, rfl⟩
  | cons a answered ih =>
    obtain ⟨hpdu, hnas, haddressed, hrequests, hanswers, hpeers⟩ := ih
    exact ⟨hpdu, hnas, haddressed, hrequests, congrArg (a :: ·) hanswers, hpeers⟩

namespace UeCtx.Keeps

variable {F : Functions} {ue ue' : UeCtx P} {h : List (Entry P)}

theorem start (peer : P) : ({ peer } : UeCtx P).Keeps F [] where
  nas := rfl
  held _ := rfl
  requests := rfl
  verified _ h := absurd h List.not_mem_nil
  own _ h := absurd h List.not_mem_nil

/-- What comes is held or handed on after what was held, and what is answered was pending or comes. -/
theorem append (hkeeps : ue.Keeps F h) {items : List (Entry P)}
    (hnas : relayedNas items ++ ue'.pendingDlNas = ue.pendingDlNas ++ addressedNas items)
    (hheld : ue'.pendingIcs = none → ue'.pendingDlNas = [])
    (hrequests : (answers items).map Answer.request ++ ue'.waiting.toList =
      ue.waiting.toList ++ Ran.requests items)
    (hverified : ∀ a ∈ answers items, a.Verified F) (hpeer : ue'.peer = ue.peer)
    (hown : ∀ peer ∈ peers items, peer = ue.peer) : ue'.Keeps F (h ++ items) where
  nas := by
    rw [relayedNas_append, addressedNas_append, List.append_assoc, hnas, ← List.append_assoc, hkeeps.nas]
  held := hheld
  requests := by
    rw [answers_append, requests_append, List.map_append, List.append_assoc, hrequests,
      ← List.append_assoc, hkeeps.requests]
  verified a ha := by
    rw [answers_append] at ha
    obtain hold | hnew := List.mem_append.mp ha
    · exact hkeeps.verified a hold
    · exact hverified a hnew
  own peer hp := by
    rw [peers_append] at hp
    rw [hpeer]
    exact (List.mem_append.mp hp).elim (hkeeps.own peer) (hown peer)

/-- Nothing else of a context matters. -/
theorem congr (hkeeps : ue.Keeps F h) (hheld : ue'.pendingDlNas = ue.pendingDlNas)
    (hics : ue'.pendingIcs = ue.pendingIcs)
    (hintegrity : ue'.srb1.inner.integrity = ue.srb1.inner.integrity)
    (hpeer : ue'.peer = ue.peer) : ue'.Keeps F h where
  nas := by rw [hheld, hkeeps.nas]
  held := by
    rw [hheld, hics]
    exact hkeeps.held
  requests := by
    rw [UeCtx.waiting, hics, hintegrity]
    exact hkeeps.requests
  verified := hkeeps.verified
  own peer hp := (hkeeps.own peer hp).trans hpeer.symm

end UeCtx.Keeps

end Keeps

/-! ### What an event does -/

/-- A step on the histories: none, a UE context changes as its history goes on, a context comes, or one
goes. -/
inductive Hands (F : Functions) (s : GnbState P) (ok : Prop) : GnbState P → List (Nat × Entry P) → Nat →
    List (Histories.Event (UeCtx P) (Entry P)) → Prop where
  | stay {s' : GnbState P} (hues : s'.ues = s.ues) : Hands F s ok s' [] 0 []
  | change {s' : GnbState P} {ranUeId : Nat} {ue ue' : UeCtx P} (items : List (Entry P))
      (hue : s.ues.lookup ranUeId = some ue) (hues : s'.ues = s.ues.insert ranUeId ue')
      (hkeeps : ok → ∀ h, ue.Keeps F h → ue'.Keeps F (h ++ items)) :
      Hands F s ok s' (items.map fun x => (ranUeId, x)) 0 [.change ranUeId ue' items]
  | enter (peer : P) :
      Hands F s ok (s.newUe peer).2 [] 1
        ((s.byPeer.lookup peer).toList.map .leave ++ [.enter s.nextRanUeId { peer }])
  | leave {s' : GnbState P} {ranUeId : Nat} {ue : UeCtx P} (items : List (Entry P))
      (hue : s.ues.lookup ranUeId = some ue)
      (hues : ∀ id, s'.ues.lookup id = if id = ranUeId then none else s.ues.lookup id)
      (hkeeps : ∀ h, ue.Keeps F h → ue.Keeps F (h ++ items)) :
      Hands F s ok s' (items.map fun x => (ranUeId, x)) 0 [.change ranUeId ue items, .leave ranUeId]

/-- What an event does: what goes down on SRB1 and what is answered is in the history, and the histories
go on. -/
structure HandsOver (F : Functions) (s : GnbState P) (e : Event P) (out : List (Output P))
    (s' : GnbState P) : Prop where
  sent : srb1Pdus out = (s.entries F e).filterMap fun x => x.2.pdu F
  responses : responses out = (s.entries F e).filterMap fun x => x.2.answer.map Answer.response
  hands : ∃ es, Hands F s (s.Heeds e ∧ e.OneSession) s' (s.entries F e) (e.newUes F) es

namespace GnbState

variable {F : Functions} {cfg : GnbConfig} {s s' : GnbState P} {out : List (Output P)}

/-- An event that adds to no history. -/
theorem handsOver_nothing {e : Event P} (hentries : s.entries F e = []) (hnew : e.newUes F = 0)
    (hues : s'.ues = s.ues) (hsent : srb1Pdus out = []) (hresponses : Ran.responses out = []) :
    HandsOver F s e out s' := by
  refine ⟨by rw [hentries, hsent]; rfl, by rw [hentries, hresponses]; rfl, [], ?_⟩
  rw [hentries, hnew]
  exact .stay hues

/-- A UE context that changes without anything happening to it. -/
theorem handsOver_silent {e : Event P} (hentries : s.entries F e = []) (hnew : e.newUes F = 0)
    {ranUeId : Nat} {ue ue' : UeCtx P} (hue : s.ues.lookup ranUeId = some ue)
    (hues : s'.ues = s.ues.insert ranUeId ue') (hheld : ue'.pendingDlNas = ue.pendingDlNas)
    (hics : ue'.pendingIcs = ue.pendingIcs)
    (hintegrity : ue'.srb1.inner.integrity = ue.srb1.inner.integrity) (hpeer : ue'.peer = ue.peer)
    (hsent : srb1Pdus out = []) (hresponses : Ran.responses out = []) : HandsOver F s e out s' := by
  refine ⟨by rw [hentries, hsent]; rfl, by rw [hentries, hresponses]; rfl, ?_⟩
  rw [hentries, hnew]
  refine ⟨_, .change [] hue hues fun _ h hkeeps => ?_⟩
  rw [List.append_nil]
  exact hkeeps.congr hheld hics hintegrity hpeer

omit [DecidableEq P] in
theorem filterMap_addressedBy {α : Type} {f : Entry P → Option α} (hf : ∀ nas, f (.addressed nas) = none)
    {sessions : List (UInt8 × Pfcp.Teid × Pfcp.Ipv4Addr × Bytes)} :
    (addressedBy sessions).filterMap f = [] := by
  rw [addressedBy, List.filterMap_map, List.filterMap_eq_nil_iff]
  exact fun nas _ => hf nas

omit [DecidableEq P] in
theorem rest_eq_nil {amfUeId ranUeId : Nat} {qfis : List (UInt8 × UInt8)}
    {session : UInt8 × Pfcp.Teid × Pfcp.Ipv4Addr × Bytes}
    {rest : List (UInt8 × Pfcp.Teid × Pfcp.Ipv4Addr × Bytes)}
    (h : (Event.ngap (.pduSessionResourceSetup amfUeId ranUeId qfis (session :: rest)) :
      Event P).OneSession) : rest = [] :=
  List.length_eq_zero_iff.mp (Nat.le_zero.mp (Nat.le_of_succ_le_succ h))

theorem integrity_unprotect (e : Pdcp.PdcpSrb) (pdu : Bytes) :
    (e.unprotect F.algorithms pdu).2.inner.integrity = e.inner.integrity := by
  rcases h : e.unprotect F.algorithms pdu with ⟨opened, e'⟩
  cases opened with
  | error err => rw [Pdcp.Entity.eq_of_unprotect_error h]
  | ok sdu =>
    obtain ⟨-, -, rfl⟩ := Pdcp.Entity.opens_of_unprotect h
    rfl

theorem handsOver_ngap (pdu : NgapPdu) (h : s.handleNgap F cfg pdu = some (out, s')) :
    HandsOver F s (.ngap pdu) out s' := by
  cases pdu with
  | downlinkNasTransport amfUeId ranUeId nas =>
    cases hue : s.ues.lookup ranUeId with
    | none =>
      simp only [handleNgap, hue] at h
      cases h
      exact handsOver_nothing (by simp [entries, hue]) rfl rfl rfl rfl
    | some ue =>
      simp only [handleNgap, hue] at h
      cases h
      constructor
      · simp only [entries, hue]
        rfl
      · simp only [entries, hue]
        rfl
      · simp only [entries, hue]
        refine ⟨_, .change [_, _] hue rfl fun hok h hkeeps => ?_⟩
        have hnone : ue.pendingDlNas = [] := hok.1 ue hue
        refine hkeeps.append ?_ hkeeps.held (List.append_nil _).symm
          (fun _ ha => absurd ha List.not_mem_nil) rfl fun _ hp => List.mem_singleton.mp hp
        change [nas] ++ ue.pendingDlNas = ue.pendingDlNas ++ [nas]
        rw [hnone]
        rfl
  | initialContextSetup amfUeId ranUeId securityKey nas qfis sessions =>
    cases hue : s.ues.lookup ranUeId with
    | none =>
      simp only [handleNgap, hue, Option.isNone_none, if_true] at h
      cases h
      exact handsOver_nothing (by simp [entries, hue]) rfl rfl rfl rfl
    | some ue =>
      simp only [handleNgap, hue, Option.isNone_some, Bool.false_eq_true, if_false,
        Option.map_some] at h
      cases h
      constructor
      · cases hnas : nas.isEmpty <;> simp only [entries, hue, hnas] <;> rfl
      · cases hnas : nas.isEmpty <;> simp only [entries, hue, hnas] <;> rfl
      · have hpsis := psi_admitted (F.upKeys securityKey NEA2 NIA2) qfis sessions s.nextDlTeid
        cases hnas : nas.isEmpty with
        | true =>
          simp only [entries, hue, hnas, if_true]
          refine ⟨_, .change [_, _] hue rfl fun hok h hkeeps => ?_⟩
          have hnone : ue.pendingIcs = none := Option.isNone_iff_eq_none.mp (hok.1 ue hue)
          refine hkeeps.append (List.append_nil _).symm (fun hics => by cases hics) ?_
            (fun _ ha => absurd ha List.not_mem_nil) rfl fun _ hp => List.mem_singleton.mp hp
          rw [UeCtx.waiting, UeCtx.waiting, hnone, ← hpsis]
          simp only [UeCtx.protectSrb1, UeCtx.nextTxn, Option.map_some, List.map_map]
          rfl
        | false =>
          simp only [entries, hue, hnas, Bool.false_eq_true, if_false]
          refine ⟨_, .change [_, _, _] hue rfl fun hok h hkeeps => ?_⟩
          have hnone : ue.pendingIcs = none := Option.isNone_iff_eq_none.mp (hok.1 ue hue)
          refine hkeeps.append rfl (fun hics => by cases hics) ?_
            (fun _ ha => absurd ha List.not_mem_nil) rfl fun _ hp => List.mem_singleton.mp hp
          rw [UeCtx.waiting, UeCtx.waiting, hnone, ← hpsis]
          simp only [UeCtx.protectSrb1, UeCtx.nextTxn, Option.map_some, List.map_map]
          rfl
  | pduSessionResourceSetup amfUeId ranUeId qfis sessions =>
    cases hue : s.ues.lookup ranUeId with
    | none =>
      simp only [handleNgap, hue] at h
      cases h
      exact handsOver_nothing (by simp [entries, hue]) rfl rfl rfl rfl
    | some ue =>
      rcases sessions with _ | ⟨⟨psi, upfTeid, upfAddr, nas⟩, rest⟩
      · simp only [handleNgap, hue] at h
        cases h
        exact handsOver_nothing (by simp [entries, hue, addressedBy]) rfl rfl rfl rfl
      · simp only [handleNgap, hue, Option.map_some, Option.some_inj] at h
        split at h
        next hnas =>
          cases h
          have hentries : s.entries F (.ngap (.pduSessionResourceSetup amfUeId ranUeId qfis
                ((psi, upfTeid, upfAddr, nas) :: rest))) =
              (addressedBy ((psi, upfTeid, upfAddr, nas) :: rest)).map fun x => (ranUeId, x) := by
            simp [entries, hue, hnas]
          refine ⟨?_, ?_, ?_⟩
          · rw [hentries, List.filterMap_map]
            exact (filterMap_addressedBy fun _ => rfl).symm
          · rw [hentries, List.filterMap_map]
            exact (filterMap_addressedBy fun _ => rfl).symm
          · rw [hentries]
            refine ⟨_, .change _ hue rfl fun hok h hkeeps => ?_⟩
            obtain rfl := rest_eq_nil hok.2
            have hnone : addressedBy (P := P) [(psi, upfTeid, upfAddr, nas)] = [] := by
              simp [addressedBy, hnas]
            rw [hnone, List.append_nil]
            exact hkeeps.congr rfl rfl rfl rfl
        next hnas =>
          cases h
          have hentries : s.entries F (.ngap (.pduSessionResourceSetup amfUeId ranUeId qfis
                ((psi, upfTeid, upfAddr, nas) :: rest))) =
              (addressedBy ((psi, upfTeid, upfAddr, nas) :: rest) ++ [Entry.relayed
                { peer := ue.peer, srb1 := ue.srb1, txn := ue.rrcTxn
                  message := .dlInformationTransfer nas }]).map
                fun x => (ranUeId, x) := by
            simp [entries, hue, hnas]
          refine ⟨?_, ?_, ?_⟩
          · rw [hentries, List.filterMap_map, List.filterMap_append]
            rw [filterMap_addressedBy fun _ => rfl]
            rfl
          · rw [hentries, List.filterMap_map, List.filterMap_append]
            rw [filterMap_addressedBy fun _ => rfl]
            rfl
          · rw [hentries]
            refine ⟨_, .change _ hue rfl fun hok h hkeeps => ?_⟩
            obtain rfl := rest_eq_nil hok.2
            have hone : addressedBy (P := P) [(psi, upfTeid, upfAddr, nas)] = [.addressed nas] := by
              simp [addressedBy, hnas]
            have hnone : ue.pendingDlNas = [] :=
              hok.1 ue hue ⟨_, List.mem_cons_self, by simpa using hnas⟩
            rw [hone]
            refine hkeeps.append ?_ hkeeps.held (List.append_nil _).symm
              (fun a ha => absurd ha (by simp [answers, Entry.answer])) rfl
              fun _ hp => List.mem_singleton.mp hp
            change [nas] ++ ue.pendingDlNas = ue.pendingDlNas ++ [nas]
            rw [hnone]
            rfl
  | ueContextReleaseCommand amfUeId ranUeId =>
    cases hue : s.ues.lookup ranUeId with
    | none =>
      simp only [handleNgap, hue, removeUe, Option.map_none] at h
      cases h
      exact handsOver_nothing (by simp [entries, hue]) rfl rfl rfl rfl
    | some ue =>
      simp only [handleNgap, hue, removeUe, putUe, AList.lookup_insert, Option.map_some] at h
      cases h
      constructor
      · simp only [entries, hue]
        rfl
      · simp only [entries, hue]
        rfl
      · simp only [entries, hue]
        refine ⟨_, .leave [_] hue (fun id => ?_) fun h hkeeps => ?_⟩
        · rw [Map.lookup_erase_eq, Map.lookup_insert_eq]
          split <;> rfl
        · exact hkeeps.append (List.append_nil _).symm hkeeps.held (List.append_nil _).symm
            (fun _ ha => absurd ha List.not_mem_nil) rfl fun _ hp => List.mem_singleton.mp hp
  | paging tmsi =>
    cases h
    exact handsOver_nothing rfl rfl rfl (srb1Pdus_paging s.camped tmsi)
      (responses_paging s.camped tmsi)
  | other =>
    cases h
    exact handsOver_nothing rfl rfl rfl rfl rfl

omit [DecidableEq P] in
theorem srb1Pdus_icsResponse (ranUeId : Nat) (pending : Option PendingIcs) :
    srb1Pdus (icsResponse ranUeId pending : List (Output P)) = [] := by
  cases pending <;> rfl

omit [DecidableEq P] in
theorem responses_icsResponse (ranUeId : Nat) (pending : Option PendingIcs) :
    Ran.responses (icsResponse ranUeId pending : List (Output P)) =
      pending.toList.map fun ics => (ics.amfUeId, ranUeId, ics.admitted) := by
  cases pending <;> rfl

omit [DecidableEq P] in
/-- What was held goes out one after the other. -/
theorem pdus_heldRelays (ue : UeCtx P) (held : List Bytes) :
    (ue.dlNasAll F held).1.map (fun payload => (ue.peer, payload)) =
      (ue.heldRelays F held).map (Relay.pdu F) := by
  induction held generalizing ue with
  | nil => rfl
  | cons nas held ih => exact congrArg (_ :: ·) (ih (ue.dlNasSrb1 F nas).2)

omit [DecidableEq P] in
theorem nas_heldRelays (ue : UeCtx P) (held : List Bytes) :
    (ue.heldRelays F held).filterMap Relay.nas = held := by
  induction held generalizing ue with
  | nil => rfl
  | cons nas held ih => exact congrArg (nas :: ·) (ih (ue.dlNasSrb1 F nas).2)

omit [DecidableEq P] in
theorem peer_heldRelays (ue : UeCtx P) (held : List Bytes) :
    ∀ peer ∈ (ue.heldRelays F held).map Relay.peer, peer = ue.peer := by
  induction held generalizing ue with
  | nil => exact fun _ hp => absurd hp List.not_mem_nil
  | cons nas held ih =>
    intro peer hp
    exact (List.mem_cons.mp hp).elim id (ih (ue.dlNasSrb1 F nas).2 peer)

omit [DecidableEq P] in
theorem pending_dlNasAll (ue : UeCtx P) (held : List Bytes) :
    (ue.dlNasAll F held).2.pendingDlNas = ue.pendingDlNas ∧
      (ue.dlNasAll F held).2.pendingIcs = ue.pendingIcs ∧
      (ue.dlNasAll F held).2.peer = ue.peer := by
  induction held generalizing ue with
  | nil => exact ⟨rfl, rfl, rfl⟩
  | cons nas held ih => exact ih (ue.dlNasSrb1 F nas).2

/-- Confirming AS security hands on what was held, and answers what was pending. -/
theorem handsOver_confirmed {peer : P} {payload : Bytes} {found : Nat × UeCtx P}
    (hconfirmed : s.confirmed F peer payload = some found)
    (h : s.handleUu F peer (.srb SRB1 payload) = some (out, s')) :
    HandsOver F s (.uu peer (.srb SRB1 payload)) out s' := by
  have hne : SRB1 ≠ SRB0 := by decide
  have hnew : (Event.uu peer (.srb SRB1 payload)).newUes F = 0 := by
    simp [Event.newUes, UlMessage.newUes, hne]
  obtain ⟨ranUeId, ue⟩ := found
  obtain ⟨before, rrc, -, hbefore, hopened, hparse, hue⟩ := confirmed_eq_some hconfirmed
  rw [handleUu_confirmed hconfirmed, onAsSecurityComplete_putUe] at h
  cases h
  let relays := { ue with pendingDlNas := [], pendingIcs := none }.heldRelays F ue.pendingDlNas
  let answered : List Answer := ue.pendingIcs.toList.map fun ics =>
    { ranUeId, ics, srb1 := before.srb1, payload }
  have hentries : s.entries F (.uu peer (.srb SRB1 payload)) =
      (relays.map Entry.relayed ++ answered.map Entry.answered).map fun x => (ranUeId, x) := by
    simp [entries, hconfirmed, hbefore, relays, answered, Function.comp_def]
  have hanswered : ∀ a ∈ answered, a.Verified F := by
    intro a ha
    obtain ⟨ics, -, rfl⟩ := List.mem_map.mp ha
    exact ⟨rrc, hopened, hparse⟩
  obtain ⟨hpdu, hnas, haddressed, hrequests, hanswers, hpeers⟩ := relayed_map F relays
  obtain ⟨hpdu', hnas', haddressed', hrequests', hanswers', hpeers'⟩ := answered_map (P := P) F answered
  obtain ⟨hheld, hics, hpeer⟩ := pending_dlNasAll (F := F)
    { ue with pendingDlNas := [], pendingIcs := none } ue.pendingDlNas
  refine ⟨?_, ?_, ?_⟩
  · rw [hentries, srb1Pdus_append, srb1Pdus_map, hpeer, pdus_heldRelays, List.filterMap_map,
      List.filterMap_append]
    exact congrArg₂ _ hpdu.symm ((srb1Pdus_icsResponse _ _).trans hpdu'.symm)
  · have hall : answers (relays.map Entry.relayed ++ answered.map Entry.answered) = answered := by
      rw [answers_append, hanswers, hanswers', List.nil_append]
    rw [hentries, responses_append, responses_map, responses_icsResponse, List.filterMap_map,
      List.nil_append]
    change _ = (relays.map Entry.relayed ++ answered.map Entry.answered).filterMap
      fun x : Entry P => x.answer.map Answer.response
    rw [← List.map_filterMap]
    change _ = (answers _).map _
    rw [hall, List.map_map]
    rfl
  · rw [hentries, hnew]
    refine ⟨_, .change _ hbefore rfl fun _ h hkeeps => ?_⟩
    have hsame : ue.pendingDlNas = before.pendingDlNas ∧ ue.pendingIcs = before.pendingIcs ∧
        ue.peer = before.peer := by
      rw [hue]
      exact ⟨rfl, rfl, rfl⟩
    refine hkeeps.append ?_ (fun _ => hheld) ?_ ?_ (hpeer.trans hsame.2.2) ?_
    · rw [relayedNas_append, addressedNas_append, hnas, hnas', haddressed, haddressed',
        nas_heldRelays, hheld, hsame.1]
      simp
    · rw [answers_append, hanswers, hanswers', requests_append, hrequests, hrequests',
        UeCtx.waiting, hics, List.nil_append, List.map_map]
      change (ue.pendingIcs.toList.map _) ++ [] = before.waiting.toList ++ []
      rw [hsame.2.1, UeCtx.waiting]
      cases before.pendingIcs <;> rfl
    · rw [answers_append, hanswers, hanswers', List.nil_append]
      exact hanswered
    · rw [peers_append, hpeers, hpeers', List.append_nil]
      exact fun peer hp => (peer_heldRelays _ _ peer hp).trans hsame.2.2

theorem handsOver_uu {peer : P} (msg : UlMessage) (h : s.handleUu F peer msg = some (out, s')) :
    HandsOver F s (.uu peer msg) out s' := by
  cases msg with
  | srb srbId payload =>
    by_cases hsrb : srbId = SRB0
    · subst hsrb
      have hne : SRB0 ≠ SRB1 := by decide
      have hentries : s.entries F (.uu peer (.srb SRB0 payload)) = [] := by
        rw [entries, if_neg hne]
      simp only [handleUu, if_true] at h
      cases hparse : F.parseUlCcch payload with
      | none =>
        rw [hparse] at h
        cases h
        exact handsOver_nothing hentries (by simp [Event.newUes, UlMessage.newUes, hparse]) rfl rfl
          rfl
      | some msg =>
        rw [hparse] at h
        cases msg with
        | rrcSetupRequest ueIdentity cause =>
          cases h
          refine ⟨by rw [hentries]; rfl, by rw [hentries]; rfl, ?_⟩
          rw [hentries]
          simp only [Event.newUes, UlMessage.newUes, if_true, hparse]
          exact ⟨_, .enter peer⟩
        | other =>
          cases h
          exact handsOver_nothing hentries (by simp [Event.newUes, UlMessage.newUes, hparse]) rfl
            rfl rfl
    · have hnew : (Event.uu peer (.srb srbId payload)).newUes F = 0 := if_neg hsrb
      by_cases hsrb1 : srbId = SRB1
      · subst hsrb1
        cases hconfirmed : s.confirmed F peer payload with
        | none =>
          have hentries : s.entries F (.uu peer (.srb SRB1 payload)) = [] := by
            simp [entries, hconfirmed]
          obtain ⟨hout, hstate⟩ := handleUu_unconfirmed hconfirmed h
          have hsent : srb1Pdus out = [] ∧ Ran.responses out = [] := by
            obtain rfl | ⟨ranUeId, nas, rfl⟩ | ⟨amfUeId, ranUeId, nas, rfl⟩ := hout
            · exact ⟨rfl, rfl⟩
            · exact ⟨rfl, rfl⟩
            · exact ⟨rfl, rfl⟩
          obtain rfl | ⟨ranUeId, ue, hue, rfl⟩ := hstate
          · exact handsOver_nothing hentries hnew rfl hsent.1 hsent.2
          · exact handsOver_silent hentries hnew hue rfl rfl rfl (integrity_unprotect ue.srb1 payload) rfl
              hsent.1 hsent.2
        | some found =>
          exact handsOver_confirmed hconfirmed h
      · rw [handleUu, if_neg hsrb, if_neg hsrb1] at h
        cases h
        exact handsOver_nothing (by rw [entries, if_neg hsrb1]) hnew rfl rfl rfl
  | idle =>
    rw [handleUu] at h
    split at h
    next =>
      cases h
      exact handsOver_nothing rfl rfl rfl rfl rfl
    next =>
      cases h
      exact handsOver_nothing rfl rfl rfl rfl rfl
  | data psi packet =>
    rw [handleUu] at h
    split at h
    next =>
      cases h
      exact handsOver_nothing rfl rfl rfl rfl rfl
    next ranUeId ue x hx =>
      obtain ⟨-, hue, -⟩ := uplinkSession_eq_some.mp hx
      dsimp only at h
      split at h
      next =>
        cases h
        exact handsOver_silent rfl rfl hue rfl rfl rfl rfl rfl rfl rfl
      next =>
        split at h
        next =>
          cases h
          exact handsOver_silent rfl rfl hue rfl rfl rfl rfl rfl rfl rfl
        next =>
          cases h
          exact handsOver_silent rfl rfl hue rfl rfl rfl rfl rfl rfl rfl

theorem handsOver_n3 (msg : N3Message) (h : s.handleN3 F msg = some (out, s')) :
    HandsOver F s (.n3 msg) out s' := by
  cases msg with
  | gPdu teid qfi payload =>
    rw [handleN3] at h
    split at h
    next =>
      cases h
      exact handsOver_nothing rfl rfl rfl rfl rfl
    next =>
      obtain ⟨⟨ranUeId, ue, x⟩, hx, hmap⟩ := Option.map_eq_some_iff.mp h
      obtain ⟨psi, peer, -, hue, -⟩ := downlinkSession_eq_some.mp hx
      cases hmap
      exact handsOver_silent rfl rfl hue rfl rfl rfl rfl rfl rfl rfl
  | echoRequest sequence =>
    cases h
    exact handsOver_nothing rfl rfl rfl rfl rfl
  | endMarker teid =>
    cases h
    exact handsOver_nothing rfl rfl rfl rfl rfl
  | other =>
    cases h
    exact handsOver_nothing rfl rfl rfl rfl rfl

theorem handsOver_handle (e : Event P) (h : s.handle F cfg e = some (out, s')) :
    HandsOver F s e out s' := by
  cases e with
  | ngap pdu => exact handsOver_ngap pdu h
  | uu peer msg => exact handsOver_uu msg h
  | n3 msg => exact handsOver_n3 msg h

end GnbState

end Radian.Ran
