import Radian.Nas.Replay
import Radian.Ran.Downlink

/-!
# Downlink NAS in order

Over every run on one N2 association, what becomes of the NAS messages and the Initial Context Setups
that come for a UE context.

- `Courier` — the gNB, and the history of each UE context.
- `Courier.InOrder` — NAS is handed on once and in order, and each Initial Context Setup is answered.
- `inOrder_of_heeds` — it is so while nothing overtakes what is held or takes the place of what is
  pending.
-/

namespace Radian.Ran

open Keyed (Map)
open Histories (Kept)
open Security (Bytes)

variable {P : Type} [DecidableEq P]

/-- The gNB over one N2 association, with the history of each UE context. -/
structure Courier (P : Type) [DecidableEq P] where
  state : GnbState P := {}
  births : Nat := 0
  /-- The number of the UE context under a RAN UE id. -/
  born : Nat → Nat := fun _ => 0
  /-- What happened so far, each entry with the number of its UE context. -/
  log : List (Nat × Entry P) := []
  /-- The PDUs sent on SRB1, each to an endpoint, and the Initial Context Setup Responses, so far. -/
  sent : List (P × Bytes) := []
  responses : List (Nat × Nat × List (UInt8 × Nat × Pfcp.Ipv4Addr)) := []

namespace Courier

variable (F : Functions) (cfg : GnbState.GnbConfig)

/-- The books after an event. -/
def after (w : Courier P) (s' : GnbState P) (out : List (Output P)) (entries : List (Nat × Entry P))
    (newUes : Nat) : Courier P :=
  { state := s'
    births := w.births + newUes
    born := if newUes = 0 then w.born else Function.update w.born w.state.nextRanUeId w.births
    log := w.log ++ entries.map fun x => (w.born x.1, x.2)
    sent := w.sent ++ srb1Pdus out
    responses := w.responses ++ Ran.responses out }

def step (w : Courier P) (e : Event P) : Courier P :=
  w.after (((w.state.handle F cfg e).map Prod.snd).getD w.state)
    (((w.state.handle F cfg e).map Prod.fst).getD []) (w.state.entries F e) (e.newUes F)

/-- What happened to the UE context under a RAN UE id. -/
def history (w : Courier P) (ranUeId : Nat) : List (Entry P) := Histories.World.of (w.born ranUeId) w.log

/-- For each UE context, NAS is handed on once and in order and Initial Context Setups are answered. -/
structure InOrder (w : Courier P) : Prop where
  /-- What goes down on SRB1 and the responses are those of the histories. -/
  sent : w.sent = w.log.filterMap fun x => x.2.pdu F
  responses : w.responses = w.log.filterMap fun x => x.2.answer.map Answer.response
  /-- What goes down for a UE context goes to its endpoint. -/
  own : ∀ ranUeId ue, w.state.ues.lookup ranUeId = some ue →
    ∀ peer ∈ peers (w.history ranUeId), peer = ue.peer
  inOrder : ∀ ranUeId ue, w.state.ues.lookup ranUeId = some ue →
    relayedNas (w.history ranUeId) <+: addressedNas (w.history ranUeId)
  /-- Once AS security is complete, all of it has been handed on. -/
  complete : ∀ ranUeId ue, w.state.ues.lookup ranUeId = some ue → ue.pendingIcs = none →
    relayedNas (w.history ranUeId) = addressedNas (w.history ranUeId)
  /-- What the AMF protects from some point on, the UE accepts. -/
  accepted : ∀ ranUeId ue, w.state.ues.lookup ranUeId = some ue →
    ∀ (Msg : Type) (A : Security.Algorithms) (C : Nas.Codec Msg) (tx rx : Nas.NasSecurityContext)
      (ms : List (Msg × UInt8)) (before pdus : List Bytes), A.Involutive → C.Inverts →
      Nas.NasSecurityContext.SameKeys tx rx → rx.count 1 = tx.count 1 →
      (tx.count 1).toNat + ms.length ≤ 2 ^ 24 → tx.sendAll A C 1 ms = some pdus →
      addressedNas (w.history ranUeId) = before ++ pdus →
      rx.receiveAll A C 1 ((relayedNas (w.history ranUeId)).drop before.length) <+:
        ms.map fun m => some m.1
  /-- A response goes to each request in turn, sent upon a Security Mode Complete that verified under the
  key of that request. -/
  answered : ∀ ranUeId ue, w.state.ues.lookup ranUeId = some ue →
    (answers (w.history ranUeId)).map Answer.request <+: requests (w.history ranUeId)
  allAnswered : ∀ ranUeId ue, w.state.ues.lookup ranUeId = some ue → ue.pendingIcs = none →
    (answers (w.history ranUeId)).map Answer.request = requests (w.history ranUeId)
  verified : ∀ ranUeId ue, w.state.ues.lookup ranUeId = some ue →
    ∀ a ∈ answers (w.history ranUeId), a.Verified F

/-- The UE contexts and their histories. -/
def view (w : Courier P) : Histories.World (UeCtx P) (Entry P) :=
  { ctxs := fun ranUeId => w.state.ues.lookup ranUeId, born := w.born, births := w.births, log := w.log }

variable {F cfg} {w : Courier P}

/-- A context whose books are kept is served in order. -/
theorem inOrder_of_kept (h : Kept (UeCtx.Keeps F) w.view)
    (hsent : w.sent = w.log.filterMap fun x => x.2.pdu F)
    (hresponses : w.responses = w.log.filterMap fun x => x.2.answer.map Answer.response) :
    w.InOrder F := by
  have hkeeps : ∀ ranUeId ue, w.state.ues.lookup ranUeId = some ue → ue.Keeps F (w.history ranUeId) :=
    h.holds
  have hprefix : ∀ ranUeId ue, w.state.ues.lookup ranUeId = some ue →
      relayedNas (w.history ranUeId) <+: addressedNas (w.history ranUeId) := fun ranUeId ue hue =>
    ⟨ue.pendingDlNas, (hkeeps ranUeId ue hue).nas⟩
  refine ⟨hsent, hresponses, fun ranUeId ue hue => (hkeeps ranUeId ue hue).own, hprefix,
    ?_, ?_, ?_, ?_, ?_⟩
  · intro ranUeId ue hue hics
    have hnas := (hkeeps ranUeId ue hue).nas
    rwa [(hkeeps ranUeId ue hue).held hics, List.append_nil] at hnas
  · intro ranUeId ue hue Msg A C tx rx ms before pdus hinv hcodec hkeys hcount hlast hsend haddressed
    have hrest : (relayedNas (w.history ranUeId)).drop before.length <+: pdus := by
      obtain ⟨rest, hrest⟩ := hprefix ranUeId ue hue
      refine ⟨rest.drop (before.length - (relayedNas (w.history ranUeId)).length), ?_⟩
      rw [← List.drop_append, hrest, haddressed, List.drop_left]
    rw [← Nas.NasSecurityContext.receiveAll_sendAll hinv hcodec hkeys hcount hlast hsend]
    exact Nas.NasSecurityContext.receiveAll_prefix hrest
  · exact fun ranUeId ue hue => ⟨ue.waiting.toList, (hkeeps ranUeId ue hue).requests⟩
  · intro ranUeId ue hue hics
    have hrequests := (hkeeps ranUeId ue hue).requests
    rwa [UeCtx.waiting, hics, Option.map_none, Option.toList_none, List.append_nil] at hrequests
  · exact fun ranUeId ue hue => (hkeeps ranUeId ue hue).verified

/-- Each event takes the histories on as its entries say. -/
theorem view_after {ok : Prop} {s' : GnbState P} {out : List (Output P)} {entries : List (Nat × Entry P)}
    {newUes : Nat} {es : List (Histories.Event (UeCtx P) (Entry P))}
    (h : Hands F w.state ok s' entries newUes es) :
    (w.after s' out entries newUes).view = Runs.run Histories.World.step w.view es := by
  cases h with
  | stay hues => simp [view, after, hues]
  | @change _ ranUeId ue ue' items hue hues hkeeps =>
    have hctxs : (fun id => s'.ues.lookup id) =
        Function.update (fun id => w.state.ues.lookup id) ranUeId (some ue') := by
      funext id
      rw [hues, Map.lookup_insert_eq, Function.update_apply]
    simp only [view, after, hctxs, List.map_map, Nat.add_zero, if_true, Runs.run_cons, Runs.run_nil]
    rfl
  | enter peer =>
    have hctxs : (fun id => (w.state.newUe peer).2.ues.lookup id) = Function.update
        ((w.state.byPeer.lookup peer).elim (fun id => w.state.ues.lookup id)
          fun old => Function.update (fun id => w.state.ues.lookup id) old none)
        w.state.nextRanUeId (some { peer }) := by
      funext id
      rw [Function.update_apply, GnbState.newUe]
      dsimp only
      rw [Map.lookup_insert_eq]
      split
      · rfl
      · cases w.state.byPeer.lookup peer with
        | none => rfl
        | some old =>
          dsimp only [Option.elim_some]
          rw [Map.lookup_erase_eq, Function.update_apply]
    rcases hold : w.state.byPeer.lookup peer with _ | old
    all_goals
      rw [hold] at hctxs
      simp only [view, after, hctxs, List.map_nil, List.append_nil, if_neg Nat.one_ne_zero]
      rfl
  | @leave _ ranUeId ue items hue hues hkeeps =>
    have hctxs : (fun id => s'.ues.lookup id) =
        Function.update (Function.update (fun id => w.state.ues.lookup id) ranUeId (some ue)) ranUeId
          none := by
      funext id
      rw [hues, Function.update_idem, Function.update_apply]
    simp only [view, after, hctxs, List.map_map, Nat.add_zero, if_true, Runs.run_cons, Runs.run_nil]
    rfl

/-- Each UE context goes on as its history does. -/
theorem kept_after {ok : Prop} {s' : GnbState P} {out : List (Output P)} {entries : List (Nat × Entry P)}
    {newUes : Nat} {es : List (Histories.Event (UeCtx P) (Entry P))}
    (hhands : Hands F w.state ok s' entries newUes es) (hok : ok) (h : Kept (UeCtx.Keeps F) w.view) :
    Kept (UeCtx.Keeps F) (w.after s' out entries newUes).view := by
  rw [view_after hhands]
  refine h.run ?_
  cases hhands with
  | stay hues => trivial
  | change items hue hues hkeeps => exact ⟨⟨_, hue, hkeeps hok _ (h.holds _ _ hue)⟩, trivial⟩
  | enter peer =>
    cases w.state.byPeer.lookup peer with
    | none => exact ⟨UeCtx.Keeps.start peer, trivial⟩
    | some old => exact ⟨trivial, UeCtx.Keeps.start peer, trivial⟩
  | leave items hue hues hkeeps =>
    exact ⟨⟨_, hue, hkeeps _ (h.holds _ _ hue)⟩, trivial, trivial⟩

/-- Where an `expect` would fail, nothing happens. -/
theorem entries_of_none {s : GnbState P} {e : Event P} (h : s.handle F cfg e = none) :
    s.entries F e = [] ∧ e.newUes F = 0 := by
  have hne : SRB1 ≠ SRB0 := by decide
  obtain ⟨peer, payload, rfl, hconfirmed⟩ := GnbState.handle_eq_none h
  constructor
  · simp [GnbState.entries, hconfirmed]
  · simp [Event.newUes, UlMessage.newUes, hne]

/-- What is kept of the books over a step. -/
structure Books (F : Functions) (w : Courier P) : Prop where
  kept : Kept (UeCtx.Keeps F) w.view
  sent : w.sent = w.log.filterMap fun x => x.2.pdu F
  responses : w.responses = w.log.filterMap fun x => x.2.answer.map Answer.response

theorem Books.step (h : w.Books F) {e : Event P} (hheeds : w.state.Heeds e) (hone : e.OneSession) :
    (w.step F cfg e).Books F := by
  cases hhandle : w.state.handle F cfg e with
  | none =>
    obtain ⟨hentries, hnew⟩ := entries_of_none hhandle
    rw [Courier.step, hhandle, hentries, hnew]
    refine ⟨kept_after (F := F) (.stay rfl) trivial h.kept, ?_, ?_⟩
    · simp [after, srb1Pdus, h.sent]
    · simp [after, Ran.responses, h.responses]
  | some result =>
    obtain ⟨out, s'⟩ := result
    obtain ⟨hsent, hresponses, es, hhands⟩ := GnbState.handsOver_handle e hhandle
    rw [Courier.step, hhandle]
    refine ⟨kept_after hhands ⟨hheeds, hone⟩ h.kept, ?_, ?_⟩
    · simp [after, h.sent, hsent, List.filterMap_map]
    · simp [after, h.responses, hresponses, List.filterMap_map]

end Courier

/-- **Downlink NAS in order.** In every run in which requests set up one session at most, no NAS message
is addressed to a UE context that holds one for after AS security, and no Initial Context Setup comes
while one is pending, NAS is handed to each UE once and in order, none of it is rejected for its order, and
each Initial Context Setup is answered once, upon a Security Mode Complete under its own keys. -/
theorem inOrder_of_heeds (F : Functions) (cfg : GnbState.GnbConfig) (es : List (Event P))
    (hone : ∀ e ∈ es, e.OneSession)
    (hheeds : Runs.Along (Courier.step F cfg) (fun w e => w.state.Heeds e) {} es) :
    Courier.InOrder F (Runs.run (Courier.step F cfg) {} es) := by
  have hbooks := Runs.invariant_along (I := Courier.Books F)
    (fun w e hstep (h : w.Books F) => h.step hstep.1 hstep.2)
    (Runs.along_and.mpr ⟨hheeds, Runs.along_of_mem hone⟩) ⟨Kept.start, rfl, rfl⟩
  exact Courier.inOrder_of_kept hbooks.kept hbooks.sent hbooks.responses

instance GnbState.decidableHeeds (s : GnbState P) : ∀ e : Event P, Decidable (s.Heeds e)
  | .ngap (.downlinkNasTransport ..) | .ngap (.initialContextSetup ..)
  | .ngap (.pduSessionResourceSetup ..) => by
      dsimp only [GnbState.Heeds]
      infer_instance
  | .ngap (.ueContextReleaseCommand ..) | .ngap (.paging ..) | .ngap .other | .uu _ _ | .n3 _ =>
      instDecidableTrue

omit [DecidableEq P] in
instance Event.decidableOneSession : ∀ e : Event P, Decidable e.OneSession
  | .ngap (.pduSessionResourceSetup ..) => inferInstanceAs (Decidable (_ ≤ 1))
  | .ngap (.downlinkNasTransport ..) | .ngap (.initialContextSetup ..)
  | .ngap (.ueContextReleaseCommand ..) | .ngap (.paging ..) | .ngap .other | .uu _ _ | .n3 _ =>
      instDecidableTrue

/-- Functions that do nothing, but each SRB1 PDU confirms AS security. -/
def confirmingFunctions : Functions :=
  { nullFunctions with
    rrcKeys := fun k _ _ => { krrcInt := k, krrcEnc := [] }
    parseUlDcch := fun _ => some .securityModeComplete }

/-- A UE gets NAS before, with and after its context, and confirms AS security in between. -/
def threeWays : List (Event Nat) :=
  [.uu 10 (.srb 0 []), .ngap (.downlinkNasTransport 1 1 [1]),
    .ngap (.initialContextSetup 1 1 [7] [2] [] [(5, 0x11, 0)]), .uu 10 (.srb 1 [0, 0, 0, 0, 0, 0]),
    .ngap (.downlinkNasTransport 1 1 [3]), .ngap (.pduSessionResourceSetup 1 1 [] [(6, 0x12, 0, [4])])]

theorem inOrder_threeWays :
    Courier.InOrder confirmingFunctions
      (Runs.run (Courier.step confirmingFunctions ⟨0⟩) {} threeWays) :=
  inOrder_of_heeds confirmingFunctions ⟨0⟩ threeWays (by decide +kernel) (by decide +kernel)

/-- The AMF sends a NAS message right behind an Initial Context Setup with one. -/
def behindContext : List (Event Nat) :=
  [.uu 10 (.srb 0 []), .ngap (.initialContextSetup 1 1 [7] [1] [] []),
    .ngap (.downlinkNasTransport 1 1 [2]), .uu 10 (.srb 1 [0, 0, 0, 0, 0, 0])]

/-- **The later message overtakes.** The UE gets what the AMF sent second before what it sent first. -/
theorem not_inOrder :
    ¬ ∀ (F : Functions) (cfg : GnbState.GnbConfig) (es : List (Event Nat)), (∀ e ∈ es, e.OneSession) →
      Courier.InOrder F (Runs.run (Courier.step F cfg) {} es) := by
  intro h
  have hinOrder := h confirmingFunctions ⟨0⟩ behindContext (by decide +kernel)
  let after := Runs.run (Courier.step confirmingFunctions ⟨0⟩) {} behindContext
  have hue : (after.state.ues.lookup 1).isSome = true := by decide +kernel
  have hrelayed : relayedNas (after.history 1) = [[2], [1]] := by decide +kernel
  have haddressed : addressedNas (after.history 1) = [[1], [2]] := by decide +kernel
  obtain ⟨ue, hue⟩ := Option.isSome_iff_exists.mp hue
  have hprefix := hinOrder.inOrder 1 ue hue
  rw [hrelayed, haddressed] at hprefix
  exact absurd hprefix (by decide)

end Radian.Ran
