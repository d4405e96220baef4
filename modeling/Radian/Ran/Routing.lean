import Radian.Ran.Sessions

/-!
# Which session user data goes by

Uplink and downlink data at the gNB, over every run on one N2 association.

- `World.handle_isSome` — no `expect` fails.
- `World.Served` — data goes by the last set-up of the session.
- `World.served_iff_single` — exactly when no context has a session id twice.
- `served_iff` — over a run, exactly when no request sets up an id again in a live context.
-/

namespace Radian.Ran

open Keyed (Map)

variable {P : Type} [DecidableEq P]

namespace World

variable {F : Functions} {cfg : GnbState.GnbConfig} {w : World P}

/-! ### Lookups -/

theorem sessionByDlTeid_sound {s : GnbState P} {teid ranUeId : Nat} {psi : UInt8} {peer : P}
    (h : s.sessionByDlTeid teid = some (ranUeId, psi, peer)) :
    ∃ ue, s.ues.lookup ranUeId = some ue ∧ ue.peer = peer ∧
      ∃ x ∈ ue.sessions, x.dlTeid = teid ∧ x.psi = psi := by
  obtain ⟨⟨id, ue⟩, hmem, hfound⟩ := List.exists_of_findSome?_eq_some h
  obtain ⟨x, hx, hsame⟩ := Option.map_eq_some_iff.mp hfound
  simp only [Prod.mk.injEq] at hsame
  obtain ⟨rfl, rfl, rfl⟩ := hsame
  refine ⟨ue, Map.lookup_eq_some_iff.mpr hmem, rfl, x, List.mem_of_find?_eq_some hx, ?_, rfl⟩
  simpa using List.find?_some hx

theorem sessionByDlTeid_isSome {s : GnbState P} {ranUeId : Nat} {ue : UeCtx P} {x : SessionCtx}
    (hue : s.ues.lookup ranUeId = some ue) (hx : x ∈ ue.sessions) :
    (s.sessionByDlTeid x.dlTeid).isSome = true := by
  rw [GnbState.sessionByDlTeid, List.findSome?_isSome_iff]
  refine ⟨⟨ranUeId, ue⟩, Map.lookup_eq_some_iff.mp hue, ?_⟩
  rw [Option.isSome_map, List.find?_isSome]
  exact ⟨x, hx, by simp⟩

/-- A session was set up in its context. -/
theorem Kept.mem_log (h : w.Kept) {ranUeId : Nat} {ue : UeCtx P} {x : SessionCtx}
    (hue : w.state.ues.lookup ranUeId = some ue) (hx : x ∈ ue.sessions) :
    (ranUeId, x.fresh) ∈ w.log := by
  rw [← mem_setUpsOf, ← h.sessions ranUeId ue hue]
  exact List.mem_map_of_mem hx

/-- No TEID is announced twice. -/
theorem Kept.nodup (h : w.Kept) : (w.log.map fun e => e.2.dlTeid).Nodup := by
  rw [h.teids]
  refine List.Nodup.map_on ?_ List.nodup_range
  intro i hi j hj hsame
  have hi := List.mem_range.mp hi
  have hj := List.mem_range.mp hj
  have hfew := h.few
  omega

/-- A TEID belongs to one set-up of one context. -/
theorem Kept.owner (h : w.Kept) {e e' : Nat × SessionCtx} (he : e ∈ w.log) (he' : e' ∈ w.log)
    (hsame : e.2.dlTeid = e'.2.dlTeid) : e = e' :=
  List.inj_on_of_nodup_map h.nodup he he' hsame

/-- The context and the session id that are found by a session's TEID are its own. -/
theorem Kept.sessionByDlTeid (h : w.Kept) {ranUeId : Nat} {ue : UeCtx P} {x : SessionCtx}
    (hue : w.state.ues.lookup ranUeId = some ue) (hx : x ∈ ue.sessions) :
    w.state.sessionByDlTeid x.dlTeid = some (ranUeId, x.psi, ue.peer) := by
  obtain ⟨⟨id, psi, peer⟩, hfound⟩ := Option.isSome_iff_exists.mp (sessionByDlTeid_isSome hue hx)
  obtain ⟨ue', hue', rfl, x', hx', hteid, rfl⟩ := sessionByDlTeid_sound hfound
  have hown := h.owner (h.mem_log hue' hx') (h.mem_log hue hx) hteid
  obtain ⟨rfl, hfresh⟩ := Prod.mk.inj hown
  rw [hue, Option.some_inj] at hue'
  have hpsi : x'.fresh.psi = x.fresh.psi := congrArg SessionCtx.psi hfresh
  rw [psi_fresh, psi_fresh] at hpsi
  rw [hfound, hpsi, hue']

/-! ### No `expect` fails -/

theorem handleNgap_isSome (s : GnbState P) (pdu : NgapPdu) :
    (s.handleNgap F cfg pdu).isSome = true := by
  cases pdu with
  | initialContextSetup amfUeId ranUeId securityKey nas qfis sessions =>
    cases hue : s.ues.lookup ranUeId <;> simp [GnbState.handleNgap, hue]
  | pduSessionResourceSetup amfUeId ranUeId qfis sessions =>
    cases hue : s.ues.lookup ranUeId with
    | none => simp [GnbState.handleNgap, hue]
    | some ue => rcases sessions with _ | ⟨⟨psi, upfTeid, upfAddr, nas⟩, rest⟩ <;>
        simp [GnbState.handleNgap, hue]
  | downlinkNasTransport amfUeId ranUeId nas =>
    cases hue : s.ues.lookup ranUeId <;> simp [GnbState.handleNgap, hue]
  | ueContextReleaseCommand amfUeId ranUeId =>
    rw [GnbState.handleNgap]
    split
    split <;> rfl
  | paging tmsi => rfl
  | other => rfl

theorem Kept.handleUu_isSome (h : w.Kept) (peer : P) (msg : UlMessage) :
    (w.state.handleUu F peer msg).isSome = true := by
  cases msg with
  | srb srbId payload =>
    rw [GnbState.handleUu]
    split
    · split <;> rfl
    · split
      · split
        next => rfl
        next ranUeId hran =>
          obtain ⟨ue, hue, -⟩ := (h.peers ranUeId peer).mp hran
          rw [hue]
          dsimp only
          split
          · rfl
          · split
            · rfl
            · split <;> rfl
            · rw [GnbState.onAsSecurityComplete, Option.isSome_map]
              exact congrArg Option.isSome (AList.lookup_insert w.state.ues)
            · rfl
      · rfl
  | idle =>
    rw [GnbState.handleUu]
    split <;> rfl
  | data psi packet =>
    rw [GnbState.handleUu]
    split
    · rfl
    · dsimp only
      split
      · rfl
      · split <;> rfl

theorem handleN3_isSome (s : GnbState P) (msg : N3Message) : (s.handleN3 F msg).isSome = true := by
  cases msg with
  | gPdu teid qfi payload =>
    rw [GnbState.handleN3]
    split
    next => rfl
    next ranUeId psi peer hteid =>
      obtain ⟨ue, hue, -, x, hx, -, hpsi⟩ := sessionByDlTeid_sound hteid
      have hfound : (ue.sessions.find? fun x => x.psi = psi).isSome = true := by
        rw [List.find?_isSome]
        exact ⟨x, hx, by simpa using hpsi⟩
      obtain ⟨y, hy⟩ := Option.isSome_iff_exists.mp hfound
      rw [GnbState.downlinkSession_eq_some.mpr ⟨psi, peer, hteid, hue, hy⟩]
      rfl
  | echoRequest sequence => rfl
  | endMarker teid => rfl
  | other => rfl

theorem Kept.handle_isSome (h : w.Kept) (e : Event P) : (w.state.handle F cfg e).isSome = true := by
  cases e with
  | ngap pdu => exact handleNgap_isSome w.state pdu
  | uu peer msg => exact h.handleUu_isSome peer msg
  | n3 msg => exact handleN3_isSome w.state msg

/-- What an event does, and what it announces. -/
theorem moves_handle {s s' : GnbState P} {out : List (Output P)} (e : Event P)
    (h : s.handle F cfg e = some (out, s')) :
    Moves s s' (e.setUps F s) (announcements out) (e.newUes F) := by
  cases e with
  | ngap pdu => exact GnbState.moves_ngap pdu h
  | uu peer msg => exact GnbState.moves_uu msg h
  | n3 msg => exact GnbState.moves_n3 msg h

/-- The numbers last for one more step. -/
structure Room (F : Functions) (w : World P) (e : Event P) : Prop where
  teids : w.log.length + (e.setUps F w.state).length < 2 ^ 32
  ues : w.state.nextRanUeId + 1 < 2 ^ 32

theorem Kept.step (h : w.Kept) (cfg : GnbState.GnbConfig) {e : Event P} (hroom : Room F w e) :
    (w.step F cfg e).Kept := by
  have htotal : (w.state.handle F cfg e).isSome = true := h.handle_isSome e
  obtain ⟨⟨out, s'⟩, hhandle⟩ := Option.isSome_iff_exists.mp htotal
  have hkept := h.moves (moves_handle e hhandle) hroom.teids hroom.ues
  rwa [World.step, hhandle]

/-! ### User data -/

/-- User data goes by the last set-ups. -/
structure Served (F : Functions) (cfg : GnbState.GnbConfig) (w : World P) : Prop where
  /-- No `expect` fails, whatever comes next. -/
  total : ∀ e, (w.state.handle F cfg e).isSome = true
  /-- Contexts and endpoints are in bijection. -/
  bijective : ∀ ranUeId peer, w.state.byPeer.lookup peer = some ranUeId ↔
    ∃ ue, w.state.ues.lookup ranUeId = some ue ∧ ue.peer = peer
  /-- What is announced to the AMF was set up so. -/
  announces : ∀ e out s', w.state.handle F cfg e = some (out, s') →
    ∀ a ∈ announcements out, ∃ x ∈ setUpsOf a.1 (w.step F cfg e).log, a.2 = (x.psi, x.dlTeid)
  /-- Uplink data of a session id goes by its last set-up. -/
  uplink : ∀ ranUeId ue psi x, w.state.ues.lookup ranUeId = some ue →
    lastSetUp w.log ranUeId psi = some x →
    ∃ y, w.state.uplinkSession ue.peer psi = some (ranUeId, ue, y) ∧ y.fresh = x ∧
      ∀ packet, (w.state.handle F cfg (.uu ue.peer (.data psi packet))).map Prod.fst =
        some (GnbState.uplinkOutput F y packet)
  /-- Downlink data on the TEID of that set-up goes by it, to the context's endpoint. -/
  downlink : ∀ ranUeId ue psi x, w.state.ues.lookup ranUeId = some ue →
    lastSetUp w.log ranUeId psi = some x →
    ∃ y, w.state.downlinkSession x.dlTeid = some (ranUeId, ue, y) ∧ y.fresh = x ∧
      ∀ qfi payload, (w.state.handle F cfg (.n3 (.gPdu x.dlTeid qfi payload))).map Prod.fst =
        some (GnbState.downlinkOutput F ue.peer y qfi payload)

/-- No context has a session id twice. -/
def Single (w : World P) : Prop :=
  ∀ ranUeId ue, w.state.ues.lookup ranUeId = some ue → (ue.sessions.map fun x => x.psi).Nodup

theorem Kept.announces (h : w.Kept) {e : Event P} {out : List (Output P)} {s' : GnbState P}
    (hhandle : w.state.handle F cfg e = some (out, s')) {a : Nat × UInt8 × Nat}
    (ha : a ∈ announcements out) :
    ∃ x ∈ setUpsOf a.1 (w.step F cfg e).log, a.2 = (x.psi, x.dlTeid) := by
  have hmoves := moves_handle e hhandle
  rw [World.step, setUpsOf_append]
  generalize e.setUps F w.state = new at hmoves
  generalize announcements out = announced at hmoves ha
  generalize e.newUes F = allocated at hmoves
  cases hmoves with
  | stay => cases ha
  | @rewrite ranUeId ue ue' new _ hue hpeer hsessions hpending hannounced hteids _ hues hbyPeer hnextUe
      hnext =>
      obtain ⟨hran, hwhich⟩ := hannounced a ha
      rw [hran, setUpsOf_own]
      obtain hold | ⟨x, hx, hax⟩ := hwhich
      · obtain ⟨x, hx, hax⟩ := h.pending ranUeId ue hue a.2 hold
        exact ⟨x, List.mem_append_left _ hx, hax⟩
      · exact ⟨x, List.mem_append_right _ hx, hax⟩
  | enter peer => cases ha
  | leave => cases ha

/-- Sessions are looked up in a table as in the set-ups. -/
theorem Kept.find? (h : w.Kept) {ranUeId : Nat} {ue : UeCtx P}
    (hue : w.state.ues.lookup ranUeId = some ue) (psi : UInt8) :
    ((setUpsOf ranUeId w.log).find? fun x => x.psi = psi) =
      (ue.sessions.find? fun x => x.psi = psi).map SessionCtx.fresh := by
  rw [← h.sessions ranUeId ue hue, List.find?_map]
  rfl

theorem Kept.nodup_setUpsOf (h : w.Kept) (ranUeId : Nat) :
    ((setUpsOf ranUeId w.log).map fun x => x.dlTeid).Nodup := by
  have hsub := (List.filter_sublist (p := fun e : Nat × SessionCtx => e.1 = ranUeId)
    (l := w.log)).map fun e => e.2.dlTeid
  rw [setUpsOf, List.map_map]
  exact h.nodup.sublist hsub

/-- A context's table has no id twice exactly when the first set-up of each id is its last one. -/
theorem Kept.single_iff (h : w.Kept) {ranUeId : Nat} {ue : UeCtx P}
    (hue : w.state.ues.lookup ranUeId = some ue) :
    (ue.sessions.map fun x => x.psi).Nodup ↔
      ∀ psi, (ue.sessions.find? fun x => x.psi = psi).map SessionCtx.fresh =
        lastSetUp w.log ranUeId psi := by
  have hpsis : (ue.sessions.map fun x => x.psi) =
      (setUpsOf ranUeId w.log).map fun x => x.psi := by
    rw [← h.sessions ranUeId ue hue, List.map_map]
    rfl
  rw [hpsis, ← Keyed.nodup_keys_iff (List.Nodup.of_map _ (h.nodup_setUpsOf ranUeId))]
  refine forall_congr' fun psi => ?_
  rw [h.find? hue, lastSetUp]

theorem Kept.served_iff_single (h : w.Kept) : w.Served F cfg ↔ w.Single := by
  constructor
  · intro hserved ranUeId ue hue
    rw [h.single_iff hue]
    intro psi
    rcases hlast : lastSetUp w.log ranUeId psi with _ | x
    · rw [lastSetUp, List.find?_eq_none] at hlast
      rw [← h.find? hue, List.find?_eq_none]
      exact fun x hx => hlast x (List.mem_reverse.mpr hx)
    · obtain ⟨y, hy, hfresh, -⟩ := hserved.uplink ranUeId ue psi x hue hlast
      obtain ⟨-, -, hfind⟩ := GnbState.uplinkSession_eq_some.mp hy
      rw [hfind, Option.map_some, hfresh]
  · intro hsingle
    have hlookup : ∀ {ranUeId ue psi x}, w.state.ues.lookup ranUeId = some ue →
        lastSetUp w.log ranUeId psi = some x →
        ∃ y, (ue.sessions.find? fun x => x.psi = psi) = some y ∧ y.fresh = x ∧ y ∈ ue.sessions ∧
          y.psi = psi := by
      intro ranUeId ue psi x hue hlast
      have hfound := (h.single_iff hue).mp (hsingle ranUeId ue hue) psi
      rw [hlast] at hfound
      obtain ⟨y, hy, hfresh⟩ := Option.map_eq_some_iff.mp hfound
      exact ⟨y, hy, hfresh, List.mem_of_find?_eq_some hy, by simpa using List.find?_some hy⟩
    refine ⟨fun e => h.handle_isSome e, h.peers, fun e out s' hhandle a ha => h.announces hhandle ha,
      ?_, ?_⟩
    · intro ranUeId ue psi x hue hlast
      obtain ⟨y, hy, hfresh, -⟩ := hlookup hue hlast
      have hsession := GnbState.uplinkSession_eq_some.mpr
        ⟨(h.peers ranUeId ue.peer).mpr ⟨ue, hue, rfl⟩, hue, hy⟩
      exact ⟨y, hsession, hfresh, GnbState.handleUu_data hsession⟩
    · intro ranUeId ue psi x hue hlast
      obtain ⟨y, hy, hfresh, hmem, rfl⟩ := hlookup hue hlast
      have hteid : x.dlTeid = y.dlTeid := by rw [← hfresh, dlTeid_fresh]
      have hfound := h.sessionByDlTeid hue hmem
      rw [← hteid] at hfound
      have hsession := GnbState.downlinkSession_eq_some.mpr ⟨y.psi, ue.peer, hfound, hue, hy⟩
      exact ⟨y, hsession, hfresh, GnbState.handleN3_gPdu hfound hsession⟩

/-! ### Requests that set up an id again -/

/-- The UE context and the session ids that a request sets up sessions for. -/
def target : NgapPdu → Option (Nat × List UInt8)
  | .initialContextSetup _ ranUeId _ _ _ sessions => some (ranUeId, sessions.map fun x => x.1)
  | .pduSessionResourceSetup _ ranUeId _ sessions =>
      some (ranUeId, (sessions.take 1).map fun x => x.1)
  | _ => none

/-- A request to set up sessions names none that its context already has, and none twice. -/
def Heeds (w : World P) : Event P → Prop
  | .ngap pdu => ∀ t ∈ target pdu, ∀ ue ∈ w.state.ues.lookup t.1,
      t.2.Nodup ∧ ∀ psi ∈ t.2, psi ∉ ue.sessions.map fun x => x.psi
  | _ => True

instance (ue : UeCtx P) (psis : List UInt8) :
    Decidable (∀ psi ∈ psis, psi ∉ ue.sessions.map fun x => x.psi) := List.decidableBAll _ psis

instance (w : World P) : ∀ e : Event P, Decidable (w.Heeds e)
  | .ngap _ => by
      dsimp only [Heeds]
      infer_instance
  | .uu _ _ | .n3 _ => instDecidableTrue

theorem psi_setUps (s : GnbState P) (pdu : NgapPdu) (ranUeId : Nat) :
    (setUpsOf ranUeId (s.setUps F pdu)).map (fun x => x.psi) =
      match target pdu with
      | some (id, psis) => if id = ranUeId ∧ (s.ues.lookup id).isSome = true then psis else []
      | none => [] := by
  cases pdu with
  | initialContextSetup amfUeId id securityKey nas qfis sessions =>
    simp only [GnbState.setUps, target]
    cases hue : s.ues.lookup id with
    | none => simp [setUpsOf]
    | some ue =>
      simp only [Option.isSome_some, if_true, and_true]
      by_cases hid : id = ranUeId
      · subst hid
        rw [if_pos rfl, setUpsOf_own, psi_admitted]
      · rw [if_neg hid, setUpsOf_other (Ne.symm hid), List.map_nil]
  | pduSessionResourceSetup amfUeId id qfis sessions =>
    simp only [GnbState.setUps, target]
    cases hue : s.ues.lookup id with
    | none => simp [setUpsOf]
    | some ue =>
      simp only [Option.isSome_some, and_true]
      by_cases hid : id = ranUeId
      · subst hid
        rw [if_pos rfl, setUpsOf_own, psi_admitted, List.map_map]
        rfl
      · rw [if_neg hid, setUpsOf_other (Ne.symm hid), List.map_nil]
  | _ => rfl

/-- A context that is set up for is there, before and afterwards. -/
theorem live_of_setUp {s s' : GnbState P} {new : List (Nat × SessionCtx)}
    {announced : List (Nat × UInt8 × Nat)} {allocated : Nat}
    (h : Moves s s' new announced allocated) {ranUeId : Nat} (hnew : setUpsOf ranUeId new ≠ []) :
    (s.ues.lookup ranUeId).isSome = true ∧ ∃ ue, s'.ues.lookup ranUeId = some ue := by
  cases h with
  | stay => exact absurd rfl hnew
  | enter peer => exact absurd rfl hnew
  | leave => exact absurd rfl hnew
  | @rewrite id ue ue' new _ hue hpeer hsessions hpending hannounced hteids _ hues hbyPeer hnextUe
      hnext =>
      by_cases hid : ranUeId = id
      · subst hid
        rw [hue, hues, AList.lookup_insert]
        exact ⟨rfl, ue', rfl⟩
      · exact absurd (setUpsOf_other hid new) hnew

/-- A context that is there was there before, or has the next identity. -/
theorem live_before {s s' : GnbState P} {new : List (Nat × SessionCtx)}
    {announced : List (Nat × UInt8 × Nat)} {allocated : Nat}
    (h : Moves s s' new announced allocated) {ranUeId : Nat} {ue' : UeCtx P} (hue' : s'.ues.lookup ranUeId = some ue') :
    (∃ ue, s.ues.lookup ranUeId = some ue) ∨ ranUeId = s.nextRanUeId := by
  cases h with
  | stay => exact .inl ⟨ue', hue'⟩
  | enter peer =>
    rw [GnbState.newUe, Map.lookup_insert_eq] at hue'
    split at hue'
    next hid => exact .inr hid
    next =>
      cases hold : s.byPeer.lookup peer with
      | none =>
        rw [hold] at hue'
        exact .inl ⟨ue', hue'⟩
      | some old =>
        rw [hold] at hue'
        dsimp only at hue'
        exact .inl ⟨ue', (Map.of_lookup_erase hue').2⟩
  | leave hue hues hbyPeer hnextUe hnext =>
    rw [hues] at hue'
    split at hue'
    next => cases hue'
    next => exact .inl ⟨ue', hue'⟩
  | @rewrite id ue ue'' new _ hue hpeer hsessions hpending hannounced hteids _ hues hbyPeer hnextUe
      hnext =>
      rw [hues, Map.lookup_insert_eq] at hue'
      split at hue'
      next hid => exact .inl ⟨ue, hid ▸ hue⟩
      next => exact .inl ⟨ue', hue'⟩

theorem Kept.psis (h : w.Kept) {ranUeId : Nat} {ue : UeCtx P}
    (hue : w.state.ues.lookup ranUeId = some ue) :
    (ue.sessions.map fun x => x.psi) = (setUpsOf ranUeId w.log).map fun x => x.psi := by
  rw [← h.sessions ranUeId ue hue, List.map_map]
  rfl

/-- A step leaves every id single exactly when it heeds the side condition. -/
theorem Kept.single_step (h : w.Kept) (hsingle : w.Single) {e : Event P} (hroom : Room F w e) :
    (w.step F cfg e).Single ↔ w.Heeds e := by
  have htotal : (w.state.handle F cfg e).isSome = true := h.handle_isSome e
  obtain ⟨⟨out, s'⟩, hhandle⟩ := Option.isSome_iff_exists.mp htotal
  have hmoves := moves_handle e hhandle
  have hkept := h.step cfg hroom
  have hstate : (w.step F cfg e).state = s' := by rw [World.step, hhandle]; rfl
  have hpsis : ∀ {ranUeId ue'}, s'.ues.lookup ranUeId = some ue' →
      (ue'.sessions.map fun x => x.psi) = (setUpsOf ranUeId w.log).map (fun x => x.psi) ++
        (setUpsOf ranUeId (e.setUps F w.state)).map fun x => x.psi := by
    intro ranUeId ue' hue'
    rw [← hstate] at hue'
    rw [hkept.psis hue', World.step, setUpsOf_append, List.map_append]
  constructor
  · intro hafter
    cases e with
    | uu peer msg => trivial
    | n3 msg => trivial
    | ngap pdu =>
      rintro ⟨id, psis⟩ htarget ue hue
      have hnew := psi_setUps (F := F) w.state pdu id
      rw [Option.mem_def.mp htarget] at hnew
      simp only [Option.mem_def.mp hue, Option.isSome_some, and_self, if_true] at hnew
      by_cases hempty : psis = []
      · subst hempty
        exact ⟨List.nodup_nil, fun _ hmem => nomatch hmem⟩
      · have hne : setUpsOf id (w.state.setUps F pdu) ≠ [] := by
          intro hnil
          rw [hnil] at hnew
          exact hempty hnew.symm
        obtain ⟨-, ue', hue'⟩ := live_of_setUp hmoves hne
        have hnodup := hafter id ue' (by rw [hstate, hue'])
        rw [hpsis hue', Event.setUps, hnew, ← h.psis hue, List.nodup_append] at hnodup
        exact ⟨hnodup.2.1, fun psi hpsi hold => hnodup.2.2 psi hold psi hpsi rfl⟩
  · intro hheeds ranUeId ue' hue'
    rw [hstate] at hue'
    rw [hpsis hue']
    obtain ⟨ue, hue⟩ | hnext := live_before hmoves hue'
    · have hold := hsingle ranUeId ue hue
      have hnothing : ∀ {new : List UInt8}, new = [] →
          ((setUpsOf ranUeId w.log).map (fun x => x.psi) ++ new).Nodup := by
        rintro _ rfl
        rwa [List.append_nil, ← h.psis hue]
      cases e with
      | uu peer msg => exact hnothing rfl
      | n3 msg => exact hnothing rfl
      | ngap pdu =>
        have hnew := psi_setUps (F := F) w.state pdu ranUeId
        cases htarget : target pdu with
        | none =>
          rw [htarget] at hnew
          exact hnothing hnew
        | some t =>
          obtain ⟨id, psis⟩ := t
          rw [htarget] at hnew
          dsimp only at hnew
          by_cases hid : id = ranUeId
          · subst hid
            rw [hue] at hnew
            simp only [Option.isSome_some, and_self, if_true] at hnew
            obtain ⟨hpsis', hdisjoint⟩ := hheeds (id, psis) htarget ue hue
            rw [Event.setUps, hnew, ← h.psis hue, List.nodup_append]
            refine ⟨hold, hpsis', ?_⟩
            rintro psi hpsi _ hpsi' rfl
            exact hdisjoint psi hpsi' hpsi
          · rw [if_neg fun hboth => hid hboth.1] at hnew
            exact hnothing hnew
    · have hold : setUpsOf ranUeId w.log = [] := by
        rw [List.eq_nil_iff_forall_not_mem]
        intro x hx
        have hlt := h.used.2 _ (mem_setUpsOf.mp hx)
        exact Nat.lt_irrefl _ (hnext ▸ hlt)
      have hnew : setUpsOf ranUeId (e.setUps F w.state) = [] := by
        by_contra hne
        have hlt := h.used.1 ranUeId (live_of_setUp hmoves hne).1
        exact Nat.lt_irrefl _ (hnext ▸ hlt)
      rw [hold, hnew]
      exact List.nodup_nil

/-- A message that opens a connection is handled. -/
theorem newUes_of_none {s : GnbState P} {peer : P} {msg : UlMessage}
    (h : s.handleUu F peer msg = none) : msg.newUes F = 0 := by
  cases msg with
  | srb srbId payload =>
    rw [GnbState.handleUu] at h
    rw [UlMessage.newUes]
    split at h
    next =>
      split at h
      next => cases h
      next => cases h
    next hsrb => exact if_neg hsrb
  | idle => rfl
  | data psi packet => rfl

/-- Each step takes as many UE identities as its event says, while they last. -/
theorem nextRanUeId_step (w : World P) (e : Event P)
    (hroom : w.state.nextRanUeId + e.newUes F < 2 ^ 32) :
    (w.step F cfg e).state.nextRanUeId = w.state.nextRanUeId + e.newUes F := by
  cases hhandle : w.state.handle F cfg e with
  | some result =>
    obtain ⟨out, s'⟩ := result
    have hmoves := moves_handle e hhandle
    have hstate : (w.step F cfg e).state = s' := by
      rw [World.step, hhandle]
      rfl
    rw [hstate]
    generalize e.setUps F w.state = new at hmoves
    generalize announcements out = announced at hmoves
    generalize e.newUes F = allocated at hmoves hroom ⊢
    cases hmoves with
    | stay => rfl
    | rewrite hue hpeer hsessions hpending hannounced hteids hues hbyPeer hnextUe hnext => exact hnextUe
    | enter peer => exact Nat.mod_eq_of_lt hroom
    | leave hue hues hbyPeer hnextUe hnext => exact hnextUe
  | none =>
    have hnone : e.newUes F = 0 := by
      cases e with
      | ngap pdu => rfl
      | n3 msg => rfl
      | uu peer msg => exact newUes_of_none hhandle
    rw [World.step, hhandle, hnone]
    rfl

/-- The UE identities and the TEIDs taken over a run. -/
structure Few (F : Functions) (cfg : GnbState.GnbConfig) (es : List (Event P)) : Prop where
  ues : Runs.tally (step F cfg) (fun _ e => e.newUes F) {} es < 2 ^ 32 - 2
  teids : Runs.tally (step F cfg) (fun w e => (e.setUps F w.state).length) {} es < 2 ^ 32 - 2

/-- The numbers last for a run that takes few of them. -/
theorem Few.room {es : List (Event P)} (h : Few F cfg es) :
    Runs.Along (step F cfg) (Room F) {} es := by
  have hues : Runs.Along (step F cfg)
      (fun w e => w.state.nextRanUeId + e.newUes F < 2 ^ 32 - 1) {} es := by
    refine Runs.along_of_tally (c := fun w : World P => w.state.nextRanUeId)
      (f := fun _ (e : Event P) => e.newUes F) (fun w e hroom => ?_) ?_
    · exact nextRanUeId_step w e (by omega)
    · exact Nat.add_lt_of_lt_sub' h.ues
  have hteids : Runs.Along (step F cfg)
      (fun w e => w.log.length + (e.setUps F w.state).length < 2 ^ 32) {} es := by
    refine Runs.along_of_tally (c := fun w : World P => w.log.length) (fun w e _ => ?_) ?_
    · exact List.length_append
    · have hfew := h.teids
      change 0 + _ < _
      omega
  refine Runs.along_imp (I := fun _ => True) (fun _ _ _ _ => trivial) (fun w e _ hboth => ?_) trivial
    (Runs.along_and.mpr ⟨hteids, hues⟩)
  exact ⟨hboth.1, by omega⟩

theorem single_start : (({} : World P)).Single := fun _ _ h => nomatch h

end World

open World in
/-- **Data goes by the last set-up.** In every run that takes fewer than `2 ^ 32 - 2` UE identities and
as many TEIDs, no `expect` fails and user data goes by the last set-up of its session, if and only if no
request sets up a session id again in a context that has it. -/
theorem served_iff (F : Functions) (cfg : GnbState.GnbConfig) (es : List (Event P))
    (hfew : Few F cfg es) :
    Runs.Along (step F cfg) (fun w e => Served F cfg (step F cfg w e)) {} es ↔
      Runs.Along (step F cfg) Heeds {} es := by
  have hroom := hfew.room
  constructor
  · intro hserved
    refine Runs.along_imp (I := fun w => w.Kept ∧ w.Single)
      (P := fun w e => Room F w e ∧ Served F cfg (step F cfg w e)) (fun w e hstep hw => ?_)
      (fun w e hw hstep => ?_) ⟨kept_start, single_start⟩ (Runs.along_and.mpr ⟨hroom, hserved⟩)
    · have hkept := hw.1.step cfg hstep.1
      exact ⟨hkept, hkept.served_iff_single.mp hstep.2⟩
    · have hkept := hw.1.step cfg hstep.1
      exact (hw.1.single_step hw.2 hstep.1).mp (hkept.served_iff_single.mp hstep.2)
  · intro hheeds
    refine Runs.along_imp (I := fun w => w.Kept ∧ w.Single) (P := fun w e => Room F w e ∧ w.Heeds e)
      (fun w e hstep hw => ?_) (fun w e hw hstep => ?_) ⟨kept_start, single_start⟩
      (Runs.along_and.mpr ⟨hroom, hheeds⟩)
    · exact ⟨hw.1.step cfg hstep.1, (hw.1.single_step hw.2 hstep.1).mpr hstep.2⟩
    · have hkept := hw.1.step cfg hstep.1
      exact hkept.served_iff_single.mpr ((hw.1.single_step hw.2 hstep.1).mpr hstep.2)

/-- Functions that do nothing: every CCCH message opens a connection. -/
def nullFunctions : Functions where
  algorithms := { nasMac := fun _ _ _ _ _ _ => 0, nasCipher := fun _ _ _ _ message _ => message }
  rrcKeys _ _ _ := { krrcInt := [], krrcEnc := [] }
  upKeys _ _ _ := { kupInt := [], kupEnc := [] }
  rrcSetup _ _ := []
  dlInformationTransfer _ nas := nas
  securityModeCommand _ _ _ := []
  rrcRelease _ := []
  parseUlCcch _ := some (.rrcSetupRequest 0 0)
  parseUlDcch _ := none

/-- Two UEs camp and get two sessions each; one of them is released and comes back. -/
def twoUes : List (Event Nat) :=
  [.uu 10 (.srb 0 []), .uu 20 (.srb 0 []),
    .ngap (.initialContextSetup 1 1 [] [] [(5, 3)] [(5, 0x11, 0)]),
    .ngap (.pduSessionResourceSetup 2 2 [] [(5, 0x12, 0, [])]),
    .ngap (.pduSessionResourceSetup 1 1 [(6, 2)] [(6, 0x13, 0, [])]),
    .uu 10 (.srb 0 []), .ngap (.initialContextSetup 1 3 [] [] [] [(5, 0x14, 0)])]

theorem served_twoUes :
    Runs.Along (World.step nullFunctions ⟨0⟩)
      (fun w e => World.Served nullFunctions ⟨0⟩ (World.step nullFunctions ⟨0⟩ w e)) {} twoUes :=
  (served_iff nullFunctions ⟨0⟩ twoUes ⟨by decide +kernel, by decide +kernel⟩).mpr (by decide +kernel)

/-- A session is set up a second time, through another tunnel. -/
def setUpAgain : List (Event Nat) :=
  [.uu 10 (.srb 0 []), .ngap (.pduSessionResourceSetup 1 1 [] [(5, 0x11, 0, [])]),
    .ngap (.pduSessionResourceSetup 1 1 [] [(5, 0x12, 0, [])])]

/-- **The first set-up stays.** After a session is set up again, uplink data still goes to the first
tunnel. -/
theorem not_served :
    ¬ ∀ (F : Functions) (cfg : GnbState.GnbConfig) (es : List (Event Nat)), World.Few F cfg es →
      Runs.Along (World.step F cfg) (fun w e => World.Served F cfg (World.step F cfg w e)) {} es := by
  intro h
  have hserved := (h nullFunctions ⟨0⟩ setUpAgain ⟨by decide +kernel, by decide +kernel⟩).2.2.1
  let after := Runs.run (World.step nullFunctions ⟨0⟩) {} setUpAgain
  have hue : (after.state.ues.lookup 1).map UeCtx.peer = some 10 := by decide +kernel
  have hlast : (lastSetUp after.log 1 5).map SessionCtx.upfTeid = some 0x12 := by decide +kernel
  have hfirst : (after.state.uplinkSession 10 5).map (fun r => r.2.2.upfTeid) = some 0x11 := by
    decide +kernel
  obtain ⟨ue, hlookup, hpeer⟩ := Option.map_eq_some_iff.mp hue
  obtain ⟨x, hx, hteid⟩ := Option.map_eq_some_iff.mp hlast
  obtain ⟨y, hsession, hfresh, -⟩ := hserved.uplink 1 ue 5 x hlookup hx
  have hsecond : y.upfTeid = 0x12 := (congrArg SessionCtx.upfTeid hfresh).trans hteid
  have hfound : some y.upfTeid = some 0x11 := by
    rw [hpeer] at hsession
    rw [← hfirst]
    exact (congrArg (Option.map fun r => r.2.2.upfTeid) hsession).symm
  rw [hsecond] at hfound
  exact absurd hfound (by decide)

end Radian.Ran
