import Radian.Ran.Southbound

/-!
# One gNB core under two names for its endpoints

Two gNB cores that serve the same UEs, one of which knows the endpoints by other names and may hold UE
contexts that no endpoint is reached by any more.

- `reaching` — the messages that reach an endpoint.
- `UeCtx.renamed` — a UE context under another name of its endpoint.
- `Counterpart` — one core has the UE contexts of the other whose endpoints are reached.
- `mirrors_handle` — on an event, both say the same to the core network and to the endpoints.
- `Counterpart.enter` — an endpoint opens a connection.
-/

namespace Radian.Ran

open Keyed (Map)
open Security (Bytes)

variable {Q P : Type} [DecidableEq Q] [DecidableEq P]

/-! ### Messages -/

/-- The messages that reach an endpoint. -/
def reaching (reach : Q → Option P) (msgs : List (Q × DlMessage)) : List (P × DlMessage) :=
  msgs.filterMap fun m => (reach m.1).map fun peer => (peer, m.2)

section Reaching

omit [DecidableEq Q] [DecidableEq P]

theorem northbound_icsResponse (ranUeId : Nat) (pending : Option PendingIcs) :
    northbound (GnbState.icsResponse ranUeId pending : List (Output Q)) =
      northbound (GnbState.icsResponse ranUeId pending : List (Output P)) := by
  cases pending <;> rfl

@[simp] theorem reaching_nil (reach : Q → Option P) : reaching reach [] = [] := rfl

theorem reaching_append (reach : Q → Option P) (msgs msgs' : List (Q × DlMessage)) :
    reaching reach (msgs ++ msgs') = reaching reach msgs ++ reaching reach msgs' := List.filterMap_append

theorem reaching_cons_some {reach : Q → Option P} {q : Q} {peer : P} (h : reach q = some peer)
    (msg : DlMessage) (msgs : List (Q × DlMessage)) :
    reaching reach ((q, msg) :: msgs) = (peer, msg) :: reaching reach msgs := by
  simp [reaching, h]

theorem reaching_cons_none {reach : Q → Option P} {q : Q} (h : reach q = none) (msg : DlMessage)
    (msgs : List (Q × DlMessage)) : reaching reach ((q, msg) :: msgs) = reaching reach msgs := by
  simp [reaching, h]

/-- What goes to one endpoint. -/
theorem reaching_of_some {reach : Q → Option P} {q : Q} {peer : P} (h : reach q = some peer)
    {msgs : List (Q × DlMessage)} (hmsgs : ∀ m ∈ msgs, m.1 = q) :
    reaching reach msgs = msgs.map fun m => (peer, m.2) := by
  induction msgs with
  | nil => rfl
  | cons m msgs ih =>
    obtain ⟨rfl, hrest⟩ := List.forall_mem_cons.mp hmsgs
    rw [← Prod.mk.eta (p := m), reaching_cons_some h, ih hrest]
    rfl

theorem reaching_of_none {reach : Q → Option P} {q : Q} (h : reach q = none)
    {msgs : List (Q × DlMessage)} (hmsgs : ∀ m ∈ msgs, m.1 = q) : reaching reach msgs = [] := by
  induction msgs with
  | nil => rfl
  | cons m msgs ih =>
    obtain ⟨rfl, hrest⟩ := List.forall_mem_cons.mp hmsgs
    rw [← Prod.mk.eta (p := m), reaching_cons_none h, ih hrest]

end Reaching

/-! ### UE contexts -/

/-- The UE context under another name of its endpoint. -/
def UeCtx.renamed (ue : UeCtx Q) (peer : P) : UeCtx P where
  peer
  amfUeId := ue.amfUeId
  sessions := ue.sessions
  srb1 := ue.srb1
  rrcTxn := ue.rrcTxn
  pendingDlNas := ue.pendingDlNas
  pendingIcs := ue.pendingIcs
  upKeys := ue.upKeys

omit [DecidableEq Q] [DecidableEq P] in
theorem renamed_dlNasAll (F : Functions) (ue : UeCtx Q) (peer : P) (held : List Bytes) :
    (ue.renamed peer).dlNasAll F held =
      ((ue.dlNasAll F held).1, (ue.dlNasAll F held).2.renamed peer) := by
  induction held generalizing ue with
  | nil => rfl
  | cons nas held ih =>
    have hrest := ih (ue.dlNasSrb1 F nas).2
    have hstep : (ue.renamed peer).dlNasSrb1 F nas =
        ((ue.dlNasSrb1 F nas).1, (ue.dlNasSrb1 F nas).2.renamed peer) := rfl
    simp only [UeCtx.dlNasAll, hstep, hrest]

/-- The UE contexts of `s` whose endpoints are reached, under their names in `d`. -/
structure Counterpart (reach : Q → Option P) (s : GnbState Q) (d : GnbState P) : Prop where
  ues : ∀ ranUeId, d.ues.lookup ranUeId =
    (s.ues.lookup ranUeId).bind fun ue => (reach ue.peer).map ue.renamed
  nextRanUeId : d.nextRanUeId = s.nextRanUeId
  nextDlTeid : d.nextDlTeid = s.nextDlTeid

namespace Counterpart

variable {reach : Q → Option P} {s : GnbState Q} {d : GnbState P} {ranUeId : Nat} {ue ue' : UeCtx Q}
  {peer : P}

theorem lookup_none (h : Counterpart reach s d) (hue : s.ues.lookup ranUeId = none) :
    d.ues.lookup ranUeId = none := by
  rw [h.ues, hue]
  rfl

theorem lookup_some (h : Counterpart reach s d) (hue : s.ues.lookup ranUeId = some ue)
    (hreach : reach ue.peer = some peer) : d.ues.lookup ranUeId = some (ue.renamed peer) := by
  rw [h.ues, hue, Option.bind_some, hreach]
  rfl

theorem lookup_unreached (h : Counterpart reach s d) (hue : s.ues.lookup ranUeId = some ue)
    (hreach : reach ue.peer = none) : d.ues.lookup ranUeId = none := by
  rw [h.ues, hue, Option.bind_some, hreach]
  rfl

/-- Where the contexts of `d` come from. -/
theorem exists_of_lookup (h : Counterpart reach s d) {ctx : UeCtx P}
    (hctx : d.ues.lookup ranUeId = some ctx) :
    ∃ ue, s.ues.lookup ranUeId = some ue ∧ reach ue.peer = some ctx.peer ∧ ctx = ue.renamed ctx.peer := by
  rw [h.ues] at hctx
  obtain ⟨ue, hue, hctx⟩ := Option.bind_eq_some_iff.mp hctx
  obtain ⟨peer, hreach, rfl⟩ := Option.map_eq_some_iff.mp hctx
  exact ⟨ue, hue, hreach, rfl⟩

/-- A context that is reached is rewritten in both. -/
theorem put (h : Counterpart reach s d) (hpeer : ue'.peer = ue.peer) (hreach : reach ue.peer = some peer)
    (ranUeId : Nat) : Counterpart reach (s.putUe ranUeId ue') (d.putUe ranUeId (ue'.renamed peer)) where
  ues id := by
    rw [GnbState.putUe, GnbState.putUe, Map.lookup_insert_eq, Map.lookup_insert_eq]
    by_cases hid : id = ranUeId
    · rw [if_pos hid, if_pos hid, Option.bind_some, hpeer, hreach]
      rfl
    · rw [if_neg hid, if_neg hid]
      exact h.ues id
  nextRanUeId := h.nextRanUeId
  nextDlTeid := h.nextDlTeid

/-- A context goes from both. -/
theorem drop (h : Counterpart reach s d) {s' : GnbState Q} {d' : GnbState P}
    (hs : ∀ id, s'.ues.lookup id = if id = ranUeId then none else s.ues.lookup id)
    (hd : ∀ id, d'.ues.lookup id = if id = ranUeId then none else d.ues.lookup id)
    (hnextUe : s'.nextRanUeId = s.nextRanUeId) (hnextUe' : d'.nextRanUeId = d.nextRanUeId)
    (hnext : s'.nextDlTeid = s.nextDlTeid) (hnext' : d'.nextDlTeid = d.nextDlTeid) :
    Counterpart reach s' d' where
  ues id := by
    rw [hs, hd]
    split
    · rfl
    · exact h.ues id
  nextRanUeId := by rw [hnextUe, hnextUe', h.nextRanUeId]
  nextDlTeid := by rw [hnext, hnext', h.nextDlTeid]

theorem withTeid (h : Counterpart reach s d) (dlTeid : Nat) :
    Counterpart reach { s with nextDlTeid := dlTeid } { d with nextDlTeid := dlTeid } :=
  ⟨h.ues, h.nextRanUeId, rfl⟩

/-- A context that is not reached is rewritten in one. -/
theorem put_unreached (h : Counterpart reach s d) (hue : s.ues.lookup ranUeId = some ue)
    (hpeer : ue'.peer = ue.peer) (hreach : reach ue.peer = none) :
    Counterpart reach (s.putUe ranUeId ue') d where
  ues id := by
    rw [GnbState.putUe, Map.lookup_insert_eq]
    by_cases hid : id = ranUeId
    · rw [if_pos hid, Option.bind_some, hpeer, hreach, hid, h.lookup_unreached hue hreach]
      rfl
    · rw [if_neg hid]
      exact h.ues id
  nextRanUeId := h.nextRanUeId
  nextDlTeid := h.nextDlTeid

end Counterpart

/-- Where each endpoint is reached by one name at most, both know its context by the same identity. -/
theorem Counterpart.byPeer {reach : Q → Option P} {s : GnbState Q} {d : GnbState P}
    (h : Counterpart reach s d) (hs : s.Paired) (hd : d.Paired)
    (hone : ∀ q q' peer, reach q = some peer → reach q' = some peer → q = q') {q : Q} {peer : P}
    (hreach : reach q = some peer) : d.byPeer.lookup peer = s.byPeer.lookup q := by
  apply Option.ext
  intro ranUeId
  rw [hd, hs]
  constructor
  · rintro ⟨ctx, hctx, rfl⟩
    obtain ⟨ue, hue, hpeer, -⟩ := h.exists_of_lookup hctx
    exact ⟨ue, hue, hone _ _ _ hpeer hreach⟩
  · rintro ⟨ue, hue, rfl⟩
    exact ⟨ue.renamed peer, h.lookup_some hue hreach, rfl⟩

/-- Both results come about, say the same to the core network and to the endpoints that are reached, and
leave counterparts. -/
def Mirrors (reach : Q → Option P) (r : Option (List (Output Q) × GnbState Q))
    (r' : Option (List (Output P) × GnbState P)) : Prop :=
  ∃ out s out' d, r = some (out, s) ∧ r' = some (out', d) ∧ northbound out' = northbound out ∧
    southbound out' = reaching reach (southbound out) ∧ Counterpart reach s d

namespace GnbState

variable {reach : Q → Option P} {s : GnbState Q} {d : GnbState P} {F : Functions} {cfg : GnbConfig}

theorem mirrors_nothing (h : Counterpart reach s d) :
    Mirrors reach (some ([], s)) (some (([] : List (Output P)), d)) :=
  ⟨[], s, [], d, rfl, rfl, rfl, rfl, h⟩

/-- A context that is reached is rewritten in both, and its endpoint gets some messages. -/
theorem mirrors_put (h : Counterpart reach s d) {ranUeId : Nat} {ue ue' : UeCtx Q} {ctx : UeCtx P}
    {peer : P} (hreach : reach ue.peer = some peer) {out : List (Output Q)} {out' : List (Output P)}
    (hpeer : ue'.peer = ue.peer) (hctx : ctx = ue'.renamed peer)
    (hnorth : northbound out' = northbound out) (hto : ∀ m ∈ southbound out, m.1 = ue.peer)
    (hsouth : southbound out' = (southbound out).map fun m => (peer, m.2)) :
    Mirrors reach (some (out, s.putUe ranUeId ue')) (some (out', d.putUe ranUeId ctx)) := by
  refine ⟨_, _, _, _, rfl, rfl, hnorth, ?_, hctx ▸ h.put hpeer hreach ranUeId⟩
  rw [hsouth, reaching_of_some hreach hto]

/-- A context that is not reached is rewritten in one, and what it sends reaches nobody. -/
theorem mirrors_unreached (h : Counterpart reach s d) {ranUeId : Nat} {ue ue' : UeCtx Q}
    (hue : s.ues.lookup ranUeId = some ue) (hreach : reach ue.peer = none) {out : List (Output Q)}
    (hpeer : ue'.peer = ue.peer) (hnorth : northbound out = [])
    (hto : ∀ m ∈ southbound out, m.1 = ue.peer) :
    Mirrors reach (some (out, s.putUe ranUeId ue')) (some (([] : List (Output P)), d)) := by
  refine ⟨_, _, _, _, rfl, rfl, hnorth.symm, ?_, h.put_unreached hue hpeer hreach⟩
  rw [reaching_of_none hreach hto]
  rfl

theorem mirrors_ngap (h : Counterpart reach s d) {pdu : NgapPdu} (hpage : ∀ tmsi, pdu ≠ .paging tmsi)
    (hsetUps : ∀ x ∈ s.setUps F pdu, ∀ ue ∈ s.ues.lookup x.1, (reach ue.peer).isSome) :
    Mirrors reach (s.handleNgap F cfg pdu) (d.handleNgap F cfg pdu) := by
  cases pdu with
  | downlinkNasTransport amfUeId ranUeId nas =>
    cases hue : s.ues.lookup ranUeId with
    | none =>
      simp only [handleNgap, hue, h.lookup_none hue]
      exact mirrors_nothing h
    | some ue =>
      cases hreach : reach ue.peer with
      | none =>
        simp only [handleNgap, hue, h.lookup_unreached hue hreach]
        refine mirrors_unreached h hue hreach ?_ ?_ ?_
        · rfl
        · rfl
        · exact southbound_single _ _
      | some peer =>
        simp only [handleNgap, hue, h.lookup_some hue hreach]
        refine mirrors_put h hreach ?_ ?_ ?_ ?_ ?_
        · rfl
        · rfl
        · rfl
        · exact southbound_single _ _
        · rfl
  | initialContextSetup amfUeId ranUeId securityKey nas qfis sessions =>
    cases hue : s.ues.lookup ranUeId with
    | none =>
      simp only [handleNgap, hue, h.lookup_none hue, Option.isNone_none, if_true]
      exact mirrors_nothing h
    | some ue =>
      cases hreach : reach ue.peer with
      | none =>
        rcases sessions with _ | ⟨session, rest⟩
        · simp only [handleNgap, hue, h.lookup_unreached hue hreach, Option.isNone_none,
            Option.isNone_some, Bool.false_eq_true, if_false, if_true, Option.map_some]
          refine mirrors_unreached h hue hreach ?_ ?_ ?_
          · rfl
          · rfl
          · exact southbound_single _ _
        · exfalso
          simp only [setUps, hue, Option.isSome_some, if_true] at hsetUps
          have hreached := hsetUps _ List.mem_cons_self ue hue
          rw [hreach] at hreached
          cases hreached
      | some peer =>
        simp only [handleNgap, hue, h.lookup_some hue hreach, Option.isNone_some,
          Bool.false_eq_true, if_false, Option.map_some, h.nextDlTeid]
        refine mirrors_put (h.withTeid _) hreach ?_ ?_ ?_ ?_ ?_
        · rfl
        · rfl
        · rfl
        · exact southbound_single _ _
        · rfl
  | pduSessionResourceSetup amfUeId ranUeId qfis sessions =>
    cases hue : s.ues.lookup ranUeId with
    | none =>
      simp only [handleNgap, hue, h.lookup_none hue]
      exact mirrors_nothing h
    | some ue =>
      cases hreach : reach ue.peer with
      | none =>
        rcases sessions with _ | ⟨session, rest⟩
        · simp only [handleNgap, hue, h.lookup_unreached hue hreach]
          exact mirrors_nothing h
        · exfalso
          simp only [setUps, hue] at hsetUps
          have hreached := hsetUps _ List.mem_cons_self ue hue
          rw [hreach] at hreached
          cases hreached
      | some peer =>
        rcases sessions with _ | ⟨⟨psi, upfTeid, upfAddr, nas⟩, rest⟩
        · simp only [handleNgap, hue, h.lookup_some hue hreach]
          exact mirrors_nothing h
        · simp only [handleNgap, hue, h.lookup_some hue hreach, Option.map_some, h.nextDlTeid]
          split
          · refine mirrors_put (h.withTeid _) hreach ?_ ?_ ?_ ?_ ?_
            · rfl
            · rfl
            · rfl
            · exact fun m hm => absurd hm List.not_mem_nil
            · rfl
          · refine mirrors_put (h.withTeid _) hreach ?_ ?_ ?_ ?_ ?_
            · rfl
            · rfl
            · rfl
            · exact southbound_single _ _
            · rfl
  | ueContextReleaseCommand amfUeId ranUeId =>
    cases hue : s.ues.lookup ranUeId with
    | none =>
      simp only [handleNgap, hue, h.lookup_none hue, removeUe, Option.map_none]
      exact ⟨_, _, _, _, rfl, rfl, rfl, rfl, h⟩
    | some ue =>
      have hlast : ∀ ue' : UeCtx Q, ∀ id, ((s.ues.insert ranUeId ue').erase ranUeId).lookup id =
          if id = ranUeId then none else s.ues.lookup id := by
        intro ue' id
        rw [Map.lookup_erase_eq, Map.lookup_insert_eq]
        split <;> rfl
      cases hreach : reach ue.peer with
      | none =>
        have hctx := h.lookup_unreached hue hreach
        simp only [handleNgap, hue, hctx, removeUe, putUe, AList.lookup_insert, Option.map_some,
          Option.map_none]
        refine ⟨_, _, _, _, rfl, rfl, ?_, ?_, h.drop (hlast _) (fun id => ?_) rfl rfl rfl rfl⟩
        · rfl
        · symm
          refine reaching_of_none hreach ?_
          simp [UeCtx.protectSrb1, UeCtx.nextTxn]
        · split
          next hid => rw [hid, hctx]
          next => rfl
      | some peer =>
        simp only [handleNgap, hue, h.lookup_some hue hreach, removeUe, putUe, AList.lookup_insert,
          Option.map_some]
        refine ⟨_, _, _, _, rfl, rfl, ?_, ?_, h.drop (hlast _) (fun id => ?_) rfl rfl rfl rfl⟩
        · rfl
        · symm
          refine reaching_of_some hreach ?_
          simp [UeCtx.protectSrb1, UeCtx.nextTxn]
        · rw [Map.lookup_erase_eq, Map.lookup_insert_eq]
          split <;> rfl
  | paging tmsi => exact absurd rfl (hpage tmsi)
  | other => exact mirrors_nothing h

/-! ### Uu -/

section Uu

variable {q : Q} {peer : P}

theorem ueIdsForPeer_counterpart (h : Counterpart reach s d) (hs : s.Paired) (hreach : reach q = some peer)
    (hby : d.byPeer.lookup peer = s.byPeer.lookup q) : d.ueIdsForPeer peer = s.ueIdsForPeer q := by
  simp only [ueIdsForPeer, hby, Option.bind_eq_bind]
  cases hran : s.byPeer.lookup q with
  | none => rfl
  | some ranUeId =>
    obtain ⟨ue, hue, rfl⟩ := (hs ranUeId q).mp hran
    rw [Option.bind_some, Option.bind_some, hue, h.lookup_some hue hreach]
    rfl

theorem mirrors_srb1 (h : Counterpart reach s d) (hs : s.Paired) (hreach : reach q = some peer)
    (hby : d.byPeer.lookup peer = s.byPeer.lookup q) (payload : Bytes) :
    Mirrors reach (s.handleUu F q (.srb SRB1 payload)) (d.handleUu F peer (.srb SRB1 payload)) := by
  have hne : SRB1 ≠ SRB0 := by decide
  simp only [handleUu, if_neg hne, if_true, hby]
  cases hran : s.byPeer.lookup q with
  | none => exact mirrors_nothing h
  | some ranUeId =>
    obtain ⟨ue, hue, rfl⟩ := (hs ranUeId q).mp hran
    have hsrb1 : (ue.renamed peer).srb1 = ue.srb1 := rfl
    simp only [hue, h.lookup_some hue hreach, hsrb1]
    let opened : UeCtx Q := { ue with srb1 := (ue.srb1.unprotect F.algorithms payload).2 }
    have hsilent : ∀ {out : List (Output Q)} {out' : List (Output P)}, northbound out' = northbound out →
        southbound out = [] → southbound out' = [] →
        Mirrors reach (some (out, s.putUe ranUeId opened))
          (some (out', d.putUe ranUeId (opened.renamed peer))) := by
      intro out out' hnorth hsouth hsouth'
      refine mirrors_put h hreach ?_ ?_ hnorth ?_ ?_
      · rfl
      · rfl
      · rw [hsouth]
        exact fun m hm => absurd hm List.not_mem_nil
      · rw [hsouth, hsouth']
        rfl
    cases (ue.srb1.unprotect F.algorithms payload).1 with
    | error err => exact hsilent rfl rfl rfl
    | ok rrc =>
      dsimp only
      cases F.parseUlDcch rrc with
      | none => exact hsilent rfl rfl rfl
      | some msg =>
        cases msg with
        | rrcSetupComplete nas => exact hsilent rfl rfl rfl
        | rrcReconfigurationComplete => exact hsilent rfl rfl rfl
        | other => exact hsilent rfl rfl rfl
        | ulInformationTransfer nas =>
          have hids : (d.putUe ranUeId (opened.renamed peer)).ueIdsForPeer peer =
              (s.putUe ranUeId opened).ueIdsForPeer ue.peer := by
            simp only [ueIdsForPeer, putUe, hby, hran, Option.bind_eq_bind, Option.bind_some,
              AList.lookup_insert]
            rfl
          dsimp only
          -- the goal has the opened context written out
          erw [hids]
          cases (s.putUe ranUeId opened).ueIdsForPeer ue.peer with
          | none => exact hsilent rfl rfl rfl
          | some ids => exact hsilent rfl rfl rfl
        | securityModeComplete =>
          change Mirrors reach ((s.putUe ranUeId opened).onAsSecurityComplete F ranUeId)
            ((d.putUe ranUeId (opened.renamed peer)).onAsSecurityComplete F ranUeId)
          let cleared : UeCtx Q := { opened with pendingDlNas := [], pendingIcs := none }
          have hcleared : ({ opened.renamed peer with pendingDlNas := [], pendingIcs := none } :
              UeCtx P) = cleared.renamed peer := rfl
          rw [onAsSecurityComplete_putUe, onAsSecurityComplete_putUe, hcleared, renamed_dlNasAll]
          have hto : (cleared.dlNasAll F opened.pendingDlNas).2.peer = ue.peer :=
            peer_dlNasAll F cleared opened.pendingDlNas
          refine mirrors_put h hreach hto ?_ ?_ ?_ ?_
          · rfl
          · rw [northbound_append, northbound_append, northbound_map_uu, northbound_map_uu]
            exact northbound_icsResponse ranUeId opened.pendingIcs
          · rw [southbound_append, southbound_map_uu, southbound_icsResponse, List.append_nil, hto]
            intro m hm
            obtain ⟨payload, -, rfl⟩ := List.mem_map.mp hm
            rfl
          · rw [southbound_append, southbound_append, southbound_map_uu, southbound_map_uu,
              southbound_icsResponse, southbound_icsResponse, List.append_nil, List.append_nil,
              List.map_map]
            rfl

theorem mirrors_uu (h : Counterpart reach s d) (hs : s.Paired) (hreach : reach q = some peer)
    (hby : d.byPeer.lookup peer = s.byPeer.lookup q) {msg : UlMessage} (hnew : msg.newUes F = 0) :
    Mirrors reach (s.handleUu F q msg) (d.handleUu F peer msg) := by
  cases msg with
  | srb srbId payload =>
    by_cases hsrb0 : srbId = SRB0
    · simp only [UlMessage.newUes, if_pos hsrb0] at hnew
      simp only [handleUu, if_pos hsrb0]
      cases hparse : F.parseUlCcch payload with
      | none => exact mirrors_nothing h
      | some msg =>
        cases msg with
        | rrcSetupRequest ueIdentity cause => simp [hparse] at hnew
        | other => exact mirrors_nothing h
    · by_cases hsrb1 : srbId = SRB1
      · subst hsrb1
        exact mirrors_srb1 h hs hreach hby payload
      · simp only [handleUu, if_neg hsrb0, if_neg hsrb1]
        exact mirrors_nothing h
  | idle =>
    simp only [handleUu, ueIdsForPeer_counterpart h hs hreach hby]
    cases s.ueIdsForPeer q with
    | none => exact mirrors_nothing h
    | some ids => exact ⟨_, _, _, _, rfl, rfl, rfl, rfl, h⟩
  | data psi packet =>
    have hsession : d.uplinkSession peer psi =
        (s.uplinkSession q psi).map fun found => (found.1, found.2.1.renamed peer, found.2.2) := by
      simp only [uplinkSession, hby, Option.bind_eq_bind]
      cases hran : s.byPeer.lookup q with
      | none => rfl
      | some ranUeId =>
        obtain ⟨ue, hue, rfl⟩ := (hs ranUeId q).mp hran
        rw [Option.bind_some, Option.bind_some, hue, h.lookup_some hue hreach, Option.bind_some,
          Option.bind_some]
        have hsessions : (ue.renamed peer).sessions = ue.sessions := rfl
        rw [hsessions]
        cases ue.sessions.find? fun x => x.psi = psi <;> rfl
    simp only [handleUu, hsession]
    cases hfound : s.uplinkSession q psi with
    | none => exact mirrors_nothing h
    | some found =>
      obtain ⟨ranUeId, ue, x⟩ := found
      obtain ⟨hran, hue, -⟩ := uplinkSession_eq_some.mp hfound
      obtain ⟨ue', hue', rfl⟩ := (hs ranUeId q).mp hran
      obtain rfl : ue = ue' := Option.mem_unique hue hue'
      dsimp only [Option.map_some]
      have hput : ∀ {out : List (Output Q)} {out' : List (Output P)},
          northbound out' = northbound out → southbound out = [] → southbound out' = [] →
          Mirrors reach
            (some (out, s.putUe ranUeId { ue with
              sessions := UeCtx.modifyFirst (fun x => x.psi = psi)
                (fun y => { y with drb := (x.drb.unprotect F.algorithms packet).2 }) ue.sessions }))
            (some (out', d.putUe ranUeId { ue.renamed peer with
              sessions := UeCtx.modifyFirst (fun x => x.psi = psi)
                (fun y => { y with drb := (x.drb.unprotect F.algorithms packet).2 })
                (ue.renamed peer).sessions })) := by
        intro out out' hnorth hsouth hsouth'
        refine mirrors_put h hreach ?_ ?_ hnorth ?_ ?_
        · rfl
        · rfl
        · rw [hsouth]
          exact fun m hm => absurd hm List.not_mem_nil
        · rw [hsouth, hsouth']
          rfl
      cases (x.drb.unprotect F.algorithms packet).1 with
      | error err => exact hput rfl rfl rfl
      | ok sdapPdu =>
        dsimp only
        cases sdapDecap sdapPdu with
        | none => exact hput rfl rfl rfl
        | some opened => exact hput rfl rfl rfl

end Uu

/-! ### N3 -/

/-- Each session is found by its TEID. -/
def Routed (s : GnbState P) : Prop :=
  ∀ ranUeId ue x, s.ues.lookup ranUeId = some ue → x ∈ ue.sessions →
    s.sessionByDlTeid x.dlTeid = some (ranUeId, x.psi, ue.peer)

theorem sessionByDlTeid_counterpart (h : Counterpart reach s d) (hs : s.Routed) (hd : d.Routed)
    (teid : Nat) : d.sessionByDlTeid teid =
      (s.sessionByDlTeid teid).bind fun found =>
        (reach found.2.2).map fun peer => (found.1, found.2.1, peer) := by
  have hback : ∀ ranUeId psi peer, d.sessionByDlTeid teid = some (ranUeId, psi, peer) →
      ∃ q, s.sessionByDlTeid teid = some (ranUeId, psi, q) ∧ reach q = some peer := by
    intro ranUeId psi peer hfound
    obtain ⟨ctx, hctx, rfl, x, hx, rfl, rfl⟩ := World.sessionByDlTeid_sound hfound
    obtain ⟨ue, hue, hreach, hsame⟩ := h.exists_of_lookup hctx
    rw [hsame] at hx
    exact ⟨ue.peer, hs ranUeId ue x hue hx, hreach⟩
  cases hfound : s.sessionByDlTeid teid with
  | none =>
    rw [Option.bind_none, Option.eq_none_iff_forall_not_mem]
    rintro ⟨ranUeId, psi, peer⟩ hfound'
    obtain ⟨q, hq, -⟩ := hback ranUeId psi peer hfound'
    rw [hfound] at hq
    cases hq
  | some found =>
    obtain ⟨ranUeId, psi, q⟩ := found
    obtain ⟨ue, hue, rfl, x, hx, rfl, rfl⟩ := World.sessionByDlTeid_sound hfound
    rw [Option.bind_some]
    cases hreach : reach ue.peer with
    | none =>
      rw [Option.map_none, Option.eq_none_iff_forall_not_mem]
      rintro ⟨ranUeId', psi', peer⟩ hfound'
      obtain ⟨q, hq, hreach'⟩ := hback ranUeId' psi' peer hfound'
      rw [hfound, Option.some_inj] at hq
      cases hq
      rw [hreach] at hreach'
      cases hreach'
    | some peer => exact hd ranUeId (ue.renamed peer) x (h.lookup_some hue hreach) hx

theorem mirrors_n3 (h : Counterpart reach s d) (hs : s.Routed) (hd : d.Routed) (msg : N3Message) :
    Mirrors reach (s.handleN3 F msg) (d.handleN3 F msg) := by
  cases msg with
  | gPdu teid qfi payload =>
    have hteid := sessionByDlTeid_counterpart h hs hd teid
    cases hfound : s.sessionByDlTeid teid with
    | none =>
      rw [hfound, Option.bind_none] at hteid
      simp only [handleN3, hfound, hteid]
      exact mirrors_nothing h
    | some found =>
      obtain ⟨ranUeId, psi, q⟩ := found
      obtain ⟨ue, hue, rfl, x, hx, -, hpsi⟩ := World.sessionByDlTeid_sound hfound
      obtain ⟨y, hy⟩ : ∃ y, (ue.sessions.find? fun x => x.psi = psi) = some y := by
        rw [← Option.isSome_iff_exists, List.find?_isSome]
        exact ⟨x, hx, by simpa using hpsi⟩
      have hdown : s.downlinkSession teid = some (ranUeId, ue, y) :=
        downlinkSession_eq_some.mpr ⟨psi, ue.peer, hfound, hue, hy⟩
      rw [hfound, Option.bind_some] at hteid
      cases hreach : reach ue.peer with
      | none =>
        dsimp only at hteid
        rw [hreach, Option.map_none] at hteid
        simp only [handleN3, hfound, hteid, hdown, Option.map_some]
        refine mirrors_unreached h hue hreach ?_ ?_ ?_
        · rfl
        · rfl
        · exact southbound_single _ _
      | some peer =>
        dsimp only at hteid
        rw [hreach, Option.map_some] at hteid
        have hdown' : d.downlinkSession teid = some (ranUeId, ue.renamed peer, y) :=
          downlinkSession_eq_some.mpr ⟨psi, peer, hteid, h.lookup_some hue hreach, hy⟩
        simp only [handleN3, hfound, hteid, hdown, hdown', Option.map_some]
        refine mirrors_put h hreach ?_ ?_ ?_ ?_ ?_
        · rfl
        · rfl
        · rfl
        · exact southbound_single _ _
        · rfl
  | echoRequest sequence => exact ⟨_, _, _, _, rfl, rfl, rfl, rfl, h⟩
  | endMarker teid => exact mirrors_nothing h
  | other => exact mirrors_nothing h

/-! ### Any event -/

/-- The same event at both; a Uu message comes from an endpoint that is reached. -/
inductive SameEvent (reach : Q → Option P) : Event Q → Event P → Prop where
  | ngap (pdu : NgapPdu) : SameEvent reach (.ngap pdu) (.ngap pdu)
  | uu {q : Q} {peer : P} (hreach : reach q = some peer) (msg : UlMessage) :
      SameEvent reach (.uu q msg) (.uu peer msg)
  | n3 (msg : N3Message) : SameEvent reach (.n3 msg) (.n3 msg)

/-- On an event, a page or an opening apart, both say the same to the core network and to the endpoints,
as long as sessions are set up for endpoints that are reached. -/
theorem mirrors_handle (h : Counterpart reach s d) (hs : s.Paired) (hd : d.Paired) (hsr : s.Routed)
    (hdr : d.Routed) (hone : ∀ q q' peer, reach q = some peer → reach q' = some peer → q = q')
    {e : Event Q} {e' : Event P} (hsame : SameEvent reach e e')
    (hpage : ∀ tmsi, e ≠ .ngap (.paging tmsi)) (hnew : e.newUes F = 0)
    (hsetUps : ∀ x ∈ e.setUps F s, ∀ ue ∈ s.ues.lookup x.1, (reach ue.peer).isSome) :
    Mirrors reach (s.handle F cfg e) (d.handle F cfg e') := by
  cases hsame with
  | ngap pdu => exact mirrors_ngap h (fun tmsi hpdu => hpage tmsi (congrArg Event.ngap hpdu)) hsetUps
  | uu hreach msg => exact mirrors_uu h hs hreach (h.byPeer hs hd hone hreach) hnew
  | n3 msg => exact mirrors_n3 h hsr hdr msg

/-- The same sessions are set up at both. -/
theorem setUps_counterpart (h : Counterpart reach s d) {e : Event Q} {e' : Event P}
    (hsame : SameEvent reach e e')
    (hsetUps : ∀ x ∈ e.setUps F s, ∀ ue ∈ s.ues.lookup x.1, (reach ue.peer).isSome) :
    e'.setUps F d = e.setUps F s := by
  cases hsame with
  | uu => rfl
  | n3 => rfl
  | ngap pdu =>
    cases pdu with
    | initialContextSetup amfUeId ranUeId securityKey nas qfis sessions =>
      simp only [Event.setUps, setUps, h.nextDlTeid] at hsetUps ⊢
      cases hue : s.ues.lookup ranUeId with
      | none =>
        rw [h.lookup_none hue]
        rfl
      | some ue =>
        cases hreach : reach ue.peer with
        | some peer =>
          rw [h.lookup_some hue hreach]
          rfl
        | none =>
          rcases sessions with _ | ⟨session, rest⟩
          · simp [admitted]
          · rw [hue, Option.isSome_some, if_pos rfl] at hsetUps
            have hreached := hsetUps _ List.mem_cons_self ue hue
            rw [hreach] at hreached
            cases hreached
    | pduSessionResourceSetup amfUeId ranUeId qfis sessions =>
      simp only [Event.setUps, setUps, h.nextDlTeid] at hsetUps ⊢
      cases hue : s.ues.lookup ranUeId with
      | none => rw [h.lookup_none hue]
      | some ue =>
        cases hreach : reach ue.peer with
        | some peer =>
          rw [h.lookup_some hue hreach]
          rfl
        | none =>
          rcases sessions with _ | ⟨session, rest⟩
          · rw [h.lookup_unreached hue hreach]
            rfl
          · rw [hue] at hsetUps
            have hreached := hsetUps _ List.mem_cons_self ue hue
            rw [hreach] at hreached
            cases hreached
    | downlinkNasTransport => rfl
    | ueContextReleaseCommand => rfl
    | paging => rfl
    | other => rfl

end GnbState

/-! ### An endpoint opens a connection -/

/-- The endpoint is reached by a new name, and no more by another. -/
def reassign (reach : Q → Option P) (q : Q) (peer : P) : Q → Option P :=
  fun x => if x = q then some peer else if reach x = some peer then none else reach x

/-- An endpoint opens a connection: one core drops the UE context that it had, the other keeps it
out of reach. -/
theorem Counterpart.enter {reach : Q → Option P} {s : GnbState Q} {d : GnbState P}
    (h : Counterpart reach s d) (hs : s.Paired) (hd : d.Paired) {q : Q}
    (hfresh : s.byPeer.lookup q = none) (peer : P) :
    Counterpart (reassign reach q peer) (s.newUe q).2 (d.newUe peer).2 where
  ues ranUeId := by
    have hues : (s.newUe q).2.ues.lookup ranUeId =
        if ranUeId = s.nextRanUeId then some { peer := q } else s.ues.lookup ranUeId := by
      simp only [GnbState.newUe, hfresh, Map.lookup_insert_eq]
    have hues' : (d.newUe peer).2.ues.lookup ranUeId =
        if ranUeId = s.nextRanUeId then some { peer }
        else if d.byPeer.lookup peer = some ranUeId then none else d.ues.lookup ranUeId := by
      rw [GnbState.newUe, Map.lookup_insert_eq, h.nextRanUeId]
      congr 1
      cases hold : d.byPeer.lookup peer with
      | none => rfl
      | some old =>
        dsimp only
        simp only [Map.lookup_erase_eq, Option.some_inj, eq_comm]
    rw [hues, hues']
    by_cases hid : ranUeId = s.nextRanUeId
    · rw [if_pos hid, if_pos hid, Option.bind_some, reassign, if_pos rfl]
      rfl
    · rw [if_neg hid, if_neg hid]
      cases hue : s.ues.lookup ranUeId with
      | none =>
        rw [h.lookup_none hue, ite_self]
        rfl
      | some ue =>
        have hne : ue.peer ≠ q := by
          rintro rfl
          rw [(hs ranUeId ue.peer).mpr ⟨ue, hue, rfl⟩] at hfresh
          cases hfresh
        rw [Option.bind_some, reassign, if_neg hne]
        by_cases hreach : reach ue.peer = some peer
        · have hold : d.byPeer.lookup peer = some ranUeId :=
            (hd ranUeId peer).mpr ⟨ue.renamed peer, h.lookup_some hue hreach, rfl⟩
          rw [if_pos hreach, if_pos hold]
          rfl
        · have hold : ¬ d.byPeer.lookup peer = some ranUeId := by
            intro hold
            obtain ⟨ctx, hctx, rfl⟩ := (hd ranUeId peer).mp hold
            obtain ⟨ue', hue', hreach', -⟩ := h.exists_of_lookup hctx
            rw [hue, Option.some_inj] at hue'
            exact hreach (hue' ▸ hreach')
          rw [if_neg hreach, if_neg hold, h.ues, hue]
          rfl
  nextRanUeId := by
    simp only [GnbState.newUe, h.nextRanUeId]
  nextDlTeid := h.nextDlTeid

end Radian.Ran
