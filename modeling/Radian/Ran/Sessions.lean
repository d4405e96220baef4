import Radian.Keyed.Ordered
import Radian.Ran.Gnb
import Radian.Runs.Basic

/-!
# The gNB's session table

What the gNB's session tables hold, over every run on one N2 association.

- `Moves` — everything a step does to the UE contexts.
- `World.Kept` — contexts and endpoints are in bijection, and with the COUNTs rewound each session
  table is the list of the context's set-ups.
- `World.Kept.moves` — every step keeps it so while the numbers last.
-/

namespace Radian.Ran

open Keyed (Map)
open Security (Bytes)

variable {P : Type} [DecidableEq P]

/-! ### Set-ups and the sessions they became -/

/-- The session with its COUNTs rewound, as it was set up. -/
def SessionCtx.fresh (x : SessionCtx) : SessionCtx :=
  { x with
    drb := ⟨{ x.drb.inner with txCount := 0, rxCount := 0 }, x.drb.masked⟩ }

@[simp] theorem psi_fresh (x : SessionCtx) : x.fresh.psi = x.psi := rfl

@[simp] theorem dlTeid_fresh (x : SessionCtx) : x.fresh.dlTeid = x.dlTeid := rfl

@[simp] theorem fresh_new (psi qfi : UInt8) (upfTeid : Pfcp.Teid) (upfAddr : Pfcp.Ipv4Addr)
    (dlTeid : Nat) (upKeys : UpKeys) :
    (SessionCtx.new psi qfi upfTeid upfAddr dlTeid upKeys).fresh =
      .new psi qfi upfTeid upfAddr dlTeid upKeys := rfl

theorem fresh_protect (A : Security.Algorithms) (x : SessionCtx) (sdu : Bytes) :
    SessionCtx.fresh { x with drb := (x.drb.protect A sdu).2 } = x.fresh := rfl

theorem fresh_unprotect (A : Security.Algorithms) (x : SessionCtx) (pdu : Bytes) :
    SessionCtx.fresh { x with drb := (x.drb.unprotect A pdu).2 } = x.fresh := by
  rcases h : x.drb.unprotect A pdu with ⟨opened, drb⟩
  cases opened with
  | error err =>
    rw [Pdcp.Entity.eq_of_unprotect_error h]
  | ok sdu =>
    obtain ⟨-, -, rfl⟩ := Pdcp.Entity.opens_of_unprotect h
    rfl

/-- What a change to the session that is found keeps, it keeps of the table. -/
theorem map_modifyFirst {α : Type} {g : SessionCtx → α} {p : SessionCtx → Bool}
    {f : SessionCtx → SessionCtx} {x : SessionCtx} (hf : g (f x) = g x) {xs : List SessionCtx}
    (hx : xs.find? p = some x) : (UeCtx.modifyFirst p f xs).map g = xs.map g := by
  induction xs with
  | nil => cases hx
  | cons y ys ih =>
    rw [UeCtx.modifyFirst]
    split
    next h =>
      rw [List.find?_cons_of_pos h, Option.some_inj] at hx
      rw [List.map_cons, hx, hf, List.map_cons]
    next h =>
      rw [List.find?_cons_of_neg h] at hx
      rw [List.map_cons, ih hx, List.map_cons]

/-! ### TEIDs -/

/-- The next TEIDs. -/
def teids : Nat → Nat → List Nat
  | _, 0 => []
  | dlTeid, n + 1 => dlTeid :: teids ((dlTeid + 1) % 2 ^ 32) n

theorem teids_eq {dlTeid : Nat} (h : dlTeid < 2 ^ 32) (n : Nat) :
    teids dlTeid n = (List.range n).map fun k => (dlTeid + k) % 2 ^ 32 := by
  induction n generalizing dlTeid with
  | zero => rfl
  | succ n ih =>
    have hfirst : (dlTeid + 0) % 2 ^ 32 = dlTeid := Nat.mod_eq_of_lt h
    rw [teids, ih (Nat.mod_lt _ (by decide)), List.range_succ_eq_map, List.map_cons, List.map_map,
      hfirst]
    congr 1
    apply List.map_congr_left
    intro k _
    rw [Nat.mod_add_mod, Function.comp_apply, Nat.succ_eq_add_one, Nat.add_assoc, Nat.add_comm 1]

theorem afterTeids_eq {dlTeid : Nat} (h : dlTeid < 2 ^ 32) (n : Nat) :
    GnbState.afterTeids dlTeid n = (dlTeid + n) % 2 ^ 32 := by
  induction n generalizing dlTeid with
  | zero => exact (Nat.mod_eq_of_lt h).symm
  | succ n ih =>
    rw [GnbState.afterTeids, ih (Nat.mod_lt _ (by decide)), Nat.mod_add_mod, Nat.add_assoc,
      Nat.add_comm 1]

section Admitted

variable (upKeys : UpKeys) (qfis : List (UInt8 × UInt8))
variable (sessions : List (UInt8 × Pfcp.Teid × Pfcp.Ipv4Addr)) (dlTeid : Nat)

theorem dlTeid_admitted :
    (GnbState.admitted upKeys qfis sessions dlTeid).map (fun x => x.dlTeid) =
      teids dlTeid sessions.length := by
  induction sessions generalizing dlTeid with
  | nil => rfl
  | cons session rest ih => exact congrArg (dlTeid :: ·) (ih _)

@[simp] theorem length_admitted :
    (GnbState.admitted upKeys qfis sessions dlTeid).length = sessions.length := by
  induction sessions generalizing dlTeid with
  | nil => rfl
  | cons session rest ih => exact congrArg (· + 1) (ih _)

theorem fresh_admitted :
    (GnbState.admitted upKeys qfis sessions dlTeid).map SessionCtx.fresh =
      GnbState.admitted upKeys qfis sessions dlTeid := by
  induction sessions generalizing dlTeid with
  | nil => rfl
  | cons session rest ih => exact congrArg (_ :: ·) (ih _)

theorem psi_admitted :
    (GnbState.admitted upKeys qfis sessions dlTeid).map (fun x => x.psi) =
      sessions.map fun session => session.1 := by
  induction sessions generalizing dlTeid with
  | nil => rfl
  | cons session rest ih => exact congrArg (session.1 :: ·) (ih _)

end Admitted

/-! ### What a step does -/

/-- What an answer announces to the AMF: UE contexts, session ids and downlink TEIDs. -/
def NgapOut.announced : NgapOut → List (Nat × UInt8 × Nat)
  | .initialContextSetupResponse _ ranUeId admitted => admitted.map fun a => (ranUeId, a.1, a.2.1)
  | .pduSessionResourceSetupResponse _ ranUeId psi _ dlTeid _ => [(ranUeId, psi, dlTeid)]
  | _ => []

/-- What some messages announce. -/
def announcements (out : List (Output P)) : List (Nat × UInt8 × Nat) :=
  out.flatMap fun o => match o with
    | .ngap pdu => pdu.announced
    | _ => []

/-- What is yet to be announced for a UE context. -/
def UeCtx.pending (ue : UeCtx P) : List (UInt8 × Nat) :=
  match ue.pendingIcs with
  | some ics => ics.admitted.map fun a => (a.1, a.2.1)
  | none => []

/-- How many UE identities a Uu message takes. -/
def UlMessage.newUes (F : Functions) : UlMessage → Nat
  | .srb srbId payload =>
      if srbId = SRB0 then
        match F.parseUlCcch payload with
        | some (.rrcSetupRequest _ _) => 1
        | _ => 0
      else 0
  | _ => 0

/-- A step on the UE contexts: nothing changes, a context is rewritten and new sessions are appended to
it, an endpoint gets a context under the next identity, or a context goes. -/
inductive Moves (s : GnbState P) : GnbState P → List (Nat × SessionCtx) → List (Nat × UInt8 × Nat) →
    (allocated : Nat) → Prop where
  | stay : Moves s s [] [] 0
  | rewrite {ranUeId : Nat} {ue ue' : UeCtx P} {n : List SessionCtx}
      {announced : List (Nat × UInt8 × Nat)} (hue : s.ues.lookup ranUeId = some ue)
      (hpeer : ue'.peer = ue.peer)
      (hsessions : ue'.sessions.map SessionCtx.fresh = ue.sessions.map SessionCtx.fresh ++ n)
      (hpending : ∀ a ∈ ue'.pending, a ∈ ue.pending ∨ ∃ x ∈ n, a = (x.psi, x.dlTeid))
      (hannounced : ∀ a ∈ announced, a.1 = ranUeId ∧
        (a.2 ∈ ue.pending ∨ ∃ x ∈ n, a.2 = (x.psi, x.dlTeid)))
      (hteids : n.map (fun x => x.dlTeid) = teids s.nextDlTeid n.length) {s' : GnbState P}
      (hues : s'.ues = s.ues.insert ranUeId ue') (hbyPeer : s'.byPeer = s.byPeer)
      (hnextUe : s'.nextRanUeId = s.nextRanUeId)
      (hnext : s'.nextDlTeid = GnbState.afterTeids s.nextDlTeid n.length) :
      Moves s s' (n.map fun x => (ranUeId, x)) announced 0
  | enter (peer : P) : Moves s (s.newUe peer).2 [] [] 1
  | leave {ranUeId : Nat} {ue : UeCtx P} (hue : s.ues.lookup ranUeId = some ue) {s' : GnbState P}
      (hues : ∀ id, s'.ues.lookup id = if id = ranUeId then none else s.ues.lookup id)
      (hbyPeer : s'.byPeer = s.byPeer.erase ue.peer) (hnextUe : s'.nextRanUeId = s.nextRanUeId)
      (hnext : s'.nextDlTeid = s.nextDlTeid) : Moves s s' [] [] 0

section Announcements

omit [DecidableEq P]

@[simp] theorem announcements_nil : announcements ([] : List (Output P)) = [] := rfl

@[simp] theorem announcements_uu (peer : P) (msg : DlMessage) (out : List (Output P)) :
    announcements (.uu peer msg :: out) = announcements out := rfl

@[simp] theorem announcements_ngap (pdu : NgapOut) (out : List (Output P)) :
    announcements (.ngap pdu :: out) = pdu.announced ++ announcements out := rfl

@[simp] theorem announcements_append (out out' : List (Output P)) :
    announcements (out ++ out') = announcements out ++ announcements out' := List.flatMap_append ..

theorem announcements_map_uu {α : Type} (xs : List α) (peer : α → P) (msg : α → DlMessage) :
    announcements (xs.map fun x => Output.uu (peer x) (msg x)) = [] := by
  induction xs with
  | nil => rfl
  | cons x xs ih => exact ih

end Announcements

namespace GnbState

variable {F : Functions} {cfg : GnbConfig} {s s' : GnbState P} {out : List (Output P)}

/-- Rewriting a context without touching its sessions or what is pending. -/
theorem moves_putUe {ranUeId : Nat} {ue ue' : UeCtx P} (hue : s.ues.lookup ranUeId = some ue)
    (hpeer : ue'.peer = ue.peer)
    (hsessions : ue'.sessions.map SessionCtx.fresh = ue.sessions.map SessionCtx.fresh)
    (hpending : ∀ a ∈ ue'.pending, a ∈ ue.pending) {announced : List (Nat × UInt8 × Nat)}
    (hannounced : ∀ a ∈ announced, a.1 = ranUeId ∧ a.2 ∈ ue.pending) :
    Moves s (s.putUe ranUeId ue') [] announced 0 :=
  .rewrite (n := []) hue hpeer (by rw [hsessions, List.append_nil])
    (fun a ha => .inl (hpending a ha)) (fun a ha => ⟨(hannounced a ha).1, .inl (hannounced a ha).2⟩)
    rfl rfl rfl rfl rfl

/-- Appending set-ups to a context. -/
theorem moves_setUp (sessions : List (UInt8 × Pfcp.Teid × Pfcp.Ipv4Addr)) {ranUeId : Nat}
    {ue ue' : UeCtx P} (hue : s.ues.lookup ranUeId = some ue) (hpeer : ue'.peer = ue.peer)
    {upKeys : UpKeys} {qfis : List (UInt8 × UInt8)}
    (hsessions : ue'.sessions = ue.sessions ++ admitted upKeys qfis sessions s.nextDlTeid)
    {announced : List (Nat × UInt8 × Nat)}
    (hpending : ∀ a ∈ ue'.pending, a ∈ ue.pending ∨
      ∃ x ∈ admitted upKeys qfis sessions s.nextDlTeid, a = (x.psi, x.dlTeid))
    (hannounced : ∀ a ∈ announced, a.1 = ranUeId ∧ (a.2 ∈ ue.pending ∨
      ∃ x ∈ admitted upKeys qfis sessions s.nextDlTeid, a.2 = (x.psi, x.dlTeid))) :
    Moves s ({ s with nextDlTeid := afterTeids s.nextDlTeid sessions.length }.putUe ranUeId ue')
      ((admitted upKeys qfis sessions s.nextDlTeid).map fun x => (ranUeId, x)) announced 0 := by
  refine .rewrite hue hpeer ?_ hpending hannounced ?_ rfl rfl rfl ?_
  · rw [hsessions, List.map_append, fresh_admitted]
  · rw [dlTeid_admitted, length_admitted]
  · rw [length_admitted]
    rfl

theorem moves_ngap (pdu : NgapPdu) (h : s.handleNgap F cfg pdu = some (out, s')) :
    Moves s s' (s.setUps F pdu) (announcements out) 0 := by
  cases pdu with
  | downlinkNasTransport amfUeId ranUeId nas =>
    cases hue : s.ues.lookup ranUeId with
    | none =>
      simp only [handleNgap, hue] at h
      cases h
      exact .stay
    | some ue =>
      simp only [handleNgap, hue] at h
      cases h
      change Moves s _ [] [] 0
      refine moves_putUe hue ?_ ?_ ?_ ?_
      · rfl
      · rfl
      · exact fun _ ha => ha
      · exact fun _ ha => absurd ha List.not_mem_nil
  | initialContextSetup amfUeId ranUeId securityKey nas qfis sessions =>
    cases hue : s.ues.lookup ranUeId with
    | none =>
      simp only [handleNgap, hue, Option.isNone_none, if_true] at h
      cases h
      simp only [setUps, hue]
      exact .stay
    | some ue =>
      simp only [handleNgap, hue, Option.isNone_some, Bool.false_eq_true, if_false,
        Option.map_some] at h
      cases h
      simp only [setUps, hue, Option.isSome_some, if_true]
      refine moves_setUp sessions hue ?_ ?_ ?_ ?_
      · rfl
      · rfl
      · intro a ha
        obtain ⟨b, hb, rfl⟩ := List.mem_map.mp ha
        obtain ⟨x, hx, rfl⟩ := List.mem_map.mp hb
        exact .inr ⟨x, hx, rfl⟩
      · exact fun _ ha => absurd ha List.not_mem_nil
  | pduSessionResourceSetup amfUeId ranUeId qfis sessions =>
    cases hue : s.ues.lookup ranUeId with
    | none =>
      simp only [handleNgap, hue] at h
      cases h
      simp only [setUps, hue]
      exact .stay
    | some ue =>
      rcases sessions with _ | ⟨⟨psi, upfTeid, upfAddr, nas⟩, rest⟩
      · simp only [handleNgap, hue] at h
        cases h
        simp only [setUps, hue]
        exact .stay
      · simp only [handleNgap, hue, Option.map_some, Option.some_inj] at h
        simp only [setUps, hue]
        -- the session is set up with or without a NAS message
        split at h
        all_goals
          cases h
          refine moves_setUp [(psi, upfTeid, upfAddr)] hue ?_ ?_ ?_ ?_
          · rfl
          · rfl
          · exact fun _ ha => .inl ha
          · intro a ha
            rw [List.mem_singleton.mp ha]
            exact ⟨rfl, .inr ⟨_, List.mem_singleton_self _, rfl⟩⟩
  | ueContextReleaseCommand amfUeId ranUeId =>
    cases hue : s.ues.lookup ranUeId with
    | none =>
      simp only [handleNgap, hue, removeUe, Option.map_none] at h
      cases h
      exact .stay
    | some ue =>
      simp only [handleNgap, hue, removeUe, putUe, AList.lookup_insert, Option.map_some] at h
      cases h
      refine .leave hue (fun id => ?_) rfl rfl rfl
      rw [Map.lookup_erase_eq, Map.lookup_insert_eq]
      split <;> rfl
  | paging tmsi =>
    cases h
    change Moves s _ [] _ 0
    rw [announcements_map_uu]
    exact .stay
  | other =>
    cases h
    exact .stay

/-- Where uplink data goes: by the endpoint's context, and the first session with the id. -/
theorem uplinkSession_eq_some {peer : P} {psi : UInt8} {ranUeId : Nat} {ue : UeCtx P}
    {x : SessionCtx} :
    s.uplinkSession peer psi = some (ranUeId, ue, x) ↔
      s.byPeer.lookup peer = some ranUeId ∧ s.ues.lookup ranUeId = some ue ∧
        (ue.sessions.find? fun x => x.psi = psi) = some x := by
  simp only [uplinkSession, Option.bind_eq_bind, Option.bind_eq_some_iff, Option.pure_def,
    Option.some_inj, Prod.mk.injEq]
  constructor
  · rintro ⟨ran, hran, ue', hue, x', hx, rfl, rfl, rfl⟩
    exact ⟨hran, hue, hx⟩
  · rintro ⟨hran, hue, hx⟩
    exact ⟨ranUeId, hran, ue, hue, x, hx, rfl, rfl, rfl⟩

theorem downlinkSession_eq_some {teid : Nat} {ranUeId : Nat} {ue : UeCtx P} {x : SessionCtx} :
    s.downlinkSession teid = some (ranUeId, ue, x) ↔
      ∃ psi peer, s.sessionByDlTeid teid = some (ranUeId, psi, peer) ∧
        s.ues.lookup ranUeId = some ue ∧ (ue.sessions.find? fun x => x.psi = psi) = some x := by
  simp only [downlinkSession, Option.bind_eq_bind, Option.bind_eq_some_iff, Option.pure_def,
    Option.some_inj, Prod.mk.injEq]
  constructor
  · rintro ⟨⟨ran, psi, peer⟩, hteid, ue', hue, x', hx, rfl, rfl, rfl⟩
    exact ⟨psi, peer, hteid, hue, hx⟩
  · rintro ⟨psi, peer, hteid, hue, hx⟩
    exact ⟨(ranUeId, psi, peer), hteid, ue, hue, x, hx, rfl, rfl, rfl⟩

omit [DecidableEq P] in
theorem sameUe_dlNasAll (ue : UeCtx P) (held : List Bytes) :
    (ue.dlNasAll F held).2.peer = ue.peer ∧ (ue.dlNasAll F held).2.sessions = ue.sessions ∧
      (ue.dlNasAll F held).2.pendingIcs = ue.pendingIcs := by
  induction held generalizing ue with
  | nil => exact ⟨rfl, rfl, rfl⟩
  | cons nas held ih => exact ih (ue.dlNasSrb1 F nas).2

theorem moves_onAsSecurityComplete {ranUeId : Nat} {ue : UeCtx P} {srb1 : Pdcp.PdcpSrb}
    (hue : s.ues.lookup ranUeId = some ue)
    (h : (s.putUe ranUeId { ue with srb1 }).onAsSecurityComplete F ranUeId = some (out, s')) :
    Moves s s' [] (announcements out) 0 := by
  have hlookup : (s.putUe ranUeId { ue with srb1 }).ues.lookup ranUeId = some { ue with srb1 } :=
    AList.lookup_insert _
  rw [onAsSecurityComplete, hlookup, Option.map_some, Option.some_inj] at h
  obtain ⟨hpeer, hsessions, hpending⟩ := sameUe_dlNasAll (F := F)
    { ue with srb1 := srb1, pendingDlNas := [], pendingIcs := none } ue.pendingDlNas
  have hout := congrArg Prod.fst h
  have hstate := congrArg Prod.snd h
  dsimp only at hout hstate
  have hues : s'.ues = s.ues.insert ranUeId (UeCtx.dlNasAll F
      { ue with srb1 := srb1, pendingDlNas := [], pendingIcs := none } ue.pendingDlNas).2 := by
    rw [← hstate]
    exact AList.insert_insert ..
  refine .rewrite (n := []) hue hpeer ?_ ?_ ?_ rfl hues ?_ ?_ ?_
  · rw [hsessions, List.append_nil]
  · intro a ha
    rw [UeCtx.pending, hpending] at ha
    cases ha
  · intro a ha
    rw [← hout, announcements_append, announcements_map_uu, List.nil_append] at ha
    cases hics : ue.pendingIcs with
    | none =>
      simp only [hics] at ha
      cases ha
    | some ics =>
      simp only [hics, announcements_ngap, announcements_nil, List.append_nil] at ha
      obtain ⟨b, hb, rfl⟩ := List.mem_map.mp ha
      refine ⟨rfl, .inl ?_⟩
      rw [UeCtx.pending, hics]
      exact List.mem_map_of_mem (f := fun a => (a.1, a.2.1)) hb
  · rw [← hstate]
    rfl
  · rw [← hstate]
    rfl
  · rw [← hstate]
    rfl

theorem moves_uu {peer : P} (msg : UlMessage) (h : s.handleUu F peer msg = some (out, s')) :
    Moves s s' [] (announcements out) (msg.newUes F) := by
  cases msg with
  | srb srbId payload =>
    rw [handleUu] at h
    rw [UlMessage.newUes]
    by_cases hsrb : srbId = SRB0
    · rw [if_pos hsrb] at h ⊢
      cases hparse : F.parseUlCcch payload with
      | none =>
        rw [hparse] at h
        cases h
        exact .stay
      | some msg =>
        rw [hparse] at h
        cases msg with
        | rrcSetupRequest ueIdentity cause =>
          cases h
          exact .enter peer
        | other =>
          cases h
          exact .stay
    · rw [if_neg hsrb] at h ⊢
      split at h
      next =>
        split at h
        next =>
          cases h
          exact .stay
        next ranUeId hran =>
          split at h
          next => cases h
          next ue hue =>
            have hput : Moves s (s.putUe ranUeId
                { ue with srb1 := (ue.srb1.unprotect F.algorithms payload).2 }) [] [] 0 := by
              refine moves_putUe hue ?_ ?_ ?_ ?_
              · rfl
              · rfl
              · exact fun _ ha => ha
              · exact fun _ ha => absurd ha List.not_mem_nil
            dsimp only at h
            split at h
            next =>
              cases h
              exact hput
            next =>
              split at h
              next =>
                cases h
                exact hput
              next =>
                split at h
                next =>
                  cases h
                  exact hput
                next =>
                  cases h
                  exact hput
              next => exact moves_onAsSecurityComplete hue h
              next =>
                cases h
                exact hput
      next =>
        cases h
        exact .stay
  | idle =>
    rw [handleUu] at h
    split at h
    next =>
      cases h
      exact .stay
    next =>
      cases h
      exact .stay
  | data psi packet =>
    rw [handleUu] at h
    split at h
    next =>
      cases h
      exact .stay
    next ranUeId ue x hx =>
      obtain ⟨-, hue, hfind⟩ := uplinkSession_eq_some.mp hx
      have hput : Moves s (s.putUe ranUeId { ue with
          sessions := UeCtx.modifyFirst (fun x => x.psi = psi)
            (fun y => { y with drb := (x.drb.unprotect F.algorithms packet).2 }) ue.sessions })
          [] [] 0 := by
        refine moves_putUe hue ?_ ?_ ?_ ?_
        · rfl
        · exact map_modifyFirst (fresh_unprotect F.algorithms x packet) hfind
        · exact fun _ ha => ha
        · exact fun _ ha => absurd ha List.not_mem_nil
      dsimp only at h
      split at h
      next =>
        cases h
        exact hput
      next =>
        split at h
        next =>
          cases h
          exact hput
        next =>
          cases h
          exact hput

theorem moves_n3 (msg : N3Message) (h : s.handleN3 F msg = some (out, s')) :
    Moves s s' [] (announcements out) 0 := by
  cases msg with
  | gPdu teid qfi payload =>
    rw [handleN3] at h
    split at h
    next =>
      cases h
      exact .stay
    next ranUeId psi peer hteid =>
      obtain ⟨⟨ranUeId', ue, x⟩, hx, hmap⟩ := Option.map_eq_some_iff.mp h
      obtain ⟨psi', peer', hteid', hue, hfind⟩ := downlinkSession_eq_some.mp hx
      rw [hteid, Option.some_inj, Prod.mk.injEq, Prod.mk.injEq] at hteid'
      obtain ⟨rfl, rfl, rfl⟩ := hteid'
      cases hmap
      change Moves s _ [] [] 0
      refine moves_putUe hue ?_ ?_ ?_ ?_
      · rfl
      · exact map_modifyFirst (fresh_protect F.algorithms x _) hfind
      · exact fun _ ha => ha
      · exact fun _ ha => absurd ha List.not_mem_nil
  | echoRequest sequence =>
    cases h
    exact .stay
  | endMarker teid =>
    cases h
    exact .stay
  | other =>
    cases h
    exact .stay

end GnbState

/-! ### Runs -/

/-- The gNB over one N2 association, and every set-up so far. -/
structure World (P : Type) [DecidableEq P] where
  state : GnbState P := {}
  log : List (Nat × SessionCtx) := []

/-- The sessions an event sets up. -/
def Event.setUps (F : Functions) (s : GnbState P) : Event P → List (Nat × SessionCtx)
  | .ngap pdu => s.setUps F pdu
  | _ => []

/-- How many UE identities an event takes. -/
def Event.newUes (F : Functions) : Event P → Nat
  | .uu _ msg => msg.newUes F
  | _ => 0

/-- The set-ups of a UE context. -/
def setUpsOf (ranUeId : Nat) (log : List (Nat × SessionCtx)) : List SessionCtx :=
  (log.filter fun e => e.1 = ranUeId).map fun e => e.2

/-- The last set-up of a session id in a UE context. -/
def lastSetUp (log : List (Nat × SessionCtx)) (ranUeId : Nat) (psi : UInt8) : Option SessionCtx :=
  (setUpsOf ranUeId log).reverse.find? fun x => x.psi = psi

theorem mem_setUpsOf {ranUeId : Nat} {log : List (Nat × SessionCtx)} {x : SessionCtx} :
    x ∈ setUpsOf ranUeId log ↔ (ranUeId, x) ∈ log := by
  simp [setUpsOf]

theorem setUpsOf_append (ranUeId : Nat) (log log' : List (Nat × SessionCtx)) :
    setUpsOf ranUeId (log ++ log') = setUpsOf ranUeId log ++ setUpsOf ranUeId log' := by
  simp [setUpsOf]

theorem setUpsOf_own (ranUeId : Nat) (new : List SessionCtx) :
    setUpsOf ranUeId (new.map fun x => (ranUeId, x)) = new := by
  simp [setUpsOf, List.filter_map, Function.comp_def]

theorem setUpsOf_other {ranUeId id : Nat} (h : id ≠ ranUeId) (new : List SessionCtx) :
    setUpsOf id (new.map fun x => (ranUeId, x)) = [] := by
  simp [setUpsOf, List.filter_map, Function.comp_def, Ne.symm h]

namespace World

variable (F : Functions) (cfg : GnbState.GnbConfig)

def step (w : World P) (e : Event P) : World P :=
  { state := ((w.state.handle F cfg e).map Prod.snd).getD w.state
    log := w.log ++ e.setUps F w.state }

/-- The books of the gNB. -/
structure Kept (w : World P) : Prop where
  /-- Contexts and endpoints are in bijection. -/
  peers : ∀ ranUeId peer, w.state.byPeer.lookup peer = some ranUeId ↔
    ∃ ue, w.state.ues.lookup ranUeId = some ue ∧ ue.peer = peer
  /-- A session table is the list of the set-ups. -/
  sessions : ∀ ranUeId ue, w.state.ues.lookup ranUeId = some ue →
    ue.sessions.map SessionCtx.fresh = setUpsOf ranUeId w.log
  pending : ∀ ranUeId ue, w.state.ues.lookup ranUeId = some ue → ∀ a ∈ ue.pending,
    ∃ x ∈ setUpsOf ranUeId w.log, a = (x.psi, x.dlTeid)
  used : (∀ ranUeId, (w.state.ues.lookup ranUeId).isSome = true → ranUeId < w.state.nextRanUeId) ∧
    ∀ e ∈ w.log, e.1 < w.state.nextRanUeId
  teids : w.log.map (fun e => e.2.dlTeid) =
    (List.range w.log.length).map fun k => (FIRST_DL_TEID + k) % 2 ^ 32
  next : w.state.nextDlTeid = (FIRST_DL_TEID + w.log.length) % 2 ^ 32
  few : w.log.length < 2 ^ 32

theorem kept_start : (({} : World P)).Kept where
  peers _ _ := ⟨fun h => (nomatch h), fun ⟨_, h, _⟩ => (nomatch h)⟩
  sessions _ _ h := nomatch h
  pending _ _ h := nomatch h
  used := ⟨fun _ h => (nomatch h), fun _ h => (nomatch h)⟩
  teids := rfl
  next := rfl
  few := Nat.two_pow_pos 32

variable {F cfg} {w : World P} {s' : GnbState P} {new : List (Nat × SessionCtx)}
  {announced : List (Nat × UInt8 × Nat)}

/-- The numbers of further set-ups follow those of the log. -/
theorem Kept.numbers (h : w.Kept) {xs : List (Nat × SessionCtx)}
    (hxs : xs.map (fun e => e.2.dlTeid) = Ran.teids w.state.nextDlTeid xs.length) :
    (w.log ++ xs).map (fun e => e.2.dlTeid) =
      (List.range (w.log ++ xs).length).map fun k => (FIRST_DL_TEID + k) % 2 ^ 32 := by
  have hlt : w.state.nextDlTeid < 2 ^ 32 := by
    rw [h.next]
    exact Nat.mod_lt _ (by decide)
  rw [List.map_append, h.teids, hxs, teids_eq hlt, List.length_append, List.range_add, List.map_append,
    List.map_map]
  congr 1
  apply List.map_congr_left
  intro k _
  rw [h.next, Nat.mod_add_mod, Function.comp_apply, Nat.add_assoc]

theorem Kept.moves (h : w.Kept) {allocated : Nat} (hmoves : Moves w.state s' new announced allocated)
    (hfew : w.log.length + new.length < 2 ^ 32) (hroom : w.state.nextRanUeId + 1 < 2 ^ 32) :
    Kept { state := s', log := w.log ++ new } := by
  cases hmoves with
  | stay =>
    rw [List.append_nil]
    exact h
  | @rewrite ranUeId ue ue' new _ hue hpeer hsessions hpending hannounced hteids _ hues hbyPeer hnextUe
      hnext =>
      have hlt : w.state.nextDlTeid < 2 ^ 32 := by
        rw [h.next]
        exact Nat.mod_lt _ (by decide)
      constructor
      · intro id peer
        simp only [hues, hbyPeer, h.peers, Map.lookup_insert_eq]
        by_cases hid : id = ranUeId
        · subst hid
          simp [hue, hpeer]
        · simp [hid]
      · intro id ctx hctx
        simp only [hues, Map.lookup_insert_eq] at hctx
        rw [setUpsOf_append]
        by_cases hid : id = ranUeId
        · subst hid
          rw [if_pos rfl, Option.some_inj] at hctx
          rw [← hctx, hsessions, h.sessions id ue hue, setUpsOf_own]
        · rw [if_neg hid] at hctx
          rw [setUpsOf_other hid, List.append_nil]
          exact h.sessions id ctx hctx
      · intro id ctx hctx a ha
        simp only [hues, Map.lookup_insert_eq] at hctx
        rw [setUpsOf_append]
        by_cases hid : id = ranUeId
        · subst hid
          rw [if_pos rfl, Option.some_inj] at hctx
          rw [← hctx] at ha
          rw [setUpsOf_own]
          obtain hold | ⟨x, hx, rfl⟩ := hpending a ha
          · obtain ⟨x, hx, rfl⟩ := h.pending id ue hue a hold
            exact ⟨x, List.mem_append_left _ hx, rfl⟩
          · exact ⟨x, List.mem_append_right _ hx, rfl⟩
        · rw [if_neg hid] at hctx
          obtain ⟨x, hx, rfl⟩ := h.pending id ctx hctx a ha
          exact ⟨x, List.mem_append_left _ hx, rfl⟩
      · have hran := h.used.1 ranUeId (by rw [hue]; rfl)
        simp only [hues, hnextUe, Map.lookup_insert_eq]
        constructor
        · intro id hid
          by_cases hsame : id = ranUeId
          · rwa [hsame]
          · rw [if_neg hsame] at hid
            exact h.used.1 id hid
        · intro e he
          obtain hold | hnew := List.mem_append.mp he
          · exact h.used.2 e hold
          · obtain ⟨x, -, rfl⟩ := List.mem_map.mp hnew
            exact hran
      · exact h.numbers (by rw [List.map_map, List.length_map]; exact hteids)
      · rw [hnext, afterTeids_eq hlt, h.next, Nat.mod_add_mod, List.length_append, List.length_map,
          Nat.add_assoc]
      · rwa [List.length_append]
  | enter peer =>
    have hfresh : w.state.ues.lookup w.state.nextRanUeId = none := by
      rw [Option.eq_none_iff_forall_not_mem]
      intro ue hue
      exact Nat.lt_irrefl _ (h.used.1 _ (Option.isSome_iff_exists.mpr ⟨ue, hue⟩))
    have hnoLog : setUpsOf w.state.nextRanUeId w.log = [] := by
      rw [List.eq_nil_iff_forall_not_mem]
      intro x hx
      exact Nat.lt_irrefl _ (h.used.2 _ (mem_setUpsOf.mp hx))
    have hues : ∀ id, (w.state.newUe peer).2.ues.lookup id =
        if id = w.state.nextRanUeId then some { peer }
        else if w.state.byPeer.lookup peer = some id then none else w.state.ues.lookup id := by
      intro id
      rw [GnbState.newUe, Map.lookup_insert_eq]
      congr 1
      cases hold : w.state.byPeer.lookup peer with
      | none => rfl
      | some old =>
        dsimp only
        simp only [Map.lookup_erase_eq, Option.some_inj, eq_comm]
    have hnext : (w.state.newUe peer).2.nextRanUeId = w.state.nextRanUeId + 1 :=
      Nat.mod_eq_of_lt hroom
    rw [List.append_nil]
    constructor
    · intro id peer'
      have hbyPeer : (w.state.newUe peer).2.byPeer.lookup peer' =
          if peer' = peer then some w.state.nextRanUeId else w.state.byPeer.lookup peer' :=
        Map.lookup_insert_eq ..
      simp only [hbyPeer, hues]
      by_cases hpeer : peer' = peer
      · subst hpeer
        rw [if_pos rfl, Option.some_inj]
        constructor
        · rintro rfl
          exact ⟨{ peer := peer' }, if_pos rfl, rfl⟩
        · rintro ⟨ue, hue, hown⟩
          by_contra hne
          rw [if_neg (Ne.symm hne)] at hue
          split at hue
          next => cases hue
          next hother => exact hother ((h.peers id peer').mpr ⟨ue, hue, hown⟩)
      · rw [if_neg hpeer, h.peers]
        constructor
        · rintro ⟨ue, hue, hown⟩
          refine ⟨ue, ?_, hown⟩
          rw [if_neg, if_neg]
          · exact hue
          · intro hsame
            obtain ⟨ue', hue', hown'⟩ := (h.peers id peer).mp hsame
            rw [hue, Option.some_inj] at hue'
            exact hpeer (hown.symm.trans (hue' ▸ hown'))
          · rintro rfl
            rw [hfresh] at hue
            cases hue
        · rintro ⟨ue, hue, hown⟩
          split at hue
          next =>
            cases hue
            exact absurd hown.symm hpeer
          next =>
            split at hue
            next => cases hue
            next => exact ⟨ue, hue, hown⟩
    · intro id ue hue
      simp only [hues] at hue
      split at hue
      next hid =>
        cases hue
        rw [hid, hnoLog]
        rfl
      next =>
        split at hue
        next => cases hue
        next => exact h.sessions id ue hue
    · intro id ue hue a ha
      simp only [hues] at hue
      split at hue
      next =>
        cases hue
        cases ha
      next =>
        split at hue
        next => cases hue
        next => exact h.pending id ue hue a ha
    · simp only [hues, hnext]
      constructor
      · intro id hid
        split at hid
        next hsame =>
          rw [hsame]
          exact Nat.lt_succ_self _
        next =>
          split at hid
          next => cases hid
          next => exact Nat.lt_succ_of_lt (h.used.1 id hid)
      · exact fun e he => Nat.lt_succ_of_lt (h.used.2 e he)
    · exact h.teids
    · exact h.next
    · exact h.few
  | @leave ranUeId ue hue _ hues hbyPeer hnextUe hnext =>
    rw [List.append_nil]
    constructor
    · intro id peer
      simp only [hues, hbyPeer, Map.lookup_erase_eq]
      have hown : w.state.byPeer.lookup ue.peer = some ranUeId :=
        (h.peers ranUeId ue.peer).mpr ⟨ue, hue, rfl⟩
      by_cases hid : id = ranUeId
      · subst hid
        simp only [if_true, reduceCtorEq, false_and, exists_false, iff_false]
        intro hpeer
        split at hpeer
        next => cases hpeer
        next hne =>
          obtain ⟨ue', hue', rfl⟩ := (h.peers id peer).mp hpeer
          rw [hue, Option.some_inj] at hue'
          exact hne (hue' ▸ rfl)
      · rw [if_neg hid, ← h.peers]
        split
        next hpeer =>
          subst hpeer
          simp [hown, Ne.symm hid]
        next => exact Iff.rfl
    · intro id ctx hctx
      simp only [hues] at hctx
      split at hctx
      next => cases hctx
      next => exact h.sessions id ctx hctx
    · intro id ctx hctx
      simp only [hues] at hctx
      split at hctx
      next => cases hctx
      next => exact h.pending id ctx hctx
    · simp only [hues, hnextUe]
      constructor
      · intro id hid
        split at hid
        next => cases hid
        next => exact h.used.1 id hid
      · exact h.used.2
    · exact h.teids
    · exact hnext.trans h.next
    · exact h.few

end World

end Radian.Ran
