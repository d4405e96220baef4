import Radian.Ran.Sealing

/-!
# No keystream twice

Over every run on one N2 association, when the gNB ciphers two downlink PDUs with the same input.

- `Air` — the gNB, the UE contexts by number, the K_gNBs delivered and the PDUs sealed.
- `Air.view_step` — each event advances the counters of the UE contexts as their acts do.
- `Air.Heeds` — DRBs are set up under a K_gNB, on a BEARER of their own.
- `unreused_of_heeds` — then no input is used for two PDUs, and user data goes under the UE's own keys.
-/

namespace Radian.Ran

open Keyed (Map)
open Keystream (Act)
open Security (Bytes)

variable {P : Type} [DecidableEq P]

/-- The gNB over one N2 association, with its UE contexts counted. -/
structure Air (P : Type) [DecidableEq P] where
  state : GnbState P := {}
  births : Nat := 0
  /-- The number of the UE context under a RAN UE id. -/
  born : Nat → Nat := fun _ => 0
  /-- The K_gNBs so far, each with the number of its UE context. -/
  delivered : List (Nat × Bytes) := []
  /-- The PDUs sealed so far, each with the number of its UE context. -/
  sealed : List (Nat × Sealing) := []
  /-- The PDCP PDUs sent so far. -/
  sent : List Bytes := []

namespace Air

variable (F : Functions) (cfg : GnbState.GnbConfig)

/-- The books after an event. -/
def after (w : Air P) (s' : GnbState P) (out : List (Output P)) (xs : List Sealing)
    (ds : List (Nat × Bytes)) (newUes : Nat) : Air P :=
  { state := s'
    births := w.births + newUes
    born := if newUes = 0 then w.born else Function.update w.born w.state.nextRanUeId w.births
    delivered := w.delivered ++ ds.map fun d => (w.born d.1, d.2)
    sealed := w.sealed ++ xs.map fun x => (w.born x.ranUeId, x)
    sent := w.sent ++ pdus out }

def step (w : Air P) (e : Event P) : Air P :=
  w.after (((w.state.handle F cfg e).map Prod.snd).getD w.state)
    (((w.state.handle F cfg e).map Prod.fst).getD []) (w.state.sealings F e) (w.state.deliveries e)
    (e.newUes F)

/-- No two different PDUs are ciphered with the same input, as far as it is taken, and user data is
ciphered under a key from a K_gNB that was delivered for its UE context. -/
structure Unreused (taken : UInt8 → UInt8) (w : Air P) : Prop where
  /-- The PDCP PDUs that were sent are those that are looked at. -/
  sent : w.sent = w.sealed.map fun x => x.2.pdu F.algorithms
  inputs : w.sealed.Pairwise fun x y => x.2.pdu F.algorithms ≠ y.2.pdu F.algorithms →
    ∀ u, x.2.input taken = some u → y.2.input taken ≠ some u
  keys : ∀ x ∈ w.sealed, x.2.data = true → ∀ u, x.2.input taken = some u →
    ∃ k, (x.1, k) ∈ w.delivered ∧ u.key = (F.upKeys k NEA2 NIA2).kupEnc

/-- No COUNT wraps, and a K_gNB is delivered for one UE context. -/
structure Assumed (w : Air P) (e : Event P) : Prop where
  lasts : ∀ x ∈ w.state.sealings F e, x.bearer.txCount.toNat + 1 < 2 ^ 32
  single : ∀ d ∈ w.state.deliveries e, ∀ d' ∈ w.delivered, d'.2 = d.2 → d'.1 = w.born d.1

end Air

/-- BEARER of the DRB of a PDU session. -/
def bearerOf (psi : UInt8) : UInt8 := (Pdcp.Entity.new (k := .drb) .gnb (max psi 1)).inner.bearer

theorem toNat_bearerOf (psi : UInt8) : (bearerOf psi).toNat = psi.toNat - 1 := by
  have hmax : max psi 1 = if psi ≤ 1 then 1 else psi := rfl
  by_cases h : psi ≤ 1
  · have hle : psi.toNat ≤ 1 := UInt8.le_iff_toNat_le.mp h
    rw [bearerOf, hmax, if_pos h]
    change 0 = psi.toNat - 1
    omega
  · have hle : (1 : UInt8) ≤ psi := UInt8.le_of_lt (UInt8.not_le.mp h)
    have hlt : 1 < psi.toNat := UInt8.lt_iff_toNat_lt.mp (UInt8.not_le.mp h)
    have hne : psi ≠ 0 := by
      rintro rfl
      exact absurd hlt (by decide)
    rw [bearerOf, hmax, if_neg h]
    change (if psi = 0 then 0 else psi - 1).toNat = psi.toNat - 1
    rw [if_neg hne, UInt8.toNat_sub_of_le _ _ hle]
    rfl

/-- Different session ids have the same BEARER octet only if they are 0 and 1. -/
theorem bearerOf_eq_iff (i j : UInt8) : bearerOf i = bearerOf j ↔ i = j ∨ (i ≤ 1 ∧ j ≤ 1) := by
  rw [← UInt8.toNat_inj, ← UInt8.toNat_inj, toNat_bearerOf, toNat_bearerOf, UInt8.le_iff_toNat_le,
    UInt8.le_iff_toNat_le]
  change _ ↔ _ ∨ (i.toNat ≤ 1 ∧ j.toNat ≤ 1)
  omega

/-- Sessions that are set up under a key share no BEARER with others there, as far as it is taken. -/
def UeCtx.Separate (taken : UInt8 → UInt8) (ue : UeCtx P) (upKeys : UpKeys) (psis : List UInt8) : Prop :=
  ∀ i ∈ psis, (∀ j ∈ psis, taken (bearerOf i) = taken (bearerOf j) → i = j) ∧
    ∀ x ∈ ue.sessions, x.drb.inner.ciphering.map Pdcp.Algo.key = some upKeys.kupEnc →
      taken (bearerOf x.psi) = taken (bearerOf i) → x.psi = i

/-- A PDU session is set up after K_gNB is there, and under one K_gNB no two session ids share a
BEARER. -/
def Air.Heeds (F : Functions) (taken : UInt8 → UInt8) (w : Air P) : Event P → Prop
  | .ngap (.initialContextSetup _ ranUeId securityKey _ _ sessions) =>
      ∀ ue ∈ w.state.ues.lookup ranUeId,
        ue.Separate taken (F.upKeys securityKey NEA2 NIA2) (sessions.map fun session => session.1)
  | .ngap (.pduSessionResourceSetup _ ranUeId _ sessions) =>
      ∀ ue ∈ w.state.ues.lookup ranUeId, ∀ session ∈ sessions.head?,
        ∃ upKeys ∈ ue.upKeys, ue.Separate taken upKeys [session.1]
  | _ => True

instance UeCtx.decidableSeparate (taken : UInt8 → UInt8) (ue : UeCtx P) (upKeys : UpKeys)
    (psis : List UInt8) : Decidable (ue.Separate taken upKeys psis) :=
  have (i : UInt8) : Decidable (∀ j ∈ psis, taken (bearerOf i) = taken (bearerOf j) → i = j) :=
    List.decidableBAll _ psis
  List.decidableBAll (fun i => (∀ j ∈ psis, taken (bearerOf i) = taken (bearerOf j) → i = j) ∧
    ∀ x ∈ ue.sessions, x.drb.inner.ciphering.map Pdcp.Algo.key = some upKeys.kupEnc →
      taken (bearerOf x.psi) = taken (bearerOf i) → x.psi = i) psis

instance Air.decidableHeeds (F : Functions) (taken : UInt8 → UInt8) (w : Air P) :
    ∀ e : Event P, Decidable (w.Heeds F taken e)
  | .ngap (.initialContextSetup ..) | .ngap (.pduSessionResourceSetup ..) => by
      dsimp only [Air.Heeds]
      infer_instance
  | .ngap (.downlinkNasTransport ..) | .ngap (.ueContextReleaseCommand ..) | .ngap (.paging ..)
  | .ngap .other | .uu _ _ | .n3 _ => instDecidableTrue

instance Air.decidableAssumed (F : Functions) (w : Air P) (e : Event P) : Decidable (w.Assumed F e) :=
  decidable_of_iff
    ((∀ x ∈ w.state.sealings F e, x.bearer.txCount.toNat + 1 < 2 ^ 32) ∧
      ∀ d ∈ w.state.deliveries e, ∀ d' ∈ w.delivered, d'.2 = d.2 → d'.1 = w.born d.1)
    ⟨fun h => ⟨h.1, h.2⟩, fun h => ⟨h.lasts, h.single⟩⟩

namespace Air

variable {F : Functions} {taken : UInt8 → UInt8} {cfg : GnbState.GnbConfig} {w : Air P}

/-! ### The counters of the UE contexts -/

def view (taken : UInt8 → UInt8) (w : Air P) : Keystream.World Bytes Bytes UInt8 Label :=
  { ctxs := w.state.lanes taken
    born := w.born
    births := w.births
    handed := w.delivered
    sent := w.sealed.flatMap fun x => (x.2.use taken).toList.map fun u => ⟨x.1, u.1, u.2⟩ }

/-- What one UE context seals is sent under its number. -/
theorem sent_own {ranUeId : Nat} {xs : List Sealing} (hran : ∀ x ∈ xs, x.ranUeId = ranUeId) :
    (xs.map fun x => (w.born x.ranUeId, x)).flatMap
        (fun x => (x.2.use taken).toList.map fun u => (⟨x.1, u.1, u.2⟩ : Keystream.Sent Bytes Label)) =
      (xs.flatMap fun x => (x.use taken).toList).map fun u => ⟨w.born ranUeId, u.1, u.2⟩ := by
  rw [List.flatMap_map, List.map_flatMap]
  refine List.flatMap_congr fun x hx => ?_
  dsimp only
  rw [hran x hx]

theorem lanes_newUe (taken : UInt8 → UInt8) (s : GnbState P) (peer : P) :
    (s.newUe peer).2.lanes taken = Function.update
      (match s.byPeer.lookup peer with
        | some old => Function.update (s.lanes taken) old none
        | none => s.lanes taken)
      s.nextRanUeId (some (Keystream.Ctx.start (derivation F taken))) := by
  funext id
  rw [Function.update_apply, GnbState.lanes, GnbState.newUe]
  dsimp only
  rw [Map.lookup_insert_eq]
  split
  · rfl
  · cases s.byPeer.lookup peer with
    | none => rfl
    | some old =>
      dsimp only
      rw [Map.lookup_erase_eq, Function.update_apply, GnbState.lanes]
      split <;> rfl

/-- Each event advances the counters as its acts do. -/
theorem view_after {s' : GnbState P} {out : List (Output P)} {xs : List Sealing}
    {ds : List (Nat × Bytes)} {newUes : Nat} {es : List (Keystream.Event Bytes UInt8)}
    (h : Advances F taken w.state s' xs ds newUes es) :
    (w.after s' out xs ds newUes).view taken =
      Runs.run (Keystream.World.step (derivation F taken)) (w.view taken) es := by
  cases h with
  | stay hlanes =>
    simp only [view, after, hlanes, List.map_nil, List.append_nil, Nat.add_zero, if_true,
      Runs.run_nil]
  | @acts _ ranUeId ue ue' xs as hue hues hlanes hseals hran =>
    have hctx : (w.view taken).ctxs ranUeId = some (ue.lanes taken) :=
      congrArg (Option.map (UeCtx.lanes taken)) hue
    have hlanes' : s'.lanes taken = Function.update (w.state.lanes taken) ranUeId
        (some ((ue.lanes taken).acts (derivation F taken) as)) := by
      funext id
      rw [GnbState.lanes, hues, Map.lookup_insert_eq, Function.update_apply, ← hlanes]
      split <;> rfl
    rw [Keystream.World.run_acts hctx]
    simp only [view, after, hlanes', List.flatMap_append, sent_own hran, hseals, List.map_map,
      Nat.add_zero, if_true]
    rfl
  | @leave _ ranUeId ue xs as hue hues hseals hran =>
    have hctx : (w.view taken).ctxs ranUeId = some (ue.lanes taken) :=
      congrArg (Option.map (UeCtx.lanes taken)) hue
    have hlanes' : s'.lanes taken = Function.update (w.state.lanes taken) ranUeId none := by
      funext id
      rw [GnbState.lanes, hues, Function.update_apply]
      split <;> rfl
    rw [Runs.run_append, Keystream.World.run_acts hctx]
    simp only [view, after, hlanes', List.flatMap_append, sent_own hran, hseals, List.map_map,
      Nat.add_zero, if_true, Runs.run_cons, Runs.run_nil, Keystream.World.step, Function.update_idem]
    rfl
  | enter peer =>
    have hlanes := lanes_newUe (F := F) taken w.state peer
    rcases hold : w.state.byPeer.lookup peer with _ | old
    all_goals
      rw [hold] at hlanes
      simp only [view, after, hlanes, List.map_nil, List.append_nil, if_neg Nat.one_ne_zero]
      rfl

/-- Where an `expect` would fail, nothing is sealed. -/
theorem sealings_of_none {s : GnbState P} {e : Event P} (h : s.handle F cfg e = none) :
    s.sealings F e = [] ∧ s.deliveries e = [] ∧ e.newUes F = 0 ∧ s.counterEvents F e = [] := by
  have hne : SRB1 ≠ SRB0 := by decide
  obtain ⟨peer, payload, rfl, hconfirmed⟩ := GnbState.handle_eq_none h
  refine ⟨?_, rfl, ?_, ?_⟩
  · simp [GnbState.sealings, hconfirmed]
  · simp [Event.newUes, UlMessage.newUes, hne]
  · simp [GnbState.counterEvents, if_neg hne, hconfirmed]

/-- Each event advances the counters, and what it sends down was sealed. -/
theorem effect_step (cfg : GnbState.GnbConfig) (w : Air P) (e : Event P) :
    (w.step F cfg e).view taken =
        Runs.run (Keystream.World.step (derivation F taken)) (w.view taken) (w.state.counterEvents F e) ∧
      (w.sent = w.sealed.map (fun x => x.2.pdu F.algorithms) →
        (w.step F cfg e).sent = (w.step F cfg e).sealed.map fun x => x.2.pdu F.algorithms) := by
  cases hhandle : w.state.handle F cfg e with
  | none =>
    obtain ⟨hsealings, hdeliveries, hnew, hevents⟩ := sealings_of_none hhandle
    rw [step, hhandle, hsealings, hdeliveries, hnew, hevents]
    exact ⟨view_after (F := F) (.stay rfl), fun hsent => by simp [after, hsent]⟩
  | some result =>
    obtain ⟨out, s'⟩ := result
    have heffect : Effect F taken w.state e out s' := GnbState.effect_handle e hhandle
    rw [step, hhandle]
    refine ⟨view_after heffect.advances, fun hsent => ?_⟩
    simp [after, hsent, heffect.pdus]

/-! ### Acts that are allowed -/

omit [DecidableEq P] in
/-- Sessions on BEARERs of their own have labels of their own. -/
theorem apart_of_separate {ue : UeCtx P} {upKeys : UpKeys} {psis : List UInt8}
    (h : ue.Separate taken upKeys psis) {c : Keystream.Ctx Bytes UInt8 Label}
    (hlanes : c.lanes = (ue.lanes taken).lanes) : c.Apart (derivation F taken) upKeys.kupEnc psis := by
  have hbearer : ∀ i j, (derivation F taken).dataLabel i = (derivation F taken).dataLabel j →
      taken (bearerOf i) = taken (bearerOf j) := fun i j heq => (Prod.mk.inj heq).1
  intro i hi
  obtain ⟨hothers, hold⟩ := h i hi
  refine ⟨fun j hj heq => hothers j hj (hbearer i j heq), fun l hl hkey heq => ?_⟩
  rw [hlanes] at hl
  obtain ⟨x, hx, rfl⟩ := List.mem_map.mp hl
  exact hold x hx hkey (hbearer _ i heq)

omit [DecidableEq P] in
/-- While no COUNT wraps, what was held is sealed as it should be. -/
theorem allowed_held {ks : List Bytes} {owner : Nat} (ranUeId : Nat) (handed : List (Nat × Bytes))
    (ue : UeCtx P) (held : List Bytes)
    (hlasts : ∀ x ∈ ue.heldSealings F ranUeId held, x.bearer.txCount.toNat + 1 < 2 ^ 32) :
    (ue.lanes taken).AllowedAll (derivation F taken) ks owner handed
      (List.replicate held.length .signal) := by
  induction held generalizing ue handed with
  | nil => trivial
  | cons nas held ih =>
    refine ⟨hlasts _ List.mem_cons_self, ?_⟩
    exact ih _ (ue.dlNasSrb1 F nas).2 fun x hx => hlasts x (List.mem_cons_of_mem _ hx)

theorem along_counterEvents {ks : List Bytes} {e : Event P}
    (hks : ∀ d ∈ w.state.deliveries e, d.2 ∈ ks) (hassumed : w.Assumed F e)
    (hheeds : w.Heeds F taken e) :
    Runs.Along (Keystream.World.step (derivation F taken)) (Keystream.World.Allowed (derivation F taken) ks)
      (w.view taken) (w.state.counterEvents F e) := by
  obtain ⟨hlasts, hsingle⟩ := hassumed
  have hctx : ∀ {ranUeId ue}, w.state.ues.lookup ranUeId = some ue →
      (w.view taken).ctxs ranUeId = some (ue.lanes taken) := fun hue =>
    congrArg (Option.map (UeCtx.lanes taken)) hue
  cases e with
  | ngap pdu =>
    cases pdu with
    | downlinkNasTransport amfUeId ranUeId nas =>
      rw [GnbState.counterEvents]
      cases hue : w.state.ues.lookup ranUeId with
      | none => trivial
      | some ue =>
        rw [GnbState.sealings, hue] at hlasts
        exact Keystream.World.along_acts (hctx hue) [.signal]
          ⟨hlasts _ List.mem_cons_self, trivial⟩
    | initialContextSetup amfUeId ranUeId securityKey nas qfis sessions =>
      rw [GnbState.counterEvents]
      cases hue : w.state.ues.lookup ranUeId with
      | none => trivial
      | some ue =>
        rw [GnbState.sealings, hue] at hlasts
        rw [GnbState.deliveries, hue] at hks hsingle
        refine Keystream.World.along_acts (hctx hue) [.signal, .secure securityKey,
          .launch (sessions.map fun session => session.1)]
          ⟨hlasts _ List.mem_cons_self, ⟨hks _ List.mem_cons_self, ?_⟩, ?_, trivial⟩
        · intro d hd heq
          have hold : d ∈ (w.view taken).handed := by simpa [Act.secret] using hd
          exact hsingle _ List.mem_cons_self d hold heq
        · exact fun _ => ⟨_, rfl, apart_of_separate (hheeds ue hue) rfl⟩
    | pduSessionResourceSetup amfUeId ranUeId qfis sessions =>
      simp only [GnbState.counterEvents]
      cases hue : w.state.ues.lookup ranUeId with
      | none => trivial
      | some ue =>
        rcases sessions with _ | ⟨⟨psi, upfTeid, upfAddr, nas⟩, rest⟩
        · trivial
        · obtain ⟨upKeys, hup, hseparate⟩ := hheeds ue hue _ rfl
          have hlaunch : (ue.lanes taken).Allowed (derivation F taken) ks w.delivered (w.born ranUeId)
              (.launch [psi]) := by
            intro _
            refine ⟨upKeys.kupEnc, congrArg (Option.map UpKeys.kupEnc) hup, ?_⟩
            exact apart_of_separate hseparate rfl
          simp only [GnbState.sealings, hue, Option.toList_some, List.flatMap_singleton]
            at hlasts ⊢
          by_cases hnas : nas.isEmpty
          · rw [if_pos hnas]
            exact Keystream.World.along_acts (hctx hue) [.launch [psi]]
              ⟨hlaunch, trivial⟩
          · rw [if_neg hnas] at hlasts ⊢
            exact Keystream.World.along_acts (hctx hue) [.launch [psi], .signal]
              ⟨hlaunch, hlasts _ List.mem_cons_self, trivial⟩
    | ueContextReleaseCommand amfUeId ranUeId =>
      rw [GnbState.counterEvents]
      cases hue : w.state.ues.lookup ranUeId with
      | none => trivial
      | some ue =>
        rw [GnbState.sealings, hue] at hlasts
        have hsignal : (ue.lanes taken).AllowedAll (derivation F taken) ks (w.born ranUeId) w.delivered
            [.signal] := ⟨hlasts _ List.mem_cons_self, trivial⟩
        have hsignal := Keystream.World.along_acts (hctx hue) [.signal] hsignal
        exact ⟨hsignal.1, trivial, trivial⟩
    | paging tmsi => trivial
    | other => trivial
  | uu peer msg =>
    cases msg with
    | srb srbId payload =>
      rw [GnbState.counterEvents]
      rw [GnbState.sealings] at hlasts
      split
      · split
        · cases w.state.byPeer.lookup peer with
          | none => exact ⟨trivial, trivial⟩
          | some old => exact ⟨trivial, trivial, trivial⟩
        · trivial
      · split
        next hsrb1 =>
          rw [if_pos hsrb1] at hlasts
          cases hconfirmed : w.state.confirmed F peer payload with
          | none => trivial
          | some found =>
            obtain ⟨ranUeId, ue⟩ := found
            obtain ⟨before, hbefore, hlanes⟩ := GnbState.lanes_confirmed taken hconfirmed
            rw [hconfirmed] at hlasts
            simp only [Option.toList_some, List.flatMap_singleton] at hlasts ⊢
            refine Keystream.World.along_acts (hctx hbefore) _ ?_
            rw [← hlanes]
            exact allowed_held ranUeId _
              { ue with pendingDlNas := [], pendingIcs := none } ue.pendingDlNas hlasts
        next => trivial
    | idle => trivial
    | data psi packet => trivial
  | n3 msg =>
    cases msg with
    | gPdu teid qfi payload =>
      rw [GnbState.counterEvents]
      cases hx : w.state.downlinkSession teid with
      | none => trivial
      | some found =>
        obtain ⟨ranUeId, ue, x⟩ := found
        obtain ⟨psi, peer, -, hue, hfind⟩ := GnbState.downlinkSession_eq_some.mp hx
        have hpsi : x.psi = psi := by simpa using List.find?_some hfind
        rw [GnbState.sealings, hx] at hlasts
        refine Keystream.World.along_acts (hctx hue) [.data x.psi] ⟨?_, trivial⟩
        intro l hl
        rw [hpsi, UeCtx.lanes, find_lanes, hfind] at hl
        obtain rfl := Option.some.inj hl
        exact hlasts _ List.mem_cons_self
    | echoRequest sequence => trivial
    | endMarker teid => trivial
    | other => trivial

/-! ### Runs -/

/-- Inputs are fresh where the counters are. -/
theorem unreused_of_fresh {ks : List Bytes} (h : Keystream.Fresh (derivation F taken) ks (w.view taken))
    (hsent : w.sent = w.sealed.map fun x => x.2.pdu F.algorithms) : w.Unreused F taken := by
  have huse : ∀ {x : Nat × Sealing} {u}, x.2.input taken = some u →
      x.2.use taken = some (x.2.data, u) := by
    intro x u hu
    rw [Sealing.use, hu, Option.map_some]
  refine ⟨hsent, ?_, ?_⟩
  · have hnodup := h.nodup
    rw [view, List.map_flatMap, List.nodup_flatMap] at hnodup
    refine hnodup.2.imp fun {x y} hdisjoint _ u hu hu' => ?_
    have hx : u ∈ ((x.2.use taken).toList.map fun u =>
        (⟨x.1, u.1, u.2⟩ : Keystream.Sent Bytes Label)).map Keystream.Sent.use := by
      rw [huse hu]
      exact List.mem_singleton_self _
    have hy : u ∈ ((y.2.use taken).toList.map fun u =>
        (⟨y.1, u.1, u.2⟩ : Keystream.Sent Bytes Label)).map Keystream.Sent.use := by
      rw [huse hu']
      exact List.mem_singleton_self _
    exact hdisjoint hx hy
  · intro x hx hdata u hu
    have hmem : (⟨x.1, x.2.data, u⟩ : Keystream.Sent Bytes Label) ∈ (w.view taken).sent := by
      refine List.mem_flatMap.mpr ⟨x, hx, ?_⟩
      rw [huse hu]
      exact List.mem_singleton_self _
    obtain ⟨k, hk, hkey⟩ := h.keys _ hmem
    rw [hdata, if_pos rfl] at hkey
    exact ⟨k, hk, hkey⟩

end Air

/-- The K_gNB in an event. -/
def Event.securityKey : Event P → Option Bytes
  | .ngap (.initialContextSetup _ _ securityKey _ _ _) => some securityKey
  | _ => none

theorem mem_deliveries {s : GnbState P} {e : Event P} {d : Nat × Bytes} (h : d ∈ s.deliveries e) :
    e.securityKey = some d.2 := by
  cases e with
  | ngap pdu =>
    cases pdu with
    | initialContextSetup amfUeId ranUeId securityKey nas qfis sessions =>
      obtain ⟨ue, -, rfl⟩ := List.mem_map.mp h
      rfl
    | downlinkNasTransport => cases h
    | pduSessionResourceSetup => cases h
    | ueContextReleaseCommand => cases h
    | paging => cases h
    | other => cases h
  | uu peer msg => cases h
  | n3 msg => cases h

/-- **No keystream twice.** In every run in which no COUNT wraps, the K_gNBs give different keys and
each is delivered for one UE context, and in which a PDU session is set up after K_gNB is there, on a
BEARER of its own, no two different downlink PDUs are ciphered with the same input, and user data is
ciphered under keys from the K_gNBs delivered for its UE context.  So it is for all that the cipher may
take of the BEARER octet, be it the whole of it or, as in NEA2, five bits. -/
theorem unreused_of_heeds (F : Functions) (taken : UInt8 → UInt8) (cfg : GnbState.GnbConfig)
    (es : List (Event P))
    (hkeys : (derivation F taken).Distinct (es.filterMap Event.securityKey))
    (halong : Runs.Along (Air.step F cfg) (fun w e => w.Assumed F e ∧ w.Heeds F taken e) {} es) :
    Air.Unreused F taken (Runs.run (Air.step F cfg) {} es) := by
  let ks := es.filterMap Event.securityKey
  have hknown : Runs.Along (Air.step F cfg) (fun _ e => ∀ k, e.securityKey = some k → k ∈ ks) {} es :=
    Runs.along_of_mem fun e he k hk => List.mem_filterMap.mpr ⟨e, he, hk⟩
  have hinvariant := Runs.invariant_along
    (I := fun w : Air P => Keystream.Fresh (derivation F taken) ks (w.view taken) ∧
      w.sent = w.sealed.map fun x => x.2.pdu F.algorithms)
    (fun w e hstep hw => ?_) (Runs.along_and.mpr ⟨halong, hknown⟩) ⟨Keystream.Fresh.start, rfl⟩
  · exact Air.unreused_of_fresh hinvariant.1 hinvariant.2
  · obtain ⟨⟨hassumed, hheeds⟩, hk⟩ := hstep
    obtain ⟨hview, hsent⟩ := Air.effect_step cfg w e
    refine ⟨?_, hsent hw.2⟩
    rw [hview]
    exact hw.1.run hkeys (Air.along_counterEvents (fun d hd => hk d.2 (mem_deliveries hd)) hassumed hheeds)

/-- Keys that are the secret behind a label, and a cipher that adds the key's octets. -/
def labelledFunctions : Functions :=
  { nullFunctions with
    algorithms :=
      { nasMac := fun _ _ _ _ _ _ => 0
        nasCipher := fun key count _ _ message _ =>
          message.map fun octet => octet ^^^ key.headD 0 ^^^ .ofBitVec (count.setWidth 8) }
    rrcKeys := fun k _ _ => { krrcInt := 0 :: k, krrcEnc := 1 :: k }
    upKeys := fun k _ _ => { kupInt := 2 :: k, kupEnc := 3 :: k } }

theorem distinct_labelled (taken : UInt8 → UInt8) (ks : List Bytes) :
    (derivation labelledFunctions taken).Distinct ks where
  signalling _ _ _ _ h := (List.cons.inj h).2
  data _ _ _ _ h := (List.cons.inj h).2
  apart _ _ _ _ h := absurd (List.cons.inj h).1 (by decide)

/-- A UE gets K_gNB and two sessions, and a packet on each of them; it comes back and gets another. -/
def twoSessions : List (Event Nat) :=
  [.uu 10 (.srb 0 []), .ngap (.initialContextSetup 1 1 [7] [] [] [(1, 0x11, 0)]),
    .ngap (.pduSessionResourceSetup 1 1 [] [(2, 0x12, 0, [0xAA])]), .n3 (.gPdu 0x2001 none [1]),
    .n3 (.gPdu 0x2002 none [2]), .n3 (.gPdu 0x2001 none [3]), .uu 10 (.srb 0 []),
    .ngap (.initialContextSetup 1 2 [8] [] [] [(1, 0x11, 0)]), .n3 (.gPdu 0x2003 none [4])]

theorem unreused_twoSessions :
    Air.Unreused labelledFunctions (· % 32) (Runs.run (Air.step labelledFunctions ⟨0⟩) {} twoSessions) :=
  unreused_of_heeds labelledFunctions (· % 32) ⟨0⟩ twoSessions (distinct_labelled _ _)
    (by decide +kernel)

/-- Sessions 0 and 1 are set up under one K_gNB, and a packet comes for each. -/
def sessionsZeroAndOne : List (Event Nat) :=
  [.uu 10 (.srb 0 []), .ngap (.initialContextSetup 1 1 [7] [] [] [(0, 0x11, 0), (1, 0x12, 0)]),
    .n3 (.gPdu 0x2001 none [1]), .n3 (.gPdu 0x2002 none [2])]

/-- **Sessions 0 and 1 share a keystream.** Their first packets are ciphered with the same key, COUNT,
BEARER octet and DIRECTION. -/
theorem not_unreused :
    ¬ ∀ (F : Functions) (cfg : GnbState.GnbConfig) (es : List (Event Nat)),
      (derivation F id).Distinct (es.filterMap Event.securityKey) →
      Runs.Along (Air.step F cfg) (Air.Assumed F) {} es →
      Air.Unreused F id (Runs.run (Air.step F cfg) {} es) := by
  intro h
  have hunreused := h labelledFunctions ⟨0⟩ sessionsZeroAndOne (distinct_labelled _ _) (by decide +kernel)
  have hsealed : ((Runs.run (Air.step labelledFunctions ⟨0⟩) {} sessionsZeroAndOne).sealed.map
      fun x => (x.2.pdu labelledFunctions.algorithms, x.2.input id)) =
      [([0, 0, 0, 0, 0, 0], none), ([0x80, 0, 0, 2, 2], some ⟨[3, 7], 0, (0, 1)⟩),
        ([0x80, 0, 0, 2, 1], some ⟨[3, 7], 0, (0, 1)⟩)] := by
    decide +kernel
  have hinputs : ((Runs.run (Air.step labelledFunctions ⟨0⟩) {} sessionsZeroAndOne).sealed.map
      fun x => (x.2.pdu labelledFunctions.algorithms, x.2.input id)).Pairwise fun x y =>
        x.1 ≠ y.1 → ∀ u, x.2 = some u → y.2 ≠ some u := List.pairwise_map.mpr hunreused.inputs
  rw [hsealed] at hinputs
  have hlast := (List.pairwise_cons.mp hinputs).2
  exact (List.pairwise_cons.mp hlast).1 _ (List.mem_singleton_self _) (by decide) _ rfl rfl

end Radian.Ran
