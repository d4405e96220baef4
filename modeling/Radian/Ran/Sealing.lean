import Radian.Keystream.Basic
import Radian.Ran.Routing

/-!
# Keystreams of the gNB

What the PDCP PDUs that the gNB sends down are ciphered with, over every run on one N2 association.

- `GnbState.sealings` — the PDUs an event seals, and `pdus_handle` that these are the ones sent.
- `UeCtx.lanes` — a UE context as a context of counters under derived keys.
- `Advances` — everything an event does to those, and `advances_handle` that each event does so.
-/

namespace Radian.Ran

open Keyed (Map)
open Keystream (Use Lane Act)
open Security (Bytes)

variable {P : Type} [DecidableEq P]

/-! ### What is sealed -/

/-- BEARER and DIRECTION. -/
abbrev Label : Type := UInt8 × UInt8

/-- A PDU that a bearer seals for a UE context, on SRB1 or on a DRB. -/
structure Sealing where
  ranUeId : Nat
  data : Bool
  bearer : Pdcp.Bearer
  header : Bytes
  sdu : Bytes
  deriving DecidableEq, Repr

/-- What the next PDU of a bearer is ciphered with.  BEARER is handed over as an octet, of which the
cipher has what is `taken`. -/
def lane (taken : UInt8 → UInt8) (b : Pdcp.Bearer) : Lane Bytes Label :=
  { key := b.ciphering.map Pdcp.Algo.key, count := b.txCount
    label := (taken b.bearer, b.txDirection) }

namespace Sealing

def pdu (A : Security.Algorithms) (x : Sealing) : Bytes := (x.bearer.txSeal A x.header x.sdu).1

/-- The key, COUNT, BEARER and DIRECTION of a PDU that is ciphered. -/
def input (taken : UInt8 → UInt8) (x : Sealing) : Option (Use Bytes Label) :=
  (lane taken x.bearer).use

def use (taken : UInt8 → UInt8) (x : Sealing) : Option (Bool × Use Bytes Label) :=
  (x.input taken).map fun u => (x.data, u)

def ofEntity {k : Pdcp.Kind} (ranUeId : Nat) (data : Bool) (e : Pdcp.Entity k) (sdu : Bytes) : Sealing :=
  { ranUeId, data, bearer := e.inner, header := k.header e.inner.nextTxSn, sdu }

end Sealing

namespace UeCtx

variable (F : Functions)

/-- The NAS messages that were held, one after the other. -/
def heldSealings (ranUeId : Nat) : UeCtx P → List Bytes → List Sealing
  | _, [] => []
  | ue, nas :: rest =>
      .ofEntity ranUeId false ue.srb1 (F.dlInformationTransfer ue.rrcTxn nas) ::
        heldSealings ranUeId (ue.dlNasSrb1 F nas).2 rest

end UeCtx

/-- The UE context that confirms AS security with an SRB1 PDU, once that is opened. -/
def GnbState.confirmed (F : Functions) (s : GnbState P) (peer : P) (payload : Bytes) :
    Option (Nat × UeCtx P) :=
  (s.byPeer.lookup peer).bind fun ranUeId => (s.ues.lookup ranUeId).bind fun ue =>
    match (ue.srb1.unprotect F.algorithms payload).1 with
    | .error _ => none
    | .ok rrc =>
        match F.parseUlDcch rrc with
        | some .securityModeComplete =>
            some (ranUeId, { ue with srb1 := (ue.srb1.unprotect F.algorithms payload).2 })
        | _ => none

/-- The PDUs that an event seals. -/
def GnbState.sealings (F : Functions) (s : GnbState P) : Event P → List Sealing
  | .ngap (.downlinkNasTransport _ ranUeId nas) =>
      (s.ues.lookup ranUeId).toList.map fun ue =>
        .ofEntity ranUeId false ue.srb1 (F.dlInformationTransfer ue.rrcTxn nas)
  | .ngap (.initialContextSetup _ ranUeId securityKey _ _ _) =>
      (s.ues.lookup ranUeId).toList.map fun ue =>
        .ofEntity ranUeId false
          (ue.srb1.activateIntegrity (F.rrcKeys securityKey NEA2 NIA2).krrcInt NIA2)
          (F.securityModeCommand ue.rrcTxn NEA2 NIA2)
  | .ngap (.pduSessionResourceSetup _ ranUeId _ sessions) =>
      (s.ues.lookup ranUeId).toList.flatMap fun ue =>
        match sessions with
        | [] => []
        | (_, _, _, nas) :: _ =>
            if nas.isEmpty then []
            else [.ofEntity ranUeId false ue.srb1 (F.dlInformationTransfer ue.rrcTxn nas)]
  | .ngap (.ueContextReleaseCommand _ ranUeId) =>
      (s.ues.lookup ranUeId).toList.map fun ue =>
        .ofEntity ranUeId false ue.srb1 (F.rrcRelease ue.rrcTxn)
  | .uu peer (.srb srbId payload) =>
      if srbId = SRB1 then
        (s.confirmed F peer payload).toList.flatMap fun (ranUeId, ue) =>
          { ue with pendingDlNas := [], pendingIcs := none }.heldSealings F ranUeId ue.pendingDlNas
      else []
  | .n3 (.gPdu teid qfi payload) =>
      (s.downlinkSession teid).toList.map fun (ranUeId, _, x) =>
        .ofEntity ranUeId true x.drb (sdapEncapDl (qfi.getD x.qfi) false false payload)
  | _ => []

/-- The PDCP PDU in a message: everything but SRB0, which has no PDCP. -/
def Output.pdu : Output P → Option Bytes
  | .uu _ (.srb srbId payload) => if srbId = SRB0 then none else some payload
  | .uu _ (.data _ packet) => some packet
  | _ => none

/-- The PDCP PDUs in some messages. -/
def pdus (out : List (Output P)) : List Bytes := out.filterMap Output.pdu

section Pdus

omit [DecidableEq P]

@[simp] theorem pdus_nil : pdus ([] : List (Output P)) = [] := rfl

@[simp] theorem pdus_ngap (pdu : NgapOut) (out : List (Output P)) :
    pdus (.ngap pdu :: out) = pdus out := rfl

@[simp] theorem pdus_srb1 (peer : P) (payload : Bytes) (out : List (Output P)) :
    pdus (.uu peer (.srb SRB1 payload) :: out) = payload :: pdus out := rfl

@[simp] theorem pdus_append (out out' : List (Output P)) : pdus (out ++ out') = pdus out ++ pdus out' :=
  List.filterMap_append

theorem pdus_map_srb1 (peer : P) (payloads : List Bytes) :
    pdus (payloads.map fun payload => Output.uu peer (.srb SRB1 payload)) = payloads := by
  induction payloads with
  | nil => rfl
  | cons payload payloads ih => exact congrArg (payload :: ·) ih

theorem pdus_paging (camped : List P) (tmsi : Nat) :
    pdus (camped.map fun peer => Output.uu peer (.paging tmsi)) = [] := by
  induction camped with
  | nil => rfl
  | cons peer camped ih => exact ih

theorem pdus_held (ranUeId : Nat) (F : Functions) (ue : UeCtx P) (held : List Bytes) :
    (ue.dlNasAll F held).1 = (ue.heldSealings F ranUeId held).map (Sealing.pdu F.algorithms) := by
  induction held generalizing ue with
  | nil => rfl
  | cons nas held ih => exact congrArg (_ :: ·) (ih (ue.dlNasSrb1 F nas).2)

end Pdus

/-! ### Contexts of counters -/

/-- The keys from K_gNB, the key of a DRB without one, and the labels of the bearers. -/
def derivation (F : Functions) (taken : UInt8 → UInt8) :
    Keystream.Derivation Bytes Bytes UInt8 Label where
  signalling k := (F.rrcKeys k NEA2 NIA2).krrcEnc
  data k := (F.upKeys k NEA2 NIA2).kupEnc
  fallback := GnbState.nullKeys.kupEnc
  signallingLabel := (taken 0, Pdcp.DIRECTION_DOWNLINK)
  dataLabel psi := (taken (if max psi 1 = 0 then 0 else max psi 1 - 1), Pdcp.DIRECTION_DOWNLINK)

def SessionCtx.lane (taken : UInt8 → UInt8) (x : SessionCtx) : UInt8 × Lane Bytes Label :=
  (x.psi, Ran.lane taken x.drb.inner)

/-- A UE context as a context of counters under derived keys. -/
def UeCtx.lanes (taken : UInt8 → UInt8) (ue : UeCtx P) : Keystream.Ctx Bytes UInt8 Label :=
  { signal := lane taken ue.srb1.inner
    up := ue.upKeys.map UpKeys.kupEnc
    lanes := ue.sessions.map (SessionCtx.lane taken) }

section Lanes

omit [DecidableEq P]

variable {F : Functions} {taken : UInt8 → UInt8}

theorem lane_unprotect {k : Pdcp.Kind} (e : Pdcp.Entity k) (A : Security.Algorithms) (pdu : Bytes) :
    lane taken (e.unprotect A pdu).2.inner = lane taken e.inner := by
  rcases h : e.unprotect A pdu with ⟨opened, e'⟩
  cases opened with
  | error err => rw [Pdcp.Entity.eq_of_unprotect_error h]
  | ok sdu =>
    obtain ⟨-, -, rfl⟩ := Pdcp.Entity.opens_of_unprotect h
    rfl

theorem find_lanes (psi : UInt8) (xs : List SessionCtx) :
    Keystream.find psi (xs.map (SessionCtx.lane taken)) =
      (xs.find? fun x => x.psi = psi).map fun x => lane taken x.drb.inner := by
  induction xs with
  | nil => rfl
  | cons x xs ih =>
    rw [List.map_cons, Keystream.find]
    by_cases hpsi : x.psi = psi
    · rw [List.find?_cons_of_pos (by simpa using hpsi)]
      exact if_pos hpsi
    · rw [List.find?_cons_of_neg (by simpa using hpsi), ← ih]
      exact if_neg hpsi

theorem lanes_protect (taken : UInt8 → UInt8) (A : Security.Algorithms) (sdu : Bytes) {psi : UInt8}
    {x : SessionCtx} {xs : List SessionCtx} (hx : (xs.find? fun x => x.psi = psi) = some x) :
    (UeCtx.modifyFirst (fun x => x.psi = psi) (fun y => { y with drb := (x.drb.protect A sdu).2 })
      xs).map (SessionCtx.lane taken) = Keystream.advance psi (xs.map (SessionCtx.lane taken)) := by
  induction xs with
  | nil => cases hx
  | cons y ys ih =>
    rw [UeCtx.modifyFirst, List.map_cons, Keystream.advance]
    by_cases hpsi : y.psi = psi
    · rw [List.find?_cons_of_pos (by simpa using hpsi), Option.some_inj] at hx
      rw [if_pos (by simpa using hpsi), if_pos (show (y.lane taken).1 = psi from hpsi), List.map_cons, hx]
      rfl
    · rw [List.find?_cons_of_neg (by simpa using hpsi)] at hx
      rw [if_neg (by simpa using hpsi), if_neg (show ¬ (y.lane taken).1 = psi from hpsi),
        List.map_cons, ih hx]

theorem lanes_received (A : Security.Algorithms) (pdu : Bytes) {psi : UInt8} {x : SessionCtx}
    {xs : List SessionCtx} (hx : (xs.find? fun x => x.psi = psi) = some x) :
    (UeCtx.modifyFirst (fun x => x.psi = psi) (fun y => { y with drb := (x.drb.unprotect A pdu).2 })
      xs).map (SessionCtx.lane taken) = xs.map (SessionCtx.lane taken) := by
  refine map_modifyFirst ?_ hx
  rw [SessionCtx.lane, lane_unprotect]
  rfl

theorem lanes_admitted (taken : UInt8 → UInt8) (upKeys : UpKeys) (qfis : List (UInt8 × UInt8))
    (sessions : List (UInt8 × Pfcp.Teid × Pfcp.Ipv4Addr)) (dlTeid : Nat) :
    (GnbState.admitted upKeys qfis sessions dlTeid).map (SessionCtx.lane taken) =
      (sessions.map fun session => session.1).map fun psi =>
        (psi, ⟨some upKeys.kupEnc, 0, (derivation F taken).dataLabel psi⟩) := by
  induction sessions generalizing dlTeid with
  | nil => rfl
  | cons session rest ih => exact congrArg (_ :: ·) (ih _)

end Lanes

section Held

omit [DecidableEq P]

variable {F : Functions} {taken : UInt8 → UInt8}

theorem lanes_held (ue : UeCtx P) (held : List Bytes) :
    (ue.dlNasAll F held).2.lanes taken =
      (ue.lanes taken).acts (derivation F taken)
        (List.replicate held.length (.signal : Act Bytes UInt8)) := by
  induction held generalizing ue with
  | nil => rfl
  | cons nas held ih => exact ih (ue.dlNasSrb1 F nas).2

theorem use_held (ranUeId : Nat) (ue : UeCtx P) (held : List Bytes) :
    (ue.heldSealings F ranUeId held).flatMap (fun x => (x.use taken).toList) =
      (ue.lanes taken).sealsAll (derivation F taken) (List.replicate held.length .signal) := by
  induction held generalizing ue with
  | nil => rfl
  | cons nas held ih => exact congrArg (_ ++ ·) (ih (ue.dlNasSrb1 F nas).2)

theorem ranUeId_held (ranUeId : Nat) (ue : UeCtx P) (held : List Bytes) :
    ∀ x ∈ ue.heldSealings F ranUeId held, x.ranUeId = ranUeId := by
  induction held generalizing ue with
  | nil => exact fun x hx => absurd hx List.not_mem_nil
  | cons nas held ih =>
    intro x hx
    obtain rfl | hrest := List.mem_cons.mp hx
    · rfl
    · exact ih (ue.dlNasSrb1 F nas).2 x hrest

theorem secret_held (ranUeId n : Nat) :
    ((List.replicate n (.signal : Act Bytes UInt8)).filterMap Act.secret).map (fun k => (ranUeId, k)) =
      [] := by
  rw [List.filterMap_replicate_of_none rfl, List.map_nil]

end Held

/-! ### What an event does -/

namespace GnbState

def lanes (taken : UInt8 → UInt8) (s : GnbState P) (ranUeId : Nat) :
    Option (Keystream.Ctx Bytes UInt8 Label) :=
  (s.ues.lookup ranUeId).map (UeCtx.lanes taken)

/-- The K_gNB that an event delivers, and the UE context it is for. -/
def deliveries (s : GnbState P) : Event P → List (Nat × Bytes)
  | .ngap (.initialContextSetup _ ranUeId securityKey _ _ _) =>
      (s.ues.lookup ranUeId).toList.map fun _ => (ranUeId, securityKey)
  | _ => []

/-- What an event does to the counters. -/
def counterEvents (F : Functions) (s : GnbState P) : Event P → List (Keystream.Event Bytes UInt8)
  | .ngap (.downlinkNasTransport _ ranUeId _) =>
      (s.ues.lookup ranUeId).toList.map fun _ => .act ranUeId .signal
  | .ngap (.initialContextSetup _ ranUeId securityKey _ _ sessions) =>
      (s.ues.lookup ranUeId).toList.flatMap fun _ =>
        [.act ranUeId .signal, .act ranUeId (.secure securityKey),
          .act ranUeId (.launch (sessions.map fun session => session.1))]
  | .ngap (.pduSessionResourceSetup _ ranUeId _ sessions) =>
      (s.ues.lookup ranUeId).toList.flatMap fun _ =>
        match sessions with
        | [] => []
        | (psi, _, _, nas) :: _ =>
            .act ranUeId (.launch [psi]) :: if nas.isEmpty then [] else [.act ranUeId .signal]
  | .ngap (.ueContextReleaseCommand _ ranUeId) =>
      (s.ues.lookup ranUeId).toList.flatMap fun _ => [.act ranUeId .signal, .leave ranUeId]
  | .uu peer (.srb srbId payload) =>
      if srbId = SRB0 then
        match F.parseUlCcch payload with
        | some (.rrcSetupRequest _ _) =>
            (s.byPeer.lookup peer).toList.map .leave ++ [.enter s.nextRanUeId]
        | _ => []
      else if srbId = SRB1 then
        (s.confirmed F peer payload).toList.flatMap fun (ranUeId, ue) =>
          (List.replicate ue.pendingDlNas.length .signal).map (.act ranUeId)
      else []
  | .n3 (.gPdu teid _ _) =>
      (s.downlinkSession teid).toList.map fun (ranUeId, _, x) => .act ranUeId (.data x.psi)
  | _ => []

end GnbState

/-- A step on the counters: none, acts on one UE context, after which it may go, or a context that
comes. The indices are the state after it, what is sealed, the K_gNBs delivered, how many contexts come,
and what happens to the counters. -/
inductive Advances (F : Functions) (taken : UInt8 → UInt8) (s : GnbState P) : GnbState P →
    List Sealing → List (Nat × Bytes) → Nat → List (Keystream.Event Bytes UInt8) → Prop where
  | stay {s' : GnbState P} (hlanes : s'.lanes taken = s.lanes taken) : Advances F taken s s' [] [] 0 []
  | acts {s' : GnbState P} {ranUeId : Nat} {ue ue' : UeCtx P} {xs : List Sealing}
      (as : List (Act Bytes UInt8)) (hue : s.ues.lookup ranUeId = some ue)
      (hues : s'.ues = s.ues.insert ranUeId ue')
      (hlanes : ue'.lanes taken = (ue.lanes taken).acts (derivation F taken) as)
      (hseals : xs.flatMap (fun x => (x.use taken).toList) =
        (ue.lanes taken).sealsAll (derivation F taken) as)
      (hran : ∀ x ∈ xs, x.ranUeId = ranUeId) :
      Advances F taken s s' xs ((as.filterMap Act.secret).map fun k => (ranUeId, k)) 0
        (as.map (Keystream.Event.act ranUeId))
  | leave {s' : GnbState P} {ranUeId : Nat} {ue : UeCtx P} {xs : List Sealing}
      (as : List (Act Bytes UInt8)) (hue : s.ues.lookup ranUeId = some ue)
      (hues : ∀ id, s'.ues.lookup id = if id = ranUeId then none else s.ues.lookup id)
      (hseals : xs.flatMap (fun x => (x.use taken).toList) =
        (ue.lanes taken).sealsAll (derivation F taken) as)
      (hran : ∀ x ∈ xs, x.ranUeId = ranUeId) :
      Advances F taken s s' xs ((as.filterMap Act.secret).map fun k => (ranUeId, k)) 0
        (as.map (Keystream.Event.act ranUeId) ++ [.leave ranUeId])
  | enter (peer : P) :
      Advances F taken s (s.newUe peer).2 [] [] 1
        ((s.byPeer.lookup peer).toList.map .leave ++ [.enter s.nextRanUeId])

/-- What an event does: what it sends down was sealed, and the counters go on. -/
structure Effect (F : Functions) (taken : UInt8 → UInt8) (s : GnbState P) (e : Event P)
    (out : List (Output P)) (s' : GnbState P) : Prop where
  pdus : pdus out = (s.sealings F e).map (Sealing.pdu F.algorithms)
  advances : Advances F taken s s' (s.sealings F e) (s.deliveries e) (e.newUes F)
    (s.counterEvents F e)

namespace GnbState

variable {F : Functions} {taken : UInt8 → UInt8} {cfg : GnbConfig}
variable {s s' : GnbState P} {out : List (Output P)}

theorem advances_setUp {dlTeid ranUeId : Nat} {ue ue' : UeCtx P} {xs : List Sealing}
    (as : List (Act Bytes UInt8)) (hue : s.ues.lookup ranUeId = some ue)
    (hlanes : ue'.lanes taken = (ue.lanes taken).acts (derivation F taken) as)
    (hseals : xs.flatMap (fun x => (x.use taken).toList) =
      (ue.lanes taken).sealsAll (derivation F taken) as)
    (hran : ∀ x ∈ xs, x.ranUeId = ranUeId) :
    Advances F taken s ({ s with nextDlTeid := dlTeid }.putUe ranUeId ue') xs
      ((as.filterMap Act.secret).map fun k => (ranUeId, k)) 0
      (as.map (Keystream.Event.act ranUeId)) :=
  .acts as hue rfl hlanes hseals hran

omit [DecidableEq P] in
/-- Opening a DRB appends a lane. -/
theorem lanes_setUp (ue : UeCtx P) (psi qfi : UInt8) (upfTeid : Pfcp.Teid) (upfAddr : Pfcp.Ipv4Addr)
    (dlTeid : Nat) :
    { ue with sessions :=
        ue.sessions ++ [SessionCtx.new psi qfi upfTeid upfAddr dlTeid (ue.upKeys.getD nullKeys)] }.lanes taken =
      (ue.lanes taken).act (derivation F taken) (.launch [psi] : Act Bytes UInt8) := by
  simp only [UeCtx.lanes, List.map_append, Keystream.Ctx.act]
  congr 1
  cases hup : ue.upKeys <;> rfl

theorem effect_ngap (pdu : NgapPdu) (h : s.handleNgap F cfg pdu = some (out, s')) :
    Effect F taken s (.ngap pdu) out s' := by
  cases pdu with
  | downlinkNasTransport amfUeId ranUeId nas =>
    cases hue : s.ues.lookup ranUeId with
    | none =>
      simp only [handleNgap, hue] at h
      cases h
      constructor
      · simp [sealings, hue]
      · simp only [sealings, deliveries, counterEvents, hue]
        exact .stay rfl
    | some ue =>
      simp only [handleNgap, hue] at h
      cases h
      constructor
      · simp only [sealings, hue]
        rfl
      · simp only [sealings, deliveries, counterEvents, hue]
        refine .acts [.signal] hue rfl rfl ?_ ?_
        · rfl
        · exact fun x hx => List.mem_singleton.mp hx ▸ rfl
  | initialContextSetup amfUeId ranUeId securityKey nas qfis sessions =>
    cases hue : s.ues.lookup ranUeId with
    | none =>
      simp only [handleNgap, hue, Option.isNone_none, if_true] at h
      cases h
      constructor
      · simp [sealings, hue]
      · simp only [sealings, deliveries, counterEvents, hue]
        exact .stay rfl
    | some ue =>
      simp only [handleNgap, hue, Option.isNone_some, Bool.false_eq_true, if_false,
        Option.map_some] at h
      cases h
      constructor
      · simp only [sealings, hue]
        rfl
      · simp only [sealings, deliveries, counterEvents, hue]
        refine advances_setUp [.signal, .secure securityKey, .launch (sessions.map fun session => session.1)]
          hue ?_ ?_ ?_
        · have hnew := lanes_admitted (F := F) taken (F.upKeys securityKey NEA2 NIA2) qfis
            sessions s.nextDlTeid
          simp only [UeCtx.lanes, UeCtx.nextTxn, UeCtx.protectSrb1, List.map_append, hnew]
          rfl
        · rfl
        · exact fun x hx => List.mem_singleton.mp hx ▸ rfl
  | pduSessionResourceSetup amfUeId ranUeId qfis sessions =>
    cases hue : s.ues.lookup ranUeId with
    | none =>
      simp only [handleNgap, hue] at h
      cases h
      constructor
      · simp [sealings, hue]
      · simp only [sealings, deliveries, counterEvents, hue]
        exact .stay rfl
    | some ue =>
      rcases sessions with _ | ⟨⟨psi, upfTeid, upfAddr, nas⟩, rest⟩
      · simp only [handleNgap, hue] at h
        cases h
        constructor
        · simp [sealings, hue]
        · simp only [sealings, deliveries, counterEvents, hue]
          exact .stay rfl
      · simp only [handleNgap, hue, Option.map_some, Option.some_inj] at h
        split at h
        next hnas =>
          cases h
          constructor
          · simp [sealings, hue, hnas]
          · simp only [sealings, deliveries, counterEvents, hue, hnas, Option.toList_some,
              List.flatMap_singleton, if_true]
            refine advances_setUp [.launch [psi]] hue ?_ ?_ ?_
            · exact lanes_setUp ue psi _ upfTeid upfAddr _
            · rfl
            · exact fun x hx => absurd hx List.not_mem_nil
        next hnas =>
          cases h
          constructor
          · simp only [sealings, hue, Option.toList_some, List.flatMap_singleton, if_neg hnas]
            rfl
          · simp only [sealings, deliveries, counterEvents, hue, Option.toList_some,
              List.flatMap_singleton, if_neg hnas]
            refine advances_setUp [.launch [psi], .signal] hue ?_ ?_ ?_
            · exact congrArg (Keystream.Ctx.act (derivation F taken) · (.signal : Act Bytes UInt8))
                (lanes_setUp ue psi _ upfTeid upfAddr _)
            · rfl
            · exact fun x hx => List.mem_singleton.mp hx ▸ rfl
  | ueContextReleaseCommand amfUeId ranUeId =>
    cases hue : s.ues.lookup ranUeId with
    | none =>
      simp only [handleNgap, hue, removeUe, Option.map_none] at h
      cases h
      constructor
      · simp [sealings, hue]
      · simp only [sealings, deliveries, counterEvents, hue]
        exact .stay rfl
    | some ue =>
      simp only [handleNgap, hue, removeUe, putUe, AList.lookup_insert, Option.map_some] at h
      cases h
      constructor
      · simp only [sealings, hue]
        rfl
      · simp only [sealings, deliveries, counterEvents, hue]
        refine .leave [.signal] hue (fun id => ?_) ?_ ?_
        · rw [Map.lookup_erase_eq, Map.lookup_insert_eq]
          split <;> rfl
        · rfl
        · exact fun x hx => List.mem_singleton.mp hx ▸ rfl
  | paging tmsi =>
    cases h
    exact ⟨pdus_paging s.camped tmsi, .stay rfl⟩
  | other =>
    cases h
    exact ⟨rfl, .stay rfl⟩

/-- What it takes for an SRB1 PDU to confirm AS security. -/
theorem confirmed_eq_some {peer : P} {payload : Bytes} {ranUeId : Nat} {ue : UeCtx P}
    (h : s.confirmed F peer payload = some (ranUeId, ue)) :
    ∃ before rrc, s.byPeer.lookup peer = some ranUeId ∧ s.ues.lookup ranUeId = some before ∧
      (before.srb1.unprotect F.algorithms payload).1 = .ok rrc ∧
      F.parseUlDcch rrc = some .securityModeComplete ∧
      ue = { before with srb1 := (before.srb1.unprotect F.algorithms payload).2 } := by
  obtain ⟨ran, hran, h⟩ := Option.bind_eq_some_iff.mp h
  obtain ⟨before, hbefore, h⟩ := Option.bind_eq_some_iff.mp h
  split at h
  next => cases h
  next rrc hopened =>
    split at h
    next hparse =>
      cases h
      exact ⟨before, rrc, hran, hbefore, hopened, hparse, rfl⟩
    next => cases h

/-- How an SRB1 PDU that confirms AS security is handled. -/
theorem handleUu_confirmed {peer : P} {payload : Bytes} {ranUeId : Nat} {ue : UeCtx P}
    (h : s.confirmed F peer payload = some (ranUeId, ue)) :
    s.handleUu F peer (.srb SRB1 payload) = (s.putUe ranUeId ue).onAsSecurityComplete F ranUeId := by
  obtain ⟨before, rrc, hran, hbefore, hopened, hparse, rfl⟩ := confirmed_eq_some h
  have hsrb : SRB1 ≠ SRB0 := by decide
  simp only [handleUu, if_neg hsrb, if_true, hran, hbefore, hopened, hparse]

theorem lanes_putUe {ranUeId : Nat} {ue ue' : UeCtx P} (hue : s.ues.lookup ranUeId = some ue)
    (hlanes : ue'.lanes taken = ue.lanes taken) :
    (s.putUe ranUeId ue').lanes taken = s.lanes taken := by
  funext id
  rw [lanes, putUe, Map.lookup_insert_eq]
  by_cases hid : id = ranUeId
  · subst hid
    rw [if_pos rfl, lanes, hue, Option.map_some, Option.map_some, hlanes]
  · rw [if_neg hid, lanes]

/-- Opening an SRB1 PDU moves no counter of what is sent. -/
theorem lanes_opened {ranUeId : Nat} {ue : UeCtx P} (hue : s.ues.lookup ranUeId = some ue)
    (payload : Bytes) :
    (s.putUe ranUeId { ue with srb1 := (ue.srb1.unprotect F.algorithms payload).2 }).lanes taken =
      s.lanes taken := by
  refine lanes_putUe hue ?_
  simp only [UeCtx.lanes, lane_unprotect]

/-- Confirming AS security moves no counter of what is sent. -/
theorem lanes_confirmed (taken : UInt8 → UInt8) {peer : P} {payload : Bytes} {ranUeId : Nat} {ue : UeCtx P}
    (h : s.confirmed F peer payload = some (ranUeId, ue)) :
    ∃ before, s.ues.lookup ranUeId = some before ∧ ue.lanes taken = before.lanes taken := by
  obtain ⟨before, rrc, -, hbefore, -, -, rfl⟩ := confirmed_eq_some h
  refine ⟨before, hbefore, ?_⟩
  simp only [UeCtx.lanes, lane_unprotect]

/-- An SRB1 PDU that confirms nothing is opened, and at most a NAS message goes up. -/
theorem handleUu_unconfirmed {peer : P} {payload : Bytes} (h : s.confirmed F peer payload = none)
    (hhandle : s.handleUu F peer (.srb SRB1 payload) = some (out, s')) :
    (out = [] ∨ (∃ ranUeId nas, out = [.ngap (.initialUeMessage ranUeId nas)]) ∨
        ∃ amfUeId ranUeId nas, out = [.ngap (.uplinkNasTransport amfUeId ranUeId nas)]) ∧
      (s' = s ∨ ∃ ranUeId ue, s.ues.lookup ranUeId = some ue ∧
        s' = s.putUe ranUeId { ue with srb1 := (ue.srb1.unprotect F.algorithms payload).2 }) := by
  have hsrb : SRB1 ≠ SRB0 := by decide
  simp only [handleUu, if_neg hsrb, if_true] at hhandle
  split at hhandle
  next =>
    cases hhandle
    exact ⟨.inl rfl, .inl rfl⟩
  next ranUeId hran =>
    split at hhandle
    next => cases hhandle
    next ue hue =>
      split at hhandle
      next =>
        cases hhandle
        exact ⟨.inl rfl, .inr ⟨ranUeId, ue, hue, rfl⟩⟩
      next rrc hrrc =>
        split at hhandle
        next =>
          cases hhandle
          exact ⟨.inr (.inl ⟨_, _, rfl⟩), .inr ⟨ranUeId, ue, hue, rfl⟩⟩
        next =>
          split at hhandle
          · cases hhandle
            exact ⟨.inl rfl, .inr ⟨ranUeId, ue, hue, rfl⟩⟩
          · cases hhandle
            exact ⟨.inr (.inr ⟨_, _, _, rfl⟩), .inr ⟨ranUeId, ue, hue, rfl⟩⟩
        next hparse => simp [confirmed, hran, hue, hrrc, hparse] at h
        next =>
          cases hhandle
          exact ⟨.inl rfl, .inr ⟨ranUeId, ue, hue, rfl⟩⟩

/-- The answer to the Initial Context Setup that waits for AS security. -/
def icsResponse (ranUeId : Nat) : Option PendingIcs → List (Output P)
  | some ics => [.ngap (.initialContextSetupResponse ics.amfUeId ranUeId ics.admitted)]
  | none => []

/-- What confirming AS security does: what was held goes out, sealed one after the other. -/
theorem onAsSecurityComplete_putUe (ranUeId : Nat) (ue : UeCtx P) :
    (s.putUe ranUeId ue).onAsSecurityComplete F ranUeId =
      some (({ ue with pendingDlNas := [], pendingIcs := none }.dlNasAll F ue.pendingDlNas).1.map
          (fun payload => .uu ({ ue with pendingDlNas := [], pendingIcs := none }.dlNasAll F
            ue.pendingDlNas).2.peer (.srb SRB1 payload)) ++ icsResponse ranUeId ue.pendingIcs,
        s.putUe ranUeId
          ({ ue with pendingDlNas := [], pendingIcs := none }.dlNasAll F ue.pendingDlNas).2) := by
  have hlookup : (s.putUe ranUeId ue).ues.lookup ranUeId = some ue := AList.lookup_insert _
  have hputUe : ∀ ue', (s.putUe ranUeId ue).putUe ranUeId ue' = s.putUe ranUeId ue' := fun ue' =>
    congrArg (fun ues => { s with ues }) (AList.insert_insert ..)
  rw [onAsSecurityComplete, hlookup, Option.map_some]
  simp only [hputUe]
  cases ue.pendingIcs <;> rfl

omit [DecidableEq P] in
theorem pdus_icsResponse (ranUeId : Nat) (pending : Option PendingIcs) :
    Ran.pdus (icsResponse ranUeId pending : List (Output P)) = [] := by
  cases pending <;> rfl

theorem effect_uu {peer : P} (msg : UlMessage) (h : s.handleUu F peer msg = some (out, s')) :
    Effect F taken s (.uu peer msg) out s' := by
  cases msg with
  | srb srbId payload =>
    by_cases hsrb : srbId = SRB0
    · subst hsrb
      have hne : SRB0 ≠ SRB1 := by decide
      simp only [handleUu, if_true] at h
      cases hparse : F.parseUlCcch payload with
      | none =>
        rw [hparse] at h
        cases h
        refine ⟨by simp [sealings, if_neg hne], ?_⟩
        simp only [sealings, deliveries, Event.newUes, UlMessage.newUes, counterEvents, if_neg hne,
          if_true, hparse]
        exact .stay rfl
      | some msg =>
        rw [hparse] at h
        cases msg with
        | rrcSetupRequest ueIdentity cause =>
          cases h
          refine ⟨by simp [sealings, if_neg hne, Ran.pdus, Output.pdu], ?_⟩
          simp only [sealings, deliveries, Event.newUes, UlMessage.newUes, counterEvents,
            if_neg hne, if_true, hparse]
          exact .enter peer
        | other =>
          cases h
          refine ⟨by simp [sealings, if_neg hne], ?_⟩
          simp only [sealings, deliveries, Event.newUes, UlMessage.newUes, counterEvents,
            if_neg hne, if_true, hparse]
          exact .stay rfl
    · by_cases hsrb1 : srbId = SRB1
      · subst hsrb1
        cases hconfirmed : s.confirmed F peer payload with
        | none =>
          obtain ⟨hout, hstate⟩ := handleUu_unconfirmed hconfirmed h
          have hpdus : Ran.pdus out = [] := by
            obtain rfl | ⟨ranUeId, nas, rfl⟩ | ⟨amfUeId, ranUeId, nas, rfl⟩ := hout
            · rfl
            · rfl
            · rfl
          have hlanes : s'.lanes taken = s.lanes taken := by
            obtain rfl | ⟨ranUeId, ue, hue, rfl⟩ := hstate
            · rfl
            · exact lanes_opened hue payload
          refine ⟨by simp [sealings, hconfirmed, hpdus], ?_⟩
          simp only [sealings, deliveries, Event.newUes, UlMessage.newUes, counterEvents, if_neg hsrb,
            if_true, hconfirmed]
          exact .stay hlanes
        | some found =>
          obtain ⟨ranUeId, ue⟩ := found
          obtain ⟨before, hbefore, hlanes⟩ := lanes_confirmed taken hconfirmed
          rw [handleUu_confirmed hconfirmed] at h
          rw [onAsSecurityComplete_putUe] at h
          cases h
          constructor
          · rw [pdus_append, pdus_map_srb1, pdus_icsResponse, List.append_nil, pdus_held ranUeId]
            simp [sealings, hconfirmed]
          · simp only [sealings, deliveries, Event.newUes, UlMessage.newUes, counterEvents,
              if_neg hsrb, if_true, hconfirmed, Option.toList_some, List.flatMap_singleton]
            rw [← secret_held ranUeId ue.pendingDlNas.length]
            refine .acts (List.replicate ue.pendingDlNas.length .signal) hbefore rfl ?_ ?_ ?_
            · rw [← hlanes]
              exact lanes_held _ ue.pendingDlNas
            · rw [← hlanes]
              exact use_held ranUeId _ ue.pendingDlNas
            · exact ranUeId_held ranUeId _ ue.pendingDlNas
      · rw [handleUu, if_neg hsrb, if_neg hsrb1] at h
        cases h
        refine ⟨by simp [sealings, hsrb1], ?_⟩
        simp only [sealings, deliveries, Event.newUes, UlMessage.newUes, counterEvents, if_neg hsrb,
          if_neg hsrb1]
        exact .stay rfl
  | idle =>
    rw [handleUu] at h
    split at h
    next =>
      cases h
      exact ⟨rfl, .stay rfl⟩
    next =>
      cases h
      exact ⟨rfl, .stay rfl⟩
  | data psi packet =>
    rw [handleUu] at h
    split at h
    next =>
      cases h
      exact ⟨rfl, .stay rfl⟩
    next ranUeId ue x hx =>
      obtain ⟨-, hue, hfind⟩ := uplinkSession_eq_some.mp hx
      have hput : (s.putUe ranUeId { ue with
          sessions := UeCtx.modifyFirst (fun x => x.psi = psi)
            (fun y => { y with drb := (x.drb.unprotect F.algorithms packet).2 }) ue.sessions }).lanes taken =
          s.lanes taken := by
        refine lanes_putUe hue ?_
        simp only [UeCtx.lanes, lanes_received F.algorithms packet hfind]
      dsimp only at h
      split at h
      next =>
        cases h
        exact ⟨rfl, .stay hput⟩
      next =>
        split at h
        next =>
          cases h
          exact ⟨rfl, .stay hput⟩
        next =>
          cases h
          exact ⟨rfl, .stay hput⟩

theorem effect_n3 (msg : N3Message) (h : s.handleN3 F msg = some (out, s')) :
    Effect F taken s (.n3 msg) out s' := by
  cases msg with
  | gPdu teid qfi payload =>
    rw [handleN3] at h
    split at h
    next hteid =>
      cases h
      have hnone : s.downlinkSession teid = none := by
        rw [downlinkSession, hteid]
        rfl
      constructor
      · simp [sealings, hnone]
      · simp only [sealings, deliveries, counterEvents, hnone]
        exact .stay rfl
    next ranUeId psi peer hteid =>
      obtain ⟨⟨ranUeId', ue, x⟩, hx, hmap⟩ := Option.map_eq_some_iff.mp h
      obtain ⟨psi', peer', hteid', hue, hfind⟩ := downlinkSession_eq_some.mp hx
      rw [hteid, Option.some_inj, Prod.mk.injEq, Prod.mk.injEq] at hteid'
      obtain ⟨rfl, rfl, rfl⟩ := hteid'
      cases hmap
      have hpsi : x.psi = psi := by simpa using List.find?_some hfind
      constructor
      · simp only [sealings, hx]
        rfl
      · simp only [sealings, deliveries, counterEvents, hx]
        refine .acts [.data x.psi] hue rfl ?_ ?_ ?_
        · have hlanes := lanes_protect taken F.algorithms
            (sdapEncapDl (qfi.getD x.qfi) false false payload) hfind
          rw [hpsi]
          exact congrArg (Keystream.Ctx.mk (lane taken ue.srb1.inner) (ue.upKeys.map UpKeys.kupEnc)) hlanes
        · have hfound : Keystream.find x.psi (ue.lanes taken).lanes = some (lane taken x.drb.inner) := by
            rw [hpsi]
            exact (find_lanes psi ue.sessions).trans (congrArg _ hfind)
          simp only [Keystream.Ctx.sealsAll, Keystream.Ctx.seals, hfound]
          rfl
        · exact fun y hy => List.mem_singleton.mp hy ▸ rfl
  | echoRequest sequence =>
    cases h
    exact ⟨rfl, .stay rfl⟩
  | endMarker teid =>
    cases h
    exact ⟨rfl, .stay rfl⟩
  | other =>
    cases h
    exact ⟨rfl, .stay rfl⟩

theorem effect_handle (e : Event P) (h : s.handle F cfg e = some (out, s')) :
    Effect F taken s e out s' := by
  cases e with
  | ngap pdu => exact effect_ngap pdu h
  | uu peer msg => exact effect_uu msg h
  | n3 msg => exact effect_n3 msg h

/-- Only opening an SRB1 PDU can fail an `expect`, and then that confirms nothing. -/
theorem handle_eq_none {e : Event P} (h : s.handle F cfg e = none) :
    ∃ peer payload, e = .uu peer (.srb SRB1 payload) ∧ s.confirmed F peer payload = none := by
  cases e with
  | ngap pdu =>
    have hsome : (s.handleNgap F cfg pdu).isSome = true := World.handleNgap_isSome s pdu
    rw [show s.handleNgap F cfg pdu = none from h] at hsome
    cases hsome
  | n3 msg =>
    have hsome := World.handleN3_isSome (F := F) s msg
    rw [show s.handleN3 F msg = none from h] at hsome
    cases hsome
  | uu peer msg =>
    have hnone : s.handleUu F peer msg = none := h
    cases msg with
    | srb srbId payload =>
      by_cases hsrb1 : srbId = SRB1
      · subst hsrb1
        refine ⟨peer, payload, rfl, ?_⟩
        rw [Option.eq_none_iff_forall_not_mem]
        intro found hfound
        rw [handleUu_confirmed hfound, onAsSecurityComplete_putUe] at hnone
        cases hnone
      · rw [handleUu, if_neg hsrb1] at hnone
        split at hnone
        · split at hnone
          · cases hnone
          · cases hnone
        · cases hnone
    | idle =>
      rw [handleUu] at hnone
      split at hnone
      · cases hnone
      · cases hnone
    | data psi packet =>
      rw [handleUu] at hnone
      split at hnone
      · cases hnone
      · dsimp only at hnone
        split at hnone
        · cases hnone
        · split at hnone
          · cases hnone
          · cases hnone

end GnbState

end Radian.Ran
