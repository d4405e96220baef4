import Radian.Amf.Withdrawal

/-!
# Slice isolation

The slices of one UE over two network functions: the NSSF decides which it may use, the AMF takes session
requests by that, and the SMF picks the slice a session runs on.

- `Nssf.select`, `Smf.servingSlice` — the NSSF's decision, and the slice the SMF picks.
- `UeContext.grant`, `UeContext.setUp`, `UeContext.changeSubscribed`, `UeContext.releaseAll` — what the AMF
  makes of it.
- `World`, `Event`, `World.step` — registrations, sessions, changes of the subscription, and mobility.
- `Isolated` — sessions run on allowed slices, and no slice is allowed that the NSSF has refused.
- `Heeds` — the side condition.
- `Kept`, `isolated` — the invariant, and every run that heeds it is isolated.
- `Follows` — what the handlers do to a context, run alone.
-/

open Radian.Nas (Snssai)

namespace Radian.Nssf

/-- The allowed and the rejected slices, in a tracking area that supports `supported`; one that is not
provisioned supports all. -/
def select (supported : Option (List Snssai)) (requested subscribed : List Snssai) :
    List Snssai × List Snssai :=
  let available := fun slice => supported.all fun list => list.contains slice
  if requested.isEmpty then (subscribed.filter available, [])
  else requested.partition fun slice => subscribed.contains slice && available slice

/-- What was asked for: the subscribed slices, when the UE named none. -/
def asked (requested subscribed : List Snssai) : List Snssai :=
  if requested.isEmpty then subscribed else requested

/-- What was asked for and is not allowed. -/
def refused (requested subscribed allowed : List Snssai) : List Snssai :=
  (asked requested subscribed).filter fun slice => !allowed.contains slice

end Radian.Nssf

namespace Radian.Smf

/-- A subscriber's SMF-selection and SM data, as far as slices and DNNs go; the slices as the AMF reads
them. -/
structure SliceSubscription where
  /-- For each subscribed slice its DNNs. -/
  selection : List (Nas.Snssai × List String)
  /-- The slice of each entry, when it has a valid one, and the DNNs it configures. -/
  smData : List (Option Nas.Snssai × List String)

/-- The slice a session runs on: the one requested, or that of the first entry with the DNN. -/
def servingSlice (sub : SliceSubscription) (requested : Option Nas.Snssai) (dnn : String) :
    Option Nas.Snssai :=
  match requested with
  | some slice => do
      let info ← sub.selection.find? fun e => e.1 == slice
      if !info.2.contains dnn then none
      else
        let entry ← sub.smData.find? fun e => e.1 == some slice
        if !entry.2.contains dnn then none else entry.1
  | none => do
      if !sub.selection.any fun e => e.2.contains dnn then none
      else
        let entry ← sub.smData.find? fun e => e.2.contains dnn
        entry.1

/-- A session for which a slice is requested runs on it. -/
theorem servingSlice_requested {sub : SliceSubscription} {requested slice : Nas.Snssai} {dnn : String}
    (h : servingSlice sub (some requested) dnn = some slice) : slice = requested := by
  simp only [servingSlice, Option.bind_eq_bind, Option.bind_eq_some_iff] at h
  obtain ⟨info, _, h⟩ := h
  split at h
  · cases h
  · obtain ⟨entry, hentry, h⟩ := Option.bind_eq_some_iff.mp h
    split at h
    · cases h
    · have hslice : entry.1 = some requested := by simpa using List.find?_some hentry
      exact Option.mem_unique h hslice

end Radian.Smf

namespace Radian.Amf

open Nas (Nas5gmmMessage Tac)
open Security (Bytes)

namespace UeContext

/-- The slices of a registration: the NSSF's decision, or the local one where there is no NSSF. -/
def granted (subscribed : Option (List Snssai)) (decision : Option (List Snssai × List Snssai))
    (c : UeContext) : List Snssai :=
  match subscribed, decision with
  | some _, some decision => decision.1
  | some subscribed, none => (computeNssai c.requestedNssai subscribed).1
  | none, _ => []

/-- The NSSF's decision on a UE whose subscription is known. -/
def decided (subscribed : Option (List Snssai)) (nssf : Option (Option (List Snssai))) (c : UeContext) :
    Option (List Snssai × List Snssai) :=
  subscribed.bind fun subscribed =>
    nssf.map fun supported => Nssf.select supported c.requestedNssai subscribed

/-- The context of a registration that is answered; `none` where it is rejected. -/
def grant (subscribed : Option (List Snssai)) (decision : Option (List Snssai × List Snssai))
    (c : UeContext) : Option UeContext :=
  let allowed := c.granted subscribed decision
  if subscribed.isSome ∧ allowed.isEmpty then if c.sec.isNone then some c else none
  else some { c with allowedNssai := subscribed.map fun _ => allowed }

/-- A session the SMF has created. -/
def setUp (psi : UInt8) (session : String × String) (slice : Snssai) (c : UeContext) : UeContext :=
  { c with
    smRefs := c.smRefs.insert psi session
    sessionSnssai := c.sessionSnssai.insert psi slice }

/-- A session that is to be released. -/
def mark (c : UeContext) (releasing : List UInt8) (psi : UInt8) : List UInt8 :=
  if (c.smRefs.lookup psi).isSome then releasing.insert psi else releasing

/-- The network has sessions released, those of them there are. -/
def releaseAll (psis : List UInt8) (c : UeContext) : UeContext :=
  if c.sec.isNone then c else { c with releasing := psis.foldl c.mark c.releasing }

/-- The subscription has changed: sessions on slices that are lost are released. -/
def changeSubscribed (ueAmbr : Option UeAmbr) (allowedNssai : Option (List Snssai)) (c : UeContext) :
    UeContext :=
  match (c.changeAmbr ueAmbr).1.changeNssai allowedNssai with
  | (c, none) => c
  | (c, some _) => c.releaseAll c.disallowedSessions

/-- The end of a release. -/
def finalize (psi : UInt8) (c : UeContext) : UeContext :=
  if c.releasing.contains psi then
    { c with smRefs := c.smRefs.erase psi, releasing := c.releasing.filter (· != psi) }
  else c

/-- Sessions that are dropped. -/
def dropSessions (psis : List UInt8) (c : UeContext) : UeContext :=
  { c with smRefs := c.smRefs.retainKeys fun psi => !psis.contains psi }

/-- The context `c'`, with the slices and sessions of `c`. -/
def reslicing (c' c : UeContext) : UeContext :=
  { c' with
    smRefs := c.smRefs, sessionSnssai := c.sessionSnssai, releasing := c.releasing
    allowedNssai := c.allowedNssai, requestedNssai := c.requestedNssai }

end UeContext

end Radian.Amf

namespace Radian.Amf.Slicing

open Nas (Nas5gmmMessage Tac)
open Security (Bytes)

/-! ### The system -/

inductive Place where
  | connected
  /-- On its way from one association to another. -/
  | moving
  | retained
  /-- Taken from the retained ones, and with no association yet. -/
  | returning
  deriving DecidableEq

structure Holding where
  ctx : UeContext
  place : Place
  deriving DecidableEq

/-- The contexts of one UE, and what the NSSF's last decision for it refused. -/
structure World where
  holdings : AmfUeId → Option Holding := fun _ => none
  refused : List Snssai := []

inductive Event where
  | register (k : AmfUeId) (ranUeId : RanUeId) (supi : String) (requested : List Snssai) (now : Instant)
  /-- Security Mode Complete: the subscribed slices, as far as they can be had, and what the NSSF has on the
  tracking area, if there is an NSSF. -/
  | securityModeComplete (k : AmfUeId) (subscribed : Option (List Snssai))
      (nssf : Option (Option (List Snssai)))
  /-- The UE requests a PDU session. -/
  | request (k : AmfUeId) (psi : UInt8) (requested : Option Snssai) (dnn : String)
      (sub : Smf.SliceSubscription) (session : String × String)
  /-- The data fetched after a change, now or before. -/
  | sdmDataChange (k : AmfUeId) (ueAmbr : Option UeAmbr) (allowedNssai : Option (List Snssai))
  | networkRelease (k : AmfUeId) (psis : List UInt8)
  /-- The UE completes a release, or its guard goes off. -/
  | finalize (k : AmfUeId) (psi : UInt8)
  /-- Sessions go: the UE has dropped them, the gNB has not set them up, the SMF releases those of an idle UE,
  or the UE is told to deregister. -/
  | dropSessions (k : AmfUeId) (psis : List UInt8)
  /-- AN release. -/
  | release (k : AmfUeId) (now : Instant)
  /-- A message of the idle UE verifies; its context goes under the id `k'`. -/
  | comeBack (k k' : AmfUeId) (ret : Return) (ranUeId : RanUeId) (tac : Option Tac)
  /-- A context comes to an association. -/
  | settle (k : AmfUeId)
  /-- Another association takes the context over. -/
  | take (k : AmfUeId)
  /-- The UE is at another gNB. -/
  | arrive (k : AmfUeId) (ranUeId : RanUeId) (tac : Option Tac) (pair : Bytes × Nat)
  | drop (k : AmfUeId)
  /-- Another handler leaves the context as `c`, but for slices and sessions. -/
  | revise (k : AmfUeId) (c : UeContext)

namespace World

def put (k : AmfUeId) (o : Option Holding) (w : World) : World :=
  { w with holdings := Function.update w.holdings k o }

/-- An event of a context in a place. -/
def within (place : Place) (k : AmfUeId) (f : UeContext → World → World) (w : World) : World :=
  match w.holdings k with
  | none => w
  | some h => if h.place = place then f h.ctx w else w

/-- A connected context changes. -/
def onCtx (k : AmfUeId) (f : UeContext → UeContext) : World → World :=
  within .connected k fun c w => w.put k (some { ctx := f c, place := .connected })

/-- A context changes, wherever it is. -/
def anywhere (k : AmfUeId) (f : UeContext → UeContext) (w : World) : World :=
  match w.holdings k with
  | none => w
  | some h => w.put k (some { h with ctx := f h.ctx })

def register (k : AmfUeId) (c : UeContext) (w : World) : World :=
  match w.holdings k with
  | none => w.put k (some { ctx := c, place := .connected })
  | some _ => w

def securityModeComplete (k : AmfUeId) (subscribed : Option (List Snssai))
    (nssf : Option (Option (List Snssai))) : World → World :=
  within .connected k fun c w =>
    let decision := c.decided subscribed nssf
    let refused := match subscribed, decision with
      | some subscribed, some decision => Nssf.refused c.requestedNssai subscribed decision.1
      | _, _ => w.refused
    { w.put k ((c.grant subscribed decision).map fun ctx => { ctx, place := .connected }) with refused }

def request (k : AmfUeId) (psi : UInt8) (requested : Option Snssai) (dnn : String)
    (sub : Smf.SliceSubscription) (session : String × String) : World → World :=
  onCtx k fun c =>
    if outsideAllowed requested c.allowedNssai then c
    else
      match Smf.servingSlice sub requested dnn with
      | none => c
      | some slice => c.setUp psi session slice

def release (k : AmfUeId) (now : Instant) : World → World :=
  within .connected k fun c w =>
    w.put k (c.gutiTmsi.map fun _ => { ctx := c.idle now, place := .retained })

def comeBack (k k' : AmfUeId) (ret : Return) (ranUeId : RanUeId) (tac : Option Tac) (w : World) : World :=
  match w.holdings k' with
  | some _ => w
  | none => w.within .retained k fun c w =>
      (w.put k none).put k'
        (some { ctx := (c.comeBack ranUeId tac).reallocated ret k', place := .returning })

def take (k : AmfUeId) : World → World :=
  within .connected k fun c w => w.put k (some { ctx := c, place := .moving })

def settle (k : AmfUeId) (w : World) : World :=
  match w.holdings k with
  | none => w
  | some h =>
      match h.place with
      | .moving | .returning => w.put k (some { h with place := .connected })
      | _ => w

def step (w : World) : Event → World
  | .register k ranUeId supi requested now =>
      w.register k { UeContext.new ranUeId .Identified (some supi) now with requestedNssai := requested }
  | .securityModeComplete k subscribed nssf => w.securityModeComplete k subscribed nssf
  | .request k psi requested dnn sub session => w.request k psi requested dnn sub session
  | .sdmDataChange k ueAmbr allowedNssai => w.onCtx k (UeContext.changeSubscribed ueAmbr allowedNssai)
  | .networkRelease k psis => w.onCtx k (UeContext.releaseAll psis)
  | .finalize k psi => w.onCtx k (UeContext.finalize psi)
  | .dropSessions k psis => w.anywhere k (UeContext.dropSessions psis)
  | .release k now => w.release k now
  | .comeBack k k' ret ranUeId tac => w.comeBack k k' ret ranUeId tac
  | .settle k => w.settle k
  | .take k => w.take k
  | .arrive k ranUeId tac pair => w.onCtx k (UeContext.arrive ranUeId tac pair)
  | .drop k => w.put k none
  | .revise k c' => w.anywhere k c'.reslicing

/-- The UE has not registered, and the NSSF has not been asked. -/
structure Started (w : World) : Prop where
  holdings : ∀ k, w.holdings k = none
  refused : w.refused = []

end World

/-! ### Isolation -/

/-- Every session that is not being released runs on one of the slices. -/
def OnSlices (allowed : List Snssai) (c : UeContext) : Prop :=
  ∀ psi, (c.smRefs.lookup psi).isSome → psi ∉ c.releasing →
    ∃ slice ∈ c.sessionSnssai.lookup psi, slice ∈ allowed

structure Isolated (w : World) : Prop where
  /-- Once the allowed slices are known, the sessions run on them. -/
  sessions : ∀ k h, w.holdings k = some h → ∀ allowed, h.ctx.allowedNssai = some allowed →
    allowed ≠ [] → OnSlices allowed h.ctx
  unrefused : ∀ k h, w.holdings k = some h → ∀ allowed, h.ctx.allowedNssai = some allowed →
    ∀ slice ∈ allowed, slice ∉ w.refused

/-- A UE that completes a registration has no session but on slices that it is granted; without an NSSF it is
granted none that the NSSF has refused, and with one no other context of it is allowed what is refused now
(nor this one, where a UE without NAS security is left as it is).
Where it names no slice, the SMF picks an allowed one.  What a change of the subscription allows, the NSSF
has not refused, and the UE has NAS security or has no session on a slice that is lost. -/
def Heeds (w : World) : Event → Prop
  | .securityModeComplete k subscribed nssf => ∀ h, w.holdings k = some h → h.place = .connected →
      OnSlices (h.ctx.granted subscribed (h.ctx.decided subscribed nssf)) h.ctx ∧
        match subscribed, h.ctx.decided subscribed nssf with
        | some subscribed, some decision => ∀ k' h', w.holdings k' = some h' →
            (k' = k → h.ctx.sec.isNone ∧ decision.1 = []) →
              ∀ allowed, h'.ctx.allowedNssai = some allowed →
                ∀ slice ∈ allowed, slice ∉ Nssf.refused h.ctx.requestedNssai subscribed decision.1
        | _, _ => ∀ slice ∈ h.ctx.granted subscribed none, slice ∉ w.refused
  | .request k psi none dnn sub _ => ∀ h, w.holdings k = some h → h.place = .connected →
      ∀ slice, Smf.servingSlice sub none dnn = some slice → psi ∉ h.ctx.releasing →
        ∀ allowed, h.ctx.allowedNssai = some allowed → allowed ≠ [] → slice ∈ allowed
  | .sdmDataChange k _ (some nssai) => ∀ h, w.holdings k = some h → h.place = .connected →
      (∀ slice ∈ nssai, slice ∉ w.refused) ∧
        (h.ctx.sec.isSome ∨ (nssai ≠ [] → OnSlices nssai h.ctx))
  | _ => True

/-! ### Contexts -/

/-- What is to hold of a context. -/
structure Sound (refused : List Snssai) (c : UeContext) : Prop where
  recorded : ∀ psi, (c.smRefs.lookup psi).isSome → (c.sessionSnssai.lookup psi).isSome
  sessions : ∀ allowed, c.allowedNssai = some allowed → allowed ≠ [] → OnSlices allowed c
  unrefused : ∀ allowed, c.allowedNssai = some allowed → ∀ slice ∈ allowed, slice ∉ refused

variable {c c' : UeContext} {refused : List Snssai}

/-- What leaves the slices and the sessions alone. -/
theorem Sound.same (h : Sound refused c) (hrefs : c'.smRefs = c.smRefs)
    (hslices : c'.sessionSnssai = c.sessionSnssai) (hreleasing : c'.releasing = c.releasing)
    (hallowed : c'.allowedNssai = c.allowedNssai) : Sound refused c' := by
  obtain ⟨hrecorded, hsessions, hunrefused⟩ := h
  refine ⟨?_, ?_, ?_⟩
  · rwa [hrefs, hslices]
  · intro allowed
    unfold OnSlices
    rw [hrefs, hslices, hreleasing, hallowed]
    exact hsessions allowed
  · rwa [hallowed]

theorem OnSlices.setUp {allowed : List Snssai} (h : OnSlices allowed c) {psi : UInt8}
    {session : String × String} {slice : Snssai} (hslice : psi ∉ c.releasing → slice ∈ allowed) :
    OnSlices allowed (c.setUp psi session slice) := by
  intro p hp hnot
  simp only [UeContext.setUp, Keyed.Map.lookup_insert_eq] at hp ⊢
  split
  · rename_i hpsi
    subst hpsi
    exact ⟨slice, rfl, hslice hnot⟩
  · rename_i hother
    rw [if_neg hother] at hp
    exact h p hp hnot

theorem Sound.setUp (h : Sound refused c) {psi : UInt8} {session : String × String} {slice : Snssai}
    (hslice : psi ∉ c.releasing → ∀ allowed, c.allowedNssai = some allowed → allowed ≠ [] →
      slice ∈ allowed) :
    Sound refused (c.setUp psi session slice) := by
  refine ⟨fun p hp => ?_, fun allowed hallowed hne => ?_, h.unrefused⟩
  · simp only [UeContext.setUp, Keyed.Map.lookup_insert_eq] at hp ⊢
    split
    · rfl
    · rename_i hother
      rw [if_neg hother] at hp
      exact h.recorded p hp
  · exact (h.sessions allowed hallowed hne).setUp fun hnot => hslice hnot allowed hallowed hne

theorem subset_foldl_mark (psis releasing : List UInt8) : releasing ⊆ psis.foldl c.mark releasing := by
  induction psis generalizing releasing with
  | nil => exact List.Subset.refl _
  | cons psi rest ih =>
    refine List.Subset.trans (fun p hp => ?_) (ih _)
    unfold UeContext.mark
    split
    · exact List.mem_insert_of_mem hp
    · exact hp

/-- A session that there is is marked. -/
theorem mem_foldl_mark {psis : List UInt8} {psi : UInt8} (hpsi : psi ∈ psis)
    (hsession : (c.smRefs.lookup psi).isSome) (releasing : List UInt8) :
    psi ∈ psis.foldl c.mark releasing := by
  induction psis generalizing releasing with
  | nil => cases hpsi
  | cons p rest ih =>
    rw [List.foldl_cons]
    rcases List.mem_cons.mp hpsi with rfl | hrest
    · refine subset_foldl_mark rest _ ?_
      rw [UeContext.mark, if_pos hsession]
      exact List.mem_insert_self
    · exact ih hrest _

@[simp] theorem releaseAll_smRefs (psis : List UInt8) : (c.releaseAll psis).smRefs = c.smRefs := by
  unfold UeContext.releaseAll
  split <;> rfl

@[simp] theorem releaseAll_sessionSnssai (psis : List UInt8) :
    (c.releaseAll psis).sessionSnssai = c.sessionSnssai := by
  unfold UeContext.releaseAll
  split <;> rfl

@[simp] theorem releaseAll_allowedNssai (psis : List UInt8) :
    (c.releaseAll psis).allowedNssai = c.allowedNssai := by
  unfold UeContext.releaseAll
  split <;> rfl

theorem OnSlices.releaseAll {allowed : List Snssai} (h : OnSlices allowed c) (psis : List UInt8) :
    OnSlices allowed (c.releaseAll psis) := by
  unfold UeContext.releaseAll
  split
  · exact h
  · exact fun psi hpsi hnot => h psi hpsi fun hin => hnot (subset_foldl_mark psis _ hin)

theorem Sound.releaseAll (h : Sound refused c) (psis : List UInt8) : Sound refused (c.releaseAll psis) where
  recorded := by simpa using h.recorded
  sessions allowed hallowed hne :=
    (h.sessions allowed (by simpa using hallowed) hne).releaseAll psis
  unrefused := by simpa using h.unrefused

/-- Sessions on slices that are lost are marked, if the UE can be told. -/
theorem onSlices_released {allowed : List Snssai} (hallowed : c.allowedNssai = some allowed)
    (hne : allowed ≠ []) (hsec : c.sec.isSome)
    (hrecorded : ∀ psi, (c.smRefs.lookup psi).isSome → (c.sessionSnssai.lookup psi).isSome) :
    OnSlices allowed (c.releaseAll c.disallowedSessions) := by
  have hreleaseAll : c.releaseAll c.disallowedSessions =
      { c with releasing := c.disallowedSessions.foldl c.mark c.releasing } := by
    rw [UeContext.releaseAll, if_neg (by rw [Option.isNone_iff_eq_none]; exact Option.isSome_iff_ne_none.mp hsec)]
  rw [hreleaseAll]
  intro psi hpsi hnot
  obtain ⟨slice, hslice⟩ := Option.isSome_iff_exists.mp (hrecorded psi hpsi)
  refine ⟨slice, hslice, ?_⟩
  by_contra hlost
  refine hnot (mem_foldl_mark ?_ hpsi _)
  obtain ⟨session, hsession⟩ := Option.isSome_iff_exists.mp hpsi
  rw [UeContext.disallowedSessions, hallowed, Option.getD_some, if_neg (by simpa using hne)]
  refine List.mem_filter.mpr ⟨List.mem_map.mpr ⟨⟨psi, session⟩, ?_, rfl⟩, ?_⟩
  · exact AList.mem_lookup_iff.mp hsession
  · rw [hslice]
    simpa using hlost

theorem Sound.changeSubscribed (h : Sound refused c) {ueAmbr : Option UeAmbr}
    {allowedNssai : Option (List Snssai)}
    (hheeds : ∀ nssai, allowedNssai = some nssai → (∀ slice ∈ nssai, slice ∉ refused) ∧
      (c.sec.isSome ∨ (nssai ≠ [] → OnSlices nssai c))) :
    Sound refused (c.changeSubscribed ueAmbr allowedNssai) := by
  obtain ⟨subscribedUeAmbr, ambr, heq⟩ := c.changeAmbr_eq ueAmbr
  have hambr : Sound refused { c with subscribedUeAmbr, ueAmbr := ambr } := h.same rfl rfl rfl rfl
  unfold UeContext.changeSubscribed UeContext.changeNssai
  rw [heq]
  cases allowedNssai with
  | none => exact hambr
  | some nssai =>
    obtain ⟨hunrefused, hslices'⟩ := hheeds nssai rfl
    dsimp only
    by_cases hsame : c.allowedNssai = some nssai
    · rw [if_pos hsame]
      exact hambr
    · rw [if_neg hsame]
      refine ⟨by simpa using hambr.recorded, fun allowed hallowed' hne => ?_, ?_⟩
      · rw [releaseAll_allowedNssai] at hallowed'
        cases hallowed'
        rcases hslices' with hsome | hon
        · exact onSlices_released rfl hne hsome hambr.recorded
        · refine OnSlices.releaseAll (fun psi => ?_) _
          exact hon hne psi
      · intro allowed hallowed'
        rw [releaseAll_allowedNssai] at hallowed'
        cases hallowed'
        exact hunrefused

theorem Sound.finalize (h : Sound refused c) (psi : UInt8) : Sound refused (c.finalize psi) := by
  unfold UeContext.finalize
  split
  · have hother : ∀ p, ((c.smRefs.erase psi).lookup p).isSome → p ≠ psi ∧ (c.smRefs.lookup p).isSome := by
      intro p hp
      obtain ⟨slice, hslice⟩ := Option.isSome_iff_exists.mp hp
      obtain ⟨hne, hp⟩ := Keyed.Map.of_lookup_erase hslice
      exact ⟨hne, Option.isSome_of_mem hp⟩
    refine ⟨fun p hp => h.recorded p (hother p hp).2, fun allowed hallowed hne p hp hnot => ?_, h.unrefused⟩
    obtain ⟨hpsi, hsession⟩ := hother p hp
    refine h.sessions allowed hallowed hne p hsession fun hin => hnot ?_
    exact List.mem_filter.mpr ⟨hin, by simpa using hpsi⟩
  · exact h

theorem Sound.dropSessions (h : Sound refused c) (psis : List UInt8) :
    Sound refused (c.dropSessions psis) := by
  have hleft : ∀ p, ((c.dropSessions psis).smRefs.lookup p).isSome → (c.smRefs.lookup p).isSome := by
    intro p hp
    simp only [UeContext.dropSessions, Keyed.Map.lookup_retainKeys] at hp
    split at hp
    · exact hp
    · cases hp
  exact ⟨fun p hp => h.recorded p (hleft p hp),
    fun allowed hallowed hne p hp hnot => h.sessions allowed hallowed hne p (hleft p hp) hnot, h.unrefused⟩

theorem Sound.grant {refused' : List Snssai} (h : Sound refused c) {subscribed : Option (List Snssai)}
    {decision : Option (List Snssai × List Snssai)} {ctx : UeContext}
    (hctx : c.grant subscribed decision = some ctx)
    (hsessions : OnSlices (c.granted subscribed decision) c)
    (hunrefused : ∀ slice ∈ c.granted subscribed decision, slice ∉ refused')
    (hleft : subscribed.isSome → c.granted subscribed decision = [] → c.sec.isNone →
      ∀ allowed, c.allowedNssai = some allowed → ∀ slice ∈ allowed, slice ∉ refused') :
    Sound refused' ctx := by
  simp only [UeContext.grant] at hctx
  by_cases hempty : subscribed.isSome ∧ (c.granted subscribed decision).isEmpty
  · rw [if_pos hempty] at hctx
    by_cases hsec : c.sec.isNone
    · rw [if_pos hsec] at hctx
      cases hctx
      exact ⟨h.recorded, h.sessions, hleft hempty.1 (by simpa using hempty.2) hsec⟩
    · rw [if_neg hsec] at hctx
      cases hctx
  · rw [if_neg hempty] at hctx
    cases hctx
    refine ⟨h.recorded, fun allowed hallowed _ => ?_, fun allowed hallowed => ?_⟩
    · obtain ⟨_, _, rfl⟩ := Option.map_eq_some_iff.mp hallowed
      exact hsessions
    · obtain ⟨_, _, rfl⟩ := Option.map_eq_some_iff.mp hallowed
      exact hunrefused

/-! ### The invariant -/

namespace World

variable {w : World} {k : AmfUeId} {h : Holding}

structure Kept (w : World) : Prop where
  sound : ∀ k h, w.holdings k = some h → Sound w.refused h.ctx

theorem Started.kept (h : w.Started) : w.Kept where
  sound k x hk := by rw [h.holdings] at hk; cases hk

theorem Kept.apart (h : w.Kept) : Isolated w where
  sessions k x hk := (h.sound k x hk).sessions
  unrefused k x hk := (h.sound k x hk).unrefused

theorem Kept.put (h : w.Kept) (k : AmfUeId) {o : Option Holding}
    (ho : ∀ x, o = some x → Sound w.refused x.ctx) : (w.put k o).Kept := by
  refine ⟨fun k' x hx => ?_⟩
  simp only [World.put, Function.update_apply] at hx
  split at hx
  · exact ho x hx
  · exact h.sound k' x hx

theorem Kept.leave (h : w.Kept) (k : AmfUeId) : (w.put k none).Kept := h.put k fun _ hx => nomatch hx

theorem Kept.place (h : w.Kept) {x : Holding} (hk : w.holdings k = some x) {c : UeContext}
    (hc : Sound w.refused x.ctx → Sound w.refused c) (place : Place) :
    (w.put k (some { ctx := c, place })).Kept := by
  refine h.put k fun y hy => ?_
  cases hy
  exact hc (h.sound k x hk)

theorem Kept.within (h : w.Kept) {place : Place} {k : AmfUeId} {f : UeContext → World → World}
    (hf : ∀ x, w.holdings k = some x → x.place = place → (f x.ctx w).Kept) :
    (w.within place k f).Kept := by
  unfold World.within
  cases hk : w.holdings k with
  | none => exact h
  | some x =>
    dsimp only
    split
    · rename_i hplace
      exact hf x hk hplace
    · exact h

theorem Kept.onCtx (h : w.Kept) {k : AmfUeId} {f : UeContext → UeContext}
    (hf : ∀ x, w.holdings k = some x → x.place = .connected → Sound w.refused x.ctx →
      Sound w.refused (f x.ctx)) : (w.onCtx k f).Kept :=
  h.within fun x hk hplace => h.place hk (hf x hk hplace) _

theorem Kept.anywhere (h : w.Kept) (k : AmfUeId) {f : UeContext → UeContext}
    (hf : ∀ c, Sound w.refused c → Sound w.refused (f c)) : (w.anywhere k f).Kept := by
  unfold World.anywhere
  cases hk : w.holdings k with
  | none => exact h
  | some x => exact h.place hk (hf x.ctx) _

theorem Kept.register (h : w.Kept) (k : AmfUeId) (ranUeId : RanUeId) (supi : String)
    (requested : List Snssai) (now : Instant) : (w.step (.register k ranUeId supi requested now)).Kept := by
  change (w.register k _).Kept
  unfold World.register
  cases w.holdings k with
  | some x => exact h
  | none =>
    refine h.put k fun y hy => ?_
    cases hy
    exact ⟨fun _ hp => (nomatch hp), fun _ hallowed => (nomatch hallowed), fun _ hallowed => (nomatch hallowed)⟩

/-- A registration is answered, and what is refused is known anew. -/
theorem Kept.answer (h : w.Kept) {k : AmfUeId} {x : Holding} (hk : w.holdings k = some x)
    {subscribed : Option (List Snssai)} {decision : Option (List Snssai × List Snssai)}
    {refused : List Snssai} (hsessions : OnSlices (x.ctx.granted subscribed decision) x.ctx)
    (hunrefused : ∀ slice ∈ x.ctx.granted subscribed decision, slice ∉ refused)
    (hothers : ∀ k' y, w.holdings k' = some y →
      (k' = k → x.ctx.sec.isNone ∧ x.ctx.granted subscribed decision = []) →
        ∀ allowed, y.ctx.allowedNssai = some allowed → ∀ slice ∈ allowed, slice ∉ refused) :
    Kept { w.put k ((x.ctx.grant subscribed decision).map fun ctx => { ctx, place := .connected }) with
      refused } := by
  refine ⟨fun k' y hy => ?_⟩
  simp only [World.put, Function.update_apply] at hy
  split at hy
  · obtain ⟨ctx, hctx, rfl⟩ := Option.map_eq_some_iff.mp hy
    exact (h.sound k x hk).grant hctx hsessions hunrefused fun _ hnone hsec =>
      hothers k x hk fun _ => ⟨hsec, hnone⟩
  · rename_i hne
    have hother := h.sound k' y hy
    exact ⟨hother.recorded, hother.sessions, hothers k' y hy fun heq => absurd heq hne⟩

theorem Kept.securityModeComplete (h : w.Kept) {k : AmfUeId} {subscribed : Option (List Snssai)}
    {nssf : Option (Option (List Snssai))} (hheeds : Heeds w (.securityModeComplete k subscribed nssf)) :
    (w.securityModeComplete k subscribed nssf).Kept := by
  refine h.within fun x hk hplace => ?_
  obtain ⟨hsessions, hothers⟩ := hheeds x hk hplace
  dsimp only
  cases subscribed with
  | none => exact h.answer hk hsessions (fun _ hin => nomatch hin) fun k' y hy _ => (h.sound k' y hy).unrefused
  | some subscribed =>
    cases hdecision : x.ctx.decided (some subscribed) nssf with
    | none =>
      rw [hdecision] at hsessions hothers
      exact h.answer hk hsessions hothers fun k' y hy _ => (h.sound k' y hy).unrefused
    | some decision =>
      rw [hdecision] at hsessions hothers
      refine h.answer hk hsessions (fun slice hin hrefused => ?_) hothers
      have hnot := (List.mem_filter.mp hrefused).2
      rw [Bool.not_eq_true', List.contains_eq_mem, decide_eq_false_iff_not] at hnot
      exact hnot hin

theorem Kept.request (h : w.Kept) {k : AmfUeId} {psi : UInt8} {requested : Option Snssai} {dnn : String}
    {sub : Smf.SliceSubscription} {session : String × String}
    (hheeds : Heeds w (.request k psi requested dnn sub session)) :
    (w.request k psi requested dnn sub session).Kept := by
  refine h.onCtx fun x hk hplace hsound => ?_
  split
  · exact hsound
  · rename_i hinside
    split
    · exact hsound
    · rename_i slice hslice
      refine hsound.setUp fun hnot allowed hallowed hne => ?_
      cases requested with
      | none => exact hheeds x hk hplace slice hslice hnot allowed hallowed hne
      | some named =>
        rw [Smf.servingSlice_requested hslice]
        simpa [outsideAllowed, hallowed] using hinside

theorem Kept.release (h : w.Kept) (k : AmfUeId) (now : Instant) : (w.release k now).Kept := by
  refine h.within fun x hk _ => h.put k fun y hy => ?_
  obtain ⟨_, _, rfl⟩ := Option.map_eq_some_iff.mp hy
  exact (h.sound k x hk).same rfl rfl rfl rfl

theorem Kept.comeBack (h : w.Kept) (k k' : AmfUeId) (ret : Return) (ranUeId : RanUeId) (tac : Option Tac) :
    (w.comeBack k k' ret ranUeId tac).Kept := by
  unfold World.comeBack
  cases w.holdings k' with
  | some x => exact h
  | none =>
    refine h.within fun x hk _ => (h.leave k).put k' fun y hy => ?_
    cases hy
    unfold UeContext.reallocated
    split <;> exact (h.sound k x hk).same rfl rfl rfl rfl

theorem Kept.settle (h : w.Kept) (k : AmfUeId) : (w.settle k).Kept := by
  unfold World.settle
  cases hk : w.holdings k with
  | none => exact h
  | some x =>
    dsimp only
    split
    · exact h.place hk id _
    · exact h.place hk id _
    · exact h

theorem Kept.take (h : w.Kept) (k : AmfUeId) : (w.take k).Kept := by
  refine h.within fun x hk _ => ?_
  exact h.place hk id _

/-- One event. -/
theorem Kept.step (h : w.Kept) (e : Event) (hheeds : Heeds w e) : (w.step e).Kept := by
  cases e with
  | register k ranUeId supi requested now => exact h.register k ranUeId supi requested now
  | securityModeComplete k subscribed nssf => exact h.securityModeComplete hheeds
  | request k psi requested dnn sub session => exact h.request hheeds
  | sdmDataChange k ueAmbr allowedNssai =>
    refine h.onCtx fun x hk hplace hsound => hsound.changeSubscribed fun nssai hnssai => ?_
    subst hnssai
    exact hheeds x hk hplace
  | networkRelease k psis => exact h.onCtx fun _ _ _ hsound => hsound.releaseAll psis
  | finalize k psi => exact h.onCtx fun _ _ _ hsound => hsound.finalize psi
  | dropSessions k psis => exact h.anywhere k fun _ hsound => hsound.dropSessions psis
  | release k now => exact h.release k now
  | comeBack k k' ret ranUeId tac => exact h.comeBack k k' ret ranUeId tac
  | settle k => exact h.settle k
  | take k => exact h.take k
  | arrive k ranUeId tac pair => exact h.onCtx fun _ _ _ hsound => hsound.same rfl rfl rfl rfl
  | drop k => exact h.leave k
  | revise k c' => exact h.anywhere k fun _ hsound => hsound.same rfl rfl rfl rfl

end World

/-! ### The handlers -/

section Handlers

/-- What the machine looks at. -/
def slices (c : UeContext) : Keyed.Map UInt8 (String × String) × Keyed.Map UInt8 Snssai × List UInt8 ×
    Option (List Snssai) :=
  (c.smRefs, c.sessionSnssai, c.releasing, c.allowedNssai)

variable {F : Functions} {amfUeId : AmfUeId} {c : UeContext}
variable {X : Type} {O : Outside Association Tables Mark Call Call.Answer X}
variable {allow : Mark → Association → Tables → X → Prop} {l : Association} {t : Tables} {x : X}

/-- Run alone, a handler leaves a context with the slices and sessions of `f c`. -/
def Follows {α : Type} (amfUeId : AmfUeId) (p : AmfM α) (f : UeContext → Option UeContext) : Prop :=
  ∀ {X : Type} (O : Outside Association Tables Mark Call Call.Answer X)
    (allow : Mark → Association → Tables → X → Prop) (l : Association) (t : Tables) (x : X) (c : UeContext),
    l.ues.lookup amfUeId = some c →
      Proc.before O allow p (fun _ l' _ _ => (l'.ues.lookup amfUeId).map slices = (f c).map slices) l t x

theorem follows_setUpSession (psi pti : UInt8) (dnn smfBase : String) (container : Bytes)
    (created : SmContextCreated) :
    Follows amfUeId (setUpSession F amfUeId psi pti dnn smfBase container created)
      fun c => some (c.setUp psi (created.smRef, smfBase) created.snssai) := by
  intro X O allow l t x c hc
  simp only [setUpSession, getUe, modifyUe, Proc.wp_bind, Proc.wp_look, hc, Proc.wp_changeLocal]
  cases c.sec with
  | none => simp [hc, UeContext.setUp]
  | some sec => simp [hc, slices, UeContext.setUp]

theorem follows_finalizeRelease (psi : UInt8) :
    Follows amfUeId (finalizeRelease amfUeId psi) fun c => some (c.finalize psi) := by
  intro X O allow l t x c hc
  simp only [finalizeRelease, getUe, Proc.wp_bind, Proc.wp_look, hc, UeContext.finalize]
  by_cases hreleasing : c.releasing.contains psi
  · rw [if_pos hreleasing, if_pos hreleasing]
    cases c.smRefs.lookup psi with
    | none => simp [hc, slices, modifyUe]
    | some session =>
      simp only [callFor, modifyUe, Proc.wp_bind, Proc.wp_mark, Proc.wp_ask, Proc.sequentially_note,
        Proc.sequentially_call]
      intro _ _ _
      simp [hc, slices]
  · rw [if_neg hreleasing, if_neg hreleasing]
    simp [hc]

/-- The sessions commanded are marked, one after the other. -/
theorem before_commandReleases (cause : UInt8) (psis : List UInt8) {c : UeContext}
    (hc : l.ues.lookup amfUeId = some c) (hsec : c.sec.isSome) :
    Proc.before O allow (commandReleases F amfUeId cause psis)
      (fun _ l' _ _ => (l'.ues.lookup amfUeId).map slices =
        some (slices { c with releasing := psis.foldl c.mark c.releasing })) l t x := by
  induction psis generalizing l t c with
  | nil => simp [commandReleases, hc, slices]
  | cons psi rest ih =>
    obtain ⟨sec, hsec⟩ := Option.isSome_iff_exists.mp hsec
    simp only [commandReleases, getUe, Proc.wp_bind, Proc.wp_look, hc, hsec, List.foldl_cons]
    cases hsession : c.smRefs.lookup psi with
    | none =>
      have hmark : c.mark c.releasing psi = c.releasing := by simp [UeContext.mark, hsession]
      rw [hmark]
      exact ih hc (by rw [hsec]; rfl)
    | some session =>
      have hmark : c.mark c.releasing psi = c.releasing.insert psi := by simp [UeContext.mark, hsession]
      simp only [modifyUe, arm, Proc.wp_bind, Proc.wp_changeLocal, Proc.wp_look, Proc.wp_change]
      rw [hmark]
      refine Proc.before_mono (fun _ _ _ _ hmarked => hmarked)
        (ih (c := { c with
          sec := some (sec.protectDl F.algorithms F.nas Nas.Sht.INTEGRITY_CIPHERED
            (.dlNasTransport psi (Nas.pduSessionReleaseCommand psi 0 cause))).2
          releasing := c.releasing.insert psi }) (by rw [ues_modify, hc]; rfl) rfl)

theorem before_onNetworkRelease (cause : UInt8) (psis : List UInt8) {c : UeContext}
    (hc : l.ues.lookup amfUeId = some c) :
    Proc.before O allow (onNetworkRelease F amfUeId psis cause)
      (fun _ l' _ _ => (l'.ues.lookup amfUeId).map slices = some (slices (c.releaseAll psis))) l t x := by
  simp only [onNetworkRelease, getUe, Proc.wp_bind, Proc.wp_look, hc, UeContext.releaseAll]
  by_cases hsec : c.sec.isNone
  · rw [if_pos hsec, if_pos hsec]
    simp [hc]
  · rw [if_neg hsec, if_neg hsec]
    exact before_commandReleases cause psis hc (by simpa [Option.isSome_iff_ne_none] using hsec)

theorem follows_onNetworkRelease (cause : UInt8) (psis : List UInt8) :
    Follows amfUeId (onNetworkRelease F amfUeId psis cause) fun c => some (c.releaseAll psis) :=
  fun _ _ _ _ _ _ hc => before_onNetworkRelease cause psis hc

theorem slices_releaseAll {c c' : UeContext} (h : slices c' = slices c) (hsec : c'.sec.isNone = c.sec.isNone)
    (psis : List UInt8) : slices (c'.releaseAll psis) = slices (c.releaseAll psis) := by
  simp only [slices, Prod.mk.injEq] at h
  obtain ⟨hrefs, hslices, hreleasing, hallowed⟩ := h
  have hmark : c'.mark = c.mark := by
    funext releasing psi
    rw [UeContext.mark, UeContext.mark, hrefs]
  rw [UeContext.releaseAll, UeContext.releaseAll, hsec]
  split
  · simp [slices, hrefs, hslices, hreleasing, hallowed]
  · simp [slices, hrefs, hslices, hreleasing, hallowed, hmark]

/-- A command that is tracked leaves slices and sessions alone. -/
theorem before_pushTrackedConfigUpdate (cuc : Nas5gmmMessage) (areaRestriction : Option AreaRestriction)
    {c : UeContext} (hc : l.ues.lookup amfUeId = some c) :
    Proc.before O allow (pushTrackedConfigUpdate F amfUeId cuc areaRestriction)
      (fun _ l' _ _ => ∃ c', l'.ues.lookup amfUeId = some c' ∧ slices c' = slices c ∧
        c'.sec.isNone = c.sec.isNone) l t x := by
  simp only [pushTrackedConfigUpdate, getUe, Proc.wp_bind, Proc.wp_look, hc]
  cases hsec : c.sec with
  | none => exact ⟨c, hc, rfl, by rw [hsec]⟩
  | some sec =>
    simp only [modifyUe, arm, Proc.wp_bind, Proc.wp_changeLocal, Proc.wp_look, Proc.wp_change, Proc.wp_pure]
    exact ⟨_, (ues_modify _ l).trans (congrArg (Option.map _) hc), rfl, rfl⟩

theorem before_nudge (c : UeContext) {before : UeContext}
    (hc : (l.ues.lookup amfUeId).map slices = some (slices before)) :
    Proc.before O allow (nudge F amfUeId c)
      (fun _ l' _ _ => (l'.ues.lookup amfUeId).map slices = some (slices before)) l t x := by
  unfold nudge
  cases c.sec with
  | none => exact hc
  | some sec =>
    simp only [modifyUe, Proc.wp_bind, Proc.wp_changeLocal, Proc.wp_pure]
    rw [ues_modify, ← hc]
    cases l.ues.lookup amfUeId <;> rfl

theorem follows_onSdmDataChange (ueAmbr : Option UeAmbr) (allowedNssai : Option (List Snssai)) :
    Follows amfUeId (onSdmDataChange F amfUeId ueAmbr allowedNssai)
      fun c => some (c.changeSubscribed ueAmbr allowedNssai) := by
  intro X O allow l t x c hc
  simp only [onSdmDataChange, getUe, Proc.wp_bind, Proc.wp_look, hc, UeContext.changeSubscribed]
  generalize (c.changeAmbr ueAmbr).1.changeNssai allowedNssai = changed
  obtain ⟨c', nssaiChanged⟩ := changed
  have hinsert : (l.insert amfUeId c').ues.lookup amfUeId = some c' := ues_insert c' l
  simp only [insertUe, Proc.wp_changeLocal]
  cases nssaiChanged with
  | none =>
    have hkept : ((l.insert amfUeId c').ues.lookup amfUeId).map slices = some (slices c') := by
      rw [hinsert]
      rfl
    dsimp only
    split
    · exact hkept
    · rw [Proc.wp_bind]
      exact before_nudge c' hkept
  | some narrowed =>
    rw [if_neg (by simp), Proc.wp_bind]
    refine Proc.before_mono (fun _ l₁ t₁ x₁ hpushed => ?_) (before_pushTrackedConfigUpdate _ _ hinsert)
    obtain ⟨c₁, hc₁, hsame, hsec⟩ := hpushed
    rw [Proc.wp_bind, Option.map_some, ← slices_releaseAll hsame hsec]
    exact before_onNetworkRelease _ _ hc₁

theorem withPolicy_same (ueAmbr : Option UeAmbr) (am : Option (String × String × PolicyAssociation))
    (c : UeContext) : slices (c.withPolicy ueAmbr am) = slices c ∧
      (c.withPolicy ueAmbr am).requestedNssai = c.requestedNssai ∧ (c.withPolicy ueAmbr am).sec = c.sec := by
  cases am <;> exact ⟨rfl, rfl, rfl⟩

theorem before_acceptRegistration {c : UeContext} (sec : Nas.NasSecurityContext) (tmsi : Tmsi)
    (allowed rejected : List Snssai) :
    Proc.before O allow (acceptRegistration F amfUeId c sec tmsi allowed rejected)
      (fun _ l' _ _ => (l'.ues.lookup amfUeId).map slices = some (slices c)) l t x := by
  unfold acceptRegistration
  cases c.suci <;> cases c.kamf <;> simp [insertUe, arm, slices]

theorem before_rejectRegistration {c : UeContext} (sec : Nas.NasSecurityContext) (rejected : List Snssai) :
    Proc.before O allow (rejectRegistration F amfUeId c sec rejected)
      (fun _ l' _ _ => l'.ues.lookup amfUeId = none) l t x := by
  unfold rejectRegistration
  cases c.suci <;> simp [removeUe]

/-- The answer, once the slices are known. -/
theorem before_answer (policed : UeContext) {c : UeContext} (hsame : slices policed = slices c)
    (hsec : policed.sec = c.sec)
    (tmsi : Tmsi) (subscribed : Option (List Snssai)) (allowed rejected : List Snssai) :
    Proc.before O allow
      (if subscribed.isSome ∧ allowed.isEmpty then
        match policed.sec with
        | none => do
            insertUe amfUeId policed
            return []
        | some sec => rejectRegistration F amfUeId policed sec rejected
      else
        match policed.sec with
        | none => do
            insertUe amfUeId { policed with allowedNssai := subscribed.map fun _ => allowed }
            return []
        | some sec =>
          acceptRegistration F amfUeId { policed with allowedNssai := subscribed.map fun _ => allowed } sec tmsi
            allowed rejected)
      (fun _ l' _ _ => (l'.ues.lookup amfUeId).map slices =
        (if subscribed.isSome ∧ allowed.isEmpty then if c.sec.isNone then some c else none
          else some { c with allowedNssai := subscribed.map fun _ => allowed }).map slices) l t x := by
  have hgranted : slices { policed with allowedNssai := subscribed.map fun _ => allowed } =
      slices { c with allowedNssai := subscribed.map fun _ => allowed } := by
    simp only [slices, Prod.mk.injEq] at hsame ⊢
    exact ⟨hsame.1, hsame.2.1, hsame.2.2.1, trivial⟩
  by_cases hempty : subscribed.isSome ∧ allowed.isEmpty
  · simp only [if_pos hempty, hsec]
    cases c.sec with
    | none => simp [insertUe, hsame]
    | some sec =>
      refine Proc.before_mono (fun _ l' _ _ hgone => ?_) (before_rejectRegistration sec rejected)
      rw [hgone]
      rfl
  · simp only [if_neg hempty, hsec]
    cases c.sec with
    | none =>
      simp only [insertUe, Proc.wp_bind, Proc.wp_changeLocal, Proc.wp_pure, ues_insert, Option.map_some]
      exact congrArg some hgranted
    | some sec =>
      refine Proc.before_mono (fun _ l' _ _ hkept => ?_) (before_acceptRegistration sec tmsi allowed rejected)
      exact hkept.trans (congrArg some hgranted)

theorem follows_answerSecurityMode (subscribed : Option (List Snssai)) (ueAmbr : Option UeAmbr)
    (am : Option (String × String × PolicyAssociation)) (decision : Option (List Snssai × List Snssai)) :
    Follows amfUeId (answerSecurityMode F amfUeId subscribed ueAmbr am decision)
      (UeContext.grant subscribed decision) := by
  intro X O allow l t x c hc
  obtain ⟨hsame, hrequested, hsec⟩ := withPolicy_same ueAmbr am c
  let policed : UeContext := { c.withPolicy ueAmbr am with gutiTmsi := some (amfUeId.setWidth 32) }
  simp only [answerSecurityMode, getUe, Proc.wp_bind, Proc.wp_look, hc, UeContext.grant]
  cases subscribed with
  | none => exact before_answer policed hsame hsec _ none [] []
  | some subscribed =>
    cases decision with
    | none =>
      have hgranted : c.granted (some subscribed) none =
          (computeNssai policed.requestedNssai subscribed).1 :=
        congrArg (fun requested => (computeNssai requested subscribed).1) hrequested.symm
      rw [hgranted]
      exact before_answer policed hsame hsec _ (some subscribed) _ _
    | some decision => exact before_answer policed hsame hsec _ (some subscribed) _ _

end Handlers

/-! ### Runs -/

/-- **Slices are isolated.** In every run whose events heed the side condition, the sessions of every context
run on slices that it is allowed, and none is allowed that the NSSF's last decision refused. -/
theorem isolated {w : World} (h : w.Started) (es : List Event)
    (hheeds : Runs.Along World.step Heeds w es) : Isolated (Runs.run World.step w es) :=
  (Runs.invariant_along (fun _ e hheeds hkept => World.Kept.step hkept e hheeds) hheeds h.kept).apart

/-! ### Runs that are isolated and runs that are not -/

def firstSlice : Snssai := (1, none)
def secondSlice : Snssai := (2, none)

/-- A subscriber of both slices, whose default is the second. -/
def bothSlices : Smf.SliceSubscription :=
  { selection := [(firstSlice, [DEFAULT_DNN]), (secondSlice, [DEFAULT_DNN])]
    smData := [(some secondSlice, [DEFAULT_DNN]), (some firstSlice, [DEFAULT_DNN])] }

/-- The NSSF grants the first slice and refuses the second. -/
def registered : List Event :=
  [.register 1 1 "imsi-999700000000001" [firstSlice, secondSlice] 0,
    .securityModeComplete 1 (some [firstSlice, secondSlice]) (some (some [firstSlice]))]

/-- A session on the slice that is named, and a change of the subscription that the NSSF has no part in. -/
def namesSlice : List Event :=
  registered ++ [.request 1 5 (some firstSlice) DEFAULT_DNN bothSlices ("ctx-5", "smf"),
    .sdmDataChange 1 none (some [firstSlice]), .release 1 1]

theorem started_empty : ({} : World).Started where
  holdings _ := rfl
  refused := rfl

theorem isolated_sample : Isolated (Runs.run World.step {} namesSlice) := by
  let ctx : UeContext := { UeContext.new 1 .Identified (some "imsi-999700000000001") 0 with
    requestedNssai := [firstSlice, secondSlice] }
  let granted : UeContext := { ctx with allowedNssai := some [firstSlice] }
  have hnone : OnSlices [firstSlice] granted := fun _ hp => nomatch hp
  refine isolated started_empty namesSlice ⟨trivial, ?_, trivial, ?_, trivial, trivial⟩
  · intro x hx _
    have hx : x = { ctx, place := .connected } := (Option.some_inj.mp hx).symm
    subst hx
    refine ⟨hnone, fun k' y hy hsame => ?_⟩
    by_cases hk : k' = 1
    · exact absurd (hsame hk).2 (by decide)
    · cases (Function.update_of_ne hk ..).symm.trans hy
  · intro x hx _
    have hx : x = { ctx := granted.setUp 5 ("ctx-5", "smf") firstSlice, place := .connected } :=
      (Option.some_inj.mp hx).symm
    subst hx
    exact ⟨List.forall_mem_singleton.mpr (by decide +kernel),
      .inr fun _ => hnone.setUp fun _ => List.mem_singleton_self _⟩

/-- A session for which no slice is named. -/
def namesNone : List Event :=
  registered ++ [.request 1 5 none DEFAULT_DNN bothSlices ("ctx-5", "smf")]

/-- **A session on a slice that is not allowed.** The UE names no slice, and the SMF picks one that the NSSF
has refused. -/
theorem not_isolated : ¬ ∀ es : List Event, Isolated (Runs.run World.step {} es) := by
  intro h
  let w := Runs.run World.step {} namesNone
  have hfound : (w.holdings 1).map (fun x => (x.ctx.allowedNssai, x.ctx.releasing)) =
      some (some [firstSlice], []) := by decide +kernel
  have hsession : (w.holdings 1).map (fun x => (x.ctx.smRefs.lookup 5).isSome) = some true := by
    decide +kernel
  have hslice : (w.holdings 1).map (fun x => x.ctx.sessionSnssai.lookup 5) = some (some secondSlice) := by
    decide +kernel
  obtain ⟨x, hx, hallowed⟩ := Option.map_eq_some_iff.mp hfound
  rw [hx] at hsession hslice
  obtain ⟨hallowed, hreleasing⟩ := Prod.mk.inj hallowed
  obtain ⟨slice, hin, hmem⟩ := (h namesNone).sessions 1 x hx _ hallowed (by decide) 5
    (Option.some_inj.mp hsession) (by rw [hreleasing]; decide)
  have hsecond : slice = secondSlice := Option.some_inj.mp (hin.symm.trans (Option.some_inj.mp hslice))
  rw [hsecond] at hmem
  exact absurd hmem (by decide)

end Radian.Amf.Slicing
