import Radian.Smf.Calls
import Radian.Runs.Basic

/-!
# Converged charging

The CHF's charging data records, and what a run of requests leaves on them.

- `absorb`, `totalVolume` — usage added to a record, and what it amounts to.
- `create`, `update`, `release` — the handlers of Nchf_ConvergedCharging; `World.step` with the usage
  that requests answered with success brought.
- `Books` — every record holds what its requests brought, modulo the counters' width.
- `consistent_iff` — the records stay consistent exactly as long as no release brings usage to a
  released record and no reference comes round again to one.
-/

namespace Radian.Chf

open Keyed (Map)
open Smf (UsedUnitContainer ChargingDataRequest)

/-! ### Usage -/

/-- What a used-unit container counts. -/
inductive Measure where
  | uplinkVolume | downlinkVolume | totalVolume | uplinkPackets | downlinkPackets | totalPackets
  deriving DecidableEq, Repr

def Measure.all : List Measure :=
  [.uplinkVolume, .downlinkVolume, .totalVolume, .uplinkPackets, .downlinkPackets, .totalPackets]

theorem Measure.mem_all (m : Measure) : m ∈ Measure.all := by
  cases m <;> decide

def read (m : Measure) (c : UsedUnitContainer) : Nat :=
  match m with
  | .uplinkVolume => c.uplinkVolume
  | .downlinkVolume => c.downlinkVolume
  | .totalVolume => c.totalVolume
  | .uplinkPackets => c.uplinkPackets
  | .downlinkPackets => c.downlinkPackets
  | .totalPackets => c.totalPackets

/-- The container of a rating group with the given counts. -/
def container (g : UInt32) (count : Measure → Nat) : UsedUnitContainer :=
  { ratingGroup := g
    uplinkVolume := count .uplinkVolume
    downlinkVolume := count .downlinkVolume
    totalVolume := count .totalVolume
    uplinkPackets := count .uplinkPackets
    downlinkPackets := count .downlinkPackets
    totalPackets := count .totalPackets }

@[simp] theorem read_container (g : UInt32) (count : Measure → Nat) (m : Measure) :
    read m (container g count) = count m := by
  cases m <;> rfl

theorem container_inj {g : UInt32} {f f' : Measure → Nat} :
    container g f = container g f' ↔ ∀ m, f m = f' m := by
  constructor
  · intro h m
    rw [← read_container g f m, h, read_container]
  · intro h
    rw [funext h]

/-- The sum of two `u64`. -/
def plus (a b : Nat) : Nat := (a + b) % 2 ^ 64

/-- Add the counts of `c` to those of an entry. -/
def add (e c : UsedUnitContainer) : UsedUnitContainer :=
  { e with
    uplinkVolume := plus e.uplinkVolume c.uplinkVolume
    downlinkVolume := plus e.downlinkVolume c.downlinkVolume
    totalVolume := plus e.totalVolume c.totalVolume
    uplinkPackets := plus e.uplinkPackets c.uplinkPackets
    downlinkPackets := plus e.downlinkPackets c.downlinkPackets
    totalPackets := plus e.totalPackets c.totalPackets }

theorem add_eq (e c : UsedUnitContainer) :
    add e c = container e.ratingGroup fun m => (read m e + read m c) % 2 ^ 64 := rfl

/-- One round of `absorb`. -/
def absorbOne (usage : Map UInt32 UsedUnitContainer) (c : UsedUnitContainer) :
    Map UInt32 UsedUnitContainer :=
  usage.insert c.ratingGroup
    (add ((usage.lookup c.ratingGroup).getD (container c.ratingGroup fun _ => 0)) c)

/-! ### The service -/

structure FinalUnitIndication where
  finalUnitAction : String
  deriving DecidableEq, Repr

structure ChargingDataResponse where
  invocationResult : String
  finalUnitIndication : Option FinalUnitIndication
  deriving DecidableEq, Repr

def ChargingDataResponse.success : ChargingDataResponse :=
  { invocationResult := "SUCCESS", finalUnitIndication := none }

def ChargingDataResponse.quotaExhausted : ChargingDataResponse :=
  { invocationResult := "SUCCESS", finalUnitIndication := some { finalUnitAction := "TERMINATE" } }

/-- A charging data record: the usage of one PDU session per rating group. -/
structure Cdr where
  subscriberIdentifier : String
  pduSessionChargingInformation : Option (UInt8 × String)
  usage : Map UInt32 UsedUnitContainer := ∅
  released : Bool := false

namespace Cdr

def totalVolume (cdr : Cdr) : Nat :=
  (cdr.usage.total fun u => u.totalVolume) % 2 ^ 64

def absorb (containers : List UsedUnitContainer) (cdr : Cdr) : Cdr :=
  { cdr with usage := containers.foldl absorbOne cdr.usage }

@[simp] theorem released_absorb (cs : List UsedUnitContainer) (cdr : Cdr) :
    (cdr.absorb cs).released = cdr.released := rfl

/-- The same record: the usage is a map, so the order of its entries does not count. -/
structure Same (cdr cdr' : Cdr) : Prop where
  subscriber : cdr.subscriberIdentifier = cdr'.subscriberIdentifier
  session : cdr.pduSessionChargingInformation = cdr'.pduSessionChargingInformation
  usage : ∀ g, cdr.usage.lookup g = cdr'.usage.lookup g
  released : cdr.released = cdr'.released

theorem Same.refl (cdr : Cdr) : cdr.Same cdr := ⟨rfl, rfl, fun _ => rfl, rfl⟩

end Cdr

structure ChfState where
  cdrs : Map String Cdr := ∅
  next : BitVec 64 := 0
  /-- The volume in bytes granted to each session, if it is limited. -/
  quotaBytes : Option Nat := none

inductive Request where
  | create (req : ChargingDataRequest)
  | update (chargingRef : String) (req : ChargingDataRequest)
  | release (chargingRef : String) (req : ChargingDataRequest)

inductive Answer where
  | created (location : String) (response : ChargingDataResponse)
  | ok (response : ChargingDataResponse)
  | noContent
  | notFound
  | conflict
  deriving DecidableEq, Repr

namespace ChfState

/-- The reference of the next record. -/
def nextRef (chf : ChfState) : String := toString chf.next.toNat

def create (chf : ChfState) (req : ChargingDataRequest) : Answer × ChfState :=
  let id := chf.nextRef
  let cdr : Cdr :=
    { subscriberIdentifier := req.subscriberIdentifier
      pduSessionChargingInformation := req.pduSessionChargingInformation }
  (.created ("/nchf-convergedcharging/v3/chargingdata/" ++ id) .success,
    { chf with
      cdrs := chf.cdrs.insert id (cdr.absorb req.usedUnitContainers), next := chf.next + 1 })

def update (chf : ChfState) (chargingRef : String) (req : ChargingDataRequest) : Answer × ChfState :=
  match chf.cdrs.lookup chargingRef with
  | none => (.notFound, chf)
  | some cdr =>
      if cdr.released then (.conflict, chf)
      else
        let cdr := cdr.absorb req.usedUnitContainers
        let exhausted := chf.quotaBytes.any fun q => q ≤ cdr.totalVolume
        (.ok (if exhausted then .quotaExhausted else .success),
          { chf with cdrs := chf.cdrs.insert chargingRef cdr })

def release (chf : ChfState) (chargingRef : String) (req : ChargingDataRequest) :
    Answer × ChfState :=
  match chf.cdrs.lookup chargingRef with
  | none => (.notFound, chf)
  | some cdr =>
      (.noContent,
        { chf with
          cdrs := chf.cdrs.insert chargingRef
            { cdr.absorb req.usedUnitContainers with released := true } })

def handle (chf : ChfState) : Request → Answer × ChfState
  | .create req => chf.create req
  | .update chargingRef req => chf.update chargingRef req
  | .release chargingRef req => chf.release chargingRef req

end ChfState

/-! ### What requests brought -/

/-- How much of a measure some containers hold together. -/
def amount (m : Measure) (cs : List UsedUnitContainer) : Nat := (cs.map (read m)).sum

/-- The containers of a rating group. -/
def brought (g : UInt32) (cs : List UsedUnitContainer) : List UsedUnitContainer :=
  cs.filter fun c => c.ratingGroup = g

/-- The component-wise sum of a rating group's containers. -/
def summed (g : UInt32) (cs : List UsedUnitContainer) : Option UsedUnitContainer :=
  if brought g cs = [] then none else some (container g fun m => amount m (brought g cs))

variable {cs : List UsedUnitContainer}

theorem isSome_summed {g : UInt32} :
    (summed g cs).isSome = true ↔ brought g cs ≠ [] := by
  rw [summed]
  split
  next hnone => simp [hnone]
  next hsome => simp [hsome]

@[simp] theorem amount_nil (m : Measure) : amount m [] = 0 := rfl

@[simp] theorem amount_append (m : Measure) (cs cs' : List UsedUnitContainer) :
    amount m (cs ++ cs') = amount m cs + amount m cs' := by
  simp [amount]

@[simp] theorem amount_singleton (m : Measure) (c : UsedUnitContainer) : amount m [c] = read m c := by
  simp [amount]

@[simp] theorem brought_append (g : UInt32) (cs cs' : List UsedUnitContainer) :
    brought g (cs ++ cs') = brought g cs ++ brought g cs' := List.filter_append ..

theorem mem_brought {g : UInt32} {c : UsedUnitContainer} :
    c ∈ brought g cs ↔ c ∈ cs ∧ c.ratingGroup = g := by
  simp [brought]

theorem brought_own (c : UsedUnitContainer) : brought c.ratingGroup [c] = [c] := by
  simp [brought]

theorem brought_other {g : UInt32} {c : UsedUnitContainer} (h : ¬ g = c.ratingGroup) :
    brought g [c] = [] := by
  simp [brought, Ne.symm h]

theorem amount_eq_zero {m : Measure} :
    amount m cs = 0 ↔ ∀ c ∈ cs, read m c = 0 := by
  simp [amount, List.sum_eq_zero_iff_forall_eq_nat]

/-- A record's usage is what `cs` brought, modulo the width of the counters. -/
structure Booked (usage : Map UInt32 UsedUnitContainer) (cs : List UsedUnitContainer) : Prop where
  entry : ∀ g, usage.lookup g =
    if brought g cs = [] then none
    else some (container g fun m => amount m (brought g cs) % 2 ^ 64)
  volume : (usage.total fun u => u.totalVolume) % 2 ^ 64 = amount .totalVolume cs % 2 ^ 64

namespace Booked

variable {usage : Map UInt32 UsedUnitContainer} {cs : List UsedUnitContainer}

theorem empty : Booked ∅ [] := ⟨fun _ => rfl, rfl⟩

/-- What an entry, present or not, counts so far. -/
theorem getD (h : Booked usage cs) (g : UInt32) :
    (usage.lookup g).getD (container g fun _ => 0) =
      container g fun m => amount m (brought g cs) % 2 ^ 64 := by
  rw [h.entry]
  split
  next hnone => simp [hnone]
  next => rfl

theorem absorbOne (h : Booked usage cs) (c : UsedUnitContainer) :
    Booked (absorbOne usage c) (cs ++ [c]) := by
  have hnew : add ((usage.lookup c.ratingGroup).getD (container c.ratingGroup fun _ => 0)) c =
      container c.ratingGroup fun m => amount m (brought c.ratingGroup (cs ++ [c])) % 2 ^ 64 := by
    rw [h.getD, add_eq, brought_append, brought_own]
    change container c.ratingGroup _ = _
    simp
  constructor
  · intro g
    rw [Chf.absorbOne, Map.lookup_insert_eq]
    by_cases hg : g = c.ratingGroup
    · subst hg
      rw [if_pos rfl, hnew, if_neg (by simp [brought_own])]
    · rw [if_neg hg, h.entry, brought_append, brought_other hg, List.append_nil]
  · have hold : (usage.total fun u => u.totalVolume) =
        (Map.total (fun u => u.totalVolume) (usage.erase c.ratingGroup)) +
          ((usage.lookup c.ratingGroup).getD (container c.ratingGroup fun _ => 0)).totalVolume := by
      cases hg : usage.lookup c.ratingGroup with
      | none =>
        rw [Map.erase_eq_self hg]
        rfl
      | some e => exact Map.total_erase _ hg
    have hvolume := h.volume
    rw [hold] at hvolume
    rw [Chf.absorbOne, Map.total_insert, amount_append, amount_singleton]
    simp only [add, plus, read]
    omega

theorem absorb (h : Booked usage cs) (containers : List UsedUnitContainer) :
    Booked (containers.foldl Chf.absorbOne usage) (cs ++ containers) := by
  induction containers generalizing usage cs with
  | nil => simpa using h
  | cons c containers ih => simpa using ih (h.absorbOne c)

end Booked

/-- No sum over the containers overflows. -/
def Fit (cs : List UsedUnitContainer) : Prop :=
  (∀ c ∈ cs, ∀ m ∈ Measure.all, amount m (brought c.ratingGroup cs) < 2 ^ 64) ∧
    amount .totalVolume cs < 2 ^ 64

instance (cs : List UsedUnitContainer) : Decidable (Fit cs) := by
  unfold Fit
  infer_instance

theorem fit_nil : Fit [] := by decide

theorem Fit.amount_lt (h : Fit cs) (g : UInt32) (m : Measure) :
    amount m (brought g cs) < 2 ^ 64 := by
  rcases hg : brought g cs with _ | ⟨c, rest⟩
  · simp
  · obtain ⟨hc, rfl⟩ := mem_brought.mp (hg ▸ List.mem_cons_self : c ∈ brought g cs)
    rw [← hg]
    exact h.1 c hc m m.mem_all

namespace Booked

variable {usage usage' : Map UInt32 UsedUnitContainer} {cs cs' : List UsedUnitContainer}

theorem lookup (h : Booked usage cs) (hfit : Fit cs) (g : UInt32) : usage.lookup g = summed g cs := by
  rw [h.entry, summed]
  split
  · rfl
  · rw [Option.some_inj, container_inj]
    exact fun m => Nat.mod_eq_of_lt (hfit.amount_lt g m)

/-- More containers leave the usage as it is only if they count nothing and their rating groups have
entries. -/
theorem unchanged_iff (h : Booked usage cs) (hfit : Fit cs) (h' : Booked usage' (cs ++ cs'))
    (hfit' : Fit (cs ++ cs')) :
    (∀ g, usage.lookup g = usage'.lookup g) ↔
      ∀ c ∈ cs', (∀ m ∈ Measure.all, read m c = 0) ∧ (usage.lookup c.ratingGroup).isSome = true := by
  simp only [h.lookup hfit, h'.lookup hfit', isSome_summed]
  constructor
  · intro hsame c hc
    have hmem : c ∈ brought c.ratingGroup cs' := mem_brought.mpr ⟨hc, rfl⟩
    have hsame := hsame c.ratingGroup
    have hafter : brought c.ratingGroup (cs ++ cs') ≠ [] := by
      rw [brought_append]
      exact List.append_ne_nil_of_right_ne_nil _ (List.ne_nil_of_mem hmem)
    rw [summed, summed, if_neg hafter] at hsame
    split at hsame
    next => cases hsame
    next hbefore =>
      rw [Option.some_inj, container_inj] at hsame
      refine ⟨fun m _ => ?_, hbefore⟩
      have hcount := hsame m
      rw [brought_append, amount_append, Nat.left_eq_add] at hcount
      exact amount_eq_zero.mp hcount c hmem
  · intro hidle g
    have hzero : ∀ m, amount m (brought g cs') = 0 := fun m =>
      amount_eq_zero.mpr fun c hc => (hidle c (mem_brought.mp hc).1).1 m m.mem_all
    have hempty : brought g (cs ++ cs') = [] ↔ brought g cs = [] := by
      rw [brought_append, List.append_eq_nil_iff, and_iff_left_iff_imp]
      intro hnone
      refine List.eq_nil_iff_forall_not_mem.mpr fun c hc => ?_
      obtain ⟨hmem, rfl⟩ := mem_brought.mp hc
      exact (hidle c hmem).2 hnone
    have hcounts : (container g fun m => amount m (brought g cs)) =
        container g fun m => amount m (brought g (cs ++ cs')) := by
      rw [container_inj]
      intro m
      rw [brought_append, amount_append, hzero, Nat.add_zero]
    rw [summed, summed, hcounts]
    simp only [hempty]

end Booked

/-! ### Runs -/

/-- The CHF, and for each reference the containers of the requests for its record that were answered
with success. -/
structure World where
  chf : ChfState
  billed : String → List UsedUnitContainer := fun _ => []

namespace World

def start (quotaBytes : Option Nat) : World := { chf := { quotaBytes } }

/-- What an answer to a request adds to the containers. -/
def bill (w : World) : Request → Answer → String → List UsedUnitContainer
  | .create req, .created .. => Function.update w.billed w.chf.nextRef req.usedUnitContainers
  | .update ref req, .ok _ =>
      Function.update w.billed ref (w.billed ref ++ req.usedUnitContainers)
  | .release ref req, .noContent =>
      Function.update w.billed ref (w.billed ref ++ req.usedUnitContainers)
  | _, _ => w.billed

def step (w : World) (r : Request) : World :=
  { chf := (w.chf.handle r).2, billed := w.bill r (w.chf.handle r).1 }

/-- The reference of the record a request is about. -/
def ref (w : World) : Request → String
  | .create _ => w.chf.nextRef
  | .update ref _ => ref
  | .release ref _ => ref

/-- The record of `ref` is `cdr` from now on, and `cs` the containers billed to it. -/
structure Files (w w' : World) (ref : String) (cdr : Cdr) (cs : List UsedUnitContainer) : Prop where
  cdrs : w'.chf.cdrs = w.chf.cdrs.insert ref cdr
  billed : w'.billed = Function.update w.billed ref cs

variable {w : World}

theorem Files.other {w' : World} {ref ref' : String} {cdr : Cdr} (hfile : Files w w' ref cdr cs)
    (h : ref' ≠ ref) :
    w'.billed ref' = w.billed ref' ∧ w'.chf.cdrs.lookup ref' = w.chf.cdrs.lookup ref' := by
  rw [hfile.billed, hfile.cdrs, Map.lookup_insert_eq]
  exact ⟨Function.update_of_ne h .., if_neg h⟩

theorem step_create (w : World) (req : ChargingDataRequest) :
    Files w (w.step (.create req)) w.chf.nextRef
      (Cdr.absorb req.usedUnitContainers
        { subscriberIdentifier := req.subscriberIdentifier
          pduSessionChargingInformation := req.pduSessionChargingInformation })
      req.usedUnitContainers := ⟨rfl, rfl⟩

/-- What an update does: nothing, when it is refused, and else it adds to a record that is open. -/
theorem step_update (w : World) (ref : String) (req : ChargingDataRequest) :
    (w.step (.update ref req) = w ∧ ∀ response, (w.chf.update ref req).1 ≠ .ok response) ∨
    ∃ cdr, w.chf.cdrs.lookup ref = some cdr ∧ cdr.released = false ∧
      Files w (w.step (.update ref req)) ref (cdr.absorb req.usedUnitContainers)
        (w.billed ref ++ req.usedUnitContainers) ∧
      (w.chf.update ref req).1 =
        .ok (if w.chf.quotaBytes.any fun q => q ≤ (cdr.absorb req.usedUnitContainers).totalVolume
          then .quotaExhausted else .success) := by
  cases hcdr : w.chf.cdrs.lookup ref with
  | none => simp [step, bill, ChfState.handle, ChfState.update, hcdr]
  | some cdr =>
    cases hreleased : cdr.released with
    | true => simp [step, bill, ChfState.handle, ChfState.update, hcdr, hreleased]
    | false =>
      refine .inr ⟨cdr, rfl, hreleased, ⟨?_, ?_⟩, ?_⟩ <;>
        simp [step, bill, ChfState.handle, ChfState.update, hcdr, hreleased]

/-- What a release does: it adds to the record and marks it released, whether it was or not. -/
theorem step_release (w : World) (ref : String) (req : ChargingDataRequest) :
    w.chf.cdrs.lookup ref = none ∧ w.step (.release ref req) = w ∨
    ∃ cdr, w.chf.cdrs.lookup ref = some cdr ∧
      Files w (w.step (.release ref req)) ref
        { cdr.absorb req.usedUnitContainers with released := true }
        (w.billed ref ++ req.usedUnitContainers) := by
  cases hcdr : w.chf.cdrs.lookup ref with
  | none => simp [step, bill, ChfState.handle, ChfState.release, hcdr]
  | some cdr =>
    refine .inr ⟨cdr, rfl, ?_, ?_⟩ <;>
      simp [step, bill, ChfState.handle, ChfState.release, hcdr]

/-- Every record holds what its requests brought. -/
def Books (w : World) : Prop :=
  ∀ ref cdr, w.chf.cdrs.lookup ref = some cdr → Booked cdr.usage (w.billed ref)

theorem books_start (quotaBytes : Option Nat) : (start quotaBytes).Books := fun _ _ h => nomatch h

theorem Books.file {w' : World} {ref : String} {cdr : Cdr} (h : w.Books) (hfile : Files w w' ref cdr cs)
    (hcdr : Booked cdr.usage cs) : w'.Books := by
  intro ref' cdr' hlookup
  rw [hfile.cdrs, Map.lookup_insert_eq] at hlookup
  rw [hfile.billed]
  by_cases href : ref' = ref
  · subst href
    rw [if_pos rfl, Option.some_inj] at hlookup
    rwa [← hlookup, Function.update_self]
  · rw [if_neg href] at hlookup
    rw [Function.update_of_ne href]
    exact h ref' cdr' hlookup

theorem Books.step (h : w.Books) (r : Request) : (w.step r).Books := by
  cases r with
  | create req => exact h.file (w.step_create req) (Booked.empty.absorb req.usedUnitContainers)
  | update ref req =>
    obtain ⟨hrefused, -⟩ | ⟨cdr, hcdr, -, hfile, -⟩ := w.step_update ref req
    · rwa [hrefused]
    · exact h.file hfile ((h ref cdr hcdr).absorb req.usedUnitContainers)
  | release ref req =>
    obtain ⟨-, hunknown⟩ | ⟨cdr, hcdr, hfile⟩ := w.step_release ref req
    · rwa [hunknown]
    · exact h.file hfile ((h ref cdr hcdr).absorb req.usedUnitContainers)

/-- A request leaves the other records, and what is billed in them, as they are. -/
theorem step_other (w : World) (r : Request) {ref : String} (h : ref ≠ w.ref r) :
    (w.step r).billed ref = w.billed ref ∧ (w.step r).chf.cdrs.lookup ref = w.chf.cdrs.lookup ref := by
  cases r with
  | create req => exact (w.step_create req).other h
  | update ref' req =>
    obtain ⟨hrefused, -⟩ | ⟨_, -, -, hfile, -⟩ := w.step_update ref' req
    · rw [hrefused]
      exact ⟨rfl, rfl⟩
    · exact hfile.other h
  | release ref' req =>
    obtain ⟨-, hunknown⟩ | ⟨_, -, hfile⟩ := w.step_release ref' req
    · rw [hunknown]
      exact ⟨rfl, rfl⟩
    · exact hfile.other h

/-- The sums over what is billed with the request do not overflow. -/
def Fits (w : World) (r : Request) : Prop := Fit ((w.step r).billed (w.ref r))

instance (w : World) (r : Request) : Decidable (w.Fits r) := by
  unfold Fits
  infer_instance

/-- The books are right, and no sum overflowed. -/
structure Kept (w : World) : Prop where
  books : w.Books
  fit : ∀ ref, Fit (w.billed ref)

theorem kept_start (quotaBytes : Option Nat) : (start quotaBytes).Kept :=
  ⟨books_start quotaBytes, fun _ => fit_nil⟩

theorem Kept.step (h : w.Kept) {r : Request} (hfits : w.Fits r) : (w.step r).Kept := by
  refine ⟨h.books.step r, fun ref => ?_⟩
  by_cases href : ref = w.ref r
  · rw [href]
    exact hfits
  · rw [(step_other w r href).1]
    exact h.fit ref

/-- The released records of `w` are the same in `w'`. -/
def Frozen (w w' : World) : Prop :=
  ∀ ref cdr, w.chf.cdrs.lookup ref = some cdr → cdr.released = true →
    ∃ cdr', w'.chf.cdrs.lookup ref = some cdr' ∧ cdr.Same cdr'

theorem Frozen.refl (w : World) : Frozen w w := fun _ cdr h _ => ⟨cdr, h, .refl cdr⟩

theorem Files.frozen_iff {w' : World} {ref : String} {cdr : Cdr} (h : Files w w' ref cdr cs) :
    Frozen w w' ↔ ∀ old, w.chf.cdrs.lookup ref = some old → old.released = true → old.Same cdr := by
  simp only [Frozen, h.cdrs, Map.lookup_insert_eq]
  constructor
  · intro hfrozen old hold hreleased
    obtain ⟨cdr', hcdr', hsame⟩ := hfrozen ref old hold hreleased
    rw [if_pos rfl, Option.some_inj] at hcdr'
    rwa [hcdr']
  · intro hsame ref' old hold hreleased
    by_cases href : ref' = ref
    · subst href
      exact ⟨cdr, if_pos rfl, hsame old hold hreleased⟩
    · exact ⟨old, by rw [if_neg href, hold], .refl old⟩

/-- What a request may not do to a released record: a release brings it no usage and no rating group,
and a record created anew does not get its reference. -/
def Heeds (w : World) : Request → Prop
  | .create _ => ∀ cdr ∈ w.chf.cdrs.lookup w.chf.nextRef, cdr.released = false
  | .update _ _ => True
  | .release ref req => ∀ cdr ∈ w.chf.cdrs.lookup ref, cdr.released = true →
      ∀ c ∈ req.usedUnitContainers,
        (∀ m ∈ Measure.all, read m c = 0) ∧ (cdr.usage.lookup c.ratingGroup).isSome = true

instance (w : World) (r : Request) : Decidable (w.Heeds r) := by
  cases r <;> unfold Heeds <;> infer_instance

theorem frozen_iff (h : w.Kept) {r : Request} (hfits : w.Fits r) :
    Frozen w (w.step r) ↔ w.Heeds r := by
  cases r with
  | create req =>
    rw [(w.step_create req).frozen_iff, Heeds]
    refine forall₂_congr fun old _ => ⟨fun hsame => ?_, fun hopen hreleased => ?_⟩
    · cases hreleased : old.released with
      | false => rfl
      | true => exact hreleased.symm.trans (hsame hreleased).released
    · rw [hopen] at hreleased
      cases hreleased
  | update ref req =>
    obtain ⟨hrefused, -⟩ | ⟨cdr, hcdr, hopen, hfile, -⟩ := w.step_update ref req
    · rw [hrefused]
      exact iff_of_true (.refl w) trivial
    · rw [hfile.frozen_iff]
      refine iff_of_true (fun old hold hreleased => ?_) trivial
      obtain rfl := Option.mem_unique hcdr hold
      rw [hopen] at hreleased
      cases hreleased
  | release ref req =>
    obtain ⟨hnone, hunknown⟩ | ⟨cdr, hcdr, hfile⟩ := w.step_release ref req
    · rw [hunknown, Heeds, hnone]
      exact iff_of_true (.refl w) fun _ hmem => nomatch hmem
    · have hbefore := h.books ref cdr hcdr
      have hafter := hbefore.absorb req.usedUnitContainers
      have hfit' : Fit (w.billed ref ++ req.usedUnitContainers) := by
        have hbilled := congrFun hfile.billed ref
        rw [Function.update_self] at hbilled
        exact hbilled ▸ hfits
      have husage := hbefore.unchanged_iff (h.fit ref) hafter hfit'
      rw [hfile.frozen_iff, Heeds, hcdr]
      simp only [Option.some_inj, Option.mem_def, forall_eq']
      refine forall_congr' fun hreleased => husage.symm.trans ?_ |>.symm
      exact ⟨fun hsame => ⟨rfl, rfl, hsame, hreleased⟩, fun hsame => hsame.usage⟩

/-- What is asked of a step: the usage of every record is what its requests brought, released records
stay as they are, and an update is told to terminate exactly when the quota is reached. -/
structure Consistent (w : World) (r : Request) : Prop where
  usage : ∀ ref cdr, (w.step r).chf.cdrs.lookup ref = some cdr →
    ∀ g, cdr.usage.lookup g = summed g ((w.step r).billed ref)
  frozen : Frozen w (w.step r)
  terminate : ∀ ref req response, r = .update ref req → (w.chf.handle r).1 = .ok response →
    (response.finalUnitIndication = some { finalUnitAction := "TERMINATE" } ↔
      ∃ q, w.chf.quotaBytes = some q ∧ q ≤ amount .totalVolume ((w.step r).billed ref))

theorem Kept.usage (h : w.Kept) {ref : String} {cdr : Cdr} (hcdr : w.chf.cdrs.lookup ref = some cdr)
    (g : UInt32) : cdr.usage.lookup g = summed g (w.billed ref) :=
  (h.books ref cdr hcdr).lookup (h.fit ref) g

theorem Kept.totalVolume (h : w.Kept) {ref : String} {cdr : Cdr}
    (hcdr : w.chf.cdrs.lookup ref = some cdr) : cdr.totalVolume = amount .totalVolume (w.billed ref) := by
  rw [Cdr.totalVolume, (h.books ref cdr hcdr).volume, Nat.mod_eq_of_lt (h.fit ref).2]

theorem Kept.terminate (h : w.Kept) {ref : String} {req : ChargingDataRequest}
    (hfits : w.Fits (.update ref req)) {response : ChargingDataResponse}
    (hok : (w.chf.update ref req).1 = .ok response) :
    response.finalUnitIndication = some { finalUnitAction := "TERMINATE" } ↔
      ∃ q, w.chf.quotaBytes = some q ∧
        q ≤ amount .totalVolume ((w.step (.update ref req)).billed ref) := by
  obtain ⟨-, hrefused⟩ | ⟨cdr, -, -, hfile, hanswer⟩ := w.step_update ref req
  · exact absurd hok (hrefused response)
  · have hcdr : (w.step (.update ref req)).chf.cdrs.lookup ref =
        some (cdr.absorb req.usedUnitContainers) := by
      rw [hfile.cdrs, Map.lookup_insert_eq, if_pos rfl]
    rw [hok, (h.step hfits).totalVolume hcdr] at hanswer
    obtain rfl := Answer.ok.inj hanswer
    cases w.chf.quotaBytes with
    | none => simp [ChargingDataResponse.success]
    | some q =>
      by_cases hq : q ≤ amount .totalVolume ((w.step (.update ref req)).billed ref) <;>
        simp [hq, ChargingDataResponse.success, ChargingDataResponse.quotaExhausted]

theorem consistent_step (h : w.Kept) {r : Request} (hfits : w.Fits r) :
    w.Consistent r ↔ w.Heeds r := by
  refine ⟨fun hc => (frozen_iff h hfits).mp hc.frozen, fun hheeds => ⟨?_, ?_, ?_⟩⟩
  · exact fun ref cdr hcdr => (h.step hfits).usage hcdr
  · exact (frozen_iff h hfits).mpr hheeds
  · rintro ref req response rfl hok
    exact h.terminate hfits hok

end World

open World in
/-- **Consistent records.** In every run of requests whose sums do not overflow, each record's usage is
what its requests brought, released records never change and updates are told to terminate exactly when
the quota is reached, if and only if every request heeds the side condition. -/
theorem consistent_iff (quotaBytes : Option Nat) (rs : List Request)
    (hfits : Runs.Along step Fits (start quotaBytes) rs) :
    Runs.Along step Consistent (start quotaBytes) rs ↔
      Runs.Along step Heeds (start quotaBytes) rs := by
  constructor
  · intro hconsistent
    exact Runs.along_imp (P := fun w r => Fits w r ∧ Consistent w r)
      (fun _ _ hstep hkept => hkept.step hstep.1)
      (fun _ _ hkept hstep => (consistent_step hkept hstep.1).mp hstep.2) (kept_start quotaBytes)
      (Runs.along_and.mpr ⟨hfits, hconsistent⟩)
  · intro hheeds
    exact Runs.along_imp (P := fun w r => Fits w r ∧ Heeds w r)
      (fun _ _ hstep hkept => hkept.step hstep.1)
      (fun _ _ hkept hstep => (consistent_step hkept hstep.1).mpr hstep.2) (kept_start quotaBytes)
      (Runs.along_and.mpr ⟨hfits, hheeds⟩)

/-- Usage of rating group 0. -/
def charged (volume : Nat) : ChargingDataRequest :=
  { subscriberIdentifier := "imsi-999700000000001", pduSessionChargingInformation := none
    usedUnitContainers :=
      [container 0 fun m => if m = .uplinkVolume ∨ m = .totalVolume then volume else 0] }

/-- A session that spends its quota and is released twice, the second time with nothing more. -/
def spent : List Request :=
  [.create (charged 0), .update "0" (charged 2000), .update "0" (charged 1000),
    .release "0" (charged 15), .update "0" (charged 1), .release "0" (charged 0)]

theorem consistent_sample :
    Runs.Along World.step World.Consistent (World.start (some 2500)) spent :=
  (consistent_iff (some 2500) spent (by decide +kernel)).mpr (by decide +kernel)

/-- A session whose release is retried. -/
def retried : List Request :=
  [.create (charged 0), .release "0" (charged 15), .release "0" (charged 15)]

/-- **Billed twice.** A retried release changes the released record. -/
theorem not_consistent :
    ¬ ∀ (quotaBytes : Option Nat) (rs : List Request),
      Runs.Along World.step World.Fits (World.start quotaBytes) rs →
        Runs.Along World.step World.Consistent (World.start quotaBytes) rs := by
  intro h
  have hfrozen := (h none retried (by decide +kernel)).2.2.1.frozen
  let before := Runs.run World.step (World.start none) (retried.take 2)
  let after := Runs.run World.step (World.start none) retried
  have hreleased : ∃ cdr, before.chf.cdrs.lookup "0" = some cdr ∧ cdr.released = true ∧
      cdr.usage.lookup 0 = summed 0 ((charged 15).usedUnitContainers) := by
    refine ⟨_, rfl, rfl, ?_⟩
    decide +kernel
  have hbilled : (after.chf.cdrs.lookup "0").map (fun cdr => cdr.usage.lookup 0) =
      some (summed 0 (charged 30).usedUnitContainers) := by decide +kernel
  obtain ⟨cdr, hcdr, hreleased, husage⟩ := hreleased
  obtain ⟨cdr', hcdr', hsame⟩ := hfrozen "0" cdr hcdr hreleased
  have hafter : after.chf.cdrs.lookup "0" = some cdr' := hcdr'
  rw [hafter, Option.map_some, Option.some_inj, ← hsame.usage 0, husage] at hbilled
  exact absurd hbilled (by decide +kernel)

end Radian.Chf
