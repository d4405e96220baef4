import Radian.Amf.Timers
import Radian.Runs.Basic
import Radian.Udm.SdmStore
import Mathlib.Logic.Function.Basic

/-!
# The serving AMF

What UDM and UDR hold on who serves a subscriber, against the AMFs that do.  The AMFs' requests are detached
tasks, delivered in any order; the UDR sweeps the registrations of NFs that the NRF does not know.

- `Task`, `Sweep`, `World`, `Event`, `World.step` — the AMFs' contexts and subscriptions, the UDM's and the
  UDR's stores, the requests in flight, and the sweep.
- `Agrees` — with no request in flight, the stores agree with the AMFs; the sweep spares what is alive.
- `Heeds` — the side condition.
- `Kept`, `known` — the invariant, and every run that heeds it agrees.
- `Left` — what the AMF's handlers ask of the UDM, run alone.
-/

open Keyed (Map)

namespace Radian.Udm

open Amf (AmfUeId)

/-! ### The system -/

/-- The key of a registration in the UDR's context data. -/
inductive RecordKey where
  | amf3gppAccess (supi : String)
  | smfRegistration (supi : String) (pduSessionId : UInt8)
  deriving DecidableEq, Repr

namespace RecordKey

def supi : RecordKey → String
  | .amf3gppAccess supi => supi
  | .smfRegistration supi _ => supi

def isAmf : RecordKey → Bool
  | .amf3gppAccess _ => true
  | .smfRegistration .. => false

end RecordKey

/-- A request on its way, or the answer to one. -/
inductive Task where
  | uecmRegister (amf supi : String)
  | uecmPurge (supi : String)
  | sdmSubscribe (amf supi : String)
  | sdmSubscribed (amf supi : String) (id : UInt64)
  | sdmUnsubscribe (supi : String) (id : UInt64)
  deriving DecidableEq, Repr

/-- A subscription of the AMF for the SUPI is being made. -/
def Task.asks (amf supi : String) : Task → Bool
  | .sdmSubscribe amf' supi' => amf' == amf && supi' == supi
  | .sdmSubscribed amf' supi' _ => amf' == amf && supi' == supi
  | _ => false

/-- The SUPI whose AMF registration a request is about. -/
def Task.about : Task → Option String
  | .uecmRegister _ supi | .uecmPurge supi => some supi
  | _ => none

/-- What a request makes of the AMF registration of a SUPI. -/
def Task.writes (supi : String) (record : Option String) : Task → Option String
  | .uecmRegister amf supi' => if supi = supi' then some amf else record
  | .uecmPurge supi' => if supi = supi' then none else record
  | _ => record

/-- How far a sweep is: it has the NFs that the NRF knows, then goes through the AMFs' registrations, then
through the SMFs'. -/
inductive SweepPhase where
  | asked | amf | smf
  deriving DecidableEq, Repr

structure Sweep where
  live : List String
  phase : SweepPhase := .asked
  /-- The registrations listed and not looked at yet, with the NF that each names. -/
  listed : Map RecordKey String := ∅

structure World where
  /-- The SUPI of each AMF's contexts, connected or retained. -/
  contexts : String × AmfUeId → Option String := fun _ => none
  /-- The subscription that an AMF holds for a SUPI. -/
  sdmSubs : String × String → Option UInt64 := fun _ => none
  sdm : SdmStore := {}
  /-- The NF that each registration names. -/
  records : Map RecordKey String := ∅
  flight : List Task := []
  /-- The NFs that the NRF knows. -/
  live : List String := []
  sweep : Option Sweep := none
  /-- The AMF and the context with which a SUPI's last registration was completed. -/
  serving : String → Option (String × AmfUeId) := fun _ => none
  /-- What the sweep has removed, and whether its NF was alive. -/
  swept : List (RecordKey × String × Bool) := []

inductive Event where
  /-- A context learns its SUPI. -/
  | identify (amf : String) (k : AmfUeId) (supi : String)
  | registrationComplete (amf : String) (k : AmfUeId)
  /-- A deregistration of whatever flavour: by the UE, by the network, implicit, or of an idle UE. -/
  | deregister (amf : String) (k : AmfUeId)
  /-- A context gets another id. -/
  | move (amf : String) (k k' : AmfUeId)
  /-- A context goes without a deregistration. -/
  | drop (amf : String) (k : AmfUeId)
  | deliver (task : Task)
  /-- The subscriber is removed from the UDR. -/
  | withdraw (supi : String)
  | putSmf (supi : String) (psi : UInt8) (smf : String)
  | deleteSmf (supi : String) (psi : UInt8)
  /-- NFs come to the NRF, or expire there. -/
  | nrf (live : List String)
  | sweepStep
  | sweepEntry (key : RecordKey)

namespace World

/-- How many subscriptions for a SUPI an AMF holds or is making. -/
def subscriptions (w : World) (amf supi : String) : Nat :=
  (w.sdmSubs (amf, supi)).toList.length + w.flight.countP (Task.asks amf supi)

/-- The context under `k` goes, or is another's. -/
def assign (amf : String) (k : AmfUeId) (supi : Option String) (w : World) : World :=
  { w with
    contexts := Function.update w.contexts (amf, k) supi
    serving := fun s => if w.serving s = some (amf, k) then none else w.serving s }

/-- The context's registration is complete: `spawn_uecm_register` and `spawn_sdm_subscribe`. -/
def registrationComplete (amf : String) (k : AmfUeId) (w : World) : World :=
  match w.contexts (amf, k) with
  | none => w
  | some supi =>
      { w with
        serving := Function.update w.serving supi (some (amf, k))
        flight := w.flight ++ [.uecmRegister amf supi, .sdmSubscribe amf supi] }

/-- `spawn_sdm_unsubscribe` and `spawn_uecm_purge`. -/
def leave (amf supi : String) (w : World) : World :=
  match w.sdmSubs (amf, supi) with
  | none => { w with flight := w.flight ++ [.uecmPurge supi] }
  | some id =>
      { w with
        sdmSubs := Function.update w.sdmSubs (amf, supi) none
        flight := w.flight ++ [.sdmUnsubscribe supi id, .uecmPurge supi] }

def deregister (amf : String) (k : AmfUeId) (w : World) : World :=
  match w.contexts (amf, k) with
  | none => w
  | some supi => (w.assign amf k none).leave amf supi

def move (amf : String) (k k' : AmfUeId) (w : World) : World :=
  match w.contexts (amf, k), w.contexts (amf, k') with
  | some supi, none =>
      { w with
        contexts := Function.update (Function.update w.contexts (amf, k) none) (amf, k') (some supi)
        serving := fun s => if w.serving s = some (amf, k) then some (amf, k') else w.serving s }
  | _, _ => w

/-- What UDM, UDR or AMF make of what has arrived. -/
def receive (w : World) : Task → World
  | .uecmRegister amf supi => { w with records := w.records.insert (.amf3gppAccess supi) amf }
  | .uecmPurge supi => { w with records := w.records.erase (.amf3gppAccess supi) }
  | .sdmSubscribe amf supi =>
      let (id, sdm) := w.sdm.subscribe supi amf
      { w with sdm, flight := w.flight ++ [.sdmSubscribed amf supi id] }
  | .sdmSubscribed amf supi id =>
      { w with sdmSubs := Function.update w.sdmSubs (amf, supi) (some id) }
  | .sdmUnsubscribe supi id => { w with sdm := (w.sdm.unsubscribe supi id).2 }

def deliver (task : Task) (w : World) : World :=
  if task ∈ w.flight then { w with flight := w.flight.erase task }.receive task else w

/-- A registration goes in the sweep. -/
def evict (key : RecordKey) (w : World) : World :=
  match w.records.lookup key with
  | none => w
  | some nf =>
      { w with
        records := w.records.erase key
        swept := w.swept ++ [(key, nf, w.live.contains nf)] }

def sweepStep (w : World) : World :=
  match w.sweep with
  | none => { w with sweep := some { live := w.live } }
  | some sweep =>
      if sweep.listed.entries.isEmpty then
        { w with
          sweep :=
            match sweep.phase with
            | .asked => some { sweep with phase := .amf, listed := w.records.retainKeys RecordKey.isAmf }
            | .amf => some { sweep with phase := .smf, listed := w.records.retainKeys fun key => !key.isAmf }
            | .smf => none }
      else w

def sweepEntry (key : RecordKey) (w : World) : World :=
  match w.sweep with
  | none => w
  | some sweep =>
      match sweep.listed.lookup key with
      | none => w
      | some nf =>
          let w := if sweep.live.contains nf then w else w.evict key
          { w with sweep := some { sweep with listed := sweep.listed.erase key } }

def step (w : World) : Event → World
  | .identify amf k supi => w.assign amf k (some supi)
  | .registrationComplete amf k => w.registrationComplete amf k
  | .deregister amf k => w.deregister amf k
  | .move amf k k' => w.move amf k k'
  | .drop amf k => w.assign amf k none
  | .deliver task => w.deliver task
  | .withdraw supi => { w with records := w.records.retainKeys fun key => key.supi != supi }
  | .putSmf supi psi smf => { w with records := w.records.insert (.smfRegistration supi psi) smf }
  | .deleteSmf supi psi => { w with records := w.records.erase (.smfRegistration supi psi) }
  | .nrf live => { w with live }
  | .sweepStep => w.sweepStep
  | .sweepEntry key => w.sweepEntry key

/-- Nothing has happened yet. -/
structure Started (w : World) : Prop where
  contexts : ∀ k, w.contexts k = none
  sdmSubs : ∀ k, w.sdmSubs k = none
  sdm : w.sdm = {}
  records : w.records = ∅
  flight : w.flight = []
  sweep : w.sweep = none
  serving : ∀ s, w.serving s = none
  swept : w.swept = []

end World

/-! ### Agreement -/

/-- With no request in flight, a subscriber that is served has a registration that names its AMF, and of that AMF
one subscription, the one it holds; one that is not served has neither.  No registration goes whose NF is
alive. -/
structure Agrees (w : World) : Prop where
  served : ∀ s amf k, w.serving s = some (amf, k) → w.flight = [] →
    w.records.lookup (.amf3gppAccess s) = some amf ∧
      ∃ id, w.sdmSubs (amf, s) = some id ∧ ((w.sdm.of s).filter fun sub => sub.callback == amf) = [⟨id, amf⟩]
  unserved : ∀ s, w.serving s = none → w.flight = [] →
    w.records.lookup (.amf3gppAccess s) = none ∧ w.sdm.of s = [] ∧ ∀ amf, w.sdmSubs (amf, s) = none
  spared : ∀ entry ∈ w.swept, entry.2.2 = false

/-- No earlier request about the same AMF registration is on its way. -/
def World.First (w : World) (task : Task) : Prop :=
  ∀ s ∈ task.about, w.flight.find? (fun t => t.about == some s) = some task

instance (w : World) (task : Task) : Decidable (w.First task) :=
  inferInstanceAs (Decidable (∀ s ∈ task.about, _))

/-- No request about a registration overtakes another.  A registration is completed by an AMF that the NRF
knows and that has no subscription for the SUPI nor is making one.  Only the context that serves a SUPI
deregisters it, once its own subscription has been made and when no other AMF has one for it; other
contexts may go.  The NRF knows the AMFs that serve, and while a sweep is under way no NF appears there
that it has not been told of, and no registration it has listed as stale is overwritten by another's.
Subscription ids do not come round to one that is still in use. -/
def Heeds (w : World) : Event → Prop
  | .identify amf k _ | .drop amf k => ∀ s, w.serving s ≠ some (amf, k)
  | .registrationComplete amf k => ∀ s, w.contexts (amf, k) = some s →
      amf ∈ w.live ∧ w.subscriptions amf s = 0
  | .deregister amf k => ∀ s, w.contexts (amf, k) = some s → ∀ serving, w.serving s = some serving →
      serving = (amf, k) ∧ w.flight.countP (Task.asks amf s) = 0 ∧
        ∀ amf', amf' ≠ amf → w.subscriptions amf' s = 0
  | .deliver task => w.First task ∧
      match task with
      | .uecmRegister amf s => ∀ sweep, w.sweep = some sweep → ∀ nf,
          sweep.listed.lookup (.amf3gppAccess s) = some nf → nf ∉ sweep.live → nf = amf
      | .sdmSubscribe _ s =>
          (∀ sub ∈ w.sdm.of s, sub.id ≠ w.sdm.nextId) ∧ .sdmUnsubscribe s w.sdm.nextId ∉ w.flight
      | _ => True
  | .withdraw s => w.serving s = none
  | .putSmf s psi smf => ∀ sweep, w.sweep = some sweep → ∀ nf,
      sweep.listed.lookup (.smfRegistration s psi) = some nf → nf ∉ sweep.live → nf = smf
  | .nrf live => (∀ s amf k, w.serving s = some (amf, k) → amf ∈ live) ∧
      ∀ sweep, w.sweep = some sweep → ∀ nf ∈ live, nf ∈ sweep.live
  | _ => True

/-! ### Registrations -/

/-- What is left of an AMF registration when the requests in flight have come in the order they were made. -/
def settled (flight : List Task) (s : String) (record : Option String) : Option String :=
  flight.foldl (Task.writes s) record

theorem writes_of_ne {task : Task} {s : String} (h : task.about ≠ some s) (record : Option String) :
    task.writes s record = record := by
  cases task with
  | uecmRegister amf supi => exact if_neg fun hsame => h (congrArg some hsame.symm)
  | uecmPurge supi => exact if_neg fun hsame => h (congrArg some hsame.symm)
  | _ => rfl

/-- The first request about a registration may as well have been delivered. -/
theorem settled_erase {flight : List Task} {task : Task} (hin : task ∈ flight)
    (hfirst : ∀ s ∈ task.about, flight.find? (fun t => t.about == some s) = some task) (s : String)
    (record : Option String) :
    settled (flight.erase task) s (task.writes s record) = settled flight s record := by
  induction flight generalizing record with
  | nil => cases hin
  | cons t flight ih =>
    by_cases hsame : t = task
    · subst hsame
      rw [List.erase_cons_head]
      rfl
    have hother : ∀ s ∈ task.about, (t.about == some s) = false := by
      intro s hs
      cases hmatch : t.about == some s with
      | false => rfl
      | true =>
        have hfound := hfirst s hs
        rw [List.find?_cons, hmatch] at hfound
        exact absurd (Option.some_inj.mp hfound) hsame
    have hrest := ih ((List.mem_cons.mp hin).resolve_left (Ne.symm hsame)) fun s hs => by
      rw [← hfirst s hs, List.find?_cons, hother s hs]
    rw [List.erase_cons_tail (by simpa using hsame)]
    -- the two requests are about different registrations
    have hswap : t.writes s (task.writes s record) = task.writes s (t.writes s record) := by
      by_cases hs : task.about = some s
      · have hne : t.about ≠ some s := by simpa using hother s hs
        rw [writes_of_ne hne, writes_of_ne hne]
      · rw [writes_of_ne hs, writes_of_ne hs]
    exact (congrArg (settled (flight.erase task) s) hswap).trans (hrest (t.writes s record))

/-- Requests in flight leave a registration alone, or what was there before does not matter. -/
theorem settled_cases (flight : List Task) (s : String) :
    (∀ record, settled flight s record = record) ∨
      ∃ left, ∀ record, settled flight s record = left := by
  induction flight with
  | nil => exact .inl fun _ => rfl
  | cons t flight ih =>
    rcases ih with hsame | ⟨left, hleft⟩
    · have hfirst : ∀ record, settled (t :: flight) s record = t.writes s record := fun record => hsame _
      by_cases hs : t.about = some s
      · refine .inr ⟨t.writes s none, fun record => ?_⟩
        rw [hfirst]
        cases t <;> simp_all [Task.about, Task.writes]
      · exact .inl fun record => (hfirst record).trans (writes_of_ne hs record)
    · exact .inr ⟨left, fun record => hleft _⟩

/-- With the requests in flight, registrations name the AMFs that serve. -/
def Recorded (serves : String → Option String) (records : Map RecordKey String)
    (flight : List Task) : Prop :=
  ∀ s, settled flight s (records.lookup (.amf3gppAccess s)) = serves s

namespace Recorded

variable {serves : String → Option String} {records records' : Map RecordKey String}
variable {flight : List Task}

/-- A registration changes that is as it should be, and stays so. -/
theorem of_records (h : Recorded serves records flight)
    (hrecords : ∀ s, records.lookup (.amf3gppAccess s) = serves s →
      records'.lookup (.amf3gppAccess s) = serves s) : Recorded serves records' flight := by
  intro s
  rcases settled_cases flight s with hsame | ⟨left, hleft⟩
  · rw [hsame]
    exact hrecords s ((hsame _).symm.trans (h s))
  · exact (hleft _).trans ((hleft _).symm.trans (h s))

theorem append (h : Recorded serves records flight) (tasks : List Task) :
    Recorded (fun s => settled tasks s (serves s)) records (flight ++ tasks) := by
  intro s
  dsimp only
  rw [← h s]
  exact List.foldl_append

/-- A request of a SUPI's subscription is made. -/
theorem add (h : Recorded serves records flight) {task : Task} (htask : task.about = none) :
    Recorded serves records (flight ++ [task]) := by
  intro s
  rw [h.append [task] s]
  exact writes_of_ne (by simp [htask]) (serves s)

theorem complete (h : Recorded serves records flight) (amf supi : String) :
    Recorded (Function.update serves supi (some amf)) records
      (flight ++ [.uecmRegister amf supi, .sdmSubscribe amf supi]) := by
  intro s
  rw [h.append _ s, Function.update_apply]
  rfl

/-- Who serves a SUPI no longer, or has not served it, purges it. -/
theorem purge (h : Recorded serves records flight) (supi : String) :
    Recorded (Function.update serves supi none) records (flight ++ [.uecmPurge supi]) := by
  intro s
  rw [h.append _ s, Function.update_apply]
  rfl

/-- The first request about a registration arrives. -/
theorem deliver (h : Recorded serves records flight) {task : Task} (hin : task ∈ flight)
    (hfirst : ∀ s ∈ task.about, flight.find? (fun t => t.about == some s) = some task)
    (hrecords : ∀ s, records'.lookup (.amf3gppAccess s) =
      task.writes s (records.lookup (.amf3gppAccess s))) :
    Recorded serves records' (flight.erase task) := by
  intro s
  rw [hrecords, settled_erase hin hfirst, h s]

/-- The registration of an NF goes that does not serve the SUPI. -/
theorem evict (h : Recorded serves records flight) {key : RecordKey} {nf : String}
    (hnf : records.lookup key = some nf) (hserves : ∀ s, serves s ≠ some nf) :
    Recorded serves (records.erase key) flight := by
  refine h.of_records fun s hs => ?_
  rw [Keyed.Map.lookup_erase_eq, if_neg]
  · exact hs
  · rintro rfl
    exact hserves s (hs.symm.trans hnf)

end Recorded

/-! ### Subscriptions -/

/-- The UDM has answered: an AMF holds the subscription, or it is on its way there. -/
def Held (sdmSubs : String × String → Option UInt64) (flight : List Task) (amf s : String)
    (id : UInt64) : Prop :=
  sdmSubs (amf, s) = some id ∨ .sdmSubscribed amf s id ∈ flight

/-- How many subscriptions there are. -/
def count (sdmSubs : String × String → Option UInt64) (flight : List Task) (amf s : String) : Nat :=
  (sdmSubs (amf, s)).toList.length + flight.countP (Task.asks amf s)

/-- An AMF has one subscription for a SUPI that it serves, and none for one that is not served; those at the
UDM are the ones held, but for those about to go. -/
structure Subscribed (serves : String → Option String) (sdmSubs : String × String → Option UInt64)
    (sdm : SdmStore) (flight : List Task) : Prop where
  one : ∀ amf s, count sdmSubs flight amf s ≤ 1
  wanted : ∀ s amf, serves s = some amf → count sdmSubs flight amf s = 1
  unwanted : ∀ s, serves s = none → ∀ amf, count sdmSubs flight amf s = 0
  there : ∀ amf s id, Held sdmSubs flight amf s id → ⟨id, amf⟩ ∈ sdm.of s ∧ .sdmUnsubscribe s id ∉ flight
  left : ∀ amf s id, ⟨id, amf⟩ ∈ sdm.of s → Held sdmSubs flight amf s id ∨ .sdmUnsubscribe s id ∈ flight
  nodup : ∀ s, ((sdm.of s).map SdmSub.id).Nodup

namespace Subscribed

variable {serves : String → Option String} {sdmSubs : String × String → Option UInt64} {sdm : SdmStore}
variable {flight flight' : List Task} {amf supi : String} {id : UInt64}

/-- Where nothing is held or asked for, nothing is held. -/
theorem not_held (hcount : count sdmSubs flight amf supi = 0) : ¬ Held sdmSubs flight amf supi id := by
  obtain ⟨hnone, hasks⟩ := Nat.add_eq_zero_iff.mp hcount
  rintro (hheld | hheld)
  · rw [hheld] at hnone
    cases hnone
  · have hnot := List.countP_eq_zero.mp hasks _ hheld
    exact hnot (by simp [Task.asks])

theorem of_held {sdmSubs' : String × String → Option UInt64} (h : Subscribed serves sdmSubs sdm flight)
    (hcount : ∀ amf s, count sdmSubs' flight' amf s = count sdmSubs flight amf s)
    (hheld : ∀ amf s id, Held sdmSubs' flight' amf s id ↔ Held sdmSubs flight amf s id)
    (hunsubscribe : ∀ s id, .sdmUnsubscribe s id ∈ flight' ↔ .sdmUnsubscribe s id ∈ flight) :
    Subscribed serves sdmSubs' sdm flight' := by
  obtain ⟨hone, hwanted, hunwanted, hthere, hleft, hnodup⟩ := h
  refine ⟨?_, ?_, ?_, ?_, ?_, hnodup⟩
  · simpa only [hcount] using hone
  · simpa only [hcount] using hwanted
  · simpa only [hcount] using hunwanted
  · simpa only [hheld, hunsubscribe] using hthere
  · simpa only [hheld, hunsubscribe] using hleft

theorem of_flight (h : Subscribed serves sdmSubs sdm flight)
    (hasks : ∀ amf s, flight'.countP (Task.asks amf s) = flight.countP (Task.asks amf s))
    (hanswers : ∀ amf s id, .sdmSubscribed amf s id ∈ flight' ↔ .sdmSubscribed amf s id ∈ flight)
    (hunsubscribe : ∀ s id, .sdmUnsubscribe s id ∈ flight' ↔ .sdmUnsubscribe s id ∈ flight) :
    Subscribed serves sdmSubs sdm flight' :=
  h.of_held (fun amf s => by rw [count, count, hasks]) (fun amf s id => by rw [Held, Held, hanswers])
    hunsubscribe

theorem complete (h : Subscribed serves sdmSubs sdm flight) (hcount : count sdmSubs flight amf supi = 0) :
    Subscribed (Function.update serves supi (some amf)) sdmSubs sdm
      (flight ++ [.uecmRegister amf supi, .sdmSubscribe amf supi]) := by
  have hnew : ∀ a s, count sdmSubs (flight ++ [.uecmRegister amf supi, .sdmSubscribe amf supi]) a s =
      count sdmSubs flight a s + if a = amf ∧ s = supi then 1 else 0 := by
    intro a s
    simp only [count, List.countP_append, List.countP_cons, Task.asks, List.countP_nil]
    by_cases hsame : a = amf ∧ s = supi
    · obtain ⟨rfl, rfl⟩ := hsame
      simp [Nat.add_assoc]
    · have hnot : ¬ (amf = a ∧ supi = s) := fun hsame' => hsame ⟨hsame'.1.symm, hsame'.2.symm⟩
      simp [hsame, hnot]
  have hheld : ∀ a s i, Held sdmSubs (flight ++ [.uecmRegister amf supi, .sdmSubscribe amf supi]) a s i ↔
      Held sdmSubs flight a s i := by
    intro a s i
    simp [Held]
  refine ⟨fun a s => ?_, fun s a hs => ?_, fun s hs a => ?_, ?_, ?_, h.nodup⟩
  · rw [hnew]
    split
    · rename_i hsame
      rw [hsame.1, hsame.2, hcount]
    · exact h.one a s
  · rw [hnew]
    obtain ⟨hsame, rfl⟩ | ⟨hother, hs⟩ := Keyed.of_update_some hs
    · rw [hsame, hcount, if_pos ⟨rfl, rfl⟩]
    · rw [if_neg (fun hsame => hother hsame.2)]
      exact h.wanted s a hs
  · rw [Function.update_apply] at hs
    split at hs
    · cases hs
    · rename_i hother
      rw [hnew, if_neg (fun hsame => hother hsame.2)]
      exact h.unwanted s hs a
  · intro a s i hi
    simpa using h.there a s i ((hheld a s i).mp hi)
  · intro a s i hi
    simpa [hheld] using h.left a s i hi

/-- A SUPI that has not been served is purged. -/
theorem purge (h : Subscribed serves sdmSubs sdm flight) :
    Subscribed serves sdmSubs sdm (flight ++ [.uecmPurge supi]) := by
  refine h.of_flight (fun a s => ?_) (fun a s i => ?_) (fun s i => ?_)
  · simp [Task.asks]
  · simp
  · simp

/-- The one subscription is given up. -/
theorem leave (h : Subscribed serves sdmSubs sdm flight) (hheld : sdmSubs (amf, supi) = some id)
    (hasks : flight.countP (Task.asks amf supi) = 0)
    (hothers : ∀ amf', amf' ≠ amf → count sdmSubs flight amf' supi = 0) :
    Subscribed (Function.update serves supi none) (Function.update sdmSubs (amf, supi) none) sdm
      (flight ++ [.sdmUnsubscribe supi id, .uecmPurge supi]) := by
  have hflight : ∀ a s, (flight ++ [Task.sdmUnsubscribe supi id, .uecmPurge supi]).countP (Task.asks a s) =
      flight.countP (Task.asks a s) := by
    intro a s
    simp [Task.asks]
  have hgone : count (Function.update sdmSubs (amf, supi) none)
      (flight ++ [.sdmUnsubscribe supi id, .uecmPurge supi]) amf supi = 0 := by
    rw [count, hflight, hasks, Function.update_self]
    rfl
  have hother : ∀ a s, (a, s) ≠ (amf, supi) →
      count (Function.update sdmSubs (amf, supi) none)
        (flight ++ [.sdmUnsubscribe supi id, .uecmPurge supi]) a s = count sdmSubs flight a s := by
    intro a s hne
    rw [count, hflight, Function.update_of_ne hne, count]
  have hnone : ∀ a, count (Function.update sdmSubs (amf, supi) none)
      (flight ++ [.sdmUnsubscribe supi id, .uecmPurge supi]) a supi = 0 := by
    intro a
    by_cases ha : a = amf
    · rw [ha, hgone]
    · rw [hother a supi (fun heq => ha (Prod.mk.inj heq).1), hothers a ha]
  have hkeeps : ∀ a s i, s ≠ supi → (Held (Function.update sdmSubs (amf, supi) none)
      (flight ++ [.sdmUnsubscribe supi id, .uecmPurge supi]) a s i ↔ Held sdmSubs flight a s i) := by
    intro a s i hs
    rw [Held, Held, Function.update_of_ne fun heq => hs (Prod.mk.inj heq).2]
    simp
  refine ⟨fun a s => ?_, fun s a hs => ?_, fun s hs a => ?_, fun a s i hi => ?_, fun a s i hi => ?_, h.nodup⟩
  · by_cases hs : s = supi
    · rw [hs, hnone]
      exact Nat.zero_le 1
    · rw [hother a s fun heq => hs (Prod.mk.inj heq).2]
      exact h.one a s
  · obtain ⟨hne, hs⟩ := Keyed.of_update_none hs
    rw [hother a s fun heq => hne (Prod.mk.inj heq).2]
    exact h.wanted s a hs
  · by_cases hsame : s = supi
    · rw [hsame, hnone]
    · rw [hother a s fun heq => hsame (Prod.mk.inj heq).2]
      rw [Function.update_of_ne hsame] at hs
      exact h.unwanted s hs a
  · by_cases hs : s = supi
    · subst hs
      exact absurd hi (not_held (hnone a))
    · obtain ⟨hthere, hnot⟩ := h.there a s i ((hkeeps a s i hs).mp hi)
      exact ⟨hthere, by simpa [hs] using hnot⟩
  · rcases h.left a s i hi with hi | hi
    · by_cases hs : s = supi
      · subst hs
        have ha : a = amf := by
          by_contra hne
          exact not_held (hothers a hne) hi
        subst ha
        refine .inr ?_
        rcases hi with hi | hi
        · rw [Option.mem_unique hheld hi]
          simp
        · exact absurd (List.countP_eq_zero.mp hasks _ hi) (by simp [Task.asks])
      · exact .inl ((hkeeps a s i hs).mpr hi)
    · exact .inr (List.mem_append_left _ hi)

/-- A request that is no subscription's arrives. -/
theorem arrive (h : Subscribed serves sdmSubs sdm flight) {task : Task}
    (hasks : ∀ amf s, task.asks amf s = false) (hunsubscribe : ∀ s id, .sdmUnsubscribe s id ≠ task) :
    Subscribed serves sdmSubs sdm (flight.erase task) := by
  refine h.of_flight (fun a s => ?_) (fun a s i => List.mem_erase_of_ne ?_)
    (fun s i => List.mem_erase_of_ne (hunsubscribe s i))
  · rw [List.countP_erase]
    simp [hasks]
  · rintro rfl
    have hyes := hasks a s
    simp [Task.asks] at hyes

theorem deliver_subscribe (h : Subscribed serves sdmSubs sdm flight)
    (hin : .sdmSubscribe amf supi ∈ flight) (hfresh : ∀ sub ∈ sdm.of supi, sub.id ≠ sdm.nextId)
    (hunused : .sdmUnsubscribe supi sdm.nextId ∉ flight) :
    Subscribed serves sdmSubs (sdm.subscribe supi amf).2
      (flight.erase (.sdmSubscribe amf supi) ++ [.sdmSubscribed amf supi sdm.nextId]) := by
  have hcount : ∀ a s, count sdmSubs
      (flight.erase (.sdmSubscribe amf supi) ++ [.sdmSubscribed amf supi sdm.nextId]) a s =
        count sdmSubs flight a s := by
    intro a s
    have hsame : (Task.sdmSubscribed amf supi sdm.nextId).asks a s = (Task.sdmSubscribe amf supi).asks a s := rfl
    simp only [count, List.countP_append, List.countP_erase, hin, true_and, List.countP_singleton, hsame]
    by_cases hyes : (Task.sdmSubscribe amf supi).asks a s = true
    · have hpos : 0 < flight.countP (Task.asks a s) := List.countP_pos_iff.mpr ⟨_, hin, hyes⟩
      rw [if_pos hyes, Nat.sub_add_cancel hpos]
    · rw [if_neg hyes]
      rfl
  have hheld : ∀ a s i, Held sdmSubs
      (flight.erase (.sdmSubscribe amf supi) ++ [.sdmSubscribed amf supi sdm.nextId]) a s i ↔
        Held sdmSubs flight a s i ∨ (a = amf ∧ s = supi ∧ i = sdm.nextId) := by
    intro a s i
    simp [Held, or_assoc, List.mem_erase_of_ne]
  have hunsubscribe : ∀ s i, .sdmUnsubscribe s i ∈
      flight.erase (.sdmSubscribe amf supi) ++ [.sdmSubscribed amf supi sdm.nextId] ↔
        .sdmUnsubscribe s i ∈ flight := by
    intro s i
    simp [List.mem_erase_of_ne]
  refine ⟨fun a s => ?_, fun s a hs => ?_, fun s hs a => ?_, fun a s i hi => ?_, fun a s i hi => ?_,
    fun s => ?_⟩
  · rw [hcount]
    exact h.one a s
  · rw [hcount]
    exact h.wanted s a hs
  · rw [hcount]
    exact h.unwanted s hs a
  · rw [hunsubscribe, SdmStore.of_subscribe]
    rcases (hheld a s i).mp hi with hi | ⟨rfl, rfl, rfl⟩
    · obtain ⟨hthere, hnot⟩ := h.there a s i hi
      refine ⟨?_, hnot⟩
      split
      · rename_i hsame
        exact List.mem_append_left _ (hsame ▸ hthere)
      · exact hthere
    · rw [if_pos rfl]
      exact ⟨by simp, hunused⟩
  · rw [hheld, hunsubscribe]
    rw [SdmStore.of_subscribe] at hi
    split at hi
    · rename_i hsame
      subst hsame
      rcases List.mem_append.mp hi with hi | hi
      · exact (h.left a s i hi).imp_left .inl
      · simp only [List.mem_singleton, SdmSub.mk.injEq] at hi
        exact .inl (.inr ⟨hi.2, rfl, hi.1⟩)
    · exact (h.left a s i hi).imp_left .inl
  · rw [SdmStore.of_subscribe]
    split
    · rw [List.map_append]
      refine List.nodup_append.mpr ⟨h.nodup supi, List.nodup_singleton _, fun x hx y hy heq => ?_⟩
      obtain ⟨sub, hsub, rfl⟩ := List.mem_map.mp hx
      exact hfresh sub hsub (heq.trans (by simpa using hy))
    · exact h.nodup s

/-- The answer comes to the AMF. -/
theorem deliver_subscribed (h : Subscribed serves sdmSubs sdm flight)
    (hin : .sdmSubscribed amf supi id ∈ flight) :
    Subscribed serves (Function.update sdmSubs (amf, supi) (some id)) sdm
      (flight.erase (.sdmSubscribed amf supi id)) := by
  have hasks : 0 < flight.countP (Task.asks amf supi) :=
    List.countP_pos_iff.mpr ⟨_, hin, by simp [Task.asks]⟩
  have hnone : sdmSubs (amf, supi) = none := by
    have hone := h.one amf supi
    cases hsub : sdmSubs (amf, supi) with
    | none => rfl
    | some _ =>
      rw [count, hsub, Option.toList_some, List.length_singleton] at hone
      omega
  have hcount : ∀ a s, count (Function.update sdmSubs (amf, supi) (some id))
      (flight.erase (.sdmSubscribed amf supi id)) a s = count sdmSubs flight a s := by
    intro a s
    by_cases hsame : (a, s) = (amf, supi)
    · cases hsame
      have hyes : (Task.sdmSubscribed amf supi id).asks amf supi = true := by simp [Task.asks]
      rw [count, count, Function.update_self, hnone, List.countP_erase, if_pos ⟨hin, hyes⟩]
      simp only [Option.toList_some, Option.toList_none, List.length_singleton, List.length_nil]
      omega
    · have hno : (Task.sdmSubscribed amf supi id).asks a s = false := by
        by_contra hyes
        simp only [Task.asks, Bool.not_eq_false, Bool.and_eq_true, beq_iff_eq] at hyes
        exact hsame (by rw [hyes.1, hyes.2])
      rw [count, count, Function.update_of_ne hsame, List.countP_erase, hno]
      simp
  have hheld : ∀ a s i, Held (Function.update sdmSubs (amf, supi) (some id))
      (flight.erase (.sdmSubscribed amf supi id)) a s i ↔ Held sdmSubs flight a s i := by
    intro a s i
    by_cases hsame : (a, s) = (amf, supi)
    · cases hsame
      rw [Held, Held, Function.update_self, hnone]
      by_cases hi : i = id
      · simp [hi, hin]
      · simp [hi, Ne.symm hi, List.mem_erase_of_ne]
    · have hne : Task.sdmSubscribed a s i ≠ .sdmSubscribed amf supi id := by
        rintro ⟨⟩
        exact hsame rfl
      rw [Held, Held, Function.update_of_ne hsame, List.mem_erase_of_ne hne]
  exact h.of_held hcount hheld fun s i => List.mem_erase_of_ne (by simp)

theorem deliver_unsubscribe (h : Subscribed serves sdmSubs sdm flight)
    (hin : .sdmUnsubscribe supi id ∈ flight) :
    Subscribed serves sdmSubs (sdm.unsubscribe supi id).2 (flight.erase (.sdmUnsubscribe supi id)) := by
  have hcount : ∀ a s, count sdmSubs (flight.erase (.sdmUnsubscribe supi id)) a s = count sdmSubs flight a s := by
    intro a s
    rw [count, count, List.countP_erase]
    simp [Task.asks]
  have hheld : ∀ a s i, Held sdmSubs (flight.erase (.sdmUnsubscribe supi id)) a s i ↔
      Held sdmSubs flight a s i := by
    intro a s i
    rw [Held, Held, List.mem_erase_of_ne (by simp)]
  refine ⟨fun a s => ?_, fun s a hs => ?_, fun s hs a => ?_, fun a s i hi => ?_, fun a s i hi => ?_,
    fun s => ?_⟩
  · rw [hcount]
    exact h.one a s
  · rw [hcount]
    exact h.wanted s a hs
  · rw [hcount]
    exact h.unwanted s hs a
  · obtain ⟨hthere, hnot⟩ := h.there a s i ((hheld a s i).mp hi)
    refine ⟨?_, fun hin' => hnot (List.mem_of_mem_erase hin')⟩
    rw [SdmStore.of_unsubscribe]
    split
    · rename_i hsame
      subst hsame
      refine List.mem_filter.mpr ⟨hthere, ?_⟩
      simp only [bne_iff_ne, ne_eq]
      rintro rfl
      exact hnot hin
    · exact hthere
  · rw [hheld]
    rw [SdmStore.of_unsubscribe] at hi
    split at hi
    · rename_i hsame
      subst hsame
      obtain ⟨hi, hne⟩ := List.mem_filter.mp hi
      refine (h.left a s i hi).imp_right (List.mem_erase_of_ne ?_).mpr
      rintro ⟨⟩
      simp at hne
    · rename_i hother
      refine (h.left a s i hi).imp_right (List.mem_erase_of_ne ?_).mpr
      rintro ⟨⟩
      exact hother rfl
  · rw [SdmStore.of_unsubscribe]
    split
    · exact (h.nodup supi).sublist (List.filter_sublist.map _)
    · exact h.nodup s

end Subscribed

/-! ### The sweep -/

/-- A sweep knows the NFs that are alive, and the registrations it takes for stale are as they were listed. -/
structure Sweeping (live : List String) (records : Map RecordKey String) (sweep : Option Sweep)
    (swept : List (RecordKey × String × Bool)) : Prop where
  knows : ∀ x, sweep = some x → ∀ nf ∈ live, nf ∈ x.live
  listed : ∀ x, sweep = some x → ∀ key nf, x.listed.lookup key = some nf → nf ∉ x.live →
    ∀ nf', records.lookup key = some nf' → nf' = nf
  spared : ∀ entry ∈ swept, entry.2.2 = false

namespace Sweeping

variable {live : List String} {records records' : Map RecordKey String} {sweep : Option Sweep}
variable {swept : List (RecordKey × String × Bool)} {key : RecordKey} {nf : String}

/-- Registrations go. -/
theorem shrink (h : Sweeping live records sweep swept)
    (hrecords : ∀ key nf, records'.lookup key = some nf → records.lookup key = some nf) :
    Sweeping live records' sweep swept where
  knows := h.knows
  listed x hx key nf hnf hstale nf' hnf' := h.listed x hx key nf hnf hstale nf' (hrecords key nf' hnf')
  spared := h.spared

theorem erase (h : Sweeping live records sweep swept) (key : RecordKey) :
    Sweeping live (records.erase key) sweep swept := by
  refine h.shrink fun key' nf hnf => ?_
  exact (Keyed.Map.of_lookup_erase hnf).2

theorem insert (h : Sweeping live records sweep swept)
    (hheeds : ∀ x, sweep = some x → ∀ listed, x.listed.lookup key = some listed → listed ∉ x.live →
      listed = nf) : Sweeping live (records.insert key nf) sweep swept where
  knows := h.knows
  listed x hx key' listed hlisted hstale nf' hnf' := by
    obtain ⟨rfl, rfl⟩ | ⟨-, hnf'⟩ := Keyed.Map.of_lookup_insert hnf'
    · exact (hheeds x hx listed hlisted hstale).symm
    · exact h.listed x hx key' listed hlisted hstale nf' hnf'
  spared := h.spared

/-- The entries that a sweep lists are those that there are. -/
theorem list (h : Sweeping live records sweep swept) {x : Sweep} (hx : sweep = some x) (phase : SweepPhase)
    (p : RecordKey → Bool) :
    Sweeping live records (some { x with phase, listed := records.retainKeys p }) swept where
  knows y hy := by
    cases hy
    exact h.knows x hx
  listed y hy key nf hnf _ nf' hnf' := by
    cases hy
    rw [Keyed.Map.lookup_retainKeys] at hnf
    split at hnf
    · exact Option.mem_unique hnf' hnf
    · cases hnf
  spared := h.spared

/-- An entry is done with. -/
theorem next (h : Sweeping live records sweep swept) {x : Sweep} (hx : sweep = some x) (key : RecordKey) :
    Sweeping live records (some { x with listed := x.listed.erase key }) swept where
  knows y hy := by
    cases hy
    exact h.knows x hx
  listed y hy key' nf hnf := by
    cases hy
    exact h.listed x hx key' nf (Keyed.Map.of_lookup_erase hnf).2
  spared := h.spared

end Sweeping

/-! ### The invariant -/

namespace World

variable {w : World} {amf supi : String} {k : AmfUeId}

/-- The AMF that serves a SUPI. -/
def servedBy (w : World) (s : String) : Option String := (w.serving s).map Prod.fst

structure Kept (w : World) : Prop where
  recorded : Recorded w.servedBy w.records w.flight
  subscribed : Subscribed w.servedBy w.sdmSubs w.sdm w.flight
  sweeping : Sweeping w.live w.records w.sweep w.swept
  context : ∀ s k, w.serving s = some k → w.contexts k = some s
  alive : ∀ s amf, w.servedBy s = some amf → amf ∈ w.live

theorem Started.kept (h : w.Started) : w.Kept := by
  have hnone : ∀ s, w.servedBy s = none := fun s => by rw [servedBy, h.serving, Option.map_none]
  have hcount : ∀ amf s, count w.sdmSubs w.flight amf s = 0 := fun amf s => by
    rw [count, h.sdmSubs, h.flight]
    rfl
  refine ⟨?_, ⟨?_, ?_, ?_, ?_, ?_, ?_⟩, ⟨?_, ?_, ?_⟩, ?_, ?_⟩
  · intro s
    rw [h.flight, h.records, hnone]
    rfl
  · intro amf s
    rw [hcount]
    exact Nat.zero_le 1
  · intro s amf hs
    cases (hnone s).symm.trans hs
  · intro s _ amf
    exact hcount amf s
  · intro amf s id hheld
    exact absurd hheld (Subscribed.not_held (hcount amf s))
  · intro amf s id hin
    rw [h.sdm] at hin
    cases hin
  · intro s
    rw [h.sdm]
    exact List.nodup_nil
  · intro x hx
    cases h.sweep.symm.trans hx
  · intro x hx
    cases h.sweep.symm.trans hx
  · intro entry hin
    rw [h.swept] at hin
    cases hin
  · intro s k hs
    cases (h.serving s).symm.trans hs
  · intro s amf hs
    cases (hnone s).symm.trans hs

/-- A context goes, or becomes another's, that serves nobody. -/
theorem Kept.assign (h : w.Kept) (hheeds : ∀ s, w.serving s ≠ some (amf, k)) (o : Option String) :
    (w.assign amf k o).Kept := by
  have hserving : (w.assign amf k o).serving = w.serving := funext fun s => if_neg (hheeds s)
  have hserved : (w.assign amf k o).servedBy = w.servedBy := by
    unfold servedBy
    rw [hserving]
  refine ⟨hserved ▸ h.recorded, hserved ▸ h.subscribed, h.sweeping, fun s k' hs => ?_, hserved ▸ h.alive⟩
  rw [hserving] at hs
  refine (Function.update_of_ne ?_ ..).trans (h.context s k' hs)
  rintro rfl
  exact hheeds s hs

theorem Kept.registrationComplete (h : w.Kept) (hheeds : Heeds w (.registrationComplete amf k)) :
    (w.registrationComplete amf k).Kept := by
  unfold World.registrationComplete
  cases hctx : w.contexts (amf, k) with
  | none => exact h
  | some supi =>
    obtain ⟨hlive, hcount⟩ := hheeds supi hctx
    have hserved : (fun s => (Function.update w.serving supi (some (amf, k)) s).map Prod.fst) =
        Function.update w.servedBy supi (some amf) := by
      funext s
      simp only [Function.update_apply, servedBy]
      split <;> rfl
    have hrecorded := h.recorded.complete amf supi
    have hsubscribed := h.subscribed.complete hcount
    rw [← hserved] at hrecorded hsubscribed
    refine ⟨hrecorded, hsubscribed, h.sweeping, fun s k' hs => ?_, fun s a hs => ?_⟩
    · obtain ⟨rfl, rfl⟩ | ⟨-, hs⟩ := Keyed.of_update_some hs
      · exact hctx
      · exact h.context s k' hs
    · have hs := (congrFun hserved s).symm.trans hs
      obtain ⟨-, rfl⟩ | ⟨-, hs⟩ := Keyed.of_update_some hs
      · exact hlive
      · exact h.alive s a hs

/-- Who is not served leaves: the purge finds nothing. -/
theorem Kept.leave (h : w.Kept) (amf : String) (hserving : w.serving supi = none) :
    (w.leave amf supi).Kept := by
  have hserved : w.servedBy supi = none := by rw [servedBy, hserving, Option.map_none]
  have hsub : w.sdmSubs (amf, supi) = none := by
    have hzero := (Nat.add_eq_zero_iff.mp (h.subscribed.unwanted supi hserved amf)).1
    exact Option.toList_eq_nil_iff.mp (List.eq_nil_of_length_eq_zero hzero)
  have hsame : Function.update w.servedBy supi none = w.servedBy := by rw [← hserved, Function.update_eq_self]
  have hrecorded := h.recorded.purge supi
  rw [hsame] at hrecorded
  unfold World.leave
  rw [hsub]
  exact ⟨hrecorded, h.subscribed.purge, h.sweeping, h.context, h.alive⟩

/-- The context that serves a SUPI leaves, and with it the one subscription. -/
theorem Kept.leaveServed (h : w.Kept) (hserving : w.serving supi = some (amf, k))
    (hasks : w.flight.countP (Task.asks amf supi) = 0)
    (hothers : ∀ amf', amf' ≠ amf → w.subscriptions amf' supi = 0) :
    ((w.assign amf k none).leave amf supi).Kept := by
  have hserved : w.servedBy supi = some amf := by rw [servedBy, hserving, Option.map_some]
  obtain ⟨id, hid⟩ : ∃ id, w.sdmSubs (amf, supi) = some id := by
    have hone := h.subscribed.wanted supi amf hserved
    rw [count, hasks] at hone
    cases hsub : w.sdmSubs (amf, supi) with
    | none =>
      rw [hsub] at hone
      cases hone
    | some id => exact ⟨id, rfl⟩
  have hserved' : (w.assign amf k none).servedBy = Function.update w.servedBy supi none := by
    funext s
    rw [servedBy, World.assign, Function.update_apply]
    dsimp only
    by_cases hs : s = supi
    · rw [if_pos hs, hs, if_pos hserving, Option.map_none]
    · have hnot : w.serving s ≠ some (amf, k) := fun heq =>
        hs (Option.some_inj.mp ((h.context s _ heq).symm.trans (h.context supi _ hserving)))
      rw [if_neg hs, if_neg hnot, servedBy]
  have hunsubscribed : Recorded w.servedBy w.records (w.flight ++ [.sdmUnsubscribe supi id]) :=
    h.recorded.add rfl
  have hrecorded := hunsubscribed.purge supi
  have hsubscribed := h.subscribed.leave hid hasks hothers
  rw [List.append_assoc, List.singleton_append] at hrecorded
  rw [← hserved'] at hsubscribed hrecorded
  unfold World.leave
  rw [show (w.assign amf k none).sdmSubs (amf, supi) = some id from hid]
  refine ⟨hrecorded, hsubscribed, h.sweeping, fun s k' hs => ?_, fun s a hs => ?_⟩
  · have hs : (if w.serving s = some (amf, k) then none else w.serving s) = some k' := hs
    split at hs
    · cases hs
    · rename_i hnot
      refine (Function.update_of_ne ?_ ..).trans (h.context s k' hs)
      rintro rfl
      exact hnot hs
  · exact h.alive s a (Keyed.of_update_none ((congrFun hserved' s).symm.trans hs)).2

theorem Kept.deregister (h : w.Kept) (hheeds : Heeds w (.deregister amf k)) : (w.deregister amf k).Kept := by
  unfold World.deregister
  cases hctx : w.contexts (amf, k) with
  | none => exact h
  | some supi =>
    cases hserving : w.serving supi with
    | none =>
      have hnot : ∀ s, w.serving s ≠ some (amf, k) := fun s heq => by
        rw [← Option.some_inj.mp ((h.context s _ heq).symm.trans hctx), heq] at hserving
        cases hserving
      exact (h.assign hnot none).leave amf ((if_neg (hnot supi)).trans hserving)
    | some context =>
      obtain ⟨rfl, hasks, hothers⟩ := hheeds supi hctx context hserving
      exact h.leaveServed hserving hasks hothers

theorem Kept.move (h : w.Kept) (amf : String) (k k' : AmfUeId) : (w.move amf k k').Kept := by
  unfold World.move
  cases hctx : w.contexts (amf, k) with
  | none => exact h
  | some supi =>
    cases hfree : w.contexts (amf, k') with
    | some _ => exact h
    | none =>
      have hserved : (fun s => (if w.serving s = some (amf, k) then some (amf, k') else w.serving s).map
          Prod.fst) = w.servedBy := by
        funext s
        rw [servedBy]
        split
        · rename_i heq
          rw [heq]
          rfl
        · rfl
      have hrecorded := h.recorded
      have hsubscribed := h.subscribed
      have halive := h.alive
      rw [← hserved] at hrecorded hsubscribed halive
      refine ⟨hrecorded, hsubscribed, h.sweeping, fun s c hs => ?_, halive⟩
      dsimp only at hs ⊢
      split at hs
      · rename_i heq
        cases hs
        rw [Function.update_self, ← hctx, h.context s _ heq]
      · rename_i hnot
        have hne : c ≠ (amf, k') := by
          rintro rfl
          cases hfree.symm.trans (h.context s _ hs)
        have hne' : c ≠ (amf, k) := by
          rintro rfl
          exact hnot hs
        rw [Function.update_of_ne hne, Function.update_of_ne hne', h.context s c hs]

theorem Kept.deliver (h : w.Kept) {task : Task} (hheeds : Heeds w (.deliver task)) : (w.deliver task).Kept := by
  unfold World.deliver
  split
  · rename_i hin
    obtain ⟨hfirst, hrest⟩ := hheeds
    cases task with
    | uecmRegister a s =>
      refine ⟨h.recorded.deliver hin hfirst fun s' => ?_, h.subscribed.arrive (fun _ _ => rfl) (by simp),
        h.sweeping.insert hrest, h.context, h.alive⟩
      simp [World.receive, Task.writes, Keyed.Map.lookup_insert_eq]
    | uecmPurge s =>
      refine ⟨h.recorded.deliver hin hfirst fun s' => ?_, h.subscribed.arrive (fun _ _ => rfl) (by simp),
        h.sweeping.erase _, h.context, h.alive⟩
      simp [World.receive, Task.writes, Keyed.Map.lookup_erase_eq]
    | sdmSubscribe a s =>
      exact ⟨(h.recorded.deliver hin hfirst fun _ => rfl).add rfl,
        h.subscribed.deliver_subscribe hin hrest.1 hrest.2, h.sweeping, h.context, h.alive⟩
    | sdmSubscribed a s id =>
      exact ⟨h.recorded.deliver hin hfirst fun _ => rfl, h.subscribed.deliver_subscribed hin, h.sweeping,
        h.context, h.alive⟩
    | sdmUnsubscribe s id =>
      exact ⟨h.recorded.deliver hin hfirst fun _ => rfl, h.subscribed.deliver_unsubscribe hin, h.sweeping,
        h.context, h.alive⟩
  · exact h

theorem Kept.withdraw (h : w.Kept) (hheeds : Heeds w (.withdraw supi)) : (w.step (.withdraw supi)).Kept := by
  have hleft : ∀ key nf, (w.records.retainKeys fun key => key.supi != supi).lookup key = some nf →
      w.records.lookup key = some nf := by
    intro key nf hnf
    rw [Keyed.Map.lookup_retainKeys] at hnf
    split at hnf
    · exact hnf
    · cases hnf
  refine ⟨h.recorded.of_records fun s hs => ?_, h.subscribed, h.sweeping.shrink hleft, h.context, h.alive⟩
  refine (Keyed.Map.lookup_retainKeys ..).trans ?_
  split
  · exact hs
  · rename_i hgone
    obtain rfl : s = supi := by simpa [RecordKey.supi] using hgone
    rw [servedBy, show w.serving s = none from hheeds, Option.map_none]

theorem Kept.putSmf (h : w.Kept) {psi : UInt8} {smf : String} (hheeds : Heeds w (.putSmf supi psi smf)) :
    (w.step (.putSmf supi psi smf)).Kept := by
  refine ⟨h.recorded.of_records fun s hs => ?_, h.subscribed, h.sweeping.insert hheeds, h.context, h.alive⟩
  exact ((Keyed.Map.lookup_insert_eq ..).trans (if_neg (by simp))).trans hs

theorem Kept.deleteSmf (h : w.Kept) (supi : String) (psi : UInt8) : (w.step (.deleteSmf supi psi)).Kept := by
  refine ⟨h.recorded.of_records fun s hs => ?_, h.subscribed, h.sweeping.erase _, h.context, h.alive⟩
  exact ((Keyed.Map.lookup_erase_eq ..).trans (if_neg (by simp))).trans hs

theorem Kept.nrf (h : w.Kept) {live : List String} (hheeds : Heeds w (.nrf live)) :
    (w.step (.nrf live)).Kept := by
  refine ⟨h.recorded, h.subscribed, ⟨hheeds.2, h.sweeping.listed, h.sweeping.spared⟩, h.context,
    fun s amf hs => ?_⟩
  obtain ⟨⟨_, k⟩, hserving, rfl⟩ := Option.map_eq_some_iff.mp hs
  exact hheeds.1 s _ k hserving

theorem Kept.sweepStep (h : w.Kept) : w.sweepStep.Kept := by
  have hsweeping : Sweeping w.live w.records w.sweepStep.sweep w.swept := by
    unfold World.sweepStep
    cases hsweep : w.sweep with
    | none =>
      refine ⟨fun x hx => ?_, fun x hx key nf hnf => ?_, h.sweeping.spared⟩
      · cases hx
        exact fun nf hnf => hnf
      · cases hx
        cases hnf
    | some sweep =>
      dsimp only
      split
      · cases sweep.phase with
        | asked => exact h.sweeping.list hsweep .amf RecordKey.isAmf
        | amf => exact h.sweeping.list hsweep .smf fun key => !key.isAmf
        | smf => exact ⟨nofun, nofun, h.sweeping.spared⟩
      · exact hsweep ▸ h.sweeping
  have hsame : w.sweepStep = { w with sweep := w.sweepStep.sweep } := by
    unfold World.sweepStep
    split
    · rfl
    · split <;> rfl
  rw [hsame]
  exact ⟨h.recorded, h.subscribed, hsweeping, h.context, h.alive⟩

/-- A registration goes that names an NF which is not alive. -/
theorem Kept.evict (h : w.Kept) {key : RecordKey} (hdead : ∀ nf, w.records.lookup key = some nf → nf ∉ w.live) :
    (w.evict key).Kept := by
  unfold World.evict
  cases hnf : w.records.lookup key with
  | none => exact h
  | some nf =>
    have hnot := hdead nf hnf
    obtain ⟨hknows, hlisted, hspared⟩ := h.sweeping.erase key
    refine ⟨h.recorded.evict hnf fun s hs => hnot (h.alive s nf hs), h.subscribed,
      ⟨hknows, hlisted, fun entry hin => ?_⟩, h.context, h.alive⟩
    rcases List.mem_append.mp hin with hin | hin
    · exact hspared entry hin
    · rw [List.mem_singleton.mp hin]
      simpa using hnot

/-- The entry is done with. -/
theorem Kept.next (h : w.Kept) {sweep : Sweep} (hsweep : w.sweep = some sweep) (key : RecordKey) :
    Kept { w with sweep := some { sweep with listed := sweep.listed.erase key } } :=
  ⟨h.recorded, h.subscribed, h.sweeping.next hsweep key, h.context, h.alive⟩

theorem Kept.sweepEntry (h : w.Kept) (key : RecordKey) : (w.sweepEntry key).Kept := by
  unfold World.sweepEntry
  cases hsweep : w.sweep with
  | none => exact h
  | some sweep =>
    dsimp only
    cases hnf : sweep.listed.lookup key with
    | none => exact h
    | some nf =>
      by_cases hknown : sweep.live.contains nf
      · simp only [if_pos hknown]
        exact h.next hsweep key
      · simp only [if_neg hknown]
        have hstale : nf ∉ sweep.live := by simpa using hknown
        -- what is there is what was listed, and the NF has not come up since
        have hdead : ∀ nf', w.records.lookup key = some nf' → nf' ∉ w.live := fun nf' hnf' hlive => by
          rw [h.sweeping.listed sweep hsweep key nf hnf hstale nf' hnf'] at hlive
          exact hstale (h.sweeping.knows sweep hsweep nf hlive)
        have hsame : (w.evict key).sweep = some sweep := by
          unfold World.evict
          split <;> exact hsweep
        exact (h.evict hdead).next hsame key

/-- One event. -/
theorem Kept.step (h : w.Kept) (e : Event) (hheeds : Heeds w e) : (w.step e).Kept := by
  cases e with
  | identify amf k supi => exact h.assign hheeds (some supi)
  | registrationComplete amf k => exact h.registrationComplete hheeds
  | deregister amf k => exact h.deregister hheeds
  | move amf k k' => exact h.move amf k k'
  | drop amf k => exact h.assign hheeds none
  | deliver task => exact h.deliver hheeds
  | withdraw supi => exact h.withdraw hheeds
  | putSmf supi psi smf => exact h.putSmf hheeds
  | deleteSmf supi psi => exact h.deleteSmf supi psi
  | nrf live => exact h.nrf hheeds
  | sweepStep => exact h.sweepStep
  | sweepEntry key => exact h.sweepEntry key

theorem Kept.agrees (h : w.Kept) : Agrees w := by
  have hrecord : w.flight = [] → ∀ s, w.records.lookup (.amf3gppAccess s) = w.servedBy s := by
    intro hquiet s
    rw [← h.recorded s, hquiet]
    rfl
  refine ⟨fun s amf k hserving hquiet => ⟨?_, ?_⟩, fun s hserving hquiet => ?_, h.sweeping.spared⟩
  · rw [hrecord hquiet, servedBy, hserving, Option.map_some]
  · have hserved : w.servedBy s = some amf := by rw [servedBy, hserving, Option.map_some]
    have hone := h.subscribed.wanted s amf hserved
    rw [count, hquiet, List.countP_nil, Nat.add_zero] at hone
    obtain ⟨id, hid⟩ : ∃ id, w.sdmSubs (amf, s) = some id := by
      cases hsub : w.sdmSubs (amf, s) with
      | none =>
        rw [hsub] at hone
        cases hone
      | some id => exact ⟨id, rfl⟩
    refine ⟨id, hid, List.perm_singleton.mp ?_⟩
    have hnodup := (h.subscribed.nodup s).of_map _
    refine (List.perm_ext_iff_of_nodup (hnodup.filter _) (List.nodup_singleton _)).mpr fun sub => ?_
    rw [List.mem_filter, List.mem_singleton]
    constructor
    · rintro ⟨hin, hcallback⟩
      obtain ⟨id', _⟩ := sub
      cases beq_iff_eq.mp hcallback
      rcases h.subscribed.left _ s id' hin with (hheld | hheld) | hleft
      · rw [Option.mem_unique hheld hid]
      · rw [hquiet] at hheld
        cases hheld
      · rw [hquiet] at hleft
        cases hleft
    · rintro rfl
      exact ⟨(h.subscribed.there amf s id (.inl hid)).1, beq_self_eq_true amf⟩
  · have hserved : w.servedBy s = none := by rw [servedBy, hserving, Option.map_none]
    have hnone := h.subscribed.unwanted s hserved
    refine ⟨(hrecord hquiet s).trans hserved, List.eq_nil_iff_forall_not_mem.mpr fun sub hin => ?_,
      fun amf => ?_⟩
    · rcases h.subscribed.left sub.callback s sub.id hin with hheld | hleft
      · exact Subscribed.not_held (hnone sub.callback) hheld
      · rw [hquiet] at hleft
        cases hleft
    · exact Option.toList_eq_nil_iff.mp (List.eq_nil_of_length_eq_zero (Nat.add_eq_zero_iff.mp (hnone amf)).1)

end World

/-! ### The handlers -/

section Handlers

open Amf (Association Tables Mark Call Job UeContext)

variable {F : Amf.Functions} {amfUeId : AmfUeId} {c : UeContext} {supi : String}
variable {X : Type} {O : Outside Association Tables Mark Call Call.Answer X}
variable {allow : Mark → Association → Tables → X → Prop} {l : Association} {t : Tables} {x : X}

/-- The requests to the UDM among the jobs of an AMF. -/
def requests (t : Tables) : List Job :=
  t.jobs.filter fun
    | .uecmRegister _ | .uecmPurge _ | .sdmSubscribe _ | .sdmUnsubscribe .. => true
    | _ => false

/-- The AMF has taken back what it has at the UDM. -/
structure Left (supi : String) (t t' : Tables) : Prop where
  sdmSubs : t'.sdmSubs = t.sdmSubs.erase supi
  requests : requests t' =
    requests t ++ (t.sdmSubs.lookup supi).toList.map (.sdmUnsubscribe supi) ++ [.uecmPurge supi]

theorem before_onRegistrationComplete (hc : l.ues.lookup amfUeId = some c) (hsuci : c.suci = some supi) :
    Proc.before O allow (Amf.onRegistrationComplete F amfUeId)
      (fun _ _ t' _ => t'.sdmSubs = t.sdmSubs ∧
        requests t' = requests t ++ [.uecmRegister supi, .sdmSubscribe supi]) l t x := by
  simp only [Amf.onRegistrationComplete, Amf.getUe, Amf.modifyUe, Amf.spawnFor, Proc.wp_bind, Proc.wp_look, hc,
    hsuci, Proc.wp_mark, Proc.sequentially_note, Proc.wp_changeLocal, Proc.wp_change]
  intro _ _ _
  cases c.sec with
  | none => exact ⟨rfl, by simp [requests, Tables.push]⟩
  | some sec => exact ⟨rfl, by simp [requests, Tables.push]⟩

/-- `spawn_sdm_unsubscribe` and `spawn_uecm_purge`, and what comes after them. -/
theorem before_leave {α : Type} {rest : Amf.AmfM α} {Q : α → Association → Tables → X → Prop}
    (hrest : ∀ t' x', Left supi t t' → Proc.before O allow rest Q l t' x') :
    Proc.before O allow (do
        Amf.spawnSdmUnsubscribe amfUeId supi
        Amf.spawnFor amfUeId (.uecmPurge supi)
        rest) Q l t x := by
  simp only [Amf.spawnSdmUnsubscribe, Amf.spawnFor, Proc.wp_bind, Proc.wp_actShared]
  cases hheld : t.sdmSubs.lookup supi with
  | none =>
    simp only [Proc.wp_pure, Proc.wp_bind, Proc.wp_mark, Proc.sequentially_note, Proc.wp_change]
    refine fun _ => hrest _ _ ⟨rfl, ?_⟩
    rw [hheld]
    simp [requests, Tables.push]
  | some subId =>
    simp only [Proc.wp_bind, Proc.wp_mark, Proc.sequentially_note, Proc.wp_change]
    refine fun _ _ => hrest _ _ ⟨rfl, ?_⟩
    rw [hheld]
    simp [requests, Tables.push]

theorem before_dropRegistration (hsuci : c.suci = some supi) (forget : Bool) :
    Proc.before O allow (Amf.dropRegistration amfUeId c forget)
      (fun _ l' t' _ => l' = l.erase amfUeId ∧ Left supi t t') l t x := by
  simp only [Amf.dropRegistration, hsuci]
  rw [Proc.before, Proc.wp_bind, Proc.wp_change]
  cases forget with
  | true => exact before_leave fun _ _ hleft => ⟨rfl, ⟨hleft.sdmSubs, hleft.requests⟩⟩
  | false => exact before_leave fun _ _ hleft => ⟨rfl, ⟨hleft.sdmSubs, hleft.requests⟩⟩

theorem before_implicitDeregister (hc : l.ues.lookup amfUeId = some c) (hsuci : c.suci = some supi) :
    Proc.before O allow (Amf.implicitDeregister amfUeId)
      (fun _ l' t' _ => l' = l.erase amfUeId ∧ Left supi t t') l t x := by
  rw [Amf.implicitDeregister, Proc.before, Proc.wp_bind, Amf.getUe, Proc.wp_look, hc]
  simp only [hsuci]
  rw [Proc.wp_bind, Proc.wp_change]
  refine before_leave fun t' _ hleft => ?_
  cases c.amPolicy with
  | none => exact ⟨rfl, ⟨hleft.sdmSubs, hleft.requests⟩⟩
  | some assoc =>
    simp only [Amf.spawnAmPolicyDelete, Amf.spawnFor, Proc.wp_bind, Proc.wp_mark, Proc.sequentially_note,
      Proc.wp_change]
    refine fun _ => ⟨rfl, hleft.sdmSubs, ?_⟩
    refine Eq.trans ?_ hleft.requests
    simp [requests, Tables.push]

end Handlers

/-! ### Runs -/

/-- **Who serves is known.** In every run whose events heed the side condition, UDM and UDR agree with the AMFs
on who serves a subscriber whenever no request is in flight, and the sweep removes no registration of an NF
that is alive. -/
theorem known {w : World} (h : w.Started) (es : List Event)
    (hheeds : Runs.Along World.step Heeds w es) : Agrees (Runs.run World.step w es) :=
  (Runs.invariant_along (fun _ e hheeds hkept => World.Kept.step hkept e hheeds) hheeds h.kept).agrees

/-! ### Runs that agree and runs that do not -/

def subscriber : String := "imsi-999700000000001"

/-- A subscriber registers at an AMF, and its requests are answered. -/
def registered : List Event :=
  [.nrf ["amf-1", "amf-2"], .identify "amf-1" 1 subscriber, .identify "amf-2" 7 subscriber,
    .registrationComplete "amf-1" 1, .deliver (.uecmRegister "amf-1" subscriber),
    .deliver (.sdmSubscribe "amf-1" subscriber), .deliver (.sdmSubscribed "amf-1" subscriber 0)]

/-- It deregisters there and registers at another; its requests come in the order they were made. -/
def movesOn : List Event :=
  registered ++ [.deregister "amf-1" 1, .registrationComplete "amf-2" 7, .deliver (.uecmPurge subscriber),
    .deliver (.uecmRegister "amf-2" subscriber), .deliver (.sdmUnsubscribe subscriber 0), .sweepStep]

/-- The purge comes last. -/
def overtakes : List Event :=
  registered ++ [.deregister "amf-1" 1, .registrationComplete "amf-2" 7,
    .deliver (.uecmRegister "amf-2" subscriber), .deliver (.uecmPurge subscriber),
    .deliver (.sdmUnsubscribe subscriber 0), .deliver (.sdmSubscribe "amf-2" subscriber),
    .deliver (.sdmSubscribed "amf-2" subscriber 1)]

theorem started_empty : ({} : World).Started where
  contexts _ := rfl
  sdmSubs _ := rfl
  sdm := rfl
  records := rfl
  flight := rfl
  sweep := rfl
  serving _ := rfl
  swept := rfl

theorem known_sample : Agrees (Runs.run World.step {} movesOn) := by
  have hnobody : ∀ s, World.serving ((({} : World).step (.nrf ["amf-1", "amf-2"])).step
      (.identify "amf-1" 1 subscriber)) s = none := fun s => by simp [World.step, World.assign]
  refine known started_empty movesOn ⟨⟨nofun, nofun⟩, nofun, fun s hs => ?_, fun s hs => ?_,
    ⟨by decide +kernel, nofun⟩, ⟨by decide +kernel, by decide +kernel, by decide +kernel⟩,
    ⟨by decide +kernel, trivial⟩, fun s hs => ?_, fun s hs => ?_, ⟨by decide +kernel, trivial⟩,
    ⟨by decide +kernel, nofun⟩, ⟨by decide +kernel, trivial⟩, trivial, trivial⟩
  · cases (hnobody s).symm.trans hs
  · have hs : subscriber = s := Option.some_inj.mp hs
    subst hs
    exact ⟨by decide +kernel, by decide +kernel⟩
  · have hs : subscriber = s := Option.some_inj.mp hs
    subst hs
    intro serving hserving
    have hserving : ("amf-1", 1) = serving := Option.some_inj.mp hserving
    subst hserving
    refine ⟨rfl, by decide +kernel, fun amf' hne => ?_⟩
    have hflight : (Runs.run World.step {} registered).flight = [] := by decide +kernel
    have hnone : (Runs.run World.step {} registered).sdmSubs (amf', subscriber) = none :=
      Function.update_of_ne (fun heq => hne (Prod.mk.inj heq).1) ..
    change World.subscriptions (Runs.run World.step {} registered) amf' subscriber = 0
    rw [World.subscriptions, hflight, hnone]
    rfl
  · have hs : subscriber = s := Option.some_inj.mp hs
    subst hs
    exact ⟨by decide +kernel, by decide +kernel⟩

/-- **A registration that is purged.** The purge of the old registration arrives after the new one. -/
theorem not_known : ¬ ∀ es : List Event, Agrees (Runs.run World.step {} es) := by
  intro h
  let w := Runs.run World.step {} overtakes
  have hserving : w.serving subscriber = some ("amf-2", 7) := by decide +kernel
  have hquiet : w.flight = [] := by decide +kernel
  have hrecord : w.records.lookup (.amf3gppAccess subscriber) = none := by decide +kernel
  obtain ⟨hnamed, _⟩ := (h overtakes).served subscriber "amf-2" 7 hserving hquiet
  cases hrecord.symm.trans hnamed

end Radian.Udm
