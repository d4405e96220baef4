import Radian.Mobility.Flights
import Mathlib.Data.List.Perm.Basic

/-!
# Custody of contexts

Where the context of a UE is, while gNB associations hand it to each other: with one association,
among the retained, or in a reply on its way.

- `UeContext.idle`, `releaseUeContext`, `resumeUe` — the ways into the retained store and out of it.
- `Duty`, `custodySystem` — all that goes on with contexts, on any number of tasks.
- `live`, `dormant`, `undelivered` — what the history says there must be, and which replies are on
  their way.
- `Custody` — every context is in exactly one place, and nobody hands one over in vain.
- `Careful` — the side condition.
- `Held` — the invariant, and what each section makes of it.
-/

namespace Radian

/-! ### Idle contexts -/

/-- The context of a UE whose N2 connection is released. -/
def Amf.UeContext.idle (now : Amf.Instant) (c : Amf.UeContext) : Amf.UeContext :=
  { c with cmState := .Idle, retainedAt := some now }

namespace Mobility

open Amf (AmfUeId Tmsi Channel UeContext Association Tables)
open Security (Bytes)

def removeUe (amfUeId : AmfUeId) : MobilityM Unit :=
  Proc.changeLocal (Association.erase amfUeId)

/-- The next AMF-UE-NGAP-ID. -/
def nextAmfUeId : MobilityM AmfUeId :=
  Proc.actShared fun s =>
    (s.tables.nextAmfUeId,
      { s with tables := { s.tables with nextAmfUeId := s.tables.nextAmfUeId + 1 } })

/-- The SBI callbacks do not reach the UE any more. -/
def unaddress (c : UeContext) : MobilityM Unit :=
  match c.suci with
  | some supi => Proc.change fun s => { s with tables := s.tables.unaddressed supi }
  | none => pure ()

/-- A context goes idle: it is retained by its 5G-TMSI, or dropped when it has none. -/
def retainUe (amfUeId : AmfUeId) (c : UeContext) : MobilityM Unit := do
  unaddress c
  match c.gutiTmsi with
  | some tmsi =>
      Proc.mark (.idling amfUeId tmsi)
      removeUe amfUeId
      Proc.change fun s =>
        { s with tables :=
            { s.tables with retained := s.tables.retained.insert tmsi (c.idle s.tables.clock) } }
  | none =>
      Proc.mark (.leaving amfUeId)
      removeUe amfUeId

/-- AN release: deactivate the user planes, then retain the context. -/
def releaseUeContext (amfUeId : AmfUeId) : MobilityM Unit := do
  match ← getUe amfUeId with
  | none => pure ()
  | some c =>
      Proc.forEach (fun (session : Sigma fun _ : UInt8 => SmContext) => do
        let _ ← Proc.ask (Call.deactivateUp session.2.2 session.2.1)) c.smRefs.entries
      match ← getUe amfUeId with
      | none => pure ()
      | some c => retainUe amfUeId c

/-- Take a retained context. -/
def takeRetained (tmsi : Tmsi) : MobilityM (Option UeContext) :=
  Proc.actShared fun s =>
    (s.tables.retained.lookup tmsi,
      { s with tables := { s.tables with retained := s.tables.retained.erase tmsi } })

/-- A UE comes back from idle: its context, as it has become, goes under a new id once the SMFs have
released the sessions that are given up. -/
def resumeUe (tmsi : Tmsi) (givenUp : List SmContext) (become : UeContext → UeContext) :
    MobilityM Unit := do
  match ← takeRetained tmsi with
  | none => pure ()
  | some c =>
      Proc.mark (.resuming tmsi)
      let amfUeId ← nextAmfUeId
      Proc.forEach (fun session => do
        Proc.mark (.inHand tmsi)
        let _ ← Proc.ask (Call.releaseSmContext session.2 session.1)) givenUp
      Proc.mark (.arriving amfUeId)
      insertUe amfUeId (become c)

/-! ### The system -/

/-- What a task does.  The handlers that have no part in mobility are here by what they make of a
context: they register one, revise it, deregister it, release it to the retained ones, take it back
or discard it there; and the tables are theirs, but for the retained contexts and the ids. -/
inductive Duty where
  | request (r : Request)
  | register (c : UeContext)
  | revise (amfUeId : AmfUeId) (c : UeContext)
  | deregister (amfUeId : AmfUeId)
  /-- The association is lost, and its contexts are torn down. -/
  | tearDown
  | release (amfUeId : AmfUeId)
  | resume (tmsi : Tmsi) (givenUp : List SmContext) (c : UeContext)
  /-- A retained context is changed where it is. -/
  | amend (tmsi : Tmsi) (c : UeContext)
  | discard (tmsi : Tmsi)
  | administer (tables : Tables)
  deriving DecidableEq

def registerUe (c : UeContext) : MobilityM Unit := do
  let amfUeId ← nextAmfUeId
  Proc.mark (.arriving amfUeId)
  insertUe amfUeId c

def deregisterUe (amfUeId : AmfUeId) : MobilityM Unit := do
  match ← getUe amfUeId with
  | none => pure ()
  | some _ =>
      Proc.mark (.leaving amfUeId)
      removeUe amfUeId

def discardRetained (tmsi : Tmsi) : MobilityM Unit := do
  match ← takeRetained tmsi with
  | none => pure ()
  | some _ => Proc.mark (.resuming tmsi)

def Duty.body (nh : Bytes → Bytes → Bytes) : Duty → MobilityM Unit
  | .request r => handle nh r
  | .register c => registerUe c
  | .revise amfUeId c => modifyUe amfUeId fun _ => c
  | .deregister amfUeId => deregisterUe amfUeId
  | .tearDown => do
      let ids ← Proc.look fun l _ => l.ues.keys
      Proc.forEach deregisterUe ids
  | .release amfUeId => releaseUeContext amfUeId
  | .resume tmsi givenUp c => resumeUe tmsi givenUp fun _ => c
  | .amend tmsi c =>
      Proc.change fun s =>
        { s with tables := { s.tables with retained := s.tables.retained.modify tmsi fun _ => c } }
  | .discard tmsi => discardRetained tmsi
  | .administer tables =>
      Proc.change fun s =>
        { s with tables :=
            { tables with retained := s.tables.retained, nextAmfUeId := s.tables.nextAmfUeId } }

/-- Commands are taken up in order and timers go off once armed. -/
def Duty.enabled : Duty → Association → Shared → Bool
  | .request r, l, s => Active.enabled (.request r) l s
  | _, _, _ => true

def custodySystem (nh : Bytes → Bytes → Bytes) :
    System Association Shared Mark Call Call.Answer (List Mark) Duty where
  toOutside := outside
  body := Duty.body nh
  enabled := Duty.enabled
  initial l := l.ues.keys.isEmpty

/-! ### History -/

/-- The contexts that have arrived and have neither left nor gone idle. -/
def live : List Mark → List AmfUeId
  | [] => []
  | .arriving id :: past => id :: live past
  | .leaving id :: past => (live past).erase id
  | .idling id _ :: past => (live past).erase id
  | _ :: past => live past

/-- The contexts that have gone idle and have not been taken since, by their 5G-TMSI. -/
def dormant : List Mark → List Tmsi
  | [] => []
  | .idling _ tmsi :: past => tmsi :: dormant past
  | .resuming tmsi :: past => (dormant past).erase tmsi
  | _ :: past => dormant past

/-- The replies that carry a context and have not been received, with its id.  A reply without a
receiver is dropped. -/
def undelivered : List Mark → List (Nat × AmfUeId)
  | [] => []
  | .asking r _ :: past => (undelivered past).filter fun a => a.1 != r
  | .replying r id c :: past =>
      if c.isSome = true ∧ oneshot r past = .awaited then (r, id) :: undelivered past
      else undelivered past
  | .received r _ :: past => (undelivered past).filter fun a => a.1 != r
  | .abandoning asks :: past => (undelivered past).filter fun a => !asks.contains a.1
  | _ :: past => undelivered past

/-- The replies a call waits for. -/
def Call.asks : Call → List Nat
  | .nextReply asks => asks
  | _ => []

/-- A task holds the contexts of its association, and awaits the replies it waits for. -/
def Thread.ids : Thread Association Shared Mark Call Call.Answer → List AmfUeId
  | .idle l => l.ues.keys
  | .waiting l _ _ => l.ues.keys

def Thread.asks : Thread Association Shared Mark Call Call.Answer → List Nat
  | .idle _ => []
  | .waiting _ e _ => e.asks

/-- The contexts there are outside the retained store: with the tasks, and on their way. -/
def contexts (p : HandoverPool) : List AmfUeId :=
  p.threads.flatMap Thread.ids ++ (undelivered p.world).map Prod.snd

/-- Nothing is lost: a context that has arrived and has neither left nor gone idle is in exactly one
place, and one that has gone idle is retained until it is taken; a reply that carries a context is
awaited; and nobody hands a context over in vain: neither to a request that came to nothing, nor to a
path switch that then fails. -/
structure Custody (nh : Bytes → Bytes → Bytes) (p : HandoverPool) : Prop where
  once : (contexts p).Nodup
  kept : ∀ id, id ∈ contexts p ↔ id ∈ live p.world
  retained : ∀ tmsi, (p.shared.tables.retained.lookup tmsi).isSome ↔ tmsi ∈ dormant p.world
  awaited : ∀ r id, (r, id) ∈ undelivered p.world → ∃ t ∈ p.threads, r ∈ Thread.asks t
  refused : ∀ r, .received r none ∈ p.world → ∀ id c, .replying r id (some c) ∉ p.world
  switched : ∀ id c, .switched id c ∈ p.world → (c.freshPair nh).isSome

/-! ### The side condition -/

/-- A context is handed over only while the request for it is still awaited, and what a path switch is
handed has a chain to go on from.  An id or a 5G-TMSI is not given to a context while another has it,
and no SMF is awaited with a context in hand. -/
def Careful (nh : Bytes → Bytes → Bytes) : Mark → Association → Shared → List Mark → Prop
  | .replying r _ (some _), _, _, w => oneshot r w = .awaited
  | .switched _ c, _, _, _ => (c.freshPair nh).isSome
  | .arriving id, _, _, w => id ∉ live w
  | .idling _ tmsi, _, s, _ => s.tables.retained.lookup tmsi = none
  | .inHand _, _, _, _ => False
  | _, _, _, _ => True

/-! ### The invariant -/

/-- What holds of the reply channels, for those that tasks wait for. -/
structure Channels (asks : Multiset Nat) (w : List Mark) : Prop where
  open_iff : ∀ r, oneshot r w ≠ .closed ↔ r ∈ asks
  apart : asks.Nodup
  heard : ∀ r c, .received r c ∈ w → oneshot r w = .closed ∧ ∃ id, .asking r id ∈ w
  spoken : ∀ r id c, .replying r id (some c) ∈ w →
    oneshot r w = .replied (some c) ∨ oneshot r w = .closed
  refused : ∀ r, .received r none ∈ w → ∀ id c, .replying r id (some c) ∉ w

/-- What holds, for the contexts `ids` and the replies `asks` of all tasks. -/
structure Held (nh : Bytes → Bytes → Bytes) (ids : Multiset AmfUeId) (asks : Multiset Nat)
    (s : Shared) (w : List Mark) : Prop where
  once : (live w).Nodup
  places : ids + ((undelivered w).map Prod.snd : List AmfUeId) = (live w : Multiset AmfUeId)
  distinct : (dormant w).Nodup
  retained : ∀ tmsi, (s.tables.retained.lookup tmsi).isSome ↔ tmsi ∈ dormant w
  asked : Asked 0 s w
  channels : Channels asks w
  switched : ∀ id c, .switched id c ∈ w → (c.freshPair nh).isSome

/-! ### Marks without consequence -/

/-- A mark that says something of where contexts are. -/
def Mark.ofCustody : Mark → Bool
  | .arriving _ | .leaving _ | .idling .. | .resuming _ => true
  | .asking .. | .replying .. | .received .. | .abandoning _ => true
  | .switched .. | .obtained .. => true
  | _ => false

section History

variable {n : Mark} (h : n.ofCustody = false) (w : List Mark)

include h

theorem live_cons : live (n :: w) = live w := by
  cases n <;> first | rfl | cases h

theorem dormant_cons : dormant (n :: w) = dormant w := by
  cases n <;> first | rfl | cases h

theorem undelivered_cons : undelivered (n :: w) = undelivered w := by
  cases n <;> first | rfl | cases h

theorem oneshot_cons (r : Nat) : oneshot r (n :: w) = oneshot r w := by
  cases n <;> first | rfl | cases h

end History

/-! ### Replies on their way -/

/-- What is on its way has been replied and is awaited. -/
theorem exists_undelivered {r : Nat} {w : List Mark} :
    (∃ id, (r, id) ∈ undelivered w) ↔ ∃ c, oneshot r w = .replied (some c) := by
  induction w with
  | nil => simp [undelivered, oneshot]
  | cons n w ih =>
    cases n with
    | asking r' id =>
      by_cases hr : r' = r
      · simp [undelivered, oneshot, hr]
      · simp [undelivered, oneshot, hr, Ne.symm hr, ih]
    | replying r' id c =>
      by_cases hawaited : oneshot r' w = .awaited
      · by_cases hr : r' = r
        · subst hr
          have hnone : ¬ ∃ id, (r', id) ∈ undelivered w := by simp [ih, hawaited]
          cases c with
          | none => simp_all [undelivered, oneshot]
          | some c => simp [undelivered, oneshot, hawaited]
        · cases c <;> simp [undelivered, oneshot, hawaited, hr, Ne.symm hr, ih]
      · by_cases hr : r' = r
        · subst hr
          simp [undelivered, oneshot, hawaited, ih]
        · simp [undelivered, oneshot, hawaited, hr, ih]
    | received r' c =>
      by_cases hr : r' = r
      · simp [undelivered, oneshot, hr]
      · simp [undelivered, oneshot, hr, Ne.symm hr, ih]
    | abandoning asks =>
      by_cases hr : r ∈ asks
      · simp [undelivered, oneshot, hr]
      · simp [undelivered, oneshot, hr, ih]
    | _ => exact ih

theorem nodup_undelivered (w : List Mark) : ((undelivered w).map Prod.fst).Nodup := by
  induction w with
  | nil => exact List.nodup_nil
  | cons n w ih =>
    have hfilter : ∀ p : Nat × AmfUeId → Bool, (((undelivered w).filter p).map Prod.fst).Nodup :=
      fun p => ih.sublist (List.filter_sublist.map Prod.fst)
    cases n with
    | asking r id => exact hfilter _
    | received r c => exact hfilter _
    | abandoning asks => exact hfilter _
    | replying r id c =>
      rw [undelivered]
      split
      · rename_i h
        refine List.nodup_cons.mpr ⟨fun hmem => ?_, ih⟩
        obtain ⟨a, ha, rfl⟩ := List.mem_map.mp hmem
        obtain ⟨c', hc'⟩ := exists_undelivered.mp ⟨a.2, ha⟩
        rw [h.2] at hc'
        cases hc'
      · exact ih
    | _ => exact ih

/-- A reply on its way is one of those counted. -/
theorem undelivered_perm {r : Nat} {id : AmfUeId} {us : List (Nat × AmfUeId)}
    (hnodup : (us.map Prod.fst).Nodup) (h : (r, id) ∈ us) :
    (us.map Prod.snd).Perm (id :: (us.filter fun a => a.1 != r).map Prod.snd) := by
  induction us with
  | nil => cases h
  | cons u us ih =>
    obtain ⟨hfirst, hrest⟩ := List.nodup_cons.mp hnodup
    obtain rfl | h := List.mem_cons.mp h
    · have hall : ∀ a ∈ us, (a.1 != r) = true := by
        intro a ha
        rw [bne_iff_ne]
        rintro rfl
        exact hfirst (List.mem_map.mpr ⟨a, ha, rfl⟩)
      have hkept : us.filter (fun a => a.1 != r) = us := List.filter_eq_self.mpr hall
      simp [hkept]
    · have hne : u.1 ≠ r := by
        rintro rfl
        exact hfirst (List.mem_map.mpr ⟨_, h, rfl⟩)
      rw [List.filter_cons_of_pos (by simpa using hne)]
      exact ((ih hrest h).cons _).trans (List.Perm.swap _ _ _)

/-- What is not on its way is not missed. -/
theorem undelivered_filter {w : List Mark} {p : Nat × AmfUeId → Bool}
    (h : ∀ r, (∃ c, oneshot r w = .replied (some c)) → ∀ id, p (r, id) = true) :
    (undelivered w).filter p = undelivered w := by
  refine List.filter_eq_self.mpr fun a ha => ?_
  exact h a.1 (exists_undelivered.mp ⟨a.2, ha⟩) a.2

theorem replying_of_undelivered {r : Nat} {id : AmfUeId} {w : List Mark}
    (h : (r, id) ∈ undelivered w) : ∃ c, .replying r id (some c) ∈ w := by
  induction w with
  | nil => cases h
  | cons n w ih =>
    have later : (r, id) ∈ undelivered w → ∃ c, .replying r id (some c) ∈ n :: w := fun hw =>
      (ih hw).imp fun _ hx => List.mem_cons_of_mem n hx
    cases n with
    | asking r' id' | received r' c | abandoning asks => exact later (List.mem_of_mem_filter h)
    | replying r' id' c =>
      rw [undelivered] at h
      split at h
      · rename_i hsent
        obtain h | h := List.mem_cons.mp h
        · cases h
          obtain ⟨c', rfl⟩ := Option.isSome_iff_exists.mp hsent.1
          exact ⟨c', List.mem_cons_self⟩
        · exact later h
      · exact later h
    | _ => exact later h

/-- A channel that is open has been asked on. -/
theorem asking_of_open {r : Nat} {w : List Mark} (h : oneshot r w ≠ .closed) :
    ∃ id, .asking r id ∈ w := by
  induction w with
  | nil => exact absurd rfl h
  | cons n w ih =>
    have later : oneshot r w ≠ .closed → ∃ id, .asking r id ∈ n :: w := fun hw =>
      (ih hw).imp fun _ hx => List.mem_cons_of_mem n hx
    cases n with
    | asking r' id =>
      by_cases hr : r' = r
      · exact ⟨id, hr ▸ List.mem_cons_self⟩
      · rw [oneshot, if_neg hr] at h
        exact later h
    | replying r' id c =>
      refine later fun hclosed => ?_
      rw [oneshot] at h
      split at h
      · rename_i hr
        rw [hr.2] at hclosed
        cases hclosed
      · exact h hclosed
    | received r' c | abandoning asks =>
      rw [oneshot] at h
      split at h
      · exact absurd rfl h
      · exact later h
    | _ => exact later h

/-! ### Channels -/

namespace Channels

variable {asks : Multiset Nat} {w : List Mark}

theorem note (h : Channels asks w) {n : Mark} (hn : n.ofCustody = false) :
    Channels asks (n :: w) where
  open_iff r := by
    rw [oneshot_cons hn]
    exact h.open_iff r
  apart := h.apart
  heard r c hx := by
    obtain rfl | hx := List.mem_cons.mp hx
    · cases hn
    · obtain ⟨hclosed, id, hasked⟩ := h.heard r c hx
      rw [oneshot_cons hn]
      exact ⟨hclosed, id, List.mem_cons_of_mem _ hasked⟩
  spoken r id c hx := by
    obtain rfl | hx := List.mem_cons.mp hx
    · cases hn
    · rw [oneshot_cons hn]
      exact h.spoken r id c hx
  refused r hx id c hx' := by
    obtain rfl | hx := List.mem_cons.mp hx
    · cases hn
    · obtain rfl | hx' := List.mem_cons.mp hx'
      · cases hn
      · exact h.refused r hx id c hx'

/-- A new channel. -/
theorem ask (h : Channels asks w) {r : Nat} (hnew : ∀ id, .asking r id ∉ w)
    (hunspoken : ∀ id c, .replying r id (some c) ∉ w) (id : AmfUeId) :
    Channels (r ::ₘ asks) (.asking r id :: w) := by
  have hout : r ∉ asks := by
    intro hmem
    obtain ⟨id', hasked⟩ := asking_of_open ((h.open_iff r).mpr hmem)
    exact hnew id' hasked
  have hstate : ∀ r', r' ≠ r → oneshot r' (.asking r id :: w) = oneshot r' w :=
    fun r' hne => if_neg (Ne.symm hne)
  constructor
  · intro r'
    by_cases hr : r' = r
    · subst hr
      simp [oneshot]
    · rw [hstate r' hr, h.open_iff, Multiset.mem_cons, or_iff_right hr]
  · exact Multiset.nodup_cons.mpr ⟨hout, h.apart⟩
  · intro r' c hx
    obtain ⟨hclosed, id', hasked⟩ := h.heard r' c (by simpa using hx)
    have hne : r' ≠ r := fun hr => hnew id' (hr ▸ hasked)
    rw [hstate r' hne]
    exact ⟨hclosed, id', List.mem_cons_of_mem _ hasked⟩
  · intro r' id' c hx
    have hx : .replying r' id' (some c) ∈ w := by simpa using hx
    have hne : r' ≠ r := fun hr => hunspoken id' c (hr ▸ hx)
    rw [hstate r' hne]
    exact h.spoken r' id' c hx
  · intro r' hx id' c hx'
    exact h.refused r' (by simpa using hx) id' c (by simpa using hx')

/-- A reply: with a context, only to who still awaits it. -/
theorem reply (h : Channels asks w) {r : Nat} (id : AmfUeId) {c : Option UeContext}
    (hc : c.isSome = true → oneshot r w = .awaited) :
    Channels asks (.replying r id c :: w) := by
  have hstate : ∀ r', oneshot r' w ≠ .awaited →
      oneshot r' (.replying r id c :: w) = oneshot r' w := by
    intro r' hne
    rw [oneshot, if_neg]
    rintro ⟨rfl, hawaited⟩
    exact hne hawaited
  constructor
  · intro r'
    rw [← h.open_iff r']
    by_cases hr : r = r' ∧ oneshot r' w = .awaited
    · rw [oneshot, if_pos hr, hr.2]
      simp
    · rw [oneshot, if_neg hr]
  · exact h.apart
  · intro r' c' hx
    obtain ⟨hclosed, id', hasked⟩ := h.heard r' c' (by simpa using hx)
    rw [hstate r' (by simp [hclosed])]
    exact ⟨hclosed, id', List.mem_cons_of_mem _ hasked⟩
  · intro r' id' c' hx
    obtain hx | hx := List.mem_cons.mp hx
    · cases hx
      left
      rw [oneshot, if_pos ⟨rfl, hc rfl⟩]
    · have hspoken := h.spoken r' id' c' hx
      rw [hstate r' (by obtain h' | h' := hspoken <;> simp [h'])]
      exact hspoken
  · intro r' hx id' c' hx'
    have hpast : .received r' none ∈ w := by simpa using hx
    obtain hnow | hbefore := List.mem_cons.mp hx'
    · cases hnow
      have hclosed := (h.heard _ none hpast).1
      rw [hc rfl] at hclosed
      cases hclosed
    · exact h.refused r' hpast id' c' hbefore

/-- A wait is over: with the reply if there is one. -/
theorem receive (h : Channels asks w) {r : Nat} (hr : r ∈ asks) {c : Option UeContext}
    (hc : ∀ sent, oneshot r w = .replied sent → c = sent) :
    Channels (asks.erase r) (.received r c :: w) := by
  have hopen := (h.open_iff r).mpr hr
  have hstate : ∀ r', r' ≠ r → oneshot r' (.received r c :: w) = oneshot r' w :=
    fun r' hne => if_neg (Ne.symm hne)
  have hself : oneshot r (.received r c :: w) = .closed := if_pos rfl
  constructor
  · intro r'
    by_cases hne : r' = r
    · subst hne
      simp [hself, h.apart.notMem_erase]
    · rw [hstate r' hne, h.open_iff, Multiset.mem_erase_of_ne hne]
  · exact h.apart.erase r
  · intro r' c' hx
    by_cases hne : r' = r
    · subst hne
      obtain ⟨id, hasked⟩ := asking_of_open hopen
      exact ⟨hself, id, List.mem_cons_of_mem _ hasked⟩
    · have hx : .received r' c' ∈ w := by simpa [hne] using hx
      obtain ⟨hclosed, id, hasked⟩ := h.heard r' c' hx
      rw [hstate r' hne]
      exact ⟨hclosed, id, List.mem_cons_of_mem _ hasked⟩
  · intro r' id c' hx
    have hx : .replying r' id (some c') ∈ w := by simpa using hx
    by_cases hne : r' = r
    · exact .inr (hne ▸ hself)
    · rw [hstate r' hne]
      exact h.spoken r' id c' hx
  · intro r' hx id c' hx'
    have hsent : .replying r' id (some c') ∈ w := by simpa using hx'
    obtain hnow | hbefore := List.mem_cons.mp hx
    · cases hnow
      obtain hreplied | hclosed := h.spoken _ id c' hsent
      · cases hc _ hreplied
      · exact hopen hclosed
    · exact h.refused r' hbefore id c' hsent

/-- The others are not waited for any more. -/
theorem abandon {rest : Multiset Nat} {rs : List Nat} (h : Channels (rest + rs) w) :
    Channels rest (.abandoning rs :: w) := by
  obtain ⟨hrest, -, hdisjoint⟩ := Multiset.nodup_add.mp h.apart
  have hgone : ∀ r ∈ rs, oneshot r (.abandoning rs :: w) = .closed := fun r hr => if_pos hr
  have hstate : ∀ r, r ∉ rs → oneshot r (.abandoning rs :: w) = oneshot r w :=
    fun r hr => if_neg hr
  have hclosed : ∀ r, oneshot r w = .closed → oneshot r (.abandoning rs :: w) = .closed := by
    intro r hr
    by_cases hmem : r ∈ rs
    · exact hgone r hmem
    · rw [hstate r hmem, hr]
  constructor
  · intro r
    by_cases hr : r ∈ rs
    · rw [hgone r hr]
      have hout : r ∉ rest := fun hmem => Multiset.disjoint_left.mp hdisjoint hmem hr
      simp [hout]
    · rw [hstate r hr, h.open_iff]
      simp [hr]
  · exact hrest
  · intro r c hx
    obtain ⟨hr, id, hasked⟩ := h.heard r c (by simpa using hx)
    exact ⟨hclosed r hr, id, List.mem_cons_of_mem _ hasked⟩
  · intro r id c hx
    by_cases hr : r ∈ rs
    · exact .inr (hgone r hr)
    · rw [hstate r hr]
      exact h.spoken r id c (by simpa using hx)
  · intro r hx id c hx'
    exact h.refused r (by simpa using hx) id c (by simpa using hx')

end Channels

/-! ### Contexts -/

namespace Held

variable {nh : Bytes → Bytes → Bytes} {ids : Multiset AmfUeId} {asks rest : Multiset Nat}
  {s s' : Shared} {w : List Mark} {id : AmfUeId} {tmsi : Tmsi} {r : Nat}

theorem start : Held nh 0 0 {} [] where
  once := List.nodup_nil
  places := rfl
  distinct := List.nodup_nil
  retained := by simp [dormant]
  asked := Kept.start.asks
  channels := by constructor <;> simp [oneshot]
  switched := by simp

/-- Where nothing of consequence changes. -/
theorem of_same (h : Held nh ids asks s w) (hcommands : s'.commands ⊆ s.commands)
    (hreply : s'.nextReply = s.nextReply)
    (hretained : ∀ tmsi, (s'.tables.retained.lookup tmsi).isSome ↔
      (s.tables.retained.lookup tmsi).isSome) : Held nh ids asks s' w :=
  { h with
    retained := fun tmsi => (hretained tmsi).trans (h.retained tmsi)
    asked := h.asked.of_same hcommands hreply (List.Subset.refl w) (fun _ hx _ => hx)
      fun _ _ hm => hm }

/-- A mark that says nothing of requests leaves them alone. -/
theorem asked_note (h : Held nh ids asks s w) {n : Mark} (hn : n.ofAsks = false) :
    Asked 0 s (n :: w) := by
  refine h.asked.of_same (List.Subset.refl _) rfl (List.subset_cons_self n w) ?_ fun _ _ hm => hm
  intro x hx hof
  obtain rfl | hx := List.mem_cons.mp hx
  · rw [hn] at hof
    cases hof
  · exact hx

theorem note (h : Held nh ids asks s w) {n : Mark} (hn : n.ofCustody = false) :
    Held nh ids asks s (n :: w) where
  once := by
    rw [live_cons hn]
    exact h.once
  places := by
    rw [live_cons hn, undelivered_cons hn]
    exact h.places
  distinct := by
    rw [dormant_cons hn]
    exact h.distinct
  retained := by
    rw [dormant_cons hn]
    exact h.retained
  asked := h.asked_note (by cases n <;> first | rfl | cases hn)
  channels := h.channels.note hn
  switched id c hx := by
    obtain rfl | hx := List.mem_cons.mp hx
    · cases hn
    · exact h.switched id c hx

/-- Marks that say nothing of channels. -/
theorem channels_same (h : Held nh ids asks s w) {n : Mark}
    (hstate : ∀ r, oneshot r (n :: w) = oneshot r w)
    (hreceived : ∀ r c, n ≠ .received r c) (hreplying : ∀ r id c, n ≠ .replying r id c) :
    Channels asks (n :: w) where
  open_iff r := by
    rw [hstate]
    exact h.channels.open_iff r
  apart := h.channels.apart
  heard r c hx := by
    have hpast := (List.mem_cons.mp hx).resolve_left (Ne.symm (hreceived r c))
    obtain ⟨hclosed, id, hasked⟩ := h.channels.heard r c hpast
    rw [hstate]
    exact ⟨hclosed, id, List.mem_cons_of_mem _ hasked⟩
  spoken r id c hx := by
    rw [hstate]
    exact h.channels.spoken r id c
      ((List.mem_cons.mp hx).resolve_left (Ne.symm (hreplying r id (some c))))
  refused r hx id c hx' :=
    h.channels.refused r ((List.mem_cons.mp hx).resolve_left (Ne.symm (hreceived r none))) id c
      ((List.mem_cons.mp hx').resolve_left (Ne.symm (hreplying r id (some c))))

/-- What a task holds is live. -/
theorem mem_live (h : Held nh ids asks s w) (hid : id ∈ ids) : id ∈ live w := by
  have hmem : id ∈ ids + ((undelivered w).map Prod.snd : List AmfUeId) :=
    Multiset.mem_add.mpr (.inl hid)
  rw [h.places] at hmem
  exact Multiset.mem_coe.mp hmem

/-- What a task holds is not on its way. -/
theorem not_undelivered (h : Held nh (id ::ₘ ids) asks s w) : (r, id) ∉ undelivered w := by
  intro hmem
  have hnodup : (id ::ₘ ids + ((undelivered w).map Prod.snd : List AmfUeId)).Nodup := by
    rw [h.places]
    exact Multiset.coe_nodup.mpr h.once
  rw [Multiset.cons_add] at hnodup
  refine (Multiset.nodup_cons.mp hnodup).1 (Multiset.mem_add.mpr (.inr ?_))
  exact Multiset.mem_coe.mpr (List.mem_map.mpr ⟨_, hmem, rfl⟩)

theorem arrive (h : Held nh ids asks s w) (hid : id ∉ live w) :
    Held nh (id ::ₘ ids) asks s (.arriving id :: w) where
  once := List.nodup_cons.mpr ⟨hid, h.once⟩
  places := by
    rw [Multiset.cons_add]
    exact congrArg (id ::ₘ ·) h.places
  distinct := h.distinct
  retained := h.retained
  asked := h.asked_note rfl
  channels := h.channels_same (fun _ => rfl) (by simp) (by simp)
  switched id c hx := h.switched id c (by simpa using hx)

/-- The live ones, less one that a task holds. -/
theorem places_erase (h : Held nh (id ::ₘ ids) asks s w) :
    ids + ((undelivered w).map Prod.snd : List AmfUeId) = ((live w).erase id : Multiset AmfUeId) := by
  rw [← Multiset.coe_erase, ← h.places, Multiset.cons_add, Multiset.erase_cons_head]

theorem leave (h : Held nh (id ::ₘ ids) asks s w) : Held nh ids asks s (.leaving id :: w) where
  once := h.once.erase id
  places := h.places_erase
  distinct := h.distinct
  retained := h.retained
  asked := h.asked_note rfl
  channels := h.channels_same (fun _ => rfl) (by simp) (by simp)
  switched id c hx := h.switched id c (by simpa using hx)

/-- A context goes to the retained ones. -/
theorem retain (h : Held nh (id ::ₘ ids) asks s w) (c : UeContext)
    (hfree : s.tables.retained.lookup tmsi = none) :
    Held nh ids asks
      { s with tables := { s.tables with retained := s.tables.retained.insert tmsi c } }
      (.idling id tmsi :: w) where
  once := h.once.erase id
  places := h.places_erase
  distinct := by
    refine List.nodup_cons.mpr ⟨fun hmem => ?_, h.distinct⟩
    have hsome := (h.retained tmsi).mpr hmem
    rw [hfree] at hsome
    cases hsome
  retained tmsi' := by
    rw [Keyed.Map.lookup_insert_eq, Mobility.dormant, List.mem_cons, ← h.retained]
    split <;> simp_all
  asked := (h.asked_note rfl).of_same (List.Subset.refl _) rfl (List.Subset.refl _)
    (fun _ hx _ => hx) fun _ _ hm => hm
  channels := h.channels_same (fun _ => rfl) (by simp) (by simp)
  switched id c hx := h.switched id c (by simpa using hx)

/-- A retained context is taken. -/
theorem take (h : Held nh ids asks s w) (tmsi : Tmsi) :
    Held nh ids asks
      { s with tables := { s.tables with retained := s.tables.retained.erase tmsi } }
      (.resuming tmsi :: w) where
  once := h.once
  places := h.places
  distinct := h.distinct.erase tmsi
  retained tmsi' := by
    rw [Keyed.Map.lookup_erase_eq, Mobility.dormant, h.distinct.mem_erase_iff, ← h.retained]
    split <;> simp_all
  asked := (h.asked_note rfl).of_same (List.Subset.refl _) rfl (List.Subset.refl _)
    (fun _ hx _ => hx) fun _ _ hm => hm
  channels := h.channels_same (fun _ => rfl) (by simp) (by simp)
  switched id c hx := h.switched id c (by simpa using hx)

/-- A context is asked for. -/
theorem ask (h : Held nh ids asks s w) (tx : Channel) (id : AmfUeId) :
    Held nh ids (s.nextReply ::ₘ asks)
      { s with
        nextReply := s.nextReply + 1
        commands := s.commands ++ [{ tx, amfUeId := id, reply := s.nextReply }] }
      (.asking s.nextReply id :: w) := by
  have hnew : ∀ id, .asking s.nextReply id ∉ w := fun id hx =>
    absurd (h.asked.fresh _ id hx) (Nat.lt_irrefl _)
  have hunspoken : ∀ id c, .replying s.nextReply id (some c) ∉ w := fun id c hx =>
    hnew id (h.asked.replied _ id c hx).1
  have hkept : undelivered (.asking s.nextReply id :: w) = undelivered w := by
    refine undelivered_filter fun r hr _ => ?_
    obtain ⟨c, hc⟩ := hr
    have hopen : oneshot r w ≠ .closed := by simp [hc]
    obtain ⟨id', hasked⟩ := asking_of_open hopen
    have hlt := h.asked.fresh r id' hasked
    simp only [bne_iff_ne]
    omega
  have hasked := h.asked.ask tx id
  constructor
  · exact h.once
  · rw [hkept]
    exact h.places
  · exact h.distinct
  · exact h.retained
  · exact hasked.of_same (List.Subset.refl _) rfl (List.Subset.refl _) (fun _ hx _ => hx)
      fun _ _ hm => absurd hm (Multiset.notMem_zero _)
  · exact h.channels.ask hnew hunspoken id
  · exact fun id c hx => h.switched id c (by simpa using hx)

/-- An association that does not have the context says so. -/
theorem refuse (h : Held nh ids asks s w) (cmd : TakeUe) :
    Held nh ids asks { s with commands := s.commands.erase cmd }
      (.replying cmd.reply cmd.amfUeId none :: w) where
  once := h.once
  places := h.places
  distinct := h.distinct
  retained := h.retained
  asked := (h.asked_note rfl).of_same List.erase_subset rfl (List.Subset.refl _)
    (fun _ hx _ => hx) fun _ _ hm => hm
  channels := h.channels.reply _ (by simp)
  switched id c hx := h.switched id c (by simpa using hx)

/-- The owner hands its context to who still awaits it, and its gNB is told to release it. -/
theorem surrender {cmd : TakeUe} (h : Held nh (cmd.amfUeId ::ₘ ids) asks s w)
    (hcmd : cmd ∈ s.commands) (c : UeContext) (hawaited : oneshot cmd.reply w = .awaited) :
    Held nh ids asks { s with commands := s.commands.erase cmd }
      (.sending (.ueContextReleaseCommandRadio cmd.amfUeId c.ranUeId .successfulHandover) ::
        .replying cmd.reply cmd.amfUeId (some c) :: w) where
  once := h.once
  places := by
    have hsent : undelivered
        (.sending (.ueContextReleaseCommandRadio cmd.amfUeId c.ranUeId .successfulHandover) ::
          .replying cmd.reply cmd.amfUeId (some c) :: w) =
        (cmd.reply, cmd.amfUeId) :: undelivered w := if_pos ⟨rfl, hawaited⟩
    have hmoved := h.places
    rw [Multiset.cons_add, ← Multiset.add_cons, Multiset.cons_coe] at hmoved
    rw [hsent]
    exact hmoved
  distinct := h.distinct
  retained := h.retained
  asked := h.asked.reply hcmd c
  channels := (h.channels.reply _ fun _ => hawaited).note rfl
  switched id c hx := h.switched id c (by simpa using hx)

/-- A wait ends without a context. -/
theorem miss (h : Held nh ids asks s w) (hr : r ∈ asks)
    (hnone : ∀ c, oneshot r w ≠ .replied (some c)) :
    Held nh ids (asks.erase r) s (.received r none :: w) where
  once := h.once
  places := by
    have hkept : undelivered (.received r none :: w) = undelivered w := by
      refine undelivered_filter fun r' hr' _ => ?_
      obtain ⟨c, hc⟩ := hr'
      rw [bne_iff_ne]
      rintro rfl
      exact hnone c hc
    rw [hkept]
    exact h.places
  distinct := h.distinct
  retained := h.retained
  asked := h.asked_note rfl
  channels := h.channels.receive hr fun sent hsent => by
    cases sent with
    | none => rfl
    | some c => exact absurd hsent (hnone c)
  switched id c hx := h.switched id c (by simpa using hx)

/-- A context is received. -/
theorem receive (h : Held nh ids asks s w) (hr : r ∈ asks) {c : UeContext}
    (hc : oneshot r w = .replied (some c)) (hasked : .asking r id ∈ w) :
    Held nh (id ::ₘ ids) (asks.erase r) s (.received r (some c) :: w) where
  once := h.once
  places := by
    obtain ⟨id', hmem⟩ := exists_undelivered.mpr ⟨c, hc⟩
    obtain ⟨c', hreplied⟩ := replying_of_undelivered hmem
    obtain rfl := h.asked.asked r id' id (h.asked.replied r id' c' hreplied).1 hasked
    have hperm := undelivered_perm (nodup_undelivered w) hmem
    have hplaces := h.places
    rw [Multiset.coe_eq_coe.mpr hperm, ← Multiset.cons_coe, Multiset.add_cons,
      ← Multiset.cons_add] at hplaces
    exact hplaces
  distinct := h.distinct
  retained := h.retained
  asked := h.asked_note rfl
  channels := h.channels.receive hr fun sent hsent => by
    rw [hc] at hsent
    cases hsent
    rfl
  switched id c hx := h.switched id c (by simpa using hx)

/-- The other replies carry nothing, and are not waited for any more. -/
theorem abandon {rs : List Nat} (h : Held nh ids (rest + rs) s w)
    (hnone : ∀ r ∈ rs, ∀ c, oneshot r w ≠ .replied (some c)) :
    Held nh ids rest s (.abandoning rs :: w) where
  once := h.once
  places := by
    have hkept : undelivered (.abandoning rs :: w) = undelivered w := by
      refine undelivered_filter fun r ⟨c, hc⟩ _ => ?_
      simp only [Bool.not_eq_true', List.contains_eq_mem, decide_eq_false_iff_not]
      exact fun hr => hnone r hr c hc
    rw [hkept]
    exact h.places
  distinct := h.distinct
  retained := h.retained
  asked := h.asked_note rfl
  channels := h.channels.abandon
  switched id c hx := h.switched id c (by simpa using hx)

/-- Nothing else that was asked for the same context carries it. -/
theorem carries_none (h : Held nh (id ::ₘ ids) asks s w) (hasked : .asking r id ∈ w)
    (c : UeContext) : oneshot r w ≠ .replied (some c) := by
  intro hc
  obtain ⟨id', hmem⟩ := exists_undelivered.mpr ⟨c, hc⟩
  obtain ⟨c', hreplied⟩ := replying_of_undelivered hmem
  obtain rfl := h.asked.asked r id' id (h.asked.replied r id' c' hreplied).1 hasked
  exact h.not_undelivered hmem

/-- A path switch takes over a context with a chain. -/
theorem switch (h : Held nh ids asks s w) {c : UeContext} (hc : (c.freshPair nh).isSome)
    (id : AmfUeId) : Held nh ids asks s (.switched id c :: w) where
  once := h.once
  places := h.places
  distinct := h.distinct
  retained := h.retained
  asked := h.asked_note rfl
  channels := h.channels_same (fun _ => rfl) (by simp) (by simp)
  switched id' c' hx := by
    obtain hx | hx := List.mem_cons.mp hx
    · cases hx
      exact hc
    · exact h.switched id' c' hx

/-- A notify has been handed the context it asked for. -/
theorem obtain (h : Held nh ids asks s w) {c : UeContext} (hasked : .asking r id ∈ w)
    (hreceived : ∃ id', .replying r id' (some c) ∈ w) :
    Held nh ids asks s (.obtained id c :: w) where
  once := h.once
  places := h.places
  distinct := h.distinct
  retained := h.retained
  asked := by
    have hawait : Asked {.await r id} s w :=
      { h.asked with
        await := fun r' id' hm => by
          cases Multiset.mem_singleton.mp hm
          exact hasked }
    exact (hawait.obtained (Multiset.mem_singleton_self _) hreceived).of_same (List.Subset.refl _) rfl
      (List.Subset.refl _) (fun _ hx _ => hx) fun _ _ hm => absurd hm (Multiset.notMem_zero _)
  channels := h.channels_same (fun _ => rfl) (by simp) (by simp)
  switched id c hx := h.switched id c (by simpa using hx)

end Held

end Mobility

end Radian
