import Radian.Mobility.PathSwitch
import Radian.Proc.Ownership
import Mathlib.Data.Multiset.Basic
import Mathlib.Data.List.Nodup

/-!
# Handovers in flight

Any number of handovers of any UEs, one after the other or overlapping, with both timers of each going
off at any time.

- `Active`, `handoverSystem` — all that goes on, on any number of tasks.
- `Heeds` — the side condition: nothing befalls a handover that belongs to another one.
- `news`, `Orderly`, `Wound` — how a handover ends, and the gNBs and the SMFs that hear of it.
- `Debt`, `Kept` — what a handler under way still owes, and the invariant.
- `Flights.begin`, `Flights.finish`, `Flights.setUp`, `Flights.revise`, `Asked.ask`, `Asked.reply`,
  `Asked.obtained` — what each section makes of it.
-/

namespace Radian.Mobility

open Keyed (Map)
open Amf (AmfUeId Channel UeContext Association Tables)
open Security (Bytes)

variable {nh : Bytes → Bytes → Bytes}

/-! ### The system -/

/-- What a task does: a request, or whatever the AMF's other handlers make of the contexts of an
association and of the tables. -/
inductive Active where
  | request (r : Request)
  | other (ues : Map AmfUeId UeContext) (tables : Tables)
  deriving DecidableEq

def Active.body (nh : Bytes → Bytes → Bytes) : Active → MobilityM Unit
  | .request r => handle nh r
  | .other ues tables => do
      Proc.changeLocal fun l => { l with ues }
      Proc.change fun s => { s with tables }

/-- A command is taken up by the association it went to, the oldest first; a timer goes off when it
has been armed. -/
def Active.enabled : Active → Association → Shared → Bool
  | .request (.takeUe cmd), l, s => s.commands.find? (fun c => c.tx == l.tx) == some cmd
  | .request (.timer t), _, s => s.timers.contains t
  | _, _, _ => true

def handoverSystem (nh : Bytes → Bytes → Bytes) :
    System Association Shared Mark Call Call.Answer (List Mark) Active where
  toOutside := outside
  body := Active.body nh
  enabled := Active.enabled
  initial _ := true

abbrev HandoverPool : Type := Pool Association Shared Mark Call Call.Answer (List Mark)

/-- No association, no handover. -/
def startPool : HandoverPool := { threads := [], shared := {}, world := [] }

/-! ### Orderly handovers -/

/-- The number of the handover a mark ends. -/
def Mark.ended : Mark → Option Nat
  | .ending _ p _ => some p.number
  | _ => none

/-- The handovers that have ended. -/
def ended (w : List Mark) : List Nat := w.filterMap Mark.ended

/-- A target that has acknowledged is told to release what it prepared. -/
def releaseNews (amfUeId : AmfUeId) (p : PendingHandover) (cause : RadioCause) : List Mark :=
  match p.targetRanUeId with
  | some targetRan =>
      [.forwarding p.targetTx (.ueContextReleaseCommandRadio amfUeId targetRan cause)]
  | none => []

/-- Who is to hear of the end of a handover: of a failure and of an expired preparation the source; of
an expired relocation and of a cancel a target that has acknowledged, and of a cancel the source.  Nobody
else does: not the target of a failure or an expired preparation, not the source of an expired relocation.
A notify has to find the context. -/
def news (amfUeId : AmfUeId) (p : PendingHandover) : Ending → List Mark
  | .notified => [.completed p.number]
  | .failed cause =>
      [.forwarding p.sourceTx (.handoverPreparationFailure amfUeId p.sourceRanUeId cause)]
  | .cancelled ranUeId =>
      .sending (.handoverCancelAcknowledge amfUeId ranUeId) ::
        releaseNews amfUeId p .handoverCancelled
  | .expired t =>
      match t.kind with
      | .prep =>
          [.forwarding p.sourceTx
            (.handoverPreparationFailure amfUeId p.sourceRanUeId .tngrelocprepExpiry)]
      | .overall => releaseNews amfUeId p .tngrelocoverallExpiry

/-- The timer of the phase a handover is in. -/
def PendingHandover.phase (p : PendingHandover) : TimerKind :=
  if p.commanded then .overall else .prep

/-- The handover of this number is in flight and the timer of its phase runs. -/
def InFlight (s : Shared) (amfUeId : AmfUeId) (number : Nat) : Prop :=
  ∃ p, s.handovers.lookup amfUeId = some p ∧ p.number = number ∧
    ({ kind := p.phase, amfUeId, armedBy := number } : Timer) ∈ s.timers

/-- What holds in every state: a timer ends the handover that armed it only; a handover ends once; one
that has not ended is in flight, with a timer that will end it; and the source of a context that has
been handed to a notify has been told to release it. -/
structure Orderly (s : Shared) (w : List Mark) : Prop where
  own : ∀ amfUeId p t, .ending amfUeId p (.expired t) ∈ w → t.armedBy = p.number
  once : (ended w).Nodup
  live : ∀ amfUeId p, .beginning amfUeId p ∈ w →
    p.number ∈ ended w ∨ InFlight s amfUeId p.number
  source : ∀ amfUeId c, .obtained amfUeId c ∈ w →
    .sending (.ueContextReleaseCommandRadio amfUeId c.ranUeId .successfulHandover) ∈ w

/-- What holds of a handover that has ended once no handler is under way: everyone has heard of it, and
every tunnel set up for it has been asked to be released. -/
structure Wound (w : List Mark) : Prop where
  told : ∀ amfUeId p how, .ending amfUeId p how ∈ w → ∀ x ∈ news amfUeId p how, x ∈ w
  released : ∀ number c, .tunnel number c ∈ w → number ∈ ended w → .releasing number c ∈ w

/-! ### The side condition -/

/-- Who takes the handover out of the table releases its tunnels. -/
def Ending.releases : Ending → Bool
  | .notified | .cancelled _ => true
  | .failed _ => false
  | .expired t => t.kind == .overall

/-- A handover begins when none of the UE is in flight.  When a timer goes off, what is in flight under
its id is the handover that armed it.  When an SMF has set up a tunnel, the handover it is for is still
in flight.  A handover with tunnels does not end before its acknowledgement has recorded them, nor in a
way that leaves them.  A notify is handed the context it asks for. -/
def Heeds : Mark → Association → Shared → List Mark → Prop
  | .beginning amfUeId _, _, s, _ => s.handovers.lookup amfUeId = none
  | .firing t, _, s, _ => ∀ p ∈ s.handovers.lookup t.amfUeId, p.number = t.armedBy
  | .tunnel number _, _, s, _ =>
      ∃ amfUeId p, s.handovers.lookup amfUeId = some p ∧ p.number = number
  | .ending _ p how, _, _, w =>
      (∃ c, .tunnel p.number c ∈ w) → p.indirectActive = true ∧ how.releases = true
  | .unanswered _, _, _, _ => False
  | _, _, _, _ => True

/-! ### The invariant -/

/-- What a handler under way still has to do. -/
inductive Debt where
  /-- Pass news on. -/
  | tell (x : Mark)
  /-- Release a tunnel. -/
  | release (number : Nat) (c : SmContext)
  /-- Go on with the acknowledgement of the handover of this number, with these sessions. -/
  | acknowledge (number : Nat) (sessions : List (UInt8 × SmContext))
  /-- Wait for the reply to a request for this context. -/
  | await (reply : Nat) (amfUeId : AmfUeId)
  deriving DecidableEq

/-- What releasing the forwarding tunnels of a handover pays. -/
def PendingHandover.tunnels (p : PendingHandover) : Multiset Debt :=
  if p.indirectActive then (p.sessions.map fun session => Debt.release p.number session.2 : List Debt)
  else 0

/-- What is owed once a handover has ended. -/
def PendingHandover.debts (amfUeId : AmfUeId) (p : PendingHandover) (how : Ending) :
    Multiset Debt :=
  ((news amfUeId p how).map Debt.tell : List Debt) + if how.releases then p.tunnels else 0

/-- What holds of the handovers, for the debts `m` of all handlers under way. -/
structure Flights (m : Multiset Debt) (s : Shared) (w : List Mark) : Prop where
  own : ∀ amfUeId p t, .ending amfUeId p (.expired t) ∈ w → t.armedBy = p.number
  once : (ended w).Nodup
  live : ∀ amfUeId p, .beginning amfUeId p ∈ w →
    p.number ∈ ended w ∨ InFlight s amfUeId p.number
  number : ∀ amfUeId p, .beginning amfUeId p ∈ w → p.number < s.begun
  unique : ∀ amfUeId p amfUeId' p', .beginning amfUeId p ∈ w → .beginning amfUeId' p' ∈ w →
    p.number = p'.number → amfUeId = amfUeId' ∧ p = p'
  entry : ∀ amfUeId p, s.handovers.lookup amfUeId = some p → p.number ∉ ended w ∧
    ∃ p₀, .beginning amfUeId p₀ ∈ w ∧ p₀.number = p.number ∧ p₀.sessions = p.sessions
  below : ∀ n ∈ ended w, n < s.begun
  told : ∀ amfUeId p how, .ending amfUeId p how ∈ w → ∀ x ∈ news amfUeId p how,
    x ∈ w ∨ .tell x ∈ m
  tunnel : ∀ n c, .tunnel n c ∈ w →
    (∃ amfUeId p, s.handovers.lookup amfUeId = some p ∧ p.number = n ∧
      c ∈ p.sessions.map fun session => session.2) ∨ .release n c ∈ m ∨ .releasing n c ∈ w
  acknowledge : ∀ n sessions, .acknowledge n sessions ∈ m →
    ∃ amfUeId p₀, .beginning amfUeId p₀ ∈ w ∧ p₀.number = n ∧ p₀.sessions = sessions

/-- What holds of the requests for contexts. -/
structure Asked (m : Multiset Debt) (s : Shared) (w : List Mark) : Prop where
  command : ∀ cmd ∈ s.commands, .asking cmd.reply cmd.amfUeId ∈ w
  await : ∀ reply amfUeId, .await reply amfUeId ∈ m → .asking reply amfUeId ∈ w
  fresh : ∀ reply amfUeId, .asking reply amfUeId ∈ w → reply < s.nextReply
  asked : ∀ reply amfUeId amfUeId', .asking reply amfUeId ∈ w → .asking reply amfUeId' ∈ w →
    amfUeId = amfUeId'
  replied : ∀ reply amfUeId c, .replying reply amfUeId (some c) ∈ w →
    .asking reply amfUeId ∈ w ∧
      .sending (.ueContextReleaseCommandRadio amfUeId c.ranUeId .successfulHandover) ∈ w
  source : ∀ amfUeId c, .obtained amfUeId c ∈ w →
    .sending (.ueContextReleaseCommandRadio amfUeId c.ranUeId .successfulHandover) ∈ w

/-- The invariant. -/
structure Kept (m : Multiset Debt) (s : Shared) (w : List Mark) : Prop where
  flights : Flights m s w
  asks : Asked m s w

theorem Kept.orderly {m : Multiset Debt} {s : Shared} {w : List Mark} (h : Kept m s w) :
    Orderly s w :=
  { h.flights with source := h.asks.source }

theorem Kept.wound {s : Shared} {w : List Mark} (h : Kept 0 s w) : Wound w where
  told id p how hx x hnews :=
    (h.flights.told id p how hx x hnews).resolve_right (Multiset.notMem_zero _)
  released n c hx hended := by
    obtain ⟨id, p, hp, rfl, -⟩ | hrest := h.flights.tunnel n c hx
    · exact absurd hended (h.flights.entry id p hp).1
    · exact hrest.resolve_left (Multiset.notMem_zero _)

theorem Kept.start : Kept 0 {} [] := by
  constructor <;> constructor <;> simp [ended]

/-! ### History -/

/-- A mark that says something of the handovers in flight. -/
def Mark.ofFlights : Mark → Bool
  | .beginning .. | .ending .. | .tunnel .. => true
  | _ => false

/-- A mark that says something of the requests for contexts. -/
def Mark.ofAsks : Mark → Bool
  | .asking .. | .replying _ _ (some _) | .obtained .. => true
  | _ => false

/-- What has been replied was handed over. -/
theorem oneshot_replied {reply : Nat} {c : UeContext} {w : List Mark}
    (h : oneshot reply w = .replied (some c)) : ∃ id, .replying reply id (some c) ∈ w := by
  induction w with
  | nil => cases h
  | cons n w ih =>
    have later : oneshot reply w = .replied (some c) →
        ∃ id, .replying reply id (some c) ∈ n :: w := fun hw =>
      (ih hw).imp fun _ hx => List.mem_cons_of_mem n hx
    cases n with
    | replying r id sent =>
      rw [oneshot] at h
      split at h
      · rename_i hr
        cases h
        exact ⟨id, hr.1 ▸ List.mem_cons_self⟩
      · exact later h
    | asking r id | received r sent | abandoning asks =>
      rw [oneshot] at h
      split at h
      · cases h
      · exact later h
    | _ => exact later h

variable {p : PendingHandover}

theorem mem_tunnels {x : Debt} (h : x ∈ p.tunnels) :
    ∃ n c, x = .release n c := by
  rw [PendingHandover.tunnels] at h
  split at h
  · obtain ⟨session, -, rfl⟩ := List.mem_map.mp (Multiset.mem_coe.mp h)
    exact ⟨_, _, rfl⟩
  · exact absurd h (Multiset.notMem_zero _)

variable {amfUeId : AmfUeId}

/-- Who ends a handover owes to tell and to release. -/
theorem mem_debts {how : Ending} {x : Debt} (h : x ∈ p.debts amfUeId how) :
    (∃ y, x = .tell y) ∨ ∃ n c, x = .release n c := by
  obtain h | h := Multiset.mem_add.mp h
  · obtain ⟨y, -, rfl⟩ := List.mem_map.mp (Multiset.mem_coe.mp h)
    exact .inl ⟨y, rfl⟩
  · right
    split at h
    · exact mem_tunnels h
    · exact absurd h (Multiset.notMem_zero _)

/-! ### The handovers -/

namespace Flights

variable {m m' : Multiset Debt} {s s' : Shared} {w w' : List Mark}

/-- Where nothing of consequence changes. -/
theorem of_same (h : Flights m s w) (hhandovers : s'.handovers = s.handovers)
    (hbegun : s'.begun = s.begun)
    (htimers : ∀ id p, s.handovers.lookup id = some p →
      ({ kind := p.phase, amfUeId := id, armedBy := p.number } : Timer) ∈ s.timers →
      ({ kind := p.phase, amfUeId := id, armedBy := p.number } : Timer) ∈ s'.timers)
    (hw : w ⊆ w')
    (hold : ∀ x ∈ w', x.ofFlights = true → x ∈ w) (hended : ended w' = ended w)
    (htell : ∀ x, .tell x ∈ m → x ∈ w' ∨ .tell x ∈ m')
    (hrelease : ∀ n c, .release n c ∈ m → .release n c ∈ m' ∨ .releasing n c ∈ w')
    (hacknowledge : ∀ n sessions, .acknowledge n sessions ∈ m' → .acknowledge n sessions ∈ m) :
    Flights m' s' w' := by
  constructor
  · exact fun id p t hx => h.own id p t (hold _ hx rfl)
  · rw [hended]
    exact h.once
  · rw [hended]
    intro id p hx
    refine (h.live id p (hold _ hx rfl)).imp_right ?_
    rintro ⟨q, hq, hnumber, htimer⟩
    rw [← hnumber] at htimer
    exact ⟨q, hhandovers ▸ hq, hnumber, hnumber ▸ htimers id q hq htimer⟩
  · rw [hbegun]
    exact fun id p hx => h.number id p (hold _ hx rfl)
  · exact fun id p id' p' hx hx' => h.unique id p id' p' (hold _ hx rfl) (hold _ hx' rfl)
  · rw [hended, hhandovers]
    intro id p hp
    obtain ⟨hlive, p₀, hp₀, hsame⟩ := h.entry id p hp
    exact ⟨hlive, p₀, hw hp₀, hsame⟩
  · rw [hended, hbegun]
    exact h.below
  · intro id p how hx x hnews
    obtain htold | howed := h.told id p how (hold _ hx rfl) x hnews
    · exact .inl (hw htold)
    · exact htell x howed
  · rw [hhandovers]
    intro n c hx
    obtain hflight | howed | hreleased := h.tunnel n c (hold _ hx rfl)
    · exact .inl hflight
    · exact .inr (hrelease n c howed)
    · exact .inr (.inr (hw hreleased))
  · intro n sessions hm
    obtain ⟨id, p₀, hp₀, hsame⟩ := h.acknowledge n sessions (hacknowledge n sessions hm)
    exact ⟨id, p₀, hw hp₀, hsame⟩

/-- A handover begins. -/
theorem begin (h : Flights m s w) (hfree : s.handovers.lookup amfUeId = none)
    (hnumber : p.number = s.begun) (hphase : p.commanded = false) :
    Flights m
      { s with
        begun := s.begun + 1
        handovers := s.handovers.insert amfUeId p
        timers := s.timers ++ [{ kind := .prep, amfUeId, armedBy := p.number }] }
      (.beginning amfUeId p :: w) := by
  have hw : w ⊆ .beginning amfUeId p :: w := List.subset_cons_self _ _
  have hend : ended (.beginning amfUeId p :: w) = ended w := rfl
  have hlook : ∀ id, (s.handovers.insert amfUeId p).lookup id =
      if id = amfUeId then some p else s.handovers.lookup id := fun id =>
    Keyed.Map.lookup_insert_eq _ _ _ _
  constructor
  · intro id q t hx
    obtain hx | hx := List.mem_cons.mp hx
    · cases hx
    · exact h.own id q t hx
  · rw [hend]
    exact h.once
  · rw [hend]
    intro id q hx
    obtain hx | hx := List.mem_cons.mp hx
    · cases hx
      right
      refine ⟨p, by rw [hlook, if_pos rfl], rfl, ?_⟩
      simp [PendingHandover.phase, hphase]
    · refine (h.live id q hx).imp_right ?_
      rintro ⟨r, hr, hsame, htimer⟩
      have hid : id ≠ amfUeId := by
        rintro rfl
        rw [hfree] at hr
        cases hr
      exact ⟨r, by rw [hlook, if_neg hid, hr], hsame, List.mem_append_left _ htimer⟩
  · intro id q hx
    obtain hx | hx := List.mem_cons.mp hx
    · cases hx
      exact hnumber ▸ Nat.lt_succ_self s.begun
    · exact Nat.lt_succ_of_lt (h.number id q hx)
  · intro id q id' q' hx hx' hsame
    obtain hx | hx := List.mem_cons.mp hx <;> obtain hx' | hx' := List.mem_cons.mp hx'
    · cases hx
      cases hx'
      exact ⟨rfl, rfl⟩
    · cases hx
      have hlt := h.number id' q' hx'
      omega
    · cases hx'
      have hlt := h.number id q hx
      omega
    · exact h.unique id q id' q' hx hx' hsame
  · rw [hend]
    intro id q hq
    rw [hlook] at hq
    split at hq
    · rename_i hid
      cases hq
      cases hid
      refine ⟨fun hended => ?_, p, List.mem_cons_self, rfl, rfl⟩
      have hlt := h.below _ hended
      omega
    · obtain ⟨hlive, q₀, hq₀, hsame⟩ := h.entry id q hq
      exact ⟨hlive, q₀, hw hq₀, hsame⟩
  · rw [hend]
    exact fun n hn => Nat.lt_succ_of_lt (h.below n hn)
  · intro id q how hx x hnews
    obtain hx | hx := List.mem_cons.mp hx
    · cases hx
    · exact (h.told id q how hx x hnews).imp_left fun htold => hw htold
  · intro n c hx
    obtain hx | hx := List.mem_cons.mp hx
    · cases hx
    · obtain ⟨id, q, hq, hsame, hc⟩ | hrest := h.tunnel n c hx
      · have hid : id ≠ amfUeId := by
          rintro rfl
          rw [hfree] at hq
          cases hq
        exact .inl ⟨id, q, by rw [hlook, if_neg hid, hq], hsame, hc⟩
      · exact .inr (hrest.imp_right fun hreleased => hw hreleased)
  · intro n sessions hm
    obtain ⟨id, q₀, hq₀, hsame⟩ := h.acknowledge n sessions hm
    exact ⟨id, q₀, hw hq₀, hsame⟩

/-- Entries of one number are one entry. -/
theorem entry_unique (h : Flights m s w) {id id' : AmfUeId} {p p' : PendingHandover}
    (hp : s.handovers.lookup id = some p) (hp' : s.handovers.lookup id' = some p')
    (hsame : p.number = p'.number) : id = id' := by
  obtain ⟨-, q, hq, hnumber, -⟩ := h.entry id p hp
  obtain ⟨-, q', hq', hnumber', -⟩ := h.entry id' p' hp'
  exact (h.unique id q id' q' hq hq' (by omega)).1

/-- A handover ends.  Only its own timers may go with it. -/
theorem finish (h : Flights m s w) {how : Ending} (hp : s.handovers.lookup amfUeId = some p)
    (hhandovers : s'.handovers = s.handovers.erase amfUeId) (hbegun : s'.begun = s.begun)
    (htimers : ∀ t ∈ s.timers, t.amfUeId ≠ amfUeId → t ∈ s'.timers)
    (hown : ∀ t, how = .expired t → t.armedBy = p.number)
    (htunnels : (∃ c, .tunnel p.number c ∈ w) → p.indirectActive = true ∧
      how.releases = true) :
    Flights (m + p.debts amfUeId how) s' (.ending amfUeId p how :: w) := by
  have hw : w ⊆ .ending amfUeId p how :: w := List.subset_cons_self _ _
  have hend : ended (.ending amfUeId p how :: w) = p.number :: ended w := rfl
  have hlook : ∀ id q, s'.handovers.lookup id = some q →
      id ≠ amfUeId ∧ s.handovers.lookup id = some q := by
    intro id q hq
    rw [hhandovers] at hq
    exact Keyed.Map.of_lookup_erase hq
  have hstays : ∀ id q, s.handovers.lookup id = some q → id ≠ amfUeId →
      s'.handovers.lookup id = some q := by
    intro id q hq hid
    rw [hhandovers, Keyed.Map.lookup_erase_eq, if_neg hid, hq]
  constructor
  · intro id q t hx
    obtain hx | hx := List.mem_cons.mp hx
    · cases hx
      exact hown t rfl
    · exact h.own id q t hx
  · rw [hend, List.nodup_cons]
    exact ⟨(h.entry amfUeId p hp).1, h.once⟩
  · rw [hend]
    intro id q hx
    obtain hx | hx := List.mem_cons.mp hx
    · cases hx
    · obtain hended | ⟨r, hr, hsame, htimer⟩ := h.live id q hx
      · exact .inl (List.mem_cons_of_mem _ hended)
      · by_cases hid : id = amfUeId
        · subst hid
          rw [hp, Option.some_inj] at hr
          subst hr
          exact .inl (hsame ▸ List.mem_cons_self)
        · exact .inr ⟨r, hstays id r hr hid, hsame, htimers _ htimer hid⟩
  · rw [hbegun]
    intro id q hx
    obtain hx | hx := List.mem_cons.mp hx
    · cases hx
    · exact h.number id q hx
  · intro id q id' q' hx hx' hsame
    obtain hx | hx := List.mem_cons.mp hx
    · cases hx
    · obtain hx' | hx' := List.mem_cons.mp hx'
      · cases hx'
      · exact h.unique id q id' q' hx hx' hsame
  · rw [hend]
    intro id q hq
    obtain ⟨hid, hq⟩ := hlook id q hq
    obtain ⟨hlive, q₀, hq₀, hsame⟩ := h.entry id q hq
    refine ⟨?_, q₀, hw hq₀, hsame⟩
    rw [List.mem_cons, not_or]
    exact ⟨fun hnumber => hid (h.entry_unique hq hp hnumber), hlive⟩
  · rw [hend, hbegun]
    intro n hn
    obtain rfl | hn := List.mem_cons.mp hn
    · obtain ⟨-, q, hq, hnumber, -⟩ := h.entry amfUeId p hp
      exact hnumber ▸ h.number amfUeId q hq
    · exact h.below n hn
  · intro id q how' hx x hnews
    obtain hx | hx := List.mem_cons.mp hx
    · cases hx
      have hmem : Debt.tell x ∈ (((news amfUeId p how).map Debt.tell : List Debt) : Multiset Debt) :=
        Multiset.mem_coe.mpr (List.mem_map_of_mem hnews)
      exact .inr (Multiset.mem_add.mpr (.inr (Multiset.mem_add.mpr (.inl hmem))))
    · obtain htold | howed := h.told id q how' hx x hnews
      · exact .inl (hw htold)
      · exact .inr (Multiset.mem_add.mpr (.inl howed))
  · intro n c hx
    obtain hnow | hpast := List.mem_cons.mp hx
    · cases hnow
    · obtain ⟨id, q, hq, rfl, hc⟩ | howed | hreleased := h.tunnel n c hpast
      · by_cases hid : id = amfUeId
        · subst hid
          rw [hp, Option.some_inj] at hq
          subst hq
          obtain ⟨session, hsession, rfl⟩ := List.mem_map.mp hc
          right
          left
          obtain ⟨hactive, hhow⟩ := htunnels ⟨_, hpast⟩
          have hmem : Debt.release p.number session.2 ∈ p.tunnels := by
            rw [PendingHandover.tunnels, if_pos hactive]
            exact Multiset.mem_coe.mpr (List.mem_map.mpr ⟨session, hsession, rfl⟩)
          refine Multiset.mem_add.mpr (.inr (Multiset.mem_add.mpr (.inr ?_)))
          rw [if_pos hhow]
          exact hmem
        · exact .inl ⟨id, q, hstays id q hq hid, rfl, hc⟩
      · exact .inr (.inl (Multiset.mem_add.mpr (.inl howed)))
      · exact .inr (.inr (hw hreleased))
  · intro n sessions hm
    have hm : .acknowledge n sessions ∈ m := by
      refine (Multiset.mem_add.mp hm).resolve_right fun hdebt => ?_
      obtain ⟨_, hdebt⟩ | ⟨_, _, hdebt⟩ := mem_debts hdebt <;> cases hdebt
    obtain ⟨id, q₀, hq₀, hsame⟩ := h.acknowledge n sessions hm
    exact ⟨id, q₀, hw hq₀, hsame⟩

/-- An SMF has set up a tunnel for a handover that is still in flight. -/
theorem setUp (h : Flights m s w) {n : Nat} {sessions : List (UInt8 × SmContext)} {c : SmContext}
    (hm : .acknowledge n sessions ∈ m) (hc : c ∈ sessions.map fun session => session.2)
    (hflight : ∃ amfUeId p, s.handovers.lookup amfUeId = some p ∧ p.number = n) :
    Flights m s (.tunnel n c :: w) := by
  have hw : w ⊆ .tunnel n c :: w := List.subset_cons_self _ _
  have hend : ended (.tunnel n c :: w) = ended w := rfl
  have hpast : ∀ x ∈ (.tunnel n c :: w : List Mark), x ≠ .tunnel n c → x ∈ w := by
    intro x hx hne
    exact (List.mem_cons.mp hx).resolve_left hne
  constructor
  · exact fun id q t hx => h.own id q t (hpast _ hx (by simp))
  · rw [hend]
    exact h.once
  · rw [hend]
    exact fun id q hx => h.live id q (hpast _ hx (by simp))
  · exact fun id q hx => h.number id q (hpast _ hx (by simp))
  · exact fun id q id' q' hx hx' =>
      h.unique id q id' q' (hpast _ hx (by simp)) (hpast _ hx' (by simp))
  · rw [hend]
    intro id q hq
    obtain ⟨hlive, q₀, hq₀, hsame⟩ := h.entry id q hq
    exact ⟨hlive, q₀, hw hq₀, hsame⟩
  · rw [hend]
    exact h.below
  · exact fun id q how hx x hnews =>
      (h.told id q how (hpast _ hx (by simp)) x hnews).imp_left fun htold => hw htold
  · intro n' c' hx
    obtain hx | hx := List.mem_cons.mp hx
    · cases hx
      obtain ⟨id, p, hp, hnumber⟩ := hflight
      obtain ⟨-, p₀, hp₀, hnumber₀, hsessions₀⟩ := h.entry id p hp
      obtain ⟨id', q₀, hq₀, hnumber', hsessions'⟩ := h.acknowledge n sessions hm
      obtain ⟨-, rfl⟩ := h.unique id p₀ id' q₀ hp₀ hq₀ (by omega)
      exact .inl ⟨id, p, hp, hnumber, by rw [← hsessions₀, hsessions']; exact hc⟩
    · exact (h.tunnel n' c' hx).imp_right (Or.imp_right fun hreleased => hw hreleased)
  · intro n' sessions' hm'
    obtain ⟨id, q₀, hq₀, hsame⟩ := h.acknowledge n' sessions' hm'
    exact ⟨id, q₀, hw hq₀, hsame⟩

/-- The handover of a UE is changed in place. -/
theorem revise (h : Flights m s w) {f : PendingHandover → PendingHandover}
    (hlook : ∀ id, s'.handovers.lookup id =
      if id = amfUeId then (s.handovers.lookup amfUeId).map f else s.handovers.lookup id)
    (hbegun : s'.begun = s.begun) (htimers : s.timers ⊆ s'.timers)
    (hnumber : ∀ p, (f p).number = p.number) (hsessions : ∀ p, (f p).sessions = p.sessions)
    (hphase : ∀ p, s.handovers.lookup amfUeId = some p → (f p).phase ≠ p.phase →
      ({ kind := (f p).phase, amfUeId, armedBy := p.number } : Timer) ∈ s'.timers) :
    Flights m s' w := by
  have hentry : ∀ id q, s'.handovers.lookup id = some q →
      ∃ p, s.handovers.lookup id = some p ∧ q.number = p.number ∧ q.sessions = p.sessions := by
    intro id q hq
    rw [hlook] at hq
    split at hq
    · rename_i hid
      obtain ⟨p, hp, rfl⟩ := Option.map_eq_some_iff.mp hq
      exact ⟨p, hid ▸ hp, hnumber p, hsessions p⟩
    · exact ⟨q, hq, rfl, rfl⟩
  have hkept : ∀ id p, s.handovers.lookup id = some p →
      ∃ q, s'.handovers.lookup id = some q ∧ q.number = p.number ∧ q.sessions = p.sessions ∧
        (({ kind := p.phase, amfUeId := id, armedBy := p.number } : Timer) ∈ s.timers →
          ({ kind := q.phase, amfUeId := id, armedBy := p.number } : Timer) ∈ s'.timers) := by
    intro id p hp
    by_cases hid : id = amfUeId
    · subst hid
      refine ⟨f p, by rw [hlook, if_pos rfl, hp, Option.map_some], hnumber p, hsessions p, ?_⟩
      intro htimer
      by_cases hsame : (f p).phase = p.phase
      · rw [hsame]
        exact htimers htimer
      · exact hphase p hp hsame
    · exact ⟨p, by rw [hlook, if_neg hid, hp], rfl, rfl, fun htimer => htimers htimer⟩
  constructor
  · exact h.own
  · exact h.once
  · intro id p hx
    refine (h.live id p hx).imp_right ?_
    rintro ⟨r, hr, hsame, htimer⟩
    obtain ⟨q, hq, hnum, -, hlater⟩ := hkept id r hr
    rw [← hsame] at htimer
    exact ⟨q, hq, hnum.trans hsame, hsame ▸ hlater htimer⟩
  · rw [hbegun]
    exact h.number
  · exact h.unique
  · intro id q hq
    obtain ⟨p, hp, hnum, hsess⟩ := hentry id q hq
    rw [hnum, hsess]
    exact h.entry id p hp
  · rw [hbegun]
    exact h.below
  · exact h.told
  · intro n c hx
    refine (h.tunnel n c hx).imp_left ?_
    rintro ⟨id, p, hp, hnum, hc⟩
    obtain ⟨q, hq, hsame, hsess, -⟩ := hkept id p hp
    exact ⟨id, q, hq, hsame.trans hnum, hsess ▸ hc⟩
  · exact h.acknowledge

end Flights

/-! ### The requests for contexts -/

namespace Asked

variable {m m' : Multiset Debt} {s s' : Shared} {w w' : List Mark}

/-- Where nothing of consequence changes. -/
theorem of_same (h : Asked m s w) (hcommands : s'.commands ⊆ s.commands)
    (hreply : s'.nextReply = s.nextReply) (hw : w ⊆ w')
    (hold : ∀ x ∈ w', x.ofAsks = true → x ∈ w)
    (hawait : ∀ reply id, .await reply id ∈ m' → .await reply id ∈ m) : Asked m' s' w' := by
  constructor
  · exact fun cmd hcmd => hw (h.command cmd (hcommands hcmd))
  · exact fun reply id hm => hw (h.await reply id (hawait reply id hm))
  · rw [hreply]
    exact fun reply id hx => h.fresh reply id (hold _ hx rfl)
  · exact fun reply id id' hx hx' => h.asked reply id id' (hold _ hx rfl) (hold _ hx' rfl)
  · intro reply id c hx
    obtain ⟨hasked, hsent⟩ := h.replied reply id c (hold _ hx rfl)
    exact ⟨hw hasked, hw hsent⟩
  · exact fun id c hx => hw (h.source id c (hold _ hx rfl))

/-- A context is asked for. -/
theorem ask (h : Asked m s w) (tx : Channel) (amfUeId : AmfUeId) :
    Asked (m + {.await s.nextReply amfUeId})
      { s with
        nextReply := s.nextReply + 1
        commands := s.commands ++ [{ tx, amfUeId, reply := s.nextReply }] }
      (.asking s.nextReply amfUeId :: w) := by
  have hw : w ⊆ .asking s.nextReply amfUeId :: w := List.subset_cons_self _ _
  constructor
  · intro cmd hcmd
    obtain hcmd | hcmd := List.mem_append.mp hcmd
    · exact hw (h.command cmd hcmd)
    · rw [List.mem_singleton.mp hcmd]
      exact List.mem_cons_self
  · intro reply id hm
    obtain hm | hm := Multiset.mem_add.mp hm
    · exact hw (h.await reply id hm)
    · cases Multiset.mem_singleton.mp hm
      exact List.mem_cons_self
  · intro reply id hx
    obtain hx | hx := List.mem_cons.mp hx
    · cases hx
      exact Nat.lt_succ_self _
    · exact Nat.lt_succ_of_lt (h.fresh reply id hx)
  · intro reply id id' hx hx'
    obtain hx | hx := List.mem_cons.mp hx <;> obtain hx' | hx' := List.mem_cons.mp hx'
    · cases hx
      cases hx'
      rfl
    · cases hx
      exact absurd (h.fresh _ id' hx') (Nat.lt_irrefl _)
    · cases hx'
      exact absurd (h.fresh _ id hx) (Nat.lt_irrefl _)
    · exact h.asked reply id id' hx hx'
  · intro reply id c hx
    obtain hx | hx := List.mem_cons.mp hx
    · cases hx
    · obtain ⟨hasked, hsent⟩ := h.replied reply id c hx
      exact ⟨hw hasked, hw hsent⟩
  · intro id c hx
    obtain hx | hx := List.mem_cons.mp hx
    · cases hx
    · exact hw (h.source id c hx)

/-- A context is handed over and its gNB told to release it. -/
theorem reply (h : Asked m s w) {cmd : TakeUe} (hcmd : cmd ∈ s.commands) (c : UeContext) :
    Asked m { s with commands := s.commands.erase cmd }
      (.sending (.ueContextReleaseCommandRadio cmd.amfUeId c.ranUeId .successfulHandover) ::
        .replying cmd.reply cmd.amfUeId (some c) :: w) := by
  have hw : w ⊆ .sending (.ueContextReleaseCommandRadio cmd.amfUeId c.ranUeId .successfulHandover) ::
      .replying cmd.reply cmd.amfUeId (some c) :: w :=
    fun _ hx => List.mem_cons_of_mem _ (List.mem_cons_of_mem _ hx)
  constructor
  · exact fun cmd' hcmd' => hw (h.command cmd' (List.mem_of_mem_erase hcmd'))
  · exact fun reply id hm => hw (h.await reply id hm)
  · intro reply id hx
    simp only [List.mem_cons, reduceCtorEq, false_or] at hx
    exact h.fresh reply id hx
  · intro reply id id' hx hx'
    simp only [List.mem_cons, reduceCtorEq, false_or] at hx hx'
    exact h.asked reply id id' hx hx'
  · intro reply id c' hx
    simp only [List.mem_cons, reduceCtorEq, false_or] at hx
    obtain hx | hx := hx
    · cases hx
      exact ⟨hw (h.command cmd hcmd), List.mem_cons_self⟩
    · obtain ⟨hasked, hsent⟩ := h.replied reply id c' hx
      exact ⟨hw hasked, hw hsent⟩
  · intro id c' hx
    simp only [List.mem_cons, reduceCtorEq, false_or] at hx
    exact hw (h.source id c' hx)

/-- A context that is awaited comes from its owner. -/
theorem obtained (h : Asked m s w) {reply : Nat} {c : UeContext} (hm : .await reply amfUeId ∈ m)
    (hreplied : ∃ id, .replying reply id (some c) ∈ w) :
    Asked m s (.obtained amfUeId c :: w) := by
  have hw : w ⊆ .obtained amfUeId c :: w := List.subset_cons_self _ _
  constructor
  · exact fun cmd hcmd => hw (h.command cmd hcmd)
  · exact fun reply id hm => hw (h.await reply id hm)
  · intro reply id hx
    simp only [List.mem_cons, reduceCtorEq, false_or] at hx
    exact h.fresh reply id hx
  · intro reply id id' hx hx'
    simp only [List.mem_cons, reduceCtorEq, false_or] at hx hx'
    exact h.asked reply id id' hx hx'
  · intro reply id c' hx
    simp only [List.mem_cons, reduceCtorEq, false_or] at hx
    obtain ⟨hasked, hsent⟩ := h.replied reply id c' hx
    exact ⟨hw hasked, hw hsent⟩
  · intro id c' hx
    obtain hx | hx := List.mem_cons.mp hx
    · cases hx
      obtain ⟨id', hx'⟩ := hreplied
      obtain ⟨hasked, hsent⟩ := h.replied reply id' c hx'
      obtain rfl := h.asked reply id' amfUeId hasked (h.await reply amfUeId hm)
      exact hw hsent
    · exact hw (h.source id c' hx)

end Asked

/-! ### Both -/

namespace Kept

variable {m m' : Multiset Debt} {s s' : Shared} {w : List Mark}

/-- A change of what neither speaks of. -/
theorem tables (h : Kept m s w) (tables : Tables) : Kept m { s with tables } w :=
  ⟨h.flights.of_same rfl rfl (fun _ _ _ ht => ht) (List.Subset.refl w) (fun _ hx _ => hx) rfl
      (fun _ hm => .inr hm) (fun _ _ hm => .inl hm) fun _ _ hm => hm,
    h.asks.of_same (List.Subset.refl _) rfl (List.Subset.refl w) (fun _ hx _ => hx) fun _ _ hm => hm⟩

/-- A mark that says nothing of either. -/
theorem later (h : Kept m s w) {n : Mark} (hflights : n.ofFlights = false)
    (hasks : n.ofAsks = false) : Kept m s (n :: w) := by
  have hw : w ⊆ n :: w := List.subset_cons_self n w
  have hend : ended (n :: w) = ended w := by
    cases n <;> first | rfl | cases hflights
  constructor
  · refine h.flights.of_same rfl rfl (fun _ _ _ ht => ht) hw (fun x hx hof => ?_) hend
      (fun _ hm => .inr hm) (fun _ _ hm => .inl hm) fun _ _ hm => hm
    refine (List.mem_cons.mp hx).resolve_left ?_
    rintro rfl
    rw [hflights] at hof
    cases hof
  · refine h.asks.of_same (List.Subset.refl _) rfl hw (fun x hx hof => ?_) fun _ _ hm => hm
    refine (List.mem_cons.mp hx).resolve_left ?_
    rintro rfl
    rw [hasks] at hof
    cases hof

/-- Debts that have been paid, or that bind nobody. -/
theorem debts (h : Kept m s w)
    (htell : ∀ x, .tell x ∈ m → x ∈ w ∨ .tell x ∈ m')
    (hrelease : ∀ n c, .release n c ∈ m → .release n c ∈ m' ∨ .releasing n c ∈ w)
    (hacknowledge : ∀ n sessions, .acknowledge n sessions ∈ m' → .acknowledge n sessions ∈ m)
    (hawait : ∀ reply id, .await reply id ∈ m' → .await reply id ∈ m) : Kept m' s w :=
  ⟨h.flights.of_same rfl rfl (fun _ _ _ ht => ht) (List.Subset.refl w) (fun _ hx _ => hx) rfl htell
      hrelease hacknowledge,
    h.asks.of_same (List.Subset.refl _) rfl (List.Subset.refl w) (fun _ hx _ => hx) hawait⟩

/-- News is passed on. -/
theorem settle {x : Mark} (h : Kept (m + (.tell x ::ₘ m')) s w) (htold : x ∈ w) :
    Kept (m + m') s w := by
  refine h.debts ?_ ?_ ?_ ?_
  · intro y hm
    simp only [Multiset.mem_add, Multiset.mem_cons] at hm ⊢
    obtain hm | hm | hm := hm
    · exact .inr (.inl hm)
    · cases hm
      exact .inl htold
    · exact .inr (.inr hm)
  · intro n c hm
    left
    simpa using hm
  · intro n sessions hm
    simpa using hm
  · intro reply id hm
    simpa using hm

/-- News is to be passed on. -/
theorem promise (h : Kept (m + 0) s w) (x : Mark) : Kept (m + {.tell x}) s w := by
  refine h.debts ?_ ?_ ?_ ?_
  · intro y hm
    right
    simpa using Or.inl hm
  · intro n c hm
    left
    simpa using hm
  · intro n sessions hm
    simpa using hm
  · intro reply id hm
    simpa using hm

/-- An SMF is asked to release a tunnel. -/
theorem release {n : Nat} {c : SmContext} (h : Kept (m + (.release n c ::ₘ m')) s w) :
    Kept (m + m') s (.releasing n c :: w) := by
  refine (h.later rfl rfl : Kept _ s (.releasing n c :: w)).debts ?_ ?_ ?_ ?_
  · intro x hm
    right
    simpa using hm
  · intro n' c' hm
    simp only [Multiset.mem_add, Multiset.mem_cons] at hm ⊢
    obtain hm | hm | hm := hm
    · exact .inl (.inl hm)
    · cases hm
      exact .inr List.mem_cons_self
    · exact .inl (.inr hm)
  · intro n sessions hm
    simpa using hm
  · intro reply id hm
    simpa using hm

/-- A request for a context is not waited for any more. -/
theorem forget {reply : Nat} (h : Kept (m + (.await reply amfUeId ::ₘ m')) s w) :
    Kept (m + m') s w := by
  refine h.debts ?_ ?_ ?_ ?_
  · intro x hm
    right
    simpa using hm
  · intro n c hm
    left
    simpa using hm
  · intro n sessions hm
    simpa using hm
  · intro reply' id hm
    rw [Multiset.mem_add] at hm ⊢
    exact hm.imp_right (Multiset.mem_cons_of_mem ·)

/-- A context is asked for. -/
theorem ask (h : Kept (m + m') s w) (tx : Channel) (amfUeId : AmfUeId) :
    Kept (m + (.await s.nextReply amfUeId ::ₘ m'))
      { s with
        nextReply := s.nextReply + 1
        commands := s.commands ++ [{ tx, amfUeId, reply := s.nextReply }] }
      (.asking s.nextReply amfUeId :: w) := by
  have hperm : m + (.await s.nextReply amfUeId ::ₘ m') = m + m' + {.await s.nextReply amfUeId} := by
    rw [← Multiset.singleton_add, add_comm _ m', add_assoc]
  rw [hperm]
  refine ⟨?_, h.asks.ask tx amfUeId⟩
  refine h.flights.of_same rfl rfl (fun _ _ _ ht => ht) (List.subset_cons_self _ _)
    (fun x hx hof => ?_) rfl (fun _ hm => .inr (Multiset.mem_add.mpr (.inl hm)))
    (fun _ _ hm => .inl (Multiset.mem_add.mpr (.inl hm))) fun _ _ hm => ?_
  · refine (List.mem_cons.mp hx).resolve_left ?_
    rintro rfl
    cases hof
  · refine (Multiset.mem_add.mp hm).resolve_right fun hsingle => ?_
    cases Multiset.mem_singleton.mp hsingle

/-- A context that is awaited comes. -/
theorem handOver (h : Kept m s w) {reply : Nat} {c : UeContext} (hm : .await reply amfUeId ∈ m)
    (hreplied : ∃ id, .replying reply id (some c) ∈ w) :
    Kept m s (.obtained amfUeId c :: w) := by
  refine ⟨?_, h.asks.obtained hm hreplied⟩
  refine h.flights.of_same rfl rfl (fun _ _ _ ht => ht) (List.subset_cons_self _ _)
    (fun x hx hof => (List.mem_cons.mp hx).resolve_left ?_) rfl (fun _ hm => .inr hm)
    (fun _ _ hm => .inl hm) fun _ _ hm => hm
  rintro rfl
  cases hof

/-- A handover ends. -/
theorem finish (h : Kept m s w) {how : Ending} (hp : s.handovers.lookup amfUeId = some p)
    (hhandovers : s'.handovers = s.handovers.erase amfUeId) (hbegun : s'.begun = s.begun)
    (htimers : ∀ t ∈ s.timers, t.amfUeId ≠ amfUeId → t ∈ s'.timers) (hcommands : s'.commands = s.commands)
    (hreply : s'.nextReply = s.nextReply) (hown : ∀ t, how = .expired t → t.armedBy = p.number)
    (htunnels : (∃ c, .tunnel p.number c ∈ w) → p.indirectActive = true ∧
      how.releases = true) :
    Kept (m + p.debts amfUeId how) s' (.ending amfUeId p how :: w) := by
  refine ⟨h.flights.finish hp hhandovers hbegun htimers hown htunnels, ?_⟩
  refine h.asks.of_same (hcommands ▸ List.Subset.refl _) hreply (List.subset_cons_self _ _)
    (fun x hx hof => ?_) fun reply id hm => ?_
  · refine (List.mem_cons.mp hx).resolve_left ?_
    rintro rfl
    cases hof
  · refine (Multiset.mem_add.mp hm).resolve_right fun hdebt => ?_
    obtain ⟨_, hdebt⟩ | ⟨_, _, hdebt⟩ := mem_debts hdebt <;> cases hdebt

/-- The handover of a UE is changed in place. -/
theorem revise (h : Kept m s w) (amfUeId : AmfUeId) {f : PendingHandover → PendingHandover}
    (hlook : ∀ id, s'.handovers.lookup id =
      if id = amfUeId then (s.handovers.lookup amfUeId).map f else s.handovers.lookup id)
    (hbegun : s'.begun = s.begun) (htimers : s.timers ⊆ s'.timers)
    (hcommands : s'.commands = s.commands) (hreply : s'.nextReply = s.nextReply)
    (hnumber : ∀ p, (f p).number = p.number) (hsessions : ∀ p, (f p).sessions = p.sessions)
    (hphase : ∀ p, s.handovers.lookup amfUeId = some p → (f p).phase ≠ p.phase →
      ({ kind := (f p).phase, amfUeId, armedBy := p.number } : Timer) ∈ s'.timers) :
    Kept m s' w :=
  ⟨h.flights.revise hlook hbegun htimers hnumber hsessions hphase,
    h.asks.of_same (hcommands ▸ List.Subset.refl _) hreply (List.Subset.refl w)
      (fun _ hx _ => hx) fun _ _ hm => hm⟩

/-- The acknowledgement of a handover in flight is under way. -/
theorem owe (h : Kept (m + m') s w) (hp : s.handovers.lookup amfUeId = some p) :
    Kept (m + (.acknowledge p.number p.sessions ::ₘ m')) s w := by
  have hmore : ∀ x ∈ m + m', x ∈ m + (.acknowledge p.number p.sessions ::ₘ m') := by
    intro x hx
    rw [Multiset.mem_add] at hx ⊢
    exact hx.imp_right (Multiset.mem_cons_of_mem ·)
  have hless : ∀ x ∈ m + (.acknowledge p.number p.sessions ::ₘ m'),
      x = .acknowledge p.number p.sessions ∨ x ∈ m + m' := by
    intro x hx
    rw [Multiset.mem_add, Multiset.mem_cons] at hx
    rw [Multiset.mem_add]
    tauto
  constructor
  · refine { h.flights with told := ?_, tunnel := ?_, acknowledge := ?_ }
    · exact fun id q how hx x hnews => (h.flights.told id q how hx x hnews).imp_right (hmore _)
    · exact fun n c hx => (h.flights.tunnel n c hx).imp_right (Or.imp_left (hmore _))
    · intro n sessions hx
      obtain hnow | hold := hless _ hx
      · cases hnow
        exact ⟨amfUeId, (h.flights.entry amfUeId p hp).2⟩
      · exact h.flights.acknowledge n sessions hold
  · refine { h.asks with await := fun reply id hx => ?_ }
    exact h.asks.await reply id ((hless _ hx).resolve_left (by simp))

/-- It is done. -/
theorem acknowledged {n : Nat} {sessions : List (UInt8 × SmContext)}
    (h : Kept (m + (.acknowledge n sessions ::ₘ m')) s w) : Kept (m + m') s w := by
  refine h.debts ?_ ?_ ?_ ?_
  · intro x hm
    right
    simpa using hm
  · intro n' c hm
    left
    simpa using hm
  · intro n' sessions' hm
    rw [Multiset.mem_add] at hm ⊢
    exact hm.imp_right (Multiset.mem_cons_of_mem ·)
  · intro reply id hm
    simpa using hm

/-- A timer goes off that is not that of the phase its handover is in. -/
theorem fire (h : Kept m s w) {t : Timer}
    (hidle : ∀ p, s.handovers.lookup t.amfUeId = some p → t.kind ≠ p.phase) :
    Kept m { s with timers := s.timers.erase t } w := by
  constructor
  · refine h.flights.of_same rfl rfl (fun id p hp ht => ?_) (List.Subset.refl w) (fun _ hx _ => hx) rfl
      (fun _ hm => .inr hm) (fun _ _ hm => .inl hm) fun _ _ hm => hm
    refine (List.mem_erase_of_ne ?_).mpr ht
    rintro rfl
    exact hidle p hp rfl
  · exact h.asks.of_same (List.Subset.refl _) rfl (List.Subset.refl w) (fun _ hx _ => hx)
      fun _ _ hm => hm

/-- A handover begins. -/
theorem begin (h : Kept m s w) (hfree : s.handovers.lookup amfUeId = none) (hnumber : p.number = s.begun)
    (hphase : p.commanded = false) :
    Kept m
      { s with
        begun := s.begun + 1
        handovers := s.handovers.insert amfUeId p
        timers := s.timers ++ [{ kind := .prep, amfUeId, armedBy := p.number }] }
      (.beginning amfUeId p :: w) := by
  refine ⟨h.flights.begin hfree hnumber hphase, ?_⟩
  refine h.asks.of_same (List.Subset.refl _) rfl (List.subset_cons_self _ _)
    (fun x hx hof => (List.mem_cons.mp hx).resolve_left ?_) fun _ _ hm => hm
  rintro rfl
  cases hof

end Kept

end Radian.Mobility
