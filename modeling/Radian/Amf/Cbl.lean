import Mathlib.Algebra.Group.Int.Defs
import Radian.Tasks.Basic

/-!
# Come Back Later

The admission gate of the AMF, one atomic operation a step: registrations that ask for a slot, holders
that drop theirs, leases that run out, and control bodies that move the threshold.

- `CblState`, `Slot`, `Task` — the gate, the slots it has admitted, and where its callers stand.
- `Gate.accounted_run` — `ongoing` is the number of slots that have not been given back, and none is
  given back twice.
- `Gate.Heeds` — what a step must heed for the recorded overshoot to bound the count.
- `Gate.Unlowered` — no threshold falls between the load and the compare-exchange of `admit`.
-/

namespace Radian.Amf.Cbl

/-! ### The gate -/

/-- Threshold, live count and counters. -/
structure CblState where
  enabled : Bool
  threshold : Int64
  ongoing : Int64
  retryMs : UInt32
  decayMs : UInt64
  admittedTotal : UInt64
  deferredTotal : UInt64
  staleTotal : UInt64
  maxOvershoot : Int64
  deriving DecidableEq, Repr

def CblState.with (threshold : Option Int64) (retryMs : UInt32) (decayMs : UInt64) : CblState where
  enabled := threshold.isSome
  threshold := threshold.getD 0
  ongoing := 0
  retryMs := retryMs
  decayMs := decayMs
  admittedTotal := 0
  deferredTotal := 0
  staleTotal := 0
  maxOvershoot := 0

def CblState.recordOvershoot (c : CblState) (overshoot : Int64) : CblState :=
  { c with maxOvershoot := max c.maxOvershoot overshoot }

/-- An admitted slot and its lease: whether its holder still has it, whether a timer runs, whether it
has been claimed for release and by which task, and how often it was taken off the count. -/
structure Slot where
  held : Bool := false
  timer : Bool := false
  released : Bool := false
  winner : Option Nat := none
  freed : Nat := 0
  deriving DecidableEq, Repr

/-- The gate with every slot it has admitted, in that order, in a process that has timers or not. -/
structure Gate where
  state : CblState
  slots : List Slot
  runtime : Bool
  deriving DecidableEq, Repr

inductive Admission where
  | disabled
  | admitted (slot : Nat)
  | deferred (retryMs : UInt32)
  deriving DecidableEq, Repr

/-! ### Its callers -/

/-- The fields of a control body that are there and of the right type. -/
structure ControlBody where
  retryMs : Option UInt64 := none
  decayMs : Option UInt64 := none
  threshold : Option Int64 := none
  enable : Option Bool := none
  deriving DecidableEq, Repr

/-- An atomic operation of a control body. -/
inductive ControlOp where
  | storeRetry (ms : UInt32)
  | storeDecay (ms : UInt64)
  | swapThreshold (m : Int64)
  | loadOngoing (m : Int64)
  | recordOvershoot (overshoot : Int64)
  | storeEnabled (enable : Bool)
  deriving DecidableEq, Repr

def applyControl (body : ControlBody) : List ControlOp :=
  (body.retryMs.map fun ms => .storeRetry ms.toUInt32).toList ++
    (body.decayMs.map .storeDecay).toList ++
    (match body.threshold with
      | some m => [.swapThreshold m, .storeEnabled true]
      | none => []) ++
    (body.enable.map .storeEnabled).toList

/-- Where a caller stands: before which operation of `admit`, of a control body, or of a release. -/
inductive Task where
  | loadOngoing
  | loadThreshold (cur : Int64)
  | exchange (cur m : Int64)
  | countDeferred
  | loadRetry
  | countAdmitted (cur m : Int64) (slot : Nat)
  | recordAdmitted (overshoot : Int64) (slot : Nat)
  | arm (slot : Nat)
  | returned (a : Admission)
  | control (ops : List ControlOp)
  | release (slot : Nat) (stale : Bool)
  | subtract (slot : Nat) (stale : Bool)
  | countStale
  | logStale
  | done
  deriving DecidableEq, Repr

inductive Entry where
  | admitCall
  | control (body : ControlBody)
  | drop (slot : Nat)
  | decay (slot : Nat)
  deriving DecidableEq, Repr

namespace Gate

def setState (g : Gate) (state : CblState) : Gate := { g with state := state }

def modifySlot (g : Gate) (n : Nat) (f : Slot → Slot) : Gate :=
  { g with slots := g.slots.modify n f }

/-- A call begins; `admit` has read whether the gate is enabled.  A holder has its slot once, and a
timer fires once. -/
def enter : Entry → Gate → Option (Task × Gate)
  | .admitCall, g => some (if g.state.enabled then .loadOngoing else .returned .disabled, g)
  | .control body, g => some (.control (applyControl body), g)
  | .drop n, g =>
      if g.slots[n]?.any Slot.held then
        some (.release n false, g.modifySlot n fun slot => { slot with held := false })
      else none
  | .decay n, g =>
      if g.slots[n]?.any Slot.timer then
        some (.release n true, g.modifySlot n fun slot => { slot with timer := false })
      else none

/-- The next operation of a control body.  A new threshold goes on to load the count and to record by
how much it is exceeded. -/
def control : List ControlOp → Gate → Task × Gate
  | [], g => (.done, g)
  | .storeRetry ms :: ops, g => (.control ops, g.setState { g.state with retryMs := ms })
  | .storeDecay ms :: ops, g => (.control ops, g.setState { g.state with decayMs := ms })
  | .swapThreshold m :: ops, g =>
      (.control (.loadOngoing m :: ops), g.setState { g.state with threshold := m })
  | .loadOngoing m :: ops, g => (.control (.recordOvershoot (g.state.ongoing - m) :: ops), g)
  | .recordOvershoot overshoot :: ops, g =>
      (.control ops, g.setState (g.state.recordOvershoot overshoot))
  | .storeEnabled enable :: ops, g => (.control ops, g.setState { g.state with enabled := enable })

/-- The compare-and-exchange of `admit`. -/
def exchange (cur m : Int64) (g : Gate) : Task × Gate :=
  if g.state.ongoing = cur then
    (.countAdmitted cur m g.slots.length,
      { g with state := { g.state with ongoing := cur + 1 }, slots := g.slots ++ [{}] })
  else (.loadOngoing, g)

/-- The holder gets its slot, with a timer where there is one to run. -/
def arm (n : Nat) (g : Gate) : Task × Gate :=
  (.returned (.admitted n),
    g.modifySlot n fun slot =>
      { slot with held := true, timer := decide (0 < g.state.decayMs) && g.runtime })

/-- The compare-and-exchange of `release`, by the task at `i`. -/
def release (i n : Nat) (stale : Bool) (g : Gate) : Task × Gate :=
  if g.slots[n]?.any fun slot => !slot.released then
    (.subtract n stale, g.modifySlot n fun slot => { slot with released := true, winner := some i })
  else (.done, g)

/-- The slot is taken off the count. -/
def subtract (n : Nat) (stale : Bool) (g : Gate) : Task × Gate :=
  (if stale then .countStale else .done,
    (g.setState { g.state with ongoing := g.state.ongoing - 1 }).modifySlot n fun slot =>
      { slot with freed := slot.freed + 1 })

/-- The next operation of the task at `i`. -/
def act (i : Nat) : Task → Gate → Task × Gate
  | .loadOngoing, g => (.loadThreshold g.state.ongoing, g)
  | .loadThreshold cur, g =>
      (if g.state.threshold ≤ cur then .countDeferred else .exchange cur g.state.threshold, g)
  | .exchange cur m, g => g.exchange cur m
  | .countDeferred, g =>
      (.loadRetry, g.setState { g.state with deferredTotal := g.state.deferredTotal + 1 })
  | .loadRetry, g => (.returned (.deferred g.state.retryMs), g)
  | .countAdmitted cur m n, g =>
      (.recordAdmitted (cur + 1 - m) n,
        g.setState { g.state with admittedTotal := g.state.admittedTotal + 1 })
  | .recordAdmitted overshoot n, g => (.arm n, g.setState (g.state.recordOvershoot overshoot))
  | .arm n, g => g.arm n
  | .returned a, g => (.returned a, g)
  | .control ops, g => control ops g
  | .release n stale, g => g.release i n stale
  | .subtract n stale, g => g.subtract n stale
  | .countStale, g =>
      (.logStale, g.setState { g.state with staleTotal := g.state.staleTotal + 1 })
  | .logStale, g => (.done, g)
  | .done, g => (.done, g)

end Gate

/-- Any number of callers of the gate. -/
def program : Tasks.Program Gate Task Entry where
  enter := Gate.enter
  act := Gate.act

/-- The gate before its first caller. -/
def launch (threshold : Option Int64) (retryMs : UInt32) (decayMs : UInt64) (runtime : Bool) :
    Tasks.Pool Gate Task where
  shared := { state := .with threshold retryMs decayMs, slots := [], runtime := runtime }
  tasks := []

/-! ### The count -/

namespace Gate

/-- The slots that have not been taken off the count. -/
def live (g : Gate) : Nat := g.slots.countP fun slot => slot.freed = 0

/-- The count is right, and no slot has come off it twice. -/
structure Accounted (g : Gate) : Prop where
  ongoing : g.state.ongoing.toInt = g.live
  once : ∀ slot ∈ g.slots, slot.freed ≤ 1
  armed : ∀ slot ∈ g.slots, slot.released = false → slot.freed = 0

/-- What stands where the numbers or the slots move: the compare-and-exchange of `admit` cannot
overflow, and who takes a slot off the count has won it. -/
def spot (i : Nat) : Task → Gate → Prop
  | .exchange cur m, _ => cur < m
  | .subtract n _, g =>
      ∃ slot, g.slots[n]? = some slot ∧ slot.released = true ∧ slot.winner = some i ∧ slot.freed = 0
  | _, _ => True

def outline : Tasks.Outline Gate Task where
  inv := Accounted
  spot := spot

theorem toInt_add_one {a m : Int64} (h : a < m) : (a + 1).toInt = a.toInt + 1 := by
  have hlt := Int64.lt_iff_toInt_lt.mp h
  have hm := m.toInt_lt
  have ha := a.le_toInt
  rw [Int64.toInt_add, show (1 : Int64).toInt = 1 from rfl]
  exact Int.bmod_eq_of_le_mul_two (by omega) (by omega)

theorem toInt_sub_one {a : Int64} (h : 0 < a.toInt) : (a - 1).toInt = a.toInt - 1 := by
  have ha := a.toInt_lt
  rw [Int64.toInt_sub, show (1 : Int64).toInt = 1 from rfl]
  exact Int.bmod_eq_of_le_mul_two (by omega) (by omega)

variable {g : Gate}

theorem mem_modifySlot {n : Nat} {f : Slot → Slot} {slot : Slot}
    (h : slot ∈ (g.modifySlot n f).slots) :
    slot ∈ g.slots ∨ ∃ old, g.slots[n]? = some old ∧ slot = f old := by
  obtain ⟨i, hi⟩ := List.mem_iff_getElem?.mp h
  rw [modifySlot, List.getElem?_modify] at hi
  obtain ⟨old, hold, rfl⟩ := Option.map_eq_some_iff.mp hi
  split
  · rename_i hni
    exact .inr ⟨old, hni ▸ hold, rfl⟩
  · exact .inl (List.mem_of_getElem? hold)

theorem live_modifySlot {n : Nat} {f : Slot → Slot} (hf : ∀ slot, (f slot).freed = slot.freed) :
    (g.modifySlot n f).live = g.live := by
  by_cases hn : n < g.slots.length
  · obtain ⟨before, slot, after, hsplit, -, hmodify⟩ := List.exists_of_modify f hn
    rw [live, modifySlot, hmodify, live, hsplit]
    simp only [List.countP_append, List.countP_cons, hf]
  · rw [modifySlot, List.modify_eq_self (Nat.le_of_not_lt hn)]

/-- A slot that comes off the count. -/
theorem live_free {n : Nat} {slot : Slot} (hn : g.slots[n]? = some slot) (hslot : slot.freed = 0) :
    (g.modifySlot n fun slot => { slot with freed := slot.freed + 1 }).live + 1 = g.live := by
  obtain ⟨hlt, -⟩ := List.getElem?_eq_some_iff.mp hn
  obtain ⟨before, old, after, hsplit, hlength, hmodify⟩ :=
    List.exists_of_modify (fun slot : Slot => { slot with freed := slot.freed + 1 }) hlt
  have hold : old = slot := by
    subst hlength
    rw [hsplit] at hn
    simpa using hn
  have hfreed : old.freed = 0 := hold ▸ hslot
  rw [live, modifySlot, hmodify, live, hsplit]
  simp only [List.countP_append, List.countP_cons, hfreed, Nat.zero_add, Nat.one_ne_zero,
    decide_false, decide_true, Bool.false_eq_true, if_false, if_true, Nat.add_zero]
  exact Nat.add_assoc _ _ _

namespace Accounted

theorem launch (state : CblState) (runtime : Bool) (h : state.ongoing = 0) :
    Accounted { state := state, slots := [], runtime := runtime } := by
  constructor
  · rw [h]
    rfl
  · exact fun _ hslot => absurd hslot List.not_mem_nil
  · exact fun _ hslot => absurd hslot List.not_mem_nil

/-- Whatever happens beside the count. -/
theorem setState (h : g.Accounted) {state : CblState} (hstate : state.ongoing = g.state.ongoing) :
    (g.setState state).Accounted := by
  refine ⟨?_, h.once, h.armed⟩
  rw [Gate.setState, hstate]
  exact h.ongoing

/-- Whatever happens to a slot beside its release. -/
theorem modifySlot (h : g.Accounted) {n : Nat} {f : Slot → Slot}
    (hfreed : ∀ slot, (f slot).freed = slot.freed)
    (hreleased : ∀ slot, (f slot).released = false → slot.released = false) :
    (g.modifySlot n f).Accounted := by
  constructor
  · rw [live_modifySlot hfreed]
    exact h.ongoing
  · intro slot hslot
    rcases mem_modifySlot hslot with hold | ⟨old, hold, rfl⟩
    · exact h.once slot hold
    · rw [hfreed]
      exact h.once old (List.mem_of_getElem? hold)
  · intro slot hslot hnot
    rcases mem_modifySlot hslot with hold | ⟨old, hold, rfl⟩
    · exact h.armed slot hold hnot
    · rw [hfreed]
      exact h.armed old (List.mem_of_getElem? hold) (hreleased old hnot)

theorem exchange (h : g.Accounted) {cur m : Int64} (hroom : cur < m) :
    (g.exchange cur m).2.Accounted := by
  unfold Gate.exchange
  split
  · rename_i hcur
    constructor
    · have hongoing := h.ongoing
      rw [hcur] at hongoing
      rw [toInt_add_one hroom, hongoing]
      simp [live]
    · intro slot hslot
      rcases List.mem_append.mp hslot with hold | hnew
      · exact h.once _ hold
      · rw [List.mem_singleton.mp hnew]
        exact Nat.zero_le 1
    · intro slot hslot hnot
      rcases List.mem_append.mp hslot with hold | hnew
      · exact h.armed _ hold hnot
      · rw [List.mem_singleton.mp hnew]
  · exact h

theorem subtract (h : g.Accounted) {n : Nat} {stale : Bool} {slot : Slot}
    (hn : g.slots[n]? = some slot) (hreleased : slot.released = true) (hfreed : slot.freed = 0) :
    (g.subtract n stale).2.Accounted := by
  have hlive := live_free hn hfreed
  have hongoing := h.ongoing
  constructor
  · simp only [Gate.subtract]
    rw [show ((g.setState _).modifySlot n _).state.ongoing = g.state.ongoing - 1 from rfl,
      toInt_sub_one (by omega)]
    simp only [Gate.setState, Gate.modifySlot, live] at hlive hongoing ⊢
    omega
  · intro other hother
    rcases mem_modifySlot hother with hold | ⟨old, hold, rfl⟩
    · exact h.once other hold
    · rw [Option.mem_unique hold hn]
      exact Nat.le_of_eq (congrArg (· + 1) hfreed)
  · intro other hother hnot
    rcases mem_modifySlot hother with hold | ⟨old, hold, rfl⟩
    · exact h.armed other hold hnot
    · rw [Option.mem_unique hold hn] at hnot
      exact absurd (hreleased.symm.trans hnot) (by simp)

end Accounted

/-- Slots that others have won stay as they are. -/
theorem undisturbed_of_won {i : Nat} {g' : Gate}
    (h : ∀ (n : Nat) (slot : Slot), g.slots[n]? = some slot → slot.released = true →
      slot.winner ≠ some i →
      ∃ slot' : Slot, g'.slots[n]? = some slot' ∧ slot'.released = true ∧ slot'.winner = slot.winner ∧
        slot'.freed = slot.freed) : outline.Undisturbed i g g' := by
  intro j t hj hspot
  cases t with
  | subtract n stale =>
    obtain ⟨slot, hn, hreleased, hwinner, hfreed⟩ := hspot
    have hother : slot.winner ≠ some i := by
      rw [hwinner]
      exact fun heq => hj (Option.some_inj.mp heq)
    obtain ⟨slot', hn', hreleased', hwinner', hfreed'⟩ := h n slot hn hreleased hother
    exact ⟨slot', hn', hreleased', hwinner'.trans hwinner, hfreed'.trans hfreed⟩
  | exchange cur m => exact hspot
  | _ => trivial

theorem undisturbed_of_slots {i : Nat} {g' : Gate} (h : g'.slots = g.slots) :
    outline.Undisturbed i g g' :=
  undisturbed_of_won fun n slot hn hreleased _ => ⟨slot, by rw [h, hn], hreleased, rfl, rfl⟩

theorem undisturbed_modifySlot {i n : Nat} {f : Slot → Slot}
    (hf : ∀ slot, g.slots[n]? = some slot → slot.released = true → slot.winner ≠ some i →
      (f slot).released = true ∧ (f slot).winner = slot.winner ∧ (f slot).freed = slot.freed) :
    outline.Undisturbed i g (g.modifySlot n f) := by
  refine undisturbed_of_won fun m slot hm hreleased hother => ?_
  by_cases hnm : n = m
  · subst hnm
    obtain ⟨hreleased', hwinner', hfreed'⟩ := hf slot hm hreleased hother
    refine ⟨f slot, ?_, hreleased', hwinner', hfreed'⟩
    rw [modifySlot, List.getElem?_modify_eq, hm]
    rfl
  · refine ⟨slot, ?_, hreleased, rfl, rfl⟩
    rw [modifySlot, List.getElem?_modify_ne _ _ hnm, hm]

theorem enter_sound {i : Nat} {e : Entry} {t : Task} {g' : Gate} (h : g.Accounted)
    (henter : enter e g = some (t, g')) :
    g'.Accounted ∧ outline.spot i t g' ∧ outline.Undisturbed i g g' := by
  cases e with
  | admitCall =>
    simp only [enter, Option.some.injEq, Prod.mk.injEq] at henter
    obtain ⟨rfl, rfl⟩ := henter
    refine ⟨h, ?_, Tasks.Outline.Undisturbed.refl⟩
    split <;> trivial
  | control body =>
    simp only [enter, Option.some.injEq, Prod.mk.injEq] at henter
    obtain ⟨rfl, rfl⟩ := henter
    exact ⟨h, trivial, Tasks.Outline.Undisturbed.refl⟩
  | drop n | decay n =>
    simp only [enter, Option.ite_none_right_eq_some, Option.some.injEq, Prod.mk.injEq] at henter
    obtain ⟨-, rfl, rfl⟩ := henter
    refine ⟨h.modifySlot (fun _ => rfl) (fun _ hnot => hnot), trivial, ?_⟩
    exact undisturbed_modifySlot fun _ _ hreleased _ => ⟨hreleased, rfl, rfl⟩

theorem control_sound {i : Nat} (ops : List ControlOp) (h : g.Accounted) :
    (control ops g).2.Accounted ∧ outline.spot i (control ops g).1 (control ops g).2 ∧
      outline.Undisturbed i g (control ops g).2 := by
  cases ops with
  | nil => exact ⟨h, trivial, Tasks.Outline.Undisturbed.refl⟩
  | cons op ops =>
    cases op with
    | loadOngoing m => exact ⟨h, trivial, Tasks.Outline.Undisturbed.refl⟩
    | _ => exact ⟨h.setState rfl, trivial, undisturbed_of_slots rfl⟩

/-- The task that wins a slot is the only one that ever takes it off the count. -/
theorem release_sound {i n : Nat} {stale : Bool} (h : g.Accounted) :
    (g.release i n stale).2.Accounted ∧
      outline.spot i (g.release i n stale).1 (g.release i n stale).2 ∧
      outline.Undisturbed i g (g.release i n stale).2 := by
  unfold release
  split
  · rename_i hfree
    obtain ⟨slot, hn, hnot⟩ := (Option.any_eq_true _ _).mp hfree
    rw [Bool.not_eq_true'] at hnot
    refine ⟨h.modifySlot (fun _ => rfl) (fun _ hreleased => absurd hreleased (by simp)), ?_, ?_⟩
    · refine ⟨{ slot with released := true, winner := some i }, ?_, rfl, rfl,
        h.armed slot (List.mem_of_getElem? hn) hnot⟩
      rw [modifySlot, List.getElem?_modify_eq, hn]
      rfl
    · refine undisturbed_modifySlot fun other hother hreleased _ => ?_
      rw [← Option.mem_unique hn hother] at hreleased
      exact absurd (hnot.symm.trans hreleased) (by simp)
  · exact ⟨h, trivial, Tasks.Outline.Undisturbed.refl⟩

theorem subtract_undisturbed {i n : Nat} {stale : Bool} {slot : Slot} (hn : g.slots[n]? = some slot)
    (hwinner : slot.winner = some i) : outline.Undisturbed i g (g.subtract n stale).2 := by
  have hstate : outline.Undisturbed i g
      (g.setState { g.state with ongoing := g.state.ongoing - 1 }) := undisturbed_of_slots rfl
  refine hstate.trans (undisturbed_modifySlot fun other hother _ hnot => ?_)
  rw [← Option.mem_unique hn hother] at hnot
  exact absurd hwinner hnot

theorem act_sound {i : Nat} {t : Task} (h : g.Accounted) (hspot : outline.spot i t g) :
    (act i t g).2.Accounted ∧ outline.spot i (act i t g).1 (act i t g).2 ∧
      outline.Undisturbed i g (act i t g).2 := by
  cases t with
  | loadThreshold cur =>
    refine ⟨h, ?_, Tasks.Outline.Undisturbed.refl⟩
    simp only [act]
    split
    · trivial
    · rename_i hroom
      exact Int64.not_le.mp hroom
  | exchange cur m =>
    refine ⟨h.exchange hspot, ?_, ?_⟩
    · simp only [act, exchange]
      split <;> trivial
    · simp only [act, exchange]
      split
      · refine undisturbed_of_won fun n slot hn hreleased _ => ⟨slot, ?_, hreleased, rfl, rfl⟩
        exact List.getElem?_append_left (List.getElem?_eq_some_iff.mp hn).1 |>.trans hn
      · exact Tasks.Outline.Undisturbed.refl
  | arm n =>
    refine ⟨h.modifySlot (fun _ => rfl) (fun _ hnot => hnot), trivial, ?_⟩
    exact undisturbed_modifySlot fun _ _ hreleased _ => ⟨hreleased, rfl, rfl⟩
  | control ops => exact control_sound ops h
  | release n stale => exact release_sound h
  | subtract n stale =>
    obtain ⟨slot, hn, hreleased, hwinner, hfreed⟩ := hspot
    refine ⟨h.subtract hn hreleased hfreed, ?_, ?_⟩
    · simp only [act, subtract]
      split <;> trivial
    · exact subtract_undisturbed hn hwinner
  | countDeferred | countAdmitted | recordAdmitted | countStale =>
    exact ⟨h.setState rfl, trivial, undisturbed_of_slots rfl⟩
  | loadOngoing | loadRetry | returned | logStale | done =>
    exact ⟨h, trivial, Tasks.Outline.Undisturbed.refl⟩

theorem sound : outline.Sound program where
  enter _ _ _ _ _ h henter := enter_sound h henter
  act _ _ _ h hspot := act_sound h hspot

/-- In every run `ongoing` is the number of slots not given back, and none is given back twice. -/
theorem accounted_run (threshold : Option Int64) (retryMs : UInt32) (decayMs : UInt64)
    (runtime : Bool) (ms : List (Tasks.Move Entry)) :
    outline.Holds (Runs.run program.step (launch threshold retryMs decayMs runtime) ms) :=
  sound.run ms (Tasks.Outline.Holds.none (Accounted.launch _ runtime rfl))

end Gate

/-! ### The overshoot -/

/-- The task will put an overshoot of `e` on record, as the threshold stands. -/
def Task.covers (threshold e : Int) : Task → Bool
  | .control (.loadOngoing m :: _) => decide (m.toInt ≤ threshold)
  | .control (.recordOvershoot overshoot :: _) => decide (e ≤ overshoot.toInt)
  | _ => false

/-- The task is between the first and the last operation of `admit` or of a new threshold. -/
def Task.midway : Task → Bool
  | .loadOngoing | .loadThreshold _ | .exchange .. | .countDeferred | .loadRetry => true
  | .countAdmitted .. | .recordAdmitted .. | .arm _ => true
  | .control (.loadOngoing _ :: _) | .control (.recordOvershoot _ :: _) => true
  | _ => false

/-- A compare-exchange that has read no higher a threshold than `m`, or something else. -/
def Task.within (m : Int64) : Task → Bool
  | .exchange _ read => decide (read ≤ m)
  | _ => true

namespace Gate

/-- What the count has beyond the threshold. -/
def excess (g : Gate) : Int := g.state.ongoing.toInt - g.state.threshold.toInt

/-- An overshoot of `e` is none, or on record, or will be. -/
def Recorded (g : Gate) (tasks : List Task) (e : Int) : Prop :=
  e ≤ max 0 g.state.maxOvershoot.toInt ∨ ∃ t ∈ tasks, t.covers g.state.threshold.toInt e

instance (g : Gate) (tasks : List Task) (e : Int) : Decidable (g.Recorded tasks e) :=
  inferInstanceAs (Decidable (_ ∨ _))

/-- A slot is taken below the threshold in force, or its overshoot will be on record; and an overshoot
fits its counter. -/
def heeds (p : Tasks.Pool Gate Task) : Task → Bool
  | .exchange cur _ =>
      decide (p.shared.state.ongoing = cur → p.shared.Recorded p.tasks (p.shared.excess + 1))
  | .control (.loadOngoing m :: _) =>
      decide (p.shared.state.ongoing.toInt - m.toInt < 2 ^ 63)
  | _ => true

def Heeds (p : Tasks.Pool Gate Task) : Tasks.Move Entry → Prop
  | .step i => p.tasks[i]?.all (heeds p) = true
  | .start _ => True

instance (p : Tasks.Pool Gate Task) : DecidablePred (Heeds p)
  | .step i => inferInstanceAs (Decidable (p.tasks[i]?.all (heeds p) = true))
  | .start _ => inferInstanceAs (Decidable True)

theorem covers_of_le {threshold e e' : Int} (hle : e' ≤ e) {t : Task} (h : t.covers threshold e) :
    t.covers threshold e' := by
  unfold Task.covers at h ⊢
  split at h
  · exact h
  · rw [decide_eq_true_eq] at h ⊢
    exact Int.le_trans hle h
  · cases h

theorem toInt_max (a b : Int64) : (max a b).toInt = max a.toInt b.toInt := by
  have hmax : max a b = if a ≤ b then b else a := rfl
  rw [hmax, Int.max_def]
  simp only [Int64.le_iff_toInt_le]
  split <;> rfl

namespace Recorded

variable {g g' : Gate} {tasks : List Task} {i : Nat} {t t' : Task} {e e' : Int}

theorem mono (h : g.Recorded tasks e) (hle : e' ≤ e) : g.Recorded tasks e' := by
  rcases h with hmax | ⟨u, hu, hcovers⟩
  · exact .inl (Int.le_trans hle hmax)
  · exact .inr ⟨u, hu, covers_of_le hle hcovers⟩

/-- One task takes a step and the threshold stays. -/
theorem set (h : g.Recorded tasks e) (hi : tasks[i]? = some t)
    (hthreshold : g'.state.threshold = g.state.threshold)
    (hmax : g.state.maxOvershoot.toInt ≤ g'.state.maxOvershoot.toInt)
    (hself : t.covers g.state.threshold.toInt e → g'.Recorded (tasks.set i t') e) :
    g'.Recorded (tasks.set i t') e := by
  rcases h with hless | ⟨u, hu, hcovers⟩
  · unfold Recorded
    omega
  · obtain ⟨j, hj⟩ := List.mem_iff_getElem?.mp hu
    by_cases hji : j = i
    · subst hji
      rw [Option.mem_unique hj hi] at hcovers
      exact hself hcovers
    · refine .inr ⟨u, List.mem_iff_getElem?.mpr ⟨j, ?_⟩, hthreshold ▸ hcovers⟩
      rw [List.getElem?_set_ne (Ne.symm hji), hj]

end Recorded

theorem enter_state {e : Entry} {t : Task} {g g' : Gate} (h : enter e g = some (t, g')) :
    g'.state = g.state := by
  cases e with
  | admitCall | control =>
    simp only [enter, Option.some.injEq, Prod.mk.injEq] at h
    rw [← h.2]
  | drop | decay =>
    simp only [enter, Option.ite_none_right_eq_some, Option.some.injEq, Prod.mk.injEq] at h
    rw [← h.2.2]
    rfl

variable {p : Tasks.Pool Gate Task} {i : Nat} {t : Task}

/-- What a task does that leaves threshold and count alone, and does not forget what it knew. -/
theorem recorded_act (h : p.shared.Recorded p.tasks p.shared.excess) (hi : p.tasks[i]? = some t)
    {t' : Task} {g' : Gate} (hthreshold : g'.state.threshold = p.shared.state.threshold)
    (hcount : g'.state.ongoing = p.shared.state.ongoing)
    (hmax : p.shared.state.maxOvershoot.toInt ≤ g'.state.maxOvershoot.toInt)
    (hself : t.covers p.shared.state.threshold.toInt p.shared.excess →
      g'.Recorded (p.tasks.set i t') p.shared.excess) :
    g'.Recorded (p.tasks.set i t') g'.excess := by
  have hexcess : g'.excess = p.shared.excess := by rw [excess, hthreshold, hcount, excess]
  rw [hexcess]
  exact h.set hi hthreshold hmax hself

theorem recorded_exchange {cur m : Int64} (h : p.shared.Recorded p.tasks p.shared.excess)
    (hi : p.tasks[i]? = some (.exchange cur m)) (hroom : cur < m)
    (hheeds : p.shared.state.ongoing = cur → p.shared.Recorded p.tasks (p.shared.excess + 1)) :
    (p.shared.exchange cur m).2.Recorded (p.tasks.set i (p.shared.exchange cur m).1)
      (p.shared.exchange cur m).2.excess := by
  unfold exchange
  split
  · rename_i hcur
    have hexcess : ((cur + 1).toInt - p.shared.state.threshold.toInt) = p.shared.excess + 1 := by
      rw [toInt_add_one hroom, excess, hcur]
      omega
    simp only [excess] at hexcess ⊢
    rw [hexcess]
    exact (hheeds hcur).set hi rfl (Int.le_refl _) nofun
  · exact recorded_act h hi rfl rfl (Int.le_refl _) nofun

theorem recorded_subtract {n : Nat} {stale : Bool} (haccounted : p.shared.Accounted)
    (h : p.shared.Recorded p.tasks p.shared.excess) (hi : p.tasks[i]? = some (.subtract n stale))
    {slot : Slot} (hn : p.shared.slots[n]? = some slot) (hfreed : slot.freed = 0) :
    (p.shared.subtract n stale).2.Recorded (p.tasks.set i (p.shared.subtract n stale).1)
      (p.shared.subtract n stale).2.excess := by
  have hlive := live_free hn hfreed
  have hongoing := haccounted.ongoing
  have hexcess : (p.shared.subtract n stale).2.excess = p.shared.excess - 1 := by
    simp only [subtract, setState, modifySlot, excess]
    rw [toInt_sub_one (by omega)]
    omega
  rw [hexcess]
  exact (h.mono (by omega)).set hi rfl (Int.le_refl _) nofun

theorem recorded_control {ops : List ControlOp} (haccounted : p.shared.Accounted)
    (h : p.shared.Recorded p.tasks p.shared.excess) (hi : p.tasks[i]? = some (.control ops))
    (hheeds : Heeds p (.step i)) :
    (control ops p.shared).2.Recorded (p.tasks.set i (control ops p.shared).1)
      (control ops p.shared).2.excess := by
  have hlt := (List.getElem?_eq_some_iff.mp hi).1
  cases ops with
  | nil => exact recorded_act h hi rfl rfl (Int.le_refl _) nofun
  | cons op ops =>
    cases op with
    | storeRetry | storeDecay | storeEnabled => exact recorded_act h hi rfl rfl (Int.le_refl _) nofun
    | swapThreshold m =>
      refine .inr ⟨.control (.loadOngoing m :: ops), List.mem_set hlt _, ?_⟩
      exact decide_eq_true (Int.le_refl _)
    | loadOngoing m =>
      simp only [Heeds, hi, Option.all_some, heeds, decide_eq_true_eq] at hheeds
      refine recorded_act h hi rfl rfl (Int.le_refl _) fun hcovers => ?_
      simp only [Task.covers, decide_eq_true_eq] at hcovers
      refine .inr ⟨_, List.mem_set hlt _, ?_⟩
      have hongoing := haccounted.ongoing
      have hm := m.toInt_lt
      have hfits : (p.shared.state.ongoing - m).toInt =
          p.shared.state.ongoing.toInt - m.toInt := by
        rw [Int64.toInt_sub]
        exact Int.bmod_eq_of_le_mul_two (by omega) (by omega)
      refine decide_eq_true ?_
      rw [hfits, excess]
      omega
    | recordOvershoot overshoot =>
      have hmax := toInt_max p.shared.state.maxOvershoot overshoot
      have hgrows : p.shared.state.maxOvershoot.toInt ≤
          (max p.shared.state.maxOvershoot overshoot).toInt := by omega
      refine recorded_act h hi rfl rfl hgrows fun hcovers => .inl ?_
      simp only [Task.covers, decide_eq_true_eq] at hcovers
      simp only [control, setState, CblState.recordOvershoot]
      omega

theorem recorded_step (hholds : outline.Holds p) (h : p.shared.Recorded p.tasks p.shared.excess)
    {m : Tasks.Move Entry} (hheeds : Heeds p m) :
    (program.step p m).shared.Recorded (program.step p m).tasks (program.step p m).shared.excess := by
  obtain hsame | ⟨e, t, g', rfl, henter, hstep⟩ | ⟨i, t, rfl, hi, hstep⟩ :=
    Tasks.Program.step_cases (P := program) p m
  · rwa [hsame]
  · have hstate := enter_state henter
    rw [hstep]
    simp only [Recorded, excess, hstate] at h ⊢
    rcases h with hless | ⟨u, hu, hcovers⟩
    · exact .inl hless
    · exact .inr ⟨u, List.mem_append_left _ hu, hcovers⟩
  · have hspot := hholds.spot i t hi
    rw [hstep]
    cases t with
    | exchange cur m =>
      simp only [Heeds, hi, Option.all_some, heeds, decide_eq_true_eq] at hheeds
      exact recorded_exchange h hi hspot hheeds
    | subtract n stale =>
      obtain ⟨slot, hn, -, -, hfreed⟩ := hspot
      exact recorded_subtract hholds.inv h hi hn hfreed
    | control ops => exact recorded_control hholds.inv h hi hheeds
    | recordAdmitted overshoot n =>
      have hmax := toInt_max p.shared.state.maxOvershoot overshoot
      have hgrows : p.shared.state.maxOvershoot.toInt ≤
          (max p.shared.state.maxOvershoot overshoot).toInt := by omega
      exact recorded_act h hi rfl rfl hgrows nofun
    | release n stale =>
      simp only [program, act, release]
      split
      · exact recorded_act h hi rfl rfl (Int.le_refl _) nofun
      · exact recorded_act h hi rfl rfl (Int.le_refl _) nofun
    | loadThreshold cur =>
      exact recorded_act h hi rfl rfl (Int.le_refl _) nofun
    | _ => exact recorded_act h hi rfl rfl (Int.le_refl _) nofun

/-- No call of `admit` and no change of the threshold is under way. -/
def Settled (p : Tasks.Pool Gate Task) : Prop := ∀ t ∈ p.tasks, t.midway = false

instance : DecidablePred Settled := fun p => inferInstanceAs (Decidable (∀ t ∈ p.tasks, _))

theorem Recorded.settled (h : p.shared.Recorded p.tasks p.shared.excess) (hsettled : Settled p) :
    p.shared.excess ≤ max 0 p.shared.state.maxOvershoot.toInt := by
  rcases h with hless | ⟨t, ht, hcovers⟩
  · exact hless
  · have hmidway := hsettled t ht
    unfold Task.covers at hcovers
    split at hcovers
    · cases hmidway
    · cases hmidway
    · cases hcovers

/-! #### Without the race -/

/-- No threshold is set that is lower than one which a waiting compare-exchange has read; and an
overshoot fits its counter. -/
def unlowered (p : Tasks.Pool Gate Task) : Task → Bool
  | .control (.swapThreshold m :: _) => p.tasks.all (Task.within m)
  | .control (.loadOngoing m :: _) =>
      decide (p.shared.state.ongoing.toInt - m.toInt < 2 ^ 63)
  | _ => true

def Unlowered (p : Tasks.Pool Gate Task) : Tasks.Move Entry → Prop
  | .step i => p.tasks[i]?.all (unlowered p) = true
  | .start _ => True

/-- Whoever waits to compare and exchange has read no higher a threshold than the one in force. -/
def Current (p : Tasks.Pool Gate Task) : Prop :=
  ∀ t ∈ p.tasks, t.within p.shared.state.threshold = true

theorem Current.set (h : Current p) {t' : Task} {g' : Gate}
    (hthreshold : g'.state.threshold = p.shared.state.threshold)
    (ht' : t'.within p.shared.state.threshold = true) :
    Current { shared := g', tasks := p.tasks.set i t' } := by
  intro u hu
  rw [hthreshold]
  obtain hold | rfl := List.mem_or_eq_of_mem_set hu
  · exact h u hold
  · exact ht'

theorem enter_within {e : Entry} {t : Task} {g g' : Gate} (h : enter e g = some (t, g')) (m : Int64) :
    t.within m = true := by
  cases e with
  | admitCall =>
    cases h
    cases g.state.enabled <;> rfl
  | control body =>
    cases h
    rfl
  | drop | decay =>
    simp only [enter, Option.ite_none_right_eq_some, Option.some.injEq, Prod.mk.injEq] at h
    rw [← h.2.1]
    rfl

theorem current_step (h : Current p) {m : Tasks.Move Entry} (hm : Unlowered p m) :
    Current (program.step p m) := by
  obtain hsame | ⟨e, t, g', rfl, henter, hstep⟩ | ⟨i, t, rfl, hi, hstep⟩ :=
    Tasks.Program.step_cases (P := program) p m
  · rwa [hsame]
  · rw [hstep]
    intro u hu
    rw [enter_state henter]
    obtain hold | hnew := List.mem_append.mp hu
    · exact h u hold
    · rw [List.mem_singleton.mp hnew]
      exact enter_within henter _
  · rw [hstep]
    cases t with
    | loadThreshold cur =>
      refine h.set rfl ?_
      simp only [program, act]
      split
      · rfl
      · exact decide_eq_true (Int64.le_refl _)
    | exchange cur m =>
      simp only [program, act, exchange]
      split
      · exact h.set rfl rfl
      · exact h.set rfl rfl
    | release n stale =>
      simp only [program, act, release]
      split
      · exact h.set rfl rfl
      · exact h.set rfl rfl
    | subtract n stale =>
      refine h.set rfl ?_
      cases stale <;> rfl
    | control ops =>
      cases ops with
      | nil => exact h.set rfl rfl
      | cons op ops =>
        cases op with
        | swapThreshold m =>
          simp only [Unlowered, hi, Option.all_some, unlowered, List.all_eq_true] at hm
          intro u hu
          obtain hold | rfl := List.mem_or_eq_of_mem_set hu
          · exact hm u hold
          · rfl
        | _ => exact h.set rfl rfl
    | _ => exact h.set rfl rfl

/-- A slot is then taken below the threshold in force. -/
theorem heeds_of_unlowered (hholds : outline.Holds p) (h : Current p) {m : Tasks.Move Entry}
    (hm : Unlowered p m) : Heeds p m := by
  cases m with
  | start => trivial
  | step i =>
    cases hi : p.tasks[i]? with
    | none => simp [Heeds, hi]
    | some t =>
      simp only [Unlowered, hi, Option.all_some] at hm
      simp only [Heeds, hi, Option.all_some]
      cases t with
      | exchange cur read =>
        have hroom := Int64.lt_iff_toInt_lt.mp (hholds.spot i _ hi)
        have hread := h _ (List.mem_of_getElem? hi)
        simp only [Task.within, decide_eq_true_eq] at hread
        have hread := Int64.le_iff_toInt_le.mp hread
        refine decide_eq_true fun hcur => .inl ?_
        rw [excess, hcur]
        omega
      | control ops =>
        cases ops with
        | nil => rfl
        | cons op ops => cases op <;> first | rfl | exact hm
      | _ => rfl

/-- **Accounting.** `ongoing` is the number of slots not given back, none of which is given back twice;
and in runs that heed the overshoot it exceeds the threshold by no more than is on record.  So it is where
no threshold falls between the load and the compare-exchange of `admit`. -/
theorem accounting (threshold : Option Int64) (retryMs : UInt32) (decayMs : UInt64) (runtime : Bool)
    (ms : List (Tasks.Move Entry)) :
    let p := Runs.run program.step (launch threshold retryMs decayMs runtime) ms
    p.shared.state.ongoing.toInt = p.shared.live ∧
      (∀ slot ∈ p.shared.slots, slot.freed ≤ 1) ∧
      (0 ≤ (threshold.getD 0).toInt →
        Runs.Along program.step Heeds (launch threshold retryMs decayMs runtime) ms →
        Settled p → p.shared.excess ≤ max 0 p.shared.state.maxOvershoot.toInt) ∧
      (Runs.Along program.step Unlowered (launch threshold retryMs decayMs runtime) ms →
        Runs.Along program.step Heeds (launch threshold retryMs decayMs runtime) ms) := by
  have hholds := accounted_run threshold retryMs decayMs runtime ms
  have hlaunch : outline.Holds (launch threshold retryMs decayMs runtime) :=
    Tasks.Outline.Holds.none (Accounted.launch _ runtime rfl)
  refine ⟨hholds.inv.ongoing, hholds.inv.once, fun hthreshold halong hsettled => ?_, ?_⟩
  · have hstart : (launch threshold retryMs decayMs runtime).shared.excess ≤ 0 := by
      have hnone : (launch threshold retryMs decayMs runtime).shared.excess =
          0 - (threshold.getD 0).toInt := rfl
      omega
    have hrecorded := Runs.invariant_along
      (I := fun p => outline.Holds p ∧ p.shared.Recorded p.tasks p.shared.excess)
      (fun _ _ hheeds hp => ⟨sound.step _ hp.1, recorded_step hp.1 hp.2 hheeds⟩) halong
      ⟨hlaunch, .inl (by omega)⟩
    exact hrecorded.2.settled hsettled
  · exact Runs.along_imp (I := fun p => outline.Holds p ∧ Current p)
      (fun _ _ hm hp => ⟨sound.step _ hp.1, current_step hp.2 hm⟩)
      (fun _ _ hp hm => heeds_of_unlowered hp.1 hp.2 hm)
      ⟨hlaunch, fun _ ht => absurd ht List.not_mem_nil⟩

/-- A registration takes the last slot before the threshold falls to zero. -/
def taken : List (Tasks.Move Entry) :=
  [.start .admitCall, .step 0, .step 0, .step 0, .step 0, .step 0, .step 0,
    .start (.control { threshold := some 0 }), .step 1, .step 1, .step 1, .step 1]

theorem accounting_taken :
    (Runs.run program.step (launch (some 1) 2000 10000 true) taken).shared.excess = 1 ∧
      (Runs.run program.step (launch (some 1) 2000 10000 true) taken).shared.excess ≤
        max 0 (Runs.run program.step (launch (some 1) 2000 10000 true)
          taken).shared.state.maxOvershoot.toInt :=
  ⟨by decide, (accounting (some 1) 2000 10000 true taken).2.2.1 (by decide) (by decide) (by decide)⟩

/-- A registration has read a threshold of one when it falls to zero. -/
def lowered : List (Tasks.Move Entry) :=
  [.start .admitCall, .step 0, .step 0, .start (.control { threshold := some 0 }), .step 1, .step 1,
    .step 1, .step 1, .step 0, .step 0, .step 0, .step 0]

/-- It takes its slot all the same, and nothing is on record. -/
theorem unrecorded_lowered :
    let p := Runs.run program.step (launch (some 1) 2000 10000 true) lowered
    Settled p ∧ max 0 p.shared.state.maxOvershoot.toInt < p.shared.excess := by
  decide

end Gate

end Radian.Amf.Cbl
