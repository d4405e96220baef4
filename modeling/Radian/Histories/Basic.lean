import Radian.Keyed.Basic
import Radian.Runs.Basic

/-!
# Contexts and what happened to each

Contexts under names that may be given again, each with a number of its own, and a log of what
happened, every entry under the number of its context.

- `World.history` — what happened to the context under a name.
- `Kept` — each context is as its history says.
- `Kept.step` — it stays so when each change of a context goes with its new entries.
-/

namespace Histories

variable {C H : Type}

structure World (C H : Type) where
  ctxs : Nat → Option C
  /-- The number of the context under a name. -/
  born : Nat → Nat
  births : Nat
  log : List (Nat × H)

inductive Event (C H : Type) where
  /-- A context changes, and something happens to it. -/
  | change (n : Nat) (c : C) (items : List H)
  | enter (n : Nat) (c : C)
  | leave (n : Nat)

namespace World

def start : World C H := { ctxs := fun _ => none, born := fun _ => 0, births := 0, log := [] }

def step (w : World C H) : Event C H → World C H
  | .change n c items =>
      { w with
        ctxs := Function.update w.ctxs n (some c)
        log := w.log ++ items.map fun x => (w.born n, x) }
  | .enter n c =>
      { w with
        ctxs := Function.update w.ctxs n (some c)
        born := Function.update w.born n w.births
        births := w.births + 1 }
  | .leave n => { w with ctxs := Function.update w.ctxs n none }

/-- What happened to the context with a number. -/
def of (number : Nat) (log : List (Nat × H)) : List H :=
  (log.filter fun e => e.1 = number).map Prod.snd

def history (w : World C H) (n : Nat) : List H := of (w.born n) w.log

theorem of_append (number : Nat) (log log' : List (Nat × H)) :
    of number (log ++ log') = of number log ++ of number log' := by
  simp [of]

theorem of_own (number : Nat) (items : List H) : of number (items.map fun x => (number, x)) = items := by
  simp [of, List.filter_map, Function.comp_def]

theorem of_other {number number' : Nat} (h : number' ≠ number) (items : List H) :
    of number (items.map fun x => (number', x)) = [] := by
  simp [of, List.filter_map, Function.comp_def, h]

end World

/-! ### Names that are given -/

section Names

variable {ctxs : Nat → Option C} {n m m' : Nat} {c d d' : C}

theorem entered_cases (born : Nat → Nat) (births : Nat) (h : Function.update ctxs n (some c) m = some d) :
    (m = n ∧ d = c ∧ Function.update born n births m = births) ∨
      (m ≠ n ∧ ctxs m = some d ∧ Function.update born n births m = born m) := by
  obtain ⟨rfl, hd⟩ | ⟨hne, hd⟩ := Keyed.of_update_some h
  · exact .inl ⟨rfl, hd, Function.update_self ..⟩
  · exact .inr ⟨hne, hd, Function.update_of_ne hne ..⟩

variable {born : Nat → Nat} {births : Nat}

theorem lt_entered (hborn : ∀ m d, ctxs m = some d → born m < births)
    (h : Function.update ctxs n (some c) m = some d) : Function.update born n births m < births + 1 := by
  obtain ⟨-, -, hnew⟩ | ⟨-, hm, hold⟩ := entered_cases born births h
  · omega
  · have hlt := hborn m d hm
    omega

/-- Who comes has another number than all who are there. -/
theorem apart_entered (hborn : ∀ m d, ctxs m = some d → born m < births)
    (hapart : ∀ m d m' d', ctxs m = some d → ctxs m' = some d' → born m = born m' → m = m')
    (h : Function.update ctxs n (some c) m = some d) (h' : Function.update ctxs n (some c) m' = some d')
    (heq : Function.update born n births m = Function.update born n births m') : m = m' := by
  obtain ⟨rfl, -, hnew⟩ | ⟨-, hm, hold⟩ := entered_cases born births h
  · obtain ⟨rfl, -, -⟩ | ⟨-, hm', hold'⟩ := entered_cases born births h'
    · rfl
    · have hlt := hborn m' d' hm'
      omega
  · have hlt := hborn m d hm
    obtain ⟨rfl, -, hnew'⟩ | ⟨-, hm', hold'⟩ := entered_cases born births h'
    · omega
    · exact hapart m d m' d' hm hm' (by omega)

end Names

/-- Contexts have different numbers, and each is as its history says. -/
structure Kept (I : C → List H → Prop) (w : World C H) : Prop where
  born : ∀ n c, w.ctxs n = some c → w.born n < w.births
  apart : ∀ n c n' c', w.ctxs n = some c → w.ctxs n' = some c' → w.born n = w.born n' → n = n'
  owners : ∀ e ∈ w.log, e.1 < w.births
  holds : ∀ n c, w.ctxs n = some c → I c (w.history n)

/-- A change of a context that is there goes with its entries, and one that comes is as a context
without a history. -/
def Event.Keeps (I : C → List H → Prop) (w : World C H) : Event C H → Prop
  | .change n c' items => ∃ c, w.ctxs n = some c ∧ I c' (w.history n ++ items)
  | .enter _ c => I c []
  | .leave _ => True

namespace Kept

variable {I : C → List H → Prop} {w : World C H}

theorem start : Kept I (World.start : World C H) where
  born _ _ h := nomatch h
  apart _ _ _ _ h := nomatch h
  owners _ h := nomatch h
  holds _ _ h := nomatch h

theorem change (h : Kept I w) {n : Nat} {c c' : C} {items : List H} (hc : w.ctxs n = some c)
    (hkeeps : I c' (w.history n ++ items)) : Kept I (w.step (.change n c' items)) := by
  have hwas : ∀ m d, Function.update w.ctxs n (some c') m = some d → ∃ d₀, w.ctxs m = some d₀ := by
    intro m d hm
    obtain ⟨rfl, -⟩ | ⟨-, hm⟩ := Keyed.of_update_some hm
    · exact ⟨c, hc⟩
    · exact ⟨d, hm⟩
  constructor
  · intro m d hm
    obtain ⟨d₀, hm₀⟩ := hwas m d hm
    exact h.born m d₀ hm₀
  · intro m d m' d' hm hm' heq
    obtain ⟨d₀, hm₀⟩ := hwas m d hm
    obtain ⟨d₁, hm₁⟩ := hwas m' d' hm'
    exact h.apart m d₀ m' d₁ hm₀ hm₁ heq
  · intro e he
    obtain hold | hnew := List.mem_append.mp he
    · exact h.owners e hold
    · obtain ⟨x, -, rfl⟩ := List.mem_map.mp hnew
      exact h.born n c hc
  · intro m d hm
    rw [World.history, World.step, World.of_append]
    dsimp only
    obtain ⟨rfl, rfl⟩ | ⟨hne, hm⟩ := Keyed.of_update_some hm
    · rw [World.of_own]
      exact hkeeps
    · have hother : w.born n ≠ w.born m := fun heq => hne (h.apart n c m d hc hm heq).symm
      rw [World.of_other hother, List.append_nil]
      exact h.holds m d hm

theorem enter (h : Kept I w) (n : Nat) {c : C} (hkeeps : I c []) : Kept I (w.step (.enter n c)) := by
  constructor
  · exact fun _ _ hm => lt_entered h.born hm
  · exact fun _ _ _ _ hm hm' heq => apart_entered h.born h.apart hm hm' heq
  · exact fun e he => Nat.lt_succ_of_lt (h.owners e he)
  · intro m d hm
    change I d (World.of (Function.update w.born n w.births m) w.log)
    obtain ⟨-, rfl, hborn⟩ | ⟨-, hm, hborn⟩ := entered_cases w.born w.births hm
    · -- nothing has happened to a new number
      have hnone : World.of w.births w.log = [] := by
        rw [World.of, List.map_eq_nil_iff, List.filter_eq_nil_iff]
        intro e he
        have hlt := h.owners e he
        simpa using Nat.ne_of_lt hlt
      rw [hborn, hnone]
      exact hkeeps
    · rw [hborn]
      exact h.holds m d hm

theorem leave (h : Kept I w) (n : Nat) : Kept I (w.step (.leave n)) := by
  constructor
  · exact fun m d hm => h.born m d (Keyed.of_update_none hm).2
  · exact fun m d m' d' hm hm' heq => h.apart m d m' d' (Keyed.of_update_none hm).2 (Keyed.of_update_none hm').2 heq
  · exact h.owners
  · exact fun m d hm => h.holds m d (Keyed.of_update_none hm).2

theorem step (h : Kept I w) {e : Event C H} (hkeeps : e.Keeps I w) : Kept I (w.step e) := by
  cases e with
  | change n c' items =>
    obtain ⟨c, hc, hkeeps⟩ := hkeeps
    exact h.change hc hkeeps
  | enter n c => exact h.enter n hkeeps
  | leave n => exact h.leave n

/-- Over a run of such events, each context is as its history says. -/
theorem run (h : Kept I w) {es : List (Event C H)}
    (halong : Runs.Along World.step (fun w e => e.Keeps I w) w es) : Kept I (Runs.run World.step w es) :=
  Runs.invariant_along (fun _ _ hkeeps h => h.step hkeeps) halong h

end Kept

end Histories
