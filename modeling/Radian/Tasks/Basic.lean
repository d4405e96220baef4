import Radian.Runs.Basic

/-!
# Interleaved tasks

Any number of tasks over one shared state.  A task stands somewhere in its body and takes one atomic
step at a time; steps of different tasks interleave freely.

- `Tasks.Program`, `Tasks.Program.step` — how tasks begin, what the next step of one does, and the
  machine that interleaves them.
- `Tasks.Outline` — an invariant of the shared state and an assertion at each place of a task.
- `Tasks.Outline.Sound.run` — an outline that every step of one task respects, for the task itself and
  for the others, holds in every run.
-/

namespace Tasks

variable {S T E : Type}

structure Pool (S T : Type) where
  shared : S
  tasks : List T
  deriving Repr

/-- How a new task begins, if it may, and the next step of the task at a position. -/
structure Program (S T E : Type) where
  enter : E → S → Option (T × S)
  act : Nat → T → S → T × S

/-- A task begins, or the task at a position takes a step. -/
inductive Move (E : Type) where
  | start (e : E)
  | step (i : Nat)
  deriving DecidableEq, Repr

namespace Program

variable (P : Program S T E)

def step (p : Pool S T) : Move E → Pool S T
  | .start e =>
      match P.enter e p.shared with
      | some (t, s) => { shared := s, tasks := p.tasks ++ [t] }
      | none => p
  | .step i =>
      match p.tasks[i]? with
      | some t => { shared := (P.act i t p.shared).2, tasks := p.tasks.set i (P.act i t p.shared).1 }
      | none => p

variable {P}

/-- What a move does: nothing, or a task begins, or one task takes its next step. -/
theorem step_cases (p : Pool S T) (m : Move E) :
    P.step p m = p ∨
      (∃ e t s, m = .start e ∧ P.enter e p.shared = some (t, s) ∧
        P.step p m = { shared := s, tasks := p.tasks ++ [t] }) ∨
      (∃ i t, m = .step i ∧ p.tasks[i]? = some t ∧
        P.step p m =
          { shared := (P.act i t p.shared).2, tasks := p.tasks.set i (P.act i t p.shared).1 }) := by
  cases m with
  | start e =>
    cases henter : P.enter e p.shared with
    | none =>
      left
      simp only [step, henter]
    | some out =>
      obtain ⟨t, s⟩ := out
      right
      left
      exact ⟨e, t, s, rfl, henter, by simp only [step, henter]⟩
  | step i =>
    cases hi : p.tasks[i]? with
    | none =>
      left
      simp only [step, hi]
    | some t =>
      right
      right
      exact ⟨i, t, rfl, hi, by simp only [step, hi]⟩

end Program

/-- Where one task has moved on, every other one is still there. -/
theorem mem_set_of_ne {l : List T} {i : Nat} {t t' u : T} (hi : l[i]? = some t) (hu : u ∈ l)
    (hne : u ≠ t) : u ∈ l.set i t' := by
  obtain ⟨j, hj⟩ := List.mem_iff_getElem?.mp hu
  have hij : i ≠ j := by
    rintro rfl
    exact hne (Option.mem_unique hj hi)
  exact List.mem_of_getElem? ((List.getElem?_set_ne hij).trans hj)

theorem mem_set_self {l : List T} {i : Nat} {t t' : T} (hi : l[i]? = some t) : t' ∈ l.set i t' :=
  List.mem_set (List.getElem?_eq_some_iff.mp hi).1 t'

/-! ### Proof outlines -/

/-- An invariant of the shared state, and what holds of it where a task stands. -/
structure Outline (S T : Type) where
  inv : S → Prop
  spot : Nat → T → S → Prop

namespace Outline

variable (A : Outline S T) (P : Program S T E)

/-- The invariant, and every task's assertion. -/
structure Holds (p : Pool S T) : Prop where
  inv : A.inv p.shared
  spot : ∀ i t, p.tasks[i]? = some t → A.spot i t p.shared

/-- The other tasks' assertions survive a change of the shared state. -/
def Undisturbed (i : Nat) (s s' : S) : Prop := ∀ j t, j ≠ i → A.spot j t s → A.spot j t s'

/-- Every beginning and every step respects the outline. -/
structure Sound : Prop where
  enter : ∀ i e s t s', A.inv s → P.enter e s = some (t, s') →
    A.inv s' ∧ A.spot i t s' ∧ A.Undisturbed i s s'
  act : ∀ i t s, A.inv s → A.spot i t s →
    A.inv (P.act i t s).2 ∧ A.spot i (P.act i t s).1 (P.act i t s).2 ∧
      A.Undisturbed i s (P.act i t s).2

variable {A P}

theorem Undisturbed.refl {i : Nat} {s : S} : A.Undisturbed i s s := fun _ _ _ h => h

theorem Undisturbed.trans {i : Nat} {s s' s'' : S} (h : A.Undisturbed i s s')
    (h' : A.Undisturbed i s' s'') : A.Undisturbed i s s'' :=
  fun j t hj hs => h' j t hj (h j t hj hs)

namespace Holds

variable {p : Pool S T}

theorem none {s : S} (h : A.inv s) : A.Holds { shared := s, tasks := [] } := by
  refine ⟨h, ?_⟩
  intro i t hi
  simp at hi

theorem begin (h : A.Holds p) {t : T} {s : S} (hinv : A.inv s) (hspot : A.spot p.tasks.length t s)
    (hothers : A.Undisturbed p.tasks.length p.shared s) :
    A.Holds { shared := s, tasks := p.tasks ++ [t] } := by
  refine ⟨hinv, ?_⟩
  intro j u hj
  rcases Nat.lt_trichotomy j p.tasks.length with hlt | heq | hgt
  · rw [List.getElem?_append_left hlt] at hj
    exact hothers j u (Nat.ne_of_lt hlt) (h.spot j u hj)
  · subst heq
    rw [List.getElem?_concat_length, Option.some.injEq] at hj
    exact hj ▸ hspot
  · have hend : (p.tasks ++ [t]).length ≤ j := by
      rw [List.length_append]
      exact hgt
    rw [List.getElem?_eq_none hend] at hj
    exact absurd hj (by simp)

theorem act (h : A.Holds p) {i : Nat} {t t' : T} {s : S} (hi : p.tasks[i]? = some t)
    (hinv : A.inv s) (hspot : A.spot i t' s) (hothers : A.Undisturbed i p.shared s) :
    A.Holds { shared := s, tasks := p.tasks.set i t' } := by
  refine ⟨hinv, ?_⟩
  intro j u hj
  by_cases hji : j = i
  · subst hji
    rw [List.getElem?_set_self (List.getElem?_eq_some_iff.mp hi).1, Option.some.injEq] at hj
    exact hj ▸ hspot
  · rw [List.getElem?_set_ne (Ne.symm hji)] at hj
    exact hothers j u hji (h.spot j u hj)

end Holds

namespace Sound

variable (hA : A.Sound P)

include hA

theorem step {p : Pool S T} (m : Move E) (h : A.Holds p) : A.Holds (P.step p m) := by
  obtain hsame | ⟨e, t, s, -, henter, hstep⟩ | ⟨i, t, -, hi, hstep⟩ :=
    Program.step_cases (P := P) p m
  · rwa [hsame]
  · obtain ⟨hinv, hspot, hothers⟩ := hA.enter p.tasks.length e p.shared t s h.inv henter
    rw [hstep]
    exact h.begin hinv hspot hothers
  · obtain ⟨hinv, hspot, hothers⟩ := hA.act i t p.shared h.inv (h.spot i t hi)
    rw [hstep]
    exact h.act hi hinv hspot hothers

/-- **Soundness.** The outline holds in every run. -/
theorem run {p : Pool S T} (ms : List (Move E)) (h : A.Holds p) : A.Holds (Runs.run P.step p ms) :=
  Runs.invariant_of_step (fun _ m hp => hA.step m hp) ms h

end Sound

end Outline

end Tasks
