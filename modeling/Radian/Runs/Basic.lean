import Mathlib.Algebra.Group.Basic
import Mathlib.Algebra.Group.Nat.Defs
import Mathlib.Data.List.Forall2
import Mathlib.Logic.Basic

/-!
# Runs of a state machine

A machine that takes every event in every state, run over a list of events.

- `Along` — a condition on every step of a run.
- `invariant_of_step` — what every step keeps holds at the end.
- `holds_run_iff` — what no step mends holds at the end exactly when every step meets a condition.
- `along_after_iff` — an invariant holds throughout exactly when every step meets a condition.
- `tally`, `conserved` — what enters and leaves over a run against what is held.
- `Since` — something happened, and since then only certain events.
- `Each` — a condition on every event and what came before it.
- `outputs`, `after` — the answers over a run, and the state it leads to.
- `Simulates` — from related states an event gives matching answers and related states.
- `Simulates.outputs` — so the answers match over every run.
- `outputs_alike_iff` — machines that part only at certain steps answer alike over a run exactly when
  the run has no such step.
-/

namespace Runs

variable {σ ε : Type} {step : σ → ε → σ}

/-- The state after the events. -/
def run (step : σ → ε → σ) (s : σ) (es : List ε) : σ := es.foldl step s

@[simp] theorem run_nil (s : σ) : run step s [] = s := rfl

@[simp] theorem run_cons (s : σ) (e : ε) (es : List ε) :
    run step s (e :: es) = run step (step s e) es := rfl

theorem run_append (s : σ) (es es' : List ε) :
    run step s (es ++ es') = run step (run step s es) es' := List.foldl_append

/-- Each event of the run comes where `P` allows it. -/
def Along (step : σ → ε → σ) (P : σ → ε → Prop) : σ → List ε → Prop
  | _, [] => True
  | s, e :: es => P s e ∧ Along step P (step s e) es

instance decidableAlong {P : σ → ε → Prop} [∀ s e, Decidable (P s e)] (s : σ) :
    ∀ es, Decidable (Along step P s es)
  | [] => inferInstanceAs (Decidable True)
  | e :: es =>
      have := decidableAlong (P := P) (step s e) es
      inferInstanceAs (Decidable (P s e ∧ Along step P (step s e) es))

theorem along_append {P : σ → ε → Prop} {s : σ} {es es' : List ε} :
    Along step P s (es ++ es') ↔ Along step P s es ∧ Along step P (run step s es) es' := by
  induction es generalizing s with
  | nil => exact (Iff.of_eq (true_and _)).symm
  | cons e es ih => rw [List.cons_append, Along, ih, Along, run_cons, and_assoc]

theorem along_and {P Q : σ → ε → Prop} {s : σ} {es : List ε} :
    Along step (fun s e => P s e ∧ Q s e) s es ↔ Along step P s es ∧ Along step Q s es := by
  induction es generalizing s with
  | nil => exact (Iff.of_eq (and_true _)).symm
  | cons e es ih => rw [Along, ih, Along, Along, and_and_and_comm]

/-- What every step keeps holds after every run. -/
theorem invariant_of_step {I : σ → Prop} (hstep : ∀ s e, I s → I (step s e)) {s : σ} (es : List ε)
    (hs : I s) : I (run step s es) := by
  induction es generalizing s with
  | nil => exact hs
  | cons e es ih => exact ih (hstep s e hs)

/-- What every step that is allowed keeps holds after every run of such steps. -/
theorem invariant_along {I : σ → Prop} {P : σ → ε → Prop} (hstep : ∀ s e, P s e → I s → I (step s e))
    {s : σ} {es : List ε} (halong : Along step P s es) (hs : I s) : I (run step s es) := by
  induction es generalizing s with
  | nil => exact hs
  | cons e es ih => exact ih halong.2 (hstep s e halong.1 hs)

/-- What holds of every event holds along the run. -/
theorem along_of_mem {P : ε → Prop} {s : σ} {es : List ε} (h : ∀ e ∈ es, P e) :
    Along step (fun _ e => P e) s es := by
  induction es generalizing s with
  | nil => trivial
  | cons e es ih => exact ⟨h e List.mem_cons_self, ih fun e' he' => h e' (List.mem_cons_of_mem _ he')⟩

/-- What every step keeps holds before each event. -/
theorem along_of_step {I : σ → Prop} (hstep : ∀ s e, I s → I (step s e)) {s : σ} (es : List ε)
    (hs : I s) : Along step (fun s _ => I s) s es := by
  induction es generalizing s with
  | nil => trivial
  | cons e es ih => exact ⟨hs, ih (hstep s e hs)⟩

/-- A condition that keeps an invariant implies along a run what it implies where that holds. -/
theorem along_imp {I : σ → Prop} {P Q : σ → ε → Prop} (hstep : ∀ s e, P s e → I s → I (step s e))
    (h : ∀ s e, I s → P s e → Q s e) {s : σ} {es : List ε} (hs : I s) (halong : Along step P s es) :
    Along step Q s es := by
  induction es generalizing s with
  | nil => trivial
  | cons e es ih => exact ⟨h s e hs halong.1, ih (hstep s e halong.1 hs) halong.2⟩

/-- Conditions that agree where an invariant holds agree along a run. -/
theorem along_congr {I : σ → Prop} {P Q : σ → ε → Prop} (hstep : ∀ s e, I s → I (step s e))
    (h : ∀ s e, I s → (P s e ↔ Q s e)) {s : σ} {es : List ε} (hs : I s) :
    Along step P s es ↔ Along step Q s es := by
  induction es generalizing s with
  | nil => exact Iff.rfl
  | cons e es ih => exact and_congr (h s e hs) (ih (hstep s e hs))

/-- In a run of steps that allow it, an invariant holds throughout exactly when every step meets the
condition under which that step keeps it. -/
theorem along_after_iff {I : σ → Prop} {P Q : σ → ε → Prop}
    (h : ∀ s e, Q s e → I s → (I (step s e) ↔ P s e)) {s : σ} {es : List ε}
    (halong : Along step Q s es) (hs : I s) :
    Along step (fun s e => I (step s e)) s es ↔ Along step P s es := by
  induction es generalizing s with
  | nil => exact Iff.rfl
  | cons e es ih =>
    obtain ⟨hallowed, hrest⟩ := halong
    constructor
    · rintro ⟨hnow, hlater⟩
      exact ⟨(h s e hallowed hs).mp hnow, (ih hrest hnow).mp hlater⟩
    · rintro ⟨hnow, hlater⟩
      have hafter := (h s e hallowed hs).mpr hnow
      exact ⟨hafter, (ih hrest hafter).mpr hlater⟩

/-- What a step that allows it leaves true exactly when it was true and the step meets a condition
holds at the end exactly when every step met it. -/
theorem holds_run_iff {I : σ → Prop} {P Q : σ → ε → Prop}
    (h : ∀ s e, Q s e → (I (step s e) ↔ I s ∧ P s e)) {s : σ} {es : List ε}
    (halong : Along step Q s es) : I (run step s es) ↔ I s ∧ Along step P s es := by
  induction es generalizing s with
  | nil => exact (Iff.of_eq (and_true _)).symm
  | cons e es ih => rw [run_cons, ih halong.2, h s e halong.1, Along, and_assoc]

/-! ### Totals -/

section Totals

variable {M : Type} [AddCommMonoid M]

/-- The sum of a quantity over the steps of a run. -/
def tally (step : σ → ε → σ) (f : σ → ε → M) : σ → List ε → M
  | _, [] => 0
  | s, e :: es => f s e + tally step f (step s e) es

theorem tally_add (f g : σ → ε → M) (s : σ) (es : List ε) :
    tally step (fun s e => f s e + g s e) s es = tally step f s es + tally step g s es := by
  induction es generalizing s with
  | nil => exact (add_zero 0).symm
  | cons e es ih =>
    simp only [tally, ih]
    exact add_add_add_comm _ _ _ _

/-- Where a sum is zero only if its terms are, a total is zero only if no step adds to it. -/
theorem tally_eq_zero_iff (hM : ∀ a b : M, a + b = 0 ↔ a = 0 ∧ b = 0) (f : σ → ε → M) (s : σ)
    (es : List ε) : tally step f s es = 0 ↔ Along step (fun s e => f s e = 0) s es := by
  induction es generalizing s with
  | nil => simp [tally, Along]
  | cons e es ih => rw [tally, hM, ih, Along]

/-- What holds as long as less than `bound` has been spent. -/
theorem invariant_within {I : ℕ → σ → Prop} {f : σ → ε → ℕ} {bound : ℕ}
    (hstep : ∀ n s e, I n s → n + f s e < bound → I (n + f s e) (step s e)) {n : ℕ} {s : σ}
    {es : List ε} (hs : I n s) (hfew : n + tally step f s es < bound) :
    I (n + tally step f s es) (run step s es) := by
  induction es generalizing n s with
  | nil => exact hs
  | cons e es ih =>
    rw [tally, ← add_assoc] at hfew ⊢
    exact ih (hstep n s e hs (Nat.lt_of_le_of_lt (Nat.le_add_right _ _) hfew)) hfew

/-- A counter of what is spent leaves room at every step of a run that spends less than `bound`. -/
theorem along_of_tally {c : σ → ℕ} {f : σ → ε → ℕ} {bound : ℕ}
    (hstep : ∀ s e, c s + f s e < bound → c (step s e) = c s + f s e) {s : σ} {es : List ε}
    (hfew : c s + tally step f s es < bound) :
    Along step (fun s e => c s + f s e < bound) s es := by
  induction es generalizing s with
  | nil => trivial
  | cons e es ih =>
    rw [tally, ← add_assoc] at hfew
    have hnow : c s + f s e < bound := Nat.lt_of_le_of_lt (Nat.le_add_right _ _) hfew
    refine ⟨hnow, ih ?_⟩
    rwa [hstep s e hnow]

/-- When each step holds back what enters and does not leave, so does the run. -/
theorem conserved {I : σ → Prop} {P : σ → ε → Prop} {held : σ → M} {inflow outflow : σ → ε → M}
    (hkeeps : ∀ s e, I s → P s e → I (step s e))
    (hstep : ∀ s e, I s → P s e → held (step s e) + outflow s e = held s + inflow s e)
    {s : σ} {es : List ε} (hs : I s) (halong : Along step P s es) :
    held (run step s es) + tally step outflow s es = held s + tally step inflow s es := by
  induction es generalizing s with
  | nil => rfl
  | cons e es ih =>
    obtain ⟨hnow, hrest⟩ := halong
    have hlater := ih (hkeeps s e hs hnow) hrest
    calc held (run step s (e :: es)) + tally step outflow s (e :: es)
        = outflow s e + (held (run step (step s e) es) + tally step outflow (step s e) es) := by
          rw [run_cons, tally, add_left_comm]
      _ = (held (step s e) + outflow s e) + tally step inflow (step s e) es := by
          rw [hlater, ← add_assoc, add_comm (outflow s e)]
      _ = held s + tally step inflow s (e :: es) := by
          rw [hstep s e hs hnow, tally, add_assoc]

end Totals

end Runs

/-! ### The past -/

namespace Runs

variable {ε : Type}

/-- At some event `now` held of it and its past, and every later event satisfies `stay`. -/
def Since (stay : ε → Prop) (now : List ε → ε → Prop) : List ε → Prop
  | [] => False
  | x :: past => now past x ∨ stay x ∧ Since stay now past

/-- `P` holds of every event and its past. -/
def Each (P : List ε → ε → Prop) : List ε → Prop
  | [] => True
  | x :: past => P past x ∧ Each P past

variable {stay : ε → Prop} {now now' : List ε → ε → Prop}

@[simp] theorem since_nil : ¬ Since stay now [] := id

@[simp] theorem since_cons {x : ε} {past : List ε} :
    Since stay now (x :: past) ↔ now past x ∨ stay x ∧ Since stay now past := Iff.rfl

@[simp] theorem each_cons {P : List ε → ε → Prop} {x : ε} {past : List ε} :
    Each P (x :: past) ↔ P past x ∧ Each P past := Iff.rfl

/-- Events that `stay` allows do not end it. -/
theorem Since.later {x : ε} {past : List ε} (h : Since stay now past) (hx : stay x) :
    Since stay now (x :: past) := .inr ⟨hx, h⟩

/-- Whatever happened is among the events. -/
theorem Since.exists_mem {w : List ε} (h : Since stay now w) : ∃ past, ∃ x ∈ w, now past x := by
  induction w with
  | nil => exact absurd h id
  | cons x past ih =>
    obtain hx | ⟨-, hlater⟩ := h
    · exact ⟨past, x, List.mem_cons_self, hx⟩
    · obtain ⟨past', y, hy, hnow⟩ := ih hlater
      exact ⟨past', y, List.mem_cons_of_mem x hy, hnow⟩

instance decidableSince [DecidablePred stay] [∀ past x, Decidable (now past x)] :
    ∀ w, Decidable (Since stay now w)
  | [] => inferInstanceAs (Decidable False)
  | x :: past =>
      have := decidableSince past
      inferInstanceAs (Decidable (now past x ∨ stay x ∧ Since stay now past))

end Runs

/-! ### Simulation -/

namespace Runs

variable {σ σ' ε ο ο' : Type}

/-- The answers to a list of events. -/
def outputs (step : σ → ε → ο × σ) : σ → List ε → List ο
  | _, [] => []
  | s, e :: es => (step s e).1 :: outputs step (step s e).2 es

/-- The state after a list of events. -/
def after (step : σ → ε → ο × σ) : σ → List ε → σ
  | s, [] => s
  | s, e :: es => after step (step s e).2 es

theorem after_append (step : σ → ε → ο × σ) (s : σ) (es es' : List ε) :
    after step s (es ++ es') = after step (after step s es) es' := by
  induction es generalizing s with
  | nil => rfl
  | cons e es ih => exact ih (step s e).2

/-- Related states answer alike and stay related. -/
def Simulates (step : σ → ε → ο × σ) (step' : σ' → ε → ο' × σ') (R : σ → σ' → Prop)
    (alike : ο → ο' → Prop) : Prop :=
  ∀ s s' e, R s s' → alike (step s e).1 (step' s' e).1 ∧ R (step s e).2 (step' s' e).2

namespace Simulates

variable {step : σ → ε → ο × σ} {step' : σ' → ε → ο' × σ'} {R : σ → σ' → Prop}
  {alike : ο → ο' → Prop}

theorem after (h : Simulates step step' R alike) (es : List ε) {s : σ} {s' : σ'} (hs : R s s') :
    R (after step s es) (after step' s' es) := by
  induction es generalizing s s' with
  | nil => exact hs
  | cons e es ih => exact ih (h s s' e hs).2

/-- **Simulation.** The answers match at every event of every run. -/
theorem outputs (h : Simulates step step' R alike) (es : List ε) {s : σ} {s' : σ'} (hs : R s s') :
    List.Forall₂ alike (outputs step s es) (outputs step' s' es) := by
  induction es generalizing s s' with
  | nil => exact .nil
  | cons e es ih =>
    obtain ⟨halike, hnext⟩ := h s s' e hs
    exact .cons halike (ih hnext)

end Simulates

/-- Machines that stay related as long as a condition is met, and answer alike exactly when it is,
answer alike over a run exactly when every step meets it. -/
theorem outputs_alike_iff {step : σ → ε → ο × σ} {step' : σ' → ε → ο' × σ'} {R : σ → σ' → Prop}
    {alike : ο → ο' → Prop} {P : σ → ε → Prop}
    (halike : ∀ s s' e, R s s' → (alike (step s e).1 (step' s' e).1 ↔ P s e))
    (hnext : ∀ s s' e, R s s' → P s e → R (step s e).2 (step' s' e).2) (es : List ε) {s : σ} {s' : σ'}
    (hs : R s s') :
    List.Forall₂ alike (outputs step s es) (outputs step' s' es) ↔
      Along (fun s e => (step s e).2) P s es := by
  induction es generalizing s s' with
  | nil => exact iff_of_true .nil trivial
  | cons e es ih =>
    rw [outputs, outputs, List.forall₂_cons, halike s s' e hs, Along]
    exact and_congr_right fun hmet => ih (hnext s s' e hs hmet)

end Runs
