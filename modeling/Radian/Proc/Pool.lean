import Radian.Proc.Outside

/-!
# Pools of processes

Any number of threads over one shared state.  A thread is idle between two bodies or waits at a
call; a step runs one thread from where it stands to its next call, so the calls are exactly the
points where threads interleave.

- `Pool.Step`, `Pool.Reach` — steps and runs.  `allow` is the side condition of a run: every mark
  a step passes must meet it.
- `Pool.move`, `Pool.moves` — steps and runs as functions, and `Pool.reach_moves`.
-/

/-- An outside together with the bodies threads may start. -/
structure System (L S N E : Type) (R : E → Type) (W C : Type) extends Outside L S N E R W where
  body : C → Proc L S N E R Unit
  /-- Which bodies an idle thread may start. -/
  enabled : C → L → S → Bool
  /-- The local states a new thread may begin with. -/
  initial : L → Bool

inductive Thread (L S N E : Type) (R : E → Type) : Type where
  | idle (l : L)
  | waiting (l : L) (e : E) (k : R e → Proc L S N E R Unit)

/-- No body is under way on this thread. -/
def Thread.isIdle {L S N E : Type} {R : E → Type} : Thread L S N E R → Bool
  | .idle _ => true
  | .waiting .. => false

structure Pool (L S N E : Type) (R : E → Type) (W : Type) where
  threads : List (Thread L S N E R)
  shared : S
  world : W

variable {L S N E W C : Type} {R : E → Type}

/-! ### One section -/

namespace Proc

/-- Run a process to its next call, or to its end. -/
def advance (O : Outside L S N E R W) : Proc L S N E R Unit → L → S → W → Thread L S N E R × S × W
  | .ret _, l, s, w => (.idle l, s, w)
  | .get k, l, s, w => advance O (k l s) l s w
  | .put l s k, _, _, w => advance O k l s w
  | .note n k, l, s, w => advance O k l s (O.mark n l s w)
  | .call e k, l, s, w => (.waiting l e k, s, w)

/-- Every mark passed before the next call meets `allow`. -/
def Allowed (O : Outside L S N E R W) (allow : N → L → S → W → Prop) :
    Proc L S N E R Unit → L → S → W → Prop
  | .ret _, _, _, _ => True
  | .get k, l, s, w => Allowed O allow (k l s) l s w
  | .put l s k, _, _, w => Allowed O allow k l s w
  | .note n k, l, s, w => allow n l s w ∧ Allowed O allow k l s (O.mark n l s w)
  | .call _ _, _, _, _ => True

instance decidableAllowed (O : Outside L S N E R W) (allow : N → L → S → W → Prop)
    [∀ n l s w, Decidable (allow n l s w)] :
    (t : Proc L S N E R Unit) → (l : L) → (s : S) → (w : W) → Decidable (Allowed O allow t l s w)
  | .ret _, _, _, _ => .isTrue trivial
  | .get k, l, s, w => decidableAllowed O allow (k l s) l s w
  | .put l s k, _, _, w => decidableAllowed O allow k l s w
  | .note n k, l, s, w =>
      have := decidableAllowed O allow k l s (O.mark n l s w)
      inferInstanceAs (Decidable (allow n l s w ∧ Allowed O allow k l s (O.mark n l s w)))
  | .call _ _, _, _, _ => .isTrue trivial

end Proc

/-! ### Steps and runs -/

namespace Pool

variable (Y : System L S N E R W C) (allow : N → L → S → W → Prop)

/-- One step of a pool: a new thread, a body started by an idle thread, or a call answered. -/
inductive Step : Pool L S N E R W → Pool L S N E R W → Prop where
  | spawn {ts s w} (l : L) : Y.initial l = true → Step ⟨ts, s, w⟩ ⟨ts ++ [.idle l], s, w⟩
  | start {pre post l s w} (c : C) : Y.enabled c l s = true →
      (Y.body c).Allowed Y.toOutside allow l s w →
      Step ⟨pre ++ .idle l :: post, s, w⟩
        ⟨pre ++ ((Y.body c).advance Y.toOutside l s w).1 :: post,
          ((Y.body c).advance Y.toOutside l s w).2.1, ((Y.body c).advance Y.toOutside l s w).2.2⟩
  | resume {pre post l e k s w} (r : R e) : Y.answers e w r = true →
      (k r).Allowed Y.toOutside allow l s (Y.effect e r w) →
      Step ⟨pre ++ .waiting l e k :: post, s, w⟩
        ⟨pre ++ ((k r).advance Y.toOutside l s (Y.effect e r w)).1 :: post,
          ((k r).advance Y.toOutside l s (Y.effect e r w)).2.1,
          ((k r).advance Y.toOutside l s (Y.effect e r w)).2.2⟩

/-- A run: any number of steps. -/
inductive Reach (p₀ : Pool L S N E R W) : Pool L S N E R W → Prop where
  | refl : Reach p₀ p₀
  | step {p p'} : Reach p₀ p → Step Y allow p p' → Reach p₀ p'

/-- No body is under way. -/
def Quiet (p : Pool L S N E R W) : Prop := ∀ t ∈ p.threads, ∃ l, t = .idle l

theorem quiet_of_all {p : Pool L S N E R W} (h : p.threads.all Thread.isIdle = true) :
    p.Quiet := by
  intro t ht
  have hidle := List.all_eq_true.mp h t ht
  cases t with
  | idle l => exact ⟨l, rfl⟩
  | waiting l e k => cases hidle

variable {Y allow}

theorem Reach.trans {p₀ p₁ p₂ : Pool L S N E R W} (h₁ : Reach Y allow p₀ p₁)
    (h₂ : Reach Y allow p₁ p₂) : Reach Y allow p₀ p₂ := by
  induction h₂ with
  | refl => exact h₁
  | step _ hs ih => exact .step ih hs

/-- A choice of the scheduler and of the outside. -/
inductive Move (L E : Type) (R : E → Type) (C : Type) : Type where
  | spawn (l : L)
  | start (i : Nat) (c : C)
  | resume (i : Nat) (answer : (e : E) → R e)

variable (Y allow) [∀ n l s w, Decidable (allow n l s w)]

/-- The pool after a move, when the move is possible. -/
def move : Move L E R C → Pool L S N E R W → Option (Pool L S N E R W)
  | .spawn l, ⟨ts, s, w⟩ => if Y.initial l then some ⟨ts ++ [.idle l], s, w⟩ else none
  | .start i c, ⟨ts, s, w⟩ =>
      match ts.take i, ts.drop i with
      | pre, .idle l :: post =>
          if Y.enabled c l s = true ∧ (Y.body c).Allowed Y.toOutside allow l s w then
            let out := (Y.body c).advance Y.toOutside l s w
            some ⟨pre ++ out.1 :: post, out.2.1, out.2.2⟩
          else none
      | _, _ => none
  | .resume i answer, ⟨ts, s, w⟩ =>
      match ts.take i, ts.drop i with
      | pre, .waiting l e k :: post =>
          if Y.answers e w (answer e) = true ∧
              (k (answer e)).Allowed Y.toOutside allow l s (Y.effect e (answer e) w) then
            let out := (k (answer e)).advance Y.toOutside l s (Y.effect e (answer e) w)
            some ⟨pre ++ out.1 :: post, out.2.1, out.2.2⟩
          else none
      | _, _ => none

/-- The pool after a list of moves. -/
def moves : List (Move L E R C) → Pool L S N E R W → Option (Pool L S N E R W)
  | [], p => some p
  | m :: ms, p => (move Y allow m p).bind (moves ms)

variable {Y allow}

theorem step_move {m : Move L E R C} {p p' : Pool L S N E R W} (h : move Y allow m p = some p') :
    Step Y allow p p' := by
  obtain ⟨ts, s, w⟩ := p
  cases m with
  | spawn l =>
    simp only [move, Option.ite_none_right_eq_some, Option.some.injEq] at h
    obtain ⟨hl, rfl⟩ := h
    exact .spawn l hl
  | start i c =>
    rw [← List.take_append_drop i ts]
    simp only [move] at h
    cases hd : ts.drop i with
    | nil => simp [hd] at h
    | cons t post =>
      cases t with
      | waiting l e k => simp [hd] at h
      | idle l =>
        simp only [hd, Option.ite_none_right_eq_some, Option.some.injEq] at h
        obtain ⟨⟨hc, ha⟩, rfl⟩ := h
        exact .start c hc ha
  | resume i answer =>
    rw [← List.take_append_drop i ts]
    simp only [move] at h
    cases hd : ts.drop i with
    | nil => simp [hd] at h
    | cons t post =>
      cases t with
      | idle l => simp [hd] at h
      | waiting l e k =>
        simp only [hd, Option.ite_none_right_eq_some, Option.some.injEq] at h
        obtain ⟨⟨hr, ha⟩, rfl⟩ := h
        exact .resume (answer e) hr ha

/-- What a list of moves produces is reachable. -/
theorem reach_moves {ms : List (Move L E R C)} {p p' : Pool L S N E R W}
    (h : moves Y allow ms p = some p') : Reach Y allow p p' := by
  induction ms generalizing p with
  | nil =>
    obtain rfl : p = p' := by simpa [moves] using h
    exact .refl
  | cons m ms ih =>
    obtain ⟨q, hq, hrest⟩ := Option.bind_eq_some_iff.mp h
    exact Reach.trans (.step .refl (step_move hq)) (ih hrest)

end Pool
