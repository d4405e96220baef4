import Radian.Proc.Amid
import Radian.Proc.Serial

/-!
# A task that serves requests

One task takes one request after the other and keeps its local state; in between, and while it awaits
an answer, the shared state may move by what other tasks do.

- `Proc.recorder` — the outside that records the marks passed, newest first, and answers anything.
- `Proc.Loop` — what such a task makes of its state.
- `Proc.Loop.invariant` — what every request and every move keep, the task keeps.
- `Proc.attemptLoop` — the run an oracle of answers picks, as a function.
-/

namespace Proc

variable {L S N E W Q : Type} {R : E → Type} {α : Type}

/-- Calls are answered arbitrarily; the world is the history of marks. -/
def recorder (L S N E : Type) (R : E → Type) : Outside L S N E R (List N) where
  answers _ _ _ := true
  effect _ _ w := w
  mark n _ _ w := n :: w

/-- From one pair of states and a world, a sequence of requests and of moves leads to another. -/
inductive Loop (O : Outside L S N E R W) (allow : N → L → S → W → Prop)
    (body : Q → Proc L S N E R Unit) (drift : S → S → Prop) (l : L) (s : S) (w : W) :
    L → S → W → Prop where
  | refl : Loop O allow body drift l s w l s w
  | serve {l₁ s₁ w₁ l₂ s₂ w₂} (q : Q) : Loop O allow body drift l s w l₁ s₁ w₁ →
      Amid O allow drift (body q) l₁ s₁ w₁ () l₂ s₂ w₂ → Loop O allow body drift l s w l₂ s₂ w₂
  | drift {l₁ s₁ w₁ s₂} : Loop O allow body drift l s w l₁ s₁ w₁ → drift s₁ s₂ →
      Loop O allow body drift l s w l₁ s₂ w₁

namespace Loop

variable {O : Outside L S N E R W} {allow : N → L → S → W → Prop} {body : Q → Proc L S N E R Unit}
  {drift : S → S → Prop} {l l' : L} {s s' : S} {w w' : W}

/-- What every request and every move keep holds after every run. -/
theorem invariant {I : L → S → W → Prop}
    (hserve : ∀ q l s w, I l s w → during O allow drift (body q) (fun _ => I) l s w)
    (hdrift : ∀ l s s' w, I l s w → drift s s' → I l s' w)
    (h : Loop O allow body drift l s w l' s' w') (hI : I l s w) : I l' s' w' := by
  induction h with
  | refl => exact hI
  | serve q _ hexec ih => exact hexec.sound (hserve q _ _ _ ih)
  | drift _ hmove ih => exact hdrift _ _ _ _ ih hmove

theorem trans {l₁ : L} {s₁ : S} {w₁ : W} (h : Loop O allow body drift l s w l₁ s₁ w₁)
    (h' : Loop O allow body drift l₁ s₁ w₁ l' s' w') : Loop O allow body drift l s w l' s' w' := by
  induction h' with
  | refl => exact h
  | serve q _ hexec ih => exact .serve q ih hexec
  | drift _ hmove ih => exact .drift ih hmove

end Loop

section Attempt

variable (O : Outside L S N E R W) (allow : N → L → S → W → Prop)
  [∀ n l s w, Decidable (allow n l s w)] (oracle : (e : E) → W → R e) (body : Q → Proc L S N E R Unit)

/-- One request after the other, `oracle` answering every call, as far as it is admitted. -/
def attemptLoop : List Q → L → S → W → Option (L × S × W)
  | [], l, s, w => some (l, s, w)
  | q :: qs, l, s, w => do
      let (_, l, s, w) ← attempt O allow oracle (body q) l s w
      attemptLoop qs l s w

variable {O allow oracle body}

/-- What is attempted with success is a run. -/
theorem loop_attemptLoop {allow' : N → L → S → W → Prop} {drift : S → S → Prop}
    (hallow : ∀ n l s w, allow n l s w → allow' n l s w) (hdrift : ∀ s, drift s s) {qs : List Q}
    {l l' : L} {s s' : S} {w w' : W}
    (h : attemptLoop O allow oracle body qs l s w = some (l', s', w')) :
    Loop O allow' body drift l s w l' s' w' := by
  induction qs generalizing l s w with
  | nil =>
    cases h
    exact .refl
  | cons q qs ih =>
    simp only [attemptLoop, Option.bind_eq_bind, Option.bind_eq_some_iff] at h
    obtain ⟨⟨⟨⟩, l₁, s₁, w₁⟩, hone, hrest⟩ := h
    exact Loop.trans (.serve q .refl ((exec_attempt hone).amid hdrift hallow)) (ih hrest)

end Attempt

end Proc
