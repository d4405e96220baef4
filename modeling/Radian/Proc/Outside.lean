import Radian.Proc.Basic

/-!
# The outside of a process, and runs without interference

An `Outside` says what calls may be answered and what an answer has done to the world by the
time the caller resumes.  Read without interference it gives a process its *executions*.

- `Proc.Exec` — one execution of a process, every call answered and every mark meeting the side
  condition `allow`.
- `Proc.before` — the sequential weakest precondition.
- `Proc.Exec.sound` — what `before` establishes holds after every execution.
- `Proc.play` — the execution an oracle of answers picks, as a function.
-/

/-- The environment of processes: which answers a call may get, and how the world `W` moves
with an answer and at a mark. -/
structure Outside (L S N E : Type) (R : E → Type) (W : Type) where
  answers : (e : E) → W → R e → Bool
  effect : (e : E) → R e → W → W
  mark : N → L → S → W → W

namespace Proc

variable {L S N E W : Type} {R : E → Type} {α β : Type}

/-- An execution of a process from one pair of states and a world to a result. -/
inductive Exec (O : Outside L S N E R W) (allow : N → L → S → W → Prop) :
    Proc L S N E R α → L → S → W → α → L → S → W → Prop where
  | ret {a l s w} : Exec O allow (.ret a) l s w a l s w
  | get {k l s w a l' s' w'} : Exec O allow (k l s) l s w a l' s' w' →
      Exec O allow (.get k) l s w a l' s' w'
  | put {l₁ s₁ k l s w a l' s' w'} : Exec O allow k l₁ s₁ w a l' s' w' →
      Exec O allow (.put l₁ s₁ k) l s w a l' s' w'
  | note {n k l s w a l' s' w'} : allow n l s w →
      Exec O allow k l s (O.mark n l s w) a l' s' w' →
      Exec O allow (.note n k) l s w a l' s' w'
  | call {e k l s w r a l' s' w'} : O.answers e w r = true →
      Exec O allow (k r) l s (O.effect e r w) a l' s' w' →
      Exec O allow (.call e k) l s w a l' s' w'

/-- Marks may be assumed to meet `allow` and move the world; a call may get any answer it admits. -/
def sequentially (O : Outside L S N E R W) (allow : N → L → S → W → Prop) :
    Transformer L S N E R W where
  note n l s K w := allow n l s w → K (O.mark n l s w)
  call e K l s w := ∀ r, O.answers e w r = true → K r l s (O.effect e r w)

theorem sequentially_monotone (O : Outside L S N E R W) (allow : N → L → S → W → Prop) :
    (sequentially O allow).Monotone where
  note h hx ha := h _ (hx ha)
  call h hx r hr := h r _ _ _ (hx r hr)

/-- What must hold before `t`, run alone, for `Q` to hold after it. -/
abbrev before (O : Outside L S N E R W) (allow : N → L → S → W → Prop) (t : Proc L S N E R α)
    (Q : α → L → S → W → Prop) : L → S → W → Prop :=
  wp (sequentially O allow) t Q

section Rules

variable {O : Outside L S N E R W} {allow : N → L → S → W → Prop}

@[simp] theorem sequentially_note {n : N} {l : L} {s : S} {K : W → Prop} {w : W} :
    (sequentially O allow).note n l s K w = (allow n l s w → K (O.mark n l s w)) := rfl

@[simp] theorem sequentially_call {e : E} {K : R e → L → S → W → Prop} {l : L} {s : S} {w : W} :
    (sequentially O allow).call e K l s w =
      ∀ r, O.answers e w r = true → K r l s (O.effect e r w) := rfl

theorem before_mono {t : Proc L S N E R α} {P Q : α → L → S → W → Prop}
    (h : ∀ a l s w, P a l s w → Q a l s w) {l s w} (ht : before O allow t P l s w) :
    before O allow t Q l s w :=
  wp_mono (sequentially_monotone O allow) h ht

/-- A postcondition that always holds. -/
theorem before_of_forall {t : Proc L S N E R α} {Q : α → L → S → W → Prop}
    (h : ∀ a l s w, Q a l s w) {l s w} : before O allow t Q l s w := by
  induction t generalizing l s w with
  | ret a => exact h a l s w
  | get k ih => exact ih l s
  | put l s k ih => exact ih
  | note n k ih => exact fun _ => ih
  | call e k ih => exact fun r _ => ih r

/-- **Soundness.** Whatever `before` promises holds after every execution. -/
theorem Exec.sound {t : Proc L S N E R α} {l s w a l' s' w'}
    (h : Exec O allow t l s w a l' s' w') {Q : α → L → S → W → Prop}
    (ht : before O allow t Q l s w) : Q a l' s' w' := by
  induction h with
  | ret => exact ht
  | get _ ih => exact ih ht
  | put _ ih => exact ih ht
  | note ha _ ih => exact ih (ht ha)
  | call hr _ ih => exact ih (ht _ hr)

/-- One execution after the other. -/
theorem Exec.bind {t : Proc L S N E R α} {k : α → Proc L S N E R β} {l l₁ l' : L} {s s₁ s' : S}
    {w w₁ w' : W} {a : α} {b : β} (h : Exec O allow t l s w a l₁ s₁ w₁)
    (h' : Exec O allow (k a) l₁ s₁ w₁ b l' s' w') : Exec O allow (t >>= k) l s w b l' s' w' := by
  induction h with
  | ret => exact h'
  | get _ ih => exact .get (ih h')
  | put _ ih => exact .put (ih h')
  | note ha _ ih => exact .note ha (ih h')
  | call hr _ ih => exact .call hr (ih h')

end Rules

/-- The execution in which `oracle` answers every call. -/
def play (O : Outside L S N E R W) (oracle : (e : E) → W → R e) :
    Proc L S N E R α → L → S → W → α × L × S × W
  | .ret a, l, s, w => (a, l, s, w)
  | .get k, l, s, w => play O oracle (k l s) l s w
  | .put l s k, _, _, w => play O oracle k l s w
  | .note n k, l, s, w => play O oracle k l s (O.mark n l s w)
  | .call e k, l, s, w => play O oracle (k (oracle e w)) l s (O.effect e (oracle e w) w)

/-- What an admissible oracle plays is an execution. -/
theorem exec_play (O : Outside L S N E R W) {oracle : (e : E) → W → R e}
    (horacle : ∀ e w, O.answers e w (oracle e w) = true) (t : Proc L S N E R α) (l : L) (s : S)
    (w : W) :
    Exec O (fun _ _ _ _ => True) t l s w (play O oracle t l s w).1 (play O oracle t l s w).2.1
      (play O oracle t l s w).2.2.1 (play O oracle t l s w).2.2.2 := by
  induction t generalizing l s w with
  | ret a => exact .ret
  | get k ih => exact .get (ih l s l s w)
  | put l₁ s₁ k ih => exact .put (ih l₁ s₁ w)
  | note n k ih => exact .note trivial (ih l s _)
  | call e k ih => exact .call (horacle e w) (ih _ l s _)

end Proc
