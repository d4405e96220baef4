import Radian.Proc.Outside

/-!
# Handlers run one after another

Each request's handler runs alone to its end; between two handlers the world may move by itself.

- `Proc.Serial` — what such a sequence makes of a shared state and a world.
- `Proc.Serial.invariant` — what every handler and every move of the world keep, the sequence keeps.
- `Proc.attempt`, `Proc.attemptAll` — the sequence an oracle of answers picks, as a function that
  gives up at an answer or a mark which is not admitted.
- `Outside.Refines` — the two outsides and the view between them.
- `Proc.Exec.refine`, `Proc.Serial.refine` — so are the executions, and the runs of handlers, whose
  moves of the world in between the view does not show.
- `Proc.Serial.view_eq` — what no answer and no mark changes, no run does.
-/

namespace Proc

variable {L S N E W Q : Type} {R : E → Type} {α : Type}

/-- From `s` and `w`, a sequence of handlers and of moves of the world leads to `s'` and `w'`.  Each
handler starts with the local state `l`. -/
inductive Serial (O : Outside L S N E R W) (allow : N → L → S → W → Prop)
    (body : Q → Proc L S N E R Unit) (drift : W → W → Prop) (l : L) : S → W → S → W → Prop where
  | refl {s w} : Serial O allow body drift l s w s w
  | serve {s w s₁ w₁ s₂ w₂ l'} (q : Q) : Serial O allow body drift l s w s₁ w₁ →
      Exec O allow (body q) l s₁ w₁ () l' s₂ w₂ → Serial O allow body drift l s w s₂ w₂
  | drift {s w s₁ w₁ w₂} : Serial O allow body drift l s w s₁ w₁ → drift w₁ w₂ →
      Serial O allow body drift l s w s₁ w₂

namespace Serial

variable {O : Outside L S N E R W} {allow : N → L → S → W → Prop} {body : Q → Proc L S N E R Unit}
  {drift : W → W → Prop} {l : L} {s s' : S} {w w' : W}

/-- What every handler and every move of the world keep, any sequence of them keeps. -/
theorem invariant {I : S → W → Prop}
    (hserve : ∀ q s w, I s w → before O allow (body q) (fun _ _ => I) l s w)
    (hdrift : ∀ s w w', I s w → drift w w' → I s w') (h : Serial O allow body drift l s w s' w')
    (hI : I s w) : I s' w' := by
  induction h with
  | refl => exact hI
  | serve q _ hexec ih => exact hexec.sound (hserve q _ _ ih)
  | drift _ hmove ih => exact hdrift _ _ _ ih hmove

theorem trans {s₁ : S} {w₁ : W} (h : Serial O allow body drift l s w s₁ w₁)
    (h' : Serial O allow body drift l s₁ w₁ s' w') : Serial O allow body drift l s w s' w' := by
  induction h' with
  | refl => exact h
  | serve q _ hexec ih => exact .serve q ih hexec
  | drift _ hmove ih => exact .drift ih hmove

end Serial

section Attempt

variable (O : Outside L S N E R W) (allow : N → L → S → W → Prop)
  [∀ n l s w, Decidable (allow n l s w)] (oracle : (e : E) → W → R e)

/-- The execution in which `oracle` answers every call, as far as it is admitted. -/
def attempt : Proc L S N E R α → L → S → W → Option (α × L × S × W)
  | .ret a, l, s, w => some (a, l, s, w)
  | .get k, l, s, w => attempt (k l s) l s w
  | .put l s k, _, _, w => attempt k l s w
  | .note n k, l, s, w => if allow n l s w then attempt k l s (O.mark n l s w) else none
  | .call e k, l, s, w =>
      if O.answers e w (oracle e w) then
        attempt (k (oracle e w)) l s (O.effect e (oracle e w) w)
      else none

/-- One handler after the other. -/
def attemptAll (body : Q → Proc L S N E R Unit) (l : L) : List Q → S → W → Option (S × W)
  | [], s, w => some (s, w)
  | q :: qs, s, w => do
      let (_, _, s, w) ← attempt O allow oracle (body q) l s w
      attemptAll body l qs s w

variable {O allow oracle}

/-- What is attempted with success is an execution. -/
theorem exec_attempt {t : Proc L S N E R α} {l : L} {s : S} {w : W} {a : α} {l' : L} {s' : S}
    {w' : W} (h : attempt O allow oracle t l s w = some (a, l', s', w')) :
    Exec O allow t l s w a l' s' w' := by
  induction t generalizing l s w with
  | ret a =>
    cases h
    exact .ret
  | get k ih => exact .get (ih l s h)
  | put l₁ s₁ k ih => exact .put (ih h)
  | note n k ih =>
    simp only [attempt] at h
    split at h
    · rename_i hallow
      exact .note hallow (ih h)
    · cases h
  | call e k ih =>
    simp only [attempt] at h
    split at h
    · rename_i hanswers
      exact .call hanswers (ih _ h)
    · cases h

theorem serial_attemptAll {body : Q → Proc L S N E R Unit} {drift : W → W → Prop} {l : L}
    {qs : List Q} {s s' : S} {w w' : W}
    (h : attemptAll O allow oracle body l qs s w = some (s', w')) :
    Serial O allow body drift l s w s' w' := by
  induction qs generalizing s w with
  | nil =>
    cases h
    exact .refl
  | cons q qs ih =>
    simp only [attemptAll, Option.bind_eq_bind, Option.bind_eq_some_iff] at h
    obtain ⟨⟨⟨⟩, l₁, s₁, w₁⟩, hone, hrest⟩ := h
    exact Serial.trans (.serve q .refl (exec_attempt hone)) (ih hrest)

end Attempt

end Proc

/-! ### Outsides seen with less detail -/

variable {L S N E W V Q : Type} {R : E → Type} {α : Type}

/-- Through `view`, what `O` answers and does `P` answers and does. -/
structure Outside.Refines (O : Outside L S N E R W) (P : Outside L S N E R V) (view : W → V) :
    Prop where
  answers : ∀ {e w r}, O.answers e w r = true → P.answers e (view w) r = true
  effect : ∀ {e w r}, O.answers e w r = true → view (O.effect e r w) = P.effect e r (view w)
  mark : ∀ n l s w, view (O.mark n l s w) = P.mark n l s (view w)

namespace Proc

variable {O : Outside L S N E R W} {P : Outside L S N E R V} {view : W → V}
  {allow : N → L → S → W → Prop} {allow' : N → L → S → V → Prop}

/-- An execution seen through the view is an execution. -/
theorem Exec.refine (href : O.Refines P view)
    (hallow : ∀ n l s w, allow n l s w → allow' n l s (view w)) {t : Proc L S N E R α} {l : L} {s : S}
    {w : W} {a : α} {l' : L} {s' : S} {w' : W} (h : Exec O allow t l s w a l' s' w') :
    Exec P allow' t l s (view w) a l' s' (view w') := by
  induction h with
  | ret => exact .ret
  | get _ ih => exact .get ih
  | put _ ih => exact .put ih
  | note ha _ ih =>
    rw [href.mark] at ih
    exact .note (hallow _ _ _ _ ha) ih
  | call hr _ ih =>
    rw [href.effect hr] at ih
    exact .call (href.answers hr) ih

/-- A run of handlers seen through the view, when the view stands still between them. -/
theorem Serial.refine (href : O.Refines P view)
    (hallow : ∀ n l s w, allow n l s w → allow' n l s (view w)) {body : Q → Proc L S N E R Unit}
    {drift : W → W → Prop} (hdrift : ∀ {w w'}, drift w w' → view w' = view w) {l : L} {s : S} {w : W}
    {s' : S} {w' : W} (h : Serial O allow body drift l s w s' w') :
    Serial P allow' body (fun v v' => v' = v) l s (view w) s' (view w') := by
  induction h with
  | refl => exact .refl
  | serve q _ hexec ih => exact .serve q ih (hexec.refine href hallow)
  | drift _ hmove ih => exact .drift ih (hdrift hmove)

/-- What no answer and no mark changes stays as it is. -/
theorem Exec.view_eq (heffect : ∀ e r w, view (O.effect e r w) = view w)
    (hmark : ∀ n l s w, view (O.mark n l s w) = view w) {t : Proc L S N E R α} {l : L} {s : S} {w : W}
    {a : α} {l' : L} {s' : S} {w' : W} (h : Exec O allow t l s w a l' s' w') : view w' = view w := by
  induction h with
  | ret => rfl
  | get _ ih => exact ih
  | put _ ih => exact ih
  | note _ _ ih => exact ih.trans (hmark _ _ _ _)
  | call _ _ ih => exact ih.trans (heffect _ _ _)

theorem Serial.view_eq (heffect : ∀ e r w, view (O.effect e r w) = view w)
    (hmark : ∀ n l s w, view (O.mark n l s w) = view w) {body : Q → Proc L S N E R Unit}
    {drift : W → W → Prop} (hdrift : ∀ {w w'}, drift w w' → view w' = view w) {l : L} {s : S} {w : W}
    {s' : S} {w' : W} (h : Serial O allow body drift l s w s' w') : view w' = view w := by
  induction h with
  | refl => rfl
  | serve q _ hexec ih => exact (hexec.view_eq heffect hmark).trans ih
  | drift _ hmove ih => exact (hdrift hmove).trans ih

end Proc
