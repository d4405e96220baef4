import Radian.Proc.Amid

/-!
# What a process is seen to do

Others see what a process has done to the shared state, and where it has come to, at whatever point they
look.  A guarantee speaks of every section and every mark, in the states and the world it is done in.

- `Proc.Deed` — a section or a mark.
- `Proc.Does` — a deed of an execution amid interference.
- `Proc.assured` — what must hold before a process for all it does to be within a guarantee, and for `Q`
  to hold after it.
- `Proc.Does.within`, `Proc.Amid.assured` — **soundness**.
-/

namespace Proc

variable {L S N E W : Type} {R : E → Type} {α β : Type}

/-- What is done: a section leads to two states, a mark is passed. -/
inductive Deed (L S N : Type) where
  | move (l : L) (s : S)
  | mark (n : N)

/-- An execution, in which the shared state moves by `drift` at every call, does this in these states and
this world. -/
inductive Does (O : Outside L S N E R W) (allow : N → L → S → W → Prop) (drift : S → S → Prop) :
    Proc L S N E R α → L → S → W → Deed L S N → L → S → W → Prop where
  | move {l₁ s₁ k l s w} : Does O allow drift (.put l₁ s₁ k) l s w (.move l₁ s₁) l s w
  | mark {n k l s w} : allow n l s w → Does O allow drift (.note n k) l s w (.mark n) l s w
  | get {k l s w d l' s' w'} : Does O allow drift (k l s) l s w d l' s' w' →
      Does O allow drift (.get k) l s w d l' s' w'
  | put {l₁ s₁ k l s w d l' s' w'} : Does O allow drift k l₁ s₁ w d l' s' w' →
      Does O allow drift (.put l₁ s₁ k) l s w d l' s' w'
  | note {n k l s w d l' s' w'} : allow n l s w → Does O allow drift k l s (O.mark n l s w) d l' s' w' →
      Does O allow drift (.note n k) l s w d l' s' w'
  | call {e k l s s₁ w r d l' s' w'} : O.answers e w r = true → drift s s₁ →
      Does O allow drift (k r) l s₁ (O.effect e r w) d l' s' w' →
      Does O allow drift (.call e k) l s w d l' s' w'

section Assured

variable (O : Outside L S N E R W) (allow : N → L → S → W → Prop) (drift : S → S → Prop)
  (G : Deed L S N → L → S → W → Prop)

/-- What must hold before a process, run amid interference, for all it does to be within `G`, and for `Q`
to hold after it. -/
def assured : Proc L S N E R α → (α → L → S → W → Prop) → L → S → W → Prop
  | .ret a, Q, l, s, w => Q a l s w
  | .get k, Q, l, s, w => assured (k l s) Q l s w
  | .put l' s' k, Q, l, s, w => G (.move l' s') l s w ∧ assured k Q l' s' w
  | .note n k, Q, l, s, w => allow n l s w → G (.mark n) l s w ∧ assured k Q l s (O.mark n l s w)
  | .call e k, Q, l, s, w => ∀ r s₁, O.answers e w r = true → drift s s₁ →
      assured (k r) Q l s₁ (O.effect e r w)

variable {O allow drift G} {Q : α → L → S → W → Prop} {l : L} {s : S} {w : W}

@[simp] theorem assured_pure (a : α) :
    assured O allow drift G (pure a : Proc L S N E R α) Q l s w = Q a l s w := rfl

theorem assured_bind_eq (t : Proc L S N E R α) (f : α → Proc L S N E R β) (Q : β → L → S → W → Prop) :
    assured O allow drift G (t.bind f) Q =
      assured O allow drift G t fun a => assured O allow drift G (f a) Q := by
  induction t with
  | ret a => rfl
  | get k ih =>
    funext l s w
    exact congrFun (congrFun (congrFun (ih l s) l) s) w
  | put l' s' k ih =>
    funext l s w
    simp only [bind, assured, ih]
  | note n k ih =>
    funext l s w
    simp only [bind, assured, ih]
  | call e k ih =>
    funext l s w
    simp only [bind, assured, ih]

@[simp] theorem assured_bind (t : Proc L S N E R α) (f : α → Proc L S N E R β)
    (Q : β → L → S → W → Prop) :
    assured O allow drift G (t >>= f) Q l s w =
      assured O allow drift G t (fun a => assured O allow drift G (f a) Q) l s w :=
  congrFun (congrFun (congrFun (assured_bind_eq t f Q) l) s) w

@[simp] theorem assured_look (f : L → S → α) :
    assured O allow drift G (look f : Proc L S N E R α) Q l s w = Q (f l s) l s w := rfl

@[simp] theorem assured_act (f : L → S → α × L × S) :
    assured O allow drift G (act f : Proc L S N E R α) Q l s w =
      (G (.move (f l s).2.1 (f l s).2.2) l s w ∧ Q (f l s).1 (f l s).2.1 (f l s).2.2 w) := rfl

@[simp] theorem assured_actShared (f : S → α × S) :
    assured O allow drift G (actShared f : Proc L S N E R α) Q l s w =
      (G (.move l (f s).2) l s w ∧ Q (f s).1 l (f s).2 w) := rfl

@[simp] theorem assured_change (f : S → S) (Q : Unit → L → S → W → Prop) :
    assured O allow drift G (change f : Proc L S N E R Unit) Q l s w =
      (G (.move l (f s)) l s w ∧ Q () l (f s) w) := rfl

@[simp] theorem assured_changeLocal (f : L → L) (Q : Unit → L → S → W → Prop) :
    assured O allow drift G (changeLocal f : Proc L S N E R Unit) Q l s w =
      (G (.move (f l) s) l s w ∧ Q () (f l) s w) := rfl

@[simp] theorem assured_ask (e : E) (Q : R e → L → S → W → Prop) :
    assured O allow drift G (ask e : Proc L S N E R (R e)) Q l s w =
      ∀ r s₁, O.answers e w r = true → drift s s₁ → Q r l s₁ (O.effect e r w) := rfl

@[simp] theorem assured_mark (n : N) (Q : Unit → L → S → W → Prop) :
    assured O allow drift G (mark n : Proc L S N E R Unit) Q l s w =
      (allow n l s w → G (.mark n) l s w ∧ Q () l s (O.mark n l s w)) := rfl

/-- The rule of consequence. -/
theorem assured_mono {t : Proc L S N E R α} {P Q : α → L → S → W → Prop}
    (h : ∀ a l s w, P a l s w → Q a l s w) {l : L} {s : S} {w : W}
    (ht : assured O allow drift G t P l s w) : assured O allow drift G t Q l s w := by
  induction t generalizing l s w with
  | ret a => exact h a l s w ht
  | get k ih => exact ih l s ht
  | put l' s' k ih => exact ⟨ht.1, ih ht.2⟩
  | note n k ih => exact fun ha => ⟨(ht ha).1, ih (ht ha).2⟩
  | call e k ih => exact fun r s₁ hr hs => ih r (ht r s₁ hr hs)

/-- Every deed of an execution is within the guarantee. -/
theorem Does.within {t : Proc L S N E R α} {d : Deed L S N} {l' : L} {s' : S} {w' : W}
    (h : Does O allow drift t l s w d l' s' w') (ht : assured O allow drift G t Q l s w) :
    G d l' s' w' := by
  induction h with
  | move => exact ht.1
  | mark ha => exact (ht ha).1
  | get _ ih => exact ih ht
  | put _ ih => exact ih ht.2
  | note ha _ ih => exact ih (ht ha).2
  | call hr hs _ ih => exact ih (ht _ _ hr hs)

/-- What is promised holds after every execution. -/
theorem Amid.assured {t : Proc L S N E R α} {a : α} {l' : L} {s' : S} {w' : W}
    (h : Amid O allow drift t l s w a l' s' w') (ht : Proc.assured O allow drift G t Q l s w) :
    Q a l' s' w' := by
  induction h with
  | ret => exact ht
  | get _ ih => exact ih ht
  | put _ ih => exact ih ht.2
  | note ha _ ih => exact ih (ht ha).2
  | call hr hs _ ih => exact ih (ht _ _ hr hs)

end Assured

end Proc
