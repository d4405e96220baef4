import Mathlib.Logic.Basic
import Mathlib.Tactic.Common

/-!
# Asynchronous processes

A process is the body of an `async` function: straight-line sections that read and write a
*private* local state and a *shared* state, separated by **calls**, the points where the body
awaits an answer from outside.  Nothing else runs inside a section; anything may run at a call.

- `Proc` — the free monad over sections, marks and calls.
- `Proc.wp` — the weakest precondition of a process, for any reading of marks and calls
  (a `Transformer`).  The sequential and the concurrent logic are two such readings.
- `Proc.wp_bind`, `Proc.wp_mono` — the rules every proof uses.

A **mark** names a place in the body.  It does nothing to the two states; a run's side
conditions and histories are attached to marks.
-/

/-- The body of an `async` function over local state `L` and shared state `S`, with marks
`N` and calls `E` answered in `R`. -/
inductive Proc (L S N E : Type) (R : E → Type) (α : Type) : Type where
  | ret (a : α)
  | get (k : L → S → Proc L S N E R α)
  | put (l : L) (s : S) (k : Proc L S N E R α)
  | note (n : N) (k : Proc L S N E R α)
  | call (e : E) (k : R e → Proc L S N E R α)

namespace Proc

variable {L S N E : Type} {R : E → Type} {α β γ : Type}

/-! ### The monad -/

/-- Sequencing: `f` takes over where the first process returns. -/
def bind : Proc L S N E R α → (α → Proc L S N E R β) → Proc L S N E R β
  | .ret a, f => f a
  | .get k, f => .get fun l s => (k l s).bind f
  | .put l s k, f => .put l s (k.bind f)
  | .note n k, f => .note n (k.bind f)
  | .call e k, f => .call e fun r => (k r).bind f

instance : Monad (Proc L S N E R) where
  pure := .ret
  bind := .bind

theorem bind_ret (t : Proc L S N E R α) : t.bind .ret = t := by
  induction t with
  | ret a => rfl
  | get k ih => exact congrArg Proc.get (funext fun l => funext fun s => ih l s)
  | put l s k ih => exact congrArg (Proc.put l s) ih
  | note n k ih => exact congrArg (Proc.note n) ih
  | call e k ih => exact congrArg (Proc.call e) (funext ih)

theorem bind_assoc (t : Proc L S N E R α) (f : α → Proc L S N E R β)
    (g : β → Proc L S N E R γ) : (t.bind f).bind g = t.bind fun a => (f a).bind g := by
  induction t with
  | ret a => rfl
  | get k ih => exact congrArg Proc.get (funext fun l => funext fun s => ih l s)
  | put l s k ih => exact congrArg (Proc.put l s) ih
  | note n k ih => exact congrArg (Proc.note n) ih
  | call e k ih => exact congrArg (Proc.call e) (funext ih)

instance : LawfulMonad (Proc L S N E R) :=
  LawfulMonad.mk' (Proc L S N E R) bind_ret (fun _ _ => rfl) bind_assoc

/-! ### Primitives -/

/-- Read from the two states. -/
def look (f : L → S → α) : Proc L S N E R α := .get fun l s => .ret (f l s)

/-- One atomic section. -/
def act (f : L → S → α × L × S) : Proc L S N E R α :=
  .get fun l s => .put (f l s).2.1 (f l s).2.2 (.ret (f l s).1)

/-- Replace the shared state. -/
def change (f : S → S) : Proc L S N E R Unit := .get fun l s => .put l (f s) (.ret ())

/-- Replace the local state. -/
def changeLocal (f : L → L) : Proc L S N E R Unit := .get fun l s => .put (f l) s (.ret ())

/-- A section on the shared state alone. -/
def actShared (f : S → α × S) : Proc L S N E R α :=
  .get fun l s => .put l (f s).2 (.ret (f s).1)

/-- Await the answer to `e`. -/
def ask (e : E) : Proc L S N E R (R e) := .call e .ret

/-- Name this place. -/
def mark (n : N) : Proc L S N E R Unit := .note n (.ret ())

/-- Run `body` on each element in turn. -/
def forEach (body : α → Proc L S N E R Unit) : List α → Proc L S N E R Unit
  | [] => pure ()
  | a :: as => do
      body a
      forEach body as

/-! ### Weakest preconditions

`X` is whatever a reading carries along beside the two states: a world outside, or a world and
the resources everybody else owns. -/

/-- A reading of marks and calls as predicate transformers. -/
structure Transformer (L S N E : Type) (R : E → Type) (X : Type) where
  note : N → L → S → (X → Prop) → X → Prop
  call : (e : E) → (R e → L → S → X → Prop) → L → S → X → Prop

/-- A reading that respects implication between postconditions. -/
structure Transformer.Monotone {X : Type} (T : Transformer L S N E R X) : Prop where
  note : ∀ {n l s} {P Q : X → Prop} {x}, (∀ x, P x → Q x) → T.note n l s P x → T.note n l s Q x
  call : ∀ {e} {P Q : R e → L → S → X → Prop} {l s x},
    (∀ r l s x, P r l s x → Q r l s x) → T.call e P l s x → T.call e Q l s x

section WP

variable {X : Type} (T : Transformer L S N E R X)

/-- What must hold before `t` for `Q` to hold of its result. -/
def wp : Proc L S N E R α → (α → L → S → X → Prop) → L → S → X → Prop
  | .ret a, Q, l, s, x => Q a l s x
  | .get k, Q, l, s, x => wp (k l s) Q l s x
  | .put l s k, Q, _, _, x => wp k Q l s x
  | .note n k, Q, l, s, x => T.note n l s (wp k Q l s) x
  | .call e k, Q, l, s, x => T.call e (fun r => wp (k r) Q) l s x

variable {T} {Q : α → L → S → X → Prop} {l : L} {s : S} {x : X}

@[simp] theorem wp_ret (a : α) : wp T (.ret a : Proc L S N E R α) Q l s x = Q a l s x := rfl

@[simp] theorem wp_pure (a : α) : wp T (pure a : Proc L S N E R α) Q l s x = Q a l s x := rfl

theorem wp_bind_eq (t : Proc L S N E R α) (f : α → Proc L S N E R β) (Q : β → L → S → X → Prop) :
    wp T (t.bind f) Q = wp T t fun a => wp T (f a) Q := by
  induction t with
  | ret a => rfl
  | get k ih =>
    funext l s x
    exact congrFun (congrFun (congrFun (ih l s) l) s) x
  | put l s k ih =>
    funext _ _ x
    exact congrFun (congrFun (congrFun ih l) s) x
  | note n k ih =>
    funext l s x
    simp only [bind, wp, ih]
  | call e k ih =>
    funext l s x
    simp only [bind, wp, ih]

@[simp] theorem wp_bind (t : Proc L S N E R α) (f : α → Proc L S N E R β)
    (Q : β → L → S → X → Prop) :
    wp T (t >>= f) Q l s x = wp T t (fun a => wp T (f a) Q) l s x :=
  congrFun (congrFun (congrFun (wp_bind_eq t f Q) l) s) x

@[simp] theorem wp_map (t : Proc L S N E R α) (f : α → β) (Q : β → L → S → X → Prop) :
    wp T (f <$> t) Q l s x = wp T t (fun a => Q (f a)) l s x := by
  rw [← bind_pure_comp, wp_bind]
  rfl

@[simp] theorem wp_look (f : L → S → α) :
    wp T (look f : Proc L S N E R α) Q l s x = Q (f l s) l s x := rfl

@[simp] theorem wp_act (f : L → S → α × L × S) :
    wp T (act f : Proc L S N E R α) Q l s x = Q (f l s).1 (f l s).2.1 (f l s).2.2 x := rfl

@[simp] theorem wp_actShared (f : S → α × S) :
    wp T (actShared f : Proc L S N E R α) Q l s x = Q (f s).1 l (f s).2 x := rfl

@[simp] theorem wp_change (f : S → S) (Q : Unit → L → S → X → Prop) :
    wp T (change f : Proc L S N E R Unit) Q l s x = Q () l (f s) x := rfl

@[simp] theorem wp_changeLocal (f : L → L) (Q : Unit → L → S → X → Prop) :
    wp T (changeLocal f : Proc L S N E R Unit) Q l s x = Q () (f l) s x := rfl

@[simp] theorem wp_ask (e : E) (Q : R e → L → S → X → Prop) :
    wp T (ask e : Proc L S N E R (R e)) Q l s x = T.call e Q l s x := rfl

@[simp] theorem wp_mark (n : N) (Q : Unit → L → S → X → Prop) :
    wp T (mark n : Proc L S N E R Unit) Q l s x = T.note n l s (Q () l s) x := rfl

/-- The rule of consequence. -/
theorem wp_mono (hT : T.Monotone) {t : Proc L S N E R α} {P Q : α → L → S → X → Prop}
    (h : ∀ a l s x, P a l s x → Q a l s x) {l s x} (ht : wp T t P l s x) : wp T t Q l s x := by
  induction t generalizing l s x with
  | ret a => exact h a l s x ht
  | get k ih => exact ih l s ht
  | put l s k ih => exact ih ht
  | note n k ih => exact hT.note (fun _ hx => ih hx) ht
  | call e k ih => exact hT.call (fun r _ _ _ hr => ih r hr) ht

end WP

end Proc
