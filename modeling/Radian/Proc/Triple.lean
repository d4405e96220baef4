import Radian.Proc.Ownership
import Radian.Proc.Stays

/-!
# Triples over shares

Hoare triples for the ownership logic: a process that starts with one share of the resource ends
with another, whatever the others do at its calls.

- `Discipline.Triple` — the triple, and the rules for its parts.
- `Discipline.Triple.of_stays` — **the frame rule**: a process whose sections stay within a relation
  that the invariant does not see keeps any share.
-/

namespace Discipline

variable {L S N E W M : Type} {R : E → Type} {α β : Type} [AddCommMonoid M]
variable (D : Discipline L S N W M) (O : Outside L S N E R W)

open Proc (wp Stays StaysFrom)

/-- The answers to the calls in `κ`, and all marks, keep the invariant of every share. -/
structure Steady (κ : E → Prop) : Prop where
  effect : ∀ {e r m s w}, κ e → O.answers e w r = true → D.inv m s w → D.inv m s (O.effect e r w)
  mark : ∀ {n l m s w}, D.allow n l s w → D.inv m s w → D.inv m s (O.mark n l s w)

/-- From share `m`, process `t` ends with share `P a` for its result `a`; the local state stays. -/
def Triple (m : M) (t : Proc L S N E R α) (P : α → M) : Prop :=
  ∀ f l s w, D.inv (f + m) s w →
    wp (D.sharing O) t (fun a l' s' x => l' = l ∧ D.inv (x.1 + P a) s' x.2) l s (f, w)

namespace Triple

variable {D O} {m m' : M} {κ : E → Prop}

theorem pure (a : α) {P : α → M} (h : P a = m) :
    Triple D O m (Pure.pure a : Proc L S N E R α) P :=
  fun _ _ _ _ hinv => ⟨rfl, h ▸ hinv⟩

theorem bind {t : Proc L S N E R α} {k : α → Proc L S N E R β} {P : α → M} {Q : β → M}
    (ht : Triple D O m t P) (hk : ∀ a, Triple D O (P a) (k a) Q) : Triple D O m (t >>= k) Q := by
  intro f l s w hinv
  rw [Proc.wp_bind]
  refine Proc.wp_mono (D.sharing_monotone O) ?_ (ht f l s w hinv)
  rintro a l' s' ⟨f', w'⟩ ⟨rfl, hinv'⟩
  exact hk a f' l' s' w' hinv'

theorem ask (hO : D.Steady O κ) {e : E} (he : κ e) :
    Triple D O m (Proc.ask e : Proc L S N E R (R e)) (fun _ => m) :=
  fun _ _ _ _ hinv => ⟨m, hinv, fun _ _ _ hinv' _ hr => ⟨rfl, hO.effect he hr hinv'⟩⟩

theorem look (g : L → S → α) : Triple D O m (Proc.look g : Proc L S N E R α) (fun _ => m) :=
  fun _ _ _ _ hinv => ⟨rfl, hinv⟩

/-- A section on the shared state. -/
theorem change {g : S → S} (h : ∀ f s w, D.inv (f + m) s w → D.inv (f + m') (g s) w) :
    Triple D O m (Proc.change g : Proc L S N E R Unit) (fun _ => m') :=
  fun f _ s w hinv => ⟨rfl, h f s w hinv⟩

theorem actShared {g : S → α × S} {P : α → M}
    (h : ∀ f s w, D.inv (f + m) s w → D.inv (f + P (g s).1) (g s).2 w) :
    Triple D O m (Proc.actShared g : Proc L S N E R α) P :=
  fun f _ s w hinv => ⟨rfl, h f s w hinv⟩

/-- A section whose side condition its mark has put on record. -/
theorem mark_change {n : N} {g : S → S}
    (h : ∀ f l s w, D.allow n l s w → D.inv (f + m) s w → D.inv (f + m') (g s) (O.mark n l s w)) :
    Triple D O m (do Proc.mark n; Proc.change g : Proc L S N E R Unit) (fun _ => m') :=
  fun f l s w hinv ha => ⟨rfl, h f l s w ha hinv⟩

/-- The same, with the rest of the process. -/
theorem mark_change_bind {n : N} {g : S → S} {k : Proc L S N E R β} {Q : β → M}
    (h : ∀ f l s w, D.allow n l s w → D.inv (f + m) s w → D.inv (f + m') (g s) (O.mark n l s w))
    (hk : Triple D O m' k Q) : Triple D O m (do Proc.mark n; Proc.change g; k) Q :=
  fun f l s w hinv ha => hk f l (g s) (O.mark n l s w) (h f l s w ha hinv)

theorem mark_actShared_bind {n : N} {g : S → α × S} {k : α → Proc L S N E R β} {P : α → M}
    {Q : β → M}
    (h : ∀ f l s w, D.allow n l s w → D.inv (f + m) s w →
      D.inv (f + P (g s).1) (g s).2 (O.mark n l s w))
    (hk : ∀ a, Triple D O (P a) (k a) Q) :
    Triple D O m (do Proc.mark n; let a ← Proc.actShared g; k a) Q :=
  fun f l s w hinv ha => hk (g s).1 f l (g s).2 (O.mark n l s w) (h f l s w ha hinv)

/-- **The frame rule.** A process whose sections the invariant does not see keeps any share. -/
theorem of_stays (hO : D.Steady O κ) {ρ : S → S → Prop}
    (hρ : ∀ {m s s' w}, ρ s s' → D.inv m s w → D.inv m s' w) {t : Proc L S N E R α}
    (ht : Stays ρ κ t) : Triple D O m t (fun _ => m) := by
  have run : ∀ (t : Proc L S N E R α) f l s w, StaysFrom ρ κ t l s → D.inv (f + m) s w →
      wp (D.sharing O) t (fun _ l' s' x => l' = l ∧ D.inv (x.1 + m) s' x.2) l s (f, w) := by
    intro t
    induction t with
    | ret a => exact fun _ _ _ _ _ hinv => ⟨rfl, hinv⟩
    | get k ih => exact fun f l s w h hinv => ih l s f l s w h hinv
    | put l' s' k ih =>
      rintro f l s w ⟨rfl, hs, h⟩ hinv
      exact ih f l' s' w h (hρ hs hinv)
    | note n k ih => exact fun f l s w h hinv ha => ih f l s _ h (hO.mark ha hinv)
    | call e k ih =>
      exact fun f l s w h hinv => ⟨m, hinv, fun f' s' w' hinv' r hr =>
        ih r f' l s' _ (h.2 r s') (hO.effect h.1 hr hinv')⟩
  exact fun f l s w hinv => run t f l s w (ht l s) hinv

end Triple

end Discipline
