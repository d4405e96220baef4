import Radian.Proc.Outside

/-!
# Processes that stay within a relation

What a process can be seen not to do, whatever its calls answer: its sections move the shared state
within a relation and its calls are of certain kinds.

- `Proc.Stays` — the property, and the rules for the parts of a process.
- `Proc.Stays.before` — the sequential frame rule: what the relation, those calls and the marks
  preserve, the process preserves.
-/

namespace Proc

variable {L S N E W : Type} {R : E → Type} {α β : Type}

/-- From these states, every section leaves the local state alone and moves the shared state
within `ρ`, and every call is in `κ`; after a call the shared state is arbitrary. -/
def StaysFrom (ρ : S → S → Prop) (κ : E → Prop) : Proc L S N E R α → L → S → Prop
  | .ret _, _, _ => True
  | .get k, l, s => StaysFrom ρ κ (k l s) l s
  | .put l' s' k, l, s => l' = l ∧ ρ s s' ∧ StaysFrom ρ κ k l' s'
  | .note _ k, l, s => StaysFrom ρ κ k l s
  | .call e k, l, _ => κ e ∧ ∀ r s', StaysFrom ρ κ (k r) l s'

theorem staysFrom_look_bind {ρ : S → S → Prop} {κ : E → Prop} {f : L → S → α}
    {k : α → Proc L S N E R β} {l : L} {s : S} :
    StaysFrom ρ κ (Proc.look f >>= k) l s ↔ StaysFrom ρ κ (k (f l s)) l s := Iff.rfl

/-- Every section moves the shared state within `ρ`, and every call is in `κ`. -/
def Stays (ρ : S → S → Prop) (κ : E → Prop) (t : Proc L S N E R α) : Prop :=
  ∀ l s, StaysFrom ρ κ t l s

namespace Stays

variable {ρ : S → S → Prop} {κ : E → Prop}

theorem pure (a : α) : Stays ρ κ (Pure.pure a : Proc L S N E R α) := fun _ _ => trivial

theorem look (f : L → S → α) : Stays ρ κ (Proc.look f : Proc L S N E R α) := fun _ _ => trivial

theorem ask {e : E} (h : κ e) : Stays ρ κ (Proc.ask e : Proc L S N E R (R e)) :=
  fun _ _ => ⟨h, fun _ _ => trivial⟩

theorem mark (n : N) : Stays ρ κ (Proc.mark n : Proc L S N E R Unit) := fun _ _ => trivial

theorem change {f : S → S} (h : ∀ s, ρ s (f s)) : Stays ρ κ (Proc.change f : Proc L S N E R Unit) :=
  fun _ s => ⟨rfl, h s, trivial⟩

theorem actShared {f : S → α × S} (h : ∀ s, ρ s (f s).2) :
    Stays ρ κ (Proc.actShared f : Proc L S N E R α) := fun _ s => ⟨rfl, h s, trivial⟩

theorem bind {t : Proc L S N E R α} {k : α → Proc L S N E R β} (ht : Stays ρ κ t)
    (hk : ∀ a, Stays ρ κ (k a)) : Stays ρ κ (t >>= k) := by
  have run : ∀ (t : Proc L S N E R α) l s, StaysFrom ρ κ t l s → StaysFrom ρ κ (t.bind k) l s := by
    intro t
    induction t with
    | ret a => exact fun l s _ => hk a l s
    | get k' ih => exact fun l s h => ih l s l s h
    | put l' s' k' ih => exact fun _ _ h => ⟨h.1, h.2.1, ih _ _ h.2.2⟩
    | note n k' ih => exact fun l s h => ih l s h
    | call e k' ih => exact fun l _ h => ⟨h.1, fun r s' => ih r l s' (h.2 r s')⟩
  exact fun l s => run t l s (ht l s)

/-- **The sequential frame rule.** What the sections, the calls and the marks of a process each
preserve, the process preserves. -/
theorem before {O : Outside L S N E R W} {allow : N → L → S → W → Prop} {I : S → W → Prop}
    (hρ : ∀ {s s' w}, ρ s s' → I s w → I s' w)
    (hκ : ∀ {e r s w}, κ e → O.answers e w r = true → I s w → I s (O.effect e r w))
    (hmark : ∀ {n l s w}, allow n l s w → I s w → I s (O.mark n l s w))
    {t : Proc L S N E R α} (ht : Stays ρ κ t) {l : L} {s : S} {w : W} (h : I s w) :
    Proc.before O allow t (fun _ l' s' w' => l' = l ∧ I s' w') l s w := by
  have run : ∀ (t : Proc L S N E R α) l s w, StaysFrom ρ κ t l s → I s w →
      Proc.before O allow t (fun _ l' s' w' => l' = l ∧ I s' w') l s w := by
    intro t
    induction t with
    | ret a => exact fun _ _ _ _ hI => ⟨rfl, hI⟩
    | get k ih => exact fun l s w hs hI => ih l s l s w hs hI
    | put l' s' k ih =>
      rintro l s w ⟨rfl, hs, hk⟩ hI
      exact ih l' s' w hk (hρ hs hI)
    | note n k ih => exact fun l s w hs hI ha => ih l s _ hs (hmark ha hI)
    | call e k ih => exact fun l s w hs hI r hr => ih r l s _ (hs.2 r s) (hκ hs.1 hr hI)
  exact run t l s w (ht l s) h

end Stays

end Proc
