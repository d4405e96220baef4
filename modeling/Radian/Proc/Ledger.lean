import Radian.Proc.Pool
import Mathlib.Algebra.BigOperators.Group.List.Basic

/-!
# What the threads of a pool hold

A logic for pools in which what a thread holds can be read off it: off its local state and off the
call it waits at.  One invariant speaks of the sum.  A thread is verified alone; while it waits, the
others change the shared state as they like, up to the invariant, and the world only grows.

- `Ledger` — the invariant, what a thread holds, and how the world grows.
- `Ledger.reading` — the reading of marks and calls: at a call the invariant is given up, and found
  again in a later world, with the same holdings.
- `Ledger.reach` — **soundness**: if every body keeps its holdings accounted for, the invariant holds
  of the sum in every state of every allowed run.
-/

/-- An invariant over the sum of what all threads hold. -/
structure Ledger (L S N E W M : Type) where
  inv : M → S → W → Prop
  /-- What a thread holds by its local state and, when it waits, by the call. -/
  own : L → Option E → M
  /-- The side condition on marks. -/
  allow : N → L → S → W → Prop
  /-- How the world may have changed after a while. -/
  later : W → W → Prop

namespace Ledger

variable {L S N E W C M : Type} {R : E → Type} [AddCommMonoid M]

open Proc (Transformer wp)

/-- Marks may be assumed to meet `allow`.  A call is made with the invariant of the holdings of the
others, `x.1`, and of what this thread holds at it; afterwards theirs, the shared state and the world
are others, and the invariant holds again. -/
def reading (D : Ledger L S N E W M) (O : Outside L S N E R W) : Transformer L S N E R (M × W) where
  note n l s K x := D.allow n l s x.2 → K (x.1, O.mark n l s x.2)
  call e K l s x := D.inv (x.1 + D.own l (some e)) s x.2 ∧
    ∀ f s' w', D.later x.2 w' → D.inv (f + D.own l (some e)) s' w' →
      ∀ r, O.answers e w' r = true → K r l s' (f, O.effect e r w')

/-- What a body must leave behind: the invariant, with the holdings of an idle thread. -/
def done (D : Ledger L S N E W M) : Unit → L → S → M × W → Prop :=
  fun _ l s x => D.inv (x.1 + D.own l none) s x.2

/-- The world grows as time passes, at every mark and with every answer. -/
structure Grows (D : Ledger L S N E W M) (O : Outside L S N E R W) : Prop where
  refl : ∀ w, D.later w w
  trans : ∀ {w₁ w₂ w₃}, D.later w₁ w₂ → D.later w₂ w₃ → D.later w₁ w₃
  mark : ∀ n l s w, D.later w (O.mark n l s w)
  effect : ∀ e r w, D.later w (O.effect e r w)

section Rules

variable {D : Ledger L S N E W M} {O : Outside L S N E R W}

theorem reading_monotone (D : Ledger L S N E W M) (O : Outside L S N E R W) :
    (D.reading O).Monotone where
  note h hx ha := h _ (hx ha)
  call := by
    rintro e P Q l s x h ⟨hinv, hk⟩
    exact ⟨hinv, fun f s' w' hlater hf r hr => h _ _ _ _ (hk f s' w' hlater hf r hr)⟩

@[simp] theorem reading_note {n : N} {l : L} {s : S} {K : M × W → Prop} {x : M × W} :
    (D.reading O).note n l s K x = (D.allow n l s x.2 → K (x.1, O.mark n l s x.2)) := rfl

theorem reading_call {e : E} {K : R e → L → S → M × W → Prop} {l : L} {s : S} {x : M × W} :
    (D.reading O).call e K l s x = (D.inv (x.1 + D.own l (some e)) s x.2 ∧
      ∀ f s' w', D.later x.2 w' → D.inv (f + D.own l (some e)) s' w' →
        ∀ r, O.answers e w' r = true → K r l s' (f, O.effect e r w')) := rfl

end Rules

/-! ### Soundness -/

variable (D : Ledger L S N E W M) (Y : System L S N E R W C)

/-- What a thread holds. -/
def owns : Thread L S N E R → M
  | .idle l => D.own l none
  | .waiting l e _ => D.own l (some e)

def total (ts : List (Thread L S N E R)) : M := (ts.map D.owns).sum

/-- A waiting thread can go on after any answer. -/
def Ready (w : W) : Thread L S N E R → Prop
  | .idle _ => True
  | .waiting l e k => ∀ f s' w', D.later w w' → D.inv (f + D.own l (some e)) s' w' →
      ∀ r, Y.answers e w' r = true →
        wp (D.reading Y.toOutside) (k r) D.done l s' (f, Y.effect e r w')

/-- The world grows, every new thread holds nothing, and every body keeps what it holds accounted
for. -/
structure Keeps : Prop where
  grows : D.Grows Y.toOutside
  fresh : ∀ l, Y.initial l = true → D.own l none = 0
  body : ∀ c f l s w, Y.enabled c l s = true → D.inv (f + D.own l none) s w →
    wp (D.reading Y.toOutside) (Y.body c) D.done l s (f, w)

/-- The invariant holds of the sum of the holdings, and every thread can go on. -/
structure Holds (p : Pool L S N E R W) : Prop where
  inv : D.inv (D.total p.threads) p.shared p.world
  ready : ∀ t ∈ p.threads, D.Ready Y p.world t

variable {D Y}

theorem total_middle (pre post : List (Thread L S N E R)) (t : Thread L S N E R) :
    D.total (pre ++ t :: post) = D.total (pre ++ post) + D.owns t := by
  simp only [total, List.map_append, List.map_cons, List.sum_append, List.sum_cons]
  rw [add_comm (D.owns t), add_assoc]

theorem Ready.later (hD : D.Grows Y.toOutside) {w w' : W} (hw : D.later w w')
    {t : Thread L S N E R} (h : D.Ready Y w t) : D.Ready Y w' t := by
  cases t with
  | idle l => trivial
  | waiting l e k => exact fun f s' w'' hlater => h f s' w'' (hD.trans hw hlater)

omit [AddCommMonoid M] in
theorem later_advance (hD : D.Grows Y.toOutside) (t : Proc L S N E R Unit) (l : L) (s : S) (w : W) :
    D.later w (t.advance Y.toOutside l s w).2.2 := by
  induction t generalizing l s w with
  | ret a => exact hD.refl w
  | get k ih => exact ih l s l s w
  | put l' s' k ih => exact ih l' s' w
  | note n k ih => exact hD.trans (hD.mark n l s w) (ih l s _)
  | call e k ih => exact hD.refl w

/-- Running a verified process to its next call leaves a thread that can go on, and the invariant with
what it holds. -/
theorem advance_holds {t : Proc L S N E R Unit} {f : M} {l : L} {s : S}
    {w : W} (ha : t.Allowed Y.toOutside D.allow l s w)
    (h : wp (D.reading Y.toOutside) t D.done l s (f, w)) :
    D.inv (f + D.owns (t.advance Y.toOutside l s w).1) (t.advance Y.toOutside l s w).2.1
        (t.advance Y.toOutside l s w).2.2 ∧
      D.Ready Y (t.advance Y.toOutside l s w).2.2 (t.advance Y.toOutside l s w).1 := by
  induction t generalizing l s w with
  | ret a => exact ⟨h, trivial⟩
  | get k ih => exact ih l s ha h
  | put l' s' k ih => exact ih ha h
  | note n k ih => exact ih ha.2 (h ha.1)
  | call e k ih => exact h

/-- What one thread's section keeps, the pool keeps. -/
theorem holds_section (hD : D.Grows Y.toOutside) {pre post : List (Thread L S N E R)}
    {t : Thread L S N E R} {k : Proc L S N E R Unit} {l : L} {s : S} {w w' : W}
    (hp : D.Holds Y ⟨pre ++ t :: post, s, w⟩) (hw : D.later w w')
    (ha : k.Allowed Y.toOutside D.allow l s w')
    (hk : wp (D.reading Y.toOutside) k D.done l s (D.total (pre ++ post), w')) :
    D.Holds Y ⟨pre ++ (k.advance Y.toOutside l s w').1 :: post,
      (k.advance Y.toOutside l s w').2.1, (k.advance Y.toOutside l s w').2.2⟩ := by
  obtain ⟨hinv, hready⟩ := advance_holds ha hk
  have hlater := hD.trans hw (later_advance hD k l s w')
  refine ⟨?_, fun u hu => ?_⟩
  · rw [total_middle]
    exact hinv
  · obtain hu | hu := List.mem_append.mp hu
    · exact (hp.ready u (List.mem_append_left _ hu)).later hD hlater
    · obtain rfl | hu := List.mem_cons.mp hu
      · exact hready
      · exact (hp.ready u (List.mem_append_right _ (List.mem_cons_of_mem _ hu))).later hD hlater

theorem step_holds (hY : D.Keeps Y) {p p' : Pool L S N E R W} (hp : D.Holds Y p)
    (h : Pool.Step Y D.allow p p') : D.Holds Y p' := by
  cases h with
  | @spawn ts s w l hl =>
    refine ⟨?_, fun u hu => ?_⟩
    · have hsum : D.total (ts ++ [.idle l]) = D.total ts := by
        rw [total_middle, List.append_nil]
        exact (congrArg _ (hY.fresh l hl)).trans (add_zero _)
      rw [hsum]
      exact hp.inv
    · obtain hu | hu := List.mem_append.mp hu
      · exact hp.ready u hu
      · obtain rfl := List.mem_singleton.mp hu
        trivial
  | @start pre post l s w c hc ha =>
    have hinv := hp.inv
    rw [total_middle] at hinv
    exact holds_section hY.grows hp (hY.grows.refl w) ha (hY.body c _ l s w hc hinv)
  | @resume pre post l e k s w r hr ha =>
    have hinv := hp.inv
    rw [total_middle] at hinv
    have hready := hp.ready (.waiting l e k) (List.mem_append_right _ List.mem_cons_self)
    exact holds_section hY.grows hp (hY.grows.effect e r w) ha
      (hready _ s w (hY.grows.refl w) hinv r hr)

/-- **Soundness.** Every allowed run keeps the invariant of the sum. -/
theorem reach (hY : D.Keeps Y) {p₀ p : Pool L S N E R W} (h₀ : D.Holds Y p₀)
    (h : Pool.Reach Y D.allow p₀ p) : D.Holds Y p := by
  induction h with
  | refl => exact h₀
  | step _ hs ih => exact step_holds hY ih hs

/-- A pool without threads needs the invariant of nothing held. -/
theorem holds_empty {s : S} {w : W} (h : D.inv 0 s w) :
    D.Holds Y (⟨[], s, w⟩ : Pool L S N E R W) :=
  ⟨h, fun _ ht => absurd ht List.not_mem_nil⟩

end Ledger
