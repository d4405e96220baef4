import Radian.Proc.Pool
import Mathlib.Algebra.Group.Basic

/-!
# Ownership in a pool

A logic for pools in which every thread owns a share of some resource, drawn from a commutative
monoid `M`, and one invariant speaks of the total.  A thread is verified alone: it knows its own
share, and of everybody else only that the total still satisfies the invariant.

- `Discipline` — the invariant, what an idle thread owns, and the side condition of runs.
- `Discipline.sharing` — the reading of marks and calls: at a mark the side condition may be
  assumed; at a call the invariant is given up and found again with the same share.
- `Discipline.reach` — **soundness**: if every body keeps its share accounted for, the invariant
  holds of the total in every state of every allowed run.
- `Discipline.reach_quiet` — in a state with no body under way the total is what idle threads own;
  `Discipline.reach_idle`, when that is nothing.
-/

/-- An invariant over the total of all threads' shares. -/
structure Discipline (L S N W M : Type) where
  inv : M → S → W → Prop
  /-- What an idle thread owns by its local state. -/
  own : L → M
  /-- The side condition on marks. -/
  allow : N → L → S → W → Prop

namespace Discipline

variable {L S N E W C M : Type} {R : E → Type} [AddCommMonoid M]

open Proc (Transformer wp)

/-- Marks may be assumed to meet `allow`.  Around a call the thread keeps a share `m`; the others'
share `x.1`, the shared state and the world are arbitrary afterwards, up to the invariant. -/
def sharing (D : Discipline L S N W M) (O : Outside L S N E R W) :
    Transformer L S N E R (M × W) where
  note n l s K x := D.allow n l s x.2 → K (x.1, O.mark n l s x.2)
  call e K l s x := ∃ m, D.inv (x.1 + m) s x.2 ∧
    ∀ f s w, D.inv (f + m) s w → ∀ r, O.answers e w r = true → K r l s (f, O.effect e r w)

/-- What a body must leave behind: the invariant, with the share of an idle thread. -/
def done (D : Discipline L S N W M) : Unit → L → S → M × W → Prop :=
  fun _ l s x => D.inv (x.1 + D.own l) s x.2

section Rules

variable {D : Discipline L S N W M} {O : Outside L S N E R W}

theorem sharing_monotone (D : Discipline L S N W M) (O : Outside L S N E R W) :
    (D.sharing O).Monotone where
  note h hx ha := h _ (hx ha)
  call := by
    rintro e P Q l s x h ⟨m, hm, hk⟩
    exact ⟨m, hm, fun f s w hf r hr => h _ _ _ _ (hk f s w hf r hr)⟩

@[simp] theorem sharing_note {n : N} {l : L} {s : S} {K : M × W → Prop} {x : M × W} :
    (D.sharing O).note n l s K x = (D.allow n l s x.2 → K (x.1, O.mark n l s x.2)) := rfl

/-- The rule for a call: name the share kept across it. -/
theorem sharing_call {e : E} {K : R e → L → S → M × W → Prop} {l : L} {s : S} {x : M × W}
    (m : M) (hm : D.inv (x.1 + m) s x.2)
    (hk : ∀ f s w, D.inv (f + m) s w → ∀ r, O.answers e w r = true → K r l s (f, O.effect e r w)) :
    (D.sharing O).call e K l s x := ⟨m, hm, hk⟩

end Rules

/-! ### Soundness -/

variable (D : Discipline L S N W M) (Y : System L S N E R W C)

/-- A thread's share: an idle one owns what its local state says, a waiting one whatever lets it
go on after any answer. -/
def Owns : Thread L S N E R → M → Prop
  | .idle l, m => m = D.own l
  | .waiting l e k, m => ∀ f s w, D.inv (f + m) s w → ∀ r, Y.answers e w r = true →
      wp (D.sharing Y.toOutside) (k r) D.done l s (f, Y.effect e r w)

/-- The total `m` is the sum of one share for every thread. -/
def Shares : List (Thread L S N E R) → M → Prop
  | [], m => m = 0
  | t :: ts, m => ∃ f a, D.Owns Y t a ∧ Shares ts f ∧ m = f + a

/-- Every new thread owns nothing and every body keeps its share accounted for. -/
structure Keeps : Prop where
  fresh : ∀ l, Y.initial l = true → D.own l = 0
  body : ∀ c f l s w, Y.enabled c l s = true → D.inv (f + D.own l) s w →
    wp (D.sharing Y.toOutside) (Y.body c) D.done l s (f, w)

/-- The invariant holds of the total of the shares. -/
def Holds (p : Pool L S N E R W) : Prop :=
  ∃ m, D.Shares Y p.threads m ∧ D.inv m p.shared p.world

variable {D Y}

/-- One thread's share can be taken out of the total and another put in its place. -/
theorem shares_middle {pre post : List (Thread L S N E R)} {t : Thread L S N E R} {m : M} :
    D.Shares Y (pre ++ t :: post) m ↔
      ∃ f a, D.Owns Y t a ∧ D.Shares Y (pre ++ post) f ∧ m = f + a := by
  induction pre generalizing m with
  | nil => exact Iff.rfl
  | cons u pre ih =>
    constructor
    · rintro ⟨g, b, hu, hrest, rfl⟩
      obtain ⟨f, a, ht, hf, rfl⟩ := ih.mp hrest
      exact ⟨f + b, a, ht, ⟨f, b, hu, hf, rfl⟩, add_right_comm f a b⟩
    · rintro ⟨g, a, ht, ⟨f, b, hu, hf, rfl⟩, rfl⟩
      exact ⟨f + a, b, hu, ih.mpr ⟨f, a, ht, hf, rfl⟩, add_right_comm f b a⟩

/-- Running a verified process to its next call leaves a thread that owns its share. -/
theorem advance_owns {t : Proc L S N E R Unit} {f : M} {l : L} {s : S} {w : W}
    (ha : t.Allowed Y.toOutside D.allow l s w)
    (h : wp (D.sharing Y.toOutside) t D.done l s (f, w)) :
    ∃ m, D.Owns Y (t.advance Y.toOutside l s w).1 m ∧
      D.inv (f + m) (t.advance Y.toOutside l s w).2.1 (t.advance Y.toOutside l s w).2.2 := by
  induction t generalizing l s w with
  | ret a => exact ⟨D.own l, rfl, h⟩
  | get k ih => exact ih l s ha h
  | put l₁ s₁ k ih => exact ih ha h
  | note n k ih => exact ih ha.2 (h ha.1)
  | call e k ih =>
    obtain ⟨m, hm, hk⟩ := h
    exact ⟨m, hk, hm⟩

/-- One allowed step keeps the invariant of the total. -/
theorem step_holds (hY : D.Keeps Y) {p p' : Pool L S N E R W} (hs : Pool.Step Y D.allow p p')
    (hp : D.Holds Y p) : D.Holds Y p' := by
  cases hs with
  | @spawn ts s w l hl =>
    obtain ⟨m, hts, hinv⟩ := hp
    refine ⟨m, shares_middle.mpr ⟨m, 0, (hY.fresh l hl).symm, ?_, (add_zero m).symm⟩, hinv⟩
    simpa using hts
  | @start pre post l s w c hc ha =>
    obtain ⟨m, hts, hinv⟩ := hp
    obtain ⟨f, a, rfl, hrest, rfl⟩ := shares_middle.mp hts
    obtain ⟨b, hb, hinv'⟩ := advance_owns ha (hY.body c f l s w hc hinv)
    exact ⟨f + b, shares_middle.mpr ⟨f, b, hb, hrest, rfl⟩, hinv'⟩
  | @resume pre post l e k s w r hr ha =>
    obtain ⟨m, hts, hinv⟩ := hp
    obtain ⟨f, a, hk, hrest, rfl⟩ := shares_middle.mp hts
    obtain ⟨b, hb, hinv'⟩ := advance_owns ha (hk f s w hinv r hr)
    exact ⟨f + b, shares_middle.mpr ⟨f, b, hb, hrest, rfl⟩, hinv'⟩

/-- **Soundness.** Every allowed run keeps the invariant of the total. -/
theorem reach (hY : D.Keeps Y) {p₀ p : Pool L S N E R W} (h₀ : D.Holds Y p₀)
    (h : Pool.Reach Y D.allow p₀ p) : D.Holds Y p := by
  induction h with
  | refl => exact h₀
  | step _ hs ih => exact step_holds hY hs ih

/-- A pool without threads needs the invariant of nothing owned. -/
theorem holds_empty {s : S} {w : W} (h : D.inv 0 s w) :
    D.Holds Y (⟨[], s, w⟩ : Pool L S N E R W) := ⟨0, rfl, h⟩

/-- The shares of idle threads are what their local states say. -/
theorem shares_quiet {ts : List (Thread L S N E R)} {m : M} (hm : D.Shares Y ts m)
    (hq : ∀ t ∈ ts, ∃ l, t = .idle l) :
    ∃ ls : List L, ts = ls.map Thread.idle ∧ m = (ls.map D.own).sum := by
  induction ts generalizing m with
  | nil => exact ⟨[], rfl, hm⟩
  | cons t ts ih =>
    obtain ⟨f, a, ht, hf, rfl⟩ := hm
    obtain ⟨l, rfl⟩ := hq t (by simp)
    obtain ⟨ls, rfl, rfl⟩ := ih hf fun u hu => hq u (by simp [hu])
    obtain rfl : a = D.own l := ht
    exact ⟨l :: ls, rfl, by simp [add_comm]⟩

/-- In a state with no body under way the invariant speaks of what idle threads own. -/
theorem reach_quiet (hY : D.Keeps Y) {p₀ p : Pool L S N E R W} (h₀ : D.Holds Y p₀)
    (h : Pool.Reach Y D.allow p₀ p) (hq : p.Quiet) :
    ∃ ls : List L, p.threads = ls.map Thread.idle ∧
      D.inv (ls.map D.own).sum p.shared p.world := by
  obtain ⟨m, hm, hinv⟩ := reach hY h₀ h
  obtain ⟨ls, hts, rfl⟩ := shares_quiet hm hq
  exact ⟨ls, hts, hinv⟩

/-- Where idle threads own nothing, the invariant speaks of nothing owned. -/
theorem reach_idle (hY : D.Keeps Y) (hown : ∀ l, D.own l = 0) {p₀ p : Pool L S N E R W}
    (h₀ : D.Holds Y p₀) (h : Pool.Reach Y D.allow p₀ p) (hq : p.Quiet) :
    D.inv 0 p.shared p.world := by
  obtain ⟨ls, -, hinv⟩ := reach_quiet hY h₀ h hq
  have hnothing : ∀ ls : List L, (ls.map D.own).sum = 0 := by
    intro ls
    induction ls with
    | nil => rfl
    | cons l ls ih => rw [List.map_cons, List.sum_cons, hown, zero_add, ih]
  rwa [hnothing] at hinv

end Discipline
