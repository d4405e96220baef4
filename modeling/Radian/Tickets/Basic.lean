import Mathlib.Algebra.Group.Nat.Defs
import Mathlib.Data.List.Nodup
import Mathlib.Logic.Function.Basic

/-!
# Tickets from a wrapping counter

Owners hold numbers of a fixed width that one counter hands out and that come back when an owner
leaves.  The counter never looks at what is held.

- `Distinct` — no number is held twice, and none is zero.
- `distinct_grant_iff` — numbers go to a new owner in order exactly when they are not zero and nobody
  holds them.
- `Counted.grant` — before the counter has gone round, every draw is such.
-/

namespace Tickets

variable {O : Type} {w : Nat}

/-- The next numbers of the counter. -/
def draw (next : BitVec w) (k : Nat) : List (BitVec w) := (List.range k).map fun i => next + .ofNat w i

/-- No number is held twice and none is zero.  `held` says what each owner holds. -/
structure Distinct (held : O → List (BitVec w)) : Prop where
  nonzero : ∀ o, 0 ∉ held o
  own : ∀ o, (held o).Nodup
  apart : ∀ o o', o ≠ o' → (held o).Disjoint (held o')

namespace Distinct

variable {held held' : O → List (BitVec w)}

theorem nothing : Distinct fun _ : O => ([] : List (BitVec w)) := by
  constructor
  · exact fun _ => List.not_mem_nil
  · exact fun _ => List.nodup_nil
  · exact fun _ _ _ => List.disjoint_nil_left _

/-- A number has one owner. -/
theorem owner (h : Distinct held) {o o' : O} {x : BitVec w} (hx : x ∈ held o) (hx' : x ∈ held o') :
    o = o' := by
  by_contra hne
  exact h.apart o o' hne hx hx'

/-- Owners may leave. -/
theorem leave (h : Distinct held) (hheld : ∀ o, held' o = held o ∨ held' o = []) :
    Distinct held' := by
  have hsub : ∀ o, (held' o).Sublist (held o) := by
    intro o
    rcases hheld o with hsame | hnone
    · rw [hsame]
    · rw [hnone]
      exact List.nil_sublist _
  constructor
  · exact fun o hzero => h.nonzero o ((hsub o).subset hzero)
  · exact fun o => (h.own o).sublist (hsub o)
  · exact fun o o' hne x hx hx' => h.apart o o' hne ((hsub o).subset hx) ((hsub o').subset hx')

end Distinct

/-- A new owner's numbers keep all distinct exactly when they are distinct, not zero and not held. -/
theorem distinct_grant_iff [DecidableEq O] {held : O → List (BitVec w)} {o : O}
    {l : List (BitVec w)} (hnew : held o = []) (hnodup : l.Nodup) (h : Distinct held) :
    Distinct (Function.update held o l) ↔ ∀ x ∈ l, x ≠ 0 ∧ ∀ o', x ∉ held o' := by
  constructor
  · intro hafter x hx
    have hmem : x ∈ Function.update held o l o := by rw [Function.update_self]; exact hx
    constructor
    · rintro rfl
      exact hafter.nonzero o hmem
    · intro o' hheld
      have hne : o' ≠ o := by
        rintro rfl
        rw [hnew] at hheld
        exact List.not_mem_nil hheld
      apply hafter.apart o o' hne.symm hmem
      rw [Function.update_of_ne hne]
      exact hheld
  · intro hfree
    constructor
    · intro o'
      by_cases ho : o' = o
      · rw [ho, Function.update_self]
        exact fun hzero => (hfree 0 hzero).1 rfl
      · rw [Function.update_of_ne ho]
        exact h.nonzero o'
    · intro o'
      by_cases ho : o' = o
      · rw [ho, Function.update_self]
        exact hnodup
      · rw [Function.update_of_ne ho]
        exact h.own o'
    · intro a b hne x ha hb
      by_cases hao : a = o
      · have hbo : b ≠ o := fun hbo => hne (hao.trans hbo.symm)
        rw [hao, Function.update_self] at ha
        rw [Function.update_of_ne hbo] at hb
        exact (hfree x ha).2 b hb
      · rw [Function.update_of_ne hao] at ha
        by_cases hbo : b = o
        · rw [hbo, Function.update_self] at hb
          exact (hfree x hb).2 a ha
        · rw [Function.update_of_ne hbo] at hb
          exact h.apart a b hne ha hb

/-! ### Before the counter has gone round -/

/-- The counter has handed out `n` numbers, from one on, and those held are among them. -/
structure Counted (n : Nat) (next : BitVec w) (held : O → List (BitVec w)) : Prop where
  next : next = .ofNat w (n + 1)
  held : ∀ o, ∀ x ∈ held o, 0 < x.toNat ∧ x.toNat ≤ n

theorem Counted.leave {n : Nat} {next : BitVec w} {held held' : O → List (BitVec w)}
    (h : Counted n next held) (hheld : ∀ o, held' o = held o ∨ held' o = []) :
    Counted n next held' := by
  refine ⟨h.next, fun o x hx => ?_⟩
  rcases hheld o with hsame | hnone
  · rw [hsame] at hx
    exact h.held o x hx
  · rw [hnone] at hx
    exact absurd hx List.not_mem_nil

/-- The numbers drawn from a counter that has not gone round. -/
theorem toNat_draw {n k : Nat} {x : BitVec w} (hfew : n + k < 2 ^ w)
    (hx : x ∈ draw (.ofNat w (n + 1)) k) : n < x.toNat ∧ x.toNat ≤ n + k := by
  obtain ⟨i, hi, rfl⟩ := List.mem_map.mp hx
  have hik : i < k := List.mem_range.mp hi
  rw [← BitVec.ofNat_add, BitVec.toNat_ofNat, Nat.mod_eq_of_lt (by omega)]
  omega

theorem nodup_draw (next : BitVec w) {k : Nat} (hk : k ≤ 2 ^ w) : (draw next k).Nodup := by
  apply List.Nodup.map_on
  · intro i hi j hj heq
    have hsame := congrArg BitVec.toNat ((BitVec.add_right_inj next).mp heq)
    rw [List.mem_range] at hi hj
    rwa [BitVec.toNat_ofNat, BitVec.toNat_ofNat, Nat.mod_eq_of_lt (by omega),
      Nat.mod_eq_of_lt (by omega)] at hsame
  · exact List.nodup_range

/-- A new owner draws `k` numbers nobody holds. -/
theorem Counted.grant [DecidableEq O] {n k : Nat} {next : BitVec w} {held : O → List (BitVec w)}
    {o : O} (hcounted : Counted n next held) (h : Distinct held) (hnew : held o = [])
    (hfew : n + k < 2 ^ w) :
    Counted (n + k) (next + .ofNat w k) (Function.update held o (draw next k)) ∧
      Distinct (Function.update held o (draw next k)) := by
  have hdraw : ∀ x ∈ draw next k, n < x.toNat ∧ x.toNat ≤ n + k := by
    intro x hx
    rw [hcounted.next] at hx
    exact toNat_draw hfew hx
  constructor
  · constructor
    · rw [hcounted.next, ← BitVec.ofNat_add]
      congr 1
      omega
    · intro o' x hx
      by_cases ho : o' = o
      · rw [ho, Function.update_self] at hx
        have hx' := hdraw x hx
        omega
      · rw [Function.update_of_ne ho] at hx
        have hx' := hcounted.held o' x hx
        omega
  · rw [distinct_grant_iff hnew (nodup_draw next (by omega)) h]
    intro x hx
    have hx' := hdraw x hx
    constructor
    · rintro rfl
      exact absurd hx'.1 (Nat.not_lt_zero n)
    · intro o' hheld
      have hold := hcounted.held o' x hheld
      omega

end Tickets
