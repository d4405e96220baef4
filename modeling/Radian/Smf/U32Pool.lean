import Mathlib.Data.Finset.Max
import Mathlib.Order.Bounds.Basic

/-!
# The lazy-reuse allocator

`U32Pool` hands out the numbers of a contiguous range, returned ones first.

- `U32Pool.free` — what the pool may still hand out, in the sense of `Lease`.
- `U32Pool.alloc_eq_some_iff` — an allocation hands out the least free number of the range.
- `U32Pool.free_alloc`, `U32Pool.free_release` — allocation takes one value out of the free ones, a
  release puts one back.
- `U32Pool.Alike.future` — pools with the same free numbers allow the same future allocations.
-/

namespace Radian.Smf

/-- A lazy-reuse allocator over `[start, stop)`.  Only numbers below the high-water mark are ever
in the returned set. -/
structure U32Pool where
  /-- The lowest never-yet-allocated value. -/
  next : Nat
  /-- Exclusive upper bound of the range. -/
  stop : Nat
  /-- Returned values, reused before the high-water mark advances. -/
  freed : Finset Nat
  freed_lt : ∀ v ∈ freed, v < next
  next_le : next ≤ stop
  stop_lt : stop < 2 ^ 32

namespace U32Pool

def new (start stop : Nat) (hle : start ≤ stop) (hlt : stop < 2 ^ 32) : U32Pool :=
  { next := start, stop, freed := ∅, freed_lt := by simp, next_le := hle, stop_lt := hlt }

/-- The next free value: the lowest returned one, else a fresh one; `none` when exhausted. -/
def alloc (p : U32Pool) : Option Nat × U32Pool :=
  if h : p.freed.Nonempty then
    let v := p.freed.min' h
    (some v, { p with
      freed := p.freed.erase v
      freed_lt := fun u hu => p.freed_lt u (Finset.mem_of_mem_erase hu) })
  else if hlt : p.next < p.stop then
    (some p.next, { p with
      next := p.next + 1
      freed_lt := fun u hu => Nat.lt_succ_of_lt (p.freed_lt u hu)
      next_le := hlt })
  else (none, p)

/-- Return `v`, unless it was never allocated. -/
def release (p : U32Pool) (v : Nat) : U32Pool :=
  if h : v < p.next then
    { p with
      freed := insert v p.freed
      freed_lt := fun u hu => by
        rcases Finset.mem_insert.mp hu with rfl | hu
        · exact h
        · exact p.freed_lt u hu }
  else p

/-! ### The free numbers -/

/-- The values a pool may still hand out. -/
def free (p : U32Pool) : Set Nat := {v | v ∈ p.freed ∨ p.next ≤ v}

instance (p : U32Pool) : DecidablePred (· ∈ p.free) :=
  fun v => inferInstanceAs (Decidable (v ∈ p.freed ∨ p.next ≤ v))

theorem freed_sub_free {p : U32Pool} {v : Nat} (h : v ∈ p.freed) : v ∈ p.free := Or.inl h

/-- An allocation takes one value out of the free ones. -/
theorem free_alloc {p p' : U32Pool} {v : Nat} (h : p.alloc = (some v, p')) :
    v ∈ p.free ∧ p'.free = p.free \ {v} := by
  unfold alloc at h
  split at h
  · rename_i hne
    obtain ⟨rfl, rfl⟩ : p.freed.min' hne = v ∧ _ = p' := by simpa using h
    have hmem := p.freed.min'_mem hne
    refine ⟨Or.inl hmem, Set.ext fun u => ?_⟩
    have hlt := p.freed_lt _ hmem
    simp only [free, Set.mem_ofPred_eq, Finset.mem_erase, Set.mem_sdiff, Set.mem_singleton_iff]
    constructor
    · rintro (⟨hu, hmem'⟩ | hle)
      · exact ⟨Or.inl hmem', hu⟩
      · exact ⟨Or.inr hle, by omega⟩
    · rintro ⟨hmem' | hle, hu⟩
      · exact Or.inl ⟨hu, hmem'⟩
      · exact Or.inr hle
  · split at h
    · obtain ⟨rfl, rfl⟩ : p.next = v ∧ _ = p' := by simpa using h
      refine ⟨Or.inr le_rfl, Set.ext fun u => ?_⟩
      simp only [free, Set.mem_ofPred_eq, Set.mem_sdiff, Set.mem_singleton_iff]
      constructor
      · rintro (hmem | hle)
        · have hlt := p.freed_lt u hmem
          exact ⟨Or.inl hmem, by omega⟩
        · exact ⟨Or.inr (by omega), by omega⟩
      · rintro ⟨hmem | hle, hu⟩
        · exact Or.inl hmem
        · exact Or.inr (by omega)
    · simp at h

/-- A failed allocation leaves the pool alone. -/
theorem alloc_none {p p' : U32Pool} (h : p.alloc = (none, p')) : p' = p := by
  unfold alloc at h
  split at h
  · simp at h
  · split at h
    · simp at h
    · simpa using h.symm

theorem alloc_stop (p : U32Pool) : p.alloc.2.stop = p.stop := by
  unfold alloc
  split
  · rfl
  · split <;> rfl

/-- An allocation hands out the least free number of the range. -/
theorem alloc_eq_some_iff {p : U32Pool} {v : Nat} :
    p.alloc.1 = some v ↔ IsLeast p.free v ∧ v < p.stop := by
  have hrange := p.next_le
  unfold alloc
  split
  · rename_i hne
    have hmin := p.freed_lt _ (p.freed.min'_mem hne)
    have hleast : IsLeast p.free (p.freed.min' hne) := by
      refine ⟨Or.inl (p.freed.min'_mem hne), fun u hu => ?_⟩
      rcases hu with hu | hu
      · exact p.freed.min'_le u hu
      · omega
    constructor
    · rintro ⟨⟩
      exact ⟨hleast, by omega⟩
    · rintro ⟨hv, -⟩
      exact congrArg some (hleast.unique hv)
  · rename_i hempty
    have hleast : IsLeast p.free p.next := by
      refine ⟨Or.inr le_rfl, fun u hu => ?_⟩
      rcases hu with hu | hu
      · exact absurd ⟨u, hu⟩ hempty
      · exact hu
    split
    · rename_i hlt
      constructor
      · rintro ⟨⟩
        exact ⟨hleast, hlt⟩
      · rintro ⟨hv, -⟩
        exact congrArg some (hleast.unique hv)
    · rename_i hfull
      constructor
      · rintro ⟨⟩
      · rintro ⟨hv, hlt⟩
        rw [← hleast.unique hv] at hlt
        exact absurd hlt hfull

/-- Only 32-bit numbers are ever handed out. -/
theorem alloc_lt {p p' : U32Pool} {v : Nat} (h : p.alloc = (some v, p')) : v < 2 ^ 32 := by
  have hv : p.alloc.1 = some v := by rw [h]
  exact (alloc_eq_some_iff.mp hv).2.trans p.stop_lt

/-- A release makes exactly `v` free: a value never allocated is free already. -/
theorem free_release (p : U32Pool) (v : Nat) : (p.release v).free = insert v p.free := by
  unfold release
  split
  · ext u
    simp only [free, Set.mem_ofPred_eq, Finset.mem_insert, Set.mem_insert_iff]
    tauto
  · rename_i h
    rw [Set.insert_eq_of_mem]
    exact Or.inr (by omega)

theorem release_stop (p : U32Pool) (v : Nat) : (p.release v).stop = p.stop := by
  unfold release
  split <;> rfl

/-! ### Future allocations -/

/-- An operation on a pool. -/
inductive Op where
  | alloc
  | release (v : Nat)

/-- What a sequence of operations hands out. -/
def future : List Op → U32Pool → List (Option Nat)
  | [], _ => []
  | .alloc :: ops, p => p.alloc.1 :: future ops p.alloc.2
  | .release v :: ops, p => future ops (p.release v)

/-- Two pools over one range with the same free numbers. -/
structure Alike (p q : U32Pool) : Prop where
  free : p.free = q.free
  stop : p.stop = q.stop

namespace Alike

variable {p q r : U32Pool}

theorem refl (p : U32Pool) : Alike p p := ⟨rfl, rfl⟩

theorem trans (h : Alike p q) (h' : Alike q r) : Alike p r :=
  ⟨h.free.trans h'.free, h.stop.trans h'.stop⟩

theorem alloc_fst (h : Alike p q) : p.alloc.1 = q.alloc.1 := by
  refine Option.ext fun v => ?_
  rw [alloc_eq_some_iff, alloc_eq_some_iff, h.free, h.stop]

theorem alloc_snd (h : Alike p q) : Alike p.alloc.2 q.alloc.2 := by
  refine ⟨?_, by rw [alloc_stop, alloc_stop, h.stop]⟩
  have hfst := h.alloc_fst
  cases hp : p.alloc with
  | mk v p' =>
    cases hq : q.alloc with
    | mk w q' =>
      rw [hp, hq] at hfst
      obtain rfl : v = w := hfst
      cases v with
      | none => rw [alloc_none hp, alloc_none hq, h.free]
      | some v => rw [(free_alloc hp).2, (free_alloc hq).2, h.free]

theorem release (h : Alike p q) (v : Nat) : Alike (p.release v) (q.release v) :=
  ⟨by rw [free_release, free_release, h.free], by rw [release_stop, release_stop, h.stop]⟩

/-- **Pools with the same free numbers allow the same future allocations.** -/
theorem future (h : Alike p q) (ops : List Op) : U32Pool.future ops p = U32Pool.future ops q := by
  induction ops generalizing p q with
  | nil => rfl
  | cons op ops ih =>
    cases op with
    | alloc => rw [U32Pool.future, U32Pool.future, h.alloc_fst, ih h.alloc_snd]
    | release v => exact ih (h.release v)

/-- An allocation undone. -/
theorem release_alloc {v : Nat} (h : p.alloc = (some v, q)) : Alike (q.release v) p := by
  obtain ⟨hv, hfree⟩ := free_alloc h
  refine ⟨?_, ?_⟩
  · rw [free_release, hfree, Set.insert_sdiff_singleton, Set.insert_eq_of_mem hv]
  · have hstop := p.alloc_stop
    rw [h] at hstop
    rw [release_stop, hstop]

end Alike

-- returned values are reused before the high-water mark advances, lowest first
example : (((U32Pool.new 10 13 (by decide) (by decide)).alloc.2.alloc.2.release 10).alloc).1 =
    some 10 := by decide

end U32Pool

end Radian.Smf
