import Mathlib.Algebra.Order.Group.Multiset
import Mathlib.Data.Multiset.UnionInter
import Mathlib.Data.Set.Insert
import Mathlib.Order.BooleanAlgebra.Set

/-!
# Exclusive leases

A lender hands out values from a set of free ones and takes them back.  `Exclusive free m` says the
leases `m`, counted with multiplicity, are in order: nothing is leased twice and nothing leased is
free.

- `Exclusive.take` — lending a free value keeps the leases in order.
- `Exclusive.giveBack` — so does taking back a value from its last holder.
- `Exclusive.giveBack_iff` — taking back a value is in order *only* when nobody holds it any more.
-/

namespace Lease

variable {α : Type}

/-- No value is leased twice and no leased value is free. -/
structure Exclusive (free : Set α) (m : Multiset α) : Prop where
  nodup : m.Nodup
  taken : ∀ v ∈ m, v ∉ free

namespace Exclusive

variable {free : Set α} {m m' : Multiset α} {v : α}

theorem nothing (free : Set α) : Exclusive free 0 := ⟨Multiset.nodup_zero, by simp⟩

/-- Forgetting leases keeps the rest in order. -/
theorem mono (h : Exclusive free m) (hm : m' ≤ m) : Exclusive free m' :=
  ⟨Multiset.nodup_of_le hm h.nodup, fun v hv => h.taken v (Multiset.mem_of_le hm hv)⟩

/-- A free value is lent. -/
theorem take (h : Exclusive free m) (hv : v ∈ free) : Exclusive (free \ {v}) (m + {v}) := by
  have hnew : v ∉ m := fun hm => h.taken v hm hv
  constructor
  · rw [add_comm, Multiset.singleton_add, Multiset.nodup_cons]
    exact ⟨hnew, h.nodup⟩
  · intro u hu
    rcases Multiset.mem_add.mp hu with hu | hu
    · exact fun hfree => h.taken u hu hfree.1
    · obtain rfl := Multiset.mem_singleton.mp hu
      exact fun hfree => hfree.2 rfl

/-- A value is taken back exactly in order when nobody holds it. -/
theorem giveBack_iff (h : Exclusive free m) : Exclusive (insert v free) m ↔ v ∉ m := by
  constructor
  · intro h' hv
    exact h'.taken v hv (Set.mem_insert v free)
  · intro hv
    refine ⟨h.nodup, fun u hu hfree => ?_⟩
    rcases hfree with rfl | hfree
    · exact hv hu
    · exact h.taken u hu hfree

/-- A held value is taken back from its holder. -/
theorem giveBack (h : Exclusive free (m + {v})) : Exclusive (insert v free) m := by
  have hm : Exclusive free m := h.mono (Multiset.le_add_right m {v})
  refine hm.giveBack_iff.mpr fun hv => ?_
  have hnodup := h.nodup
  rw [add_comm, Multiset.singleton_add, Multiset.nodup_cons] at hnodup
  exact hnodup.1 hv

/-- Taking back what is free already changes nothing. -/
theorem giveBack_free (h : Exclusive free m) (hv : v ∈ free) : Exclusive (insert v free) m := by
  rw [Set.insert_eq_of_mem hv]
  exact h

/-- Two holders of one value break exclusivity. -/
theorem not_twice (h : Exclusive free m) {u w : α} {k : Multiset α} (hm : m = k + {u} + {w}) :
    u ≠ w := by
  rintro rfl
  have hnodup := hm ▸ h.nodup
  rw [add_assoc, Multiset.nodup_add] at hnodup
  simp at hnodup

end Exclusive

end Lease
