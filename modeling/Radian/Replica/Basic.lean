import Mathlib.Algebra.Order.Group.Multiset
import Mathlib.Order.Defs.Unbundled

/-!
# A replica that follows a base

A base changes in numbered steps.  Each step sends the new content on its way to a replica, where
it arrives in any order.  `Following` says what keeps the two together: the content of the newest
step is merged already or still on its way.

- `Following.issue`, `Following.merge`, `Following.lose` — what each kind of step keeps.
- `Following.settled` — with nothing on its way and nothing lost, replica and base agree.

Contents are compared by an equivalence relation: two of them may differ in what nobody reads.
-/

namespace Replica

variable {D : Type} {agree : D → D → Prop}

/-- The counters of a run: steps issued at the base, the newest step merged at the replica, and
whether an update was lost on its way. -/
structure Progress where
  issued : Nat := 0
  merged : Nat := 0
  lost : Bool := false

/-- `pending` holds the updates on their way, each with the number of its step. -/
structure Following (agree : D → D → Prop) (pending : Multiset (Nat × D)) (w : Progress)
    (replica base : D) : Prop where
  issued : ∀ u ∈ pending, u.1 ≤ w.issued
  newest : ∀ u ∈ pending, u.1 = w.issued → agree u.2 base
  covered : w.lost = true ∨ (agree replica base ∧ w.issued ≤ w.merged) ∨
    ∃ u ∈ pending, u.1 = w.issued

namespace Following

variable {pending : Multiset (Nat × D)} {w : Progress} {replica base : D}

theorem start (h : agree replica base) : Following agree 0 {} replica base :=
  ⟨by simp, by simp, .inr (.inl ⟨h, le_rfl⟩)⟩

/-- The base takes a step to `next` and sends `sent`, which agrees with it. -/
theorem issue {next sent : D} (h : Following agree pending w replica base)
    (hsent : agree sent next) :
    Following agree (pending + {(w.issued + 1, sent)}) { w with issued := w.issued + 1 } replica
      next := by
  constructor
  · intro u hu
    rcases Multiset.mem_add.mp hu with hu | hu
    · exact Nat.le_succ_of_le (h.issued u hu)
    · obtain rfl := Multiset.mem_singleton.mp hu
      exact le_rfl
  · intro u hu hnew
    rcases Multiset.mem_add.mp hu with hu | hu
    · have hle := h.issued u hu
      dsimp only at hnew
      omega
    · obtain rfl := Multiset.mem_singleton.mp hu
      exact hsent
  · exact .inr (.inr ⟨(w.issued + 1, sent), by simp, rfl⟩)

/-- The replica takes over an update, unless a newer one with other content is merged already. -/
theorem merge [IsTrans D agree] {n : Nat} {sent : D}
    (h : Following agree (pending + {(n, sent)}) w replica base)
    (horder : w.merged ≤ n ∨ agree sent replica) :
    Following agree pending { w with merged := max w.merged n } sent base := by
  refine ⟨fun u hu => h.issued u (by simp [hu]), fun u hu => h.newest u (by simp [hu]), ?_⟩
  have hn : n ≤ w.issued := h.issued (n, sent) (by simp)
  rcases Nat.lt_or_eq_of_le hn with hold | hnew
  · rcases h.covered with hlost | ⟨hagree, hmerged⟩ | ⟨u, hu, hnew⟩
    · exact .inl hlost
    · rcases horder with hle | hsame
      · omega
      · exact .inr (.inl ⟨IsTrans.trans _ _ _ hsame hagree, le_max_of_le_left hmerged⟩)
    · refine .inr (.inr ⟨u, ?_, hnew⟩)
      rcases Multiset.mem_add.mp hu with hu | hu
      · exact hu
      · obtain rfl := Multiset.mem_singleton.mp hu
        exact absurd hnew (Nat.ne_of_lt hold)
  · refine .inr (.inl ⟨h.newest (n, sent) (by simp) hnew, ?_⟩)
    exact hnew ▸ le_max_right w.merged n

/-- An update is lost on its way. -/
theorem lose {gone : Multiset (Nat × D)} (h : Following agree (pending + gone) w replica base) :
    Following agree pending { w with lost := true } replica base :=
  ⟨fun u hu => h.issued u (by simp [hu]), fun u hu => h.newest u (by simp [hu]), .inl rfl⟩

/-- **With nothing on its way and nothing lost, replica and base agree.** -/
theorem settled (h : Following agree 0 w replica base) (hlost : w.lost = false) :
    agree replica base := by
  rcases h.covered with hgone | ⟨hagree, -⟩ | ⟨u, hu, -⟩
  · rw [hlost] at hgone
    cases hgone
  · exact hagree
  · exact absurd hu (Multiset.notMem_zero u)

end Following

end Replica
