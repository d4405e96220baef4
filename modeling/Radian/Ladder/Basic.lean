import Mathlib.Data.List.Pairwise
import Mathlib.Data.Nat.Dist
import Mathlib.Order.Bounds.Basic

/-!
# Rounding up on a ladder of steps

A duration is written as a count of one of several steps, and a count goes up to `top` only.  Each
step divides the later ones.

- `Expressible`, `RoundedUp` — what can be written, and the best one can write for at least `n`.
- `roundedUp_of_find?` — the first step with a count in range rounds up; with none, the longest
  duration does.
- `RoundedUp.mono` — rounding up is monotone.
- `Nearest` — no expressible quantity is closer; the quantity itself where it is expressible.
-/

namespace Ladder

variable {top n m d e : Nat} {steps : List Nat}

/-- How many steps cover `n`. -/
def count (step n : Nat) : Nat := (n + step - 1) / step

/-- A count in range of one of the steps. -/
def Expressible (top : Nat) (steps : List Nat) (d : Nat) : Prop :=
  ∃ step ∈ steps, ∃ k ≤ top, d = k * step

/-- The least member of `E` from `n` on, or the greatest one where all are below `n`. -/
def RoundedUp (E : Nat → Prop) (n d : Nat) : Prop :=
  IsLeast {d | E d ∧ n ≤ d} d ∨ (IsGreatest {d | E d} d ∧ d < n)

/-! ### Counting steps -/

theorem count_le_iff {step : Nat} (h : 0 < step) : count step n ≤ m ↔ n ≤ m * step := by
  unfold count
  rw [← Nat.lt_succ_iff, Nat.div_lt_iff_lt_mul h, Nat.succ_mul]
  omega

theorem le_count_mul {step : Nat} (h : 0 < step) (n : Nat) : n ≤ count step n * step :=
  (count_le_iff h).mp le_rfl

/-! ### The first step in range -/

/-- With the finest step in range no other one comes closer. -/
theorem isLeast_of_find? (hpos : ∀ step ∈ steps, 0 < step) (hdvd : steps.Pairwise (· ∣ ·))
    {step : Nat} (h : steps.find? (fun step => decide (count step n ≤ top)) = some step) :
    IsLeast {d | Expressible top steps d ∧ n ≤ d} (count step n * step) := by
  obtain ⟨hfits, finer, coarser, rfl, hfiner⟩ := List.find?_eq_some_iff_append.mp h
  have hstep : 0 < step := hpos step (by simp)
  constructor
  · exact ⟨⟨step, by simp, count step n, by simpa using hfits, rfl⟩, le_count_mul hstep n⟩
  · rintro d ⟨⟨other, hother, k, hk, rfl⟩, hn⟩
    rcases List.mem_append.mp hother with hother | hother
    · -- a finer step would have been taken
      have hcount : count other n ≤ top :=
        ((count_le_iff (hpos other (List.mem_append_left _ hother))).mpr hn).trans hk
      have hnot := hfiner other hother
      simp [hcount] at hnot
    · -- a coarser one reaches multiples of this step only
      have hdiv : step ∣ other := by
        rcases List.mem_cons.mp hother with rfl | hother
        · exact Nat.dvd_refl _
        · exact (List.pairwise_cons.mp (List.pairwise_append.mp hdvd).2.1).1 other hother
      obtain ⟨c, rfl⟩ := hdiv
      have hcount : count step n ≤ k * c := by
        rw [count_le_iff hstep]
        calc n ≤ k * (step * c) := hn
          _ = k * c * step := by rw [Nat.mul_assoc, Nat.mul_comm step c]
      calc count step n * step ≤ k * c * step := Nat.mul_le_mul_right step hcount
        _ = k * (step * c) := by rw [Nat.mul_assoc, Nat.mul_comm step c]

/-- With no step in range everything expressible is below `n`. -/
theorem lt_of_find?_eq_none (hpos : ∀ step ∈ steps, 0 < step)
    (h : steps.find? (fun step => decide (count step n ≤ top)) = none) (hd : Expressible top steps d) :
    d < n := by
  obtain ⟨step, hstep, k, hk, rfl⟩ := hd
  have hnot := List.find?_eq_none.mp h step hstep
  by_contra hle
  have hcount : count step n ≤ top :=
    ((count_le_iff (hpos step hstep)).mpr (not_lt.mp hle)).trans hk
  simp [hcount] at hnot

/-- The last step counted to the top is the longest there is. -/
theorem isGreatest_last (hpos : ∀ step ∈ steps, 0 < step) (hdvd : steps.Pairwise (· ∣ ·)) {last : Nat}
    (hlast : steps.getLast? = some last) : IsGreatest {d | Expressible top steps d} (top * last) := by
  obtain ⟨finer, rfl⟩ := List.getLast?_eq_some_iff.mp hlast
  constructor
  · exact ⟨last, by simp, top, le_rfl, rfl⟩
  · rintro d ⟨step, hstep, k, hk, rfl⟩
    have hle : step ≤ last := by
      rcases List.mem_append.mp hstep with hstep | hstep
      · have hdiv : step ∣ last := (List.pairwise_append.mp hdvd).2.2 step hstep last (by simp)
        exact Nat.le_of_dvd (hpos last (by simp)) hdiv
      · rw [List.mem_singleton.mp hstep]
    exact Nat.mul_le_mul hk hle

/-! ### Rounding up -/

/-- The count of the first step in range, or the longest duration, is the request rounded up. -/
theorem roundedUp_of_find? (hpos : ∀ step ∈ steps, 0 < step) (hdvd : steps.Pairwise (· ∣ ·)) {last : Nat}
    (hlast : steps.getLast? = some last) (n : Nat) :
    RoundedUp (Expressible top steps) n
      (match steps.find? (fun step => decide (count step n ≤ top)) with
        | some step => count step n * step
        | none => top * last) := by
  split
  · rename_i step hfind
    exact Or.inl (isLeast_of_find? hpos hdvd hfind)
  · rename_i hfind
    have hgreatest : IsGreatest {d | Expressible top steps d} (top * last) :=
      isGreatest_last hpos hdvd hlast
    exact Or.inr ⟨hgreatest, lt_of_find?_eq_none hpos hfind hgreatest.1⟩

theorem RoundedUp.mem {E : Nat → Prop} (h : RoundedUp E n d) : E d := by
  rcases h with h | ⟨h, -⟩
  · exact h.1.1
  · exact h.1

theorem RoundedUp.mono {E : Nat → Prop} (hnm : n ≤ m) (hd : RoundedUp E n d) (he : RoundedUp E m e) :
    d ≤ e := by
  rcases he with he | ⟨he, -⟩
  · have hne : n ≤ e := hnm.trans he.1.2
    rcases hd with hd | ⟨-, hlt⟩
    · exact hd.2 ⟨he.1.1, hne⟩
    · exact hlt.le.trans hne
  · exact he.2 hd.mem

/-! ### The nearest quantity -/

/-- A member of `E` that no other comes closer than. -/
def Nearest (E : Nat → Prop) (n d : Nat) : Prop := E d ∧ ∀ e, E e → Nat.dist n d ≤ Nat.dist n e

theorem nearest_self {E : Nat → Prop} (h : E n) : Nearest E n n := by
  refine ⟨h, fun e _ => ?_⟩
  rw [Nat.dist_self]
  exact Nat.zero_le _

end Ladder
