import Mathlib.Data.List.Basic
import Mathlib.Data.Nat.ModEq

/-!
# One's-complement sums

Sums of 16-bit words whose carries are folded back in.

- `words` — the big-endian words of an octet string.
- `fold` — the carries of a sum folded in, until none is left.
- `fold_add_complement` — a sum and the complement of its fold fold to all ones.
-/

namespace OnesComplement

/-- The 16-bit words of a string; a last odd octet is the high half of a word. -/
def words : List UInt8 → List Nat
  | high :: low :: rest => (high.toNat * 256 + low.toNat) :: words rest
  | [high] => [high.toNat * 256]
  | [] => []

/-- Fold the carries in. -/
def fold (sum : Nat) : Nat :=
  if sum / 65536 = 0 then sum else fold (sum % 65536 + sum / 65536)
termination_by sum
decreasing_by omega

/-! ### Words -/

/-- A prefix of even length is a prefix of words. -/
theorem sum_words_append {pre : List UInt8} (h : pre.length % 2 = 0) (post : List UInt8) :
    (words (pre ++ post)).sum = (words pre).sum + (words post).sum := by
  induction pre using words.induct with
  | case1 high low rest ih =>
    have hrest : rest.length % 2 = 0 := by
      simp only [List.length_cons] at h
      omega
    simp only [List.cons_append, words, List.sum_cons, ih hrest]
    omega
  | case2 high => simp at h
  | case3 => simp [words]

theorem sum_words_le (data : List UInt8) : (words data).sum ≤ 65535 * data.length := by
  induction data using words.induct with
  | case1 high low rest ih =>
    have hhigh := high.toNat_lt
    have hlow := low.toNat_lt
    rw [words, List.sum_cons, List.length_cons, List.length_cons]
    omega
  | case2 high =>
    have hhigh := high.toNat_lt
    simp only [words, List.sum_singleton, List.length_singleton]
    omega
  | case3 => simp [words]

/-! ### Folding -/

theorem fold_of_lt {sum : Nat} (h : sum < 65536) : fold sum = sum := by
  rw [fold, if_pos (Nat.div_eq_of_lt h)]

/-- What is left fits a word. -/
theorem fold_lt (sum : Nat) : fold sum < 65536 := by
  induction sum using fold.induct with
  | case1 sum h =>
    rw [fold, if_pos h]
    omega
  | case2 sum h ih => rwa [fold, if_neg h]

/-- Folding keeps the sum modulo 65535. -/
theorem fold_modEq (sum : Nat) : fold sum ≡ sum [MOD 65535] := by
  induction sum using fold.induct with
  | case1 sum h => rw [fold, if_pos h]
  | case2 sum h ih =>
    rw [fold, if_neg h]
    refine ih.trans ?_
    calc sum % 65536 + sum / 65536
        ≡ sum % 65536 + sum / 65536 + 65535 * (sum / 65536) [MOD 65535] := by
          unfold Nat.ModEq
          rw [Nat.add_mul_mod_self_left]
      _ = sum := by omega

/-- Only zero folds to zero; the other multiples of 65535 fold to all ones. -/
theorem fold_eq_zero_iff (sum : Nat) : fold sum = 0 ↔ sum = 0 := by
  induction sum using fold.induct with
  | case1 sum h => rw [fold, if_pos h]
  | case2 sum h ih =>
    rw [fold, if_neg h, ih]
    omega

/-- A sum and the complement of its fold. -/
theorem fold_add_complement (sum : Nat) : fold (sum + (65535 - fold sum)) = 65535 := by
  have hlt := fold_lt sum
  have hmod : fold (sum + (65535 - fold sum)) ≡ 0 [MOD 65535] := by
    calc fold (sum + (65535 - fold sum)) ≡ sum + (65535 - fold sum) [MOD 65535] := fold_modEq _
      _ ≡ fold sum + (65535 - fold sum) [MOD 65535] := (fold_modEq sum).symm.add_right _
      _ = 65535 := by omega
      _ ≡ 0 [MOD 65535] := rfl
  have hne : fold (sum + (65535 - fold sum)) ≠ 0 := by
    rw [Ne, fold_eq_zero_iff]
    intro hzero
    have hsum : sum = 0 := by omega
    rw [hsum, fold_of_lt (by omega)] at hzero
    omega
  have hdvd : 65535 ∣ fold (sum + (65535 - fold sum)) := (Nat.modEq_zero_iff_dvd).mp hmod
  have hlt' := fold_lt (sum + (65535 - fold sum))
  omega

end OnesComplement
