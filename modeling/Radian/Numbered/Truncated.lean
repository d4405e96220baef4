import Mathlib.Algebra.Order.Ring.Nat
import Mathlib.Data.Nat.Bitwise
import Mathlib.Tactic.Ring

/-!
# Counts and their low bits

A count of `w` bits travels as its `n` low bits.  The mask, the shift and the disjunction that cut a
count up and put it together, as arithmetic on naturals; and the count its low bits are taken for, the
nearest one to the count expected.

- `nearest_of_ahead` — less than half a block ahead, the count is recovered.
- `nearest_eq_iff_behind` — the counts behind that are recovered too.
-/

namespace Numbered.Truncated

variable {w : Nat}

/-- The mask of the `n` low bits. -/
def mask (w n : Nat) : BitVec w := BitVec.ofNat w (2 ^ n - 1)

theorem toNat_and_mask (e : BitVec w) {n : Nat} (hn : n ≤ w) :
    (e &&& mask w n).toNat = e.toNat % 2 ^ n := by
  have hlt : 2 ^ n - 1 < 2 ^ w := by
    have hle := Nat.pow_le_pow_right (show 0 < 2 by decide) hn
    have hpos := Nat.two_pow_pos n
    omega
  rw [BitVec.toNat_and, mask, BitVec.toNat_ofNat, Nat.mod_eq_of_lt hlt,
    Nat.and_two_pow_sub_one_eq_mod]

theorem getLsbD_mask {n i : Nat} (hi : i < w) : (mask w n).getLsbD i = decide (i < n) := by
  rw [mask, BitVec.getLsbD_ofNat, Nat.testBit_two_pow_sub_one]
  simp [hi]

theorem and_not_mask (e : BitVec w) (n : Nat) : e &&& ~~~mask w n = (e >>> n) <<< n := by
  apply BitVec.eq_of_getLsbD_eq
  intro i hi
  rw [BitVec.getLsbD_and, BitVec.getLsbD_not, getLsbD_mask hi, BitVec.getLsbD_shiftLeft,
    BitVec.getLsbD_ushiftRight]
  by_cases h : i < n
  · simp [h]
  · have hback : n + (i - n) = i := by omega
    simp [hi, h, hback]

/-- Low bits beside high bits. -/
theorem toNat_shiftLeft_or (h s : BitVec w) {n : Nat} (hn : n ≤ w) (hs : s.toNat < 2 ^ n) :
    (h <<< n ||| s).toNat = h.toNat % 2 ^ (w - n) * 2 ^ n + s.toNat := by
  have hsplit : (h <<< n).toNat = (h.toNat % 2 ^ (w - n)) <<< n := by
    rw [BitVec.toNat_shiftLeft, Nat.shiftLeft_eq, Nat.shiftLeft_eq]
    have hpow : 2 ^ w = 2 ^ (w - n) * 2 ^ n := by
      rw [← Nat.pow_add, Nat.sub_add_cancel hn]
    rw [hpow, Nat.mul_mod_mul_right]
  rw [BitVec.toNat_or, hsplit, ← Nat.shiftLeft_add_eq_or_of_lt hs, Nat.shiftLeft_eq]

/-- The low bits of a count replaced by others. -/
theorem toNat_and_not_mask_or (e s : BitVec w) {n : Nat} (hn : n ≤ w) (hs : s.toNat < 2 ^ n) :
    (e &&& ~~~mask w n ||| s).toNat = e.toNat / 2 ^ n * 2 ^ n + s.toNat := by
  have hlt : e.toNat / 2 ^ n < 2 ^ (w - n) := by
    rw [Nat.div_lt_iff_lt_mul (Nat.two_pow_pos n), ← Nat.pow_add, Nat.sub_add_cancel hn]
    exact e.isLt
  rw [and_not_mask, toNat_shiftLeft_or _ _ hn hs, BitVec.toNat_ushiftRight,
    Nat.shiftRight_eq_div_pow, Nat.mod_eq_of_lt hlt]

/-! ### The nearest count -/

/-- The count below `H * B` with low part `s` that lies nearest to `r`. -/
def nearest (H B r s : Nat) : Nat :=
  if s < r % B ∧ B / 2 < r % B - s then (r / B + 1) % H * B + s
  else if r % B < s ∧ B / 2 < s - r % B then (r / B + H - 1) % H * B + s
  else r / B * B + s

variable {H B r c s k : Nat}

theorem block_lt {h : Nat} (hh : h < H) (hs : s < B) : h * B + s < H * B := by
  have hmul := Nat.mul_le_mul_right B (Nat.succ_le_of_lt hh)
  rw [Nat.succ_mul] at hmul
  omega

theorem div_lt_of_lt (hr : r < H * B) : r / B < H :=
  Nat.div_lt_of_lt_mul (Nat.mul_comm H B ▸ hr)

/-- Less than half a block ahead, also past the last count, the count is recovered. -/
theorem nearest_of_ahead (hr : r < H * B) (heven : B = 2 * (B / 2)) (hk : k < B / 2) :
    nearest H B r ((r + k) % (H * B) % B) = (r + k) % (H * B) := by
  have hlow := Nat.mod_lt r (show 0 < B by omega)
  have hparts := Nat.div_add_mod' r B
  have hdiv := div_lt_of_lt hr
  have hs : (r + k) % (H * B) % B = (r % B + k) % B := by
    rw [Nat.mod_mod_of_dvd _ (Nat.dvd_mul_left B H), Nat.mod_add_mod]
  rw [hs]
  unfold nearest
  by_cases hblock : r % B + k < B
  · have hlt := block_lt hdiv hblock
    rw [Nat.mod_eq_of_lt hblock, if_neg (by omega), if_neg (by omega),
      Nat.mod_eq_of_lt (a := r + k) (by omega)]
    omega
  · have hsmall : r % B + k - B < B := by omega
    have hwrap : (r % B + k) % B = r % B + k - B := by
      rw [Nat.mod_eq_sub_mod (by omega), Nat.mod_eq_of_lt hsmall]
    have hnext : r + k = (r / B + 1) * B + (r % B + k - B) := by
      rw [Nat.succ_mul]
      omega
    rw [hwrap, if_pos (by omega), hnext]
    generalize r % B + k - B = low at hsmall
    rcases Nat.lt_or_ge (r / B + 1) H with hlt | hge
    · rw [Nat.mod_eq_of_lt hlt, Nat.mod_eq_of_lt (block_lt hlt hsmall)]
    · have hlast : r / B + 1 = H := by omega
      have hfirst := block_lt (h := 0) (Nat.zero_lt_of_lt hdiv) hsmall
      rw [hlast, Nat.mod_self, Nat.add_mod_left, Nat.mod_eq_of_lt (by omega)]
      omega

/-- The count `c` lies behind `r`, and yet its low part read at `r` gives `c`. -/
def Behind (H B r c : Nat) : Prop :=
  c < r ∧ (r - c < B / 2 ∨ r - c = B / 2 ∧ c / B = r / B ∨ c + H * B - r < B / 2)

theorem nearest_eq_iff_behind (hr : r < H * B) (heven : B = 2 * (B / 2)) (hB : 0 < B)
    (hc : c < r) : nearest H B r (c % B) = c ↔ Behind H B r c := by
  have hrlow := Nat.mod_lt r hB
  have hclow := Nat.mod_lt c hB
  have hrparts := Nat.div_add_mod' r B
  have hcparts := Nat.div_add_mod' c B
  have hdiv := div_lt_of_lt hr
  have hle : c / B ≤ r / B := Nat.div_le_div_right hc.le
  have hstep : ∀ {m n : Nat}, m < n → m * B + B ≤ n * B := fun h => by
    have hmul := Nat.mul_le_mul_right B (Nat.succ_le_of_lt h)
    rwa [Nat.succ_mul] at hmul
  have htop := hstep hdiv
  unfold nearest Behind
  generalize r / B = i at *
  generalize c / B = j at *
  by_cases hup : c % B < r % B ∧ B / 2 < r % B - c % B
  · rw [if_pos hup]
    have hfar : B / 2 < r - c := by
      rcases Nat.lt_or_eq_of_le hle with hlt | heq
      · have hmul := hstep hlt
        omega
      · rw [heq] at hcparts
        omega
    rcases Nat.lt_or_ge (i + 1) H with hlt | hge
    · -- The block above that of `r` holds no count behind `r`.
      have htop' := hstep hlt
      rw [Nat.succ_mul] at htop'
      rw [Nat.mod_eq_of_lt hlt, Nat.succ_mul]
      constructor <;> omega
    · -- The block above that of `r` is the first one again.
      have hlast : i + 1 = H := by omega
      have hend : H * B = i * B + B := by rw [← hlast, Nat.succ_mul]
      rw [hlast, Nat.mod_self, Nat.zero_mul, Nat.zero_add]
      rcases Nat.eq_zero_or_pos (j) with hzero | hpos
      · rw [hzero] at hcparts
        constructor <;> omega
      · have hmul := hstep hpos
        constructor <;> omega
  · rw [if_neg hup]
    by_cases hdown : r % B < c % B ∧ B / 2 < c % B - r % B
    · rw [if_pos hdown]
      have hlt : j < i := by
        rcases Nat.lt_or_eq_of_le hle with hlt | heq
        · exact hlt
        · rw [heq] at hcparts
          omega
      have hmul := hstep hlt
      have hprev : (i + H - 1) % H = i - 1 := by
        rw [show i + H - 1 = i - 1 + H by omega, Nat.add_mod_right,
          Nat.mod_eq_of_lt (by omega)]
      rw [hprev]
      rcases Nat.lt_or_eq_of_le (Nat.le_sub_one_of_lt hlt) with hbelow | hnext
      · have hmul' := hstep hbelow
        have hmul'' := hstep (show i - 1 < i by omega)
        constructor <;> omega
      · have hpred : i * B = j * B + B := by
          rw [hnext, ← Nat.succ_mul]
          congr 1
          omega
        rw [← hnext]
        constructor <;> omega
    · rw [if_neg hdown]
      rcases Nat.lt_or_eq_of_le hle with hlt | heq
      · have hmul := hstep hlt
        constructor <;> omega
      · rw [heq] at hcparts ⊢
        constructor <;> omega
end Numbered.Truncated
