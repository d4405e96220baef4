import Mathlib.Data.List.Induction
import Mathlib.Tactic.Ring

/-!
# Arrays of octets

Octet strings of a fixed length, and such strings as big-endian counters.

- `Octets` — the arrays, with `xor`.
- `Octets.value`, `Octets.increment` — the number a string denotes, and the next string.
- `Octets.value_increment` — the carry is right, with a wrap at the end.
- `Octets.ofNat` — the string of a number.
-/

/-- `n` octets. -/
abbrev Octets (n : Nat) : Type := { bs : List UInt8 // bs.length = n }

namespace Octets

variable {n : Nat}

/-- A slice as an array, when it has that length. -/
def ofBytes? (n : Nat) (bs : List UInt8) : Option (Octets n) :=
  if h : bs.length = n then some ⟨bs, h⟩ else none

@[simp] theorem ofBytes?_val (o : Octets n) : ofBytes? n o.val = some o := dif_pos o.property

def zero (n : Nat) : Octets n := ⟨List.replicate n 0, List.length_replicate⟩

def xor (a b : Octets n) : Octets n :=
  ⟨List.zipWith (· ^^^ ·) a.val b.val, by rw [List.length_zipWith, a.property, b.property, Nat.min_self]⟩

theorem xor_xor (a b : Octets n) : (a.xor b).xor b = a := by
  apply Subtype.ext
  apply List.ext_getElem
  · exact ((a.xor b).xor b).property.trans a.property.symm
  · intro i h h'
    simp only [xor, List.getElem_zipWith, UInt8.xor_assoc, UInt8.xor_self, UInt8.xor_zero]

/-! ### Counters -/

/-- The big-endian number. -/
def value (bs : List UInt8) : Nat := bs.foldl (fun acc b => acc * 256 + b.toNat) 0

/-- One more, the least significant octet first. -/
def carry : List UInt8 → List UInt8
  | [] => []
  | b :: bs => if b + 1 = 0 then (b + 1) :: carry bs else (b + 1) :: bs

/-- The octets from the last on, as long as they carry. -/
def increment (bs : List UInt8) : List UInt8 := (carry bs.reverse).reverse

@[simp] theorem length_carry (bs : List UInt8) : (carry bs).length = bs.length := by
  induction bs with
  | nil => rfl
  | cons b bs ih =>
    unfold carry
    split
    · rw [List.length_cons, ih, List.length_cons]
    · rfl

@[simp] theorem length_increment (bs : List UInt8) : (increment bs).length = bs.length := by
  rw [increment, List.length_reverse, length_carry, List.length_reverse]

theorem value_append (bs : List UInt8) (b : UInt8) : value (bs ++ [b]) = value bs * 256 + b.toNat := by
  rw [value, List.foldl_append]
  rfl

theorem value_lt (bs : List UInt8) : value bs < 256 ^ bs.length := by
  induction bs using List.reverseRecOn with
  | nil => exact Nat.one_pos
  | append_singleton bs b ih =>
    have hb := b.toNat_lt
    rw [value_append, List.length_append, List.length_singleton, Nat.pow_succ]
    omega

/-- **The carry.** The next string denotes the next number, and after the last comes zero. -/
theorem value_increment (bs : List UInt8) :
    value (increment bs) = (value bs + 1) % 256 ^ bs.length := by
  induction bs using List.reverseRecOn with
  | nil => rfl
  | append_singleton bs b ih =>
    have hb := b.toNat_lt
    have hvalue := value_lt bs
    rw [value_append, List.length_append, List.length_singleton, Nat.pow_succ]
    rw [increment, List.reverse_append, List.reverse_singleton, List.singleton_append, carry]
    split
    · rename_i hcarry
      have hlast : b.toNat = 255 := by
        have hzero := congrArg UInt8.toNat hcarry
        rw [UInt8.toNat_add] at hzero
        change (b.toNat + 1) % 2 ^ 8 = 0 at hzero
        omega
      rw [hcarry, List.reverse_cons, value_append, ← increment, ih, hlast]
      change _ * 256 + 0 = _
      rw [Nat.add_zero, show value bs * 256 + 255 + 1 = (value bs + 1) * 256 by ring,
        Nat.mul_mod_mul_right]
    · rename_i hcarry
      have hnext : (b + 1).toNat = b.toNat + 1 := by
        rw [UInt8.toNat_add]
        change (b.toNat + 1) % 2 ^ 8 = b.toNat + 1
        have hne : b.toNat ≠ 255 := fun heq => hcarry (UInt8.toNat_inj.mp (by
          rw [UInt8.toNat_add]
          change (b.toNat + 1) % 2 ^ 8 = 0
          omega))
        omega
      have hfits : b.toNat + 1 < 256 := by
        rw [← hnext]
        exact (b + 1).toNat_lt
      rw [List.reverse_cons, List.reverse_reverse, value_append, hnext, Nat.mod_eq_of_lt (by omega),
        Nat.add_assoc]

/-! ### The string of a number -/

/-- The last `n` octets of a number, the most significant first. -/
def ofNat : Nat → Nat → List UInt8
  | 0, _ => []
  | n + 1, v => ofNat n (v / 256) ++ [UInt8.ofNat v]

@[simp] theorem length_ofNat (n v : Nat) : (ofNat n v).length = n := by
  induction n generalizing v with
  | zero => rfl
  | succ n ih => rw [ofNat, List.length_append, ih, List.length_singleton]

theorem value_ofNat (n v : Nat) : value (ofNat n v) = v % 256 ^ n := by
  induction n generalizing v with
  | zero => rw [Nat.pow_zero, Nat.mod_one]; rfl
  | succ n ih =>
    rw [ofNat, value_append, ih, Nat.pow_succ']
    change v / 256 % 256 ^ n * 256 + v % 256 = _
    rw [Nat.mod_mul]
    omega

/-- A number that fits is read back. -/
theorem value_ofNat_of_lt {n v : Nat} (h : v < 256 ^ n) : value (ofNat n v) = v := by
  rw [value_ofNat, Nat.mod_eq_of_lt h]

end Octets
