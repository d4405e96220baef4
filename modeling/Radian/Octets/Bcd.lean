import Mathlib.Data.List.Basic

/-!
# Packed decimal digits

Decimal digits two to an octet, the low nibble first, with a filler in the last octet of an odd number
of digits.

- `pack`, `unpack` — digits into octets, and the nibbles of octets.
- `unpack_pack` — the digits come back, with the filler behind an odd number of them.
- `wellFormed_iff` — which octets are packed digits.
-/

namespace Bcd

/-- The nibble behind an odd number of digits. -/
def FILLER : UInt8 := 0x0F

/-- Two digits to an octet. -/
def pack : List UInt8 → List UInt8
  | lo :: hi :: rest => (lo ||| hi <<< 4) :: pack rest
  | [lo] => [lo ||| FILLER <<< 4]
  | [] => []

/-- The nibbles, the low one of each octet first. -/
def unpack (bs : List UInt8) : List UInt8 := bs.flatMap fun (b : UInt8) => [b &&& 0x0F, b >>> 4]

/-- Decimal nibbles, but for a filler at the end. -/
def wellFormed : List UInt8 → Bool
  | [] => true
  | [b] => (b &&& 0x0F) ≤ 9 && ((b >>> 4) ≤ 9 || b >>> 4 == FILLER)
  | b :: bs => (b &&& 0x0F) ≤ 9 && (b >>> 4) ≤ 9 && wellFormed bs

/-- Decimal digits. -/
def Digits (ds : List UInt8) : Prop := ∀ d ∈ ds, d ≤ 9

/-! ### Octets and nibbles -/

theorem nibbles_of_lt {lo hi : UInt8} (hlo : lo < 16) (hhi : hi < 16) :
    (lo ||| hi <<< 4) &&& 0x0F = lo ∧ (lo ||| hi <<< 4) >>> 4 = hi := by
  have key : ∀ a < 16, ∀ b < 16, (UInt8.ofNat a ||| UInt8.ofNat b <<< 4) &&& 0x0F = UInt8.ofNat a ∧
      (UInt8.ofNat a ||| UInt8.ofNat b <<< 4) >>> 4 = UInt8.ofNat b := by
    decide +kernel
  simpa using key lo.toNat hlo hi.toNat hhi

theorem octet_eq (b : UInt8) : (b &&& (0x0F : UInt8)) ||| (b >>> 4) <<< 4 = b := by
  have key : ∀ n < 256,
      (UInt8.ofNat n &&& (0x0F : UInt8)) ||| (UInt8.ofNat n >>> 4) <<< 4 = UInt8.ofNat n := by
    decide +kernel
  simpa using key b.toNat b.toNat_lt

theorem lt_of_le_nine {d : UInt8} (h : d ≤ 9) : d < 16 := by
  rw [UInt8.le_iff_toNat_le] at h
  rw [UInt8.lt_iff_toNat_lt]
  change d.toNat ≤ 9 at h
  change d.toNat < 16
  omega

/-! ### Packing -/

/-- The nibbles of packed digits. -/
theorem unpack_pack {ds : List UInt8} (h : Digits ds) :
    unpack (pack ds) = ds ++ if ds.length % 2 = 0 then [] else [FILLER] := by
  induction ds using pack.induct with
  | case1 lo hi rest ih =>
    have hlo := lt_of_le_nine (h lo (by simp))
    have hhi := lt_of_le_nine (h hi (by simp))
    obtain ⟨hlow, hhigh⟩ := nibbles_of_lt hlo hhi
    have hrest := ih fun d hd => h d (List.mem_cons_of_mem _ (List.mem_cons_of_mem _ hd))
    rw [unpack] at hrest
    rw [pack, unpack, List.flatMap_cons, hlow, hhigh, hrest]
    have hparity : (rest.length + 1 + 1) % 2 = rest.length % 2 := by omega
    simp only [List.length_cons, List.cons_append, List.nil_append, hparity]
  | case2 lo =>
    obtain ⟨hlow, hhigh⟩ := nibbles_of_lt (lt_of_le_nine (h lo (by simp))) (show FILLER < 16 by decide)
    simp [pack, unpack, hlow, hhigh]
  | case3 => rfl

/-- A filter that keeps digits and drops the filler gives the digits back. -/
theorem filter_unpack_pack {ds : List UInt8} (h : Digits ds) {p : UInt8 → Bool}
    (hkeep : ∀ d ≤ 9, p d = true) (hdrop : p FILLER = false) : (unpack (pack ds)).filter p = ds := by
  rw [unpack_pack h, List.filter_append, List.filter_eq_self.mpr fun d hd => hkeep d (h d hd)]
  split
  · simp
  · simp [hdrop]

/-! ### Well-formed octets -/

theorem wellFormed_pack {ds : List UInt8} (h : Digits ds) : wellFormed (pack ds) = true := by
  induction ds using pack.induct with
  | case1 lo hi rest ih =>
    have hlo := h lo (by simp)
    have hhi := h hi (by simp)
    obtain ⟨hlow, hhigh⟩ := nibbles_of_lt (lt_of_le_nine hlo) (lt_of_le_nine hhi)
    have hrest := ih fun d hd => h d (List.mem_cons_of_mem _ (List.mem_cons_of_mem _ hd))
    cases htail : pack rest with
    | nil => simp [pack, htail, wellFormed, hlow, hhigh, hlo, hhi]
    | cons b bs =>
      rw [htail] at hrest
      simp [pack, htail, wellFormed, hlow, hhigh, hlo, hhi, hrest]
  | case2 lo =>
    have hlo := h lo (by simp)
    obtain ⟨hlow, hhigh⟩ := nibbles_of_lt (lt_of_le_nine hlo) (show FILLER < 16 by decide)
    simp [pack, wellFormed, hlow, hhigh, hlo]
  | case3 => rfl

/-- The octets that are packed digits. -/
theorem wellFormed_iff (bs : List UInt8) : wellFormed bs = true ↔ ∃ ds, Digits ds ∧ bs = pack ds := by
  constructor
  · intro h
    induction bs with
    | nil => exact ⟨[], by simp [Digits], rfl⟩
    | cons b bs ih =>
      cases bs with
      | nil =>
        simp only [wellFormed, Bool.and_eq_true, Bool.or_eq_true, decide_eq_true_eq, beq_iff_eq] at h
        rcases h.2 with hhigh | hfiller
        · exact ⟨[b &&& 0x0F, b >>> 4], by simp [Digits, h.1, hhigh], by rw [pack, octet_eq, pack]⟩
        · exact ⟨[b &&& 0x0F], by simp [Digits, h.1], by rw [pack, ← hfiller, octet_eq]⟩
      | cons b' bs =>
        simp only [wellFormed, Bool.and_eq_true, decide_eq_true_eq] at h
        obtain ⟨ds, hds, heq⟩ := ih h.2
        refine ⟨(b &&& 0x0F) :: (b >>> 4) :: ds, ?_, by rw [pack, octet_eq, ← heq]⟩
        intro d hd
        rcases List.mem_cons.mp hd with rfl | hd
        · exact h.1.1
        · rcases List.mem_cons.mp hd with rfl | hd
          · exact h.1.2
          · exact hds d hd
  · rintro ⟨ds, hds, rfl⟩
    exact wellFormed_pack hds

end Bcd
