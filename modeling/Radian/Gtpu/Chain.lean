import Radian.Gtpu.Parse

/-!
# Chains of extension headers

What the parsers accept, as the octets of a well-formed datagram.

- `ExtHeader`, `chainOctets` — an extension header and a chain of them on the wire.
- `walkExtensions_complete`, `walkExtensions_sound`, `walkExtensions_total` — the walk over a chain.
- `Datagram` — a header, its optional octets, a chain and a payload.
-/

namespace Radian.Gtpu

open Octets (Fault index slice)
open Security (Bytes)

/-! ### Extension headers -/

/-- A well-formed extension header: a type, and content that fills its units but for two octets. -/
structure ExtHeader where
  type : UInt8
  units : UInt8
  content : Bytes
  type_ne_zero : type ≠ 0
  units_ne_zero : units ≠ 0
  length_content : content.length + 2 = 4 * units.toNat

/-- The type announced before a chain; zero where it ends. -/
def firstType : List ExtHeader → UInt8
  | [] => 0
  | h :: _ => h.type

/-- A chain on the wire: each header ends with the type of the next. -/
def chainOctets : List ExtHeader → Bytes
  | [] => []
  | h :: hs => h.units :: (h.content ++ firstType hs :: chainOctets hs)

/-- A header takes at least four octets. -/
theorem four_mul_length_le (hs : List ExtHeader) : 4 * hs.length ≤ (chainOctets hs).length := by
  induction hs with
  | nil => exact Nat.zero_le _
  | cons h hs ih =>
    have hcontent := h.length_content
    have hunits : h.units.toNat ≠ 0 := fun hzero =>
      h.units_ne_zero (UInt8.toNat_inj.mp hzero)
    simp only [chainOctets, List.length_cons, List.length_append]
    omega

section Found

variable {A : Type} (ext : UInt8) (content : Bytes → Option A)

/-- What the last header of a type contains. -/
def lastOf (hs : List ExtHeader) : Option A :=
  ((hs.filter fun h => h.type == ext).getLast?).bind fun h => content h.content

/-- What has been found after one more header. -/
def meet (found : Option A) (h : ExtHeader) : Option A :=
  if h.type = ext then content h.content else found

/-- Each header of the type replaces what was found before. -/
theorem foldl_meet (found : Option A) (hs : List ExtHeader) :
    hs.foldl (meet ext content) found =
      if (hs.filter fun h => h.type == ext) = [] then found else lastOf ext content hs := by
  induction hs generalizing found with
  | nil => rfl
  | cons h hs ih =>
    rw [List.foldl_cons, ih]
    by_cases htype : h.type = ext
    · by_cases hnone : (hs.filter fun h => h.type == ext) = []
      · simp [meet, lastOf, htype, hnone]
      · simp [lastOf, htype, hnone, List.getLast?_cons_of_ne_nil]
    · simp [meet, lastOf, htype]

theorem foldl_meet_none (hs : List ExtHeader) :
    hs.foldl (meet ext content) none = lastOf ext content hs := by
  rw [foldl_meet]
  split
  · rename_i hnone
    simp [lastOf, hnone]
  · rfl

end Found

/-! ### The walk -/

/-- Where the chain goes on there is a header, or the datagram is rejected. -/
theorem walkExtensions_rejects_or {A : Type} (data : Bytes) (ext : UInt8)
    (decode : Bytes → Except Fault (Option A)) (fuel offset : Nat) {next : UInt8} (found : Option A)
    (hnext : next ≠ 0) :
    walkExtensions data ext decode (fuel + 1) next offset found = .ok none ∨
      ∃ pre units inner after post, data = pre ++ (units :: (inner ++ after :: post)) ∧
        offset = pre.length ∧ units ≠ 0 ∧ inner.length + 2 = 4 * units.toNat := by
  rw [walkExtensions, if_neg hnext]
  rcases hread : data[offset]? with _ | units
  · exact .inl rfl
  · by_cases hfits : 4 * units.toNat < 4 ∨ data.length < offset + 4 * units.toNat
    · exact .inl (if_pos hfits)
    · right
      obtain ⟨hlt, hunits⟩ := List.getElem?_eq_some_iff.mp hread
      have hcons : data.drop offset = units :: data.drop (offset + 1) := by
        rw [List.drop_eq_getElem_cons hlt, hunits]
      have hlong : 4 * units.toNat - 2 < (data.drop (offset + 1)).length := by
        rw [List.length_drop]
        omega
      refine ⟨data.take offset, units, (data.drop (offset + 1)).take (4 * units.toNat - 2),
        (data.drop (offset + 1))[4 * units.toNat - 2],
        (data.drop (offset + 1)).drop (4 * units.toNat - 2 + 1), ?_, ?_, ?_, ?_⟩
      · rw [← List.drop_eq_getElem_cons hlong, List.take_append_drop, ← hcons,
          List.take_append_drop]
      · rw [List.length_take, Nat.min_eq_left hlt.le]
      · rintro rfl
        simp at hfits
      · rw [List.length_take]
        omega

section Walk

variable {A : Type} (ext : UInt8) {decode : Bytes → Except Fault (Option A)}
  {content : Bytes → Option A} (hdecode : ∀ bs, decode bs = .ok (content bs))

include hdecode

/-- One header of the chain. -/
theorem walkExtensions_step {data : Bytes} {fuel offset : Nat} {next units after : UInt8}
    {inner : Bytes} {found : Option A} (hnext : next ≠ 0) (hunits : units ≠ 0)
    (hlength : inner.length + 2 = 4 * units.toNat) {pre post : Bytes}
    (hdata : data = pre ++ (units :: (inner ++ after :: post))) (hoffset : offset = pre.length) :
    walkExtensions data ext decode (fuel + 1) next offset found =
      walkExtensions data ext decode fuel after (offset + 4 * units.toNat)
        (if next = ext then content inner else found) := by
  have hpos : units.toNat ≠ 0 := fun hzero => hunits (UInt8.toNat_inj.mp hzero)
  have hread : data[offset]? = some units := by
    rw [hdata, hoffset, List.getElem?_append_right (le_refl _), Nat.sub_self]
    rfl
  have hfits : ¬ (4 * units.toNat < 4 ∨ data.length < offset + 4 * units.toNat) := by
    have hlen := congrArg List.length hdata
    simp only [List.length_append, List.length_cons] at hlen
    omega
  have hsplit : data = (pre ++ [units]) ++ (inner ++ (after :: post)) := by
    rw [hdata, List.append_assoc]
    rfl
  have hslice : slice data (offset + 1) (offset + 4 * units.toNat - 1) = .ok inner := by
    have hlow : offset + 1 = (pre ++ [units]).length := by
      rw [hoffset, List.length_append, List.length_singleton]
    have hhigh : offset + 4 * units.toNat - 1 = (pre ++ [units]).length + inner.length := by
      rw [← hlow]
      omega
    rw [hlow, hhigh, hsplit]
    exact Octets.slice_append
  have hindex : index data (offset + 4 * units.toNat - 1) = .ok after := by
    apply Octets.index_of_getElem?
    have hplace : offset + 4 * units.toNat - 1 = (pre ++ [units] ++ inner).length := by
      simp only [List.length_append, List.length_singleton]
      omega
    rw [hplace, hsplit, ← List.append_assoc, List.getElem?_append_right (le_refl _), Nat.sub_self]
    rfl
  rw [walkExtensions, if_neg hnext, hread]
  simp only [if_neg hfits, hslice, hindex]
  by_cases htype : next = ext
  · simp only [if_pos htype]
    rw [show (Except.ok inner).bind decode = .ok (content inner) from hdecode inner]
    rfl
  · simp only [if_neg htype]
    rfl

/-- A chain is walked to its end. -/
theorem walkExtensions_complete {data post : Bytes} (hs : List ExtHeader) {pre : Bytes}
    {fuel : Nat} (found : Option A) (hdata : data = pre ++ (chainOctets hs ++ post))
    (hfuel : hs.length < fuel) :
    walkExtensions data ext decode fuel (firstType hs) pre.length found =
      .ok (some (hs.foldl (meet ext content) found, pre.length + (chainOctets hs).length)) := by
  induction hs generalizing pre fuel found with
  | nil =>
    obtain ⟨fuel, rfl⟩ := Nat.exists_eq_succ_of_ne_zero (Nat.ne_of_gt hfuel)
    simp [walkExtensions, firstType, chainOctets]
  | cons h hs ih =>
    obtain ⟨fuel, rfl⟩ := Nat.exists_eq_succ_of_ne_zero (Nat.ne_of_gt (Nat.zero_lt_of_lt hfuel))
    have hlength := h.length_content
    have hhere : data = pre ++ (h.units :: (h.content ++ firstType hs :: (chainOctets hs ++ post))) := by
      rw [hdata, chainOctets, List.cons_append, List.append_assoc]
      rfl
    have hthere : data =
        (pre ++ (h.units :: (h.content ++ [firstType hs]))) ++ (chainOctets hs ++ post) := by
      rw [hhere]
      simp
    have hplace : (pre ++ (h.units :: (h.content ++ [firstType hs]))).length =
        pre.length + 4 * h.units.toNat := by
      simp only [List.length_append, List.length_cons, List.length_nil]
      omega
    rw [firstType, walkExtensions_step ext hdecode h.type_ne_zero h.units_ne_zero hlength hhere rfl,
      ← hplace]
    refine (ih _ hthere (Nat.lt_of_succ_lt_succ hfuel)).trans ?_
    rw [List.foldl_cons, hplace]
    have hend : pre.length + 4 * h.units.toNat + (chainOctets hs).length =
        pre.length + (chainOctets (h :: hs)).length := by
      simp only [chainOctets, List.length_cons, List.length_append]
      omega
    rw [hend, meet]

/-- A walk that ends has walked over a chain. -/
theorem walkExtensions_sound {data : Bytes} {fuel : Nat} {next : UInt8} {offset after : Nat}
    {found last : Option A} (hoffset : offset ≤ data.length)
    (h : walkExtensions data ext decode fuel next offset found = .ok (some (last, after))) :
    ∃ hs, firstType hs = next ∧ data.drop offset = chainOctets hs ++ data.drop after ∧
      after ≤ data.length ∧ last = hs.foldl (meet ext content) found := by
  induction fuel generalizing next offset found with
  | zero => simp [walkExtensions] at h
  | succ fuel ih =>
    by_cases hnext : next = 0
    · rw [walkExtensions, if_pos hnext] at h
      cases h
      exact ⟨[], hnext.symm, rfl, hoffset, rfl⟩
    · rcases walkExtensions_rejects_or data ext decode fuel offset found hnext with
        hnone | ⟨pre, units, inner, then', post, hdata, hpre, hunits, hlength⟩
      · rw [hnone] at h
        cases h
      · rw [walkExtensions_step ext hdecode hnext hunits hlength hdata hpre] at h
        have hend : offset + 4 * units.toNat =
            (pre ++ (units :: (inner ++ [then']))).length := by
          simp only [List.length_append, List.length_cons, List.length_nil]
          omega
        have hsplit : data = (pre ++ (units :: (inner ++ [then']))) ++ post := by
          rw [hdata]
          simp
        have hwithin : offset + 4 * units.toNat ≤ data.length := by
          have hlen := congrArg List.length hdata
          simp only [List.length_append, List.length_cons] at hlen
          omega
        obtain ⟨hs, hfirst, hrest, hafter, hlast⟩ := ih hwithin h
        refine ⟨⟨next, units, inner, hnext, hunits, hlength⟩ :: hs, rfl, ?_, hafter, hlast⟩
        have hpost : data.drop (offset + 4 * units.toNat) = post := by
          rw [hend, hsplit, List.drop_left]
        have hhere : data.drop offset = units :: (inner ++ then' :: post) := by
          rw [hpre, hdata, List.drop_left]
        rw [hpost] at hrest
        rw [hhere, chainOctets, hfirst, hrest]
        simp

/-- With as much fuel as there are octets, the walk ends inside of them. -/
theorem walkExtensions_total {data : Bytes} {fuel : Nat} (next : UInt8) {offset : Nat}
    (found : Option A) (hoffset : offset ≤ data.length) (hfuel : data.length < offset + 4 * fuel) :
    ∃ r, walkExtensions data ext decode fuel next offset found = .ok r := by
  induction fuel generalizing next offset found with
  | zero => omega
  | succ fuel ih =>
    by_cases hnext : next = 0
    · exact ⟨_, by rw [walkExtensions, if_pos hnext]⟩
    · rcases walkExtensions_rejects_or data ext decode fuel offset found hnext with
        hnone | ⟨pre, units, inner, after, post, hdata, hpre, hunits, hlength⟩
      · exact ⟨none, hnone⟩
      · have hlen := congrArg List.length hdata
        simp only [List.length_append, List.length_cons] at hlen
        rw [walkExtensions_step ext hdecode hnext hunits hlength hdata hpre]
        exact ih _ _ (by omega) (by omega)

end Walk

end Radian.Gtpu
