import Radian.Nas.Session
import Radian.Octets.Bcd
import Radian.Octets.Reading

/-!
# NSSAI values

The values of the NSSAI elements and of the rejected NSSAI: slices one behind the other, each behind an
octet that tells its length and, where it is rejected, why.

- `nssaiValue`, `rejectedNssaiValue` — the two values of a list of slices.
- `walkEntries` — the walk of both parsers over a value, octet by octet.
- `walkNssaiValue`, `parseRejectedNssaiValue` — the two parsers.
- `slicesOf` — the slices among the records of a value.
- `walkEntries_eq` — the walk reads these and does not fault.
- `nssai_codecs` — the parsers read what is written, whatever else stands before it.
-/

namespace Radian.Nas

open Octets (Fault index slice)
open Octets.Records (Record Fits WellFormed join split)
open Security (Bytes)

/-! ### Values -/

/-- A slice behind an octet that tells its length. -/
def sliceEntry (head : UInt8 → UInt8) : Snssai → Bytes
  | (sst, some sd) => [head 4, sst] ++ beBytes 3 sd.toNat
  | (sst, none) => [head 1, sst]

def nssaiValue (slices : List Snssai) : Bytes := slices.flatMap (sliceEntry id)

/-- The length in the high nibble, the cause in the low one. -/
def rejectedHead (cause len : UInt8) : UInt8 := len <<< 4 ||| cause &&& 0x0F

def rejectedNssaiValue (slices : List Snssai) (cause : UInt8) : Bytes :=
  slices.flatMap (sliceEntry (rejectedHead cause))

/-! ### Parsers -/

/-- The slice in an entry of some length.  The mapped forms have other lengths. -/
def readSlice (len : Nat) (rest : Bytes) : Except Fault (Option Snssai) :=
  if len = 1 then do
    return some (← index rest 0, none)
  else if len = 4 then do
    return some (← index rest 0, some (octets3 (← index rest 1) (← index rest 2) (← index rest 3)))
  else return none

section Walk

variable {A : Type} (lenOf : UInt8 → Nat) (entry : UInt8 → Snssai → A)

/-- Both parsers walk over a value so. -/
def walkEntries : Nat → Bytes → List A → Except Fault (List A)
  | 0, _, _ => .error .outOfFuel
  | _ + 1, [], out => .ok out
  | fuel + 1, head :: rest, out =>
      let len := lenOf head
      if len = 0 ∨ rest.length < len then .ok out
      else do
        let found ← readSlice len rest
        let rest ← slice rest len rest.length
        walkEntries fuel rest (out ++ (found.map (entry head)).toList)

end Walk

/-- `parseNssaiValue` with its reads. -/
def walkNssaiValue (v : Bytes) : Except Fault (List Snssai) :=
  walkEntries UInt8.toNat (fun _ s => s) (v.length + 1) v []

def rejectedLen (head : UInt8) : Nat := (head >>> 4).toNat

def parseRejectedNssaiValue (v : Bytes) : Except Fault (List (Snssai × UInt8)) :=
  walkEntries rejectedLen (fun head s => (s, head &&& 0x0F)) (v.length + 1) v []

/-! ### The slices of a value -/

/-- The slice in a whole entry. -/
def bodySlice : Bytes → Option Snssai
  | [sst] => some (sst, none)
  | [sst, a, b, c] => some (sst, some (octets3 a b c))
  | _ => none

section Slices

variable {A : Type} (lenOf : UInt8 → Nat) (entry : UInt8 → Snssai → A)

def recordSlice (r : Record) : Option A := (bodySlice r.2).map (entry r.1)

def slicesOf (v : Bytes) : List A := (split lenOf v).filterMap (recordSlice entry)

end Slices

section Reading

variable {A : Type} {lenOf : UInt8 → Nat} {entry : UInt8 → Snssai → A}

theorem slicesOf_nil : slicesOf lenOf entry [] = [] := by
  rw [slicesOf, Octets.Records.split_nil, List.filterMap_nil]

theorem slicesOf_stop {head : UInt8} {rest : Bytes} (h : lenOf head = 0 ∨ rest.length < lenOf head) :
    slicesOf lenOf entry (head :: rest) = [] := by
  rw [slicesOf, Octets.Records.split_stop h, List.filterMap_nil]

theorem slicesOf_step {head : UInt8} {rest : Bytes}
    (h : ¬ (lenOf head = 0 ∨ rest.length < lenOf head)) :
    slicesOf lenOf entry (head :: rest) =
      ((bodySlice (rest.take (lenOf head))).map (entry head)).toList ++
        slicesOf lenOf entry (rest.drop (lenOf head)) := by
  rw [slicesOf, Octets.Records.split_step h, List.filterMap_cons, slicesOf]
  cases hbody : bodySlice (rest.take (lenOf head)) with
  | none => simp [recordSlice, hbody]
  | some s => simp [recordSlice, hbody]

/-- What stands behind whole entries is read as if it stood alone. -/
theorem slicesOf_append {pre : Bytes} (h : WellFormed lenOf pre) (post : Bytes) :
    slicesOf lenOf entry (pre ++ post) = slicesOf lenOf entry pre ++ slicesOf lenOf entry post := by
  rw [slicesOf, Octets.Records.split_append h, List.filterMap_append, slicesOf, slicesOf]

/-- A slice is in one octet or in four. -/
theorem bodySlice_none {body : Bytes} (hshort : body.length ≠ 1) (hlong : body.length ≠ 4) :
    bodySlice body = none := by
  unfold bodySlice
  split
  · exact absurd rfl hshort
  · exact absurd rfl hlong
  · rfl

theorem exists_of_four_le {rest : Bytes} (h : 4 ≤ rest.length) :
    ∃ sst a b c tail, rest = sst :: a :: b :: c :: tail := by
  obtain ⟨body, tail, hbody, rfl⟩ : ∃ body tail, body.length = 4 ∧ rest = body ++ tail :=
    ⟨rest.take 4, rest.drop 4, List.length_take_of_le h, (List.take_append_drop 4 rest).symm⟩
  obtain ⟨sst, a, b, c, rfl⟩ := List.length_eq_four.mp hbody
  exact ⟨sst, a, b, c, tail, rfl⟩

/-- There are as many octets as are read. -/
theorem readSlice_eq {len : Nat} {rest : Bytes} (h : len ≤ rest.length) :
    readSlice len rest = .ok (bodySlice (rest.take len)) := by
  have htake : (rest.take len).length = len := by
    rw [List.length_take]
    omega
  by_cases hshort : len = 1
  · subst hshort
    obtain ⟨sst, rest, rfl⟩ := List.exists_cons_of_length_pos h
    rfl
  · by_cases hlong : len = 4
    · subst hlong
      obtain ⟨sst, a, b, c, tail, rfl⟩ := exists_of_four_le h
      rfl
    · rw [readSlice, if_neg hshort, if_neg hlong, bodySlice_none (by omega) (by omega)]
      rfl

/-- With an iteration to each octet the walk ends, and no read is out of bounds. -/
theorem walkEntries_eq {fuel : Nat} {v : Bytes} (h : v.length < fuel) (out : List A) :
    walkEntries lenOf entry fuel v out = .ok (out ++ slicesOf lenOf entry v) := by
  induction fuel generalizing v out with
  | zero => omega
  | succ fuel ih =>
    cases v with
    | nil => rw [walkEntries, slicesOf_nil, List.append_nil]
    | cons head rest =>
      by_cases hstop : lenOf head = 0 ∨ rest.length < lenOf head
      · rw [walkEntries, if_pos hstop, slicesOf_stop hstop, List.append_nil]
      · have hlen : lenOf head ≤ rest.length := by omega
        have hfuel : (rest.drop (lenOf head)).length < fuel := by
          rw [List.length_drop]
          rw [List.length_cons] at h
          omega
        simp only [walkEntries, if_neg hstop, readSlice_eq hlen, Octets.slice_to_end hlen]
        change walkEntries lenOf entry fuel (rest.drop (lenOf head)) _ = _
        rw [ih hfuel, slicesOf_step hstop, List.append_assoc]

end Reading

theorem walkNssaiValue_eq (v : Bytes) :
    walkNssaiValue v = .ok (slicesOf UInt8.toNat (fun _ s => s) v) :=
  walkEntries_eq (Nat.lt_succ_self _) []

theorem parseRejectedNssaiValue_eq (v : Bytes) :
    parseRejectedNssaiValue v = .ok (slicesOf rejectedLen (fun head s => (s, head &&& 0x0F)) v) :=
  walkEntries_eq (Nat.lt_succ_self _) []

/-- What the registration makes of a value is what the walk over its octets makes of it. -/
theorem parseNssaiValue_eq (v : Bytes) : parseNssaiValue v = slicesOf UInt8.toNat (fun _ s => s) v := by
  fun_induction parseNssaiValue v with
  | case1 => rw [slicesOf_nil]
  | case2 head rest hstop =>
    rw [slicesOf_stop]
    rcases hstop with rfl | hshort
    · exact .inl rfl
    · exact .inr hshort
  | case3 head rest hgo entry ih =>
    have hzero : head.toNat = 0 ↔ head = 0 := UInt8.toNat_inj (b := 0)
    have hwhole : ¬ (head.toNat = 0 ∨ rest.length < head.toNat) := by rwa [hzero]
    have hentry : entry = (bodySlice (rest.take head.toNat)).toList := by
      subst entry
      split
      · rename_i hlen
        rw [hlen]
        rfl
      · rename_i hlen
        rw [hlen]
        rfl
      · rename_i rest _ _ hshort hlong
        rw [bodySlice_none]
        · rfl
        · rw [List.length_take, Nat.min_eq_left (by omega)]
          intro hlen
          obtain ⟨sst, tail, rfl⟩ := List.exists_cons_of_length_pos (by omega : 0 < rest.length)
          exact hshort sst tail hlen rfl
        · rw [List.length_take, Nat.min_eq_left (by omega)]
          intro hlen
          obtain ⟨sst, a, b, c, tail, rfl⟩ := exists_of_four_le (by omega : 4 ≤ rest.length)
          exact hlong sst a b c tail hlen rfl
    rw [ih, hentry, slicesOf_step hwhole, Option.map_id']

/-! ### Round trips -/

/-- What an entry holds behind its first octet. -/
def sliceBody : Snssai → Bytes
  | (sst, some sd) => sst :: beBytes 3 sd.toNat
  | (sst, none) => [sst]

theorem octets3_beBytes (sd : BitVec 24) :
    octets3 (UInt8.ofNat (sd.toNat / 256 ^ 2 % 256)) (UInt8.ofNat (sd.toNat / 256 ^ 1 % 256))
      (UInt8.ofNat (sd.toNat / 256 ^ 0 % 256)) = sd := by
  apply BitVec.eq_of_toNat_eq
  have hlt := sd.isLt
  simp only [octets3, BitVec.toNat_ofNat, UInt8.toNat_ofNat']
  omega

theorem bodySlice_sliceBody (s : Snssai) : bodySlice (sliceBody s) = some s := by
  obtain ⟨sst, sd⟩ := s
  cases sd with
  | none => rfl
  | some sd => exact congrArg (fun sd => some (sst, some sd)) (octets3_beBytes sd)

/-- The record of a slice. -/
def sliceRecord (head : UInt8 → UInt8) (s : Snssai) : Record :=
  (head (UInt8.ofNat (sliceBody s).length), sliceBody s)

theorem flatMap_sliceEntry (head : UInt8 → UInt8) (slices : List Snssai) :
    slices.flatMap (sliceEntry head) = join (slices.map (sliceRecord head)) := by
  induction slices with
  | nil => rfl
  | cons s slices ih =>
    obtain ⟨sst, sd⟩ := s
    cases sd with
    | none => exact congrArg (_ :: _ :: ·) ih
    | some sd => exact congrArg (_ :: _ :: _ :: _ :: _ :: ·) ih

/-- The first octet of an entry tells its length and what is to be read of it. -/
structure Heads {A : Type} (lenOf : UInt8 → Nat) (entry : UInt8 → Snssai → A) (head : UInt8 → UInt8)
    (value : Snssai → A) : Prop where
  len : ∀ n < 16, lenOf (head n) = n.toNat
  value : ∀ n < 16, ∀ s, entry (head n) s = value s

section Heads

variable {A : Type} {lenOf : UInt8 → Nat} {entry : UInt8 → Snssai → A} {head : UInt8 → UInt8}
  {value : Snssai → A}

/-- What an entry holds is short. -/
theorem length_sliceBody (s : Snssai) : 0 < (sliceBody s).length ∧ (sliceBody s).length < 16 := by
  obtain ⟨sst, sd⟩ := s
  cases sd with
  | none => exact ⟨Nat.zero_lt_one, (by decide : 1 < 16)⟩
  | some sd => exact ⟨Nat.succ_pos 3, (by decide : 4 < 16)⟩

theorem toNat_length_sliceBody (s : Snssai) :
    (UInt8.ofNat (sliceBody s).length).toNat = (sliceBody s).length :=
  UInt8.toNat_ofNat_of_lt' (Nat.lt_trans (length_sliceBody s).2 (by decide))

theorem length_sliceBody_lt (s : Snssai) : UInt8.ofNat (sliceBody s).length < 16 := by
  rw [UInt8.lt_iff_toNat_lt, toNat_length_sliceBody]
  exact (length_sliceBody s).2

theorem Heads.fits (h : Heads lenOf entry head value) (s : Snssai) : Fits lenOf (sliceRecord head s) := by
  refine ⟨?_, List.length_pos_iff.mp (length_sliceBody s).1⟩
  calc lenOf (head (UInt8.ofNat (sliceBody s).length))
    _ = (UInt8.ofNat (sliceBody s).length).toNat := h.len _ (length_sliceBody_lt s)
    _ = (sliceBody s).length := toNat_length_sliceBody s

/-- Each slice is read again. -/
theorem Heads.recordSlice_eq (h : Heads lenOf entry head value) (s : Snssai) :
    recordSlice entry (sliceRecord head s) = some (value s) := by
  rw [recordSlice, sliceRecord, bodySlice_sliceBody, Option.map_some, h.value _ (length_sliceBody_lt s)]

theorem Heads.fits_of_mem (h : Heads lenOf entry head value) {slices : List Snssai} {r : Record}
    (hr : r ∈ slices.map (sliceRecord head)) : Fits lenOf r := by
  obtain ⟨s, -, rfl⟩ := List.mem_map.mp hr
  exact h.fits s

/-- What is written is well-formed. -/
theorem Heads.wellFormed (h : Heads lenOf entry head value) (slices : List Snssai) :
    WellFormed lenOf (slices.flatMap (sliceEntry head)) := by
  rw [flatMap_sliceEntry]
  exact Octets.Records.wellFormed_join fun r hr => h.fits_of_mem hr

/-- What is written is what is read. -/
theorem Heads.slicesOf_eq (h : Heads lenOf entry head value) (slices : List Snssai) :
    slicesOf lenOf entry (slices.flatMap (sliceEntry head)) = slices.map value := by
  rw [slicesOf, flatMap_sliceEntry, Octets.Records.split_join fun r hr => h.fits_of_mem hr,
    List.filterMap_map, ← List.filterMap_eq_map]
  exact congrArg (List.filterMap · slices) (funext h.recordSlice_eq)

end Heads

theorem heads_nssai : Heads UInt8.toNat (fun _ s => s) id id where
  len _ _ := rfl
  value _ _ _ := rfl

/-- The low nibble is all of a small octet. -/
theorem and_of_lt {cause : UInt8} (h : cause < 16) : cause &&& 0x0F = cause := by
  have key : ∀ n < 16, UInt8.ofNat n &&& 0x0F = UInt8.ofNat n := by decide
  simpa using key cause.toNat h

theorem heads_rejected {cause : UInt8} (h : cause < 16) :
    Heads rejectedLen (fun head s => (s, head &&& 0x0F)) (rejectedHead cause) fun s => (s, cause) where
  len n hn := by
    rw [rejectedLen, rejectedHead, and_of_lt h, UInt8.or_comm, (Bcd.nibbles_of_lt h hn).2]
  value n hn s := by
    rw [rejectedHead, and_of_lt h, UInt8.or_comm, (Bcd.nibbles_of_lt h hn).1]

theorem slicesOf_nssaiValue (slices : List Snssai) :
    slicesOf UInt8.toNat (fun _ s => s) (nssaiValue slices) = slices :=
  (heads_nssai.slicesOf_eq slices).trans (List.map_id slices)

theorem parseNssaiValue_nssaiValue (slices : List Snssai) : parseNssaiValue (nssaiValue slices) = slices := by
  rw [parseNssaiValue_eq, slicesOf_nssaiValue]

theorem parseNssaiValue_append {v : Bytes} (hv : WellFormed UInt8.toNat v) (slices : List Snssai) :
    parseNssaiValue (v ++ nssaiValue slices) = parseNssaiValue v ++ slices := by
  rw [parseNssaiValue_eq, parseNssaiValue_eq, slicesOf_append hv, slicesOf_nssaiValue]

theorem slicesOf_rejectedNssaiValue {cause : UInt8} (h : cause < 16) (slices : List Snssai) :
    slicesOf rejectedLen (fun head s => (s, head &&& 0x0F)) (rejectedNssaiValue slices cause) =
      slices.map fun s => (s, cause) :=
  (heads_rejected h).slicesOf_eq slices

theorem parseRejectedNssaiValue_rejectedNssaiValue {cause : UInt8} (h : cause < 16)
    (slices : List Snssai) :
    parseRejectedNssaiValue (rejectedNssaiValue slices cause) = .ok (slices.map fun s => (s, cause)) := by
  rw [parseRejectedNssaiValue_eq, slicesOf_rejectedNssaiValue h]

theorem parseRejectedNssaiValue_append {v : Bytes} {rejected : List (Snssai × UInt8)} {cause : UInt8}
    (h : cause < 16) (hv : WellFormed rejectedLen v) (hrejected : parseRejectedNssaiValue v = .ok rejected)
    (slices : List Snssai) :
    parseRejectedNssaiValue (v ++ rejectedNssaiValue slices cause) =
      .ok (rejected ++ slices.map fun s => (s, cause)) := by
  rw [parseRejectedNssaiValue_eq] at hrejected ⊢
  cases hrejected
  rw [slicesOf_append hv, slicesOf_rejectedNssaiValue h]

/-- Both parsers read what is written, with the cause in the one, and whatever octets they are given
they end without a read out of bounds.  Slices written behind a well-formed value are read behind what
it holds. -/
theorem nssai_codecs :
    ((∀ v, walkNssaiValue v = .ok (parseNssaiValue v)) ∧
      (∀ slices, parseNssaiValue (nssaiValue slices) = slices) ∧
      ∀ v slices, WellFormed UInt8.toNat v →
        parseNssaiValue (v ++ nssaiValue slices) = parseNssaiValue v ++ slices) ∧
    (∀ v, ∃ rejected, parseRejectedNssaiValue v = .ok rejected) ∧
      (∀ slices cause, cause < 16 → parseRejectedNssaiValue (rejectedNssaiValue slices cause) =
        .ok (slices.map fun s => (s, cause))) ∧
      ∀ v slices cause, cause < 16 → WellFormed rejectedLen v →
        ∀ rejected, parseRejectedNssaiValue v = .ok rejected →
          parseRejectedNssaiValue (v ++ rejectedNssaiValue slices cause) =
            .ok (rejected ++ slices.map fun s => (s, cause)) := by
  refine ⟨⟨fun v => ?_, parseNssaiValue_nssaiValue, fun v slices hv => parseNssaiValue_append hv slices⟩,
    fun v => ⟨_, parseRejectedNssaiValue_eq v⟩,
    fun slices cause hcause => parseRejectedNssaiValue_rejectedNssaiValue hcause slices,
    fun v slices cause hcause hv rejected hrejected =>
      parseRejectedNssaiValue_append hcause hv hrejected slices⟩
  rw [walkNssaiValue_eq, parseNssaiValue_eq]

/-- Behind an entry of two octets, which is skipped, and one that was written. -/
theorem nssai_codecs_behind :
    parseNssaiValue ([2, 1, 2] ++ nssaiValue [(1, some 0x00A1B2), (2, none)]) =
        [(1, some 0x00A1B2), (2, none)] ∧
      parseRejectedNssaiValue (rejectedNssaiValue [(1, none)] 0 ++ rejectedNssaiValue [(2, some 7)] 3) =
        .ok [((1, none), 0), ((2, some 7), 3)] := by
  constructor
  · have hwhole : WellFormed UInt8.toNat [2, 1, 2] := by
      refine ⟨[(2, [1, 2])], fun r hr => ?_, rfl⟩
      cases List.mem_singleton.mp hr
      exact ⟨rfl, List.cons_ne_nil _ _⟩
    have hskipped : parseNssaiValue [2, 1, 2] = [] := by simp [parseNssaiValue]
    rw [nssai_codecs.1.2.2 _ _ hwhole, hskipped, List.nil_append]
  · have hcause : (0 : UInt8) < 16 := by decide
    exact nssai_codecs.2.2.2 _ _ 3 (by decide) ((heads_rejected hcause).wellFormed [(1, none)])
      [((1, none), 0)] (nssai_codecs.2.2.1 [(1, none)] 0 hcause)

end Radian.Nas
