import Mathlib.Data.List.TakeDrop

/-!
# Reading octets

Reads of a byte slice that fault where the slice ends, and loops that fault when they run too long.

- `index`, `slice` — `data[i]` and `data[lo..hi]`.
- `index_of_lt`, `slice_of_le` — within the bounds there is no fault.
- `Record`, `join` — records and the octets they are sent as.
- `Fits` — a record whose head tells the length of its body, which is not empty.
- `split` — the records that some octets begin with.
- `WellFormed` — octets that are nothing but records.
- `split_append` — what follows well-formed octets is read as if it stood alone.
-/

namespace Octets

/-- What may stop a program that walks over octets. -/
inductive Fault where
  | outOfBounds
  | outOfFuel
  deriving DecidableEq, Repr

/-- The octet at a place. -/
def index (data : List UInt8) (i : Nat) : Except Fault UInt8 :=
  match data[i]? with
  | some b => .ok b
  | none => .error .outOfBounds

/-- The octets from one place up to another. -/
def slice (data : List UInt8) (lo hi : Nat) : Except Fault (List UInt8) :=
  if lo ≤ hi ∧ hi ≤ data.length then .ok ((data.take hi).drop lo) else .error .outOfBounds

theorem index_of_getElem? {data : List UInt8} {i : Nat} {b : UInt8} (h : data[i]? = some b) :
    index data i = .ok b := by
  rw [index, h]

theorem index_of_lt {data : List UInt8} {i : Nat} (h : i < data.length) :
    index data i = .ok data[i] :=
  index_of_getElem? (List.getElem?_eq_getElem h)

theorem slice_of_le {data : List UInt8} {lo hi : Nat} (hle : lo ≤ hi) (hhi : hi ≤ data.length) :
    slice data lo hi = .ok ((data.take hi).drop lo) :=
  if_pos ⟨hle, hhi⟩

/-- Up to the end. -/
theorem slice_to_end {data : List UInt8} {lo : Nat} (h : lo ≤ data.length) :
    slice data lo data.length = .ok (data.drop lo) := by
  rw [slice_of_le h (Nat.le_refl _), List.take_length]

/-- What follows a prefix. -/
theorem slice_append {pre mid post : List UInt8} :
    slice (pre ++ (mid ++ post)) pre.length (pre.length + mid.length) = .ok mid := by
  rw [slice_of_le (by omega) (by simp), List.take_length_add_append, List.take_left,
    List.drop_left]

/-- A read behind a prefix. -/
theorem index_append_right {pre post : List UInt8} (i : Nat) :
    index (pre ++ post) (pre.length + i) = index post i := by
  rw [index, List.getElem?_append_right (Nat.le_add_right _ i), Nat.add_sub_cancel_left, index]

theorem slice_append_right {pre post : List UInt8} (lo hi : Nat) :
    slice (pre ++ post) (pre.length + lo) (pre.length + hi) = slice post lo hi := by
  simp only [slice, List.length_append, Nat.add_le_add_iff_left, List.take_length_add_append,
    List.drop_length_add_append]

end Octets

/-! ### Records behind a head octet -/

namespace Octets.Records

/-- A head octet and a body. -/
abbrev Record : Type := UInt8 × List UInt8

def join (rs : List Record) : List UInt8 := rs.flatMap fun r => r.1 :: r.2

section Walk

variable (lenOf : UInt8 → Nat)

/-- The head tells how long the body is, and the body is not empty. -/
def Fits (r : Record) : Prop := lenOf r.1 = r.2.length ∧ r.2 ≠ []

/-- The walk ends at a head that tells nothing follows it, and at one that tells more than there is. -/
def split : List UInt8 → List Record
  | [] => []
  | head :: rest =>
      if lenOf head = 0 ∨ rest.length < lenOf head then []
      else (head, rest.take (lenOf head)) :: split (rest.drop (lenOf head))
  termination_by bytes => bytes.length
  decreasing_by
    simp only [List.length_drop, List.length_cons]
    omega

/-- The octets of some records. -/
def WellFormed (bytes : List UInt8) : Prop := ∃ rs : List Record, (∀ r ∈ rs, Fits lenOf r) ∧ bytes = join rs

end Walk

variable {lenOf : UInt8 → Nat}

theorem split_nil : split lenOf [] = [] := by
  rw [split]

theorem split_stop {head : UInt8} {rest : List UInt8} (h : lenOf head = 0 ∨ rest.length < lenOf head) :
    split lenOf (head :: rest) = [] := by
  rw [split, if_pos h]

theorem split_step {head : UInt8} {rest : List UInt8}
    (h : ¬ (lenOf head = 0 ∨ rest.length < lenOf head)) :
    split lenOf (head :: rest) =
      (head, rest.take (lenOf head)) :: split lenOf (rest.drop (lenOf head)) := by
  rw [split, if_neg h]

/-- A record that fits is read as it is. -/
theorem split_record {r : Record} (h : Fits lenOf r) (post : List UInt8) :
    split lenOf (r.1 :: (r.2 ++ post)) = r :: split lenOf post := by
  obtain ⟨hlen, hbody⟩ := h
  have hpos : 0 < r.2.length := List.length_pos_iff.mpr hbody
  rw [split_step (by simp only [List.length_append]; omega), hlen, List.take_left, List.drop_left]

theorem split_join_append {rs : List Record} (h : ∀ r ∈ rs, Fits lenOf r) (post : List UInt8) :
    split lenOf (join rs ++ post) = rs ++ split lenOf post := by
  induction rs with
  | nil => rfl
  | cons r rs ih =>
    have hrest := ih fun r' hr' => h r' (List.mem_cons_of_mem _ hr')
    calc split lenOf (join (r :: rs) ++ post)
      _ = split lenOf (r.1 :: (r.2 ++ (join rs ++ post))) := by
        simp only [join, List.flatMap_cons, List.cons_append, List.append_assoc]
      _ = r :: split lenOf (join rs ++ post) := split_record (h r List.mem_cons_self) _
      _ = r :: rs ++ split lenOf post := by rw [hrest, List.cons_append]

theorem split_join {rs : List Record} (h : ∀ r ∈ rs, Fits lenOf r) : split lenOf (join rs) = rs := by
  have hsplit := split_join_append h []
  rwa [List.append_nil, split_nil, List.append_nil] at hsplit

theorem wellFormed_join {rs : List Record} (h : ∀ r ∈ rs, Fits lenOf r) : WellFormed lenOf (join rs) :=
  ⟨rs, h, rfl⟩

/-- What follows well-formed octets is read as if it stood alone. -/
theorem split_append {pre : List UInt8} (h : WellFormed lenOf pre) (post : List UInt8) :
    split lenOf (pre ++ post) = split lenOf pre ++ split lenOf post := by
  obtain ⟨rs, hrs, rfl⟩ := h
  rw [split_join_append hrs, split_join hrs]

end Octets.Records
