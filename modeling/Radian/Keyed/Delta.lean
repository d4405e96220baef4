import Radian.Keyed.Basic

/-!
# Deltas between keyed maps

A delta says for each key whether the entry is kept, replaced or removed.  Read pointwise it is a
function `K → Option (Option V)`; `Map.diff` and `Map.apply` compute with finite maps.

- `Delta.between`, `Delta.patch` — the pointwise delta and its merge.
- `Map.lookup_diff`, `Map.lookup_apply` — the finite versions compute the pointwise ones.
-/

namespace Keyed

variable {K V : Type}

/-- For each key: keep (`none`), remove (`some none`) or replace (`some (some v)`). -/
abbrev Delta (K V : Type) : Type := K → Option (Option V)

namespace Delta

/-- The entries in which `next` differs from `prev`. -/
def between [DecidableEq V] (prev next : K → Option V) : Delta K V :=
  fun k => if prev k = next k then none else some (next k)

/-- Merge a delta onto a base. -/
def patch (d : Delta K V) (base : K → Option V) : K → Option V := fun k => (d k).getD (base k)

end Delta

namespace Map

variable [DecidableEq K]

/-- One round of the first loop of `diff`: a new or changed entry. -/
def noteChange [DecidableEq V] (prev : Map K V) (delta : Map K (Option V))
    (e : Sigma fun _ : K => V) : Map K (Option V) :=
  if prev.lookup e.1 = some e.2 then delta else delta.insert e.1 (some e.2)

/-- One round of the second loop of `diff`: an entry that is gone. -/
def noteRemoval (next : Map K V) (delta : Map K (Option V)) (e : Sigma fun _ : K => V) :
    Map K (Option V) :=
  if e.1 ∈ next then delta else delta.insert e.1 none

/-- The partial map from `prev` to `next`: changed or new entries, then removals. -/
def diff [DecidableEq V] (prev next : Map K V) : Map K (Option V) :=
  prev.entries.foldl (noteRemoval next) (next.entries.foldl (noteChange prev) ∅)

/-- One round of `apply`. -/
def applyOne (m : Map K V) (e : Sigma fun _ : K => Option V) : Map K V :=
  match e.2 with
  | some v => m.insert e.1 v
  | none => m.erase e.1

/-- Merge a partial map onto a map. -/
def apply (m : Map K V) (delta : Map K (Option V)) : Map K V := delta.entries.foldl applyOne m

/-- The finite delta computes the pointwise one. -/
theorem lookup_diff [DecidableEq V] (prev next : Map K V) (k : K) :
    (diff prev next).lookup k = Delta.between (prev.lookup ·) (next.lookup ·) k := by
  have changes : (next.entries.foldl (noteChange prev) ∅).lookup k =
      match next.lookup k with
      | some v => if prev.lookup k = some v then none else some (some v)
      | none => none := by
    have loop := lookup_foldl (g := noteChange prev)
      (c := fun k v old => if prev.lookup k = some v then old else some (some v))
      (fun m k v => by by_cases h : prev.lookup k = some v <;> simp [noteChange, h])
      (fun m k v k' hk => by
        by_cases h : prev.lookup k = some v
        · simp [noteChange, h]
        · simp [noteChange, h, AList.lookup_insert_ne hk])
      next ∅ k
    rw [loop]
    cases next.lookup k with
    | some v => simp
    | none => simp
  have removals := lookup_foldl (g := noteRemoval next)
    (c := fun k _ old => if k ∈ next then old else some none)
    (fun m k v => by by_cases h : k ∈ next <;> simp [noteRemoval, h])
    (fun m k v k' hk => by
      by_cases h : k ∈ next
      · simp [noteRemoval, h]
      · simp [noteRemoval, h, AList.lookup_insert_ne hk])
    prev (next.entries.foldl (noteChange prev) ∅) k
  rw [diff, removals, changes]
  cases hp : prev.lookup k with
  | none =>
    cases hn : next.lookup k with
    | none => simp [Delta.between, hp, hn]
    | some v => simp [Delta.between, hp, hn]
  | some u =>
    cases hn : next.lookup k with
    | none =>
      have hk : k ∉ next := AList.lookup_eq_none.mp hn
      simp [Delta.between, hp, hn, hk]
    | some v =>
      have hk : k ∈ next := mem_iff_lookup.mpr ⟨v, hn⟩
      simp [Delta.between, hp, hn, hk]

/-- The finite merge computes the pointwise one. -/
theorem lookup_apply (m : Map K V) (delta : Map K (Option V)) (k : K) :
    (apply m delta).lookup k = Delta.patch (delta.lookup ·) (m.lookup ·) k := by
  have loop := lookup_foldl (g := applyOne (K := K) (V := V)) (c := fun _ v _ => v)
    (fun m k v => by cases v <;> simp [applyOne])
    (fun m k v k' hk => by
      cases v with
      | none => simp [applyOne, AList.lookup_erase_ne hk]
      | some v => simp [applyOne, AList.lookup_insert_ne hk])
    delta m k
  rw [apply, loop]
  cases h : delta.lookup k <;> simp [Delta.patch, h]

/-- Merging the delta from `prev` to `next` onto `base`, pointwise. -/
theorem lookup_apply_diff [DecidableEq V] (prev next base : Map K V) (k : K) :
    (apply base (diff prev next)).lookup k =
      if prev.lookup k = next.lookup k then base.lookup k else next.lookup k := by
  rw [lookup_apply]
  simp only [Delta.patch, lookup_diff, Delta.between]
  split <;> rfl

/-- There is nothing in the delta exactly when the maps agree. -/
theorem isEmpty_diff_iff [DecidableEq V] (prev next : Map K V) :
    (diff prev next).entries.isEmpty = true ↔ ∀ k, prev.lookup k = next.lookup k := by
  have hpoint : ∀ k, (diff prev next).lookup k = none ↔ prev.lookup k = next.lookup k := by
    intro k
    rw [lookup_diff, Delta.between]
    split
    next heq => exact iff_of_true rfl heq
    next hne => exact iff_of_false (Option.some_ne_none _) hne
  simp only [List.isEmpty_iff, ← hpoint]
  constructor
  · intro hempty k
    have hdiff : diff prev next = ∅ := AList.ext hempty
    rw [hdiff]
    rfl
  · intro hnone
    refine List.eq_nil_iff_forall_not_mem.mpr fun e he => ?_
    have hsome := lookup_eq_some_iff.mpr he
    rw [hnone e.1] at hsome
    cases hsome

/-- Merging depends on the contents of both maps alone, in whatever order they come. -/
theorem lookup_apply_congr {m m' : Map K V} {delta delta' : Map K (Option V)}
    (hm : ∀ k, m.lookup k = m'.lookup k) (hdelta : ∀ k, delta.lookup k = delta'.lookup k) (k : K) :
    (apply m delta).lookup k = (apply m' delta').lookup k := by
  rw [lookup_apply, lookup_apply, Delta.patch, Delta.patch, hm, hdelta]

end Map

end Keyed
