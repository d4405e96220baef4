import Mathlib.Algebra.BigOperators.Group.List.Basic
import Mathlib.Data.List.AList
import Mathlib.Tactic.Abel

/-!
# Keyed maps

Finite maps as association lists with distinct keys.  The order of the entries is the iteration
order of a hash map: nothing proved here depends on it.

- `collect` — the map collected from a list of pairs.
- `Map.modify`, `Map.partition` — update one entry in place; split off the entries with a property.
- `Map.retainKeys`, `Map.eraseAll` — drop the entries of some keys.
- `Map.total` — the sum of a quantity over all entries, and how each operation moves it.
- `Map.lookup_foldl` — a loop over the entries that touches one key per round, read pointwise.
- `Live` — what a map holds at a moment, with the expired entries left out.
- `live_insert`, `live_erase`, `live_retain` — what the operations do to the live part.
- `live_later` — maps that agree on what is live go on to agree.
- `perm_retain` — maps with one live part keep the same entries when the expired ones are dropped.
-/

namespace Keyed

/-- A finite map from `K` to `V`. -/
abbrev Map (K V : Type) : Type := AList fun _ : K => V

/-- What a hash map collected from pairs holds at a key: of equal keys the last pair counts. -/
def collect {K V : Type} [DecidableEq K] (pairs : List (K × V)) (k : K) : Option V :=
  pairs.reverse.lookup k

/-- With distinct keys every pair counts. -/
theorem collect_of_mem {K V : Type} [DecidableEq K] {pairs : List (K × V)} {k : K} {v : V}
    (hkeys : (pairs.map Prod.fst).Nodup) (h : (k, v) ∈ pairs) : collect pairs k = some v := by
  have hmem : (k, v) ∈ pairs.reverse := List.mem_reverse.mpr h
  obtain ⟨l₁, l₂, hsplit⟩ := List.append_of_mem hmem
  have hnodup : (pairs.reverse.map Prod.fst).Nodup := by
    rw [List.map_reverse]
    exact List.nodup_reverse.mpr hkeys
  rw [hsplit, List.map_append, List.map_cons, List.nodup_append] at hnodup
  rw [collect, List.lookup_eq_some_iff]
  refine ⟨l₁, l₂, hsplit, ?_⟩
  intro p hp
  have hne := hnodup.2.2 p.1 (List.mem_map_of_mem hp) k List.mem_cons_self
  simpa using Ne.symm hne

section Update

variable {K V : Type} [DecidableEq K] {f : K → Option V} {k k' : K} {v v' : V}

/-- What is there after an update is the new value, or was there. -/
theorem of_update_some (h : Function.update f k (some v) k' = some v') :
    (k' = k ∧ v' = v) ∨ (k' ≠ k ∧ f k' = some v') := by
  rw [Function.update_apply] at h
  split at h
  · rename_i heq
    exact .inl ⟨heq, (Option.some.inj h).symm⟩
  · rename_i hne
    exact .inr ⟨hne, h⟩

theorem of_update_none (h : Function.update f k none k' = some v') : k' ≠ k ∧ f k' = some v' := by
  rw [Function.update_apply] at h
  split at h
  · cases h
  · rename_i hne
    exact ⟨hne, h⟩

end Update

namespace Map

variable {K V W : Type} [DecidableEq K]

/-! ### Operations -/

/-- Update the entry of `k`, when there is one. -/
def modify (k : K) (f : V → V) (m : Map K V) : Map K V :=
  match m.lookup k with
  | some v => m.insert k (f v)
  | none => m

/-- Update the entry of `k` where it stands in the iteration order. -/
def adjust (k : K) (f : V → V) (m : Map K V) : Map K V where
  entries := m.entries.map fun e => if e.1 = k then ⟨e.1, f e.2⟩ else e
  nodupKeys := by
    have hkeys : (m.entries.map fun e => if e.1 = k then ⟨e.1, f e.2⟩ else e).keys =
        m.entries.keys := by
      simp only [List.keys, List.map_map]
      apply List.map_congr_left
      intro e _
      by_cases h : e.1 = k <;> simp [h]
    rw [List.NodupKeys, hkeys]
    exact m.nodupKeys

/-- The first entry whose value has property `p`. -/
def find? (p : V → Bool) (m : Map K V) : Option (K × V) :=
  (m.entries.find? fun e => p e.2).map fun e => (e.1, e.2)

/-- The entries with property `p`, taken out of the map. -/
def partition (p : V → Bool) (m : Map K V) : List V × Map K V :=
  ((m.entries.filter fun e => p e.2).map fun e => e.2,
    ⟨m.entries.filter fun e => !p e.2, m.nodupKeys.sublist List.filter_sublist⟩)

/-- The entries with property `p`. -/
def retain (p : V → Bool) (m : Map K V) : Map K V :=
  ⟨m.entries.filter fun e => p e.2, m.nodupKeys.sublist List.filter_sublist⟩

/-- The entries whose key has property `p`. -/
def retainKeys (p : K → Bool) (m : Map K V) : Map K V :=
  ⟨m.entries.filter fun e => p e.1, m.nodupKeys.sublist List.filter_sublist⟩

/-- Erase one key after the other. -/
def eraseAll (ks : List K) (m : Map K V) : Map K V := ks.foldl (fun m k => m.erase k) m

/-- Content equality, whatever the orders of entries. -/
def same [DecidableEq V] (a b : Map K V) : Bool := decide (a.entries.Perm b.entries)

/-! ### Pointwise reading -/

theorem lookup_eq_some_iff {m : Map K V} {k : K} {v : V} :
    m.lookup k = some v ↔ (⟨k, v⟩ : Sigma fun _ : K => V) ∈ m.entries := by
  rw [← Option.mem_def]
  exact List.mem_dlookup_iff m.nodupKeys

/-- Maps are compared entry by entry, so that the comparison computes. -/
instance decidableEq [DecidableEq V] : DecidableEq (Map K V) := fun m m' =>
  decidable_of_iff (m.entries = m'.entries) ⟨AList.ext, congrArg AList.entries⟩

/-- A property of all entries can be decided. -/
instance decidableForallLookup {P : K → V → Prop} [∀ k v, Decidable (P k v)] (m : Map K V) :
    Decidable (∀ k v, m.lookup k = some v → P k v) :=
  decidable_of_iff (∀ e ∈ m.entries, P e.1 e.2)
    ⟨fun h k v hk => h ⟨k, v⟩ (lookup_eq_some_iff.mp hk),
      fun h e he => h e.1 e.2 (lookup_eq_some_iff.mpr he)⟩

theorem lookup_insert_eq (m : Map K V) (k k' : K) (v : V) :
    (m.insert k v).lookup k' = if k' = k then some v else m.lookup k' := by
  by_cases h : k' = k
  · subst h
    simp
  · simp [h, AList.lookup_insert_ne h]

theorem lookup_erase_eq (m : Map K V) (k k' : K) :
    (m.erase k).lookup k' = if k' = k then none else m.lookup k' := by
  by_cases h : k' = k
  · subst h
    simp
  · simp [h, AList.lookup_erase_ne h]

/-- What is there after an insertion is the new entry, or was there. -/
theorem of_lookup_insert {m : Map K V} {k k' : K} {v v' : V} (h : (m.insert k v).lookup k' = some v') :
    (k' = k ∧ v' = v) ∨ (k' ≠ k ∧ m.lookup k' = some v') := by
  rw [lookup_insert_eq] at h
  split at h
  · rename_i hk
    exact .inl ⟨hk, (Option.some.inj h).symm⟩
  · rename_i hk
    exact .inr ⟨hk, h⟩

theorem of_lookup_erase {m : Map K V} {k k' : K} {v : V} (h : (m.erase k).lookup k' = some v) :
    k' ≠ k ∧ m.lookup k' = some v := by
  rw [lookup_erase_eq] at h
  split at h
  · cases h
  · rename_i hk
    exact ⟨hk, h⟩

theorem lookup_modify (m : Map K V) (f : V → V) (k k' : K) :
    (m.modify k f).lookup k' = if k' = k then (m.lookup k).map f else m.lookup k' := by
  cases hk : m.lookup k with
  | none =>
    by_cases h : k' = k
    · subst h
      simp [modify, hk]
    · simp [modify, hk, h]
  | some v => simp [modify, hk, lookup_insert_eq]

theorem lookup_adjust (m : Map K V) (f : V → V) (k k' : K) :
    (m.adjust k f).lookup k' = if k' = k then (m.lookup k).map f else m.lookup k' := by
  have hentries : ∀ es : List (Sigma fun _ : K => V),
      (es.map fun e => if e.1 = k then ⟨e.1, f e.2⟩ else e).dlookup k' =
        if k' = k then (es.dlookup k).map f else es.dlookup k' := by
    intro es
    induction es with
    | nil => simp
    | cons e es ih =>
      obtain ⟨k₀, v₀⟩ := e
      by_cases h₀ : k₀ = k'
      · subst h₀
        by_cases hk : k₀ = k
        · subst hk
          simp
        · simp [hk]
      · by_cases hk : k₀ = k
        · subst hk
          have hne : ¬ k' = k₀ := fun h => h₀ h.symm
          simp only [List.map_cons, if_true, hne, if_false] at ih ⊢
          rw [List.dlookup_cons_ne _ _ hne, ih, List.dlookup_cons_ne es ⟨k₀, v₀⟩ hne]
        · have hne : ¬ k' = k₀ := fun h => h₀ h.symm
          simp only [List.map_cons, hk, if_false] at ih ⊢
          rw [List.dlookup_cons_ne _ _ hne, ih,
            List.dlookup_cons_ne _ _ (fun h : k = k₀ => hk h.symm), List.dlookup_cons_ne _ _ hne]
  exact hentries m.entries

/-- Adjustments of one entry, one after the other. -/
theorem adjust_adjust (m : Map K V) (k : K) (f g : V → V) :
    (m.adjust k f).adjust k g = m.adjust k fun v => g (f v) := by
  apply AList.ext
  simp only [adjust, List.map_map]
  apply List.map_congr_left
  intro e _
  by_cases h : e.1 = k <;> simp [h]

theorem adjust_congr {m : Map K V} {k : K} {f g : V → V}
    (h : ∀ v, m.lookup k = some v → f v = g v) : m.adjust k f = m.adjust k g := by
  apply AList.ext
  simp only [adjust]
  apply List.map_congr_left
  rintro ⟨k₀, v⟩ he
  by_cases hk : k₀ = k
  · subst hk
    simp [h v (lookup_eq_some_iff.mpr he)]
  · simp [hk]

theorem adjust_id (m : Map K V) (k : K) : (m.adjust k fun v => v) = m := by
  apply AList.ext
  simp [adjust]

/-- An entry that is found is in the map and has the property. -/
theorem find?_eq_some {p : V → Bool} {m : Map K V} {k : K} {v : V}
    (h : m.find? p = some (k, v)) : m.lookup k = some v ∧ p v = true := by
  rw [find?, Option.map_eq_some_iff] at h
  obtain ⟨e, he, heq⟩ := h
  cases heq
  have hp := List.find?_some he
  exact ⟨lookup_eq_some_iff.mpr (List.mem_of_find?_eq_some he), hp⟩

/-- When nothing is found no entry has the property. -/
theorem find?_eq_none {p : V → Bool} {m : Map K V} {k : K} {v : V} (h : m.find? p = none)
    (hk : m.lookup k = some v) : p v = false := by
  rw [find?, Option.map_eq_none_iff, List.find?_eq_none] at h
  simpa using h ⟨k, v⟩ (lookup_eq_some_iff.mp hk)

/-- A changed entry that keeps the property is found first. -/
theorem find?_modify {p : V → Bool} {m : Map K V} {f : V → V} {k : K} {v : V}
    (h : m.find? p = some (k, v)) (hp : p (f v) = true) :
    (m.modify k f).find? p = some (k, f v) := by
  rw [modify, (find?_eq_some h).1]
  simp [find?, AList.entries_insert, hp]

/-- An adjustment that no search notices leaves the entry that is found in place. -/
theorem find?_adjust {p : V → Bool} {f : V → V} (hp : ∀ v, p (f v) = p v) (m : Map K V) (k : K) :
    (m.adjust k f).find? p = (m.find? p).map fun e => (e.1, if e.1 = k then f e.2 else e.2) := by
  have hcomp : ((fun e : Sigma fun _ : K => V => p e.2) ∘ fun e : Sigma fun _ : K => V =>
      if e.1 = k then ⟨e.1, f e.2⟩ else e) = fun e => p e.2 := by
    funext e
    by_cases h : e.1 = k <;> simp [h, hp]
  simp only [find?, adjust, List.find?_map, hcomp, Option.map_map]
  congr 1
  funext e
  by_cases h : e.1 = k <;> simp [h]

/-- An adjustment that takes a property from an entry and gives it to none. -/
theorem countP_adjust_lt {p : V → Bool} {f : V → V} (hf : ∀ v, p (f v) = true → p v = true)
    {m : Map K V} {k : K} {v : V} (h : m.lookup k = some v) (hp : p v = true)
    (hv : p (f v) = false) :
    ((m.adjust k f).entries.countP fun e => p e.2) < m.entries.countP fun e => p e.2 := by
  obtain ⟨l₁, l₂, hsplit⟩ := List.append_of_mem (lookup_eq_some_iff.mp h)
  have hrest : ∀ l : List (Sigma fun _ : K => V), (l.map fun e =>
      if e.1 = k then (⟨e.1, f e.2⟩ : Sigma fun _ : K => V) else e).countP (fun e => p e.2) ≤
        l.countP fun e => p e.2 := by
    intro l
    rw [List.countP_map]
    refine List.countP_mono_left fun e _ he => ?_
    by_cases hk : e.1 = k
    · simp only [Function.comp_apply, if_pos hk] at he
      exact hf _ he
    · simpa only [Function.comp_apply, if_neg hk] using he
  have h₁ := hrest l₁
  have h₂ := hrest l₂
  simp only [adjust, hsplit, List.map_append, List.map_cons, List.countP_append, List.countP_cons,
    if_true, hp, hv, Bool.false_eq_true, if_false]
  omega

theorem mem_iff_lookup {m : Map K V} {k : K} : k ∈ m ↔ ∃ v, m.lookup k = some v := by
  rw [← AList.lookup_isSome, Option.isSome_iff_exists]

omit [DecidableEq K] in
/-- A map whose keys are all reached from another's has no more entries. -/
theorem length_le_of_onto {K' V' : Type} [DecidableEq K'] {m : Map K V} {m' : Map K' V'}
    {f : K → K'} (h : ∀ k' ∈ m', ∃ k ∈ m, f k = k') : m'.entries.length ≤ m.entries.length := by
  have hsub : m'.keys ⊆ m.keys.map f := by
    intro k' hk'
    obtain ⟨k, hk, rfl⟩ := h k' hk'
    exact List.mem_map_of_mem hk
  have hle := (List.subperm_of_subset m'.keys_nodup hsub).length_le
  simpa [AList.keys, List.keys] using hle

theorem same_iff [DecidableEq V] {a b : Map K V} :
    same a b = true ↔ ∀ k, a.lookup k = b.lookup k := by
  rw [same, decide_eq_true_iff]
  constructor
  · intro h k
    exact List.perm_dlookup k a.nodupKeys h
  · intro h
    refine List.lookup_ext a.nodupKeys b.nodupKeys fun k v => ?_
    have hk : a.entries.dlookup k = b.entries.dlookup k := h k
    rw [hk]

theorem lookup_partition {p : V → Bool} {m : Map K V} {k : K} {v : V} :
    (m.partition p).2.lookup k = some v ↔ m.lookup k = some v ∧ p v = false := by
  rw [lookup_eq_some_iff, lookup_eq_some_iff]
  simp [partition]

theorem lookup_retain {p : V → Bool} {m : Map K V} {k : K} {v : V} :
    (m.retain p).lookup k = some v ↔ m.lookup k = some v ∧ p v = true := by
  rw [lookup_eq_some_iff, lookup_eq_some_iff]
  simp [retain]

theorem lookup_retainKeys (p : K → Bool) (m : Map K V) (k : K) :
    (m.retainKeys p).lookup k = if p k then m.lookup k else none := by
  apply Option.ext
  intro v
  rw [lookup_eq_some_iff, retainKeys, List.mem_filter]
  split
  · rename_i hp
    rw [lookup_eq_some_iff, hp, and_iff_left rfl]
  · rename_i hp
    simp [hp]

theorem lookup_eraseAll (ks : List K) (m : Map K V) (k : K) :
    (m.eraseAll ks).lookup k = if k ∈ ks then none else m.lookup k := by
  induction ks generalizing m with
  | nil => rfl
  | cons k' ks ih =>
    rw [eraseAll, List.foldl_cons, ← eraseAll, ih, lookup_erase_eq]
    by_cases hmem : k ∈ ks
    · rw [if_pos hmem, if_pos (List.mem_cons_of_mem _ hmem)]
    · rw [if_neg hmem]
      simp only [List.mem_cons, hmem, or_false]

/-- A loop over the entries of `src` whose round for `k` changes only what is stored at `κ k`. -/
theorem lookup_foldl_of_injective {K' : Type} [DecidableEq K'] {κ : K → K'}
    (hκ : Function.Injective κ) {g : Map K' W → (Sigma fun _ : K => V) → Map K' W}
    {c : K → V → Option W → Option W}
    (hself : ∀ m k v, (g m ⟨k, v⟩).lookup (κ k) = c k v (m.lookup (κ k)))
    (hother : ∀ m k v k', k' ≠ κ k → (g m ⟨k, v⟩).lookup k' = m.lookup k')
    (src : Map K V) (m : Map K' W) (k : K) :
    (src.entries.foldl g m).lookup (κ k) =
      match src.lookup k with
      | some v => c k v (m.lookup (κ k))
      | none => m.lookup (κ k) := by
  obtain ⟨es, hes⟩ := src
  induction es generalizing m with
  | nil => rfl
  | cons e es ih =>
    obtain ⟨k₀, v₀⟩ := e
    have hnd : es.NodupKeys := (List.nodupKeys_cons.mp hes).2
    have hk₀ : k₀ ∉ es.keys := (List.nodupKeys_cons.mp hes).1
    have step := ih (m := g m ⟨k₀, v₀⟩) hnd
    simp only [AList.lookup] at step ⊢
    rw [List.foldl_cons, step]
    by_cases h : k = k₀
    · subst h
      have hrest : es.dlookup k = none := List.dlookup_eq_none.mpr hk₀
      have hhead : (⟨k, v₀⟩ :: es : List (Sigma fun _ : K => V)).dlookup k = some v₀ :=
        List.dlookup_cons_eq es k v₀
      rw [hhead, hrest]
      exact hself m k v₀
    · have hhead : (⟨k₀, v₀⟩ :: es : List (Sigma fun _ : K => V)).dlookup k = es.dlookup k :=
        List.dlookup_cons_ne es ⟨k₀, v₀⟩ h
      have hm : (g m ⟨k₀, v₀⟩).entries.dlookup (κ k) = m.entries.dlookup (κ k) :=
        hother m k₀ v₀ (κ k) fun heq => h (hκ heq)
      rw [hhead, hm]

/-- A loop over the entries of `src` whose round for `k` changes only what is stored at `k`. -/
theorem lookup_foldl {g : Map K W → (Sigma fun _ : K => V) → Map K W}
    {c : K → V → Option W → Option W}
    (hself : ∀ m k v, (g m ⟨k, v⟩).lookup k = c k v (m.lookup k))
    (hother : ∀ m k v k', k' ≠ k → (g m ⟨k, v⟩).lookup k' = m.lookup k')
    (src : Map K V) (m : Map K W) (k : K) :
    (src.entries.foldl g m).lookup k =
      match src.lookup k with
      | some v => c k v (m.lookup k)
      | none => m.lookup k :=
  lookup_foldl_of_injective Function.injective_id hself hother src m k

/-- The entries before and after that of a key. -/
theorem exists_split {m : Map K V} {k : K} {v : V} (h : m.lookup k = some v) :
    ∃ l₁ l₂, m.entries = l₁ ++ ⟨k, v⟩ :: l₂ ∧ (m.erase k).entries = l₁ ++ l₂ := by
  have hk : k ∈ m.entries.keys := AList.lookup_isSome.mp (by simp [h])
  obtain ⟨w, l₁, l₂, -, hm, he⟩ := List.exists_of_kerase hk
  have hmem : (⟨k, w⟩ : Sigma fun _ : K => V) ∈ m.entries := by simp [hm]
  obtain rfl : w = v := Option.some.inj ((lookup_eq_some_iff.mpr hmem).symm.trans h)
  exact ⟨l₁, l₂, hm, he⟩

/-- An in-place update that a view `g` of the values does not show. -/
theorem perm_modify {G : Type} {g : V → G} {f : V → V} (hf : ∀ v, g (f v) = g v) (m : Map K V)
    (k : K) : ((m.modify k f).entries.map fun e => (e.1, g e.2)).Perm
      (m.entries.map fun e => (e.1, g e.2)) := by
  cases h : m.lookup k with
  | none => simp [modify, h]
  | some v =>
    obtain ⟨l₁, l₂, hm, he⟩ := exists_split h
    simp only [modify, h, AList.entries_insert, show m.entries.kerase k = l₁ ++ l₂ from he]
    simp only [hm, List.map_cons, List.map_append, hf]
    exact List.perm_middle.symm

theorem keys_modify (m : Map K V) (k : K) (f : V → V) : (m.modify k f).keys.Perm m.keys := by
  have hperm := (perm_modify (g := fun _ => ()) (fun _ => rfl) m k (f := f)).map Prod.fst
  rw [List.map_map, List.map_map] at hperm
  exact hperm

/-! ### Totals -/

section Total

variable {M : Type} [AddCommMonoid M] (f : V → M)

/-- The sum of `f` over all entries. -/
def total (m : Map K V) : M := (m.entries.map fun e => f e.2).sum

omit [DecidableEq K] in
@[simp] theorem total_empty : total f (∅ : Map K V) = 0 := rfl

/-- An entry contributes its own quantity. -/
theorem total_erase {m : Map K V} {k : K} {v : V} (h : m.lookup k = some v) :
    total f m = total f (m.erase k) + f v := by
  obtain ⟨l₁, l₂, hm, herase⟩ := exists_split h
  simp only [total, hm, herase, List.map_append, List.map_cons, List.sum_append, List.sum_cons]
  abel

theorem erase_eq_self {m : Map K V} {k : K} (h : m.lookup k = none) : m.erase k = m := by
  apply AList.ext
  exact List.kerase_of_notMem_keys (AList.lookup_eq_none.mp h)

/-- Two entries contribute one quantity each. -/
theorem total_two {m : Map K V} {k₁ k₂ : K} {v₁ v₂ : V} (h₁ : m.lookup k₁ = some v₁)
    (h₂ : m.lookup k₂ = some v₂) (hne : k₁ ≠ k₂) :
    total f m = total f ((m.erase k₁).erase k₂) + f v₂ + f v₁ := by
  have hrest : (m.erase k₁).lookup k₂ = some v₂ := by
    rw [lookup_erase_eq, if_neg (Ne.symm hne), h₂]
  rw [total_erase f h₁, total_erase f hrest]

theorem total_insert (m : Map K V) (k : K) (v : V) :
    total f (m.insert k v) = total f (m.erase k) + f v := by
  simp only [total, AList.entries_insert, List.map_cons, List.sum_cons]
  exact add_comm _ _

omit [DecidableEq K] in
theorem total_eq_zero {m : Map K V} (h : ∀ e ∈ m.entries, f e.2 = 0) : total f m = 0 := by
  refine List.sum_eq_zero fun x hx => ?_
  obtain ⟨e, he, rfl⟩ := List.mem_map.mp hx
  exact h e he

/-- A new entry adds its own quantity. -/
theorem total_insert_new {m : Map K V} {k : K} (h : m.lookup k = none) (v : V) :
    total f (m.insert k v) = total f m + f v := by
  rw [total_insert, erase_eq_self h]

/-- Overwriting an entry exchanges its quantity. -/
theorem total_insert_over {m : Map K V} {k : K} {v w : V} (h : m.lookup k = some v)
    (hf : f w = f v) : total f (m.insert k w) = total f m := by
  rw [total_insert, total_erase f h, hf]

/-- An in-place update that does not touch the quantity. -/
theorem total_modify (m : Map K V) (k : K) {g : V → V} (hg : ∀ v, f (g v) = f v) :
    total f (m.modify k g) = total f m := by
  cases h : m.lookup k with
  | none => simp [modify, h]
  | some v =>
    simp only [modify, h]
    exact total_insert_over f h (hg v)

omit [DecidableEq K] in
/-- The sum over the entries sees only what a view `g` of the values shows. -/
theorem total_of_perm {G : Type} {g : V → G} {m m' : Map K V}
    (h : (m.entries.map fun e => (e.1, g e.2)).Perm (m'.entries.map fun e => (e.1, g e.2)))
    (f : G → M) : total (fun v => f (g v)) m = total (fun v => f (g v)) m' := by
  have hsum := (h.map fun p => f p.2).sum_eq
  simpa [total, List.map_map, Function.comp_def] using hsum

omit [DecidableEq K] in
/-- What is taken out and what stays make up the whole. -/
theorem total_partition (p : V → Bool) (m : Map K V) :
    total f m = total f (m.partition p).2 + ((m.partition p).1.map f).sum := by
  have split : ∀ es : List (Sigma fun _ : K => V),
      (es.map fun e => f e.2).sum =
        ((es.filter fun e => !p e.2).map fun e => f e.2).sum +
          (((es.filter fun e => p e.2).map fun e => e.2).map f).sum := by
    intro es
    induction es with
    | nil => simp
    | cons e es ih =>
      by_cases h : p e.2 = true
      · simp only [List.map_cons, List.sum_cons, List.filter_cons, h, ih, if_true, Bool.not_true,
          Bool.false_eq_true, if_false]
        abel
      · simp only [Bool.not_eq_true] at h
        simp only [List.map_cons, List.sum_cons, List.filter_cons, h, ih, if_true, Bool.not_false,
          Bool.false_eq_true, if_false]
        abel
  exact split m.entries

end Total

end Map

end Keyed

/-! ### Entries that expire -/

namespace Keyed.Map

variable {K V : Type} [DecidableEq K] {alive : Nat → V → Bool} {now now' : Nat} {m m' : Map K V}

/-- What the map holds that is alive at `now`. -/
def Live (alive : Nat → V → Bool) (now : Nat) (m : Map K V) (k : K) : Option V :=
  (m.lookup k).filter (alive now)

theorem live_eq_some {k : K} {v : V} :
    Live alive now m k = some v ↔ m.lookup k = some v ∧ alive now v = true := Option.filter_eq_some_iff

/-- The expired entries are dropped: what is left is what was alive. -/
theorem lookup_retain_alive (now : Nat) (m : Map K V) (k : K) :
    (m.retain (alive now)).lookup k = Live alive now m k :=
  Option.ext fun _ => lookup_retain.trans live_eq_some.symm

theorem live_insert {v : V} (hv : alive now v = true) (m : Map K V) (k k' : K) :
    Live alive now (m.insert k v) k' = if k' = k then some v else Live alive now m k' := by
  rw [Live, lookup_insert_eq]
  split
  next => rw [Option.filter_some, hv, if_pos rfl]
  next => rfl

theorem live_erase (alive : Nat → V → Bool) (now : Nat) (m : Map K V) (k k' : K) :
    Live alive now (m.erase k) k' = if k' = k then none else Live alive now m k' := by
  rw [Live, lookup_erase_eq]
  split
  next => rfl
  next => rfl

theorem live_retain (now : Nat) (m : Map K V) :
    Live alive now (m.retain (alive now)) = Live alive now m := by
  funext k
  rw [Live, lookup_retain_alive, Live, Option.filter_filter]
  congr 1
  funext v
  exact Bool.and_self _

/-- What is alive later was alive before, so maps that agree now agree later. -/
theorem live_later (hfades : ∀ v, alive now' v = true → alive now v = true)
    (h : Live alive now m = Live alive now m') : Live alive now' m = Live alive now' m' := by
  have hpart : ∀ m : Map K V, Live alive now' m = fun k => (Live alive now m k).filter (alive now') := by
    intro m
    funext k
    rw [Live, Live, Option.filter_filter]
    congr 1
    funext v
    cases hv : alive now' v with
    | false => rw [Bool.and_false]
    | true => rw [hfades v hv, Bool.and_self]
  rw [hpart m, hpart m', h]

/-- Maps with one live part keep the same entries. -/
theorem perm_retain (h : Live alive now m = Live alive now m') :
    (m.retain (alive now)).entries.Perm (m'.retain (alive now)).entries := by
  refine List.lookup_ext (m.retain (alive now)).nodupKeys (m'.retain (alive now)).nodupKeys
    fun k v => ?_
  have hk : (m.retain (alive now)).lookup k = (m'.retain (alive now)).lookup k := by
    rw [lookup_retain_alive, lookup_retain_alive, h]
  exact Eq.to_iff (congrArg (v ∈ ·) hk)

end Keyed.Map
