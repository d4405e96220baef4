import Radian.Keyed.Basic

/-!
# Tables of encoded rows

Tables of a transactional store: rows of encoded values by key, in a table that is there from the
first transaction that opens it for writing.

- `Table` — the table, read and written row by row.
- `Table.Encodes` — the rows decode to what a map holds.
-/

namespace Keyed

variable {K B V : Type} [DecidableEq K]

/-- A table, when some transaction has opened it for writing. -/
abbrev Table (K B : Type) : Type := Option (Map K B)

namespace Table

/-! ### Transactions -/

/-- The rows a writer finds. -/
def rows (t : Table K B) : Map K B := t.getD ∅

/-- What a reader finds under a key; nothing when there is no table. -/
def row (t : Table K B) (k : K) : Option B := t.bind fun m => m.lookup k

def insert (t : Table K B) (k : K) (b : B) : Table K B := some (t.rows.insert k b)

def erase (t : Table K B) (k : K) : Table K B := some (t.rows.erase k)

/-- Collect the keys with property `p`, then erase one after the other. -/
def eraseWhere (t : Table K B) (p : K → Bool) : Table K B :=
  some (t.rows.eraseAll (t.rows.keys.filter p))

/-- The rows a reader lists. -/
def list (t : Table K B) : List (K × B) := t.rows.entries.map fun e => (e.1, e.2)

theorem lookup_rows (t : Table K B) (k : K) : t.rows.lookup k = t.row k := by
  cases t with
  | none => rfl
  | some m => rfl

theorem row_insert (t : Table K B) (k k' : K) (b : B) :
    (t.insert k b).row k' = if k' = k then some b else t.row k' := by
  rw [← lookup_rows t]
  exact Map.lookup_insert_eq t.rows k k' b

theorem row_erase (t : Table K B) (k k' : K) :
    (t.erase k).row k' = if k' = k then none else t.row k' := by
  rw [← lookup_rows t]
  exact Map.lookup_erase_eq t.rows k k'

theorem row_eraseWhere (t : Table K B) (p : K → Bool) (k : K) :
    (t.eraseWhere p).row k = if p k then none else t.row k := by
  have hread : (t.eraseWhere p).row k = (t.rows.eraseAll (t.rows.keys.filter p)).lookup k := rfl
  rw [hread, Map.lookup_eraseAll, lookup_rows]
  by_cases hp : p k
  · rw [if_pos hp, ite_eq_left_iff]
    intro hmem
    have hkey : k ∉ t.rows.keys := fun hkey => hmem (List.mem_filter.mpr ⟨hkey, hp⟩)
    rw [← lookup_rows]
    exact AList.lookup_eq_none.mpr fun hin => hkey (AList.mem_keys.mp hin)
  · rw [if_neg hp, if_neg]
    exact fun hmem => hp (List.mem_filter.mp hmem).2

theorem mem_list {t : Table K B} {k : K} {b : B} : (k, b) ∈ t.list ↔ t.row k = some b := by
  rw [← lookup_rows, Map.lookup_eq_some_iff]
  constructor
  · intro h
    obtain ⟨e, he, heq⟩ := List.mem_map.mp h
    cases heq
    exact he
  · exact fun h => List.mem_map.mpr ⟨_, h, rfl⟩

/-! ### Encodings -/

/-- A key has a row where the map holds a value, and the row decodes to it. -/
def Encodes (decode : K → B → Option V) (t : Table K B) (m : K → Option V) : Prop :=
  ∀ k, (t.row k).map (decode k) = (m k).map some

namespace Encodes

variable {decode : K → B → Option V} {t : Table K B} {m m' : K → Option V}

theorem empty : Encodes decode (some ∅) fun _ => none := fun _ => rfl

theorem absent : Encodes decode none fun _ => none := fun _ => rfl

theorem read (h : Encodes decode t m) (k : K) : (t.row k).bind (decode k) = m k := by
  have hk := h k
  cases hrow : t.row k with
  | none =>
    rw [hrow] at hk
    cases hm : m k with
    | none => rfl
    | some v => simp [hm] at hk
  | some b =>
    rw [hrow] at hk
    cases hm : m k with
    | none => simp [hm] at hk
    | some v =>
      rw [hm, Option.map_some, Option.map_some, Option.some.injEq] at hk
      exact hk

theorem isSome (h : Encodes decode t m) (k : K) : (t.row k).isSome = (m k).isSome := by
  have hk := congrArg Option.isSome (h k)
  simpa only [Option.isSome_map] using hk

theorem row_eq_none (h : Encodes decode t m) {k : K} (hm : m k = none) : t.row k = none := by
  have hk := h.isSome k
  rwa [hm, Option.isSome_none, Option.isSome_eq_false_iff, Option.isNone_iff_eq_none] at hk

theorem insert (h : Encodes decode t m) {k : K} {b : B} {v : V} (hb : decode k b = some v)
    (hm : ∀ k', m' k' = if k' = k then some v else m k') : Encodes decode (t.insert k b) m' := by
  intro k'
  rw [row_insert, hm]
  split
  · rename_i heq
    rw [heq, Option.map_some, Option.map_some, hb]
  · exact h k'

theorem erase (h : Encodes decode t m) {k : K}
    (hm : ∀ k', m' k' = if k' = k then none else m k') : Encodes decode (t.erase k) m' := by
  intro k'
  rw [row_erase, hm]
  split
  · rfl
  · exact h k'

theorem eraseWhere (h : Encodes decode t m) {p : K → Bool}
    (hm : ∀ k, m' k = if p k then none else m k) : Encodes decode (t.eraseWhere p) m' := by
  intro k
  rw [row_eraseWhere, hm]
  split
  · rfl
  · exact h k

/-- The rows that decode are the entries of the map. -/
theorem mem_listed (h : Encodes decode t m) {k : K} {v : V} :
    (k, v) ∈ (t.list.filterMap fun (k, b) => (decode k b).map fun v => (k, v)) ↔ m k = some v := by
  rw [List.mem_filterMap, ← h.read k]
  constructor
  · rintro ⟨⟨k', b⟩, hmem, hdecode⟩
    obtain ⟨v', hv', heq⟩ := Option.map_eq_some_iff.mp hdecode
    cases heq
    rw [mem_list.mp hmem]
    exact hv'
  · intro hread
    obtain ⟨b, hrow, hv⟩ := Option.bind_eq_some_iff.mp hread
    exact ⟨(k, b), mem_list.mpr hrow, Option.map_eq_some_iff.mpr ⟨v, hv, rfl⟩⟩

end Encodes

end Table

end Keyed
