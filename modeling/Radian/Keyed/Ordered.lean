import Mathlib.Data.List.Sort
import Mathlib.Tactic.Common

/-!
# Lists ordered by a key

Rule lists in increasing order of a key, and which of their elements is the first to match.

- `Ordered.ext` — an ordered list is determined by its elements.
- `nodup_keys_iff` — the first element with a key is the last one for every key exactly when no key
  occurs twice.
- `find?_partition_iff` — moving the elements without a property behind the others changes the first
  match exactly when one of them is overtaken.
-/

namespace Keyed

section Order

variable {α : Type} {key : α → Nat}

/-- In strictly increasing order of the key. -/
def Ordered (key : α → Nat) (l : List α) : Prop := l.Pairwise fun a b => key a < key b

theorem Ordered.filter {l : List α} (h : Ordered key l) (p : α → Bool) : Ordered key (l.filter p) :=
  List.Pairwise.filter p h

theorem Ordered.nodup {l : List α} (h : Ordered key l) : (l.map key).Nodup := by
  rw [List.nodup_iff_pairwise_ne, List.pairwise_map]
  exact h.imp fun hlt => Nat.ne_of_lt hlt

/-- Ordered lists with the same elements are equal. -/
theorem Ordered.ext {l l' : List α} (h : Ordered key l) (h' : Ordered key l')
    (hmem : ∀ a, a ∈ l ↔ a ∈ l') : l = l' := by
  have hperm : l.Perm l' :=
    (List.perm_ext_iff_of_nodup (List.Nodup.of_map key h.nodup)
      (List.Nodup.of_map key h'.nodup)).mpr hmem
  apply hperm.eq_of_pairwise _ h h'
  intro a b _ _ hab hba
  omega

/-- A list ordered by a key that is not strict, with distinct keys. -/
theorem ordered_of_le {l : List α} (h : l.Pairwise fun a b => key a ≤ key b)
    (hnodup : (l.map key).Nodup) : Ordered key l := by
  rw [List.nodup_iff_pairwise_ne, List.pairwise_map] at hnodup
  exact h.imp₂ (fun a b hle hne => Nat.lt_of_le_of_ne hle hne) hnodup

/-- The first match in an ordered list is the one of least key. -/
theorem Ordered.find?_eq_some_iff {l : List α} (h : Ordered key l) {p : α → Bool} {a : α} :
    l.find? p = some a ↔ a ∈ l ∧ p a = true ∧ ∀ b ∈ l, p b = true → key a ≤ key b := by
  constructor
  · intro hfind
    obtain ⟨hp, before, after, rfl, hbefore⟩ := List.find?_eq_some_iff_append.mp hfind
    refine ⟨by simp, hp, fun b hb hpb => ?_⟩
    rcases List.mem_append.mp hb with hb | hb
    · exact absurd hpb (by simpa using hbefore b hb)
    · rcases List.mem_cons.mp hb with rfl | hb
      · exact le_rfl
      · exact ((List.pairwise_cons.mp (List.pairwise_append.mp h).2.1).1 b hb).le
  · rintro ⟨ha, hp, hleast⟩
    obtain ⟨b, hb⟩ := Option.isSome_iff_exists.mp (List.find?_isSome.mpr ⟨a, ha, hp⟩)
    obtain ⟨hpb, before, after, rfl, hbefore⟩ := List.find?_eq_some_iff_append.mp hb
    have hle := hleast b (by simp) hpb
    rcases List.mem_append.mp ha with ha | ha
    · exact absurd hp (by simpa using hbefore a ha)
    · rcases List.mem_cons.mp ha with rfl | ha
      · exact hb
      · have hlt := (List.pairwise_cons.mp (List.pairwise_append.mp h).2.1).1 a ha
        omega

/-- A new element in the place of what has its key. -/
theorem Ordered.replace {l : List α} (h : Ordered key l) (a : α) :
    Ordered key (((l.filter fun b => key b != key a) ++ [a]).insertionSort fun a b => key a ≤ key b) := by
  have : Std.Total fun a b : α => key a ≤ key b := ⟨fun a b => Nat.le_total (key a) (key b)⟩
  have : IsTrans α fun a b : α => key a ≤ key b := ⟨fun _ _ _ => Nat.le_trans⟩
  apply ordered_of_le (List.pairwise_insertionSort _ _)
  rw [((List.perm_insertionSort _ _).map key).nodup_iff, List.map_append]
  refine List.nodup_append.mpr ⟨(h.filter _).nodup, List.nodup_singleton _, ?_⟩
  intro k hk k' hk' heq
  obtain ⟨b, hb, rfl⟩ := List.mem_map.mp hk
  rw [List.map_singleton, List.mem_singleton] at hk'
  have hne := (List.mem_filter.mp hb).2
  rw [heq, hk'] at hne
  simp at hne

end Order

section Repeats

variable {α κ : Type} [DecidableEq κ] {key : α → κ}

/-- With distinct keys any element is the first one with its key. -/
theorem find?_eq_of_nodup {l : List α} (h : (l.map key).Nodup) {a : α} (ha : a ∈ l) :
    (l.find? fun x => key x = key a) = some a := by
  induction l with
  | nil => exact absurd ha List.not_mem_nil
  | cons b l ih =>
    rw [List.map_cons, List.nodup_cons] at h
    obtain rfl | hmem := List.mem_cons.mp ha
    · simp
    · have hne : key b ≠ key a := fun heq => h.1 (heq ▸ List.mem_map_of_mem hmem)
      rw [List.find?_cons_of_neg (by simpa using hne)]
      exact ih h.2 hmem

/-- For every key the first element with it is the last one exactly when no key occurs twice. -/
theorem nodup_keys_iff {l : List α} (hl : l.Nodup) :
    (∀ k, (l.find? fun x => key x = k) = l.reverse.find? fun x => key x = k) ↔
      (l.map key).Nodup := by
  constructor
  · intro h
    induction l with
    | nil => exact List.nodup_nil
    | cons a l ih =>
      rw [List.nodup_cons] at hl
      have hfresh : key a ∉ l.map key := by
        intro hmem
        obtain ⟨b, hb, hkey⟩ := List.mem_map.mp hmem
        have hfound := h (key a)
        have hsome : (l.reverse.find? fun x => key x = key a).isSome = true := by
          rw [List.find?_isSome]
          exact ⟨b, List.mem_reverse.mpr hb, by simp [hkey]⟩
        obtain ⟨c, hc⟩ := Option.isSome_iff_exists.mp hsome
        rw [List.find?_cons_of_pos (by simp), List.reverse_cons, List.find?_append, hc,
          Option.some_or, Option.some_inj] at hfound
        subst hfound
        exact hl.1 (List.mem_reverse.mp (List.mem_of_find?_eq_some hc))
      rw [List.map_cons, List.nodup_cons]
      refine ⟨hfresh, ih hl.2 fun k => ?_⟩
      by_cases hk : key a = k
      · subst hk
        have hnone : ∀ xs : List α, (∀ x ∈ xs, x ∈ l) → (xs.find? fun x => key x = key a) = none := by
          intro xs hsub
          rw [List.find?_eq_none]
          intro x hx hsame
          exact hfresh (List.mem_map.mpr ⟨x, hsub x hx, by simpa using hsame⟩)
        rw [hnone l fun _ hx => hx, hnone l.reverse fun _ hx => List.mem_reverse.mp hx]
      · have hfound := h k
        rwa [List.find?_cons_of_neg (by simpa using hk), List.reverse_cons, List.find?_append,
          List.find?_singleton, decide_eq_false hk, if_neg Bool.false_ne_true,
          Option.or_none] at hfound
  · intro h k
    rcases hfound : l.find? fun x => key x = k with _ | a
    · symm
      rw [List.find?_eq_none] at hfound ⊢
      exact fun x hx => hfound x (List.mem_reverse.mp hx)
    · have hkey : key a = k := by simpa using List.find?_some hfound
      have hrev : (l.reverse.map key).Nodup := by
        rw [List.map_reverse, List.nodup_reverse]
        exact h
      rw [← hkey]
      exact (find?_eq_of_nodup hrev
        (List.mem_reverse.mpr (List.mem_of_find?_eq_some hfound))).symm

end Repeats

section FirstMatch

variable {α : Type} {p q : α → Bool} {l : List α}

/-- The first match, if it is kept, is the first match of what is kept. -/
theorem find?_filter_of_kept {a : α} (h : l.find? p = some a) (hq : q a = true) :
    (l.filter q).find? p = some a := by
  induction l with
  | nil => exact absurd h (by simp)
  | cons b l ih =>
    cases hp : p b with
    | true =>
      rw [List.find?_cons_of_pos hp, Option.some_inj] at h
      rw [h, List.filter_cons_of_pos hq, List.find?_cons_of_pos (h ▸ hp)]
    | false =>
      rw [List.find?_cons_of_neg (by simp [hp])] at h
      cases hqb : q b with
      | true =>
        rw [List.filter_cons_of_pos hqb, List.find?_cons_of_neg (by simp [hp])]
        exact ih h
      | false =>
        rw [List.filter_cons_of_neg (by simp [hqb])]
        exact ih h

/-- The first match stays the first one, with the elements without `q` behind the others, exactly
when it has `q` or nothing with `q` matches. -/
theorem find?_partition_iff {a : α} (h : l.find? p = some a) :
    (l.filter q ++ l.filter fun x => !q x).find? p = some a ↔
      (q a = true ∨ ∀ g ∈ l, q g = true → p g = false) := by
  rw [List.find?_append]
  constructor
  · intro hfound
    rcases hkept : (l.filter q).find? p with _ | g
    · rw [List.find?_eq_none] at hkept
      refine Or.inr fun g hg hqg => ?_
      have hnot := hkept g (List.mem_filter.mpr ⟨hg, hqg⟩)
      simpa using hnot
    · rw [hkept, Option.some_or, Option.some_inj] at hfound
      have hmem := List.mem_of_find?_eq_some hkept
      rw [hfound] at hmem
      exact Or.inl (List.mem_filter.mp hmem).2
  · rintro (hq | hnone)
    · rw [find?_filter_of_kept h hq, Option.some_or]
    · have hkept : (l.filter q).find? p = none := by
        rw [List.find?_eq_none]
        intro g hg
        obtain ⟨hmem, hqg⟩ := List.mem_filter.mp hg
        rw [hnone g hmem hqg]
        exact Bool.false_ne_true
      have hqa : q a = false := by
        cases hqa : q a with
        | true =>
          have hp := List.find?_some h
          rw [hnone a (List.mem_of_find?_eq_some h) hqa] at hp
          exact absurd hp Bool.false_ne_true
        | false => rfl
      have hrest : (l.filter fun x => !q x).find? p = some a :=
        find?_filter_of_kept h (by rw [hqa]; rfl)
      rw [hkept, hrest, Option.none_or]

/-- Without a match there is none in any order. -/
theorem find?_partition_none (h : l.find? p = none) :
    (l.filter q ++ l.filter fun x => !q x).find? p = none := by
  rw [List.find?_eq_none] at h ⊢
  intro g hg
  rw [List.mem_append] at hg
  rcases hg with hg | hg
  · exact h g (List.mem_filter.mp hg).1
  · exact h g (List.mem_filter.mp hg).1

end FirstMatch

end Keyed
