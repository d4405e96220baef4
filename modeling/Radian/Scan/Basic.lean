import Mathlib.Data.List.Basic
import Mathlib.Tactic.Common

/-!
# Scanning for a tag

A reader that is tried at every place of a string, the first success counting, and what it finds when
the place it is meant for has something before it.

- `first`, `within` — the first success anywhere, and the first one at a place of a prefix.
- `first_append` — a scan goes through the prefix, and then on.
- `first_eq_some_iff` — the scan gives what stands behind a prefix exactly when nothing else is read in it.
-/

namespace Scan

variable {α β : Type} (read : List α → Option β)

/-- The first success at any place of a string. -/
def first : List α → Option β
  | [] => none
  | a :: l => (read (a :: l)).or (first l)

/-- The first success at a place of `pre`, with `post` behind it. -/
def within : (pre post : List α) → Option β
  | [], _ => none
  | a :: pre, post => (read (a :: (pre ++ post))).or (within pre post)

variable {read} {pre post : List α} {b : β}

theorem first_append : first read (pre ++ post) = (within read pre post).or (first read post) := by
  induction pre with
  | nil => rfl
  | cons a pre ih => rw [List.cons_append, first, ih, within, Option.or_assoc]

theorem within_append (mid : List α) :
    within read (pre ++ mid) post = (within read pre (mid ++ post)).or (within read mid post) := by
  induction pre with
  | nil => rfl
  | cons a pre ih => rw [List.cons_append, within, ih, within, Option.or_assoc, List.append_assoc]

/-- A place where nothing is read is passed. -/
theorem within_cons_of_none {a : α} (h : read (a :: (pre ++ post)) = none) :
    within read (a :: pre) post = within read pre post := by
  rw [within, h, Option.none_or]

/-- Without a success in the prefix, or with the same one, the scan gives what follows it. -/
theorem first_eq_some_iff (hne : post ≠ []) (h : read post = some b) :
    first read (pre ++ post) = some b ↔ ∀ c, within read pre post = some c → c = b := by
  have hpost : first read post = some b := by
    obtain ⟨a, rest, rfl⟩ := List.exists_cons_of_ne_nil hne
    rw [first, h, Option.some_or]
  rw [first_append, hpost]
  cases within read pre post with
  | none => simp
  | some c => simp

theorem first_eq_none_iff {l : List α} :
    first read l = none ↔ ∀ before after, l = before ++ after → after ≠ [] → read after = none := by
  induction l with
  | nil =>
    simp only [first, true_iff]
    intro before after heq hne
    exact absurd (List.append_eq_nil_iff.mp heq.symm).2 hne
  | cons a l ih =>
    rw [first, Option.or_eq_none_iff, ih]
    constructor
    · rintro ⟨hread, hrest⟩ before after heq hne
      cases before with
      | nil =>
        rw [List.nil_append] at heq
        rwa [← heq]
      | cons c before =>
        rw [List.cons_append, List.cons.injEq] at heq
        exact hrest before after heq.2 hne
    · intro h
      refine ⟨h [] (a :: l) rfl (List.cons_ne_nil _ _), fun before after heq hne => ?_⟩
      exact h (a :: before) after (by rw [heq, List.cons_append]) hne

end Scan
