import Mathlib.Data.List.Basic
import Mathlib.Tactic.Common

/-!
# A reader behind a queue

A reader takes messages out of a queue in the order in which they were put in.  What it hands on of the
messages that are under way is settled, unless something else changes the reader first.

- `drain` — what a reader hands on of a whole queue.
- `Throughout` — what holds of the reader now and after each message.
- `drain_of_same` — messages that leave the reader as it is.
- `Unnoticed` — a change of the reader that no message notices may as well come last.
- `Repeats` — the same messages, some of them several times in a row.
-/

namespace Inbox

section Reader

variable {S M O : Type} {read : S → M → List O × S}

/-- What a reader hands on of the messages, and its state after them. -/
def drain (read : S → M → List O × S) : S → List M → List O × S
  | s, [] => ([], s)
  | s, m :: ms =>
      ((read s m).1 ++ (drain read (read s m).2 ms).1, (drain read (read s m).2 ms).2)

@[simp] theorem drain_nil (s : S) : drain read s [] = ([], s) := rfl

@[simp] theorem drain_cons (s : S) (m : M) (ms : List M) :
    drain read s (m :: ms) =
      ((read s m).1 ++ (drain read (read s m).2 ms).1, (drain read (read s m).2 ms).2) := rfl

theorem drain_append (s : S) (ms ms' : List M) :
    drain read s (ms ++ ms') = ((drain read s ms).1 ++ (drain read (drain read s ms).2 ms').1,
      (drain read (drain read s ms).2 ms').2) := by
  induction ms generalizing s with
  | nil => simp
  | cons m ms ih => simp [ih]

/-- `I` holds of the reader now and after each of the messages. -/
def Throughout (read : S → M → List O × S) (I : S → Prop) : S → List M → Prop
  | s, [] => I s
  | s, m :: ms => I s ∧ Throughout read I (read s m).2 ms

namespace Throughout

variable {I J : S → Prop} {s : S} {ms ms' : List M}

theorem now (h : Throughout read I s ms) : I s := by
  cases ms with
  | nil => exact h
  | cons m ms => exact h.1

theorem last (h : Throughout read I s ms) : I (drain read s ms).2 := by
  induction ms generalizing s with
  | nil => exact h
  | cons m ms ih => exact ih h.2

theorem mono (hmono : ∀ s, I s → J s) (h : Throughout read I s ms) : Throughout read J s ms := by
  induction ms generalizing s with
  | nil => exact hmono s h
  | cons m ms ih => exact ⟨hmono s h.1, ih h.2⟩

theorem append (h : Throughout read I s ms) (h' : Throughout read I (drain read s ms).2 ms') :
    Throughout read I s (ms ++ ms') := by
  induction ms generalizing s with
  | nil => exact h'
  | cons m ms ih => exact ⟨h.1, ih h.2 h'⟩

end Throughout

/-! ### Messages that leave the reader as it is -/

theorem drain_of_same {s : S} {ms : List M} (h : ∀ m ∈ ms, (read s m).2 = s) :
    drain read s ms = (ms.flatMap fun m => (read s m).1, s) := by
  induction ms with
  | nil => rfl
  | cons m ms ih =>
    obtain ⟨hm, hms⟩ := List.forall_mem_cons.mp h
    rw [drain_cons, hm, ih hms, List.flatMap_cons]

theorem Throughout.of_same {I : S → Prop} {s : S} {ms : List M} (h : ∀ m ∈ ms, (read s m).2 = s)
    (hs : I s) : Throughout read I s ms := by
  induction ms with
  | nil => exact hs
  | cons m ms ih =>
    obtain ⟨hm, hms⟩ := List.forall_mem_cons.mp h
    refine ⟨hs, ?_⟩
    rw [hm]
    exact ih hms

/-! ### A change that no message notices -/

/-- While `I` holds, which the messages keep, they are read the same before and after a change. -/
structure Unnoticed (read : S → M → List O × S) (f : S → S) (I : S → Prop) (ms : List M) : Prop where
  keeps : ∀ s, ∀ m ∈ ms, I s → I (read s m).2
  same : ∀ s, ∀ m ∈ ms, I s → read (f s) m = ((read s m).1, f (read s m).2)

namespace Unnoticed

variable {f : S → S} {I J : S → Prop} {s : S} {m : M} {ms : List M}

theorem tail (h : Unnoticed read f I (m :: ms)) : Unnoticed read f I ms :=
  ⟨fun s m' hm' => h.keeps s m' (List.mem_cons_of_mem m hm'),
    fun s m' hm' => h.same s m' (List.mem_cons_of_mem m hm')⟩

theorem drain_eq (h : Unnoticed read f I ms) (hs : I s) :
    drain read (f s) ms = ((drain read s ms).1, f (drain read s ms).2) := by
  induction ms generalizing s with
  | nil => rfl
  | cons m ms ih =>
    have hm : m ∈ m :: ms := List.mem_cons_self
    rw [drain_cons, h.same s m hm hs, ih h.tail (h.keeps s m hm hs), drain_cons]

theorem throughout (h : Unnoticed read f I ms) (hs : I s)
    (hJ : Throughout read (fun s => J (f s)) s ms) : Throughout read J (f s) ms := by
  induction ms generalizing s with
  | nil => exact hJ
  | cons m ms ih =>
    have hm : m ∈ m :: ms := List.mem_cons_self
    refine ⟨hJ.1, ?_⟩
    rw [h.same s m hm hs]
    exact ih h.tail (h.keeps s m hm hs) hJ.2

end Unnoticed

end Reader

/-! ### Repeated messages -/

section Repeats

variable {M : Type} {again : M → Prop}

/-- The same messages, those for which `again` holds one or more times in a row. -/
inductive Repeats (again : M → Prop) : List M → List M → Prop where
  | nil : Repeats again [] []
  | once (m : M) {ms ms' : List M} (h : Repeats again ms ms') : Repeats again (m :: ms) (m :: ms')
  | more {m : M} (hm : again m) {ms ms' : List M} (h : Repeats again (m :: ms) ms') :
      Repeats again (m :: m :: ms) ms'

namespace Repeats

protected theorem refl (ms : List M) : Repeats again ms ms := by
  induction ms with
  | nil => exact .nil
  | cons m ms ih => exact .once m ih

theorem append {ms ms' ns ns' : List M} (h : Repeats again ms ms') (h' : Repeats again ns ns') :
    Repeats again (ms ++ ns) (ms' ++ ns') := by
  induction h with
  | nil => exact h'
  | once m _ ih => exact .once m ih
  | more hm _ ih => exact .more hm ih

theorem replicate {m : M} (hm : again m) (n : Nat) : Repeats again (List.replicate (n + 1) m) [m] := by
  induction n with
  | zero => exact .once m .nil
  | succ n ih => exact .more hm ih

end Repeats

end Repeats

end Inbox
