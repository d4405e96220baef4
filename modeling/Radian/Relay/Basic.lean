import Mathlib.Data.List.Basic
import Mathlib.Tactic.Common

/-!
# A value relayed by deltas

A source changes a value and sends each change on as a delta to a copy.  What a delta says it says about
the value before it, so that none may be lost and none may overtake another.  A message may be one that
cannot be read, and nothing is promised once it comes first.

- `Leads` — from a value, the deltas under way lead to another.
- `Leads.snoc` — the source changes once more.
- `Accounted` — what has been sent is, in this order, applied, waiting or under way.
-/

namespace Relay

variable {D V : Type} {act : D → V → V}

/-- The deltas, one after the other, take `v` to `target`. -/
def Leads (act : D → V → V) : V → List (Option D) → V → Prop
  | v, [], target => v = target
  | v, some d :: ds, target => Leads act (act d v) ds target
  | _, none :: _, _ => True

theorem Leads.snoc {v target target' : V} {ds : List (Option D)} (h : Leads act v ds target)
    {m : Option D} (hm : ∀ d, m = some d → act d target = target') :
    Leads act v (ds ++ [m]) target' := by
  induction ds generalizing v with
  | nil =>
    cases m with
    | none => trivial
    | some d =>
      have hv : v = target := h
      exact hv ▸ hm d rfl
  | cons m' ds ih =>
    cases m' with
    | none => trivial
    | some d => exact ih h

/-- What has been sent is, in the order in which it was, applied, waiting or under way. -/
structure Accounted (sent : List (Option D)) (applied waiting : List D) (pending : List (Option D)) :
    Prop where
  sent : sent = (applied ++ waiting).map some ++ pending

namespace Accounted

variable {sent pending : List (Option D)} {applied waiting : List D} {m : Option D} {d : D}

theorem send (h : Accounted sent applied waiting pending) :
    Accounted (sent ++ [m]) applied waiting (pending ++ [m]) :=
  ⟨by rw [h.sent, List.append_assoc]⟩

/-- The first message under way arrives, and waits behind the others. -/
theorem arrive (h : Accounted sent applied waiting (some d :: pending)) :
    Accounted sent applied (waiting ++ [d]) pending :=
  ⟨by rw [h.sent]; simp⟩

/-- The first delta that waits is applied. -/
theorem apply (h : Accounted sent applied (d :: waiting) pending) :
    Accounted sent (applied ++ [d]) waiting pending :=
  ⟨by rw [h.sent]; simp⟩

end Accounted

end Relay
