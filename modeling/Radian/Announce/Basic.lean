import Mathlib.Data.List.Basic
import Mathlib.Order.Nat
import Mathlib.Tactic.Common

/-!
# Announcing a value over a lossy line

A sender has a value that changes, and a receiver has heard one.  Messages travel on one line in their
order, and any of them may be lost.  They are numbered; the last is outstanding, and may be sent again,
until an answer comes.  Not every message carries the value.

- `Told` — the receiver has the current value, and nothing on the line will change that.
- `Line`, `Line.Ordered` — what is on the line, and in which order.
- `Telling` — the invariant: the receiver has been told, or what is outstanding will tell it.
- `Telling.send`, `Telling.resend`, `Telling.deliver`, `Telling.lose`, `Telling.answer` — its rules.
-/

namespace Announce

variable {M α : Type}

/-- What a receiver that has heard `heard` knows after a message. -/
def hear (view : M → Option α) (m : M) (heard : Option α) : Option α := view m <|> heard

/-- The receiver has the current value, and what is on the line carries no other. -/
structure Told (view : M → Option α) (current heard : Option α) (flight : List M) : Prop where
  heard : heard = current
  flight : ∀ m ∈ flight, ∀ v, view m = some v → current = some v

/-- A line: the messages on their way, the first sent first; the numbers of the answers on theirs; how
many messages there have been; the one that is outstanding. -/
structure Line (M : Type) where
  flight : List M
  answers : List Nat
  count : Nat
  outstanding : Option M

variable (number : M → Nat)

/-- Messages are on the line in the order of their numbers, and none has a number yet to come. -/
structure Line.Ordered (l : Line M) : Prop where
  flight : l.flight.Pairwise fun m m' => number m ≤ number m'
  sent : ∀ m ∈ l.flight, number m ≤ l.count
  answers : ∀ n ∈ l.answers, n ≤ l.count
  outstanding : ∀ m, l.outstanding = some m → number m = l.count

/-- The receiver of `view` has been told the current value, or what is outstanding carries it. -/
structure Telling (view : M → Option α) (current heard : Option α) (l : Line M) : Prop where
  quiet : l.outstanding = none → Told view current heard l.flight
  outstanding : ∀ m, l.outstanding = some m →
    (∃ v, view m = some v ∧ current = some v) ∨ Told view current heard l.flight
  fits : ∀ m, l.outstanding = some m → ∀ v, view m = some v → current = some v
  copies : ∀ m, l.outstanding = some m → ∀ m' ∈ l.flight, number m' = l.count → view m' = view m
  answered : l.count ∈ l.answers → Told view current heard l.flight

variable {number} {view : M → Option α} {current heard : Option α} {l : Line M} {m : M}
variable {flight : List M} {answers : List Nat}

/-! ### What the receiver has been told -/

theorem hear_of_some {v : α} (h : view m = some v) : hear view m heard = some v := by
  rw [hear, h]
  rfl

theorem hear_of_none (h : view m = none) : hear view m heard = heard := by
  rw [hear, h]
  rfl

namespace Told

theorem lose (h : Told view current heard (m :: flight)) : Told view current heard flight :=
  ⟨h.heard, fun m' hm' => h.flight m' (List.mem_cons_of_mem m hm')⟩

theorem deliver (h : Told view current heard (m :: flight)) :
    Told view current (hear view m heard) flight := by
  refine ⟨?_, h.lose.flight⟩
  cases hview : view m with
  | none => exact (hear_of_none hview).trans h.heard
  | some v => exact (hear_of_some hview).trans (h.flight m List.mem_cons_self v hview).symm

theorem send (h : Told view current heard flight) (hm : ∀ v, view m = some v → current = some v) :
    Told view current heard (flight ++ [m]) := by
  refine ⟨h.heard, fun m' hm' => ?_⟩
  obtain hm' | hm' := List.mem_append.mp hm'
  · exact h.flight m' hm'
  · obtain rfl := List.mem_singleton.mp hm'
    exact hm

end Told

/-! ### The line -/

namespace Line

/-- A new message. -/
def send (m : M) (l : Line M) : Line M :=
  { l with flight := l.flight ++ [m], count := l.count + 1, outstanding := some m }

/-- What is outstanding goes out again. -/
def resend (m : M) (l : Line M) : Line M := { l with flight := l.flight ++ [m] }

end Line

namespace Line.Ordered

theorem send (h : l.Ordered number) (hm : number m = l.count + 1) : (l.send m).Ordered number where
  flight := List.pairwise_append.mpr ⟨h.flight, List.pairwise_singleton _ _, fun m' hm' m'' hm'' => by
    obtain rfl := List.mem_singleton.mp hm''
    exact (h.sent m' hm').trans ((Nat.le_succ _).trans hm.ge)⟩
  sent m' hm' := by
    obtain hm' | hm' := List.mem_append.mp hm'
    · exact (h.sent m' hm').trans (Nat.le_succ _)
    · obtain rfl := List.mem_singleton.mp hm'
      exact hm.le
  answers n hn := (h.answers n hn).trans (Nat.le_succ _)
  outstanding m' hm' := by
    cases hm'
    exact hm

theorem resend (h : l.Ordered number) (hm : l.outstanding = some m) :
    (l.resend m).Ordered number where
  flight := List.pairwise_append.mpr ⟨h.flight, List.pairwise_singleton _ _, fun m' hm' m'' hm'' => by
    obtain rfl := List.mem_singleton.mp hm''
    exact (h.sent m' hm').trans (h.outstanding m'' hm).ge⟩
  sent m' hm' := by
    obtain hm' | hm' := List.mem_append.mp hm'
    · exact h.sent m' hm'
    · obtain rfl := List.mem_singleton.mp hm'
      exact (h.outstanding m' hm).le
  answers := h.answers
  outstanding := h.outstanding

/-- A message leaves the line, and may be answered. -/
theorem leave (h : l.Ordered number) (hflight : l.flight = m :: flight)
    (hanswers : ∀ n ∈ answers, n ∈ l.answers ∨ n = number m) :
    Line.Ordered number { l with flight, answers } where
  flight := (List.pairwise_cons.mp (hflight ▸ h.flight)).2
  sent m' hm' := h.sent m' (hflight ▸ List.mem_cons_of_mem m hm')
  answers n hn := by
    obtain hn | rfl := hanswers n hn
    · exact h.answers n hn
    · exact h.sent m (hflight ▸ List.mem_cons_self)
  outstanding := h.outstanding

/-- An answer leaves the line. -/
theorem answer (h : l.Ordered number) (hanswers : answers ⊆ l.answers) {outstanding : Option M}
    (hout : ∀ m, outstanding = some m → l.outstanding = some m) :
    Line.Ordered number { l with answers, outstanding } where
  flight := h.flight
  sent := h.sent
  answers n hn := h.answers n (hanswers hn)
  outstanding m hm := h.outstanding m (hout m hm)

end Line.Ordered

/-! ### The rules -/

namespace Telling

variable {current' : Option α}

/-- A new message tells the new value, or the receiver has that already. -/
theorem send (ho : l.Ordered number) (hfits : ∀ v, view m = some v → current' = some v)
    (hcovers : (∃ v, view m = some v) ∨ Told view current' heard l.flight) :
    Telling number view current' heard (l.send m) where
  quiet hout := by cases hout
  outstanding m' hm' := by
    cases hm'
    exact hcovers.imp (fun ⟨v, hv⟩ => ⟨v, hv, hfits v hv⟩) fun htold => htold.send hfits
  fits m' hm' := by
    cases hm'
    exact hfits
  copies m' hm' m'' hm'' hnumber := by
    cases hm'
    obtain hm'' | hm'' := List.mem_append.mp hm''
    · have hle := ho.sent m'' hm''
      have hnew : number m'' = l.count + 1 := hnumber
      omega
    · rw [List.mem_singleton.mp hm'']
  answered hanswered := absurd (ho.answers _ hanswered) (Nat.not_succ_le_self _)

theorem resend (h : Telling number view current heard l) (hm : l.outstanding = some m) :
    Telling number view current heard (l.resend m) where
  quiet hout := by
    have hnone : l.outstanding = none := hout
    rw [hm] at hnone
    cases hnone
  outstanding m' hm' := (h.outstanding m' hm').imp_right fun htold => htold.send (h.fits m hm)
  fits := h.fits
  copies m' hm' m'' hm'' hnumber := by
    have hsame : m = m' := Option.mem_unique hm hm'
    obtain hm'' | hm'' := List.mem_append.mp hm''
    · exact h.copies m' hm' m'' hm'' hnumber
    · rw [List.mem_singleton.mp hm'', hsame]
  answered hanswered := (h.answered hanswered).send (h.fits m hm)

/-- A message that is lost to this receiver. -/
theorem lose (h : Telling number view current heard l) (hflight : l.flight = m :: flight)
    (hanswers : answers ⊆ l.answers) :
    Telling number view current heard { l with flight, answers } where
  quiet hout := (hflight ▸ h.quiet hout).lose
  outstanding m' hm' := (h.outstanding m' hm').imp_right fun htold => (hflight ▸ htold).lose
  fits := h.fits
  copies m' hm' m'' hm'' := h.copies m' hm' m'' (hflight ▸ List.mem_cons_of_mem m hm'')
  answered hanswered := (hflight ▸ h.answered (hanswers hanswered)).lose

/-- A message that reaches this receiver, and may be answered. -/
theorem deliver (h : Telling number view current heard l) (ho : l.Ordered number)
    (hflight : l.flight = m :: flight) (hanswers : ∀ n ∈ answers, n ∈ l.answers ∨ n = number m) :
    Telling number view current (hear view m heard) { l with flight, answers } where
  quiet hout := (hflight ▸ h.quiet hout).deliver
  outstanding m' hm' := (h.outstanding m' hm').imp_right fun htold => (hflight ▸ htold).deliver
  fits := h.fits
  copies m' hm' m'' hm'' := h.copies m' hm' m'' (hflight ▸ List.mem_cons_of_mem m hm'')
  answered hanswered := by
    obtain hold | hnumber := hanswers _ hanswered
    · exact (hflight ▸ h.answered hold).deliver
    · have hmem : m ∈ l.flight := hflight ▸ List.mem_cons_self
      cases hout : l.outstanding with
      | none => exact (hflight ▸ h.quiet hout).deliver
      | some p =>
        obtain ⟨v, hv, hcurrent⟩ | htold := h.outstanding p hout
        · -- the rest of the line is copies of the same message
          have hview : view m = some v := (h.copies p hout m hmem hnumber.symm).trans hv
          refine ⟨(hear_of_some hview).trans hcurrent.symm, fun m' hm' v' hv' => ?_⟩
          have hm'' : m' ∈ l.flight := hflight ▸ List.mem_cons_of_mem m hm'
          have hlater : number m ≤ number m' :=
            (List.pairwise_cons.mp (hflight ▸ ho.flight)).1 m' hm'
          have hsame : number m' = l.count :=
            le_antisymm (ho.sent m' hm'') (hnumber.le.trans hlater)
          exact h.fits p hout v' ((h.copies p hout m' hm'' hsame).symm.trans hv')
        · exact (hflight ▸ htold).deliver

/-- An answer to what is outstanding settles it. -/
theorem answer (h : Telling number view current heard l) {n : Nat} (hanswered : n ∈ l.answers)
    (hright : l.outstanding ≠ none → n = l.count) :
    Telling number view current heard { l with answers, outstanding := none } := by
  have htold : Told view current heard l.flight := by
    cases hout : l.outstanding with
    | none => exact h.quiet hout
    | some p => exact h.answered (hright (by rw [hout]; simp) ▸ hanswered)
  constructor
  · exact fun _ => htold
  · exact fun _ hm => nomatch hm
  · exact fun _ hm => nomatch hm
  · exact fun _ hm => nomatch hm
  · exact fun _ => htold

/-- An answer that is lost. -/
theorem forget (h : Telling number view current heard l) (hanswers : answers ⊆ l.answers) :
    Telling number view current heard { l with answers } :=
  ⟨h.quiet, h.outstanding, h.fits, h.copies, fun hanswered => h.answered (hanswers hanswered)⟩

end Telling

end Announce
