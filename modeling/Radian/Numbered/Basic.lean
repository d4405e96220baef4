import Mathlib.Data.List.Basic
import Mathlib.Data.List.Pairwise
import Mathlib.Tactic.Common

/-!
# Numbered messages over an untrusted channel

A sender gives every message the next number; a receiver hands up what it accepts, under the number
it takes a datagram for.  The channel delivers whatever it likes, as often as it likes.

- `Run` — sends and deliveries in any order.
- `Link.Forward` — a delivery that does not take the receiver back.
- `Ordered.deliver` — what is accepted by such deliveries is in strictly increasing order, so
  nothing is accepted twice.
-/

namespace Numbered

/-- The two ends.  `A` is what the sender is given, `M` what the receiver hands up. -/
structure Link (T R A M D : Type) where
  send : T → A → Option (D × T)
  /-- The number the next message goes out under. -/
  sends : T → Nat
  receive : R → D → Option M × R
  /-- The number a datagram is taken for. -/
  takes : R → D → Nat
  /-- One above the number accepted last. -/
  expects : R → Nat

/-- The ends, and what was sent and accepted so far. -/
structure World (T R A M D : Type) where
  sender : T
  sent : List (Nat × A × D)
  receiver : R
  got : List (Nat × M)

variable {T R A M D : Type}

namespace World

/-- The log of a message sent as `d`. -/
def send (L : Link T R A M D) (w : World T R A M D) (a : A) (d : D) (t : T) : World T R A M D :=
  { w with sender := t, sent := w.sent ++ [(L.sends w.sender, a, d)] }

def deliver (L : Link T R A M D) (w : World T R A M D) (d : D) : World T R A M D :=
  match L.receive w.receiver d with
  | (some m, r) => { w with receiver := r, got := w.got ++ [(L.takes w.receiver d, m)] }
  | (none, r) => { w with receiver := r }

/-- The numbers accepted, oldest first. -/
def accepted (w : World T R A M D) : List Nat := w.got.map Prod.fst

theorem deliver_accept {L : Link T R A M D} {w : World T R A M D} {d : D} {m : M} {r : R}
    (h : L.receive w.receiver d = (some m, r)) :
    w.deliver L d = { w with receiver := r, got := w.got ++ [(L.takes w.receiver d, m)] } := by
  simp [deliver, h]

theorem deliver_reject {L : Link T R A M D} {w : World T R A M D} {d : D} {r : R}
    (h : L.receive w.receiver d = (none, r)) : w.deliver L d = { w with receiver := r } := by
  simp [deliver, h]

@[simp] theorem deliver_sent {L : Link T R A M D} {w : World T R A M D} {d : D} :
    (w.deliver L d).sent = w.sent := by
  unfold deliver
  split <;> rfl

@[simp] theorem deliver_sender {L : Link T R A M D} {w : World T R A M D} {d : D} :
    (w.deliver L d).sender = w.sender := by
  unfold deliver
  split <;> rfl

end World

/-- From `w`, sends and deliveries that are allowed lead to `w'`. -/
inductive Run (L : Link T R A M D) (maySend : World T R A M D → A → Prop)
    (mayDeliver : World T R A M D → D → Prop) (w : World T R A M D) : World T R A M D → Prop where
  | refl : Run L maySend mayDeliver w w
  | send {w' a d t} : Run L maySend mayDeliver w w' → maySend w' a →
      L.send w'.sender a = some (d, t) → Run L maySend mayDeliver w (w'.send L a d t)
  | deliver {w' d} : Run L maySend mayDeliver w w' → mayDeliver w' d →
      Run L maySend mayDeliver w (w'.deliver L d)

/-- What every send and every delivery keep, a run keeps. -/
theorem Run.invariant {L : Link T R A M D} {maySend : World T R A M D → A → Prop}
    {mayDeliver : World T R A M D → D → Prop} {w w' : World T R A M D} {I : World T R A M D → Prop}
    (hsend : ∀ w a d t, I w → maySend w a → L.send w.sender a = some (d, t) → I (w.send L a d t))
    (hdeliver : ∀ w d, I w → mayDeliver w d → I (w.deliver L d))
    (h : Run L maySend mayDeliver w w') (hI : I w) : I w' := by
  induction h with
  | refl => exact hI
  | send _ hmay hsent ih => exact hsend _ _ _ _ ih hmay hsent
  | deliver _ hmay ih => exact hdeliver _ _ ih hmay

/-- A delivery of `d` to `r` that does not take the receiver back. -/
structure Link.Forward (L : Link T R A M D) (r : R) (d : D) : Prop where
  accept : ∀ m r', L.receive r d = (some m, r') →
    L.expects r ≤ L.takes r d ∧ L.expects r' = L.takes r d + 1
  reject : ∀ r', L.receive r d = (none, r') → L.expects r' = L.expects r

/-- The numbers accepted are in strictly increasing order, and the next one expected is one above
the last of them. -/
structure Ordered (L : Link T R A M D) (w : World T R A M D) : Prop where
  increasing : w.accepted.Pairwise (· < ·)
  below : ∀ c ∈ w.accepted, c < L.expects w.receiver
  newest : ∀ c ∈ w.accepted.getLast?, L.expects w.receiver = c + 1

namespace Ordered

variable {L : Link T R A M D} {w : World T R A M D}

theorem nothing (h : w.got = []) : Ordered L w := by
  have hempty : w.accepted = [] := by simp [World.accepted, h]
  constructor <;> simp [hempty]

/-- Sending does not change what was accepted. -/
theorem send {a : A} {d : D} {t : T} (h : Ordered L w) : Ordered L (w.send L a d t) :=
  ⟨h.increasing, h.below, h.newest⟩

theorem deliver {d : D} (h : Ordered L w) (hforward : L.Forward w.receiver d) :
    Ordered L (w.deliver L d) := by
  rcases hreceive : L.receive w.receiver d with ⟨m, r⟩
  cases m with
  | none =>
    have hexpects := hforward.reject r hreceive
    rw [World.deliver_reject hreceive]
    exact ⟨h.increasing, fun c hc => hexpects ▸ h.below c hc,
      fun c hc => hexpects ▸ h.newest c hc⟩
  | some m =>
    obtain ⟨hle, hexpects⟩ := hforward.accept m r hreceive
    rw [World.deliver_accept hreceive]
    have happend : World.accepted { w with
          receiver := r, got := w.got ++ [(L.takes w.receiver d, m)] } =
        w.accepted ++ [L.takes w.receiver d] := by
      simp [World.accepted]
    refine ⟨?_, ?_, ?_⟩
    · rw [happend, List.pairwise_append]
      refine ⟨h.increasing, List.pairwise_singleton _ _, ?_⟩
      intro c hc c' hc'
      have hbelow := h.below c hc
      rw [List.mem_singleton] at hc'
      omega
    · intro c hc
      rw [happend, List.mem_append, List.mem_singleton] at hc
      change c < L.expects r
      rcases hc with hc | hc
      · have hbelow := h.below c hc
        omega
      · omega
    · intro c hc
      rw [happend, List.getLast?_concat, Option.mem_some_iff] at hc
      change L.expects r = c + 1
      omega

/-- A number is accepted at most once. -/
theorem once (h : Ordered L w) : w.accepted.Nodup :=
  h.increasing.imp fun hlt => Nat.ne_of_lt hlt

end Ordered

end Numbered
