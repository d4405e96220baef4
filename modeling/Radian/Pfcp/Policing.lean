import Mathlib.Tactic.Ring
import Radian.Pfcp.Session
import Radian.Runs.Basic

/-!
# What a policer lets through

Token buckets over every sequence of packets and re-ratings.

- `Event`, `step`, `admits` — a bucket over time, and the bits it lets through.
- `never_over_admits` — no more than the burst and the rate allow, over any interval at one rate.
- `keepsCredit_iff` — refused packets cost credit exactly when the parts of a bit that each poll leaves out
  come to a bit.
-/

namespace Radian.Pfcp.TokenBucket

def NANOS : ℕ := 1000000000

/-! ### Runs -/

inductive Event where
  | poll (nowNanos bytes : ℕ)
  | setRate (rateBps nowNanos : ℕ)

def Event.time : Event → ℕ
  | .poll nowNanos _ | .setRate _ nowNanos => nowNanos

/-- The rate stays what it is. -/
def Event.Keeps (r : ℕ) : Event → Prop
  | .poll .. => True
  | .setRate rateBps _ => rateBps = r

/-- The bits of the packet can be counted. -/
def Event.Fits : Event → Prop
  | .poll _ bytes => bytes * 8 < 2 ^ 64
  | .setRate .. => True

def step (b : TokenBucket) : Event → TokenBucket
  | .poll nowNanos bytes => (b.poll nowNanos bytes).2
  | .setRate rateBps nowNanos => b.setRate rateBps nowNanos

/-- The bits that are let through. -/
def admits (b : TokenBucket) : Event → ℕ
  | .poll nowNanos bytes => if (b.poll nowNanos bytes).1 then bytes * 8 else 0
  | .setRate .. => 0

/-- Times that do not decrease, from `t` on. -/
def InOrder (t : ℕ) (es : List Event) : Prop := (t :: es.map Event.time).Pairwise (· ≤ ·)

/-- The level is within the capacity, which goes with the rate. -/
structure Valid (b : TokenBucket) : Prop where
  level : b.levelBits ≤ b.burstBits
  burst : b.burstBits = max b.rateBps MIN_BURST_BITS

variable {b : TokenBucket} {r t nowNanos bytes : ℕ} {e : Event} {es : List Event}

theorem valid_new (rateBps nowNanos : ℕ) : (new rateBps nowNanos).Valid := ⟨le_rfl, rfl⟩

/-! ### One event -/

/-- The credit for the time since the last refill. -/
def refill (b : TokenBucket) (nowNanos : ℕ) : ℕ :=
  b.rateBps * (nowNanos - b.lastNanos) / NANOS % 2 ^ 64

def refilled (b : TokenBucket) (nowNanos : ℕ) : ℕ :=
  min (saturatingAdd b.levelBits (b.refill nowNanos)) b.burstBits

/-- What a poll does: it refills, and takes what the packet needs if that is there. -/
theorem poll_cases (hr : b.rateBps ≠ 0) (nowNanos bytes : ℕ) :
    b.poll nowNanos bytes =
      if saturatingMul bytes 8 ≤ b.refilled nowNanos then
        (true, { b with
          levelBits := b.refilled nowNanos - saturatingMul bytes 8, lastNanos := nowNanos })
      else (false, { b with levelBits := b.refilled nowNanos, lastNanos := nowNanos }) := by
  unfold poll
  rw [if_neg hr]
  rfl

theorem refilled_le (b : TokenBucket) (nowNanos : ℕ) : b.refilled nowNanos ≤ b.burstBits :=
  Nat.min_le_right ..

theorem refilled_le_credit (b : TokenBucket) (nowNanos : ℕ) :
    b.refilled nowNanos * NANOS ≤ b.levelBits * NANOS + b.rateBps * (nowNanos - b.lastNanos) := by
  have hadd : b.refilled nowNanos ≤ b.levelBits + b.refill nowNanos :=
    (Nat.min_le_left ..).trans (Nat.min_le_left ..)
  have hrefill : b.refill nowNanos * NANOS ≤ b.rateBps * (nowNanos - b.lastNanos) :=
    (Nat.mul_le_mul_right _ (Nat.mod_le ..)).trans (Nat.div_mul_le_self ..)
  calc b.refilled nowNanos * NANOS
      ≤ (b.levelBits + b.refill nowNanos) * NANOS := Nat.mul_le_mul_right _ hadd
    _ = b.levelBits * NANOS + b.refill nowNanos * NANOS := Nat.add_mul ..
    _ ≤ _ := Nat.add_le_add_left hrefill _

/-- An event at one rate refills the bucket and takes out what it lets through. -/
structure Draws (b : TokenBucket) (e : Event) : Prop where
  rate : (b.step e).rateBps = b.rateBps
  burst : (b.step e).burstBits = b.burstBits
  last : (b.step e).lastNanos = e.time
  level : b.admits e + (b.step e).levelBits = b.refilled e.time

theorem draws (h : b.Valid) (hr : 0 < b.rateBps) (hkeeps : e.Keeps b.rateBps) (hfits : e.Fits) :
    b.Draws e := by
  have hpoll := poll_cases (Nat.pos_iff_ne_zero.mp hr)
  cases e with
  | poll nowNanos bytes =>
    have hneed : saturatingMul bytes 8 = bytes * 8 := Nat.min_eq_left (Nat.le_pred_of_lt hfits)
    by_cases henough : bytes * 8 ≤ b.refilled nowNanos
    · have hadmitted := hpoll nowNanos bytes
      rw [hneed, if_pos henough] at hadmitted
      refine ⟨?_, ?_, ?_, ?_⟩ <;> simp only [step, admits, Event.time, hadmitted]
      rw [if_pos trivial]
      exact Nat.add_sub_of_le henough
    · have hrefused := hpoll nowNanos bytes
      rw [hneed, if_neg henough] at hrefused
      refine ⟨?_, ?_, ?_, ?_⟩ <;> simp only [step, admits, Event.time, hrefused]
      rw [if_neg Bool.false_ne_true, Nat.zero_add]
  | setRate rateBps nowNanos =>
    obtain rfl : rateBps = b.rateBps := hkeeps
    have hlevel := hpoll nowNanos 0
    have hnone : saturatingMul 0 8 = 0 := rfl
    rw [hnone, if_pos (Nat.zero_le _), Nat.sub_zero] at hlevel
    refine ⟨rfl, h.burst.symm, rfl, ?_⟩
    have hburst : (new b.rateBps nowNanos).burstBits = b.burstBits := h.burst.symm
    simp only [step, admits, setRate, hlevel, hburst, Event.time, Nat.zero_add]
    exact Nat.min_eq_left (b.refilled_le nowNanos)

theorem Valid.step (h : b.Valid) (e : Event) : (b.step e).Valid := by
  cases e with
  | poll nowNanos bytes =>
    by_cases hr : b.rateBps = 0
    · have hsame : b.poll nowNanos bytes = (true, b) := by
        unfold poll
        rw [if_pos hr]
      simp only [TokenBucket.step, hsame]
      exact h
    · have hpoll := poll_cases hr nowNanos bytes
      simp only [TokenBucket.step, hpoll]
      split
      · exact ⟨(Nat.sub_le ..).trans (b.refilled_le nowNanos), h.burst⟩
      · exact ⟨b.refilled_le nowNanos, h.burst⟩
  | setRate rateBps nowNanos => exact ⟨Nat.min_le_right .., rfl⟩

theorem Valid.run (h : b.Valid) (es : List Event) : (Runs.run TokenBucket.step b es).Valid :=
  Runs.invariant_of_step (fun _ e hb => hb.step e) es h

/-! ### Intervals -/

/-- At one rate a bucket lets through its level and what the time brings. -/
theorem admitted_le (h : b.Valid) (hr : 0 < b.rateBps) (hkeeps : ∀ e ∈ es, e.Keeps b.rateBps)
    (hfits : ∀ e ∈ es, e.Fits) (horder : InOrder b.lastNanos es) {t₂ : ℕ} (hlast : b.lastNanos ≤ t₂)
    (hend : ∀ e ∈ es, e.time ≤ t₂) :
    Runs.tally step admits b es * NANOS ≤ b.levelBits * NANOS + b.rateBps * (t₂ - b.lastNanos) := by
  induction es generalizing b with
  | nil =>
    rw [Runs.tally, Nat.zero_mul]
    exact Nat.zero_le _
  | cons e es ih =>
    have hdraws := draws h hr (hkeeps e List.mem_cons_self) (hfits e List.mem_cons_self)
    have htime : b.lastNanos ≤ e.time :=
      (List.pairwise_cons.mp horder).1 _ (List.mem_map_of_mem List.mem_cons_self)
    have hrest : InOrder (b.step e).lastNanos es := by
      rw [hdraws.last]
      exact (List.pairwise_cons.mp horder).2
    have hbefore := hend e List.mem_cons_self
    have hih := ih (h.step e) (hdraws.rate ▸ hr)
      (fun e' he' => hdraws.rate ▸ hkeeps e' (.tail _ he')) (fun e' he' => hfits e' (.tail _ he')) hrest
      (hdraws.last ▸ hbefore) fun e' he' => hend e' (.tail _ he')
    rw [hdraws.rate, hdraws.last] at hih
    have hcredit := b.refilled_le_credit e.time
    rw [← hdraws.level, Nat.add_mul] at hcredit
    have htimes : b.rateBps * (e.time - b.lastNanos) + b.rateBps * (t₂ - e.time) =
        b.rateBps * (t₂ - b.lastNanos) := by
      rw [← Nat.mul_add]
      congr 1
      omega
    rw [Runs.tally, Nat.add_mul]
    omega

/-- **No more than the rate.** In any interval in which the rate is `r`, the bits let through are at most the
burst and what the time brings; and the level is never above the capacity. -/
theorem never_over_admits (rate₀ t₀ : ℕ) (before window : List Event) {r t₁ t₂ : ℕ} (hr : 0 < r)
    (horder : InOrder t₀ (before ++ window)) (hfits : ∀ e ∈ window, e.Fits)
    (hrate : (Runs.run step (new rate₀ t₀) before).rateBps = r)
    (hkeeps : ∀ e ∈ window, e.Keeps r) (hwithin : ∀ e ∈ window, t₁ ≤ e.time ∧ e.time ≤ t₂) :
    Runs.tally step admits (Runs.run step (new rate₀ t₀) before) window * NANOS ≤
        max r MIN_BURST_BITS * NANOS + r * (t₂ - t₁) ∧
      (Runs.run step (new rate₀ t₀) (before ++ window)).levelBits ≤
        (Runs.run step (new rate₀ t₀) (before ++ window)).burstBits := by
  refine ⟨?_, ((valid_new rate₀ t₀).run (before ++ window)).level⟩
  have hvalid := (valid_new rate₀ t₀).run before
  revert hvalid hrate
  generalize Runs.run step (new rate₀ t₀) before = b
  intro hrate hvalid
  subst hrate
  cases window with
  | nil =>
      rw [Runs.tally, Nat.zero_mul]
      exact Nat.zero_le _
  | cons e es =>
      have hdraws := draws hvalid hr (hkeeps e List.mem_cons_self) (hfits e List.mem_cons_self)
      obtain ⟨hfrom, hto⟩ := hwithin e List.mem_cons_self
      have hrest : InOrder (b.step e).lastNanos es := by
        rw [hdraws.last]
        have hsuffix : ((e :: es).map Event.time).Sublist (t₀ :: (before ++ e :: es).map Event.time) := by
          rw [List.map_append]
          exact (List.sublist_append_right ..).cons _
        exact List.Pairwise.sublist hsuffix horder
      have hlater := admitted_le (hvalid.step e) (hdraws.rate ▸ hr)
        (fun e' he' => hdraws.rate ▸ hkeeps e' (.tail _ he')) (fun e' he' => hfits e' (.tail _ he')) hrest
        (hdraws.last ▸ hto) fun e' he' => (hwithin e' (.tail _ he')).2
      rw [hdraws.rate, hdraws.last] at hlater
      -- the first refill, however long it took to come, fills the bucket at most
      have hfirst : (b.admits e + (b.step e).levelBits) * NANOS ≤ max b.rateBps MIN_BURST_BITS * NANOS := by
        rw [hdraws.level, ← hvalid.burst]
        exact Nat.mul_le_mul_right _ (b.refilled_le e.time)
      have htimes : b.rateBps * (t₂ - e.time) ≤ b.rateBps * (t₂ - t₁) := Nat.mul_le_mul_left _ (by omega)
      rw [Nat.add_mul] at hfirst
      rw [Runs.tally, Nat.add_mul]
      omega

/-- A burst, and a packet when there is credit for it again. -/
def burst : List Event := [.poll 0 10000, .poll 50000000 1000, .poll 100000000 1000]

theorem never_over_admits_sample :
    Runs.tally step admits (Runs.run step (new 80000 0) []) burst * NANOS ≤
        max 80000 MIN_BURST_BITS * NANOS + 80000 * (100000000 - 0) ∧
      (Runs.run step (new 80000 0) ([] ++ burst)).levelBits ≤
        (Runs.run step (new 80000 0) ([] ++ burst)).burstBits := by
  refine never_over_admits 80000 0 [] burst (by decide) ?_ ?_ rfl ?_ ?_
  · unfold InOrder burst
    decide
  · simp [burst, Event.Fits]
  · simp [burst, Event.Keeps]
  · simp [burst, Event.time]

/-! ### Refused packets -/

/-- A bucket polled by packets, each a time and a size. -/
def polls (b : TokenBucket) (ps : List (ℕ × ℕ)) : TokenBucket := ps.foldl (fun b p => (b.poll p.1 p.2).2) b

/-- Every packet is refused. -/
def Refuses : TokenBucket → List (ℕ × ℕ) → Prop
  | _, [] => True
  | b, p :: ps => (b.poll p.1 p.2).1 = false ∧ Refuses (b.poll p.1 p.2).2 ps

/-- The times of polls do not decrease, from `t` on. -/
def Follow (t : ℕ) (ps : List (ℕ × ℕ)) : Prop := (t :: ps.map Prod.fst).Pairwise (· ≤ ·)

/-- The time of the last poll. -/
def lastPoll (t : ℕ) (ps : List (ℕ × ℕ)) : ℕ := (ps.map Prod.fst).getLastD t

/-- What each poll credits, in whole bits of 64. -/
def credited (r : ℕ) : ℕ → List (ℕ × ℕ) → ℕ
  | _, [] => 0
  | t, p :: ps => r * (p.1 - t) / NANOS % 2 ^ 64 + credited r p.1 ps

/-- What each poll leaves out, in parts of a bit. -/
def leftOut (r : ℕ) : ℕ → List (ℕ × ℕ) → ℕ
  | _, [] => 0
  | t, p :: ps => r * (p.1 - t) % NANOS + leftOut r p.1 ps

/-- What each poll credits fits in 64 bits. -/
def Counted (r : ℕ) : ℕ → List (ℕ × ℕ) → Prop
  | _, [] => True
  | t, p :: ps => r * (p.1 - t) / NANOS < 2 ^ 64 ∧ Counted r p.1 ps

/-- The level after the polls is what a single refill for the whole time would have made it. -/
def KeepsCredit (b : TokenBucket) (ps : List (ℕ × ℕ)) : Prop :=
  (b.polls ps).levelBits =
    min b.burstBits (b.levelBits + b.rateBps * (lastPoll b.lastNanos ps - b.lastNanos) / NANOS)

/-- A refused packet leaves the bucket refilled. -/
theorem refused (hr : 0 < b.rateBps) (h : (b.poll nowNanos bytes).1 = false) :
    (b.poll nowNanos bytes).2 = { b with levelBits := b.refilled nowNanos, lastNanos := nowNanos } := by
  have hpoll := poll_cases (Nat.pos_iff_ne_zero.mp hr) nowNanos bytes
  rw [hpoll] at h ⊢
  split
  next henough =>
    rw [if_pos henough] at h
    cases h
  next => rfl

theorem levelBits_polls (h : b.Valid) (hr : 0 < b.rateBps) (hu64 : b.burstBits < 2 ^ 64)
    {ps : List (ℕ × ℕ)} (hrefused : b.Refuses ps) :
    (b.polls ps).levelBits = min b.burstBits (b.levelBits + credited b.rateBps b.lastNanos ps) := by
  induction ps generalizing b with
  | nil => exact (Nat.min_eq_right h.level).symm
  | cons p ps ih =>
    have hafter := refused hr hrefused.1
    have hrest := hrefused.2
    have hlevel : (b.poll p.1 p.2).2.levelBits ≤ (b.poll p.1 p.2).2.burstBits := by
      rw [hafter]
      exact b.refilled_le p.1
    have hburst : (b.poll p.1 p.2).2.burstBits = b.burstBits := by rw [hafter]
    have hrate : (b.poll p.1 p.2).2.rateBps = b.rateBps := by rw [hafter]
    have hlast : (b.poll p.1 p.2).2.lastNanos = p.1 := by rw [hafter]
    have hrefill : (b.poll p.1 p.2).2.levelBits =
        min b.burstBits (b.levelBits + b.rateBps * (p.1 - b.lastNanos) / NANOS % 2 ^ 64) := by
      rw [hafter]
      simp only [refilled, saturatingAdd, refill, u64Max]
      omega
    have hih := ih ⟨hlevel, by rw [hburst, hrate, h.burst]⟩ (hrate ▸ hr) (hburst ▸ hu64) hrest
    rw [hburst, hrate, hlast, hrefill] at hih
    have hpolls : b.polls (p :: ps) = ((b.poll p.1 p.2).2).polls ps := rfl
    rw [hpolls, hih, credited]
    omega

theorem lastPoll_cons (t : ℕ) (p : ℕ × ℕ) (ps : List (ℕ × ℕ)) :
    lastPoll t (p :: ps) = lastPoll p.1 ps := by
  rw [lastPoll, List.map_cons, List.getLastD_cons, lastPoll]

theorem le_lastPoll {ps : List (ℕ × ℕ)} (h : Follow t ps) : t ≤ lastPoll t ps := by
  induction ps generalizing t with
  | nil => exact le_rfl
  | cons p ps ih =>
    rw [lastPoll_cons]
    exact ((List.pairwise_cons.mp h).1 p.1 List.mem_cons_self).trans (ih (List.pairwise_cons.mp h).2)

/-- What the whole time brings is what the polls credit, what they cut off and what they leave out. -/
theorem credit_eq {ps : List (ℕ × ℕ)} (h : Follow t ps) :
    ∃ cut, (cut = 0 ↔ Counted r t ps) ∧
      r * (lastPoll t ps - t) = (credited r t ps + cut) * NANOS + leftOut r t ps := by
  induction ps generalizing t with
  | nil =>
    refine ⟨0, iff_of_true rfl trivial, ?_⟩
    have hlast : lastPoll t [] = t := rfl
    simp only [hlast, Nat.sub_self, Nat.mul_zero, credited, leftOut, Nat.add_zero, Nat.zero_mul]
  | cons p ps ih =>
    obtain ⟨cut, hcut, hrest⟩ := ih (List.pairwise_cons.mp h).2
    have htime : t ≤ p.1 := (List.pairwise_cons.mp h).1 p.1 List.mem_cons_self
    have hlater := le_lastPoll (List.pairwise_cons.mp h).2
    refine ⟨cut + r * (p.1 - t) / NANOS / 2 ^ 64 * 2 ^ 64, ?_, ?_⟩
    · rw [Counted, ← hcut]
      omega
    · have hsplit : r * (lastPoll p.1 ps - t) =
          r * (p.1 - t) + r * (lastPoll p.1 ps - p.1) := by
        rw [← Nat.mul_add]
        congr 1
        omega
      have hparts : r * (p.1 - t) = r * (p.1 - t) / NANOS * NANOS + r * (p.1 - t) % NANOS :=
        (Nat.div_add_mod' ..).symm
      have hwhole : r * (p.1 - t) / NANOS =
          r * (p.1 - t) / NANOS % 2 ^ 64 + r * (p.1 - t) / NANOS / 2 ^ 64 * 2 ^ 64 := by
        omega
      rw [lastPoll_cons, hsplit, hrest, credited, leftOut]
      calc r * (p.1 - t) + ((credited r p.1 ps + cut) * NANOS + leftOut r p.1 ps)
          = (r * (p.1 - t) / NANOS + credited r p.1 ps + cut) * NANOS +
              (r * (p.1 - t) % NANOS + leftOut r p.1 ps) := by
            nth_rewrite 1 [hparts]
            ring
        _ = _ := by
            nth_rewrite 1 [hwhole]
            ring

/-- **Credit for the time.** After refused packets the level is what it would be after a single refill exactly
when the bucket is full, or what the polls credit fits in 64 bits and what they leave out comes to less than a
bit. -/
theorem keepsCredit_iff (h : b.Valid) (hr : 0 < b.rateBps) (hu64 : b.rateBps < 2 ^ 64)
    {ps : List (ℕ × ℕ)} (hfollow : Follow b.lastNanos ps) (hrefused : b.Refuses ps) :
    b.KeepsCredit ps ↔
      b.burstBits ≤ b.levelBits + credited b.rateBps b.lastNanos ps ∨
        Counted b.rateBps b.lastNanos ps ∧ leftOut b.rateBps b.lastNanos ps < NANOS := by
  have hfits : b.burstBits < 2 ^ 64 := by
    rw [h.burst, MIN_BURST_BITS]
    omega
  obtain ⟨cut, hcut, hcredit⟩ := credit_eq (r := b.rateBps) hfollow
  have hbits : b.rateBps * (lastPoll b.lastNanos ps - b.lastNanos) / NANOS =
      credited b.rateBps b.lastNanos ps + cut + leftOut b.rateBps b.lastNanos ps / NANOS := by
    rw [hcredit, NANOS]
    omega
  rw [KeepsCredit, levelBits_polls h hr hfits hrefused, hbits, ← hcut]
  have hwhole : leftOut b.rateBps b.lastNanos ps / NANOS = 0 ↔
      leftOut b.rateBps b.lastNanos ps < NANOS := Nat.div_eq_zero_iff.trans (or_iff_right (by decide))
  rw [← hwhole]
  generalize leftOut b.rateBps b.lastNanos ps / NANOS = whole
  omega

/-- A bucket at 80 kbps whose burst has just gone. -/
def emptied : TokenBucket := ((new 80000 0).poll 0 10000).2

theorem valid_emptied : emptied.Valid := (valid_new 80000 0).step (.poll 0 10000)

theorem keepsCredit_iff_sample : emptied.KeepsCredit [(100000, 1000), (200000, 1000)] := by
  refine (keepsCredit_iff valid_emptied (by decide) (by decide) ?_ ?_).mpr ?_
  · unfold Follow
    decide
  · exact ⟨by decide +kernel, by decide +kernel, trivial⟩
  · exact .inr ⟨⟨by decide +kernel, by decide +kernel, trivial⟩, by decide +kernel⟩

/-- **Half a bit at a time.** Two refused packets leave no credit for a time that brings a bit. -/
theorem not_keepsCredit : ¬ ∀ (b : TokenBucket) (ps : List (ℕ × ℕ)), b.Valid → 0 < b.rateBps →
    b.rateBps < 2 ^ 64 → Follow b.lastNanos ps → b.Refuses ps → b.KeepsCredit ps := by
  intro h
  have hkeeps := h emptied [(6250, 1000), (12500, 1000)] valid_emptied (by decide) (by decide)
    (by unfold Follow; decide) ⟨by decide +kernel, by decide +kernel, trivial⟩
  have hlevel : (emptied.polls [(6250, 1000), (12500, 1000)]).levelBits ≠
      min emptied.burstBits (emptied.levelBits +
        emptied.rateBps * (lastPoll emptied.lastNanos [(6250, 1000), (12500, 1000)] - emptied.lastNanos) / NANOS) := by
    decide +kernel
  exact hlevel hkeeps

end Radian.Pfcp.TokenBucket
