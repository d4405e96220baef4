import Mathlib.Algebra.Group.Prod
import Radian.Smf.Ledger

/-!
# The GFBR account

`reservedGfbrBps` against the sum of what the live contexts have reserved.

- `gfbr_accounted` — the two agree whenever nothing is under way, in every run in which each
  teardown returns what its context has reserved *then* and no sum leaves 64 bits.
- `gfbr_not_accounted` — and not in every run: two teardowns of one session return its reservation
  twice, at the expense of another session.
-/

namespace Radian.Smf

open Keyed (Map)
open Npcf (HashMap QosFlowPolicy)

/-- A rate as numbers. -/
def Gfbr.toNats (g : Gfbr) : Nat × Nat := (g.1.toNat, g.2.toNat)

/-- The component-wise sum of the reservations of all contexts. -/
def gfbrSum (m : HashMap SmContext) : Nat × Nat :=
  (Map.total (fun c => c.reservedGfbr.1.toNat) m, Map.total (fun c => c.reservedGfbr.2.toNat) m)

/-- What the context under `smRef` has reserved; nothing when there is none. -/
def SmfState.reservationOf (s : SmfState) (smRef : String) : Gfbr :=
  ((s.contexts.lookup smRef).map SmContext.reservedGfbr).getD (0, 0)

/-! ### Arithmetic on rates -/

/-- Returning a part of the account. -/
theorem toNats_sub {r g : Gfbr} {t : Nat × Nat} (h : r.toNats = t + g.toNats) :
    Gfbr.toNats (saturatingSub r.1 g.1, saturatingSub r.2 g.2) = t := by
  obtain ⟨h₁, h₂⟩ := Prod.mk.inj h
  simp only [Gfbr.toNats] at h₁ h₂
  ext
  · simp only [Gfbr.toNats, toNat_saturatingSub]
    omega
  · simp only [Gfbr.toNats, toNat_saturatingSub]
    omega

/-- Adding to the account within 64 bits. -/
theorem toNats_add {r g : Gfbr} (h₁ : r.1.toNat + g.1.toNat < 2 ^ 64)
    (h₂ : r.2.toNat + g.2.toNat < 2 ^ 64) :
    Gfbr.toNats (r.1 + g.1, r.2 + g.2) = r.toNats + g.toNats := by
  simp only [Gfbr.toNats, UInt64.toNat_add, Nat.mod_eq_of_lt h₁, Nat.mod_eq_of_lt h₂]
  rfl

/-- The same for an addition that would stop at the largest number. -/
theorem toNats_saturatingAdd {r g : Gfbr} (h₁ : r.1.toNat + g.1.toNat < 2 ^ 64)
    (h₂ : r.2.toNat + g.2.toNat < 2 ^ 64) :
    Gfbr.toNats (saturatingAdd r.1 g.1, saturatingAdd r.2 g.2) = r.toNats + g.toNats := by
  ext
  · simp only [Gfbr.toNats, toNat_saturatingAdd, Prod.fst_add]
    omega
  · simp only [Gfbr.toNats, toNat_saturatingAdd, Prod.snd_add]
    omega

/-! ### The ledger of reservations -/

/-- The sections keep the account: what a teardown copied counts for as much as what its context
has reserved, a new context has a new reference, and no sum leaves 64 bits. -/
def ReturnsReservation : Mark → Core → Prop
  | .reserving g, c => (c.smf.tryReserveGfbr g).1 = true →
      c.smf.reservedGfbrBps.1.toNat + g.1.toNat < 2 ^ 64 ∧
        c.smf.reservedGfbrBps.2.toNat + g.2.toNat < 2 ^ 64
  | .storing smRef _, c => smRef ∉ c.smf.contexts
  | .releasing smRef copy, c =>
      (c.smf.releaseGfbr copy.reservedGfbr).reservedGfbrBps =
        (c.smf.releaseGfbr (c.smf.reservationOf smRef)).reservedGfbrBps
  | .merging smRef _ decision, c => smRef ∈ c.smf.contexts →
      (c.smf.reservedGfbrBps.1.toNat - (c.smf.reservationOf smRef).1.toNat) +
          (decisionGfbr decision).1.toNat < 2 ^ 64 ∧
        (c.smf.reservedGfbrBps.2.toNat - (c.smf.reservationOf smRef).2.toNat) +
          (decisionGfbr decision).2.toNat < 2 ^ 64
  | _, _ => True

def gfbrLedger : Ledger (Nat × Nat) where
  worth x := x.gfbr.toNats
  ok t a := a.gfbr.toNats = t
  allow := ReturnsReservation

theorem gfbrLedger_total (m : HashMap SmContext) : gfbrLedger.total m = gfbrSum m := by
  unfold Ledger.total gfbrSum Map.total
  induction m.entries with
  | nil => rfl
  | cons e es ih =>
    simp only [List.map_cons, List.sum_cons, ih]
    rfl

/-- One context's reservation, and everybody else's. -/
theorem gfbrLedger_total_erase (s : SmfState) (smRef : String) :
    gfbrLedger.total s.contexts =
      gfbrLedger.total (s.contexts.erase smRef) + (s.reservationOf smRef).toNats := by
  unfold SmfState.reservationOf
  cases hr : s.contexts.lookup smRef with
  | none =>
    rw [Map.erase_eq_self hr]
    exact (add_zero _).symm
  | some cur => exact Map.total_erase _ hr

theorem gfbrLedger_sound : gfbrLedger.Sound where
  reserve := by
    intro t g c hallow hok hfits
    obtain ⟨h₁, h₂⟩ := hallow hfits
    have hnew : (c.smf.tryReserveGfbr g).2.accounts.gfbr =
        (c.smf.reservedGfbrBps.1 + g.1, c.smf.reservedGfbrBps.2 + g.2) := by
      unfold SmfState.tryReserveGfbr at hfits ⊢
      dsimp only at hfits ⊢
      split at hfits
      · cases hfits
      · rename_i hbudget
        rw [if_neg hbudget]
        rfl
    have hok : c.smf.reservedGfbrBps.toNats = t := hok
    show (c.smf.tryReserveGfbr g).2.accounts.gfbr.toNats = t + g.toNats
    rw [hnew, toNats_add h₁ h₂, hok]
  leaseIpv4 := fun hok _ => hok
  leaseIpv6 := fun hok _ => hok
  giveBack := fun hok => toNats_sub hok
  store := by
    intro t r ctx c hallow hok
    have hr : c.smf.contexts.lookup r = none := AList.lookup_eq_none.mpr hallow
    have htotal : gfbrLedger.total (c.smf.contexts.insert r ctx) =
        gfbrLedger.worth ctx.holdings + gfbrLedger.total c.smf.contexts := by
      unfold Ledger.total
      rw [Map.total_insert, Map.erase_eq_self hr, add_comm]
    rw [htotal, ← add_assoc]
    exact hok
  release := by
    intro t r copy c hallow hok
    rw [gfbrLedger_total_erase c.smf r, ← add_assoc] at hok
    have hback : (c.smf.accounts.giveBack copy.holdings).gfbr =
        (saturatingSub c.smf.reservedGfbrBps.1 (c.smf.reservationOf r).1,
          saturatingSub c.smf.reservedGfbrBps.2 (c.smf.reservationOf r).2) := hallow
    show (c.smf.accounts.giveBack copy.holdings).gfbr.toNats = _
    rw [hback]
    exact toNats_sub hok
  merge := by
    intro t r n d c hallow hok
    cases hr : c.smf.contexts.lookup r with
    | none =>
      simp only [storeDecision, hr]
      exact hok
    | some cur =>
      have hcur : c.smf.reservationOf r = cur.reservedGfbr := by
        simp [SmfState.reservationOf, hr]
      have hold : c.smf.reservedGfbrBps.toNats =
          t + gfbrLedger.total (c.smf.contexts.erase r) + cur.reservedGfbr.toNats := by
        rw [← hcur, add_assoc, ← gfbrLedger_total_erase]
        exact hok
      have htotal : gfbrLedger.total (storeDecision r d c.smf).contexts =
          gfbrLedger.total (c.smf.contexts.erase r) + (decisionGfbr d).toNats := by
        rw [storeDecision_contexts]
        simp only [Map.modify, hr]
        exact Map.total_insert _ _ _ _
      rw [htotal, ← add_assoc]
      by_cases hsame : cur.reservedGfbr = decisionGfbr d
      · have hacc : (storeDecision r d c.smf).accounts.gfbr = c.smf.reservedGfbrBps := by
          simp [storeDecision, hr, hsame, SmfState.accounts]
        show (storeDecision r d c.smf).accounts.gfbr.toNats = _
        rw [hacc, hold, hsame]
      · have hacc : (storeDecision r d c.smf).accounts.gfbr =
            (c.smf.adjustGfbr cur.reservedGfbr (decisionGfbr d)).reservedGfbrBps := by
          simp [storeDecision, hr, hsame, SmfState.accounts]
        obtain ⟨h₁, h₂⟩ := hallow (AList.lookup_isSome.mp (by simp [hr]))
        rw [hcur, ← toNat_saturatingSub] at h₁ h₂
        show (storeDecision r d c.smf).accounts.gfbr.toNats = _
        rw [hacc, ← toNats_sub hold]
        exact toNats_saturatingAdd
          (r := (saturatingSub c.smf.reservedGfbrBps.1 cur.reservedGfbr.1,
            saturatingSub c.smf.reservedGfbrBps.2 cur.reservedGfbr.2)) h₁ h₂

/-! ### The claim about runs -/

/-- **In every run whose sections keep the account, the reserved total is the sum over the live
contexts whenever nothing is under way.** -/
theorem gfbr_accounted (cfg : SmfConfig) (p : Pool Unit Core Mark Call Call.Answer Unit)
    (h : Pool.Reach smfSystem (fun n _ c _ => ReturnsReservation n c) cfg.pool p)
    (hq : p.Quiet) :
    (p.shared.smf.reservedGfbrBps.1.toNat, p.shared.smf.reservedGfbrBps.2.toNat) =
      gfbrSum p.shared.smf.contexts := by
  have hstart : gfbrLedger.ok 0 cfg.start.smf.accounts := rfl
  have hok := gfbrLedger.reach_quiet gfbrLedger_sound hstart h hq
  rw [gfbrLedger_total] at hok
  exact hok

instance : ∀ (n : Mark) (c : Core), Decidable (ReturnsReservation n c)
  | .reserving _, _ | .merging _ _ _, _ => inferInstanceAs (Decidable (_ → _ ∧ _))
  | .storing _ _, _ => inferInstanceAs (Decidable (¬ _))
  | .releasing _ _, _ => inferInstanceAs (Decidable (_ = _))
  | .abandoning _, _ | .recovering _, _ | .forwarding _ _, _ | .reauthorizing _ _, _
  | .refreshFailed _, _ => instDecidableTrue

/-- A voice flow with 5 Mbps guaranteed in both directions. -/
def voiceFlow : QosFlowPolicy :=
  { qfi := 2, fiveQi := 1, arpPriority := 2, preEmptCap := false, preEmptVuln := true
    gbr := some { gfbrDl := "5 Mbps", gfbrUl := "5 Mbps", mfbrDl := "9 Mbps", mfbrUl := "9 Mbps" }
    filter := none, refChgData := none, flowStatus := .enabled }

/-- Two sessions with a voice flow; the first is released twice in a row, then a third comes. -/
def releaseAgain : List SmfMove :=
  [.spawn ()] ++ createOn [voiceFlow] 0 ++ createOn [voiceFlow] 0 ++
    [.start 0 (.release "1"), .resume 0 (sampleAnswer []), .start 0 (.release "1")] ++
    createOn [voiceFlow] 0

theorem gfbr_accounted_releaseAgain :
    ∃ p, Pool.moves smfSystem (fun n _ c _ => ReturnsReservation n c) releaseAgain oneUpf.pool =
        some p ∧
      p.shared.smf.reservedGfbrBps = (10000000, 10000000) ∧
      (p.shared.smf.reservedGfbrBps.1.toNat, p.shared.smf.reservedGfbrBps.2.toNat) =
        gfbrSum p.shared.smf.contexts := by
  have hrun : (Pool.moves smfSystem (fun n _ c _ => ReturnsReservation n c) releaseAgain
      oneUpf.pool).map (fun p => (p.shared.smf.reservedGfbrBps, p.threads.all Thread.isIdle)) =
        some ((10000000, 10000000), true) := by
    decide +kernel
  obtain ⟨p, hp, hview⟩ := Option.map_eq_some_iff.mp hrun
  obtain ⟨hgfbr, hidle⟩ := Prod.mk.inj hview
  exact ⟨p, hp, hgfbr, gfbr_accounted oneUpf p (Pool.reach_moves hp) (Pool.quiet_of_all hidle)⟩

/-- Two sessions with a voice flow; the first is released twice at once. -/
def releaseTogether : List SmfMove :=
  [.spawn (), .spawn ()] ++ createOn [voiceFlow] 0 ++ createOn [voiceFlow] 0 ++
    [.start 0 (.release "1"), .start 1 (.release "1"), .resume 0 (sampleAnswer []),
      .resume 1 (sampleAnswer [])]

/-- The reservations of the live contexts sum up to less than 2^64 each way. -/
def SumsFit (c : Core) : Prop :=
  (gfbrSum c.smf.contexts).1 < 2 ^ 64 ∧ (gfbrSum c.smf.contexts).2 < 2 ^ 64

instance (c : Core) : Decidable (SumsFit c) := inferInstanceAs (Decidable (_ ∧ _))

/-- Not every run keeps the account, even while the sums fit: one session is live with 5 Mbps and nothing
is reserved. -/
theorem gfbr_not_accounted :
    ¬ ∀ (cfg : SmfConfig) (p : Pool Unit Core Mark Call Call.Answer Unit),
      Pool.Reach smfSystem (fun _ _ c _ => SumsFit c) cfg.pool p → SumsFit p.shared → p.Quiet →
        (p.shared.smf.reservedGfbrBps.1.toNat, p.shared.smf.reservedGfbrBps.2.toNat) =
          gfbrSum p.shared.smf.contexts := by
  intro hall
  have hrun : (Pool.moves smfSystem (fun _ _ c _ => SumsFit c) releaseTogether oneUpf.pool).map
      (fun p => (p.shared.smf.reservedGfbrBps, gfbrSum p.shared.smf.contexts,
        p.threads.all Thread.isIdle)) = some ((0, 0), (5000000, 5000000), true) := by
    decide +kernel
  obtain ⟨p, hp, hview⟩ := Option.map_eq_some_iff.mp hrun
  obtain ⟨hgfbr, hrest⟩ := Prod.mk.inj hview
  obtain ⟨hsum, hidle⟩ := Prod.mk.inj hrest
  have hfits : SumsFit p.shared := by
    rw [SumsFit, hsum]
    decide
  have hequal := hall oneUpf p (Pool.reach_moves hp) hfits (Pool.quiet_of_all hidle)
  rw [hgfbr, hsum] at hequal
  exact absurd hequal (by decide)

end Radian.Smf
