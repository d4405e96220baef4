import Radian.Ladder.Basic
import Radian.Nas.Message

/-!
# GPRS timers

What a UE makes of the timer octets of a reject.  `gprsTimer2` and `gprsTimer3` take the finest unit
that covers the seconds asked for, and that octet is the shortest back-off not below them.

- `gprsTimer3Secs`, `gprsTimer2Secs` — the duration an octet stands for.
- `TimerUnits` — that a table of units lists what the octets mean, the finest unit first.
- `gprsTimers_round_up` — both timers round up, and so they are monotone.
-/

namespace Radian.Nas

open Ladder (Expressible RoundedUp)

/-! ### Reading a timer -/

/-- Seconds per step of GPRS Timer 3, by the unit bits; `111` deactivates the timer. -/
def gprsTimer3Step (unit : UInt8) : Option Nat :=
  match unit with
  | 0 => some 600
  | 1 => some 3600
  | 2 => some 36000
  | 3 => some 2
  | 4 => some 30
  | 5 => some 60
  | 6 => some 1152000
  | _ => none

/-- Seconds per step of GPRS Timer 2.  A unit without a meaning of its own is a minute. -/
def gprsTimer2Step (unit : UInt8) : Option Nat :=
  match unit with
  | 0 => some 2
  | 2 => some 360
  | 7 => none
  | _ => some 60

/-- The duration of a timer octet: bits 6 to 8 are the unit, bits 1 to 5 the multiple. -/
def timerSecs (stepOf : UInt8 → Option Nat) (octet : UInt8) : Option Nat :=
  (stepOf (octet >>> 5)).map fun step => (octet &&& 31).toNat * step

def gprsTimer3Secs (octet : UInt8) : Option Nat := timerSecs gprsTimer3Step octet
def gprsTimer2Secs (octet : UInt8) : Option Nat := timerSecs gprsTimer2Step octet

/-! ### Unit and multiple of an octet -/

theorem unit_timerOctet {unit : UInt8} (hunit : unit < 8) {k : Nat} (hk : k ≤ 31) :
    (unit <<< 5 ||| UInt8.ofNat k) >>> 5 = unit := by
  have key : ∀ u < 8, ∀ k ≤ 31, (UInt8.ofNat u <<< 5 ||| UInt8.ofNat k) >>> 5 = UInt8.ofNat u := by
    decide +kernel
  simpa using key unit.toNat hunit k hk

theorem multiple_timerOctet {unit : UInt8} (hunit : unit < 8) {k : Nat} (hk : k ≤ 31) :
    ((unit <<< 5 ||| UInt8.ofNat k) &&& 31).toNat = k := by
  have key : ∀ u < 8, ∀ k ≤ 31, ((UInt8.ofNat u <<< 5 ||| UInt8.ofNat k) &&& 31).toNat = k := by
    decide +kernel
  simpa using key unit.toNat hunit k hk

theorem multiple_le (octet : UInt8) : (octet &&& 31).toNat ≤ 31 := by
  rw [UInt8.toNat_and]
  exact Nat.and_le_right

/-! ### Tables of units -/

/-- `units` lists the units of `stepOf`, each step dividing the next, and `last` is the last unit. -/
structure TimerUnits (units : List (UInt8 × Nat)) (last : UInt8) (stepOf : UInt8 → Option Nat) : Prop where
  meaning : ∀ u ∈ units, u.1 < 8 ∧ stepOf u.1 = some u.2
  complete : ∀ unit step, stepOf unit = some step → step ∈ units.map Prod.snd
  positive : ∀ step ∈ units.map Prod.snd, 0 < step
  chain : (units.map Prod.snd).Pairwise (· ∣ ·)
  coarsest : units.getLast?.map Prod.fst = some last

namespace TimerUnits

variable {units : List (UInt8 × Nat)} {last : UInt8} {stepOf : UInt8 → Option Nat}

theorem timerSecs_octet (h : TimerUnits units last stepOf) {u : UInt8 × Nat} (hu : u ∈ units) {k : Nat}
    (hk : k ≤ 31) : timerSecs stepOf (u.1 <<< 5 ||| UInt8.ofNat k) = some (k * u.2) := by
  obtain ⟨hunit, hstep⟩ := h.meaning u hu
  unfold timerSecs
  rw [unit_timerOctet hunit hk, multiple_timerOctet hunit hk, hstep]
  rfl

/-- The durations that have an octet. -/
theorem expressible_iff (h : TimerUnits units last stepOf) (d : Nat) :
    Expressible 31 (units.map Prod.snd) d ↔ ∃ octet, timerSecs stepOf octet = some d := by
  constructor
  · rintro ⟨step, hstep, k, hk, rfl⟩
    obtain ⟨u, hu, rfl⟩ := List.mem_map.mp hstep
    exact ⟨_, h.timerSecs_octet hu hk⟩
  · rintro ⟨octet, hoctet⟩
    obtain ⟨step, hstep, rfl⟩ := Option.map_eq_some_iff.mp hoctet
    exact ⟨step, h.complete _ step hstep, (octet &&& 31).toNat, multiple_le octet, rfl⟩

/-- A timer built over such a table rounds up. -/
theorem roundedUp (h : TimerUnits units last stepOf) (secs : Nat) :
    ∃ d, timerSecs stepOf (timerOctet units last secs) = some d ∧
      RoundedUp (fun d => ∃ octet, timerSecs stepOf octet = some d) secs d := by
  obtain ⟨u, hlast, rfl⟩ := Option.map_eq_some_iff.mp h.coarsest
  have hu : u ∈ units := List.mem_of_getLast? hlast
  have hlongest : (units.map Prod.snd).getLast? = some u.2 := by
    rw [List.getLast?_map, hlast]
    rfl
  have hround := @Ladder.roundedUp_of_find? 31 _ h.positive h.chain _ hlongest secs
  have hset : Expressible 31 (units.map Prod.snd) = fun d => ∃ octet, timerSecs stepOf octet = some d :=
    funext fun d => propext (h.expressible_iff d)
  rw [hset, List.find?_map] at hround
  unfold timerOctet
  cases hfind : units.find? (fun u => decide ((secs + u.2 - 1) / u.2 ≤ 31)) with
  | none =>
    rw [show units.find? ((fun step => decide (Ladder.count step secs ≤ 31)) ∘ Prod.snd) = none from hfind]
      at hround
    exact ⟨31 * u.2, h.timerSecs_octet hu le_rfl, hround⟩
  | some v =>
    rw [show units.find? ((fun step => decide (Ladder.count step secs ≤ 31)) ∘ Prod.snd) = some v from hfind]
      at hround
    have hfits := List.find?_some hfind
    exact ⟨Ladder.count v.2 secs * v.2,
      h.timerSecs_octet (List.mem_of_find?_eq_some hfind) (by simpa using hfits), hround⟩

end TimerUnits

/-! ### The two timers -/

theorem timerUnits3 : TimerUnits
    [(3, 2), (4, 30), (5, 60), (0, 600), (1, 3600), (2, 36000), (6, 1152000)] 6 gprsTimer3Step where
  meaning := by simp [gprsTimer3Step]
  complete := by
    intro unit step h
    unfold gprsTimer3Step at h
    split at h <;> simp_all
  positive := by simp
  chain := by decide
  coarsest := rfl

theorem timerUnits2 : TimerUnits [(0, 2), (1, 60), (2, 360)] 2 gprsTimer2Step where
  meaning := by simp [gprsTimer2Step]
  complete := by
    intro unit step h
    unfold gprsTimer2Step at h
    split at h <;> simp_all
  positive := by simp
  chain := by decide
  coarsest := rfl

/-- For every number of seconds either timer stands for the least duration that has an octet and is not
below it, or for the longest one; and it grows with the seconds. -/
theorem gprsTimers_round_up :
    (∃ enc : Nat → Nat, (∀ secs, gprsTimer3Secs (gprsTimer3 secs) = some (enc secs)) ∧
      (∀ secs, RoundedUp (fun d => ∃ octet, gprsTimer3Secs octet = some d) secs (enc secs)) ∧
      Monotone enc) ∧
    (∃ enc : Nat → Nat, (∀ secs, gprsTimer2Secs (gprsTimer2 secs) = some (enc secs)) ∧
      (∀ secs, RoundedUp (fun d => ∃ octet, gprsTimer2Secs octet = some d) secs (enc secs)) ∧
      Monotone enc) := by
  have h3 := timerUnits3.roundedUp
  have h2 := timerUnits2.roundedUp
  choose enc3 hsecs3 hround3 using h3
  choose enc2 hsecs2 hround2 using h2
  constructor
  · exact ⟨enc3, hsecs3, hround3, fun s t hst => (hround3 s).mono hst (hround3 t)⟩
  · exact ⟨enc2, hsecs2, hround2, fun s t hst => (hround2 s).mono hst (hround2 t)⟩

end Radian.Nas
