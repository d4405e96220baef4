import Radian.Ladder.Basic
import Radian.Nas.Session

/-!
# Bit rates in unit and value

The Session-AMBR form of a rate: a unit octet and a multiple of 16 bits.  `sessionAmbrFromBitrates`
reads BitRate strings into it, of which it takes fewer than `bitrateToBps` does.

- `unitBps`, `rateBps`, `Rate` — what a unit and a value stand for.
- `sessionAmbrFromBitrates` — the encoding of two BitRate strings.
- `Encodable`, `one_of_bitrateToBps` — the strings that are read, and that they keep their rate.
- `nearest_tenMbps_iff` — the rates the default stands for.
-/

namespace Radian.Nas

open Ladder (Nearest)

/-! ### What a unit and a value stand for -/

/-- Bits per second by unit octet, from 1 Kbps under `0x01` to 256 Pbps under `0x19`. -/
def unitSteps : List Nat :=
  [1000, 1000000, 1000000000, 1000000000000, 1000000000000000].flatMap fun scale =>
    [1, 4, 16, 64, 256].map fun multiple => multiple * scale

/-- The unit of an octet: `0x00` has none, and one past the table is read as its last. -/
def unitBps (unit : UInt8) : Option Nat :=
  if unit = 0 then none else some (unitSteps.getD (unit.toNat - 1) 256000000000000000)

def rateBps (unit : UInt8) (value : UInt16) : Option Nat :=
  (unitBps unit).map fun step => value.toNat * step

/-- A rate that some unit and value stand for. -/
def Rate (bps : Nat) : Prop := ∃ unit value, rateBps unit value = some bps

/-- What a unit and a value say of a rate: the rate, or the nearest one that can be said. -/
def Told (unit : UInt8) (value : UInt16) (bps : Nat) : Prop :=
  ∃ told, rateBps unit value = some told ∧ Nearest Rate bps told

/-- The two directions of an AMBR say two rates. -/
structure SessionAmbr.Tells (a : SessionAmbr) (dlBps ulBps : Nat) : Prop where
  dl : Told a.dlUnit a.dl dlBps
  ul : Told a.ulUnit a.ul ulBps

/-! ### Reading BitRate strings -/

/-- 10 Mbps each way. -/
def SessionAmbr.TEN_MBPS : SessionAmbr := { dlUnit := 0x06, dl := 10, ulUnit := 0x06, ul := 10 }

/-- The octet of a unit, of those that are a single step. -/
def bitrateUnitOctet (unit : List Char) : Option UInt8 :=
  if unit = "Kbps".toList then some 0x01
  else if unit = "Mbps".toList then some 0x06
  else if unit = "Gbps".toList then some 0x0b
  else if unit = "Tbps".toList then some 0x10
  else none

def sessionAmbrFromBitrates.one (s : String) : Option (UInt8 × UInt16) := do
  let (value, unit) ← Text.splitOnce ' ' (Text.trim s.toList)
  let value ← Text.parseUnsigned 10 16 value
  let unit ← bitrateUnitOctet unit
  return (unit, UInt16.ofNat value)

/-- Two BitRate strings as an AMBR; `none` when one does not parse or is beyond 16 bits. -/
def sessionAmbrFromBitrates (uplink downlink : String) : Option SessionAmbr := do
  let (ulUnit, ul) ← sessionAmbrFromBitrates.one uplink
  let (dlUnit, dl) ← sessionAmbrFromBitrates.one downlink
  return { dlUnit, dl, ulUnit, ul }

/-- A BitRate string in a unit from Kbps up, with a number of 16 bits. -/
def Encodable (s : String) : Prop :=
  ∃ value unit, Text.splitOnce ' ' (Text.trim s.toList) = some (value, unit) ∧
    unit ≠ "bps".toList ∧ ∃ n < 2 ^ 16, Text.parseUnsigned 10 64 value = some n

/-- The octet of a unit stands for the multiplier of the unit. -/
theorem unitBps_of_bitrateUnit {unit : List Char} {mult : Nat}
    (h : Npcf.bitrateUnit unit = some mult) (hne : unit ≠ "bps".toList) :
    ∃ octet, bitrateUnitOctet unit = some octet ∧ unitBps octet = some mult := by
  rw [Npcf.bitrateUnit, if_neg hne] at h
  split_ifs at h with hkbps hmbps hgbps htbps <;> subst_vars <;> cases h
  · exact ⟨0x01, rfl, rfl⟩
  · exact ⟨0x06, rfl, rfl⟩
  · exact ⟨0x0b, rfl, rfl⟩
  · exact ⟨0x10, rfl, rfl⟩

/-- A rate that is read keeps its bits per second, and what is not read is not encodable. -/
theorem one_of_bitrateToBps {s : String} {bps : Nat} (h : Npcf.bitrateToBps s = some bps) :
    (Encodable s ∧ ∃ unit value, sessionAmbrFromBitrates.one s = some (unit, value) ∧
      rateBps unit value = some bps) ∨ (¬ Encodable s ∧ sessionAmbrFromBitrates.one s = none) := by
  simp only [Npcf.bitrateToBps, Option.bind_eq_bind, Option.bind_eq_some_iff] at h
  obtain ⟨⟨value, unit⟩, hsplit, n, hn, mult, hmult, hbps⟩ := h
  have hone : sessionAmbrFromBitrates.one s = (if n < 2 ^ 16 then some n else none).bind fun n =>
      (bitrateUnitOctet unit).map fun octet => (octet, UInt16.ofNat n) := by
    simp only [sessionAmbrFromBitrates.one, hsplit, Option.bind_eq_bind, Option.bind_some,
      Text.parseUnsigned_width hn 16, Option.pure_def]
    cases bitrateUnitOctet unit <;> rfl
  -- the text has only one number and one unit
  have hencodable : Encodable s ↔ unit ≠ "bps".toList ∧ n < 2 ^ 16 := by
    constructor
    · rintro ⟨value', unit', hsplit', hunit, m, hm, hread⟩
      rw [hsplit, Option.some_inj, Prod.mk.injEq] at hsplit'
      obtain ⟨rfl, rfl⟩ := hsplit'
      rw [hn, Option.some_inj] at hread
      subst hread
      exact ⟨hunit, hm⟩
    · rintro ⟨hunit, hlt⟩
      exact ⟨value, unit, hsplit, hunit, n, hlt, hn⟩
  have hrate : n * mult = bps := by
    by_cases hfits : n * mult < 2 ^ 64
    · rwa [if_pos hfits, Option.some_inj] at hbps
    · rw [if_neg hfits] at hbps
      cases hbps
  rw [hencodable, hone]
  by_cases hunit : unit = "bps".toList
  · subst hunit
    refine Or.inr ⟨fun h => h.1 rfl, ?_⟩
    cases (if n < 2 ^ 16 then some n else none) <;> rfl
  · by_cases hlt : n < 2 ^ 16
    · obtain ⟨octet, hoctet, hstep⟩ := unitBps_of_bitrateUnit hmult hunit
      refine Or.inl ⟨⟨hunit, hlt⟩, octet, UInt16.ofNat n, ?_, ?_⟩
      · rw [if_pos hlt, Option.bind_some, hoctet, Option.map_some]
      · rw [rateBps, hstep, Option.map_some, UInt16.toNat_ofNat_of_lt' hlt, hrate]
    · refine Or.inr ⟨fun h => hlt h.2, ?_⟩
      rw [if_neg hlt, Option.bind_none]

/-- Strings that are encodable become an AMBR that says their rates. -/
theorem sessionAmbrFromBitrates_tells {uplink downlink : String} {ulBps dlBps : Nat}
    (hul : Npcf.bitrateToBps uplink = some ulBps) (hdl : Npcf.bitrateToBps downlink = some dlBps) :
    (Encodable uplink ∧ Encodable downlink ∧
      ∃ a, sessionAmbrFromBitrates uplink downlink = some a ∧ a.Tells dlBps ulBps) ∨
    (¬ (Encodable uplink ∧ Encodable downlink) ∧ sessionAmbrFromBitrates uplink downlink = none) := by
  unfold sessionAmbrFromBitrates
  rcases one_of_bitrateToBps hul with ⟨hu, ulUnit, ul, hone, hrate⟩ | ⟨hu, hone⟩
  · rcases one_of_bitrateToBps hdl with ⟨hd, dlUnit, dl, hone', hrate'⟩ | ⟨hd, hone'⟩
    · refine Or.inl ⟨hu, hd, ⟨dlUnit, dl, ulUnit, ul⟩, ?_, ?_, ?_⟩
      · rw [hone, hone']
        rfl
      · exact ⟨dlBps, hrate', Ladder.nearest_self ⟨dlUnit, dl, hrate'⟩⟩
      · exact ⟨ulBps, hrate, Ladder.nearest_self ⟨ulUnit, ul, hrate⟩⟩
    · refine Or.inr ⟨fun h => hd h.2, ?_⟩
      rw [hone, hone']
      rfl
  · refine Or.inr ⟨fun h => hu h.1, ?_⟩
    rw [hone]
    rfl

/-! ### The default -/

/-- Every unit is a multiple of a Kbps. -/
theorem dvd_of_unitBps {unit : UInt8} {step : Nat} (h : unitBps unit = some step) : 1000 ∣ step := by
  have hsteps : ∀ step ∈ unitSteps, 1000 ∣ step := by decide
  unfold unitBps at h
  split_ifs at h
  rw [Option.some_inj] at h
  subst h
  rw [List.getD_eq_getElem?_getD]
  rcases hget : unitSteps[unit.toNat - 1]? with _ | step
  · exact (by decide : 1000 ∣ 256000000000000000)
  · exact hsteps step (List.mem_of_getElem? hget)

theorem dvd_of_rate {bps : Nat} (h : Rate bps) : 1000 ∣ bps := by
  obtain ⟨unit, value, hrate⟩ := h
  rw [rateBps, Option.map_eq_some_iff] at hrate
  obtain ⟨step, hstep, rfl⟩ := hrate
  exact Dvd.dvd.mul_left (dvd_of_unitBps hstep) _

/-- 10 Mbps is the nearest rate from 500 bps below to 500 bps above. -/
theorem nearest_tenMbps_iff {bps : Nat} :
    Nearest Rate bps 10000000 ↔ 9999500 ≤ bps ∧ bps ≤ 10000500 := by
  constructor
  · rintro ⟨-, hnearest⟩
    have hbelow := hnearest 9999000 ⟨0x01, 9999, rfl⟩
    have habove := hnearest 10001000 ⟨0x01, 10001, rfl⟩
    unfold Nat.dist at hbelow habove
    omega
  · rintro ⟨hlow, hhigh⟩
    refine ⟨⟨0x06, 10, rfl⟩, fun e he => ?_⟩
    obtain ⟨k, rfl⟩ := dvd_of_rate he
    unfold Nat.dist
    omega

/-- The default tells the rates next to its own. -/
theorem tenMbps_tells_iff {dlBps ulBps : Nat} :
    SessionAmbr.TEN_MBPS.Tells dlBps ulBps ↔
      (9999500 ≤ dlBps ∧ dlBps ≤ 10000500) ∧ 9999500 ≤ ulBps ∧ ulBps ≤ 10000500 := by
  have htold : ∀ bps, Told 0x06 10 bps ↔ 9999500 ≤ bps ∧ bps ≤ 10000500 := by
    intro bps
    rw [← nearest_tenMbps_iff]
    constructor
    · rintro ⟨told, hrate, hnearest⟩
      obtain rfl : 10000000 = told := Option.some_inj.mp hrate
      exact hnearest
    · exact fun h => ⟨10000000, rfl, h⟩
  constructor
  · rintro ⟨hdl, hul⟩
    exact ⟨(htold dlBps).mp hdl, (htold ulBps).mp hul⟩
  · rintro ⟨hdl, hul⟩
    exact ⟨(htold dlBps).mpr hdl, (htold ulBps).mpr hul⟩

end Radian.Nas
