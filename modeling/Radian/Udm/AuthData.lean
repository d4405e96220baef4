import Radian.Amf.Authentication
import Radian.Subscribers.InMemory
import Mathlib.Data.String.Basic

/-!
# Authentication data

From the serving network name that the AMF sends to the vector that the UDR generates.

- `parseSnn` — the digits in a serving network name; `parseSnn_servingNetworkName`, they name the same network.
- `Udr.generateAv`, `generateAuthData` — a vector, in hexadecimal.
- `hexSized_hexEncode` — which reads back as what it is.
-/

namespace Radian.Text

/-- The parts of a text between the copies of a pattern; `skip` characters of a copy are still to be passed. -/
def splitPattern (pat : List Char) : (skip : Nat) → List Char → List (List Char)
  | _, [] => [[]]
  | skip + 1, _ :: cs => splitPattern pat skip cs
  | 0, c :: cs =>
      if pat.isPrefixOf (c :: cs) then [] :: splitPattern pat (pat.length - 1) cs
      else
        match splitPattern pat 0 cs with
        | [] => [[c]]
        | part :: parts => (c :: part) :: parts

/-- The first `n` bytes, if a character ends there. -/
def getTo : Nat → List Char → Option (List Char)
  | 0, _ => some []
  | _ + 1, [] => none
  | n + 1, c :: cs => if c.utf8Size ≤ n + 1 then (getTo (n + 1 - c.utf8Size) cs).map (c :: ·) else none
termination_by _ cs => cs

end Radian.Text

namespace Radian.Udm

open Aka (Milenage Rand SubscriberKey servingNetworkName)
open Amf (hexEncode hexSized hexDecode)
open Nas (hexLower)
open Subscribers (InMemory)

/-! ### The serving network name -/

/-- `5G:mnc<MNC3>.mcc<MCC3>.3gppnetwork.org`, read as `(mcc, mnc)`. -/
def parseSnn (snn : String) : Option (String × String) := do
  let mnc ← (Text.splitPattern "mnc".toList 0 snn.toList)[1]?.bind (Text.getTo 3)
  let mcc ← (Text.splitPattern "mcc".toList 0 snn.toList)[1]?.bind (Text.getTo 3)
  if mnc.all Char.isDigit && mcc.all Char.isDigit then some (String.ofList mcc, String.ofList mnc) else none

/-- A mobile country code. -/
structure IsMcc (mcc : String) : Prop where
  length : mcc.toList.length = 3
  digits : ∀ c ∈ mcc.toList, c.isDigit

/-- A mobile network code. -/
structure IsMnc (mnc : String) : Prop where
  length : mnc.toList.length = 2 ∨ mnc.toList.length = 3
  digits : ∀ c ∈ mnc.toList, c.isDigit

theorem utf8Size_of_isDigit {c : Char} (h : c.isDigit) : c.utf8Size = 1 := by
  have hle : c.val ≤ 57 := by
    simp only [Char.isDigit, ge_iff_le, Bool.and_eq_true, decide_eq_true_eq] at h
    exact h.2
  unfold Char.utf8Size
  rw [if_pos (UInt32.le_trans hle (by decide))]

theorem utf8ByteSize_of_digits {s : String} (h : ∀ c ∈ s.toList, c.isDigit) :
    s.utf8ByteSize = s.toList.length := by
  have hlen : ∀ cs : List Char, (∀ c ∈ cs, c.isDigit) → String.utf8Len cs = cs.length := fun cs hcs => by
    induction cs with
    | nil => rfl
    | cons c cs ih =>
      rw [String.utf8Len_cons, ih fun d hd => hcs d (List.mem_cons_of_mem c hd),
        utf8Size_of_isDigit (hcs c List.mem_cons_self), List.length_cons]
  rw [← hlen s.toList h, ← String.utf8ByteSize_ofList, String.ofList_toList]

/-- The three digits of a network code in a serving network name. -/
def mnc3 (mnc : String) : String := if mnc.toList.length = 2 then "0" ++ mnc else mnc

theorem IsMnc.servingNetworkName_eq {mnc : String} (h : IsMnc mnc) (mcc : String) :
    servingNetworkName mcc mnc = "5G:mnc" ++ mnc3 mnc ++ ".mcc" ++ mcc ++ ".3gppnetwork.org" := by
  rw [servingNetworkName, mnc3, utf8ByteSize_of_digits h.digits]

theorem IsMnc.mnc3_digits {mnc : String} (h : IsMnc mnc) :
    (mnc3 mnc).toList.length = 3 ∧ ∀ c ∈ (mnc3 mnc).toList, c.isDigit := by
  unfold mnc3
  split
  · rename_i htwo
    rw [String.toList_append, List.length_append, htwo]
    refine ⟨rfl, fun c hc => ?_⟩
    rcases List.mem_append.mp hc with hc | hc
    · cases List.mem_singleton.mp hc
      rfl
    · exact h.digits c hc
  · rename_i htwo
    exact ⟨h.length.resolve_left htwo, h.digits⟩

theorem list_of_length_three {cs : List Char} (h : cs.length = 3) : ∃ a b c, cs = [a, b, c] := by
  match cs, h with
  | [a, b, c], _ => exact ⟨a, b, c, rfl⟩

theorem m_ne_of_isDigit {c : Char} (h : c.isDigit) : 'm' ≠ c := by
  rintro rfl
  exact absurd h (by decide)

/-- **The name is read back.** The digits that the home network reads are those that name the same network. -/
theorem parseSnn_servingNetworkName {mcc mnc : String} (hmcc : IsMcc mcc) (hmnc : IsMnc mnc) :
    parseSnn (servingNetworkName mcc mnc) = some (mcc, mnc3 mnc) := by
  obtain ⟨hlength, hdigits⟩ := hmnc.mnc3_digits
  obtain ⟨a, b, c, hcode⟩ := list_of_length_three hlength
  obtain ⟨d, e, f, hcountry⟩ := list_of_length_three hmcc.length
  have hmccDigits := hmcc.digits
  rw [hcode] at hdigits
  rw [hcountry] at hmccDigits
  simp only [List.mem_cons, List.not_mem_nil, or_false, forall_eq_or_imp, forall_eq] at hdigits hmccDigits
  obtain ⟨ha, hb, hc⟩ := hdigits
  obtain ⟨hd, he, hf⟩ := hmccDigits
  have hname : (servingNetworkName mcc mnc).toList =
      ['5', 'G', ':', 'm', 'n', 'c', a, b, c, '.', 'm', 'c', 'c', d, e, f] ++ ".3gppnetwork.org".toList := by
    rw [hmnc.servingNetworkName_eq]
    simp only [String.toList_append, hcode, hcountry]
    rfl
  have hmncPart : (Text.splitPattern "mnc".toList 0 (servingNetworkName mcc mnc).toList)[1]?.bind
      (Text.getTo 3) = some [a, b, c] := by
    rw [hname]
    simp [Text.splitPattern, Text.getTo, m_ne_of_isDigit, utf8Size_of_isDigit, ha, hb, hc, hd, he, hf]
  have hmccPart : (Text.splitPattern "mcc".toList 0 (servingNetworkName mcc mnc).toList)[1]?.bind
      (Text.getTo 3) = some [d, e, f] := by
    rw [hname]
    simp [Text.splitPattern, Text.getTo, m_ne_of_isDigit, utf8Size_of_isDigit, ha, hb, hc, hd, he, hf]
  have hall : ([a, b, c].all Char.isDigit && [d, e, f].all Char.isDigit) = true := by
    simp [ha, hb, hc, hd, he, hf]
  simp only [parseSnn, hmncPart, hmccPart, Option.bind_eq_bind, Option.bind_some, hall, if_true]
  rw [← hcode, ← hcountry, String.ofList_toList, String.ofList_toList]

/-- A name built from the digits that are read is the name they were read from. -/
theorem IsMnc.servingNetworkName_mnc3 {mnc : String} (h : IsMnc mnc) (mcc : String) :
    servingNetworkName mcc (mnc3 mnc) = servingNetworkName mcc mnc := by
  obtain ⟨hlength, hdigits⟩ := h.mnc3_digits
  have hthree : (mnc3 mnc).utf8ByteSize ≠ 2 := by
    rw [utf8ByteSize_of_digits hdigits, hlength]
    decide
  rw [h.servingNetworkName_eq, servingNetworkName, if_neg hthree]

/-! ### Hexadecimal -/

theorem hexDecode_hexLower (bytes : List UInt8) : hexDecode (hexLower bytes) = some bytes := by
  induction bytes with
  | nil => rfl
  | cons b bs ih =>
    have hb := b.toNat_lt
    have hhi : Text.digit 16 (Nat.digitChar (b.toNat / 16)) = some (b.toNat / 16) :=
      Text.digit_digitChar (Nat.le_refl 16) (by omega)
    have hlo : Text.digit 16 (Nat.digitChar (b.toNat % 16)) = some (b.toNat % 16) :=
      Text.digit_digitChar (Nat.le_refl 16) (by omega)
    have hrest : hexLower (b :: bs) =
        Nat.digitChar (b.toNat / 16) :: Nat.digitChar (b.toNat % 16) :: hexLower bs := rfl
    rw [hrest]
    simp only [hexDecode, hhi, hlo, ih, Option.bind_eq_bind, Option.bind_some]
    rw [Nat.div_add_mod', UInt8.ofNat_toNat]
    rfl

/-- Octets in hexadecimal are read back. -/
@[simp] theorem hexSized_hexEncode {n : Nat} (bytes : Octets n) :
    hexSized n (hexEncode bytes.val) = some bytes.val := by
  rw [hexSized, hexEncode, String.toList_ofList, hexDecode_hexLower, Option.filter_some, bytes.property,
    beq_self_eq_true, if_pos rfl]

/-! ### The vector -/

inductive StatusCode where
  | badRequest
  | forbidden
  | notFound
  | internalServerError
  | badGateway
  deriving DecidableEq, Repr

/-- A vector in hexadecimal. -/
structure HeAv where
  rand : String
  autn : String
  xresStar : String
  kausf : String
  deriving DecidableEq, Repr

structure AuthenticationInfoResult where
  authenticationVector : HeAv
  supi : String
  deriving DecidableEq, Repr

def HeAv.ofVector (av : Aka.AuthVector) : HeAv where
  rand := hexEncode av.rand.val
  autn := hexEncode av.autn.val
  xresStar := hexEncode av.xresStar.val
  kausf := hexEncode av.kausf.val

section

variable {J : Type} (M : Milenage)

/-- The UDR advances the sequence number and generates a vector against `rand`. -/
def Udr.generateAv (rand : Rand) (ueId mcc mnc : String) (g : InMemory J) :
    Except StatusCode HeAv × InMemory J :=
  match g.nextSqn ueId with
  | (none, g) => (.error .notFound, g)
  | (some sqn, g) =>
      match g.generateHeAv M ueId sqn rand mcc mnc with
      | none => (.error .internalServerError, g)
      | some av => (.ok (.ofVector av), g)

/-- The UDM finds out the SUPI and has the UDR generate a vector. -/
def generateAuthData (deconceal : String → Option String) (rand : Rand) (supiOrSuci snn : String)
    (g : InMemory J) : Except StatusCode AuthenticationInfoResult × InMemory J :=
  match deconceal supiOrSuci with
  | none => (.error .forbidden, g)
  | some supi =>
      match parseSnn snn with
      | none => (.error .badRequest, g)
      | some (mcc, mnc) =>
          match Udr.generateAv M rand supi mcc mnc g with
          | (.ok authenticationVector, g) => (.ok { authenticationVector, supi }, g)
          | (.error .notFound, g) => (.error .notFound, g)
          | (.error _, g) => (.error .badGateway, g)

variable {M}

/-- The vector of a subscriber whose UDR has its credentials and its sequence number. -/
theorem generateAuthData_eq {deconceal : String → Option String} {rand : Rand} {supiOrSuci supi : String}
    {mcc mnc : String} {g : InMemory J} {sub : SubscriberKey} {sqn : Aka.Sqn} (hmcc : IsMcc mcc)
    (hmnc : IsMnc mnc) (hsupi : deconceal supiOrSuci = some supi)
    (hsub : g.credentials.lookup supi = some sub) (hsqn : g.sqn.lookup supi = some sqn) :
    (generateAuthData M deconceal rand supiOrSuci (servingNetworkName mcc mnc) g).1 =
      match Aka.generate5gHeAv M sub (Subscribers.incrementSqn sqn) rand mcc (mnc3 mnc) with
      | some av => .ok { authenticationVector := .ofVector av, supi }
      | none => .error .badGateway := by
  have hnext : g.nextSqn supi = (some (Subscribers.incrementSqn sqn),
      { g with sqn := g.sqn.insert supi (Subscribers.incrementSqn sqn) }) := by
    rw [InMemory.nextSqn, hsub, hsqn]
    rfl
  have hav : InMemory.generateHeAv M { g with sqn := g.sqn.insert supi (Subscribers.incrementSqn sqn) } supi
      (Subscribers.incrementSqn sqn) rand mcc (mnc3 mnc) =
        Aka.generate5gHeAv M sub (Subscribers.incrementSqn sqn) rand mcc (mnc3 mnc) := by
    simp only [InMemory.generateHeAv, hsub, Option.bind_eq_bind, Option.bind_some]
  simp only [generateAuthData, hsupi, parseSnn_servingNetworkName hmcc hmnc, Udr.generateAv, hnext, hav]
  cases Aka.generate5gHeAv M sub (Subscribers.incrementSqn sqn) rand mcc (mnc3 mnc) <;> rfl

end

end Radian.Udm
