import Radian.Nas.Session

/-!
# The elements of an establishment request

A request is a fixed part and a list of optional elements.  The two readers of the AMF do not walk the
list: they look for octets, wherever these stand.

- `OptionalIe`, `establishmentRequest` — the elements, and a request of them.
- `requestedType`, `AsksDns` — what the elements say.
- `requestedPduSessionType_request` — an octet of another element may be taken for the session type.
- `request_read_iff` — when both readers are right.
-/

namespace Radian.Nas

open Security (Bytes)
open Smf (PduSessionType)

/-! ### Requests -/

/-- An optional element, by its format: type 1 with the identifier in the high nibble, and types 3, 4
and 6. -/
inductive OptionalIe where
  | half (iei : { n : Nat // 8 ≤ n ∧ n < 16 }) (value : Fin 16)
  | tv (iei : Fin 128) (value : Bytes)
  | tlv (iei : Fin 128) (value : { bs : Bytes // bs.length < 256 })
  | tlvE (iei : Fin 128) (value : { bs : Bytes // bs.length < 65536 })

namespace OptionalIe

def encode : OptionalIe → Bytes
  | half iei value => [UInt8.ofNat (iei.val * 16 + value.val)]
  | tv iei value => UInt8.ofNat iei.val :: value
  | tlv iei value => UInt8.ofNat iei.val :: UInt8.ofNat value.val.length :: value.val
  | tlvE iei value => UInt8.ofNat iei.val :: (beBytes 2 value.val.length ++ value.val)

/-- The session type that a PDU session type element names. -/
def sessionType : OptionalIe → Option PduSessionType
  | half iei value => if iei.val = 9 then pduSessionTypeFromValue (UInt8.ofNat value.val) else none
  | _ => none

end OptionalIe

/-- The containers of a list of protocol configuration options: an identifier of two octets, a length and
the contents.  A container that runs past the end is none. -/
def containers : Bytes → List ((UInt8 × UInt8) × Bytes)
  | hi :: lo :: len :: rest =>
      if len.toNat ≤ rest.length then
        ((hi, lo), rest.take len.toNat) :: containers (rest.drop len.toNat)
      else []
  | _ => []
termination_by bs => bs.length
decreasing_by
  simp only [List.length_drop, List.length_cons]
  omega

/-- The contents of the containers with identifier `0x0003` in an extended PCO element, behind its
configuration protocol octet. -/
def OptionalIe.dnsContainers : OptionalIe → List Bytes
  | .tlvE iei value =>
      if iei.val = 0x7B then
        ((containers value.val.tail).filter fun c => c.1 == (0x00, 0x03)).map Prod.snd
      else []
  | _ => []

/-- A request: the fixed part, with the integrity protection data rates, and optional elements. -/
def establishmentRequest (psi pti ulRate dlRate : UInt8) (ies : List OptionalIe) : Bytes :=
  [0x2e, psi, pti, 0xc1, ulRate, dlRate] ++ ies.flatMap OptionalIe.encode

/-! ### What a request says -/

/-- The session type of the first element that names one. -/
def requestedType (ies : List OptionalIe) : Option PduSessionType := ies.findSome? OptionalIe.sessionType

/-- An extended PCO has a container with identifier `0x0003`. -/
def AsksDns (ies : List OptionalIe) : Prop := ∃ ie ∈ ies, ie.dnsContainers ≠ []

/-! ### The session type -/

/-- The session type that an octet is taken for. -/
def readType (b : UInt8) : Option PduSessionType :=
  if b >>> 4 = 0x9 then pduSessionTypeFromValue (b &&& 0x0f) else none

/-- The session type read off the elements that stand before the first one that names a type. -/
def strayType (ies : List OptionalIe) : Option PduSessionType :=
  ((ies.takeWhile fun ie => ie.sessionType.isNone).flatMap OptionalIe.encode).findSome? readType

theorem readType_half {value : Fin 16} : readType (UInt8.ofNat (9 * 16 + value.val)) =
    pduSessionTypeFromValue (UInt8.ofNat value.val) := by
  have key : ∀ value : Fin 16, UInt8.ofNat (9 * 16 + value.val) >>> 4 = 0x9 ∧
      UInt8.ofNat (9 * 16 + value.val) &&& 0x0f = UInt8.ofNat value.val := by decide
  rw [readType, if_pos (key value).1, (key value).2]

/-- An element that names a type is the octet that is looked for. -/
theorem encode_of_sessionType {ie : OptionalIe} {ty : PduSessionType} (h : ie.sessionType = some ty) :
    ∃ b, ie.encode = [b] ∧ readType b = some ty := by
  cases ie with
  | half iei value =>
    rw [OptionalIe.sessionType] at h
    split at h
    · rename_i hiei
      refine ⟨_, rfl, ?_⟩
      rw [hiei, readType_half, h]
    · exact absurd h (by simp)
  | tv iei value => exact absurd h (by simp [OptionalIe.sessionType])
  | tlv iei value => exact absurd h (by simp [OptionalIe.sessionType])
  | tlvE iei value => exact absurd h (by simp [OptionalIe.sessionType])

/-- What a scan for the octet finds: what is read by mistake before the right element, and otherwise that
element. -/
theorem findSome?_readType (ies : List OptionalIe) :
    (ies.flatMap OptionalIe.encode).findSome? readType = (strayType ies).or (requestedType ies) := by
  induction ies with
  | nil => rfl
  | cons ie ies ih =>
    rw [List.flatMap_cons, List.findSome?_append, strayType, List.takeWhile_cons, requestedType,
      List.findSome?_cons]
    cases hty : ie.sessionType with
    | none =>
      rw [Option.isNone_none, if_pos rfl, List.flatMap_cons, List.findSome?_append, ih, strayType,
        requestedType, Option.or_assoc]
    | some ty =>
      obtain ⟨b, hencode, hread⟩ := encode_of_sessionType hty
      rw [Option.isNone_some, if_neg Bool.false_ne_true, hencode, List.findSome?_cons, hread]
      rfl

theorem requestedPduSessionType_request (psi pti ulRate dlRate : UInt8) (ies : List OptionalIe) :
    requestedPduSessionType (establishmentRequest psi pti ulRate dlRate ies) =
      (strayType ies).or (requestedType ies) :=
  findSome?_readType ies

/-- It is right when nothing is read by mistake, or the same. -/
theorem requestedPduSessionType_iff (psi pti ulRate dlRate : UInt8) (ies : List OptionalIe) :
    requestedPduSessionType (establishmentRequest psi pti ulRate dlRate ies) = requestedType ies ↔
      ∀ ty, strayType ies = some ty → requestedType ies = some ty := by
  rw [requestedPduSessionType_request]
  cases strayType ies with
  | none => simp
  | some ty => simp [eq_comm]

/-! ### The DNS request -/

/-- The octets of an empty container with identifier `0x0003`. -/
def dnsOctets : Bytes := [0x00, 0x03, 0x00]

theorem pcoRequestsIpv6Dns_iff (container : Bytes) :
    pcoRequestsIpv6Dns container = true ↔ dnsOctets <:+: container := by
  induction container using pcoRequestsIpv6Dns.induct with
  | case1 a b c rest ih =>
    have hhere : (a == 0 && b == 3 && c == 0) = true ↔ dnsOctets <+: a :: b :: c :: rest := by
      rw [dnsOctets, List.cons_prefix_cons, List.cons_prefix_cons, List.cons_prefix_cons, Bool.and_eq_true,
        Bool.and_eq_true, beq_iff_eq, beq_iff_eq, beq_iff_eq]
      constructor
      · rintro ⟨⟨rfl, rfl⟩, rfl⟩
        exact ⟨rfl, rfl, rfl, List.nil_prefix⟩
      · rintro ⟨rfl, rfl, rfl, -⟩
        exact ⟨⟨rfl, rfl⟩, rfl⟩
    rw [pcoRequestsIpv6Dns, Bool.or_eq_true, ih, hhere, ← List.infix_cons_iff]
  | case2 container hshort =>
    have hnone : pcoRequestsIpv6Dns container = false := by
      rw [pcoRequestsIpv6Dns]
      exact hshort
    rw [hnone]
    simp only [Bool.false_eq_true, false_iff]
    intro hinfix
    have hlen := hinfix.length_le
    match container, hshort, hlen with
    | a :: b :: c :: rest, hshort, _ => exact hshort a b c rest rfl

/-- An empty container with identifier `0x0003` begins in a list of containers behind `before`. -/
inductive EmptyAt : (value before : Bytes) → Prop where
  | here (rest : Bytes) : EmptyAt (0x00 :: 0x03 :: 0x00 :: rest) []
  | later (hi lo len : UInt8) {contents rest before : Bytes} (hlen : contents.length = len.toNat)
      (h : EmptyAt rest before) :
      EmptyAt (hi :: lo :: len :: (contents ++ rest)) (hi :: lo :: len :: (contents ++ before))

theorem EmptyAt.octets {value before : Bytes} (h : EmptyAt value before) :
    ∃ after, value = before ++ dnsOctets ++ after := by
  induction h with
  | here rest => exact ⟨rest, rfl⟩
  | later hi lo len hlen _ ih =>
    obtain ⟨after, rfl⟩ := ih
    exact ⟨after, by simp⟩

/-- Empty containers begin somewhere. -/
theorem exists_emptyAt_iff (value : Bytes) :
    ((0x00, 0x03), []) ∈ containers value ↔ ∃ before, EmptyAt value before := by
  constructor
  · intro h
    induction value using containers.induct with
    | case1 hi lo len rest hfits ih =>
      rw [containers, if_pos hfits] at h
      rcases List.mem_cons.mp h with heq | h
      · obtain ⟨hid, hcontents⟩ := Prod.mk.inj heq
        obtain ⟨rfl, rfl⟩ := Prod.mk.inj hid
        have hzero : len = 0 := by
          have hlen := congrArg List.length hcontents
          rw [List.length_take, Nat.min_eq_left hfits] at hlen
          exact UInt8.toNat_inj.mp hlen.symm
        subst hzero
        exact ⟨[], .here rest⟩
      · obtain ⟨before, hbefore⟩ := ih h
        have hlen : (rest.take len.toNat).length = len.toNat := by
          rw [List.length_take, Nat.min_eq_left hfits]
        have hlater := EmptyAt.later hi lo len hlen hbefore
        rw [List.take_append_drop] at hlater
        exact ⟨_, hlater⟩
    | case2 hi lo len rest hfits =>
      rw [containers, if_neg hfits] at h
      exact absurd h List.not_mem_nil
    | case3 value hshort =>
      rw [containers] at h
      · exact absurd h List.not_mem_nil
      · exact hshort
  · rintro ⟨before, h⟩
    induction h with
    | here rest => simp [containers]
    | @later hi lo len contents rest before hlen _ ih =>
      rw [containers, if_pos (by simp [hlen]), List.drop_left' hlen]
      exact List.mem_cons_of_mem _ ih

/-- An empty container with identifier `0x0003` begins in an extended PCO element behind `before`. -/
def OptionalIe.AskAt (ie : OptionalIe) (before : Bytes) : Prop :=
  ∃ value b, ie = .tlvE 0x7B value ∧ EmptyAt value.val.tail b ∧
    before = 0x7B :: (beBytes 2 value.val.length ++ (value.val.take 1 ++ b))

/-- An element of a request has an empty container with identifier `0x0003`. -/
def AsksDnsEmpty (ies : List OptionalIe) : Prop := ∃ ie ∈ ies, [] ∈ ie.dnsContainers

theorem empty_mem_dnsContainers_iff (ie : OptionalIe) : [] ∈ ie.dnsContainers ↔ ∃ before, ie.AskAt before := by
  cases ie with
  | tlvE iei value =>
    rw [OptionalIe.dnsContainers]
    constructor
    · intro h
      split at h
      · rename_i hiei
        obtain ⟨⟨id, contents⟩, hmem, rfl⟩ := List.mem_map.mp h
        obtain ⟨hmem, hid⟩ := List.mem_filter.mp hmem
        rw [beq_iff_eq] at hid
        subst hid
        obtain ⟨b, hb⟩ := (exists_emptyAt_iff _).mp hmem
        exact ⟨_, value, b, by rw [show iei = 0x7B from Fin.ext hiei], hb, rfl⟩
      · exact absurd h List.not_mem_nil
    · rintro ⟨before, value', b, heq, hb, -⟩
      cases heq
      rw [if_pos (show ((0x7B : Fin 128) : Nat) = 0x7B from rfl)]
      exact List.mem_map.mpr ⟨((0x00, 0x03), []),
        List.mem_filter.mpr ⟨(exists_emptyAt_iff _).mpr ⟨b, hb⟩, rfl⟩, rfl⟩
  | half iei value => simp [OptionalIe.dnsContainers, OptionalIe.AskAt]
  | tv iei value => simp [OptionalIe.dnsContainers, OptionalIe.AskAt]
  | tlv iei value => simp [OptionalIe.dnsContainers, OptionalIe.AskAt]

/-- Its octets stand there. -/
theorem OptionalIe.AskAt.octets {ie : OptionalIe} {before : Bytes} (h : ie.AskAt before) :
    ∃ after, ie.encode = before ++ dnsOctets ++ after := by
  obtain ⟨value, b, rfl, hb, rfl⟩ := h
  obtain ⟨after, htail⟩ := hb.octets
  refine ⟨after, ?_⟩
  have hvalue : value.val.take 1 ++ (b ++ dnsOctets ++ after) = value.val := by
    rw [← htail, ← List.drop_one, List.take_append_drop]
  calc OptionalIe.encode (.tlvE 0x7B value)
      = 0x7B :: (beBytes 2 value.val.length ++ value.val) := rfl
    _ = 0x7B :: (beBytes 2 value.val.length ++ (value.val.take 1 ++ (b ++ dnsOctets ++ after))) := by
        rw [hvalue]
    _ = _ := by simp only [List.cons_append, List.append_assoc]

/-- An empty container with identifier `0x0003` begins in a request behind `before`. -/
def AskAt (psi pti ulRate dlRate : UInt8) (ies : List OptionalIe) (before : Bytes) : Prop :=
  ∃ l ie r b, ies = l ++ ie :: r ∧ ie.AskAt b ∧ before = establishmentRequest psi pti ulRate dlRate l ++ b

/-- The octets of such a container stand where none begins. -/
def StrayDns (psi pti ulRate dlRate : UInt8) (ies : List OptionalIe) : Prop :=
  ∃ before after, establishmentRequest psi pti ulRate dlRate ies = before ++ dnsOctets ++ after ∧
    ¬ AskAt psi pti ulRate dlRate ies before

section Dns

variable {psi pti ulRate dlRate : UInt8} {ies : List OptionalIe}

theorem AsksDnsEmpty.asksDns (h : AsksDnsEmpty ies) : AsksDns ies := by
  obtain ⟨ie, hie, hempty⟩ := h
  exact ⟨ie, hie, List.ne_nil_of_mem hempty⟩

theorem asksDnsEmpty_iff : AsksDnsEmpty ies ↔ ∃ before, AskAt psi pti ulRate dlRate ies before := by
  constructor
  · rintro ⟨ie, hie, hempty⟩
    obtain ⟨l, r, rfl⟩ := List.append_of_mem hie
    obtain ⟨b, hb⟩ := (empty_mem_dnsContainers_iff ie).mp hempty
    exact ⟨_, l, ie, r, b, rfl, hb, rfl⟩
  · rintro ⟨before, l, ie, r, b, rfl, hb, -⟩
    exact ⟨ie, by simp, (empty_mem_dnsContainers_iff ie).mpr ⟨b, hb⟩⟩

theorem AskAt.octets {before : Bytes} (h : AskAt psi pti ulRate dlRate ies before) :
    ∃ after, establishmentRequest psi pti ulRate dlRate ies = before ++ dnsOctets ++ after := by
  obtain ⟨l, ie, r, b, rfl, hb, rfl⟩ := h
  obtain ⟨after, hencode⟩ := hb.octets
  refine ⟨after ++ r.flatMap OptionalIe.encode, ?_⟩
  simp only [establishmentRequest, List.flatMap_append, List.flatMap_cons, hencode, List.append_assoc]

/-- The scan finds empty containers, and stray octets. -/
theorem pcoRequestsIpv6Dns_request :
    pcoRequestsIpv6Dns (establishmentRequest psi pti ulRate dlRate ies) = true ↔
      AsksDnsEmpty ies ∨ StrayDns psi pti ulRate dlRate ies := by
  rw [pcoRequestsIpv6Dns_iff]
  constructor
  · rintro ⟨before, after, heq⟩
    by_cases hask : AskAt psi pti ulRate dlRate ies before
    · exact Or.inl (asksDnsEmpty_iff.mpr ⟨before, hask⟩)
    · exact Or.inr ⟨before, after, heq.symm, hask⟩
  · rintro (hempty | ⟨before, after, heq, -⟩)
    · obtain ⟨before, hask⟩ : ∃ before, AskAt psi pti ulRate dlRate ies before :=
        asksDnsEmpty_iff.mp hempty
      obtain ⟨after, heq⟩ := hask.octets
      exact ⟨before, after, heq.symm⟩
    · exact ⟨before, after, heq.symm⟩

/-- It is right when no octets stray into a request that asks for nothing, and a container that asks is
empty or goes with stray octets. -/
theorem pcoRequestsIpv6Dns_request_iff :
    (pcoRequestsIpv6Dns (establishmentRequest psi pti ulRate dlRate ies) = true ↔ AsksDns ies) ↔
      (StrayDns psi pti ulRate dlRate ies → AsksDns ies) ∧
        (AsksDns ies → AsksDnsEmpty ies ∨ StrayDns psi pti ulRate dlRate ies) := by
  rw [pcoRequestsIpv6Dns_request]
  constructor
  · intro h
    exact ⟨fun hstray => h.mp (Or.inr hstray), h.mpr⟩
  · rintro ⟨hstray, hempty⟩
    exact ⟨fun h => h.elim AsksDnsEmpty.asksDns hstray, hempty⟩

end Dns

/-! ### Both readers -/

/-- Both readers are right about a request exactly when no octet before the session type element is taken
for another type, no octets of an empty container stray into a request that asks for no DNS server, and a
container that asks for one is empty or goes with such octets. -/
theorem request_read_iff (psi pti ulRate dlRate : UInt8) (ies : List OptionalIe) :
    (requestedPduSessionType (establishmentRequest psi pti ulRate dlRate ies) = requestedType ies ∧
      (pcoRequestsIpv6Dns (establishmentRequest psi pti ulRate dlRate ies) = true ↔ AsksDns ies)) ↔
      ((∀ ty, strayType ies = some ty → requestedType ies = some ty) ∧
        (StrayDns psi pti ulRate dlRate ies → AsksDns ies) ∧
        (AsksDns ies → AsksDnsEmpty ies ∨ StrayDns psi pti ulRate dlRate ies)) := by
  rw [requestedPduSessionType_iff, pcoRequestsIpv6Dns_request_iff]

/-- An octet `0x91` in a capability element is taken for a session type. -/
theorem request_misread : ¬ ∀ (psi pti ulRate dlRate : UInt8) (ies : List OptionalIe),
    requestedPduSessionType (establishmentRequest psi pti ulRate dlRate ies) = requestedType ies ∧
      (pcoRequestsIpv6Dns (establishmentRequest psi pti ulRate dlRate ies) = true ↔ AsksDns ies) := by
  intro h
  have hread := (h 1 1 0xff 0xff [.tlv 0x28 ⟨[0x91], by decide⟩]).1
  exact absurd hread (by decide)

end Radian.Nas
