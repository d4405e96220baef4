import Radian.Gtpu.Datagram

/-!
# The Length field

Where a datagram ends by its Length field, and where the parsers take it to end.

- `Datagram.of_prefix` — octets begin with at most one datagram, up to what is left of the payload.
- `Bounded`, `BoundedNr` — what a parser reads lies within the declared length.
- `length_covers_iff` — when it does, and when an encapsulation declares its length.
-/

namespace Radian.Gtpu

open Pfcp (Packet Teid)
open Security (Bytes)

/-- The Length field of a header. -/
def lengthField : Bytes → Nat
  | _ :: _ :: high :: low :: _ => high.toNat * 256 + low.toNat
  | _ => 0

namespace Datagram

/-- The octets after the first eight: the optional ones, the chain and the payload. -/
def covered (g : Datagram) : Nat :=
  g.opt.length + (chainOctets g.headers).length + g.payload.length

theorem covered_add (g : Datagram) : g.covered + 8 = g.octets.length := by
  rw [length_octets, covered]
  omega

end Datagram

/-! ### One datagram -/

/-- Octets begin with one chain at most. -/
theorem chain_unique {hs hs' : List ExtHeader} (hfirst : firstType hs = firstType hs')
    {post post' : Bytes} (h : chainOctets hs ++ post = chainOctets hs' ++ post') :
    (chainOctets hs).length = (chainOctets hs').length := by
  induction hs generalizing hs' with
  | nil =>
    cases hs' with
    | nil => rfl
    | cons k ks => exact absurd hfirst.symm k.type_ne_zero
  | cons e es ih =>
    cases hs' with
    | nil => exact absurd hfirst e.type_ne_zero
    | cons k ks =>
      simp only [chainOctets, List.cons_append, List.append_assoc, List.cons.injEq] at h
      obtain ⟨hunits, hrest⟩ := h
      have hlength : e.content.length = k.content.length := by
        have he := e.length_content
        have hk := k.length_content
        rw [hunits] at he
        omega
      obtain ⟨-, htail⟩ := List.append_inj hrest hlength
      obtain ⟨hnext, hchain⟩ := List.cons.inj htail
      simp only [chainOctets, List.length_cons, List.length_append, hlength, ih hnext hchain]

namespace Datagram

/-- Octets begin with one datagram at most, up to how much of them is payload. -/
theorem of_prefix {g g' : Datagram} {rest : Bytes} (h : g.octets = g'.octets ++ rest) :
    g.flags = g'.flags ∧ g.msgType = g'.msgType ∧ g.opt.length = g'.opt.length ∧
      (chainOctets g.headers).length = (chainOctets g'.headers).length ∧
      g.payload = g'.payload ++ rest := by
  rw [octets_eq, octets_eq] at h
  simp only [List.cons_append, List.cons.injEq, List.append_assoc] at h
  obtain ⟨hflags, htype, -, -, -, -, -, -, htail⟩ := h
  have hopt : g.opt.length = g'.opt.length := by
    rw [g.length_opt, g'.length_opt, hflags]
  obtain ⟨hoptEq, hrest⟩ := List.append_inj htail hopt
  have hchain : (chainOctets g.headers).length = (chainOctets g'.headers).length := by
    have hchained := g.chained
    have hchained' := g'.chained
    rw [← hflags, ← hoptEq] at hchained'
    by_cases hE : (g.flags &&& FLAG_E != 0) = true
    · rw [if_pos hE] at hchained hchained'
      exact chain_unique (Option.mem_unique hchained hchained') hrest
    · rw [if_neg hE] at hchained hchained'
      rw [hchained, hchained']
  exact ⟨hflags, htype, hopt, hchain, (List.append_inj hrest hchain).2⟩

/-- A datagram with its payload cut. -/
def cut (g : Datagram) (n : Nat) : Datagram := { g with payload := g.payload.take n }

theorem octets_cut (g : Datagram) (n : Nat) :
    g.octets = (g.cut n).octets ++ g.payload.drop n := by
  simp [octets, cut]

/-- Only a G-PDU is read for its payload. -/
theorem message_cut {g : Datagram} (h : g.msgType ≠ MSG_G_PDU) (n : Nat) :
    (g.cut n).message = g.message := by
  have hcut : (g.cut n).msgType ≠ MSG_G_PDU := h
  rw [message, message, N3Message.of, N3Message.of, if_neg hcut, if_neg h]
  rfl

end Datagram

/-! ### Within the declared length -/

/-- What `parse` reads is a datagram as long as the Length field says; the octets behind it are
left out. -/
def Bounded (data : Bytes) : Prop :=
  ∀ m, parse data = .ok (some m) →
    ∃ (g : Datagram) (rest : Bytes), data = g.octets ++ rest ∧ g.message = m ∧
      lengthField data = g.covered

/-- What `parseNrRanContainer` reads is one, too. -/
def BoundedNr (data : Bytes) : Prop :=
  ∀ teid frame payload, parseNrRanContainer data = .ok (some (teid, frame, payload)) →
    ∃ (g : Datagram) (rest : Bytes), data = g.octets ++ rest ∧ g.teid = teid ∧
      g.nruFrame = some frame ∧ g.payload = payload ∧ lengthField data = g.covered

/-- The Length field is the size but for the first eight octets; or there is no user data, and it
ends behind the chain. -/
def Declared (g : Datagram) : Prop :=
  lengthField g.octets + 8 = g.octets.length ∨
    g.msgType ≠ MSG_G_PDU ∧ g.opt.length + (chainOctets g.headers).length ≤ lengthField g.octets ∧
      lengthField g.octets + 8 ≤ g.octets.length

theorem bounded_octets_iff (g : Datagram) : Bounded g.octets ↔ Declared g := by
  have hsize := g.covered_add
  constructor
  · intro h
    obtain ⟨g', rest, hprefix, hmessage, hlength⟩ := h g.message (parse_octets g)
    obtain ⟨-, -, hopt, hchain, hpayload⟩ := Datagram.of_prefix hprefix
    have hlen := congrArg List.length hpayload
    rw [List.length_append] at hlen
    by_cases hgpdu : g.msgType = MSG_G_PDU
    · left
      obtain ⟨-, -, -, hsame⟩ := N3Message.of_eq_gPdu_iff.mp
        (hmessage.trans (N3Message.of_eq_gPdu_iff.mpr ⟨hgpdu, rfl, rfl, rfl⟩))
      rw [← hsize, hlength, Datagram.covered, Datagram.covered, hopt, hchain, hsame]
    · right
      rw [← hsize, hlength, Datagram.covered, Datagram.covered]
      exact ⟨hgpdu, by omega, by omega⟩
  · intro h m hm
    obtain rfl : g.message = m := by
      rw [parse_octets] at hm
      exact Option.some.inj (Except.ok.inj hm)
    rcases h with hwhole | ⟨htype, hlow, hhigh⟩
    · exact ⟨g, [], (List.append_nil _).symm, rfl, by omega⟩
    · let n := lengthField g.octets - (g.opt.length + (chainOctets g.headers).length)
      refine ⟨g.cut n, g.payload.drop n, g.octets_cut n, Datagram.message_cut htype n, ?_⟩
      have hcut : (g.cut n).covered =
          g.opt.length + (chainOctets g.headers).length + min n g.payload.length := by
        rw [Datagram.covered, Datagram.cut, List.length_take]
      rw [← hsize, Datagram.covered] at hhigh
      rw [hcut]
      omega

theorem boundedNr_octets_iff (g : Datagram) :
    BoundedNr g.octets ↔
      (g.msgType = MSG_G_PDU → g.nruFrame.isSome → lengthField g.octets + 8 = g.octets.length) := by
  have hsize := g.covered_add
  constructor
  · intro h htype hframe
    obtain ⟨frame, hframe⟩ := Option.isSome_iff_exists.mp hframe
    have hparse := parseNrRanContainer_octets htype (Datagram.extended_of_nruFrame hframe)
    rw [hframe] at hparse
    obtain ⟨g', rest, hprefix, -, -, hsame, hlength⟩ := h g.teid frame g.payload hparse
    obtain ⟨-, -, hopt, hchain, -⟩ := Datagram.of_prefix hprefix
    rw [← hsize, hlength, Datagram.covered, Datagram.covered, hopt, hchain, hsame]
  · intro h teid frame payload hparse
    rcases parseNrRanContainer_cases g.octets with hrejects | ⟨g', hg', htype', hE'⟩
    · rw [hrejects] at hparse
      cases hparse
    · have hsame : g'.octets = g.octets ++ [] := hg'.trans (List.append_nil _).symm
      obtain ⟨hflags, htype, -⟩ := Datagram.of_prefix hsame
      rw [htype'] at htype
      rw [hflags] at hE'
      rw [parseNrRanContainer_octets htype.symm hE'] at hparse
      obtain ⟨frame', hframe, hread⟩ := Option.map_eq_some_iff.mp (Except.ok.inj hparse)
      obtain ⟨rfl, rfl, rfl⟩ : g.teid = teid ∧ frame' = frame ∧ g.payload = payload := by
        simpa using hread
      have hlength := h htype.symm (Option.isSome_of_eq_some hframe)
      exact ⟨g, [], (List.append_nil _).symm, rfl, hframe, rfl, by omega⟩

/-! ### What encapsulations declare -/

/-- A length in 16 bits. -/
theorem lengthField_octets (g : Datagram) :
    lengthField g.octets = g.length.1.toNat * 256 + g.length.2.toNat := rfl

theorem lengthField_gPdu (teid : Teid) (headers : List ExtHeader) (payload : Packet) :
    lengthField (Datagram.gPdu teid headers payload).octets =
      (Datagram.gPdu teid headers payload).covered % 2 ^ 16 := by
  have hcovered : (Datagram.gPdu teid headers payload).covered =
      4 + (chainOctets headers).length + payload.length := rfl
  rw [lengthField_octets, hcovered]
  simp only [Datagram.gPdu, UInt8.toNat_ofNat']
  omega

theorem bounded_gPdu_iff (teid : Teid) (headers : List ExtHeader) (payload : Packet) :
    Bounded (Datagram.gPdu teid headers payload).octets ↔
      4 + (chainOctets headers).length + payload.length < 2 ^ 16 := by
  have hcovered : (Datagram.gPdu teid headers payload).covered =
      4 + (chainOctets headers).length + payload.length := rfl
  rw [bounded_octets_iff, Declared, ← Datagram.covered_add, lengthField_gPdu, hcovered]
  constructor
  · rintro (h | ⟨htype, -⟩)
    · omega
    · exact absurd rfl htype
  · intro h
    exact .inl (by rw [Nat.mod_eq_of_lt h])

/-- A bare G-PDU as a datagram. -/
def Datagram.bare (teid : Teid) (payload : Packet) : Datagram where
  flags := VERSION_PT
  msgType := MSG_G_PDU
  length := (UInt8.ofNat (payload.length / 2 ^ 8), UInt8.ofNat payload.length)
  teid
  opt := []
  headers := []
  payload
  version := by decide
  length_opt := rfl
  chained := rfl

theorem encap_eq (teid : Teid) (payload : Packet) :
    encap teid payload = (Datagram.bare teid payload).octets := by
  simp [encap, Datagram.octets, Datagram.bare, chainOctets, lengthOctets]

theorem decap_encap (teid : Teid) (payload : Packet) :
    decap (encap teid payload) = .ok (some (teid, payload)) := by
  have hmessage : (Datagram.bare teid payload).message = .gPdu teid none payload := rfl
  rw [decap, encap_eq, parse_octets, hmessage]
  rfl

theorem length_encap (teid : Teid) (payload : Packet) :
    (encap teid payload).length = payload.length + 8 := by
  simp only [encap, lengthOctets, List.length_append, List.length_cons, List.length_nil,
    Security.length_toBeBytes]
  omega

theorem length_encapF1uDlUserData (teid : Teid) (nruSn : BitVec 32) (pdcpPdu : Packet) :
    (encapF1uDlUserData teid nruSn pdcpPdu).length = pdcpPdu.length + 20 := by
  have hframe : dlUserData nruSn = [DL_USER_DATA <<< 4, 0, .ofNat (nruSn.toNat / 2 ^ 16),
      .ofNat (nruSn.toNat / 2 ^ 8), .ofNat nruSn.toNat, 0] := pad_five _ _ _ _ _
  simp only [encapF1uDlUserData, encapNrRanContainer, hframe, lengthOctets, List.length_append,
    List.length_cons, List.length_nil, Security.length_toBeBytes]
  omega

theorem bounded_encap_iff (teid : Teid) (payload : Packet) :
    Bounded (encap teid payload) ↔ payload.length < 2 ^ 16 := by
  have hcovered : (Datagram.bare teid payload).covered = payload.length := by
    simp [Datagram.covered, Datagram.bare, chainOctets]
  have hlength : lengthField (Datagram.bare teid payload).octets = payload.length % 2 ^ 16 := by
    rw [lengthField_octets]
    simp only [Datagram.bare, UInt8.toNat_ofNat']
    omega
  rw [encap_eq, bounded_octets_iff, Declared, ← Datagram.covered_add, hlength, hcovered]
  constructor
  · rintro (h | ⟨htype, -⟩)
    · omega
    · exact absurd rfl htype
  · intro h
    exact .inl (by rw [Nat.mod_eq_of_lt h])

theorem bounded_encapWithContainer_iff (teid : Teid) (frame : UInt8 × UInt8) (payload : Packet) :
    Bounded (encapWithContainer teid frame payload) ↔ payload.length + 8 < 2 ^ 16 := by
  have hchain : (chainOctets [ExtHeader.pduSession frame]).length = 4 := rfl
  rw [encapWithContainer_eq, bounded_gPdu_iff, hchain]
  omega

section F1U

variable (teid : Teid) (a b c d e f : UInt8) (payload : Packet)

/-- An F1-U encapsulation, whose container takes eight octets. -/
theorem bounded_nrRan_iff :
    Bounded (encapNrRanContainer teid [a, b, c, d, e, f] payload) ↔
      payload.length + 12 < 2 ^ 16 := by
  have hchain : (chainOctets [ExtHeader.nrRan a b c d e f]).length = 8 := rfl
  rw [show [a, b, c, d, e, f] = (ExtHeader.nrRan a b c d e f).content from rfl,
    encapNrRanContainer_eq teid _ payload rfl, bounded_gPdu_iff, hchain]
  omega

theorem boundedNr_nrRan_iff (h : (parseNru [a, b, c, d, e, f]).isSome) :
    BoundedNr (encapNrRanContainer teid [a, b, c, d, e, f] payload) ↔
      payload.length + 12 < 2 ^ 16 := by
  have hchain : (chainOctets [ExtHeader.nrRan a b c d e f]).length = 8 := rfl
  have hcovered : (Datagram.gPdu teid [ExtHeader.nrRan a b c d e f] payload).covered =
      4 + 8 + payload.length := rfl
  have hframe : (Datagram.gPdu teid [ExtHeader.nrRan a b c d e f] payload).nruFrame =
      parseNru [a, b, c, d, e, f] := rfl
  rw [show [a, b, c, d, e, f] = (ExtHeader.nrRan a b c d e f).content from rfl,
    encapNrRanContainer_eq teid _ payload rfl, boundedNr_octets_iff, hframe,
    ← Datagram.covered_add, lengthField_gPdu, hcovered]
  constructor
  · intro hlength
    have := hlength rfl h
    omega
  · intro hlength _ _
    omega

end F1U

/-- What the parsers read of a datagram they accept is as long as its Length field says exactly when
that says the size, and the Length field of an encapsulation does exactly when it can hold it. -/
theorem length_covers_iff (data : Bytes) (teid : Teid) (qfi : UInt8) (rqi : Bool)
    (nruSn desiredBufferSize : BitVec 32) (payload : Packet) :
    (Bounded data ↔ ∀ g : Datagram, g.octets = data → Declared g) ∧
    (BoundedNr data ↔ ∀ g : Datagram, g.octets = data → g.msgType = MSG_G_PDU →
      g.nruFrame.isSome → lengthField data + 8 = data.length) ∧
    (Bounded (encap teid payload) ↔ payload.length < 2 ^ 16) ∧
    (Bounded (encapUlQfi teid qfi payload) ↔ payload.length + 8 < 2 ^ 16) ∧
    (Bounded (encapDlQfi teid qfi rqi payload) ↔ payload.length + 8 < 2 ^ 16) ∧
    ((Bounded (encapF1uDlUserData teid nruSn payload) ↔ payload.length + 12 < 2 ^ 16) ∧
      (BoundedNr (encapF1uDlUserData teid nruSn payload) ↔ payload.length + 12 < 2 ^ 16)) ∧
    Bounded (encapF1uDeliveryStatus teid desiredBufferSize) ∧
      BoundedNr (encapF1uDeliveryStatus teid desiredBufferSize) := by
  refine ⟨?_, ?_, bounded_encap_iff teid payload, bounded_encapWithContainer_iff teid _ payload,
    bounded_encapWithContainer_iff teid _ payload, ?_, ?_⟩
  · constructor
    · rintro h g rfl
      exact (bounded_octets_iff g).mp h
    · intro h
      rcases parse_cases data with hrejects | ⟨g, hg⟩
      · intro m hm
        rw [hrejects] at hm
        cases hm
      · exact hg ▸ (bounded_octets_iff g).mpr (h g hg)
  · constructor
    · rintro h g rfl
      exact (boundedNr_octets_iff g).mp h
    · intro h
      rcases parseNrRanContainer_cases data with hrejects | ⟨g, hg, -⟩
      · intro teid frame payload hread
        rw [hrejects] at hread
        cases hread
      · refine hg ▸ (boundedNr_octets_iff g).mpr ?_
        rw [hg]
        exact h g hg
  · have hframe : dlUserData nruSn = [DL_USER_DATA <<< 4, 0, .ofNat (nruSn.toNat / 2 ^ 16),
        .ofNat (nruSn.toNat / 2 ^ 8), .ofNat nruSn.toNat, 0] := pad_five _ _ _ _ _
    rw [encapF1uDlUserData, hframe]
    exact ⟨bounded_nrRan_iff teid _ _ _ _ _ _ payload,
      boundedNr_nrRan_iff teid _ _ _ _ _ _ payload rfl⟩
  · have hframe : dlDataDeliveryStatus desiredBufferSize = [DL_DATA_DELIVERY_STATUS <<< 4, 0,
        .ofNat (desiredBufferSize.toNat / 2 ^ 24), .ofNat (desiredBufferSize.toNat / 2 ^ 16),
        .ofNat (desiredBufferSize.toNat / 2 ^ 8), .ofNat desiredBufferSize.toNat] :=
      pad_six _ _ _ _ _ _
    rw [encapF1uDeliveryStatus, hframe]
    exact ⟨(bounded_nrRan_iff teid _ _ _ _ _ _ []).mpr (by decide),
      (boundedNr_nrRan_iff teid _ _ _ _ _ _ [] rfl).mpr (by decide)⟩

/-- An octet behind the declared length is taken for user data. -/
theorem not_length_covers : ¬ ∀ data, Bounded data := by
  intro h
  let g : Datagram := { Datagram.bare 1 [] with payload := [0xAA] }
  rcases (bounded_octets_iff g).mp (h g.octets) with hlength | ⟨htype, -⟩
  · exact absurd hlength (by decide)
  · exact absurd rfl htype

end Radian.Gtpu
