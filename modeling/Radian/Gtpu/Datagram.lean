import Radian.Gtpu.Chain

/-!
# GTP-U datagrams

The octets that the parsers accept, and what they read in them.

- `Datagram` — a header, its optional octets, a chain of extension headers and a payload.
- `parse_octets`, `parse_sound` — what `parse` accepts are the octets of datagrams.
- `extension_chains` — the two parsers and the chain.
-/

namespace Radian.Gtpu

open Octets (Fault index slice)
open Pfcp (Packet Teid)
open Security (Bytes toBeBytes fromBeBytes)

@[simp] theorem ok_bind {A B : Type} (a : A) (f : A → Except Fault B) :
    (Except.ok a >>= f) = f a := rfl

/-! ### Frames -/

/-- The QFI that a PDU Session Container holds. -/
def qfiIn : Bytes → Option UInt8
  | first :: second :: _ =>
      if first >>> 4 = DL_PDU_SESSION_INFORMATION ∨ first >>> 4 = UL_PDU_SESSION_INFORMATION then
        some (second &&& 0x3F)
      else none
  | _ => none

theorem qfiOf_eq (frame : Bytes) : qfiOf frame = .ok (qfiIn frame) := by
  rcases frame with _ | ⟨first, _ | ⟨second, rest⟩⟩
  · rfl
  · rfl
  · have hparse : parsePsup (first :: second :: rest) =
        if first >>> 4 = DL_PDU_SESSION_INFORMATION then
          .ok (some ⟨true, second &&& 0x3F, second &&& 0x40 != 0⟩)
        else if first >>> 4 = UL_PDU_SESSION_INFORMATION then
          .ok (some ⟨false, second &&& 0x3F, false⟩)
        else .ok none := rfl
    rw [qfiOf, hparse, qfiIn]
    by_cases hdl : first >>> 4 = DL_PDU_SESSION_INFORMATION
    · rw [if_pos hdl, if_pos (.inl hdl)]
      rfl
    · by_cases hul : first >>> 4 = UL_PDU_SESSION_INFORMATION
      · rw [if_neg hdl, if_pos hul, if_pos (.inr hul)]
        rfl
      · rw [if_neg hdl, if_neg hul, if_neg (not_or.mpr ⟨hdl, hul⟩)]
        rfl

/-! ### Datagrams -/

theorem hasOpt_of_extended {flags : UInt8} (h : (flags &&& FLAG_E != 0) = true) :
    hasOpt flags = true := by
  have hmask : flags &&& FLAG_E = flags &&& (FLAG_S ||| FLAG_E ||| FLAG_PN) &&& FLAG_E := by
    rw [UInt8.and_assoc]
    rfl
  simp only [hasOpt, bne_iff_ne, ne_eq] at h ⊢
  intro hzero
  rw [hmask, hzero, UInt8.zero_and] at h
  exact h rfl

/-- A datagram whose octets are well formed; without the E flag there is no chain. -/
structure Datagram where
  flags : UInt8
  msgType : UInt8
  length : UInt8 × UInt8
  teid : Teid
  opt : Bytes
  headers : List ExtHeader
  payload : Packet
  version : flags &&& 0xE0 = 0x20
  length_opt : opt.length = if hasOpt flags then 4 else 0
  chained : if (flags &&& FLAG_E != 0) then opt[3]? = some (firstType headers) else headers = []

namespace Datagram

def octets (g : Datagram) : Bytes :=
  [g.flags, g.msgType, g.length.1, g.length.2] ++ toBeBytes g.teid ++ g.opt ++
    chainOctets g.headers ++ g.payload

/-- The QFI of the last PDU Session Container. -/
def qfi (g : Datagram) : Option UInt8 := lastOf EXT_PDU_SESSION_CONTAINER qfiIn g.headers

/-- The frame of the last NR RAN Container. -/
def nruFrame (g : Datagram) : Option NruFrame := lastOf EXT_NR_RAN_CONTAINER parseNru g.headers

def sequence (g : Datagram) : UInt16 :=
  match g.opt with
  | high :: low :: _ => u16FromBeBytes high low
  | _ => 0

def message (g : Datagram) : N3Message := .of g.msgType g.teid g.qfi g.sequence g.payload

end Datagram

/-! ### Parsing -/

/-- The parse of a datagram with a whole header. -/
theorem parse_cons (f m l₁ l₂ t₀ t₁ t₂ t₃ : UInt8) (rest : Bytes) :
    let data := f :: m :: l₁ :: l₂ :: t₀ :: t₁ :: t₂ :: t₃ :: rest
    parse data =
      if f &&& 0xE0 ≠ 0x20 then .ok none
      else if data.length < (if hasOpt f then 12 else 8) then .ok none
      else
        readSequence data f >>= fun sequence =>
          walkFrom data f (if hasOpt f then 12 else 8) >>= fun walked =>
            match walked with
            | none => .ok none
            | some (qfi, offset) =>
              slice data offset data.length >>= fun payload =>
                .ok (some (.of m (fromBeBytes [t₀, t₁, t₂, t₃]) qfi sequence payload)) := by
  intro data
  have hlong : ¬ data.length < 8 := by simp [data]
  rw [parse, if_neg hlong]
  rfl

theorem eq_of_length_four {bs : Bytes} (h : bs.length = 4) : ∃ a b c d, bs = [a, b, c, d] := by
  match bs, h with
  | [a, b, c, d], _ => exact ⟨a, b, c, d, rfl⟩

namespace Datagram

variable (g : Datagram)

theorem octets_eq : g.octets =
    g.flags :: g.msgType :: g.length.1 :: g.length.2 :: .ofNat (g.teid.toNat / 2 ^ 24) ::
      .ofNat (g.teid.toNat / 2 ^ 16) :: .ofNat (g.teid.toNat / 2 ^ 8) :: .ofNat g.teid.toNat ::
      (g.opt ++ (chainOctets g.headers ++ g.payload)) := by
  simp [octets, toBeBytes]

theorem length_octets :
    g.octets.length = 8 + g.opt.length + (chainOctets g.headers).length + g.payload.length := by
  simp only [octets_eq, List.length_cons, List.length_append]
  omega

/-- The payload goes from where the chain ends to the end of the datagram. -/
theorem slice_payload :
    slice g.octets (8 + g.opt.length + (chainOctets g.headers).length) g.octets.length =
      .ok g.payload := by
  have hsplit : g.octets = ([g.flags, g.msgType, g.length.1, g.length.2] ++ toBeBytes g.teid ++
      g.opt ++ chainOctets g.headers) ++ g.payload := rfl
  have hplace : 8 + g.opt.length + (chainOctets g.headers).length =
      ([g.flags, g.msgType, g.length.1, g.length.2] ++ toBeBytes g.teid ++
        g.opt ++ chainOctets g.headers).length := by
    simp only [List.length_append, List.length_cons, List.length_nil, Security.length_toBeBytes]
  rw [Octets.slice_to_end (by rw [length_octets]; omega), hplace, hsplit, List.drop_left]

variable {g}

/-- With the E flag the twelfth octet announces the chain. -/
theorem opt_eq (h : (g.flags &&& FLAG_E != 0) = true) :
    ∃ a b c, g.opt = [a, b, c, firstType g.headers] := by
  have hopt := g.length_opt
  have hchained := g.chained
  rw [if_pos (hasOpt_of_extended h)] at hopt
  rw [if_pos h] at hchained
  obtain ⟨a, b, c, d, heq⟩ := eq_of_length_four hopt
  rw [heq] at hchained
  exact ⟨a, b, c, by rw [heq, show d = firstType g.headers from Option.some.inj hchained]⟩

theorem index_firstType (h : (g.flags &&& FLAG_E != 0) = true) :
    index g.octets 11 = .ok (firstType g.headers) := by
  obtain ⟨a, b, c, hopt⟩ := opt_eq h
  rw [octets_eq, hopt]
  rfl

/-- Both parsers find the chain from the thirteenth octet on. -/
theorem walk_octets {A : Type} (ext : UInt8) {decode : Bytes → Except Fault (Option A)}
    {content : Bytes → Option A} (hdecode : ∀ bs, decode bs = .ok (content bs))
    (h : (g.flags &&& FLAG_E != 0) = true) :
    walkExtensions g.octets ext decode g.octets.length (firstType g.headers) 12 none =
      .ok (some (lastOf ext content g.headers,
        8 + g.opt.length + (chainOctets g.headers).length)) := by
  obtain ⟨a, b, c, hopt⟩ := opt_eq h
  have hlen := length_octets g
  have hfour := four_mul_length_le g.headers
  have hsplit : g.octets = ([g.flags, g.msgType, g.length.1, g.length.2] ++ toBeBytes g.teid ++
      g.opt) ++ (chainOctets g.headers ++ g.payload) := by
    rw [octets, List.append_assoc]
  have hplace : ([g.flags, g.msgType, g.length.1, g.length.2] ++ toBeBytes g.teid ++
      g.opt).length = 12 := by
    simp [hopt]
  have hfuel : g.headers.length < g.octets.length := by omega
  have hwalk := walkExtensions_complete ext hdecode g.headers none hsplit hfuel
  rw [hplace, foldl_meet_none] at hwalk
  rw [hwalk, hopt]
  rfl

theorem walkFrom_octets :
    walkFrom g.octets g.flags (if hasOpt g.flags then 12 else 8) =
      .ok (some (g.qfi, 8 + g.opt.length + (chainOctets g.headers).length)) := by
  by_cases h : (g.flags &&& FLAG_E != 0) = true
  · rw [walkFrom, if_pos h, index_firstType h, if_pos (hasOpt_of_extended h)]
    exact walk_octets _ qfiOf_eq h
  · have hchained := g.chained
    rw [if_neg h] at hchained
    rw [walkFrom, if_neg h, qfi, hchained, g.length_opt]
    cases hasOpt g.flags <;> rfl

theorem readSequence_octets : readSequence g.octets g.flags = .ok g.sequence := by
  have hopt := g.length_opt
  by_cases h : hasOpt g.flags = true
  · rw [if_pos h] at hopt
    obtain ⟨a, b, c, d, heq⟩ := eq_of_length_four hopt
    rw [readSequence, if_pos h, sequence, octets_eq, heq]
    rfl
  · rw [if_neg h] at hopt
    rw [readSequence, if_neg h, sequence, List.eq_nil_of_length_eq_zero hopt]

end Datagram

theorem fromBeBytes_teid (teid : Teid) :
    fromBeBytes [.ofNat (teid.toNat / 2 ^ 24), .ofNat (teid.toNat / 2 ^ 16), .ofNat (teid.toNat / 2 ^ 8),
      .ofNat teid.toNat] = teid :=
  Security.fromBeBytes_toBeBytes teid

/-- Every datagram is parsed for what it is. -/
theorem parse_octets (g : Datagram) : parse g.octets = .ok (some g.message) := by
  have hlong : ¬ g.octets.length < (if hasOpt g.flags then 12 else 8) := by
    have hopt := g.length_opt
    rw [g.length_octets, hopt]
    split <;> omega
  have hcons := parse_cons g.flags g.msgType g.length.1 g.length.2
    (.ofNat (g.teid.toNat / 2 ^ 24)) (.ofNat (g.teid.toNat / 2 ^ 16))
    (.ofNat (g.teid.toNat / 2 ^ 8)) (.ofNat g.teid.toNat)
    (g.opt ++ (chainOctets g.headers ++ g.payload))
  simp only [← g.octets_eq] at hcons
  rw [hcons, if_neg (not_not.mpr g.version), if_neg hlong, Datagram.readSequence_octets, ok_bind,
    Datagram.walkFrom_octets, ok_bind]
  simp only [g.slice_payload, ok_bind, fromBeBytes_teid]
  rfl

/-! ### What is accepted -/

/-- A walk from the thirteenth octet on rejects, or the octets are those of a datagram. -/
theorem walk_cases {A : Type} (ext : UInt8) {decode : Bytes → Except Fault (Option A)}
    {content : Bytes → Option A} (hdecode : ∀ bs, decode bs = .ok (content bs))
    {f m l₁ l₂ t₀ t₁ t₂ t₃ a b c next : UInt8} {rest data : Bytes}
    (hdata : data = f :: m :: l₁ :: l₂ :: t₀ :: t₁ :: t₂ :: t₃ :: a :: b :: c :: next :: rest)
    (hversion : f &&& 0xE0 = 0x20) (hE : (f &&& FLAG_E != 0) = true) :
    walkExtensions data ext decode data.length next 12 none = .ok none ∨
      ∃ g : Datagram, g.octets = data := by
  have hlong : 12 ≤ data.length := by
    rw [hdata]
    simp
  have hfuel : data.length < 12 + 4 * data.length := by omega
  obtain ⟨r, hr⟩ := walkExtensions_total ext hdecode next none hlong hfuel
  rcases r with _ | ⟨last, after⟩
  · exact .inl hr
  · obtain ⟨hs, hfirst, hdrop, -, -⟩ := walkExtensions_sound ext hdecode hlong hr
    generalize data.drop after = payload at hdrop
    rw [hdata] at hdrop
    have hrest : rest = chainOctets hs ++ payload := hdrop
    right
    refine ⟨{ flags := f
              msgType := m
              length := (l₁, l₂)
              teid := fromBeBytes [t₀, t₁, t₂, t₃]
              opt := [a, b, c, next]
              headers := hs
              payload
              version := hversion
              length_opt := (if_pos (hasOpt_of_extended hE)).symm
              chained := by
                rw [if_pos hE, hfirst]
                rfl }, ?_⟩
    rw [hdata, hrest]
    simp only [Datagram.octets, Security.toBeBytes_fromBeBytes, List.append_assoc]
    rfl

/-- Octets without the E flag are those of a datagram when they hold the header. -/
theorem exists_of_plain {f m l₁ l₂ t₀ t₁ t₂ t₃ : UInt8} {rest : Bytes}
    (hversion : f &&& 0xE0 = 0x20) (hE : ¬ (f &&& FLAG_E != 0) = true)
    (hlong : (if hasOpt f then 4 else 0) ≤ rest.length) :
    ∃ g : Datagram, g.octets = f :: m :: l₁ :: l₂ :: t₀ :: t₁ :: t₂ :: t₃ :: rest := by
  refine ⟨{ flags := f
            msgType := m
            length := (l₁, l₂)
            teid := fromBeBytes [t₀, t₁, t₂, t₃]
            opt := rest.take (if hasOpt f then 4 else 0)
            headers := []
            payload := rest.drop (if hasOpt f then 4 else 0)
            version := hversion
            length_opt := by rw [List.length_take, Nat.min_eq_left hlong]
            chained := (if_neg hE).symm ▸ rfl }, ?_⟩
  simp [Datagram.octets, Security.toBeBytes_fromBeBytes, chainOctets]

theorem cons_of_length {bs : Bytes} (h : 8 ≤ bs.length) :
    ∃ f m l₁ l₂ t₀ t₁ t₂ t₃ rest, bs = f :: m :: l₁ :: l₂ :: t₀ :: t₁ :: t₂ :: t₃ :: rest := by
  match bs, h with
  | f :: m :: l₁ :: l₂ :: t₀ :: t₁ :: t₂ :: t₃ :: rest, _ =>
    exact ⟨f, m, l₁, l₂, t₀, t₁, t₂, t₃, rest, rfl⟩

theorem cons_of_length_four {bs : Bytes} (h : 4 ≤ bs.length) :
    ∃ a b c d rest, bs = a :: b :: c :: d :: rest := by
  match bs, h with
  | a :: b :: c :: d :: rest, _ => exact ⟨a, b, c, d, rest, rfl⟩

/-- What is parsed is a datagram, and a rejection is the only other outcome. -/
theorem parse_cases (data : Bytes) :
    parse data = .ok none ∨ ∃ g : Datagram, g.octets = data := by
  by_cases hshort : data.length < 8
  · exact .inl (by rw [parse, if_pos hshort])
  · obtain ⟨f, m, l₁, l₂, t₀, t₁, t₂, t₃, rest, rfl⟩ := cons_of_length (Nat.le_of_not_lt hshort)
    rw [parse_cons]
    by_cases hversion : f &&& 0xE0 = 0x20
    · rw [if_neg (not_not.mpr hversion)]
      by_cases hlong : (f :: m :: l₁ :: l₂ :: t₀ :: t₁ :: t₂ :: t₃ :: rest).length <
          (if hasOpt f then 12 else 8)
      · exact .inl (if_pos hlong)
      · by_cases hE : (f &&& FLAG_E != 0) = true
        · have hhas := hasOpt_of_extended hE
          rw [if_pos hhas] at hlong
          have hfour : 4 ≤ rest.length := by
            simp only [List.length_cons] at hlong
            omega
          obtain ⟨a, b, c, next, rest, rfl⟩ := cons_of_length_four hfour
          rcases walk_cases EXT_PDU_SESSION_CONTAINER qfiOf_eq
            (Eq.refl (f :: m :: l₁ :: l₂ :: t₀ :: t₁ :: t₂ :: t₃ :: a :: b :: c :: next :: rest))
            hversion hE with hrejects | hg
          · left
            have hnext : index (f :: m :: l₁ :: l₂ :: t₀ :: t₁ :: t₂ :: t₃ :: a :: b :: c :: next ::
                rest) 11 = .ok next := rfl
            rw [if_neg (by rw [if_pos hhas]; exact hlong), readSequence, if_pos hhas, walkFrom,
              if_pos hE, if_pos hhas, hnext, ok_bind, hrejects]
            rfl
          · exact .inr hg
        · right
          refine exists_of_plain hversion hE ?_
          simp only [List.length_cons] at hlong
          cases hhas : hasOpt f <;> simp only [hhas, if_true, Bool.false_eq_true, if_false] at hlong ⊢ <;>
            omega
    · exact .inl (if_pos hversion)

/-! ### The NR RAN Container -/

/-- The parse of a datagram with a whole header and optional octets. -/
theorem parseNrRanContainer_cons (f m l₁ l₂ t₀ t₁ t₂ t₃ a b c next : UInt8) (rest : Bytes) :
    let data := f :: m :: l₁ :: l₂ :: t₀ :: t₁ :: t₂ :: t₃ :: a :: b :: c :: next :: rest
    parseNrRanContainer data =
      if f &&& 0xE0 ≠ 0x20 ∨ m ≠ MSG_G_PDU ∨ f &&& FLAG_E = 0 then .ok none
      else
        walkExtensions data EXT_NR_RAN_CONTAINER (fun frame => .ok (parseNru frame)) data.length next
            12 none >>= fun walked =>
          match walked with
          | none => .ok none
          | some (none, _) => .ok none
          | some (some frame, offset) =>
            slice data offset data.length >>= fun payload =>
              .ok (some (fromBeBytes [t₀, t₁, t₂, t₃], frame, payload)) := by
  intro data
  have hlong : ¬ data.length < 12 := by simp [data]
  rw [parseNrRanContainer, if_neg hlong]
  rfl

/-- Of a G-PDU with a chain the last NR RAN Container is read. -/
theorem parseNrRanContainer_octets {g : Datagram} (htype : g.msgType = MSG_G_PDU)
    (h : (g.flags &&& FLAG_E != 0) = true) :
    parseNrRanContainer g.octets = .ok (g.nruFrame.map fun frame => (g.teid, frame, g.payload)) := by
  obtain ⟨a, b, c, hopt⟩ := Datagram.opt_eq h
  have hextended : g.flags &&& FLAG_E ≠ 0 := by simpa using h
  have hcons := parseNrRanContainer_cons g.flags g.msgType g.length.1 g.length.2
    (.ofNat (g.teid.toNat / 2 ^ 24)) (.ofNat (g.teid.toNat / 2 ^ 16))
    (.ofNat (g.teid.toNat / 2 ^ 8)) (.ofNat g.teid.toNat) a b c (firstType g.headers)
    (chainOctets g.headers ++ g.payload)
  have hoctets := g.octets_eq
  rw [hopt] at hoctets
  simp only [List.cons_append, List.nil_append] at hoctets
  simp only [← hoctets] at hcons
  have hdecode (frame : Bytes) : (Except.ok (parseNru frame) : Except Fault _) = .ok (parseNru frame) :=
    rfl
  have hwalk := Datagram.walk_octets EXT_NR_RAN_CONTAINER hdecode h
  rw [hcons, if_neg (by simp [g.version, htype, hextended]), hwalk, ok_bind]
  rcases hframe : lastOf EXT_NR_RAN_CONTAINER parseNru g.headers with _ | frame
  · simp only [Datagram.nruFrame, hframe, Option.map_none]
  · simp only [Datagram.nruFrame, hframe, Option.map_some, g.slice_payload, ok_bind, fromBeBytes_teid]

/-- What is read is a G-PDU with a chain, and a rejection is the only other outcome. -/
theorem parseNrRanContainer_cases (data : Bytes) :
    parseNrRanContainer data = .ok none ∨
      ∃ g : Datagram, g.octets = data ∧ g.msgType = MSG_G_PDU ∧ (g.flags &&& FLAG_E != 0) = true := by
  by_cases hshort : data.length < 12
  · exact .inl (by rw [parseNrRanContainer, if_pos hshort])
  · have height : 8 ≤ data.length := by omega
    obtain ⟨f, m, l₁, l₂, t₀, t₁, t₂, t₃, rest, rfl⟩ := cons_of_length height
    have hfour : 4 ≤ rest.length := by
      simp only [List.length_cons] at hshort
      omega
    obtain ⟨a, b, c, next, rest, rfl⟩ := cons_of_length_four hfour
    rw [parseNrRanContainer_cons]
    by_cases hnr : f &&& 0xE0 ≠ 0x20 ∨ m ≠ MSG_G_PDU ∨ f &&& FLAG_E = 0
    · exact .inl (if_pos hnr)
    · simp only [not_or, not_not] at hnr
      obtain ⟨hversion, htype, hE⟩ := hnr
      rw [if_neg (by simp [hversion, htype, hE])]
      have hdecode (frame : Bytes) :
          (Except.ok (parseNru frame) : Except Fault _) = .ok (parseNru frame) := rfl
      rcases walk_cases EXT_NR_RAN_CONTAINER hdecode
        (Eq.refl (f :: m :: l₁ :: l₂ :: t₀ :: t₁ :: t₂ :: t₃ :: a :: b :: c :: next :: rest))
        hversion (bne_iff_ne.mpr hE) with hrejects | ⟨g, hg⟩
      · exact .inl (by rw [hrejects]; rfl)
      · have hhead := g.octets_eq.symm.trans hg
        obtain ⟨hf, hhead⟩ := List.cons.inj hhead
        obtain ⟨hm, -⟩ := List.cons.inj hhead
        exact .inr ⟨g, hg, hm.trans htype, by rw [hf]; exact bne_iff_ne.mpr hE⟩

/-! ### The two parsers and the chain -/

/-- The G-PDU of a tunnel with a chain in front of the payload, as the encapsulations build it. -/
def Datagram.gPdu (teid : Teid) (headers : List ExtHeader) (payload : Packet) : Datagram where
  flags := VERSION_PT ||| FLAG_E
  msgType := MSG_G_PDU
  length :=
    let covered := 4 + (chainOctets headers).length + payload.length
    (UInt8.ofNat (covered / 2 ^ 8), UInt8.ofNat covered)
  teid
  opt := [0, 0, 0, firstType headers]
  headers
  payload
  version := by decide
  length_opt := rfl
  chained := rfl

theorem Datagram.extended_gPdu (teid : Teid) (headers : List ExtHeader) (payload : Packet) :
    ((gPdu teid headers payload).flags &&& FLAG_E != 0) = true := by
  change ((VERSION_PT ||| FLAG_E) &&& FLAG_E != 0) = true
  decide

theorem N3Message.of_eq_gPdu_iff {msgType : UInt8} {teid teid' : Teid} {qfi qfi' : Option UInt8}
    {sequence : UInt16} {payload payload' : Packet} :
    N3Message.of msgType teid qfi sequence payload = .gPdu teid' qfi' payload' ↔
      msgType = MSG_G_PDU ∧ teid = teid' ∧ qfi = qfi' ∧ payload = payload' := by
  by_cases htype : msgType = MSG_G_PDU
  · simp [N3Message.of, htype]
  · refine ⟨fun h => ?_, fun h => absurd h.1 htype⟩
    rw [N3Message.of, if_neg htype] at h
    split at h
    · cases h
    · split at h
      · cases h
      · split at h <;> cases h

/-- A chain with something in it was announced by the E flag. -/
theorem Datagram.extended_of_nruFrame {g : Datagram} {frame : NruFrame}
    (h : g.nruFrame = some frame) : (g.flags &&& FLAG_E != 0) = true := by
  by_contra hE
  have hchained := g.chained
  rw [if_neg hE] at hchained
  rw [nruFrame, hchained] at h
  cases h

/-- A G-PDU built from a tunnel, a chain and a payload is parsed into them, with the QFI of the
last PDU Session Container; an F1-U G-PDU is read exactly when the last NR RAN Container of its
chain can be; and on no octets does either walk run past them or not end. -/
theorem extension_chains :
    (∀ teid headers payload, parse (Datagram.gPdu teid headers payload).octets =
      .ok (some (.gPdu teid (lastOf EXT_PDU_SESSION_CONTAINER qfiIn headers) payload))) ∧
    (∀ data teid frame payload, parseNrRanContainer data = .ok (some (teid, frame, payload)) ↔
      ∃ qfi, parse data = .ok (some (.gPdu teid qfi payload)) ∧
        ∃ g : Datagram, g.octets = data ∧ g.nruFrame = some frame) ∧
    (∀ data, (∃ r, parse data = .ok r) ∧ ∃ r, parseNrRanContainer data = .ok r) := by
  refine ⟨fun teid headers payload => parse_octets _, fun data teid frame payload => ?_,
    fun data => ⟨?_, ?_⟩⟩
  · constructor
    · intro h
      rcases parseNrRanContainer_cases data with hrejects | ⟨g, rfl, htype, hE⟩
      · rw [hrejects] at h
        cases h
      · rw [parseNrRanContainer_octets htype hE] at h
        obtain ⟨frame', hframe, hread⟩ := Option.map_eq_some_iff.mp (Except.ok.inj h)
        obtain ⟨rfl, rfl, rfl⟩ : g.teid = teid ∧ frame' = frame ∧ g.payload = payload := by
          simpa using hread
        refine ⟨g.qfi, ?_, g, rfl, hframe⟩
        rw [parse_octets]
        exact congrArg (fun m => Except.ok (some m))
          (N3Message.of_eq_gPdu_iff.mpr ⟨htype, rfl, rfl, rfl⟩)
    · rintro ⟨qfi, hparse, g, rfl, hframe⟩
      rw [parse_octets] at hparse
      obtain ⟨htype, rfl, -, rfl⟩ :=
        N3Message.of_eq_gPdu_iff.mp (Option.some.inj (Except.ok.inj hparse))
      rw [parseNrRanContainer_octets htype (Datagram.extended_of_nruFrame hframe), hframe]
      rfl
  · rcases parse_cases data with hrejects | ⟨g, rfl⟩
    · exact ⟨none, hrejects⟩
    · exact ⟨_, parse_octets g⟩
  · rcases parseNrRanContainer_cases data with hrejects | ⟨g, rfl, htype, hE⟩
    · exact ⟨none, hrejects⟩
    · exact ⟨_, parseNrRanContainer_octets htype hE⟩

/-! ### The encapsulations -/

/-- A PDU Session Container with a frame of two octets. -/
def ExtHeader.pduSession (frame : UInt8 × UInt8) : ExtHeader where
  type := EXT_PDU_SESSION_CONTAINER
  units := 1
  content := [frame.1, frame.2]
  type_ne_zero := by decide
  units_ne_zero := by decide
  length_content := rfl

theorem encapWithContainer_eq (teid : Teid) (frame : UInt8 × UInt8) (payload : Packet) :
    encapWithContainer teid frame payload =
      (Datagram.gPdu teid [.pduSession frame] payload).octets := by
  have hcovered : 4 + (chainOctets [ExtHeader.pduSession frame]).length + payload.length =
      payload.length + 8 := by
    simp only [chainOctets, ExtHeader.pduSession, firstType, List.length_cons, List.length_append,
      List.length_nil]
    omega
  simp only [Datagram.octets, Datagram.gPdu, hcovered, encapWithContainer, lengthOctets]
  simp [chainOctets, ExtHeader.pduSession, firstType]

theorem encapNrRanContainer_eq (teid : Teid) (h : ExtHeader) (payload : Packet)
    (htype : h.type = EXT_NR_RAN_CONTAINER) :
    encapNrRanContainer teid h.content payload = (Datagram.gPdu teid [h] payload).octets := by
  have hunits : (h.content.length + 2) / 4 = h.units.toNat := by
    have hlength := h.length_content
    omega
  have hcovered : 4 + (chainOctets [h]).length + payload.length =
      4 + h.units.toNat * 4 + payload.length := by
    have hlength := h.length_content
    simp only [chainOctets, List.length_cons, List.length_append, List.length_nil]
    omega
  simp only [Datagram.octets, Datagram.gPdu, hcovered, encapNrRanContainer, lengthOctets, hunits,
    UInt8.ofNat_toNat]
  simp [chainOctets, firstType, htype]

theorem qfiIn_ulFrame (qfi : UInt8) :
    qfiIn [(ulFrame qfi).1, (ulFrame qfi).2] = some (qfi &&& 0x3F) := by
  have hmask : qfi &&& 0x3F &&& 0x3F = qfi &&& 0x3F := by
    rw [UInt8.and_assoc]
    rfl
  have htype : UL_PDU_SESSION_INFORMATION <<< 4 >>> 4 = UL_PDU_SESSION_INFORMATION := by decide
  exact (if_pos (.inr htype)).trans (congrArg some hmask)

theorem qfiIn_dlFrame (qfi : UInt8) (rqi : Bool) :
    qfiIn [(dlFrame qfi rqi).1, (dlFrame qfi rqi).2] = some (qfi &&& 0x3F) := by
  have hmask : (dlFrame qfi rqi).2 &&& 0x3F = qfi &&& 0x3F := by
    apply UInt8.eq_of_toBitVec_eq
    cases rqi <;> simp only [dlFrame, UInt8.toBitVec_and, UInt8.toBitVec_or] <;>
      rw [BitVec.and_comm, BitVec.and_or_distrib_left, BitVec.and_comm _ (_ &&& _), BitVec.and_assoc]
    · simp
    · simp
  have htype : DL_PDU_SESSION_INFORMATION <<< 4 >>> 4 = DL_PDU_SESSION_INFORMATION := by decide
  exact (if_pos (.inl htype)).trans (congrArg some hmask)

/-- The QFI that an encapsulation stamps is read back, as far as its six bits go. -/
theorem parse_encapUlQfi (teid : Teid) (qfi : UInt8) (payload : Packet) :
    parse (encapUlQfi teid qfi payload) = .ok (some (.gPdu teid (some (qfi &&& 0x3F)) payload)) := by
  rw [encapUlQfi, encapWithContainer_eq, parse_octets]
  exact congrArg (fun q => Except.ok (some (N3Message.gPdu teid q payload))) (qfiIn_ulFrame qfi)

theorem parse_encapDlQfi (teid : Teid) (qfi : UInt8) (rqi : Bool) (payload : Packet) :
    parse (encapDlQfi teid qfi rqi payload) =
      .ok (some (.gPdu teid (some (qfi &&& 0x3F)) payload)) := by
  rw [encapDlQfi, encapWithContainer_eq, parse_octets]
  exact congrArg (fun q => Except.ok (some (N3Message.gPdu teid q payload))) (qfiIn_dlFrame qfi rqi)

/-! ### F1-U -/

theorem pad_five (a b c d e : UInt8) : pad [a, b, c, d, e] = [a, b, c, d, e, 0] := by
  rw [pad, if_neg (by simp), pad, if_pos (by simp)]
  rfl

theorem pad_six (a b c d e f : UInt8) : pad [a, b, c, d, e, f] = [a, b, c, d, e, f] := by
  rw [pad, if_pos (by simp)]

/-- An NR RAN Container with a frame of six octets. -/
def ExtHeader.nrRan (a b c d e f : UInt8) : ExtHeader where
  type := EXT_NR_RAN_CONTAINER
  units := 2
  content := [a, b, c, d, e, f]
  type_ne_zero := by decide
  units_ne_zero := by decide
  length_content := rfl

/-- Three octets as a number. -/
theorem toU32_or_eq (a b c : UInt8) :
    toU32 a <<< 16 ||| toU32 b <<< 8 ||| toU32 c = fromBeBytes [0, a, b, c] := by
  have ha := a.toNat_lt
  have hb := b.toNat_lt
  have hc := c.toNat_lt
  apply BitVec.eq_of_toNat_eq
  have htoNat : (toU32 a <<< 16 ||| toU32 b <<< 8 ||| toU32 c).toNat =
      a.toNat <<< 16 ||| b.toNat <<< 8 ||| c.toNat := by
    simp only [toU32, BitVec.toNat_or, BitVec.toNat_shiftLeft, BitVec.toNat_ofNat]
    rw [Nat.mod_eq_of_lt (by omega : a.toNat < 2 ^ 32), Nat.mod_eq_of_lt (by omega : b.toNat < 2 ^ 32),
      Nat.mod_eq_of_lt (by omega : c.toNat < 2 ^ 32), Nat.shiftLeft_eq, Nat.shiftLeft_eq,
      Nat.mod_eq_of_lt (by omega : a.toNat * 2 ^ 16 < 2 ^ 32),
      Nat.mod_eq_of_lt (by omega : b.toNat * 2 ^ 8 < 2 ^ 32)]
  have hhigh : a.toNat <<< 16 ||| b.toNat <<< 8 = (a.toNat * 2 ^ 8 + b.toNat) <<< 8 := by
    rw [← Nat.shiftLeft_add_eq_or_of_lt (by rw [Nat.shiftLeft_eq]; omega), Nat.shiftLeft_eq,
      Nat.shiftLeft_eq, Nat.shiftLeft_eq]
    omega
  rw [htoNat, hhigh, ← Nat.shiftLeft_add_eq_or_of_lt (by omega), Nat.shiftLeft_eq]
  simp only [fromBeBytes, List.foldl_cons, List.foldl_nil, BitVec.toNat_ofNat]
  have hzero : (0 : UInt8).toNat = 0 := rfl
  omega

/-- The low 24 bits of a sequence number. -/
def sn24 (nruSn : BitVec 32) : BitVec 32 := fromBeBytes (0 :: (toBeBytes nruSn).drop 1)

theorem parse_encapF1uDlUserData (teid : Teid) (nruSn : BitVec 32) (pdcpPdu : Packet) :
    parseNrRanContainer (encapF1uDlUserData teid nruSn pdcpPdu) =
      .ok (some (teid, .dlUserData (sn24 nruSn), pdcpPdu)) := by
  let h := ExtHeader.nrRan (DL_USER_DATA <<< 4) 0 (.ofNat (nruSn.toNat / 2 ^ 16))
    (.ofNat (nruSn.toNat / 2 ^ 8)) (.ofNat nruSn.toNat) 0
  have hcontent : dlUserData nruSn = h.content := pad_five _ _ _ _ _
  rw [encapF1uDlUserData, hcontent, encapNrRanContainer_eq teid h pdcpPdu rfl,
    parseNrRanContainer_octets rfl (Datagram.extended_gPdu teid [h] _)]
  exact congrArg (fun sn => Except.ok (some (teid, NruFrame.dlUserData sn, pdcpPdu)))
    (toU32_or_eq _ _ _)

end Radian.Gtpu
