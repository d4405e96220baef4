import Mathlib.Data.List.Induction
import Radian.Pfcp.Types

/-!
# Flow descriptions

The text a flow classifier travels in, and the addresses inside it.

- `IpAddr.toText`, `IpPrefix.toText` — addresses as they are displayed.
- `FlowFilter.toFlowDescription`, `FlowFilter.fromFlowDescription` — a classifier as the text of an
  SDF filter.
- `fromFlowDescription_toFlowDescription` — what one end writes the other reads back.
-/

namespace Radian.Pfcp

/-! ### Displayed addresses -/

/-- Four octets in decimal. -/
def ipv4Text (a : Nat) : List Char :=
  Text.join '.' ([a / 2 ^ 24, a / 2 ^ 16 % 256, a / 2 ^ 8 % 256, a % 256].map (Text.showNat 10))

/-- The 16-bit segments of an IPv6 address, highest first. -/
def segments (a : Nat) : List Nat :=
  [a / 2 ^ 112, a / 2 ^ 96 % 65536, a / 2 ^ 80 % 65536, a / 2 ^ 64 % 65536, a / 2 ^ 48 % 65536,
    a / 2 ^ 32 % 65536, a / 2 ^ 16 % 65536, a % 65536]

/-- A run of segments that are zero. -/
structure Span where
  start : Nat
  len : Nat
  deriving DecidableEq, Repr

/-- One round of the search for the longest run: `longest` and `current`. -/
def spanStep (acc : Span × Span) (e : Nat × Nat) : Span × Span :=
  if e.1 = 0 then
    let current : Span := ⟨if acc.2.len = 0 then e.2 else acc.2.start, acc.2.len + 1⟩
    (if acc.1.len < current.len then current else acc.1, current)
  else (acc.1, ⟨0, 0⟩)

/-- The first of the longest runs of zero segments. -/
def zeroes (segs : List Nat) : Span := (segs.zipIdx.foldl spanStep (⟨0, 0⟩, ⟨0, 0⟩)).1

/-- Colon-separated segments in hexadecimal. -/
def fmtSubslice (chunk : List Nat) : List Char := Text.join ':' (chunk.map (Text.showNat 16))

/-- Eight segments, the longest run of zeros as `::`. -/
def fmtSegments (segs : List Nat) : List Char :=
  let z := zeroes segs
  if 1 < z.len then
    fmtSubslice (segs.take z.start) ++ ':' :: ':' :: fmtSubslice (segs.drop (z.start + z.len))
  else fmtSubslice segs

/-- An IPv4-mapped address shows its IPv4 address. -/
def ipv6Text (a : Nat) : List Char :=
  if a / 2 ^ 32 = 0xffff then ':' :: ':' :: 'f' :: 'f' :: 'f' :: 'f' :: ':' :: ipv4Text (a % 2 ^ 32)
  else fmtSegments (segments a)

def IpAddr.toText : IpAddr → List Char
  | .v4 a => ipv4Text a.toNat
  | .v6 a => ipv6Text a.toNat

def IpPrefix.toText (p : IpPrefix) : List Char :=
  p.addr.toText ++ '/' :: Text.showNat 10 p.len.toNat

/-! ### Descriptions -/

namespace FlowFilter

/-- The components that are there, as `key=value`. -/
def parts (f : FlowFilter) : List (List Char) :=
  (f.protocol.map fun p => "proto".toList ++ '=' :: Text.showNat 10 p.toNat).toList ++
    (f.ports.map fun r => "ports".toList ++
      '=' :: (Text.showNat 10 r.1.toNat ++ '-' :: Text.showNat 10 r.2.toNat)).toList ++
    (f.dst.map fun d => "dst".toList ++ '=' :: d.toText).toList

def toFlowDescription (f : FlowFilter) : List Char := Text.join ';' f.parts

/-- A component read into a classifier; an unknown one is skipped. -/
def readValue (f : FlowFilter) (k v : List Char) : Option FlowFilter :=
  if k = "proto".toList then
    (Text.parseUnsigned 10 8 v).map fun p => { f with protocol := some (.ofNat p) }
  else if k = "ports".toList then do
    let (lo, hi) ← Text.splitOnce '-' v
    let lo ← Text.parseUnsigned 10 16 lo
    let hi ← Text.parseUnsigned 10 16 hi
    return { f with ports := some (.ofNat lo, .ofNat hi) }
  else if k = "dst".toList then (IpPrefix.ofText v).map fun d => { f with dst := some d }
  else some f

def readPart (f : FlowFilter) (part : List Char) : Option FlowFilter :=
  (Text.splitOnce '=' part).bind fun p => readValue f p.1 p.2

/-- Read a description; without parts it is the classifier that matches everything. -/
def fromFlowDescription (s : List Char) : Option FlowFilter :=
  ((Text.splitOn ';' s).filter fun part => !part.isEmpty).foldlM readPart
    { protocol := none, ports := none, dst := none }

end FlowFilter

/-! ### IPv4 addresses read back -/

/-- A number is read up to what follows it. -/
theorem readNumber_showNat {base maxDigits n : Nat} {zeroPrefix : Bool} {rest : List Char}
    (hone : 1 < base) (hbase : base ≤ 16) (hdigits : 0 < maxDigits) (hn : n < base ^ maxDigits)
    (hrest : ∀ c ∈ rest.head?, Text.digit base c = none) :
    readNumber base maxDigits zeroPrefix (Text.showNat base n ++ rest) = some (n, rest) := by
  have hmem : ∀ c ∈ Text.showNat base n, (Text.digit base c).isSome := fun c =>
    Text.isSome_digit_of_mem hone hbase
  have htake : ((Text.showNat base n ++ rest).takeWhile fun c => (Text.digit base c).isSome) =
      Text.showNat base n := by
    rw [List.takeWhile_append_of_pos hmem]
    cases rest with
    | nil => simp
    | cons c rest => simp [hrest c rfl]
  have hlen : (Text.showNat base n).length ≤ maxDigits :=
    (Nat.length_toDigits_le_iff hone hdigits).mpr hn
  have hlead : (Text.showNat base n).head? = some '0' → (Text.showNat base n).length ≤ 1 := by
    intro hzero
    rcases Nat.eq_zero_or_pos n with h | h
    · rw [h, Text.showNat, Nat.toDigits_zero, List.length_singleton]
    · exact absurd hzero (Text.head?_showNat_ne hone hbase h)
  have hguard : ((Text.showNat base n).isEmpty || decide (maxDigits < (Text.showNat base n).length)
      || (!zeroPrefix && (Text.showNat base n).head? == some '0' &&
        decide (1 < (Text.showNat base n).length))) = false := by
    simp only [Bool.or_eq_false_iff, Bool.and_eq_false_iff, List.isEmpty_eq_false_iff,
      decide_eq_false_iff_not, not_lt, beq_eq_false_iff_ne]
    refine ⟨⟨Text.showNat_ne_nil base n, hlen⟩, ?_⟩
    by_cases hzero : (Text.showNat base n).head? = some '0'
    · exact Or.inr (hlead hzero)
    · exact Or.inl (Or.inr hzero)
  simp only [readNumber, htake, hguard, Text.readDigits_showNat hone hbase, Option.map_some,
    List.drop_left, Bool.false_eq_true, if_false]

/-- Nothing is read where no digit stands. -/
theorem readNumber_none {base maxDigits : Nat} {zeroPrefix : Bool} {cs : List Char}
    (h : ∀ c ∈ cs.head?, Text.digit base c = none) :
    readNumber base maxDigits zeroPrefix cs = none := by
  cases cs with
  | nil => simp [readNumber]
  | cons c cs => simp [readNumber, h c rfl]

theorem digit_dot (base : Nat) : Text.digit base '.' = none := by
  simp [Text.digit, Option.filter]

theorem digit_colon (base : Nat) : Text.digit base ':' = none := by
  simp [Text.digit, Option.filter]

theorem ipv4Text_eq (a : Nat) :
    ipv4Text a = Text.showNat 10 (a / 2 ^ 24) ++ '.' :: (Text.showNat 10 (a / 2 ^ 16 % 256) ++
      '.' :: (Text.showNat 10 (a / 2 ^ 8 % 256) ++ '.' :: Text.showNat 10 (a % 256))) := by
  simp [ipv4Text, Text.join]

/-- One octet of an IPv4 address, and the dot after it or the end. -/
theorem readNumber_octet {n : Nat} {rest : List Char} (hn : n < 256)
    (hrest : rest = [] ∨ ∃ r, rest = '.' :: r) :
    ((readNumber 10 3 false (Text.showNat 10 n ++ rest)).filter fun p => p.1 < 256) =
      some (n, rest) := by
  rw [readNumber_showNat (by omega) (by omega) (by omega) (by omega), Option.filter_some,
    if_pos (by simpa using hn)]
  rcases hrest with rfl | ⟨r, rfl⟩
  · simp
  · simp [digit_dot]

theorem readIpv4_ipv4Text {a : Nat} (h : a < 2 ^ 32) : readIpv4 (ipv4Text a) = some (a, []) := by
  have hlast : Text.showNat 10 (a % 256) = Text.showNat 10 (a % 256) ++ [] :=
    (List.append_nil _).symm
  rw [ipv4Text_eq, readIpv4]
  simp only [readDot, bind, Option.bind, pure,
    readNumber_octet (n := a / 2 ^ 24) (by omega) (Or.inr ⟨_, rfl⟩),
    readNumber_octet (n := a / 2 ^ 16 % 256) (by omega) (Or.inr ⟨_, rfl⟩),
    readNumber_octet (n := a / 2 ^ 8 % 256) (by omega) (Or.inr ⟨_, rfl⟩)]
  rw [hlast, readNumber_octet (by omega) (Or.inl rfl)]
  simp only [Option.some.injEq, Prod.mk.injEq, and_true]
  omega

/-! ### IPv6 addresses read back -/

/-- Without a dot there is no IPv4 address. -/
theorem readIpv4_of_no_dot {cs : List Char} (h : '.' ∉ cs) : readIpv4 cs = none := by
  simp only [readIpv4, Option.bind_eq_bind]
  rcases hoctet : (readNumber 10 3 false cs).filter fun p => p.1 < 256 with _ | ⟨a, rest⟩
  · rw [hoctet, Option.bind_none]
  · have hrest : ∃ k, rest = cs.drop k := by
      obtain ⟨hread, -⟩ := Option.filter_eq_some_iff.mp hoctet
      simp only [readNumber] at hread
      split at hread
      · exact absurd hread (by simp)
      · obtain ⟨n, -, hn⟩ := Option.map_eq_some_iff.mp hread
        exact ⟨_, (Prod.mk.inj hn).2.symm⟩
    obtain ⟨k, rfl⟩ := hrest
    have hdot : readDot (cs.drop k) = none := by
      unfold readDot
      split
      · rename_i r heq
        exact absurd (List.mem_of_mem_drop (heq ▸ List.mem_cons_self)) h
      · rfl
    rw [hoctet, Option.bind_some, hdot, Option.bind_none]

/-- Where a run of groups ends: at the end, or at a `::`. -/
def Stops (rest : List Char) : Prop := rest = [] ∨ ∃ r, rest = ':' :: ':' :: r

theorem Stops.digit {rest : List Char} (h : Stops rest) (base : Nat) :
    ∀ c ∈ rest.head?, Text.digit base c = none := by
  rcases h with rfl | ⟨r, rfl⟩
  · simp
  · simp [digit_colon]

/-- Groups behind a colon each. -/
def tailText (gs : List Nat) : List Char := gs.flatMap fun g => ':' :: Text.showNat 16 g

theorem fmtSubslice_cons (g : Nat) (gs : List Nat) :
    fmtSubslice (g :: gs) = Text.showNat 16 g ++ tailText gs := by
  rw [fmtSubslice, List.map_cons, Text.join_cons, tailText, List.flatMap_map]

theorem tailText_digit {gs : List Nat} {rest : List Char} (h : Stops rest) :
    ∀ c ∈ (tailText gs ++ rest).head?, Text.digit 16 c = none := by
  cases gs with
  | nil => exact h.digit 16
  | cons g gs => simp [tailText, digit_colon]

/-- What is left behind the colon before a group. -/
def groupBody (first : Bool) (cs : List Char) : Option (List Char) :=
  if first then some cs else
    match cs with
    | ':' :: rest => some rest
    | _ => none

theorem readGroups_succ (n : Nat) (first : Bool) (cs : List Char) :
    readGroups (n + 1) first cs =
      match if 0 < n then (groupBody first cs).bind readIpv4 else none with
      | some (a, rest) => ([a / 65536, a % 65536], true, rest)
      | none =>
        match (groupBody first cs).bind (readNumber 16 4 true) with
        | some (g, rest) =>
          (g :: (readGroups n false rest).1, (readGroups n false rest).2.1,
            (readGroups n false rest).2.2)
        | none => ([], false, cs) := rfl

/-- One group is read, and the groups behind it. -/
theorem readGroups_group {n g : Nat} {gs : List Nat} {rest : List Char} {body : List Char}
    {first : Bool} (hbody : groupBody first body = some (Text.showNat 16 g ++ (tailText gs ++ rest)))
    (hg : g < 65536) (hstops : Stops rest) (hdot : '.' ∉ Text.showNat 16 g ++ (tailText gs ++ rest))
    (hrest : readGroups n false (tailText gs ++ rest) = (gs, false, rest)) :
    readGroups (n + 1) first body = (g :: gs, false, rest) := by
  have hread : readNumber 16 4 true (Text.showNat 16 g ++ (tailText gs ++ rest)) =
      some (g, tailText gs ++ rest) :=
    readNumber_showNat (by omega) (by omega) (by omega) (by omega) (tailText_digit hstops)
  simp only [readGroups_succ, hbody, Option.bind_some, readIpv4_of_no_dot hdot, ite_self, hread,
    hrest]

/-- No group is read. -/
theorem readGroups_nil {n : Nat} {first : Bool} {cs : List Char}
    (h : ∀ body ∈ groupBody first cs, readIpv4 body = none ∧ readNumber 16 4 true body = none) :
    readGroups n first cs = ([], false, cs) := by
  cases n with
  | zero => rfl
  | succ n =>
    rw [readGroups_succ]
    rcases hbody : groupBody first cs with _ | body
    · simp
    · obtain ⟨hip, hnum⟩ := h body hbody
      simp [hip, hnum]

theorem readGroups_tailText {gs : List Nat} {n : Nat} {rest : List Char} (hlen : gs.length ≤ n)
    (hsmall : ∀ g ∈ gs, g < 65536) (hdot : '.' ∉ tailText gs ++ rest) (hstops : Stops rest) :
    readGroups n false (tailText gs ++ rest) = (gs, false, rest) := by
  induction gs generalizing n with
  | nil =>
    apply readGroups_nil
    intro body hbody
    rcases hstops with rfl | ⟨r, rfl⟩
    · exact absurd hbody (by simp [tailText, groupBody])
    · have heq : body = ':' :: r := by simpa [tailText, groupBody] using hbody.symm
      rw [heq]
      exact ⟨readIpv4_of_no_dot (by simpa [tailText] using hdot),
        readNumber_none (by simp [digit_colon])⟩
  | cons g gs ih =>
    cases n with
    | zero => exact absurd hlen (by simp)
    | succ n =>
      have htext : tailText (g :: gs) ++ rest =
          ':' :: (Text.showNat 16 g ++ (tailText gs ++ rest)) := by
        simp [tailText]
      rw [htext] at hdot ⊢
      rw [List.mem_cons, not_or] at hdot
      apply readGroups_group rfl (hsmall g List.mem_cons_self) hstops hdot.2
      apply ih (by simpa using hlen) (fun x hx => hsmall x (List.mem_cons_of_mem g hx))
      intro hmem
      exact hdot.2 (List.mem_append_right _ hmem)

/-- A run of groups is read up to where it ends. -/
theorem readGroups_fmtSubslice {gs : List Nat} {n : Nat} {rest : List Char} (hlen : gs.length ≤ n)
    (hsmall : ∀ g ∈ gs, g < 65536) (hdot : '.' ∉ fmtSubslice gs ++ rest) (hstops : Stops rest) :
    readGroups n true (fmtSubslice gs ++ rest) = (gs, false, rest) := by
  cases gs with
  | nil =>
    apply readGroups_nil
    intro body hbody
    have heq : body = rest := by simpa [fmtSubslice, Text.join, groupBody] using hbody.symm
    rw [heq]
    exact ⟨readIpv4_of_no_dot (by simpa [fmtSubslice, Text.join] using hdot),
      readNumber_none (hstops.digit 16)⟩
  | cons g gs =>
    cases n with
    | zero => exact absurd hlen (by simp)
    | succ n =>
      rw [fmtSubslice_cons, List.append_assoc] at hdot ⊢
      apply readGroups_group rfl (hsmall g List.mem_cons_self) hstops hdot
      apply readGroups_tailText (by simpa using hlen)
        (fun x hx => hsmall x (List.mem_cons_of_mem g hx)) _ hstops
      intro hmem
      exact hdot (List.mem_append_right _ hmem)

/-! #### The run of zeros -/

/-- A span of the segments that holds zeros only. -/
def ZeroRun (segs : List Nat) (z : Span) : Prop :=
  ∃ x y, segs = x ++ (List.replicate z.len 0 ++ y) ∧ x.length = z.start

/-- While segments are read the longest run is one of theirs, and the current one ends them. -/
theorem foldl_spanStep (segs : List Nat) :
    ZeroRun segs (segs.zipIdx.foldl spanStep (⟨0, 0⟩, ⟨0, 0⟩)).1 ∧
      let current := (segs.zipIdx.foldl spanStep (⟨0, 0⟩, ⟨0, 0⟩)).2
      0 < current.len → ∃ x, segs = x ++ List.replicate current.len 0 ∧ x.length = current.start := by
  induction segs using List.reverseRecOn with
  | nil => exact ⟨⟨[], [], rfl, rfl⟩, fun h => absurd h (by simp)⟩
  | append_singleton segs seg ih =>
    rw [List.zipIdx_append, List.foldl_append, List.zipIdx_singleton, Nat.zero_add]
    generalize segs.zipIdx.foldl spanStep (⟨0, 0⟩, ⟨0, 0⟩) = acc at ih ⊢
    obtain ⟨longest, current⟩ := acc
    obtain ⟨⟨x, y, hsegs, hx⟩, hcurrent⟩ := ih
    have hkeep : ZeroRun (segs ++ [seg]) longest := by
      refine ⟨x, y ++ [seg], ?_, hx⟩
      rw [hsegs]
      simp
    simp only [List.foldl_cons, List.foldl_nil, spanStep]
    by_cases hseg : seg = 0
    · rw [if_pos hseg]
      have hnew : ∃ x, segs ++ [seg] = x ++ List.replicate (current.len + 1) 0 ∧
          x.length = if current.len = 0 then segs.length else current.start := by
        by_cases hlen : current.len = 0
        · exact ⟨segs, by simp [hlen, hseg], by simp [hlen]⟩
        · obtain ⟨x, hx, hstart⟩ := hcurrent (Nat.pos_of_ne_zero hlen)
          refine ⟨x, ?_, by simp [hlen, hstart]⟩
          rw [hseg, List.replicate_succ', ← List.append_assoc, ← hx]
      obtain ⟨x', hx', hstart⟩ := hnew
      refine ⟨?_, fun _ => ⟨x', hx', hstart⟩⟩
      split
      · exact ⟨x', [], by simpa using hx', hstart⟩
      · exact hkeep
    · rw [if_neg hseg]
      exact ⟨hkeep, fun h => absurd h (by simp)⟩

theorem zeroRun_zeroes (segs : List Nat) : ZeroRun segs (zeroes segs) := (foldl_spanStep segs).1

/-! #### Eight segments -/

theorem joinGroups_segments {a : Nat} (h : a < 2 ^ 128) : joinGroups (segments a) = a := by
  simp only [joinGroups, segments, List.foldl_cons, List.foldl_nil]
  omega

theorem length_segments (a : Nat) : (segments a).length = 8 := rfl

theorem segments_lt {a : Nat} (h : a < 2 ^ 128) : ∀ g ∈ segments a, g < 65536 := by
  intro g hg
  simp only [segments, List.mem_cons, List.not_mem_nil, or_false] at hg
  omega

/-- What a displayed run of groups is made of. -/
theorem mem_fmtSubslice {gs : List Nat} {c : Char} (h : c ∈ fmtSubslice gs) :
    c = ':' ∨ (Text.digit 16 c).isSome := by
  rcases Text.mem_join h with hsep | ⟨part, hpart, hc⟩
  · exact Or.inl hsep
  · obtain ⟨g, -, rfl⟩ := List.mem_map.mp hpart
    exact Or.inr (Text.isSome_digit_of_mem (by omega) (by omega) hc)

theorem mem_fmtSegments {segs : List Nat} {c : Char} (h : c ∈ fmtSegments segs) :
    c = ':' ∨ (Text.digit 16 c).isSome := by
  rw [fmtSegments] at h
  split at h
  · simp only [List.mem_append, List.mem_cons] at h
    rcases h with h | h | h | h
    · exact mem_fmtSubslice h
    · exact Or.inl h
    · exact Or.inl h
    · exact mem_fmtSubslice h
  · exact mem_fmtSubslice h

theorem not_dot_mem_fmtSegments (segs : List Nat) : '.' ∉ fmtSegments segs := by
  intro h
  rcases mem_fmtSegments h with h | h
  · exact absurd h (by decide)
  · rw [digit_dot] at h
    exact absurd h (by simp)

theorem readIpv6_fmtSegments {segs : List Nat} (hlen : segs.length = 8)
    (hsmall : ∀ g ∈ segs, g < 65536) : readIpv6 (fmtSegments segs) = some (joinGroups segs, []) := by
  have hdot := not_dot_mem_fmtSegments segs
  rw [fmtSegments] at hdot ⊢
  by_cases hz : 1 < (zeroes segs).len
  · -- two runs of groups around the `::`
    rw [if_pos hz] at hdot ⊢
    obtain ⟨x, y, hsegs, hx⟩ := zeroRun_zeroes segs
    generalize zeroes segs = z at *
    have htake : segs.take z.start = x := by rw [hsegs, ← hx, List.take_left]
    have hdrop : segs.drop (z.start + z.len) = y := by
      rw [hsegs, ← hx, ← List.append_assoc]
      exact List.drop_left' (by simp)
    rw [htake, hdrop] at hdot ⊢
    have hcount : x.length + z.len + y.length = 8 := by
      rw [← hlen, hsegs]
      simp only [List.length_append, List.length_replicate]
      omega
    have hxs : ∀ g ∈ x, g < 65536 := fun g hg => hsmall g (by rw [hsegs]; simp [hg])
    have hys : ∀ g ∈ y, g < 65536 := fun g hg => hsmall g (by rw [hsegs]; simp [hg])
    have hhead := readGroups_fmtSubslice (n := 8) (by omega) hxs hdot (Or.inr ⟨_, rfl⟩)
    have hdoty : '.' ∉ fmtSubslice y ++ [] := by
      intro hmem
      rw [List.append_nil] at hmem
      exact hdot (by simp [hmem])
    have htail := readGroups_fmtSubslice (n := 8 - (x.length + 1)) (by omega) hys hdoty (Or.inl rfl)
    rw [List.append_nil] at htail
    have hxlen : ¬ x.length = 8 := by omega
    have hfill : 8 - x.length - y.length = z.len := by omega
    simp only [readIpv6, hhead, hxlen, if_false, Bool.false_eq_true, htail, hfill, hsegs,
      List.append_assoc]
  · -- all eight groups
    rw [if_neg hz] at hdot ⊢
    have hall : readGroups 8 true (fmtSubslice segs ++ []) = (segs, false, []) :=
      readGroups_fmtSubslice (by omega) hsmall (by simpa using hdot) (Or.inl rfl)
    rw [List.append_nil] at hall
    simp only [readIpv6, hall, hlen, if_true]

/-! ### Descriptions read back -/

theorem readIpv6_mapped {a : Nat} (h : a < 2 ^ 32) :
    readIpv6 (':' :: ':' :: 'f' :: 'f' :: 'f' :: 'f' :: ':' :: ipv4Text a) =
      some (0xffff * 2 ^ 32 + a, []) := by
  have hhead (cs : List Char) : readGroups 8 true (':' :: cs) = ([], false, ':' :: cs) := by
    apply readGroups_nil
    intro body hbody
    have heq : body = ':' :: cs := by simpa [groupBody] using hbody.symm
    rw [heq]
    have hnum (m : Nat) (z : Bool) (base : Nat) : readNumber base m z (':' :: cs) = none :=
      readNumber_none (by simp [digit_colon])
    exact ⟨by simp [readIpv4, hnum], hnum 4 true 16⟩
  have hlast : readGroups (5 + 1) false (':' :: ipv4Text a) =
      ([a / 65536, a % 65536], true, []) := by
    rw [readGroups_succ]
    simp [groupBody, readIpv4_ipv4Text h]
  have htail : readGroups (6 + 1) true ('f' :: 'f' :: 'f' :: 'f' :: ':' :: ipv4Text a) =
      ([0xffff, a / 65536, a % 65536], true, []) := by
    have hip : readIpv4 ('f' :: 'f' :: 'f' :: 'f' :: ':' :: ipv4Text a) = none := by
      have hnum : readNumber 10 3 false ('f' :: 'f' :: 'f' :: 'f' :: ':' :: ipv4Text a) = none :=
        readNumber_none (by simp; decide)
      simp [readIpv4, hnum]
    have hgroup : readNumber 16 4 true ('f' :: 'f' :: 'f' :: 'f' :: ':' :: ipv4Text a) =
        some (0xffff, ':' :: ipv4Text a) :=
      readNumber_showNat (n := 0xffff) (by omega) (by omega) (by omega) (by omega)
        (by simp [digit_colon])
    rw [readGroups_succ]
    simp only [groupBody, if_true, Option.bind_some, hip, ite_self, hgroup, hlast]
  have hrest : readGroups (8 - (([] : List Nat).length + 1)) true
      ('f' :: 'f' :: 'f' :: 'f' :: ':' :: ipv4Text a) = ([0xffff, a / 65536, a % 65536], true, []) :=
    htail
  simp only [readIpv6, hhead, hrest]
  simp [joinGroups, List.replicate]
  omega

theorem readIpv6_ipv6Text {a : Nat} (h : a < 2 ^ 128) : readIpv6 (ipv6Text a) = some (a, []) := by
  rw [ipv6Text]
  split
  · rename_i hmapped
    rw [readIpv6_mapped (Nat.mod_lt a (by omega))]
    simp only [Option.some.injEq, Prod.mk.injEq, and_true]
    omega
  · rw [readIpv6_fmtSegments (length_segments a) (segments_lt h), joinGroups_segments h]

/-- The text of an IPv6 address does not read as an IPv4 address. -/
theorem readIpv4_ipv6Text (a : Nat) : readIpv4 (ipv6Text a) = none := by
  rw [ipv6Text]
  split
  · have hnum (cs : List Char) : readNumber 10 3 false (':' :: cs) = none :=
      readNumber_none (by simp [digit_colon])
    simp [readIpv4, hnum]
  · exact readIpv4_of_no_dot (not_dot_mem_fmtSegments _)

theorem IpAddr.fromStr_toText (a : IpAddr) : IpAddr.fromStr a.toText = some a := by
  cases a with
  | v4 a => simp [IpAddr.fromStr, IpAddr.toText, readIpv4_ipv4Text a.isLt]
  | v6 a =>
    simp [IpAddr.fromStr, IpAddr.toText, readIpv4_ipv6Text, readIpv6_ipv6Text a.isLt]

/-- What a displayed address is made of. -/
theorem mem_toText {a : IpAddr} {c : Char} (h : c ∈ a.toText) :
    c = '.' ∨ c = ':' ∨ (Text.digit 16 c).isSome := by
  have hv4 : ∀ n, c ∈ ipv4Text n → c = '.' ∨ c = ':' ∨ (Text.digit 16 c).isSome := by
    intro n hc
    rcases Text.mem_join hc with hsep | ⟨part, hpart, hc⟩
    · exact Or.inl hsep
    · obtain ⟨octet, -, rfl⟩ := List.mem_map.mp hpart
      refine Or.inr (Or.inr ?_)
      have hten := Text.isSome_digit_of_mem (by omega) (by omega) hc
      obtain ⟨v, hv⟩ := Option.isSome_iff_exists.mp hten
      obtain ⟨hval, hlt⟩ := Option.filter_eq_some_iff.mp hv
      rw [Text.digit, hval]
      have hlt : v < 10 := by simpa using hlt
      simp [Option.filter]
      omega
  cases a with
  | v4 a => exact hv4 a.toNat h
  | v6 a =>
    rw [IpAddr.toText, ipv6Text] at h
    split at h
    · simp only [List.mem_cons] at h
      rcases h with h | h | h | h | h | h | h | h
      · exact Or.inr (Or.inl h)
      · exact Or.inr (Or.inl h)
      · exact Or.inr (Or.inr (by rw [h]; rfl))
      · exact Or.inr (Or.inr (by rw [h]; rfl))
      · exact Or.inr (Or.inr (by rw [h]; rfl))
      · exact Or.inr (Or.inr (by rw [h]; rfl))
      · exact Or.inr (Or.inl h)
      · exact hv4 _ h
    · exact Or.inr (mem_fmtSegments h)

theorem not_mem_toText {a : IpAddr} {c : Char} (hdot : c ≠ '.') (hcolon : c ≠ ':')
    (hdigit : Text.digit 16 c = none) : c ∉ a.toText := by
  intro h
  rcases mem_toText h with h | h | h
  · exact hdot h
  · exact hcolon h
  · rw [hdigit] at h
    exact absurd h (by simp)

theorem IpPrefix.ofText_toText (p : IpPrefix) : IpPrefix.ofText p.toText = some p := by
  have hslash : '/' ∉ p.addr.toText := not_mem_toText (by decide) (by decide) (by decide)
  have hlen : Text.parseUnsigned 10 8 (Text.showNat 10 p.len.toNat) = some p.len.toNat :=
    Text.parseUnsigned_showNat (by omega) (by omega) p.len.toNat_lt
  simp [IpPrefix.ofText, IpPrefix.toText, Text.splitOnce_append _ hslash, IpAddr.fromStr_toText,
    hlen]

namespace FlowFilter

theorem readPart_value (f : FlowFilter) {k : List Char} (v : List Char) (h : '=' ∉ k) :
    readPart f (k ++ '=' :: v) = readValue f k v := by
  rw [readPart, Text.splitOnce_append v h, Option.bind_some]

theorem readPart_proto (f : FlowFilter) (p : UInt8) :
    readPart f ("proto".toList ++ '=' :: Text.showNat 10 p.toNat) =
      some { f with protocol := some p } := by
  have hp : Text.parseUnsigned 10 8 (Text.showNat 10 p.toNat) = some p.toNat :=
    Text.parseUnsigned_showNat (by omega) (by omega) p.toNat_lt
  rw [readPart_value f _ (by decide), readValue, if_pos rfl, hp, Option.map_some,
    UInt8.ofNat_toNat]

theorem readPart_ports (f : FlowFilter) (r : UInt16 × UInt16) :
    readPart f ("ports".toList ++
        '=' :: (Text.showNat 10 r.1.toNat ++ '-' :: Text.showNat 10 r.2.toNat)) =
      some { f with ports := some r } := by
  have hdash : '-' ∉ Text.showNat 10 r.1.toNat :=
    Text.not_mem_showNat (by omega) (by omega) (by decide)
  have hlo : Text.parseUnsigned 10 16 (Text.showNat 10 r.1.toNat) = some r.1.toNat :=
    Text.parseUnsigned_showNat (by omega) (by omega) r.1.toNat_lt
  have hhi : Text.parseUnsigned 10 16 (Text.showNat 10 r.2.toNat) = some r.2.toNat :=
    Text.parseUnsigned_showNat (by omega) (by omega) r.2.toNat_lt
  rw [readPart_value f _ (by decide), readValue, if_neg (by decide), if_pos rfl,
    Text.splitOnce_append _ hdash]
  simp [hlo, hhi]

theorem readPart_dst (f : FlowFilter) (d : IpPrefix) :
    readPart f ("dst".toList ++ '=' :: d.toText) = some { f with dst := some d } := by
  rw [readPart_value f _ (by decide), readValue, if_neg (by decide), if_neg (by decide), if_pos rfl,
    IpPrefix.ofText_toText, Option.map_some]

/-- No component contains what separates them. -/
theorem not_mem_parts (f : FlowFilter) : ∀ part ∈ f.parts, ';' ∉ part := by
  have hnum (n : Nat) : ';' ∉ Text.showNat 10 n :=
    Text.not_mem_showNat (by omega) (by omega) (by decide)
  have haddr (a : IpAddr) : ';' ∉ a.toText := not_mem_toText (by decide) (by decide) (by decide)
  intro part hpart
  simp only [parts, List.mem_append, Option.mem_toList, Option.map_eq_some_iff] at hpart
  rcases hpart with (⟨p, -, rfl⟩ | ⟨r, -, rfl⟩) | ⟨d, -, rfl⟩
  · simp [hnum]
  · simp [hnum]
  · simp [IpPrefix.toText, hnum, haddr]

theorem parts_ne_nil (f : FlowFilter) : ∀ part ∈ f.parts, part.isEmpty = false := by
  intro part hpart
  simp only [parts, List.mem_append, Option.mem_toList, Option.map_eq_some_iff] at hpart
  rcases hpart with (⟨p, -, rfl⟩ | ⟨r, -, rfl⟩) | ⟨d, -, rfl⟩ <;> simp

/-- What is left of a description once it is split. -/
theorem filter_splitOn (f : FlowFilter) :
    ((Text.splitOn ';' f.toFlowDescription).filter fun part => !part.isEmpty) = f.parts := by
  have hkeep : (f.parts.filter fun part => !part.isEmpty) = f.parts := by
    rw [List.filter_eq_self]
    intro part hpart
    rw [parts_ne_nil f part hpart, Bool.not_false]
  by_cases hempty : f.parts = []
  · simp [toFlowDescription, hempty, Text.join, Text.splitOn]
  · rw [toFlowDescription, Text.splitOn_join hempty (not_mem_parts f), hkeep]

/-- A description is read back as the classifier it was written for. -/
theorem fromFlowDescription_toFlowDescription (f : FlowFilter) :
    fromFlowDescription f.toFlowDescription = some f := by
  rw [fromFlowDescription, filter_splitOn]
  obtain ⟨protocol, ports, dst⟩ := f
  cases protocol <;> cases ports <;> cases dst <;>
    simp [-String.reduceToList, parts, List.foldlM, readPart_proto, readPart_ports, readPart_dst]

end FlowFilter

end Radian.Pfcp
