import Radian.N6.Datapath
import Radian.Octets.Basic
import Radian.Octets.OnesComplement
import Radian.Octets.Reading

/-!
# IPv6 Router Advertisements

The advertisement a UPF sends to a UE, its ICMPv6 checksum, and the UE's walk over its options.

- `routerAdvertisement` — the packet.
- `raPrefix` — the prefix read back; a read beyond the end of the packet is a fault.
- `icmpv6Checksum_inserted` — a checksum put into a zero field verifies.
- `router_advertisement_valid` — the packet verifies and is read back, and no walk faults.
-/

namespace Radian.N6

open Octets (Fault index slice)
open Pfcp (Packet Ipv6Addr ipv6At octet)
open Security (Bytes)

/-! ### Checksums -/

/-- The one's-complement sum of 16-bit words; `sum` is a `u32`. -/
def checksum (data : Bytes) : UInt16 :=
  let sum := (OnesComplement.words data).foldl (fun sum word => (sum + word) % 2 ^ 32) 0
  ~~~ UInt16.ofNat (OnesComplement.fold sum)

def octetsOf (addr : Ipv6Addr) : Bytes := Octets.ofNat 16 addr.toNat

/-- Over the IPv6 pseudo-header and the message. -/
def icmpv6Checksum (src dst : Ipv6Addr) (icmp : Bytes) : UInt16 :=
  checksum (octetsOf src ++ octetsOf dst ++ Octets.ofNat 4 icmp.length ++ [0, 0, 0, 58] ++ icmp)

/-! ### The advertisement -/

/-- `fe80::1`. -/
def ROUTER_LINK_LOCAL : Ipv6Addr := BitVec.ofNat 128 (0xfe80 * 2 ^ 112 + 1)

/-- An ICMPv6 message in a 40-octet IPv6 header. -/
def ipv6IcmpPacket (src dst : Ipv6Addr) (hopLimit : UInt8) (icmp : Bytes) : Packet :=
  [0x60, 0x00, 0x00, 0x00] ++ Octets.ofNat 2 icmp.length ++ [58, hopLimit] ++ octetsOf src ++
    octetsOf dst ++ icmp

/-- What follows the checksum: the fixed fields, and a Prefix Information option with the flags L and
A. -/
def raBody (pre : Ipv6Addr) (prefixLen : UInt8) : Bytes :=
  [64, 0x00] ++ Octets.ofNat 2 1800 ++ Octets.ofNat 4 0 ++ Octets.ofNat 4 0 ++
    [3, 4, prefixLen, 0xC0] ++ Octets.ofNat 4 86400 ++ Octets.ofNat 4 14400 ++ Octets.ofNat 4 0 ++
    octetsOf pre

/-- A Router Advertisement of a prefix, the checksum computed over a zero field. -/
def routerAdvertisement (pre : Ipv6Addr) (prefixLen : UInt8) (dst : Ipv6Addr) : Packet :=
  let icmp := [134, 0] ++ [0, 0] ++ raBody pre prefixLen
  let c := icmpv6Checksum ROUTER_LINK_LOCAL dst icmp
  ipv6IcmpPacket ROUTER_LINK_LOCAL dst 255 (icmp.take 2 ++ Octets.ofNat 2 c.toNat ++ icmp.drop 4)

/-! ### The walk over its options -/

/-- The walk from the option at `i`. -/
def raOptions (pkt : Packet) : Nat → Nat → Except Fault (Option (Ipv6Addr × UInt8))
  | 0, _ => .error .outOfFuel
  | fuel + 1, i =>
      if i + 8 ≤ pkt.length then do
        let len ← index pkt (i + 1)
        -- in units of eight octets
        let optLen := len.toNat * 8
        if optLen = 0 then return none
        else
          let kind ← index pkt i
          if kind = 3 ∧ i + 32 ≤ pkt.length then
            let prefixLen ← index pkt (i + 2)
            let octets ← slice pkt (i + 16) (i + 32)
            match Octets.ofBytes? 16 octets with
            | none => return none
            | some o => return some (BitVec.ofNat 128 (Octets.value o.val), prefixLen)
          else raOptions pkt fuel (i + optLen)
      else .ok none

/-- The prefix and the prefix length of a Router Advertisement.  A packet has no more options than
octets. -/
def raPrefix (pkt : Packet) : Except Fault (Option (Ipv6Addr × UInt8)) :=
  if pkt.length < 41 then .ok none
  else do
    let first ← index pkt 0
    let next ← index pkt 6
    let kind ← index pkt 40
    if first >>> 4 ≠ 6 ∨ next ≠ 58 ∨ kind ≠ 134 then return none
    else raOptions pkt pkt.length (40 + 16)

/-! ### The checksum verifies -/

@[simp] theorem length_octetsOf (addr : Ipv6Addr) : (octetsOf addr).length = 16 :=
  Octets.length_ofNat 16 addr.toNat

theorem value_octetsOf (addr : Ipv6Addr) : Octets.value (octetsOf addr) = addr.toNat :=
  Octets.value_ofNat_of_lt addr.isLt

/-- The sum of a short string does not overflow. -/
theorem foldl_sum {ws : List Nat} {acc : Nat} (h : acc + ws.sum < 2 ^ 32) :
    ws.foldl (fun sum word => (sum + word) % 2 ^ 32) acc = acc + ws.sum := by
  induction ws generalizing acc with
  | nil => rfl
  | cons w ws ih =>
    rw [List.sum_cons] at h ⊢
    rw [List.foldl_cons, Nat.mod_eq_of_lt (by omega), ih (by omega), Nat.add_assoc]

theorem checksum_eq {data : Bytes} (h : data.length ≤ 65536) :
    checksum data = ~~~ UInt16.ofNat (OnesComplement.fold (OnesComplement.words data).sum) := by
  have hle := OnesComplement.sum_words_le data
  rw [checksum, foldl_sum (by omega), Nat.zero_add]

/-- The complement of a word. -/
theorem toNat_complement {n : Nat} (h : n < 65536) : (~~~ UInt16.ofNat n).toNat = 65535 - n := by
  have hn : (UInt16.ofNat n).toNat = n := UInt16.toNat_ofNat_of_lt h
  rw [UInt16.toNat_not, hn]
  rfl

/-- The checksum of a string, put into a zero field of it, makes its checksum zero. -/
theorem checksum_inserted {before after : Bytes} (heven : before.length % 2 = 0)
    (hlen : before.length + after.length < 65536 - 2) :
    checksum (before ++ (Octets.ofNat 2 (checksum (before ++ ([0, 0] ++ after))).toNat ++ after)) = 0 := by
  have hzero : (OnesComplement.words (before ++ ([0, 0] ++ after))).sum =
      (OnesComplement.words before).sum + (OnesComplement.words after).sum := by
    rw [OnesComplement.sum_words_append heven, OnesComplement.sum_words_append (by rfl)]
    simp [OnesComplement.words]
  have hdata : (before ++ ([0, 0] ++ after)).length ≤ 65536 := by
    simp only [List.length_append, List.length_cons, List.length_nil]
    omega
  rw [checksum_eq hdata, hzero, toNat_complement (OnesComplement.fold_lt _)]
  generalize hsum : (OnesComplement.words before).sum + (OnesComplement.words after).sum = sum
  have hfield : (OnesComplement.words (Octets.ofNat 2 (65535 - OnesComplement.fold sum))).sum =
      65535 - OnesComplement.fold sum := by
    change (65535 - OnesComplement.fold sum) / 256 % 256 * 256 +
      (65535 - OnesComplement.fold sum) % 256 + 0 = _
    omega
  have hall : (OnesComplement.words (before ++
      (Octets.ofNat 2 (65535 - OnesComplement.fold sum) ++ after))).sum =
      sum + (65535 - OnesComplement.fold sum) := by
    rw [OnesComplement.sum_words_append heven, OnesComplement.sum_words_append (by simp), hfield, ← hsum]
    omega
  rw [checksum_eq (by simp; omega), hall, OnesComplement.fold_add_complement]
  rfl

/-- The same with the addresses of the message before it. -/
theorem icmpv6Checksum_inserted {src dst : Ipv6Addr} {head body : Bytes} (heven : head.length % 2 = 0)
    (hlen : head.length + body.length < 65536 - 42) :
    icmpv6Checksum src dst (head ++ (Octets.ofNat 2
      (icmpv6Checksum src dst (head ++ ([0, 0] ++ body))).toNat ++ body)) = 0 := by
  have hlength : ∀ field : Bytes, field.length = 2 →
      (head ++ (field ++ body)).length = head.length + 2 + body.length := by
    intro field hfield
    rw [List.length_append, List.length_append, hfield, Nat.add_assoc]
  have hpseudo : (octetsOf src ++ octetsOf dst ++ Octets.ofNat 4 (head.length + 2 + body.length) ++
      [0, 0, 0, 58] ++ head).length = 40 + head.length := by
    simp
    omega
  have hins := @checksum_inserted _ body (show _ % 2 = 0 by rw [hpseudo]; omega) (by rw [hpseudo]; omega)
  simp only [List.append_assoc] at hins
  simp only [icmpv6Checksum, hlength [0, 0] rfl, hlength _ (Octets.length_ofNat 2 _), List.append_assoc]
  exact hins

/-! ### Every walk ends within bounds -/

/-- Each option moves the walk on by eight octets at least, so it ends before its fuel does. -/
theorem raOptions_ok (pkt : Packet) {fuel i : Nat} (h : pkt.length < i + 8 * (fuel + 1)) :
    ∃ r, raOptions pkt (fuel + 1) i = .ok r := by
  induction fuel generalizing i with
  | zero =>
    rw [raOptions, if_neg (by omega)]
    exact ⟨none, rfl⟩
  | succ fuel ih =>
    rw [raOptions]
    by_cases hmore : i + 8 ≤ pkt.length
    · have hlen : i + 1 < pkt.length := by omega
      have hkind : i < pkt.length := by omega
      rw [if_pos hmore, Octets.index_of_lt hlen, Octets.index_of_lt hkind]
      change ∃ r, (if pkt[i + 1].toNat * 8 = 0 then _ else _) = Except.ok r
      by_cases hzero : pkt[i + 1].toNat * 8 = 0
      · rw [if_pos hzero]
        exact ⟨none, rfl⟩
      · rw [if_neg hzero]
        change ∃ r, (if pkt[i] = 3 ∧ i + 32 ≤ pkt.length then _ else _) = Except.ok r
        by_cases hprefix : pkt[i] = 3 ∧ i + 32 ≤ pkt.length
        · have hlast : i + 2 < pkt.length := by omega
          rw [if_pos hprefix, Octets.index_of_lt hlast, Octets.slice_of_le (by omega) hprefix.2]
          change ∃ r, (match Octets.ofBytes? 16 _ with | none => _ | some o => _) = Except.ok r
          split
          · exact ⟨none, rfl⟩
          · exact ⟨_, rfl⟩
        · rw [if_neg hprefix]
          exact ih (by omega)
    · rw [if_neg hmore]
      exact ⟨none, rfl⟩

theorem raPrefix_ok (pkt : Packet) : ∃ r, raPrefix pkt = .ok r := by
  rw [raPrefix]
  by_cases hshort : pkt.length < 41
  · rw [if_pos hshort]
    exact ⟨none, rfl⟩
  · have hfirst : 0 < pkt.length := by omega
    have hnext : 6 < pkt.length := by omega
    have hkind : 40 < pkt.length := by omega
    rw [if_neg hshort, Octets.index_of_lt hfirst, Octets.index_of_lt hnext, Octets.index_of_lt hkind]
    change ∃ r, (if pkt[0] >>> 4 ≠ 6 ∨ pkt[6] ≠ 58 ∨ pkt[40] ≠ 134 then _ else _) = Except.ok r
    split
    · exact ⟨none, rfl⟩
    · obtain ⟨fuel, hfuel⟩ := Nat.exists_eq_succ_of_ne_zero hfirst.ne'
      rw [hfuel]
      exact raOptions_ok pkt (by omega)

/-! ### The advertisement is read back -/

section Advertisement

variable (pre : Ipv6Addr) (prefixLen : UInt8) (dst : Ipv6Addr)

@[simp] theorem length_raBody : (raBody pre prefixLen).length = 44 := by simp [raBody]

/-- The message with its checksum. -/
theorem routerAdvertisement_eq : routerAdvertisement pre prefixLen dst =
    ipv6IcmpPacket ROUTER_LINK_LOCAL dst 255 ([134, 0] ++ (Octets.ofNat 2
      (icmpv6Checksum ROUTER_LINK_LOCAL dst ([134, 0] ++ ([0, 0] ++ raBody pre prefixLen))).toNat ++
        raBody pre prefixLen)) := by
  have htake : ([134, 0] ++ [0, 0] ++ raBody pre prefixLen).take 2 = [134, 0] := rfl
  have hdrop : ([134, 0] ++ [0, 0] ++ raBody pre prefixLen).drop 4 = raBody pre prefixLen := rfl
  rw [routerAdvertisement, htake, hdrop, List.append_assoc, List.append_assoc]

/-- Where the parts of a packet begin. -/
theorem ipv6IcmpPacket_parts (src : Ipv6Addr) (hopLimit : UInt8) (icmp : Bytes) :
    ipv6At (ipv6IcmpPacket src dst hopLimit icmp) 8 = src ∧
      ipv6At (ipv6IcmpPacket src dst hopLimit icmp) 24 = dst ∧
      (ipv6IcmpPacket src dst hopLimit icmp).drop 40 = icmp := by
  have hread : ∀ (addr : Ipv6Addr) (before after : Bytes) (i : Nat), before.length = i →
      ipv6At (before ++ (octetsOf addr ++ after)) i = addr := by
    intro addr before after i hi
    have hslice : ((before ++ (octetsOf addr ++ after)).drop i).take 16 = octetsOf addr := by
      rw [List.drop_left' hi, List.take_left' (length_octetsOf addr)]
    unfold ipv6At Pfcp.beNat
    rw [hslice]
    change BitVec.ofNat 128 (Octets.value (octetsOf addr)) = addr
    rw [value_octetsOf, BitVec.ofNat_toNat, BitVec.setWidth_eq]
  simp only [ipv6IcmpPacket]
  refine ⟨?_, ?_, ?_⟩
  · rw [List.append_assoc, List.append_assoc]
    exact hread src _ _ 8 rfl
  · rw [List.append_assoc]
    exact hread dst _ _ 24 (by simp)
  · exact List.drop_left' (by simp)

theorem ipv6IcmpPacket_eq (src : Ipv6Addr) (hopLimit : UInt8) (icmp : Bytes) :
    ∃ header : Bytes, header.length = 40 ∧ ipv6IcmpPacket src dst hopLimit icmp = header ++ icmp :=
  ⟨_, by simp, rfl⟩

/-- The octets of a packet that the readers look at. -/
theorem index_ipv6IcmpPacket (src : Ipv6Addr) (hopLimit : UInt8) (icmp : Bytes) (i : Nat) :
    index (ipv6IcmpPacket src dst hopLimit icmp) (40 + i) = index icmp i := by
  obtain ⟨header, h40, heq⟩ := ipv6IcmpPacket_eq dst src hopLimit icmp
  rw [heq, ← h40, Octets.index_append_right]

theorem slice_ipv6IcmpPacket (src : Ipv6Addr) (hopLimit : UInt8) (icmp : Bytes) (lo hi : Nat) :
    slice (ipv6IcmpPacket src dst hopLimit icmp) (40 + lo) (40 + hi) = slice icmp lo hi := by
  obtain ⟨header, h40, heq⟩ := ipv6IcmpPacket_eq dst src hopLimit icmp
  rw [heq, ← h40, Octets.slice_append_right]

theorem length_ipv6IcmpPacket (src : Ipv6Addr) (hopLimit : UInt8) (icmp : Bytes) :
    (ipv6IcmpPacket src dst hopLimit icmp).length = 40 + icmp.length := by
  simp [ipv6IcmpPacket]
  omega

/-- The prefix option is the first one. -/
theorem raOptions_raBody {field : Bytes} (hfield : field.length = 2) (src : Ipv6Addr) (hopLimit : UInt8)
    (fuel : Nat) :
    raOptions (ipv6IcmpPacket src dst hopLimit ([134, 0] ++ (field ++ raBody pre prefixLen))) (fuel + 1)
      (40 + 16) = .ok (some (pre, prefixLen)) := by
  obtain ⟨a, b, rfl⟩ := List.length_eq_two.mp hfield
  have hlen := length_ipv6IcmpPacket dst src hopLimit ([134, 0] ++ ([a, b] ++ raBody pre prefixLen))
  have hindex := index_ipv6IcmpPacket dst src hopLimit ([134, 0] ++ ([a, b] ++ raBody pre prefixLen))
  have hslice := slice_ipv6IcmpPacket dst src hopLimit ([134, 0] ++ ([a, b] ++ raBody pre prefixLen))
  generalize ipv6IcmpPacket src dst hopLimit ([134, 0] ++ ([a, b] ++ raBody pre prefixLen)) = pkt at *
  have h88 : pkt.length = 88 := by
    rw [hlen]
    simp
  have hkind : index pkt 56 = .ok 3 := hindex 16
  have hunits : index pkt 57 = .ok 4 := hindex 17
  have hprefixLen : index pkt 58 = .ok prefixLen := hindex 18
  have hprefix : slice pkt 72 88 = .ok (octetsOf pre) := by
    refine (hslice 32 48).trans ?_
    rw [Octets.slice_of_le (by omega) (by simp)]
    rw [show [134, 0] ++ ([a, b] ++ raBody pre prefixLen) =
      ([134, 0] ++ ([a, b] ++ ([64, 0x00] ++ Octets.ofNat 2 1800 ++ Octets.ofNat 4 0 ++ Octets.ofNat 4 0 ++
        [3, 4, prefixLen, 0xC0] ++ Octets.ofNat 4 86400 ++ Octets.ofNat 4 14400 ++ Octets.ofNat 4 0))) ++
      octetsOf pre by simp [raBody]]
    rw [List.take_of_length_le (by simp), List.drop_left' (by simp)]
  have hread : Octets.ofBytes? 16 (octetsOf pre) = some ⟨octetsOf pre, length_octetsOf pre⟩ :=
    Octets.ofBytes?_val ⟨octetsOf pre, length_octetsOf pre⟩
  have haddr : BitVec.ofNat 128 (Octets.value (octetsOf pre)) = pre := by
    rw [value_octetsOf, BitVec.ofNat_toNat, BitVec.setWidth_eq]
  simp [raOptions, hunits, hkind, hprefixLen, hprefix, hread, haddr, h88, bind, Except.bind, pure,
    Except.pure]

theorem raPrefix_routerAdvertisement :
    raPrefix (routerAdvertisement pre prefixLen dst) = .ok (some (pre, prefixLen)) := by
  rw [routerAdvertisement_eq]
  generalize hfield : Octets.ofNat 2 (icmpv6Checksum ROUTER_LINK_LOCAL dst
    ([134, 0] ++ ([0, 0] ++ raBody pre prefixLen))).toNat = field
  have hlen : field.length = 2 := by rw [← hfield, Octets.length_ofNat]
  have hlength := length_ipv6IcmpPacket dst ROUTER_LINK_LOCAL 255
    ([134, 0] ++ (field ++ raBody pre prefixLen))
  have hkind := index_ipv6IcmpPacket dst ROUTER_LINK_LOCAL 255 ([134, 0] ++ (field ++ raBody pre prefixLen)) 0
  have hoptions := raOptions_raBody pre prefixLen dst hlen ROUTER_LINK_LOCAL 255
  have hfirst : index (ipv6IcmpPacket ROUTER_LINK_LOCAL dst 255
    ([134, 0] ++ (field ++ raBody pre prefixLen))) 0 = .ok 0x60 := rfl
  have hnext : index (ipv6IcmpPacket ROUTER_LINK_LOCAL dst 255
    ([134, 0] ++ (field ++ raBody pre prefixLen))) 6 = .ok 58 := rfl
  generalize ipv6IcmpPacket ROUTER_LINK_LOCAL dst 255 ([134, 0] ++ (field ++ raBody pre prefixLen)) = pkt at *
  have h88 : pkt.length = 87 + 1 := by
    rw [hlength]
    simp [hlen]
  have hkind' : index pkt 40 = .ok 134 := hkind
  rw [raPrefix, if_neg (by omega), hfirst, hnext, hkind', h88]
  exact hoptions 87

theorem isRouterSolicitation_routerAdvertisement :
    isRouterSolicitation (routerAdvertisement pre prefixLen dst) = false := by
  rw [routerAdvertisement_eq]
  generalize Octets.ofNat 2 (icmpv6Checksum ROUTER_LINK_LOCAL dst
    ([134, 0] ++ ([0, 0] ++ raBody pre prefixLen))).toNat = field
  obtain ⟨header, h40, heq⟩ := ipv6IcmpPacket_eq dst ROUTER_LINK_LOCAL 255
    ([134, 0] ++ (field ++ raBody pre prefixLen))
  have hkind : octet (header ++ ([134, 0] ++ (field ++ raBody pre prefixLen))) 40 = 134 := by
    rw [octet, List.getD_eq_getElem?_getD, ← h40, List.getElem?_append_right le_rfl, Nat.sub_self]
    rfl
  rw [heq, isRouterSolicitation, hkind]
  exact Bool.and_false _

theorem icmpv6Checksum_routerAdvertisement :
    icmpv6Checksum (ipv6At (routerAdvertisement pre prefixLen dst) 8)
      (ipv6At (routerAdvertisement pre prefixLen dst) 24)
      ((routerAdvertisement pre prefixLen dst).drop 40) = 0 := by
  rw [routerAdvertisement_eq]
  obtain ⟨hsrc, hdst, hicmp⟩ := ipv6IcmpPacket_parts dst ROUTER_LINK_LOCAL 255 ([134, 0] ++ (Octets.ofNat 2
    (icmpv6Checksum ROUTER_LINK_LOCAL dst ([134, 0] ++ ([0, 0] ++ raBody pre prefixLen))).toNat ++
      raBody pre prefixLen))
  rw [hsrc, hdst, hicmp]
  exact icmpv6Checksum_inserted rfl (by simp)

end Advertisement

/-- Every advertisement verifies, is read back, and is no solicitation; and the walk over any packet ends
without a read beyond its end. -/
theorem router_advertisement_valid :
    (∀ (pre : Ipv6Addr) (prefixLen : UInt8) (dst : Ipv6Addr),
      icmpv6Checksum (ipv6At (routerAdvertisement pre prefixLen dst) 8)
          (ipv6At (routerAdvertisement pre prefixLen dst) 24)
          ((routerAdvertisement pre prefixLen dst).drop 40) = 0 ∧
        raPrefix (routerAdvertisement pre prefixLen dst) = .ok (some (pre, prefixLen)) ∧
        isRouterSolicitation (routerAdvertisement pre prefixLen dst) = false) ∧
    ∀ pkt : Packet, ∃ r, raPrefix pkt = .ok r := by
  refine ⟨fun pre prefixLen dst => ⟨?_, ?_, ?_⟩, raPrefix_ok⟩
  · exact icmpv6Checksum_routerAdvertisement pre prefixLen dst
  · exact raPrefix_routerAdvertisement pre prefixLen dst
  · exact isRouterSolicitation_routerAdvertisement pre prefixLen dst

end Radian.N6
