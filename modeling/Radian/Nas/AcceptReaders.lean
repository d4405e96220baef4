import Radian.Nas.Session
import Radian.Octets.Basic
import Radian.Scan.Basic

/-!
# Reading an establishment accept

The UE looks for the address, the cause and the DNS server of an accept by their first octets, wherever
these stand, and the values of other elements may contain the same octets.

- `pduAddressFromEstablishmentAccept`, `accept5gsmCause`, `dnsIpv6FromEstablishmentAccept` — the readers.
- `Fields`, `Fields.accept` — what an accept is made of, and its octets up to each element.
- `address_read_iff`, `cause_read_iff`, `dns_read_iff` — when each reader is right.
- `accept_read_iff` — when all of them are.
-/

namespace Radian.Nas

open Security (Bytes toBeBytes fromBeBytes)
open Pfcp (Ipv6Addr)

/-! ### The readers -/

/-- The PDU address at the start of a string: an identifier `0x29`, a length, a type and the address. -/
def readAddress : Bytes → Option PduAddress
  | 0x29 :: len :: ty :: rest =>
      -- `get(i + 3..i + 2 + len)`
      if 1 ≤ len.toNat ∧ len.toNat - 1 ≤ rest.length then
        let body := rest.take (len.toNat - 1)
        if ty &&& 0x07 = 1 ∧ len = 5 then some (.ipv4 (fromBeBytes body))
        else if ty &&& 0x07 = 2 ∧ len = 9 then some (.ipv6 (BitVec.ofNat 64 (Octets.value body)))
        else if ty &&& 0x07 = 3 ∧ len = 13 then
          some (.ipv4v6 (BitVec.ofNat 64 (Octets.value (body.take 8))) (fromBeBytes (body.drop 8)))
        else none
      else none
  | _ => none

def pduAddressFromEstablishmentAccept (container : Bytes) : Option PduAddress :=
  Scan.first readAddress container

/-- The octet behind an identifier `0x59`. -/
def readCause : Bytes → Option UInt8
  | tag :: cause :: _ => if tag = 0x59 then some cause else none
  | _ => none

/-- The 5GSM cause, looked for behind the fixed header. -/
def accept5gsmCause (container : Bytes) : Option UInt8 :=
  if container.length < 5 then none else Scan.first readCause (container.drop 5)

/-- The address behind the octets of a container `0x0003` of sixteen octets. -/
def readDns : Bytes → Option Ipv6Addr
  | 0x00 :: 0x03 :: 16 :: rest =>
      if 16 ≤ rest.length then some (BitVec.ofNat 128 (Octets.value (rest.take 16))) else none
  | _ => none

def dnsIpv6FromEstablishmentAccept (container : Bytes) : Option Ipv6Addr := Scan.first readDns container

/-! ### An accept by its elements -/

/-- What an accept is made of. -/
structure Fields where
  psi : UInt8
  pti : UInt8
  addr : PduAddress
  dnn : String
  snssai : Snssai
  ambr : SessionAmbr
  flows : List QosFlowDesc
  cause : Option UInt8
  dnsIpv6 : Option Ipv6Addr

namespace Fields

variable (a : Fields)

def accept : Bytes :=
  pduSessionEstablishmentAccept a.psi a.pti a.addr a.dnn a.snssai a.ambr a.flows a.cause a.dnsIpv6

/-- The header, with the selected SSC mode and session type. -/
def header : Bytes := [0x2e, a.psi, a.pti, 0xc2, 0x10 ||| pduSessionTypeValue a.addr.sessionType]

/-- The QoS rules and the length of the session AMBR, with their lengths. -/
def rules : Bytes := [0x00, 0x09, 0x01, 0x00, 0x06, 0x31, 0x31, 0x01, 0x01, 0xff, 0x01, 6]

/-- The octets of the session AMBR. -/
def ambrOctets : Bytes :=
  [a.ambr.dlUnit] ++ beBytes 2 a.ambr.dl.toNat ++ [a.ambr.ulUnit] ++ beBytes 2 a.ambr.ul.toNat

def causeIe : Bytes :=
  match a.cause with
  | some c => [0x59, c]
  | none => []

def addressIe : Bytes :=
  0x29 ::
    match a.addr with
    | .ipv4 v4 => [5, 0x01] ++ toBeBytes v4
    | .ipv6 iid => [9, 0x02] ++ beBytes 8 iid.toNat
    | .ipv4v6 iid v4 => [13, 0x03] ++ beBytes 8 iid.toNat ++ toBeBytes v4

def snssaiIe : Bytes :=
  0x22 ::
    match a.snssai with
    | (sst, some sd) => [4, sst] ++ beBytes 3 sd.toNat
    | (sst, none) => [1, sst]

def flowsIe : Bytes :=
  let descriptions := qosFlowDescriptionsValue a.flows
  if a.flows.isEmpty then [] else 0x79 :: beBytes 2 descriptions.length ++ descriptions

def dnsIe : Bytes :=
  match a.dnsIpv6 with
  | some dns => 0x7b :: beBytes 2 20 ++ [0x80, 0x00, 0x03, 16] ++ beBytes 16 dns.toNat
  | none => []

def dnnIe : Bytes := 0x25 :: UInt8.ofNat (rfc1035Labels a.dnn).length :: rfc1035Labels a.dnn

/-- What follows the address. -/
def afterAddress : Bytes := a.snssaiIe ++ a.flowsIe ++ a.dnsIe ++ a.dnnIe

/-- An accept is its elements one behind the other. -/
theorem accept_eq :
    a.accept = a.header ++ (rules ++ (a.ambrOctets ++ (a.causeIe ++ (a.addressIe ++ a.afterAddress)))) := by
  have hlen : beBytes 2 9 = [0x00, 0x09] := rfl
  calc a.accept
    _ = a.header ++ beBytes 2 9 ++ [0x01, 0x00, 0x06, 0x31, 0x31, 0x01, 0x01, 0xff, 0x01] ++
          [6, a.ambr.dlUnit] ++ beBytes 2 a.ambr.dl.toNat ++ [a.ambr.ulUnit] ++
          beBytes 2 a.ambr.ul.toNat ++ a.causeIe ++ a.addressIe ++ a.snssaiIe ++ a.flowsIe ++ a.dnsIe ++
          a.dnnIe := rfl
    _ = _ := by
      simp only [hlen, rules, ambrOctets, afterAddress, List.append_assoc, List.cons_append, List.nil_append]

end Fields

/-! ### Numbers -/

/-- The octets of a number are those of the library. -/
theorem beBytes_eq (n v : Nat) : beBytes n v = Octets.ofNat n v := by
  induction n generalizing v with
  | zero => rfl
  | succ n ih =>
    rw [Octets.ofNat, ← ih, beBytes, List.range_succ_eq_map, List.reverse_cons, List.map_append,
      ← List.map_reverse, List.map_map, beBytes]
    congr 1
    · apply List.map_congr_left
      intro i _
      rw [Function.comp_apply, Nat.succ_eq_add_one, Nat.pow_succ', Nat.div_div_eq_div_mul]
    · have hmod : UInt8.ofNat (v % 256) = UInt8.ofNat v := UInt8.ofNat_mod_size
      simp [hmod]

@[simp] theorem length_beBytes (n v : Nat) : (beBytes n v).length = n := by
  rw [beBytes_eq, Octets.length_ofNat]

/-- A bit vector is read back from its octets. -/
theorem ofNat_value_beBytes {n w : Nat} (hw : 2 ^ w = 256 ^ n) (x : BitVec w) :
    BitVec.ofNat w (Octets.value (beBytes n x.toNat)) = x := by
  have hlt := x.isLt
  rw [hw] at hlt
  rw [beBytes_eq, Octets.value_ofNat_of_lt hlt, BitVec.ofNat_toNat, BitVec.setWidth_eq]

/-! ### The address -/

/-- The address element is read as the address, whatever follows it. -/
theorem readAddress_addressIe (a : Fields) (post : Bytes) : readAddress (a.addressIe ++ post) = some a.addr := by
  unfold Fields.addressIe
  cases a.addr with
  | ipv4 v4 =>
    have htype : (0x01 : UInt8) &&& 0x07 = 1 := rfl
    have htake : (toBeBytes v4 ++ post).take 4 = toBeBytes v4 :=
      List.take_left' (Security.length_toBeBytes v4)
    simp [readAddress, htype, htake]
  | ipv6 iid =>
    have htype : (0x02 : UInt8) &&& 0x07 = 2 := rfl
    have htake : (beBytes 8 iid.toNat ++ post).take 8 = beBytes 8 iid.toNat :=
      List.take_left' (length_beBytes 8 iid.toNat)
    have hiid : BitVec.ofNat 64 (Octets.value (beBytes 8 iid.toNat)) = iid :=
      ofNat_value_beBytes rfl iid
    simp [readAddress, htype, htake, hiid]
  | ipv4v6 iid v4 =>
    have htype : (0x03 : UInt8) &&& 0x07 = 3 := rfl
    have htake : (beBytes 8 iid.toNat ++ (toBeBytes v4 ++ post)).take 12 =
        beBytes 8 iid.toNat ++ toBeBytes v4 := by
      rw [← List.append_assoc, List.take_left' (by simp)]
    have hhead : (beBytes 8 iid.toNat ++ toBeBytes v4).take 8 = beBytes 8 iid.toNat :=
      List.take_left' (length_beBytes 8 iid.toNat)
    have htail : (beBytes 8 iid.toNat ++ toBeBytes v4).drop 8 = toBeBytes v4 :=
      List.drop_left' (length_beBytes 8 iid.toNat)
    have hiid : BitVec.ofNat 64 (Octets.value (beBytes 8 iid.toNat)) = iid :=
      ofNat_value_beBytes rfl iid
    have hlen : 12 ≤ 8 + (4 + post.length) := by omega
    simp [readAddress, htype, htake, hhead, htail, hiid, hlen]

/-- What does not begin with the identifier and one of three lengths is no address. -/
theorem readAddress_eq_none {b len : UInt8} {rest : Bytes}
    (h : b ≠ 0x29 ∨ (len ≠ 5 ∧ len ≠ 9 ∧ len ≠ 13)) : readAddress (b :: len :: rest) = none := by
  unfold readAddress
  split
  · rename_i heq
    obtain ⟨rfl, htail⟩ := List.cons.inj heq
    obtain ⟨rfl, -⟩ := List.cons.inj htail
    rcases h with h | ⟨h5, h9, h13⟩
    · exact absurd rfl h
    · split
      · simp [h5, h9, h13]
      · rfl
  · rfl

section Readers

variable (a : Fields)

/-- No octet of the session AMBR is where another address is read. -/
def Fields.AddressAlone : Prop :=
  ∀ addr, Scan.within readAddress a.ambrOctets (a.causeIe ++ (a.addressIe ++ a.afterAddress)) = some addr →
    addr = a.addr

/-- Nothing is read as an address in the header. -/
theorem within_header (hpsi : a.psi ≤ 15) (rest : Bytes) :
    Scan.within readAddress a.header (Fields.rules ++ rest) = none := by
  have hne : a.psi ≠ 0x29 := by
    rintro heq
    rw [heq] at hpsi
    exact absurd hpsi (by decide)
  have hty : 0x10 ||| pduSessionTypeValue a.addr.sessionType ≠ 0x29 := by
    cases a.addr.sessionType <;> decide
  unfold Fields.header Fields.rules
  rw [Scan.within_cons_of_none (readAddress_eq_none (Or.inl (by decide))),
    Scan.within_cons_of_none (readAddress_eq_none (Or.inl hne)),
    Scan.within_cons_of_none (readAddress_eq_none (Or.inr (by decide))),
    Scan.within_cons_of_none (readAddress_eq_none (Or.inl (by decide))),
    Scan.within_cons_of_none (readAddress_eq_none (Or.inl hty))]
  rfl

/-- Nor among the QoS rules. -/
theorem within_rules {b : UInt8} (rest : Bytes) : Scan.within readAddress Fields.rules (b :: rest) = none := by
  unfold Fields.rules
  repeat rw [Scan.within_cons_of_none (readAddress_eq_none (Or.inl (by decide)))]
  rfl

/-- Nor in the cause. -/
theorem within_causeIe : Scan.within readAddress a.causeIe (a.addressIe ++ a.afterAddress) = none := by
  unfold Fields.causeIe Fields.addressIe
  cases a.cause with
  | none => rfl
  | some c =>
    rw [Scan.within_cons_of_none (readAddress_eq_none (Or.inl (by decide)))]
    exact Scan.within_cons_of_none (readAddress_eq_none (Or.inr (by decide)))

theorem address_read_iff (hpsi : a.psi ≤ 15) :
    pduAddressFromEstablishmentAccept a.accept = some a.addr ↔ a.AddressAlone := by
  have hread := readAddress_addressIe a a.afterAddress
  have hne : a.addressIe ++ a.afterAddress ≠ [] := by simp [Fields.addressIe]
  have hsplit : a.accept = (a.header ++ (Fields.rules ++ (a.ambrOctets ++ a.causeIe))) ++
      (a.addressIe ++ a.afterAddress) := by
    rw [a.accept_eq]
    simp only [List.append_assoc]
  rw [pduAddressFromEstablishmentAccept, hsplit, Scan.first_eq_some_iff hne hread, Scan.within_append,
    Scan.within_append, Scan.within_append, within_causeIe, Option.or_none]
  simp only [List.append_assoc]
  have hrules : Scan.within readAddress Fields.rules
      (a.ambrOctets ++ (a.causeIe ++ (a.addressIe ++ a.afterAddress))) = none := within_rules _
  rw [within_header a hpsi, Option.none_or, hrules, Option.none_or, Fields.AddressAlone]

/-! ### The cause -/

/-- Nothing is read as a cause exactly when the identifier stands nowhere but at the end. -/
theorem first_readCause_eq_none_iff (l : Bytes) : Scan.first readCause l = none ↔ 0x59 ∉ l.dropLast := by
  induction l with
  | nil => simp [Scan.first]
  | cons b l ih =>
    rw [Scan.first, Option.or_eq_none_iff, ih]
    cases l with
    | nil => simp [readCause]
    | cons c l =>
      rw [List.dropLast_cons_cons, List.mem_cons, not_or]
      apply and_congr_left'
      simp [readCause, eq_comm]

/-- With a cause: no octet of the session AMBR is its identifier, but for one with the same octet behind
it.  Without one: no octet is, from the session AMBR on, but for the last. -/
def Fields.CauseAlone : Prop :=
  match a.cause with
  | some c => ∀ c', Scan.within readCause a.ambrOctets (a.causeIe ++ (a.addressIe ++ a.afterAddress)) = some c' →
      c' = c
  | none => 0x59 ∉ (a.ambrOctets ++ (a.addressIe ++ a.afterAddress)).dropLast

theorem drop_accept : a.accept.length ≥ 5 ∧ a.accept.drop 5 =
    Fields.rules ++ (a.ambrOctets ++ (a.causeIe ++ (a.addressIe ++ a.afterAddress))) := by
  rw [a.accept_eq]
  exact ⟨by simp [Fields.header], rfl⟩

theorem cause_read_iff : accept5gsmCause a.accept = a.cause ↔ a.CauseAlone := by
  obtain ⟨hlen, hdrop⟩ := drop_accept a
  have hpass : ∀ rest : Bytes, rest ≠ [] → Scan.within readCause Fields.rules rest = none := by
    intro rest hrest
    obtain ⟨b, rest, rfl⟩ := List.exists_cons_of_ne_nil hrest
    rfl
  rw [accept5gsmCause, if_neg (by omega), hdrop, Fields.CauseAlone]
  cases hcause : a.cause with
  | some c =>
    have hie : a.causeIe = [0x59, c] := by simp [Fields.causeIe, hcause]
    have hread : readCause (a.causeIe ++ (a.addressIe ++ a.afterAddress)) = some c := by
      rw [hie]
      rfl
    have hne : a.causeIe ++ (a.addressIe ++ a.afterAddress) ≠ [] := by simp [hie]
    rw [← List.append_assoc, Scan.first_eq_some_iff hne hread, Scan.within_append,
      hpass _ (by simp [hie]), Option.none_or]
  | none =>
    have hie : a.causeIe = [] := by simp [Fields.causeIe, hcause]
    rw [hie, List.nil_append, Scan.first_append, hpass _ (by simp [Fields.ambrOctets]), Option.none_or,
      first_readCause_eq_none_iff]

/-! ### The DNS server -/

/-- The octets up to the container with the DNS server. -/
def Fields.beforeDns : Bytes :=
  a.header ++ (Fields.rules ++ (a.ambrOctets ++ (a.causeIe ++ (a.addressIe ++ (a.snssaiIe ++ (a.flowsIe ++
    [0x7b, 0x00, 0x14, 0x80]))))))

/-- With a DNS server: nothing before it is read as another one.  Without one: the octets that begin such
a container stand nowhere with sixteen more behind them. -/
def Fields.DnsAlone : Prop :=
  match a.dnsIpv6 with
  | some dns => ∀ dns', Scan.within readDns a.beforeDns ([0x00, 0x03, 16] ++ beBytes 16 dns.toNat ++ a.dnnIe) =
      some dns' → dns' = dns
  | none => ∀ before after, a.accept = before ++ ([0x00, 0x03, 16] ++ after) → after.length < 16

theorem readDns_eq_some {l : Bytes} : (readDns l).isSome = true ↔
    ∃ after, l = [0x00, 0x03, 16] ++ after ∧ 16 ≤ after.length := by
  unfold readDns
  split
  · rename_i rest
    simp
  · rename_i hshape
    simp only [Option.isSome_none, Bool.false_eq_true, false_iff, not_exists, not_and]
    intro after heq
    exact absurd heq (hshape after)

theorem dns_read_iff : dnsIpv6FromEstablishmentAccept a.accept = a.dnsIpv6 ↔ a.DnsAlone := by
  rw [dnsIpv6FromEstablishmentAccept, Fields.DnsAlone]
  cases hdns : a.dnsIpv6 with
  | some dns =>
    have hie : a.dnsIe = [0x7b, 0x00, 0x14, 0x80] ++ ([0x00, 0x03, 16] ++ beBytes 16 dns.toNat) := by
      have hlen : beBytes 2 20 = [0x00, 0x14] := rfl
      simp [Fields.dnsIe, hdns, hlen]
    have hsplit : a.accept = a.beforeDns ++ ([0x00, 0x03, 16] ++ beBytes 16 dns.toNat ++ a.dnnIe) := by
      rw [a.accept_eq, Fields.afterAddress, hie, Fields.beforeDns]
      simp only [List.append_assoc]
    have haddr : BitVec.ofNat 128 (Octets.value (beBytes 16 dns.toNat)) = dns := ofNat_value_beBytes rfl dns
    have htake : (beBytes 16 dns.toNat ++ a.dnnIe).take 16 = beBytes 16 dns.toNat :=
      List.take_left' (length_beBytes 16 dns.toNat)
    have hread : readDns ([0x00, 0x03, 16] ++ beBytes 16 dns.toNat ++ a.dnnIe) = some dns := by
      simp [readDns, htake, haddr]
    rw [hsplit, Scan.first_eq_some_iff (by simp) hread]
  | none =>
    rw [Scan.first_eq_none_iff]
    constructor
    · intro h before after heq
      by_contra hlong
      have hnone := h before _ heq (by simp)
      have hsome := readDns_eq_some.mpr ⟨after, rfl, not_lt.mp hlong⟩
      rw [hnone] at hsome
      exact absurd hsome (by simp)
    · intro h before after heq _
      rw [← Option.not_isSome_iff_eq_none, readDns_eq_some]
      rintro ⟨rest, rfl, hlong⟩
      have hshort := h before rest heq
      omega

end Readers

/-! ### All readers -/

/-- The UE reads what the AMF wrote exactly when none of the three is read somewhere else before. -/
theorem accept_read_iff (a : Fields) (hpsi : a.psi ≤ 15) :
    (pduAddressFromEstablishmentAccept a.accept = some a.addr ∧ accept5gsmCause a.accept = a.cause ∧
      dnsIpv6FromEstablishmentAccept a.accept = a.dnsIpv6) ↔
      (a.AddressAlone ∧ a.CauseAlone ∧ a.DnsAlone) := by
  rw [address_read_iff a hpsi, cause_read_iff, dns_read_iff]

/-- A downlink AMBR of `0x2905` units and an uplink one in units of 1 kbit/s. -/
def misreadFields : Fields where
  psi := 1
  pti := 1
  addr := .ipv4 0x0A2D0001
  dnn := "internet"
  snssai := (1, none)
  ambr := { dlUnit := 6, dl := 0x2905, ulUnit := 1, ul := 1 }
  flows := []
  cause := none
  dnsIpv6 := none

/-- They are read as the address `0.1.41.5`. -/
theorem accept_misread : pduAddressFromEstablishmentAccept misreadFields.accept ≠ some misreadFields.addr := by
  decide

/-- The readers fail there for that reason. -/
theorem accept_read_iff_misread : ¬ (pduAddressFromEstablishmentAccept misreadFields.accept = some misreadFields.addr ∧
    accept5gsmCause misreadFields.accept = misreadFields.cause ∧
    dnsIpv6FromEstablishmentAccept misreadFields.accept = misreadFields.dnsIpv6) := by
  intro h
  have halone := ((accept_read_iff misreadFields (by decide)).mp h).1 (.ipv4 0x00012905)
  exact absurd (halone (by decide)) (by decide)

end Radian.Nas
