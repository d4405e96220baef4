import Radian.Numbered.Truncated
import Radian.Security.Algorithms

/-!
# PDCP bearers

A PDCP entity wraps an SDU into a PDU with a truncated sequence number, a MAC-I when integrity is on
and a ciphered body when ciphering is; the receiver takes the sequence number for a full COUNT by
its distance from the COUNT it expects.

- `Kind` — signalling bearers with 12 bits of sequence number, data bearers with 18.
- `openAt` — what `rx_open` makes of a PDU under a COUNT.
- `rxCountFor_of_ahead` — less than half the sequence numbers ahead, the COUNT is recovered.
- `unprotect_protect` — and then the SDU comes back.
-/

namespace Radian.Pdcp

open Numbered
open Security (Bytes Algorithms toBeBytes fromBeBytes)

def DIRECTION_UPLINK : UInt8 := 0
def DIRECTION_DOWNLINK : UInt8 := 1
def MAC_LEN : Nat := 4
def SN12_MASK : BitVec 32 := 0x00000FFF
def SN18_MASK : BitVec 32 := 0x0003FFFF

inductive Role where
  | gnb
  | ue
  deriving DecidableEq, Repr

namespace Role

def txDirection : Role → UInt8
  | gnb => DIRECTION_DOWNLINK
  | ue => DIRECTION_UPLINK

def rxDirection : Role → UInt8
  | gnb => DIRECTION_UPLINK
  | ue => DIRECTION_DOWNLINK

/-- The other end. -/
def peer : Role → Role
  | gnb => ue
  | ue => gnb

@[simp] theorem rxDirection_peer (r : Role) : r.peer.rxDirection = r.txDirection := by
  cases r <;> rfl

end Role

/-- An algorithm and its key. -/
structure Algo where
  key : Bytes
  id : UInt8
  deriving DecidableEq, Repr

inductive PdcpError where
  | tooShort
  | integrityFailure
  deriving DecidableEq, Repr

structure Bearer where
  txDirection : UInt8
  rxDirection : UInt8
  bearer : UInt8
  snMask : BitVec 32
  txCount : BitVec 32
  rxCount : BitVec 32
  integrity : Option Algo
  ciphering : Option Algo
  deriving DecidableEq, Repr

namespace Bearer

def new (role : Role) (bearer : UInt8) (snMask : BitVec 32) : Bearer :=
  { txDirection := role.txDirection
    rxDirection := role.rxDirection
    bearer
    snMask
    txCount := 0
    rxCount := 0
    integrity := none
    ciphering := none }

def snBits (b : Bearer) : Nat := b.snMask.cpop.toNat

def nextTxSn (b : Bearer) : BitVec 32 := b.txCount &&& b.snMask

variable (A : Algorithms)

/-- Cipher, or decipher, what follows the header. -/
def cipher (b : Bearer) (direction : UInt8) (count : BitVec 32) (body : Bytes) : Bytes :=
  match b.ciphering with
  | some a => A.nasCipher a.key count b.bearer direction body a.id
  | none => body

/-- The SDU, and its MAC-I when integrity is on. -/
def authenticate (b : Bearer) (count : BitVec 32) (header sdu : Bytes) : Bytes :=
  match b.integrity with
  | some a =>
      sdu ++ toBeBytes (A.nasMac a.key count b.bearer b.txDirection (header ++ sdu) a.id)
  | none => sdu

/-- Seal an SDU into a PDU and advance the TX COUNT. -/
def txSeal (b : Bearer) (header sdu : Bytes) : Bytes × Bearer :=
  let count := b.txCount
  (header ++ b.cipher A b.txDirection count (b.authenticate A count header sdu),
    { b with txCount := count + 1 })

/-- Decipher a PDU under a COUNT and verify its MAC-I. -/
def openAt (b : Bearer) (count : BitVec 32) (pdu : Bytes) (hdrLen : Nat) :
    Except PdcpError Bytes :=
  let body := b.cipher A b.rxDirection count (pdu.drop hdrLen)
  match b.integrity with
  | some a =>
      if body.length < MAC_LEN then .error .tooShort
      else
        let split := body.length - MAC_LEN
        let received := fromBeBytes (body.drop split)
        let sdu := body.take split
        if A.nasMac a.key count b.bearer b.rxDirection (pdu.take hdrLen ++ sdu) a.id ≠ received then
          .error .integrityFailure
        else .ok sdu
  | none => .ok body

/-- The full COUNT a received sequence number is taken for. -/
def rxCountFor (b : Bearer) (sn : BitVec 32) : BitVec 32 :=
  let window := 1#32 <<< (b.snBits - 1)
  let sn := sn &&& b.snMask
  let refHfn := b.rxCount >>> b.snBits
  let refSn := b.rxCount &&& b.snMask
  let hfn :=
    if sn < refSn ∧ window < refSn - sn then refHfn + 1
    else if refSn < sn ∧ window < sn - refSn then refHfn - 1
    else refHfn
  hfn <<< b.snBits ||| sn

/-- Open a PDU, and advance the RX COUNT when it is accepted. -/
def rxOpen (b : Bearer) (pdu : Bytes) (hdrLen : Nat) (sn : BitVec 32) :
    Except PdcpError Bytes × Bearer :=
  let count := b.rxCountFor sn
  match b.openAt A count pdu hdrLen with
  | .ok sdu => (.ok sdu, { b with rxCount := count + 1 })
  | .error e => (.error e, b)

end Bearer

/-! ### Signalling and data bearers -/

/-- The two header formats. -/
inductive Kind where
  | srb
  | drb
  deriving DecidableEq, Repr

namespace Kind

def snMask : Kind → BitVec 32
  | srb => SN12_MASK
  | drb => SN18_MASK

def snBits : Kind → Nat
  | srb => 12
  | drb => 18

def hdrLen : Kind → Nat
  | srb => 2
  | drb => 3

/-- The header of a PDU with a sequence number. -/
def header (k : Kind) (sn : BitVec 32) : Bytes :=
  match k with
  | srb => [.ofBitVec ((sn >>> 8 &&& 0x0F).setWidth 8), .ofBitVec ((sn &&& 0xFF).setWidth 8)]
  | drb =>
      [0x80 ||| .ofBitVec ((sn >>> 16 &&& 0x03).setWidth 8),
        .ofBitVec ((sn >>> 8 &&& 0xFF).setWidth 8), .ofBitVec ((sn &&& 0xFF).setWidth 8)]

/-- The sequence number in a PDU of at least `hdrLen` octets. -/
def readSn (k : Kind) (pdu : Bytes) : BitVec 32 :=
  let octet := fun i => (pdu.getD i 0).toBitVec
  match k with
  | srb => (octet 0 &&& 0x0F).setWidth 32 <<< 8 ||| (octet 1).setWidth 32
  | drb =>
      (octet 0 &&& 0x03).setWidth 32 <<< 16 ||| (octet 1).setWidth 32 <<< 8 |||
        (octet 2).setWidth 32

theorem snMask_eq (k : Kind) : k.snMask = Truncated.mask 32 k.snBits := by
  cases k <;> rfl

theorem snBits_lt (k : Kind) : k.snBits < 32 := by
  cases k <;> decide

@[simp] theorem length_header (k : Kind) (sn : BitVec 32) : (k.header sn).length = k.hdrLen := by
  cases k <;> rfl

/-- Low bits written to an octet. -/
theorem toNat_octet (x : BitVec 32) {n : Nat} (hn : n ≤ 8) :
    ((x &&& Truncated.mask 32 n).setWidth 8).toNat = x.toNat % 2 ^ n := by
  have hlt := Nat.mod_lt x.toNat (Nat.two_pow_pos n)
  have hle : 2 ^ n ≤ 2 ^ 8 := Nat.pow_le_pow_right (by decide) hn
  rw [BitVec.toNat_setWidth, Truncated.toNat_and_mask _ (by omega), Nat.mod_eq_of_lt (by omega)]

/-- Low bits read from an octet. -/
theorem toNat_of_octet (b : BitVec 8) {n : Nat} (hn : n ≤ 8) :
    ((b &&& Truncated.mask 8 n).setWidth 32).toNat = b.toNat % 2 ^ n := by
  have hlt := b.isLt
  have hle := Nat.mod_le b.toNat (2 ^ n)
  rw [BitVec.toNat_setWidth, Truncated.toNat_and_mask _ hn, Nat.mod_eq_of_lt (by omega)]

theorem flag_and : ∀ x : BitVec 8, (0x80 ||| x) &&& 0x03 = x &&& 0x03 := by decide

theorem toNat_readSn_srb (b₀ b₁ : UInt8) (body : Bytes) :
    (srb.readSn (b₀ :: b₁ :: body)).toNat = b₀.toNat % 16 * 256 + b₁.toNat := by
  have h₀ := toNat_of_octet b₀.toBitVec (n := 4) (by decide)
  have h₁ : (b₁.toBitVec.setWidth 32).toNat = b₁.toNat := by
    rw [BitVec.toNat_setWidth_of_le (by decide), UInt8.toNat_toBitVec]
  have hlt := b₁.toNat_lt
  change ((b₀.toBitVec &&& Truncated.mask 8 4).setWidth 32 <<< 8 |||
    b₁.toBitVec.setWidth 32).toNat = _
  rw [Truncated.toNat_shiftLeft_or _ _ (by decide) (by omega), h₀, h₁, UInt8.toNat_toBitVec]
  omega

theorem toNat_readSn_drb (b₀ b₁ b₂ : UInt8) (body : Bytes) :
    (drb.readSn (b₀ :: b₁ :: b₂ :: body)).toNat =
      b₀.toNat % 4 * 65536 + b₁.toNat * 256 + b₂.toNat := by
  have h₀ := toNat_of_octet b₀.toBitVec (n := 2) (by decide)
  have h₁ : (b₁.toBitVec.setWidth 32).toNat = b₁.toNat := by
    rw [BitVec.toNat_setWidth_of_le (by decide), UInt8.toNat_toBitVec]
  have h₂ : (b₂.toBitVec.setWidth 32).toNat = b₂.toNat := by
    rw [BitVec.toNat_setWidth_of_le (by decide), UInt8.toNat_toBitVec]
  have hlt₁ := b₁.toNat_lt
  have hlt₂ := b₂.toNat_lt
  have hlow := Truncated.toNat_shiftLeft_or (b₁.toBitVec.setWidth 32) (b₂.toBitVec.setWidth 32)
    (n := 8) (by decide) (by omega)
  change ((b₀.toBitVec &&& Truncated.mask 8 2).setWidth 32 <<< 16 |||
    b₁.toBitVec.setWidth 32 <<< 8 ||| b₂.toBitVec.setWidth 32).toNat = _
  rw [BitVec.or_assoc, Truncated.toNat_shiftLeft_or _ _ (by decide) (by omega), hlow, h₀, h₁, h₂,
    UInt8.toNat_toBitVec]
  omega

/-- The header carries the sequence number. -/
theorem readSn_header (k : Kind) {sn : BitVec 32} (hsn : sn.toNat < 2 ^ k.snBits) (body : Bytes) :
    k.readSn (k.header sn ++ body) = sn := by
  apply BitVec.eq_of_toNat_eq
  have hlow := toNat_octet sn (n := 8) (by decide)
  have hmid := toNat_octet (sn >>> 8) (n := 8) (by decide)
  rw [BitVec.toNat_ushiftRight, Nat.shiftRight_eq_div_pow] at hmid
  cases k with
  | srb =>
    have hhigh := toNat_octet (sn >>> 8) (n := 4) (by decide)
    rw [BitVec.toNat_ushiftRight, Nat.shiftRight_eq_div_pow] at hhigh
    refine (toNat_readSn_srb _ _ body).trans ?_
    change (BitVec.setWidth 8 (sn >>> 8 &&& Truncated.mask 32 4)).toNat % 16 * 256 +
      (BitVec.setWidth 8 (sn &&& Truncated.mask 32 8)).toNat = sn.toNat
    simp only [snBits] at hsn
    omega
  | drb =>
    have hhigh := toNat_octet (sn >>> 16) (n := 2) (by decide)
    rw [BitVec.toNat_ushiftRight, Nat.shiftRight_eq_div_pow] at hhigh
    have hflag : ((0x80 : UInt8) ||| .ofBitVec ((sn >>> 16 &&& 0x03).setWidth 8)).toNat % 4 =
        ((sn >>> 16 &&& Truncated.mask 32 2).setWidth 8).toNat % 4 := by
      have h := congrArg BitVec.toNat (flag_and (BitVec.setWidth 8 (sn >>> 16 &&& 0x03)))
      change (_ &&& Truncated.mask 8 2).toNat = (_ &&& Truncated.mask 8 2).toNat at h
      rw [Truncated.toNat_and_mask _ (by decide), Truncated.toNat_and_mask _ (by decide)] at h
      exact h
    refine (toNat_readSn_drb _ _ _ body).trans ?_
    rw [hflag]
    change (BitVec.setWidth 8 (sn >>> 16 &&& Truncated.mask 32 2)).toNat % 4 * 65536 +
      (BitVec.setWidth 8 (sn >>> 8 &&& Truncated.mask 32 8)).toNat * 256 +
      (BitVec.setWidth 8 (sn &&& Truncated.mask 32 8)).toNat = sn.toNat
    simp only [snBits] at hsn
    omega
end Kind

/-- `PdcpSrb` and `PdcpDrb`: a bearer with the mask of its kind. -/
structure Entity (k : Kind) where
  inner : Bearer
  masked : inner.snMask = k.snMask
  deriving DecidableEq, Repr

abbrev PdcpSrb : Type := Entity .srb

abbrev PdcpDrb : Type := Entity .drb

namespace Entity

variable {k : Kind}

/-- A fresh entity, security off and COUNTs zero; the BEARER input is the bearer's identity less
one. -/
def new (role : Role) (id : UInt8) : Entity k where
  inner := .new role (if id = 0 then 0 else id - 1) k.snMask
  masked := rfl

def activateIntegrity (e : Entity k) (key : Bytes) (nia : UInt8) : Entity k where
  inner := { e.inner with integrity := some { key, id := nia } }
  masked := e.masked

def activateCiphering (e : Entity k) (key : Bytes) (nea : UInt8) : Entity k where
  inner := { e.inner with ciphering := some { key, id := nea } }
  masked := e.masked

variable (A : Algorithms)

def protect (e : Entity k) (sdu : Bytes) : Bytes × Entity k :=
  ((e.inner.txSeal A (k.header e.inner.nextTxSn) sdu).1,
    ⟨(e.inner.txSeal A (k.header e.inner.nextTxSn) sdu).2, e.masked⟩)

/-- The entity once a PDU is accepted under `count`. -/
def accepted (e : Entity k) (count : BitVec 32) : Entity k where
  inner := { e.inner with rxCount := count + 1 }
  masked := e.masked

theorem masked_rxOpen (e : Entity k) (pdu : Bytes) (hdrLen : Nat) (sn : BitVec 32) :
    (e.inner.rxOpen A pdu hdrLen sn).2.snMask = k.snMask := by
  unfold Bearer.rxOpen
  dsimp only
  split
  · exact e.masked
  · exact e.masked

def unprotect (e : Entity k) (pdu : Bytes) : Except PdcpError Bytes × Entity k :=
  if pdu.length < k.hdrLen then (.error .tooShort, e)
  else
    ((e.inner.rxOpen A pdu k.hdrLen (k.readSn pdu)).1,
      ⟨(e.inner.rxOpen A pdu k.hdrLen (k.readSn pdu)).2, e.masked_rxOpen A pdu k.hdrLen _⟩)

variable {A} {e : Entity k} {pdu sdu : Bytes}

/-- A PDU is longer than its SDU by the header and at most a MAC-I. -/
theorem length_protect_le (hA : A.KeepsLength) :
    (e.protect A sdu).1.length ≤ sdu.length + k.hdrLen + MAC_LEN := by
  have hbody : (e.inner.authenticate A e.inner.txCount (k.header e.inner.nextTxSn) sdu).length ≤
      sdu.length + MAC_LEN := by
    unfold Bearer.authenticate
    split
    · rw [List.length_append, Security.length_toBeBytes]
      rfl
    · exact Nat.le_add_right _ _
  have hcipher : ∀ body, (e.inner.cipher A e.inner.txDirection e.inner.txCount body).length =
      body.length := by
    intro body
    unfold Bearer.cipher
    split
    · exact hA ..
    · rfl
  simp only [protect, Bearer.txSeal, List.length_append, Kind.length_header, hcipher]
  omega

/-- A PDU that opens under the COUNT it is taken for is accepted. -/
theorem unprotect_of_opens (hlen : k.hdrLen ≤ pdu.length)
    (h : e.inner.openAt A (e.inner.rxCountFor (k.readSn pdu)) pdu k.hdrLen = .ok sdu) :
    e.unprotect A pdu = (.ok sdu, e.accepted (e.inner.rxCountFor (k.readSn pdu))) := by
  simp [unprotect, Nat.not_lt.mpr hlen, Bearer.rxOpen, h, accepted]

/-- An accepted PDU opened under the COUNT it was taken for. -/
theorem opens_of_unprotect {e' : Entity k} (h : e.unprotect A pdu = (.ok sdu, e')) :
    k.hdrLen ≤ pdu.length ∧
      e.inner.openAt A (e.inner.rxCountFor (k.readSn pdu)) pdu k.hdrLen = .ok sdu ∧
      e' = e.accepted (e.inner.rxCountFor (k.readSn pdu)) := by
  by_cases hlen : pdu.length < k.hdrLen
  · simp [unprotect, hlen] at h
  · cases hopen : e.inner.openAt A (e.inner.rxCountFor (k.readSn pdu)) pdu k.hdrLen with
    | error err => simp [unprotect, hlen, Bearer.rxOpen, hopen] at h
    | ok sdu' =>
      rw [unprotect_of_opens (Nat.not_lt.mp hlen) hopen] at h
      cases h
      exact ⟨Nat.not_lt.mp hlen, rfl, rfl⟩

/-- A rejected PDU changes nothing. -/
theorem eq_of_unprotect_error {e' : Entity k} {err : PdcpError}
    (h : e.unprotect A pdu = (.error err, e')) : e' = e := by
  by_cases hlen : pdu.length < k.hdrLen
  · simp only [unprotect, hlen, if_true] at h
    cases h
    rfl
  · cases hopen : e.inner.openAt A (e.inner.rxCountFor (k.readSn pdu)) pdu k.hdrLen with
    | error err' =>
      simp only [unprotect, hlen, if_false, Bearer.rxOpen, hopen] at h
      cases h
      rfl
    | ok sdu' =>
      rw [unprotect_of_opens (Nat.not_lt.mp hlen) hopen] at h
      cases h

/-! ### COUNTs -/

theorem snBits_inner (e : Entity k) : e.inner.snBits = k.snBits := by
  rw [Bearer.snBits, e.masked]
  cases k <;> decide

/-- The window comparisons do not wrap. -/
theorem beyond_iff (s t window : BitVec 32) :
    (s < t ∧ window < t - s) ↔ (s.toNat < t.toNat ∧ window.toNat < t.toNat - s.toNat) := by
  constructor
  · intro h
    constructor <;> bv_omega
  · intro h
    constructor <;> bv_omega

/-- The COUNT a sequence number is taken for is the nearest one to the RX COUNT. -/
theorem toNat_rxCountFor (e : Entity k) (sn : BitVec 32) :
    (e.inner.rxCountFor sn).toNat =
      Truncated.nearest (2 ^ (32 - k.snBits)) (2 ^ k.snBits) e.inner.rxCount.toNat
        (sn.toNat % 2 ^ k.snBits) := by
  have hle := k.snBits_lt.le
  have hsn := Truncated.toNat_and_mask sn hle
  have href := Truncated.toNat_and_mask e.inner.rxCount hle
  have hhfn : (e.inner.rxCount >>> k.snBits).toNat = e.inner.rxCount.toNat / 2 ^ k.snBits := by
    rw [BitVec.toNat_ushiftRight, Nat.shiftRight_eq_div_pow]
  have hlt := Nat.mod_lt sn.toNat (Nat.two_pow_pos k.snBits)
  have hwindow : (1#32 <<< (k.snBits - 1)).toNat = 2 ^ k.snBits / 2 := by
    cases k <;> rfl
  unfold Bearer.rxCountFor
  rw [snBits_inner, e.masked, k.snMask_eq]
  generalize sn &&& Truncated.mask 32 k.snBits = s at *
  generalize e.inner.rxCount &&& Truncated.mask 32 k.snBits = t at *
  generalize 1#32 <<< (k.snBits - 1) = window at *
  generalize e.inner.rxCount >>> k.snBits = hfn at *
  dsimp only
  simp only [beyond_iff, hwindow]
  rw [Truncated.toNat_shiftLeft_or _ _ hle (by omega)]
  unfold Truncated.nearest
  rw [← hsn, ← href, ← hhfn]
  have hcount := e.inner.rxCount.isLt
  split
  · cases k <;> simp only [Kind.snBits] at * <;> bv_omega
  · split
    · cases k <;> simp only [Kind.snBits] at * <;> bv_omega
    · cases k <;> simp only [Kind.snBits] at * <;> bv_omega

/-- The sequence number of a COUNT read back less than half the sequence numbers ahead. -/
theorem rxCountFor_of_ahead (e : Entity k) {count : BitVec 32} {ahead : Nat}
    (hcount : count = e.inner.rxCount + BitVec.ofNat 32 ahead)
    (hahead : ahead < 2 ^ (k.snBits - 1)) : e.inner.rxCountFor (count &&& k.snMask) = count := by
  have hhalf : 2 ^ (k.snBits - 1) = 2 ^ k.snBits / 2 := by
    cases k <;> rfl
  have hspan : 2 ^ (32 - k.snBits) * 2 ^ k.snBits = 2 ^ 32 := by
    cases k <;> rfl
  have heven : 2 ^ k.snBits = 2 * (2 ^ k.snBits / 2) := by
    cases k <;> rfl
  have hmod : count.toNat = (e.inner.rxCount.toNat + ahead) % 2 ^ 32 := by
    rw [hcount, BitVec.toNat_add, BitVec.toNat_ofNat, Nat.add_mod_mod]
  apply BitVec.eq_of_toNat_eq
  rw [toNat_rxCountFor, k.snMask_eq, Truncated.toNat_and_mask _ k.snBits_lt.le, Nat.mod_mod, hmod,
    ← hspan]
  exact Truncated.nearest_of_ahead (by rw [hspan]; exact e.inner.rxCount.isLt) heven
    (hhalf ▸ hahead)

/-! ### Sealing and opening -/

/-- A sender and a receiver on one bearer, with the same keys and algorithms. -/
structure Paired (tx rx : Entity k) : Prop where
  direction : rx.inner.rxDirection = tx.inner.txDirection
  bearer : rx.inner.bearer = tx.inner.bearer
  integrity : rx.inner.integrity = tx.inner.integrity
  ciphering : rx.inner.ciphering = tx.inner.ciphering

theorem readSn_protect (tx : Entity k) (sdu : Bytes) :
    k.readSn (tx.protect A sdu).1 = tx.inner.txCount &&& k.snMask := by
  have hsn : (tx.inner.txCount &&& k.snMask).toNat < 2 ^ k.snBits := by
    rw [k.snMask_eq, Truncated.toNat_and_mask _ k.snBits_lt.le]
    exact Nat.mod_lt _ (Nat.two_pow_pos _)
  have hheader := k.readSn_header hsn
  rw [← tx.masked] at hheader ⊢
  exact hheader _

theorem toNat_readSn_protect (tx : Entity k) (sdu : Bytes) :
    (k.readSn (tx.protect A sdu).1).toNat = tx.inner.txCount.toNat % 2 ^ k.snBits := by
  rw [readSn_protect, k.snMask_eq, Truncated.toNat_and_mask _ k.snBits_lt.le]

/-- A PDU opens under the COUNT it was sealed under. -/
theorem openAt_protect {tx rx : Entity k} (hinv : A.Involutive) (hpair : Paired tx rx)
    (sdu : Bytes) :
    rx.inner.openAt A tx.inner.txCount (tx.protect A sdu).1 k.hdrLen = .ok sdu := by
  have hheader := k.length_header tx.inner.nextTxSn
  have hcipher : ∀ body, rx.inner.cipher A rx.inner.rxDirection tx.inner.txCount
      (tx.inner.cipher A tx.inner.txDirection tx.inner.txCount body) = body := by
    intro body
    unfold Bearer.cipher
    rw [hpair.ciphering, hpair.direction, hpair.bearer]
    cases tx.inner.ciphering with
    | none => rfl
    | some a => exact hinv _ _ _ _ _ _
  simp only [protect, Bearer.txSeal, Bearer.openAt, ← hheader, List.drop_left, List.take_left,
    hcipher]
  rw [hpair.integrity, hpair.direction, hpair.bearer]
  cases hintegrity : tx.inner.integrity with
  | none => simp [Bearer.authenticate, hintegrity]
  | some a =>
    simp only [Bearer.authenticate, hintegrity]
    have hlong : ∀ mac : BitVec 32, (sdu ++ toBeBytes mac).length - MAC_LEN = sdu.length := by
      intro mac
      simp [MAC_LEN]
    rw [if_neg (by simp [MAC_LEN]), hlong]
    simp

/-- Less than half the sequence numbers ahead, a PDU is unprotected to its SDU. -/
theorem unprotect_protect {tx rx : Entity k} (hinv : A.Involutive) (hpair : Paired tx rx)
    {ahead : Nat} (hcount : tx.inner.txCount = rx.inner.rxCount + BitVec.ofNat 32 ahead)
    (hahead : ahead < 2 ^ (k.snBits - 1)) (sdu : Bytes) :
    rx.unprotect A (tx.protect A sdu).1 = (.ok sdu, rx.accepted tx.inner.txCount) := by
  have htakes : rx.inner.rxCountFor (k.readSn (tx.protect A sdu).1) = tx.inner.txCount := by
    rw [readSn_protect]
    exact rx.rxCountFor_of_ahead hcount hahead
  have hlen : k.hdrLen ≤ (tx.protect A sdu).1.length := by
    simp [protect, Bearer.txSeal]
  rw [unprotect_of_opens hlen (by rw [htakes]; exact openAt_protect hinv hpair sdu), htakes]

end Entity

end Radian.Pdcp
