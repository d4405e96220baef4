import Radian.Numbered.Truncated
import Radian.Security.Algorithms

/-!
# NAS security

`NasSecurityContext::protect` and `unprotect`: the envelope
`[EPD | SHT | MAC(4) | SN | payload]` around a NAS message, and the COUNT the receiver takes an
eight-bit sequence number for.

- `estimate_of_window` — the COUNT of a message up to 127 ahead of the expected one is recovered.
- `unprotect_of_verifies`, `unprotect_of_not_verifies` — all that `unprotect` can do.
- `decode_envelope` — a message sealed under the COUNT it is taken for comes back.
-/

namespace Radian.Nas

open Security (Bytes Algorithms toBeBytes fromBeBytes)

/-- The NAS codec. -/
structure Codec (Msg : Type) where
  encode : Msg → Option Bytes
  decode : Bytes → Option Msg

/-- Decoding inverts encoding. -/
def Codec.Inverts {Msg : Type} (C : Codec Msg) : Prop :=
  ∀ m bytes, C.encode m = some bytes → C.decode bytes = some m

namespace Sht

def INTEGRITY : UInt8 := 0x01
def INTEGRITY_CIPHERED : UInt8 := 0x02
def INTEGRITY_NEW_CONTEXT : UInt8 := 0x03
def INTEGRITY_CIPHERED_NEW_CONTEXT : UInt8 := 0x04

end Sht

def NAS_BEARER : UInt8 := 1
def EPD_5GMM : UInt8 := 0x7e

structure NasSecurityContext where
  knasInt : Bytes
  knasEnc : Bytes
  nia : UInt8
  nea : UInt8
  ulCount : BitVec 32
  dlCount : BitVec 32
  deriving DecidableEq, Repr

/-- Whether a security header type asks for ciphering. -/
def ciphered (sht : UInt8) : Bool :=
  sht == Sht.INTEGRITY_CIPHERED || sht == Sht.INTEGRITY_CIPHERED_NEW_CONTEXT

/-- The envelope `[EPD | SHT | MAC(4) | SN | payload]`. -/
structure Envelope where
  sht : UInt8
  mac : BitVec 32
  sn : UInt8
  payload : Bytes
  deriving DecidableEq, Repr

namespace Envelope

def toBytes (env : Envelope) : Bytes :=
  EPD_5GMM :: env.sht :: toBeBytes env.mac ++ env.sn :: env.payload

/-- The envelope in a datagram of at least seven octets. -/
def ofBytes : Bytes → Option Envelope
  | _ :: sht :: m₀ :: m₁ :: m₂ :: m₃ :: sn :: payload =>
      some { sht, mac := fromBeBytes [m₀, m₁, m₂, m₃], sn, payload }
  | _ => none

@[simp] theorem ofBytes_toBytes (env : Envelope) : ofBytes env.toBytes = some env := by
  have hread : ofBytes env.toBytes = some { env with mac := fromBeBytes (toBeBytes env.mac) } := rfl
  rw [hread, Security.fromBeBytes_toBeBytes]

end Envelope

/-- The COUNT an eight-bit sequence number stands for when `expected` is next. -/
def estimate (expected : BitVec 32) (sn : UInt8) : BitVec 32 :=
  let c := expected &&& ~~~0xff#32 ||| sn.toBitVec.setWidth 32
  if c + 0x80#32 < expected then c + 0x100#32
  else if expected + 0x80#32 ≤ c ∧ 0x100#32 ≤ c then c - 0x100#32
  else c

theorem toNat_base (expected : BitVec 32) (sn : UInt8) :
    (expected &&& ~~~0xff#32 ||| sn.toBitVec.setWidth 32).toNat =
      expected.toNat / 256 * 256 + sn.toNat := by
  have hsn : sn.toNat < 256 := sn.toNat_lt
  have hwide : (sn.toBitVec.setWidth 32).toNat = sn.toNat := by
    rw [BitVec.toNat_setWidth, UInt8.toNat_toBitVec]
    omega
  have h := Numbered.Truncated.toNat_and_not_mask_or expected (sn.toBitVec.setWidth 32)
    (n := 8) (by decide) (by omega)
  rw [hwide] at h
  exact h

/-- Up to 127 ahead of the expected COUNT, across the end of a block of 256, the COUNT is told from
its low eight bits. -/
theorem estimate_of_window {expected c : BitVec 32} (hc : c.toNat < 2 ^ 24)
    (hle : expected.toNat ≤ c.toNat) (hlt : c.toNat < expected.toNat + 128) :
    estimate expected (UInt8.ofNat c.toNat) = c := by
  have hsn : (UInt8.ofNat c.toNat).toNat = c.toNat % 256 := by simp
  have hbase := toNat_base expected (UInt8.ofNat c.toNat)
  rw [hsn] at hbase
  unfold estimate
  generalize expected &&& ~~~0xff#32 ||| (UInt8.ofNat c.toNat).toBitVec.setWidth 32 = base at *
  by_cases hblock : c.toNat / 256 = expected.toNat / 256
  · -- The same block: the low bits put into `expected` are the COUNT itself.
    have hsame : base = c := by
      apply BitVec.eq_of_toNat_eq
      omega
    rw [if_neg (by bv_omega), if_neg (by bv_omega), hsame]
  · -- The next block: the low bits put into `expected` fall 256 short.
    have hnext : base.toNat + 256 = c.toNat := by omega
    rw [if_pos (by bv_omega)]
    bv_omega

/-- The COUNT before the expected one is told to be older. -/
theorem estimate_of_previous {c : BitVec 32} (hc : c.toNat < 2 ^ 24) :
    estimate (c + 1) (UInt8.ofNat c.toNat) < c + 1 := by
  have hsn : (UInt8.ofNat c.toNat).toNat = c.toNat % 256 := by simp
  have hbase := toNat_base (c + 1) (UInt8.ofNat c.toNat)
  have hnext : (c + 1).toNat = c.toNat + 1 := by bv_omega
  rw [hsn, hnext] at hbase
  unfold estimate
  generalize (c + 1) &&& ~~~0xff#32 ||| (UInt8.ofNat c.toNat).toBitVec.setWidth 32 = base at *
  by_cases hblock : (c.toNat + 1) / 256 = c.toNat / 256
  · -- The same block: the low bits put into the expected COUNT are the one before.
    have hsame : base = c := by
      apply BitVec.eq_of_toNat_eq
      omega
    rw [if_neg (by bv_omega), if_neg (by bv_omega), hsame]
    bv_omega
  · -- The end of a block: they come out 256 ahead.
    have hahead : base.toNat = c.toNat + 256 := by omega
    rw [if_neg (by bv_omega), if_pos (by constructor <;> bv_omega)]
    bv_omega

namespace NasSecurityContext

def new (knasInt knasEnc : Bytes) (nia nea : UInt8) : NasSecurityContext :=
  { knasInt, knasEnc, nia, nea, ulCount := 0, dlCount := 0 }

/-- The COUNT of a direction: 0 is uplink. -/
def count (ctx : NasSecurityContext) (direction : UInt8) : BitVec 32 :=
  if direction = 0 then ctx.ulCount else ctx.dlCount

def setCount (ctx : NasSecurityContext) (direction : UInt8) (c : BitVec 32) :
    NasSecurityContext :=
  if direction = 0 then { ctx with ulCount := c } else { ctx with dlCount := c }

@[simp] theorem count_setCount (ctx : NasSecurityContext) (direction : UInt8) (c : BitVec 32) :
    (ctx.setCount direction c).count direction = c := by
  unfold count setCount
  split <;> rfl

/-- The same keys and algorithms. -/
structure SameKeys (ctx ctx' : NasSecurityContext) : Prop where
  knasInt : ctx'.knasInt = ctx.knasInt
  knasEnc : ctx'.knasEnc = ctx.knasEnc
  nia : ctx'.nia = ctx.nia
  nea : ctx'.nea = ctx.nea

namespace SameKeys

variable {ctx ctx' ctx'' : NasSecurityContext}

theorem refl (ctx : NasSecurityContext) : SameKeys ctx ctx := ⟨rfl, rfl, rfl, rfl⟩

theorem trans (h : SameKeys ctx ctx') (h' : SameKeys ctx' ctx'') : SameKeys ctx ctx'' :=
  ⟨h'.knasInt.trans h.knasInt, h'.knasEnc.trans h.knasEnc, h'.nia.trans h.nia, h'.nea.trans h.nea⟩

theorem symm (h : SameKeys ctx ctx') : SameKeys ctx' ctx :=
  ⟨h.knasInt.symm, h.knasEnc.symm, h.nia.symm, h.nea.symm⟩

theorem setCount (ctx : NasSecurityContext) (direction : UInt8) (c : BitVec 32) :
    SameKeys ctx (ctx.setCount direction c) := by
  unfold NasSecurityContext.setCount
  split <;> exact ⟨rfl, rfl, rfl, rfl⟩

end SameKeys

variable {Msg : Type} (A : Algorithms) (C : Codec Msg)

def cipher (ctx : NasSecurityContext) (c : BitVec 32) (direction sht : UInt8) (payload : Bytes) :
    Bytes :=
  if ciphered sht then A.nasCipher ctx.knasEnc c NAS_BEARER direction payload ctx.nea else payload

/-- The MAC over sequence number and payload. -/
def mac (ctx : NasSecurityContext) (c : BitVec 32) (direction sn : UInt8) (payload : Bytes) :
    BitVec 32 :=
  A.nasMac ctx.knasInt c NAS_BEARER direction (sn :: payload) ctx.nia

/-- The envelope of an encoded message under COUNT `c`. -/
def envelope (ctx : NasSecurityContext) (c : BitVec 32) (payload : Bytes) (sht direction : UInt8) :
    Envelope :=
  let sn := UInt8.ofNat c.toNat
  let payload := ctx.cipher A c direction sht payload
  { sht, mac := ctx.mac A c direction sn payload, sn, payload }

/-- Wrap a message in the security envelope.  There is none for a message that does not encode. -/
def protect (ctx : NasSecurityContext) (inner : Msg) (sht direction : UInt8) :
    Option (Bytes × NasSecurityContext) := do
  let payload ← C.encode inner
  let c := ctx.count direction
  return ((ctx.envelope A c payload sht direction).toBytes, ctx.setCount direction (c + 1))

/-- Verify the MAC of a protected message, decipher if needed, and decode it. -/
def unprotect (ctx : NasSecurityContext) (data : Bytes) (direction : UInt8) :
    Option Msg × NasSecurityContext :=
  match Envelope.ofBytes data with
  | none => (none, ctx)
  | some env =>
      let c := estimate (ctx.count direction) env.sn
      -- A COUNT at or below one already consumed is a replay.
      if c < ctx.count direction then (none, ctx)
      else if ctx.mac A c direction env.sn env.payload ≠ env.mac then (none, ctx)
      else (C.decode (ctx.cipher A c direction env.sht env.payload), ctx.setCount direction (c + 1))

variable {A C} {ctx ctx' : NasSecurityContext} {data : Bytes} {direction : UInt8}

theorem SameKeys.mac_eq (h : SameKeys ctx ctx') (c : BitVec 32) (direction sn : UInt8)
    (payload : Bytes) : ctx'.mac A c direction sn payload = ctx.mac A c direction sn payload := by
  simp [mac, h.knasInt, h.nia]

theorem SameKeys.cipher_eq (h : SameKeys ctx ctx') (c : BitVec 32) (direction sht : UInt8)
    (payload : Bytes) :
    ctx'.cipher A c direction sht payload = ctx.cipher A c direction sht payload := by
  simp [cipher, h.knasEnc, h.nea]

theorem SameKeys.envelope_eq (h : SameKeys ctx ctx') (c : BitVec 32) (payload : Bytes)
    (sht direction : UInt8) :
    ctx'.envelope A c payload sht direction = ctx.envelope A c payload sht direction := by
  simp [envelope, h.mac_eq, h.cipher_eq]

theorem cipher_cipher (hinv : A.Involutive) (ctx : NasSecurityContext) (c : BitVec 32)
    (direction sht : UInt8) (payload : Bytes) :
    ctx.cipher A c direction sht (ctx.cipher A c direction sht payload) = payload := by
  unfold cipher
  split
  · exact hinv _ _ _ _ _ _
  · rfl

/-- A datagram got past the replay check and the MAC, for the COUNT it is taken for. -/
structure Verifies (A : Algorithms) (ctx : NasSecurityContext) (env : Envelope)
    (direction : UInt8) : Prop where
  newer : ctx.count direction ≤ estimate (ctx.count direction) env.sn
  mac : ctx.mac A (estimate (ctx.count direction) env.sn) direction env.sn env.payload = env.mac

/-- A datagram that verifies moves the COUNT and is decoded. -/
theorem unprotect_of_verifies {env : Envelope} (henv : Envelope.ofBytes data = some env)
    (h : Verifies A ctx env direction) :
    ctx.unprotect A C data direction =
      (C.decode (ctx.cipher A (estimate (ctx.count direction) env.sn) direction env.sht
        env.payload), ctx.setCount direction (estimate (ctx.count direction) env.sn + 1)) := by
  have hnewer : ¬ estimate (ctx.count direction) env.sn < ctx.count direction :=
    BitVec.not_lt.mpr h.newer
  simp [unprotect, henv, hnewer, h.mac]

/-- Any other datagram changes nothing. -/
theorem unprotect_of_not_verifies
    (h : ∀ env, Envelope.ofBytes data = some env → ¬ Verifies A ctx env direction) :
    ctx.unprotect A C data direction = (none, ctx) := by
  unfold unprotect
  cases henv : Envelope.ofBytes data with
  | none => rfl
  | some env =>
    by_cases hnewer : estimate (ctx.count direction) env.sn < ctx.count direction
    · simp [hnewer]
    · have hmac : ctx.mac A (estimate (ctx.count direction) env.sn) direction env.sn
          env.payload ≠ env.mac := fun hmac => h env henv ⟨BitVec.not_lt.mp hnewer, hmac⟩
      simp [hnewer, hmac]

/-- A message sealed under the COUNT it is taken for comes back. -/
theorem decode_envelope {tx : NasSecurityContext} {m : Msg} {bytes : Bytes} {sht : UInt8}
    {c : BitVec 32} (hinv : A.Involutive) (hcodec : C.Inverts) (hkeys : SameKeys tx ctx)
    (hencode : C.encode m = some bytes) :
    C.decode (ctx.cipher A c direction sht (tx.envelope A c bytes sht direction).payload) =
      some m := by
  have hplain : ctx.cipher A c direction sht (tx.envelope A c bytes sht direction).payload = bytes := by
    rw [hkeys.cipher_eq, envelope]
    exact cipher_cipher hinv tx c direction sht bytes
  rw [hplain]
  exact hcodec m bytes hencode

end NasSecurityContext

end Radian.Nas
