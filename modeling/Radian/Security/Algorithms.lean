import Mathlib.Algebra.Group.Nat.Defs
import Mathlib.Data.List.Basic
import Mathlib.Tactic.Common

/-!
# The security library

The integrity and ciphering algorithms of the security library, which NAS and PDCP call with the
same inputs: key, COUNT, BEARER, DIRECTION, and the identifier of the algorithm.
-/

namespace Radian.Security

abbrev Bytes : Type := List UInt8

/-- `oxirush_security`. -/
structure Algorithms where
  nasMac : (key : Bytes) → (count : BitVec 32) → (bearer direction : UInt8) → (message : Bytes) →
    (nia : UInt8) → BitVec 32
  nasCipher : (key : Bytes) → (count : BitVec 32) → (bearer direction : UInt8) → (message : Bytes) →
    (nea : UInt8) → Bytes

/-- Ciphering adds a key stream: doing it twice with equal inputs gives the message back. -/
def Algorithms.Involutive (A : Algorithms) : Prop :=
  ∀ key count bearer direction message nea,
    A.nasCipher key count bearer direction
      (A.nasCipher key count bearer direction message nea) nea = message

/-- A key stream is as long as the message. -/
def Algorithms.KeepsLength (A : Algorithms) : Prop :=
  ∀ key count bearer direction message nea,
    (A.nasCipher key count bearer direction message nea).length = message.length

/-- The octets of a message with those of a key stream added. -/
def addStream (stream message : Bytes) : Bytes :=
  message.mapIdx fun i b => b ^^^ stream.getD i 0

theorem addStream_addStream (stream message : Bytes) :
    addStream stream (addStream stream message) = message := by
  apply List.ext_getElem
  · simp [addStream]
  · intro i h h'
    simp only [addStream, List.getElem_mapIdx, UInt8.xor_assoc, UInt8.xor_self, UInt8.xor_zero]

/-- A MAC, and ciphering with a key stream. -/
def Algorithms.ofStream (mac : Bytes → BitVec 32 → UInt8 → UInt8 → Bytes → UInt8 → BitVec 32)
    (stream : Bytes → BitVec 32 → UInt8 → UInt8 → UInt8 → Bytes) : Algorithms where
  nasMac := mac
  nasCipher key count bearer direction message nea :=
    addStream (stream key count bearer direction nea) message

theorem Algorithms.involutive_ofStream
    (mac : Bytes → BitVec 32 → UInt8 → UInt8 → Bytes → UInt8 → BitVec 32)
    (stream : Bytes → BitVec 32 → UInt8 → UInt8 → UInt8 → Bytes) :
    (Algorithms.ofStream mac stream).Involutive :=
  fun _ _ _ _ _ _ => addStream_addStream _ _

/-- `u32::to_be_bytes`. -/
def toBeBytes (x : BitVec 32) : Bytes :=
  [UInt8.ofNat (x.toNat / 2 ^ 24), UInt8.ofNat (x.toNat / 2 ^ 16), UInt8.ofNat (x.toNat / 2 ^ 8),
    UInt8.ofNat x.toNat]

/-- `u32::from_be_bytes`. -/
def fromBeBytes (bs : Bytes) : BitVec 32 :=
  BitVec.ofNat 32 (bs.foldl (fun acc b => acc * 256 + b.toNat) 0)

@[simp] theorem length_toBeBytes (x : BitVec 32) : (toBeBytes x).length = 4 := rfl

@[simp] theorem fromBeBytes_toBeBytes (x : BitVec 32) : fromBeBytes (toBeBytes x) = x := by
  apply BitVec.eq_of_toNat_eq
  have hlt := x.isLt
  simp only [fromBeBytes, toBeBytes, List.foldl_cons, List.foldl_nil, BitVec.toNat_ofNat,
    UInt8.toNat_ofNat']
  omega

theorem toBeBytes_fromBeBytes (a b c d : UInt8) : toBeBytes (fromBeBytes [a, b, c, d]) = [a, b, c, d] := by
  have ha := a.toNat_lt
  have hb := b.toNat_lt
  have hc := c.toNat_lt
  have hd := d.toNat_lt
  simp only [toBeBytes, fromBeBytes, List.foldl_cons, List.foldl_nil, BitVec.toNat_ofNat,
    List.cons.injEq, and_true, ← UInt8.toNat_inj, UInt8.toNat_ofNat']
  omega

end Radian.Security
