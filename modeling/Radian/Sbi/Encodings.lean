import Mathlib.Data.Nat.NthRoot.Defs
import Mathlib.Data.Nat.Prime.Basic
import Radian.Octets.Basic
import Radian.Text

/-!
# Encodings

Encodings that web tokens are made of.

- `b64Encode`, `b64Decode` — base64 for URLs, without padding.
- `putText`, `putNat` — the fields of a JSON object, and `getText`, `getNat`, which read them back.
- `utf8` — the octets of a text.
- `sha256`, `hmacSha256` — the digests.
-/

namespace Radian.Encodings

/-! ### base64 -/

def letters : List Char := "ABCDEFGHIJKLMNOPQRSTUVWXYZabcdefghijklmnopqrstuvwxyz0123456789-_".toList

def letter (d : Nat) : Char := letters.getD d 'A'

theorem letter_mod (n : Nat) :
    letters.idxOf? (letter (n % 64)) = some (n % 64) ∧ letter (n % 64) ≠ '.' := by
  have hletter : ∀ d < 64, letters.idxOf? (letter d) = some d ∧ letter d ≠ '.' := by decide +kernel
  exact hletter _ (Nat.mod_lt n (by decide))

/-- The last `k` sextets of a number, as letters. -/
def spell : Nat → Nat → List Char
  | 0, _ => []
  | k + 1, n => spell k (n / 64) ++ [letter (n % 64)]

def unspell (cs : List Char) : Option Nat :=
  cs.foldlM (fun n c => (letters.idxOf? c).map (64 * n + ·)) 0

theorem unspell_spell (k n : Nat) : unspell (spell k n) = some (n % 64 ^ k) := by
  induction k generalizing n with
  | zero => simp [spell, unspell, Nat.mod_one]
  | succ k ih =>
    simp only [unspell] at ih
    simp [unspell, spell, List.foldlM_append, ih, letter_mod, Nat.pow_succ', Nat.mod_mul]
    exact Nat.add_comm ..

@[simp] theorem length_spell (k n : Nat) : (spell k n).length = k := by
  induction k generalizing n with
  | zero => rfl
  | succ k ih => simp [spell, ih]

theorem dot_notMem_spell (k n : Nat) : '.' ∉ spell k n := by
  induction k generalizing n with
  | zero => simp [spell]
  | succ k ih => simp [spell, ih, (letter_mod n).2.symm]

/-- As many sextets as it takes, the last filled up with zero bits. -/
def b64Encode (bytes : List UInt8) : List Char :=
  let k := (8 * bytes.length + 5) / 6
  spell k (Octets.value bytes * 2 ^ (6 * k - 8 * bytes.length))

def b64Decode (cs : List Char) : Option (List UInt8) :=
  let n := 6 * cs.length / 8
  let spare := 2 ^ (6 * cs.length - 8 * n)
  (unspell cs).bind fun v =>
    if cs.length % 4 ≠ 1 ∧ v % spare = 0 then some (Octets.ofNat n (v / spare)) else none

theorem ofNat_value (bs : List UInt8) : Octets.ofNat bs.length (Octets.value bs) = bs := by
  induction bs using List.reverseRecOn with
  | nil => rfl
  | append_singleton bs b ih =>
    have hb := b.toNat_lt
    rw [List.length_append, List.length_singleton, Octets.value_append, Octets.ofNat,
      show (Octets.value bs * 256 + b.toNat) / 256 = Octets.value bs by omega, ih]
    simp [UInt8.ofNat_add]

theorem b64Decode_encode (bytes : List UInt8) : b64Decode (b64Encode bytes) = some bytes := by
  simp only [b64Encode]
  obtain ⟨k, hk⟩ : ∃ k, (8 * bytes.length + 5) / 6 = k := ⟨_, rfl⟩
  rw [hk]
  have hbytes : 6 * k / 8 = bytes.length := by omega
  have hwhole : k % 4 ≠ 1 := by omega
  have hpow : 256 ^ bytes.length * 2 ^ (6 * k - 8 * bytes.length) = 64 ^ k := by
    rw [show 256 = 2 ^ 8 from rfl, show 64 = 2 ^ 6 from rfl, ← Nat.pow_mul, ← Nat.pow_mul, ← Nat.pow_add,
      Nat.add_sub_cancel' (by omega)]
  have hfits := Nat.mul_lt_mul_of_pos_right (Octets.value_lt bytes)
    (Nat.two_pow_pos (6 * k - 8 * bytes.length))
  rw [hpow] at hfits
  simp [b64Decode, unspell_spell, Nat.mod_eq_of_lt hfits, hbytes, hwhole, ofNat_value]

/-! ### JSON -/

/-- The letters of the characters that have one after a backslash. -/
def shorts : List (Char × Char) :=
  [('"', '"'), ('\\', '\\'), ('b', '\x08'), ('t', '\t'), ('n', '\n'), ('f', '\x0c'), ('r', '\r')]

def escape (c : Char) : List Char :=
  match shorts.find? (·.2 = c) with
  | some short => ['\\', short.1]
  | none =>
      if c.toNat < 32 then
        ['\\', 'u', '0', '0', Nat.digitChar (c.toNat / 16), Nat.digitChar (c.toNat % 16)]
      else [c]

/-- The text up to the closing quote, and what comes after it. -/
def readText : List Char → Option (List Char × List Char)
  | [] => none
  | '"' :: cs => some ([], cs)
  | '\\' :: 'u' :: '0' :: '0' :: x :: y :: cs =>
      (Text.readDigits 16 0 [x, y]).bind fun n => (readText cs).map (Prod.map (Char.ofNat n :: ·) id)
  | '\\' :: x :: cs => (shorts.lookup x).bind fun c => (readText cs).map (Prod.map (c :: ·) id)
  | c :: cs => (readText cs).map (Prod.map (c :: ·) id)

theorem readText_escape (c : Char) (cs : List Char) :
    readText (escape c ++ cs) = (readText cs).map (Prod.map (c :: ·) id) := by
  by_cases hlow : c.toNat < 93
  · obtain ⟨n, hn, rfl⟩ : ∃ n < 93, c = Char.ofNat n := ⟨c.toNat, hlow, (Char.ofNat_toNat c).symm⟩
    interval_cases n <;> rfl
  · have hne : ∀ short ∈ shorts, short.2 ≠ c := by
      rintro short hshort rfl
      revert short
      decide
    have hquote : c ≠ '"' := fun heq => hlow (by rw [heq]; decide)
    have hslash : c ≠ '\\' := fun heq => hlow (by rw [heq]; decide)
    have hfind : shorts.find? (·.2 = c) = none := by simpa using hne
    have hplain : escape c = [c] := by simp [escape, hfind, show ¬ c.toNat < 32 by omega]
    rw [hplain, List.singleton_append, readText]
    · exact hquote
    · exact fun _ _ _ heq => absurd heq hslash
    · exact fun _ _ heq => absurd heq hslash

theorem readText_escaped (text cs : List Char) :
    readText (text.flatMap escape ++ '"' :: cs) = some (text, cs) := by
  induction text with
  | nil => rfl
  | cons c text ih => simp [readText_escape, ih]

def after (lead : String) (cs : List Char) : Option (List Char) :=
  if lead.toList.isPrefixOf cs then some (cs.drop lead.toList.length) else none

def putText (lead text : String) (cs : List Char) : List Char :=
  lead.toList ++ (text.toList.flatMap escape ++ '"' :: cs)

def getText (lead : String) (cs : List Char) : Option (String × List Char) :=
  ((after lead cs).bind readText).map (Prod.map String.ofList id)

def isDigit (c : Char) : Bool := (Text.digit 10 c).isSome

def putNat (lead : String) (n : Nat) (cs : List Char) : List Char :=
  lead.toList ++ (Text.showNat 10 n ++ cs)

def getNat (lead : String) (cs : List Char) : Option (Nat × List Char) :=
  (after lead cs).bind fun cs =>
    (Text.readDigits 10 0 (cs.takeWhile isDigit)).map (·, cs.dropWhile isDigit)

@[simp] theorem after_append (lead : String) (cs : List Char) : after lead (lead.toList ++ cs) = some cs := by
  simp [after]

@[simp] theorem getText_putText (lead text : String) (cs : List Char) :
    getText lead (putText lead text cs) = some (text, cs) := by
  simp [getText, putText, readText_escaped]

theorem getNat_putNat (lead : String) (n : Nat) (cs : List Char) (hcs : cs.head?.any isDigit = false) :
    getNat lead (putNat lead n cs) = some (n, cs) := by
  have hdigits : ∀ d ∈ Text.showNat 10 n, isDigit d = true := fun d =>
    Text.isSome_digit_of_mem (by decide) (by decide)
  have htake : cs.takeWhile isDigit = [] ∧ cs.dropWhile isDigit = cs := by
    cases cs with
    | nil => exact ⟨rfl, rfl⟩
    | cons c cs =>
      have hc : isDigit c = false := hcs
      simp [hc]
  simp [getNat, putNat, List.takeWhile_append_of_pos hdigits, List.dropWhile_append_of_pos hdigits, htake,
    Text.readDigits_showNat]

/-! ### UTF-8 -/

def utf8 (cs : List Char) : List UInt8 := (String.ofList cs).toByteArray.data.toList

def ofUtf8 (bytes : List UInt8) : Option (List Char) :=
  (String.fromUTF8? ⟨bytes.toArray⟩).map String.toList

theorem ofUtf8_utf8 (cs : List Char) : ofUtf8 (utf8 cs) = some cs := by
  have hread : String.fromUTF8? (String.ofList cs).toByteArray = some (String.ofList cs) := by
    rw [String.fromUTF8?, dif_pos (String.ofList cs).isValidUTF8]
    rfl
  exact (congrArg (Option.map String.toList) hread).trans (congrArg some String.toList_ofList)

/-! ### SHA-256 -/

def primes : List Nat := (List.range 312).filter Nat.Prime

/-- The first bits of the fraction of a prime's root. -/
def rootBits (k p : Nat) : BitVec 32 := .ofNat 32 (Nat.nthRoot k (p <<< (32 * k)))

def words (block : List UInt8) : List (BitVec 32) :=
  (block.toChunks 4).map fun bytes => .ofNat 32 (Octets.value bytes)

/-- The next word of the schedule, the latest first. -/
def extend (w : List (BitVec 32)) : List (BitVec 32) :=
  let x := w.getD 14 0
  let y := w.getD 1 0
  ((y.rotateRight 17 ^^^ y.rotateRight 19 ^^^ y >>> 10) + w.getD 6 0 +
    (x.rotateRight 7 ^^^ x.rotateRight 18 ^^^ x >>> 3) + w.getD 15 0) :: w

def round : List (BitVec 32) → BitVec 32 × BitVec 32 → List (BitVec 32)
  | [a, b, c, d, e, f, g, h], (k, w) =>
      let t₁ := h + (e.rotateRight 6 ^^^ e.rotateRight 11 ^^^ e.rotateRight 25) +
        ((e &&& f) ^^^ (~~~e &&& g)) + k + w
      let t₂ := (a.rotateRight 2 ^^^ a.rotateRight 13 ^^^ a.rotateRight 22) +
        ((a &&& b) ^^^ (a &&& c) ^^^ (b &&& c))
      [t₁ + t₂, a, b, c, d + t₁, e, f, g]
  | state, _ => state

def compress (state : List (BitVec 32)) (block : List UInt8) : List (BitVec 32) :=
  let schedule := (extend^[48] (words block).reverse).reverse
  List.zipWith (· + ·) state (((primes.map (rootBits 3)).zip schedule).foldl round state)

def sha256 (bytes : List UInt8) : List UInt8 :=
  let zeros := List.replicate ((119 - bytes.length % 64) % 64) 0
  let padded := bytes ++ 0x80 :: zeros ++ Octets.ofNat 8 (8 * bytes.length)
  let state := (padded.toChunks 64).foldl compress ((primes.take 8).map (rootBits 2))
  state.flatMap fun word => Octets.ofNat 4 word.toNat

def hmacSha256 (secret bytes : List UInt8) : List UInt8 :=
  let key := if secret.length ≤ 64 then secret else sha256 secret
  let pad (b : UInt8) := (key ++ List.replicate (64 - key.length) 0).map (· ^^^ b)
  sha256 (pad 0x5c ++ sha256 (pad 0x36 ++ bytes))

end Radian.Encodings
