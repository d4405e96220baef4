import Mathlib.Tactic.Common
import Mathlib.Tactic.IntervalCases

/-!
# Text fields

The string operations the network functions use on decoded fields, over lists of characters so
that they compute: trimming, splitting once, and reading and writing unsigned numbers.

- `parseUnsigned`, `showNat` — a number from its digits, and the digits of a number.
- `parseUnsigned_showNat`, `splitOnce_append` — what was written is read back.
-/

namespace Radian.Text

/-- The Unicode `White_Space` property, which `trim` strips. -/
def isWhiteSpace (c : Char) : Bool :=
  let n := c.toNat
  (9 ≤ n && n ≤ 13) || n == 0x20 || n == 0x85 || n == 0xA0 || n == 0x1680 ||
    (0x2000 ≤ n && n ≤ 0x200A) || n == 0x2028 || n == 0x2029 || n == 0x202F || n == 0x205F ||
    n == 0x3000

def trim (cs : List Char) : List Char :=
  ((cs.dropWhile isWhiteSpace).reverse.dropWhile isWhiteSpace).reverse

/-- Both sides of the first `sep`. -/
def splitOnce (sep : Char) : List Char → Option (List Char × List Char)
  | [] => none
  | c :: cs => if c = sep then some ([], cs) else (splitOnce sep cs).map fun p => (c :: p.1, p.2)

/-- The value of an ASCII digit in a base up to 16. -/
def digit (base : Nat) (c : Char) : Option Nat :=
  let n := c.toNat
  let v := if 48 ≤ n ∧ n ≤ 57 then some (n - 48)
    else if 97 ≤ n ∧ n ≤ 102 then some (n - 87)
    else if 65 ≤ n ∧ n ≤ 70 then some (n - 55)
    else none
  v.filter (· < base)

/-- Digits read from the left, on top of what was read before. -/
def readDigits (base : Nat) : Nat → List Char → Option Nat
  | acc, [] => some acc
  | acc, c :: cs => (digit base c).bind fun d => readDigits base (acc * base + d) cs

/-- An unsigned number of `bits` bits: an optional `+`, then at least one digit, no overflow. -/
def parseUnsigned (base bits : Nat) (cs : List Char) : Option Nat :=
  let digits := match cs with
    | '+' :: rest => rest
    | _ => cs
  if digits.isEmpty then none else (readDigits base 0 digits).filter (· < 2 ^ bits)

/-- Strip every leading copy of `0x`. -/
def trimHexPrefix : List Char → List Char
  | '0' :: 'x' :: cs => trimHexPrefix cs
  | cs => cs

/-- A character in upper case, ASCII letters only. -/
def upper (c : Char) : Char := if 97 ≤ c.toNat ∧ c.toNat ≤ 122 then Char.ofNat (c.toNat - 32) else c

def asciiUpper (s : String) : List Char := s.toList.map upper

/-- Equality up to the case of ASCII letters. -/
def eqIgnoreAsciiCase (xs ys : List Char) : Bool := xs.map upper == ys.map upper

/-- The words of a text. -/
def splitWhitespace (cs : List Char) : List (List Char) :=
  (cs.splitOnP isWhiteSpace).filter fun word => !word.isEmpty

/-- The digits of a number, in lower case. -/
def showNat (base n : Nat) : List Char := Nat.toDigits base n

/-- The parts of a text between the separators. -/
def splitOn (sep : Char) : List Char → List (List Char)
  | [] => [[]]
  | c :: cs =>
      if c = sep then [] :: splitOn sep cs
      else
        match splitOn sep cs with
        | [] => [[c]]
        | part :: parts => (c :: part) :: parts

/-- Texts put together with a separator between them. -/
def join (sep : Char) : List (List Char) → List Char
  | [] => []
  | [part] => part
  | part :: parts => part ++ sep :: join sep parts

/-! ### Reading back what was written -/

theorem splitOnce_append {sep : Char} {xs : List Char} (ys : List Char) (h : sep ∉ xs) :
    splitOnce sep (xs ++ sep :: ys) = some (xs, ys) := by
  induction xs with
  | nil => simp [splitOnce]
  | cons x xs ih =>
    rw [List.mem_cons, not_or] at h
    rw [List.cons_append, splitOnce, if_neg fun heq => h.1 heq.symm, ih h.2, Option.map_some]

/-- A text without the separator is one part. -/
theorem splitOn_of_not_mem {sep : Char} {xs : List Char} (h : sep ∉ xs) : splitOn sep xs = [xs] := by
  induction xs with
  | nil => rfl
  | cons x xs ih =>
    rw [List.mem_cons, not_or] at h
    rw [splitOn, if_neg fun heq => h.1 heq.symm, ih h.2]

theorem splitOn_append {sep : Char} {xs : List Char} (ys : List Char) (h : sep ∉ xs) :
    splitOn sep (xs ++ sep :: ys) = xs :: splitOn sep ys := by
  induction xs with
  | nil => simp [splitOn]
  | cons x xs ih =>
    rw [List.mem_cons, not_or] at h
    rw [List.cons_append, splitOn, if_neg fun heq => h.1 heq.symm, ih h.2]

theorem splitOn_join {sep : Char} {parts : List (List Char)} (hne : parts ≠ [])
    (h : ∀ part ∈ parts, sep ∉ part) : splitOn sep (join sep parts) = parts := by
  induction parts with
  | nil => exact absurd rfl hne
  | cons part parts ih =>
    cases parts with
    | nil => exact splitOn_of_not_mem (h part (List.mem_singleton_self part))
    | cons next rest =>
      have hrest := ih (List.cons_ne_nil next rest) fun p hp =>
        h p (List.mem_cons_of_mem part hp)
      rw [join, splitOn_append _ (h part List.mem_cons_self), hrest]
      exact List.cons_ne_nil next rest

/-- What a text put together is made of. -/
theorem mem_join {sep c : Char} {parts : List (List Char)} (h : c ∈ join sep parts) :
    c = sep ∨ ∃ part ∈ parts, c ∈ part := by
  induction parts with
  | nil => exact absurd h List.not_mem_nil
  | cons part parts ih =>
    cases parts with
    | nil => exact Or.inr ⟨part, List.mem_cons_self, h⟩
    | cons next rest =>
      rw [join, List.mem_append, List.mem_cons] at h
      · rcases h with hpart | hsep | hrest
        · exact Or.inr ⟨part, List.mem_cons_self, hpart⟩
        · exact Or.inl hsep
        · rcases ih hrest with hsep | ⟨p, hp, hc⟩
          · exact Or.inl hsep
          · exact Or.inr ⟨p, List.mem_cons_of_mem part hp, hc⟩
      · exact List.cons_ne_nil next rest

/-- Every part after the first stands behind a separator. -/
theorem join_cons (sep : Char) (part : List Char) (parts : List (List Char)) :
    join sep (part :: parts) = part ++ parts.flatMap fun p => sep :: p := by
  induction parts generalizing part with
  | nil => simp [join]
  | cons next rest ih =>
    rw [join, ih next, List.flatMap_cons, List.cons_append]
    exact List.cons_ne_nil next rest

/-! #### Digits -/

theorem digit_digitChar {base d : Nat} (hbase : base ≤ 16) (h : d < base) :
    digit base (Nat.digitChar d) = some d := by
  have hvalues : ∀ d < 16, ∀ base, d < base → digit base (Nat.digitChar d) = some d := by
    intro d hd base hlt
    interval_cases d <;> simp [digit, Nat.digitChar, Option.filter, hlt]
  exact hvalues d (by omega) base h

theorem readDigits_append (base acc : Nat) (xs ys : List Char) :
    readDigits base acc (xs ++ ys) =
      (readDigits base acc xs).bind fun acc => readDigits base acc ys := by
  induction xs generalizing acc with
  | nil => rfl
  | cons x xs ih =>
    simp only [List.cons_append, readDigits, Option.bind_assoc]
    congr 1
    funext d
    exact ih _

theorem readDigits_showNat {base : Nat} (hone : 1 < base) (hbase : base ≤ 16) (n : Nat) :
    readDigits base 0 (showNat base n) = some n := by
  induction n using Nat.strong_induction_on with
  | _ n ih =>
    rw [showNat, Nat.toDigits_eq_if hone]
    split
    · rename_i hlt
      simp [readDigits, digit_digitChar hbase hlt]
    · have hdiv : n / base < n := Nat.div_lt_self (by omega) hone
      have hmod : n % base < base := Nat.mod_lt n (by omega)
      have hprefix := ih (n / base) hdiv
      rw [showNat] at hprefix
      rw [readDigits_append, hprefix]
      simp only [readDigits, digit_digitChar hbase hmod, Option.bind_some]
      rw [Nat.div_add_mod']

/-- Every character written is a digit. -/
theorem isSome_digit_of_mem {base n : Nat} (hone : 1 < base) (hbase : base ≤ 16) {c : Char}
    (h : c ∈ showNat base n) : (digit base c).isSome := by
  induction n using Nat.strong_induction_on with
  | _ n ih =>
    rw [showNat, Nat.toDigits_eq_if hone] at h
    split at h
    · rename_i hlt
      rw [List.mem_singleton.mp h, digit_digitChar hbase hlt]
      rfl
    · rcases List.mem_append.mp h with hinit | hlast
      · exact ih (n / base) (Nat.div_lt_self (by omega) hone) hinit
      · rw [List.mem_singleton.mp hlast, digit_digitChar hbase (Nat.mod_lt n (by omega))]
        rfl

theorem not_mem_showNat {base n : Nat} (hone : 1 < base) (hbase : base ≤ 16) {c : Char}
    (h : digit base c = none) : c ∉ showNat base n := by
  intro hmem
  have hsome := isSome_digit_of_mem hone hbase hmem
  rw [h] at hsome
  exact absurd hsome (by simp)

theorem showNat_ne_nil (base n : Nat) : showNat base n ≠ [] := Nat.toDigits_ne_nil

/-- A number above zero is written without a leading zero. -/
theorem head?_showNat_ne {base n : Nat} (hone : 1 < base) (hbase : base ≤ 16) (hn : 0 < n) :
    (showNat base n).head? ≠ some '0' := by
  induction n using Nat.strong_induction_on with
  | _ n ih =>
    rw [showNat, Nat.toDigits_eq_if hone]
    split
    · rename_i hlt
      intro hzero
      have hdigit := digit_digitChar hbase hlt
      rw [List.head?_cons, Option.some_inj] at hzero
      rw [hzero] at hdigit
      have hz : digit base '0' = some 0 := by simp [digit, Option.filter]; omega
      rw [hz, Option.some_inj] at hdigit
      omega
    · have hpos : 0 < n / base := Nat.div_pos (by omega) (by omega)
      rw [List.head?_append, Option.or_of_isSome (by simp)]
      exact ih (n / base) (Nat.div_lt_self (by omega) hone) hpos

theorem parseUnsigned_showNat {base bits n : Nat} (hone : 1 < base) (hbase : base ≤ 16)
    (h : n < 2 ^ bits) : parseUnsigned base bits (showNat base n) = some n := by
  have hplus : '+' ∉ showNat base n := not_mem_showNat hone hbase (by simp [digit, Option.filter])
  rcases htext : showNat base n with _ | ⟨c, cs⟩
  · exact absurd htext (showNat_ne_nil base n)
  · have hc : c ≠ '+' := by
      intro heq
      rw [htext, heq] at hplus
      exact hplus List.mem_cons_self
    have hread := readDigits_showNat hone hbase n
    rw [htext] at hread
    rw [parseUnsigned]
    · simp [hread, Option.filter, h]
    · intro rest heq
      exact hc (List.cons.inj heq).1

/-- A number that was read is read at another width exactly when it fits. -/
theorem parseUnsigned_width {base bits n : Nat} {cs : List Char}
    (h : parseUnsigned base bits cs = some n) (width : Nat) :
    parseUnsigned base width cs = if n < 2 ^ width then some n else none := by
  unfold parseUnsigned at h ⊢
  generalize (match cs with
    | '+' :: rest => rest
    | _ => cs) = digits at h ⊢
  by_cases hempty : digits.isEmpty = true
  · simp [hempty] at h
  · rw [if_neg hempty] at h ⊢
    rw [(Option.filter_eq_some_iff.mp h).1, Option.filter_some]
    simp

end Radian.Text
