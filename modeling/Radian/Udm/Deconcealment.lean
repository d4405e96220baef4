import Radian.Udm.Suci

/-!
# What deconcealment accepts

The UDM takes the MSIN of the null scheme as it stands, reads decrypted nibbles that are no digits as
`9`, and looks at neither the country nor the network code.

- `plain` — what a SUCI says about its MSIN, before it is read as digits.
- `Genuine` — the SUPI is decimal and made of the codes and the MSIN.
- `Checked` — the text and the octets that deconcealment does not look at are digits.
- `genuine_iff_checked` — a pair of SUCIs yields genuine SUPIs, apart from each other, exactly when both
  are checked.
-/

namespace Radian.Udm

open Security (Bytes)

section

variable (C : SuciCrypto) (keys : HomeNetworkKeys)

/-- The MSIN in the clear, or the octets that were under the MAC. -/
inductive Plain where
  | text (output : List Char)
  | octets (bytes : Bytes)
  deriving DecidableEq, Repr

/-- The MSIN that is read. -/
def Plain.msin : Plain → List Char
  | .text output => output
  | .octets bytes => tbcdDecode bytes

/-- What stands for an MSIN. -/
def Plain.Encodes : Plain → List Char → Prop
  | .text output, msin => output = msin
  | .octets bytes, msin => bytes = tbcdEncode msin

/-- Digits, and a filler only behind them. -/
def Plain.wellFormed : Plain → Prop
  | .text output => Decimal output
  | .octets bytes => Bcd.wellFormed bytes = true

/-- What a SUCI says about its MSIN, when its scheme output is accepted. -/
def plain (f : SuciFields) : Except SuciError Plain :=
  if f.scheme = ['0'] then .ok (.text f.output)
  else (eciesProfile C keys f.scheme f.keyId).bind fun profile => (decryptOctets C f.output profile).map .octets

/-- The fields of an accepted SUCI and what it says about its MSIN. -/
def Accepted (input : List Char) (f : SuciFields) (p : Plain) : Prop :=
  "suci-".toList.isPrefixOf input = true ∧ parseSuci input = .ok f ∧ plain C keys f = .ok p

/-! ### What is promised -/

/-- Whatever SUPI comes out is decimal, and made of the codes and the MSIN. -/
def Genuine (input : List Char) : Prop :=
  "suci-".toList.isPrefixOf input = true → ∀ supi, deconceal C keys input = .ok supi →
    ∃ f p msin, Accepted C keys input f p ∧ p.Encodes msin ∧
      Decimal f.mcc ∧ Decimal f.mnc ∧ Decimal msin ∧ supi = "imsi-".toList ++ (f.mcc ++ f.mnc ++ msin)

/-- Different octets of two SUCIs, of networks with equally long codes, are different SUPIs. -/
def Apart (input input' : List Char) : Prop :=
  ∀ f f' bytes bytes', Accepted C keys input f (.octets bytes) → Accepted C keys input' f' (.octets bytes') →
    (f.mcc ++ f.mnc).length = (f'.mcc ++ f'.mnc).length → bytes ≠ bytes' →
      deconceal C keys input ≠ deconceal C keys input'

/-! ### What would have to be checked -/

/-- The codes and the MSIN of an accepted SUCI are digits. -/
def Checked (input : List Char) : Prop :=
  ∀ f p, Accepted C keys input f p → Decimal f.mcc ∧ Decimal f.mnc ∧ p.wellFormed

end

/-! ### Deconcealment by its parts -/

section

variable {C : SuciCrypto} {keys : HomeNetworkKeys} {input : List Char}

/-- The SUPI is made of the codes and of what is read as the MSIN. -/
theorem deconceal_eq (hstarts : "suci-".toList.isPrefixOf input = true) {f : SuciFields}
    (hfields : parseSuci input = .ok f) :
    deconceal C keys input =
      (plain C keys f).map fun p => "imsi-".toList ++ (f.mcc ++ f.mnc ++ p.msin) := by
  rw [deconceal, if_neg (by rw [hstarts]; decide), hfields, plain]
  by_cases hnull : f.scheme = ['0']
  · simp [bind, Except.bind, pure, Except.pure, Except.map, hnull, Plain.msin]
  · cases hprofile : eciesProfile C keys f.scheme f.keyId with
    | error e => simp [bind, Except.bind, Except.map, hnull, hprofile]
    | ok profile =>
      cases hoctets : decryptOctets C f.output profile with
      | error e => simp [bind, Except.bind, Except.map, hnull, hprofile, decryptEcies, hoctets]
      | ok bytes =>
        simp [bind, Except.bind, pure, Except.pure, Except.map, hnull, hprofile, decryptEcies, hoctets,
          Plain.msin]

/-- The SUPI of an accepted SUCI. -/
theorem deconceal_of_accepted {f : SuciFields} {p : Plain} (h : Accepted C keys input f p) :
    deconceal C keys input = .ok ("imsi-".toList ++ (f.mcc ++ f.mnc ++ p.msin)) := by
  obtain ⟨hstarts, hfields, hplain⟩ := h
  rw [deconceal_eq hstarts hfields, hplain]
  rfl

/-- A SUCI that yields a SUPI is accepted. -/
theorem exists_accepted (hstarts : "suci-".toList.isPrefixOf input = true) {supi : List Char}
    (h : deconceal C keys input = .ok supi) : ∃ f p, Accepted C keys input f p := by
  cases hfields : parseSuci input with
  | error e =>
    rw [deconceal, if_neg (by rw [hstarts]; decide), hfields] at h
    cases h
  | ok f =>
    rw [deconceal_eq hstarts hfields] at h
    cases hplain : plain C keys f with
    | error e =>
      rw [hplain] at h
      cases h
    | ok p => exact ⟨f, p, hstarts, hfields, hplain⟩

theorem Accepted.unique {f f' : SuciFields} {p p' : Plain} (h : Accepted C keys input f p)
    (h' : Accepted C keys input f' p') : f = f' ∧ p = p' := by
  obtain ⟨-, hfields, hplain⟩ := h
  obtain ⟨-, hfields', hplain'⟩ := h'
  rw [hfields] at hfields'
  cases hfields'
  rw [hplain] at hplain'
  cases hplain'
  exact ⟨rfl, rfl⟩

end

/-! ### Digits -/

/-- Digits print as decimal text that has them as its values. -/
theorem exists_decimal {ds : Bytes} (h : Bcd.Digits ds) : ∃ cs, Decimal cs ∧ digitValues cs = ds := by
  induction ds with
  | nil => exact ⟨[], by decide, rfl⟩
  | cons d ds ih =>
    obtain ⟨cs, hcs, hvalues⟩ := ih fun d hd => h d (List.mem_cons_of_mem _ hd)
    have hd : d.toNat < 10 := by
      have hle := UInt8.le_iff_toNat_le.mp (h d List.mem_cons_self)
      change d.toNat ≤ 9 at hle
      omega
    refine ⟨Nat.digitChar d.toNat :: cs, ?_, by rw [digitValues_cons hd, hvalues, UInt8.ofNat_toNat]⟩
    intro c hc
    rcases List.mem_cons.mp hc with rfl | hc
    · have hdigit : ∀ n < 10, (Nat.digitChar n).isDigit = true := by decide
      exact hdigit _ hd
    · exact hcs c hc

/-- What encodes a decimal MSIN is what is well formed. -/
theorem Plain.wellFormed_iff (p : Plain) : p.wellFormed ↔ ∃ msin, Decimal msin ∧ p.Encodes msin := by
  cases p with
  | text output =>
    constructor
    · exact fun h => ⟨output, h, rfl⟩
    · rintro ⟨msin, hmsin, rfl⟩
      exact hmsin
  | octets bytes =>
    change Bcd.wellFormed bytes = true ↔ _
    rw [Bcd.wellFormed_iff]
    constructor
    · rintro ⟨ds, hds, rfl⟩
      obtain ⟨msin, hmsin, rfl⟩ := exists_decimal hds
      exact ⟨msin, hmsin, rfl⟩
    · rintro ⟨msin, hmsin, rfl⟩
      exact ⟨digitValues msin, (digitValues_spec hmsin).1, rfl⟩

/-- And it is read as that MSIN. -/
theorem Plain.msin_of_encodes {p : Plain} {msin : List Char} (h : p.Encodes msin) (hmsin : Decimal msin) :
    p.msin = msin := by
  cases p with
  | text output => exact h
  | octets bytes =>
    change bytes = tbcdEncode msin at h
    rw [Plain.msin, h, tbcdDecode_tbcdEncode hmsin]

/-! ### Genuine SUPIs -/

section

variable {C : SuciCrypto} {keys : HomeNetworkKeys} {input input' : List Char}

/-- A SUPI is genuine exactly when the digits were checked. -/
theorem genuine_iff : Genuine C keys input ↔ Checked C keys input := by
  constructor
  · intro h f p haccepted
    obtain ⟨f', p', msin, haccepted', hencodes, hmcc, hmnc, hmsin, -⟩ :=
      h haccepted.1 _ (deconceal_of_accepted haccepted)
    obtain ⟨rfl, rfl⟩ := haccepted.unique haccepted'
    exact ⟨hmcc, hmnc, p.wellFormed_iff.mpr ⟨msin, hmsin, hencodes⟩⟩
  · intro h hstarts supi hsupi
    obtain ⟨f, p, haccepted⟩ := exists_accepted hstarts hsupi
    obtain ⟨hmcc, hmnc, hwellFormed⟩ := h f p haccepted
    obtain ⟨msin, hmsin, hencodes⟩ := p.wellFormed_iff.mp hwellFormed
    refine ⟨f, p, msin, haccepted, hencodes, hmcc, hmnc, hmsin, ?_⟩
    rw [deconceal_of_accepted haccepted, Plain.msin_of_encodes hencodes hmsin] at hsupi
    exact (Except.ok.inj hsupi).symm

/-- Checked octets are kept apart. -/
theorem apart_of_checked (h : Checked C keys input) (h' : Checked C keys input') :
    Apart C keys input input' := by
  intro f f' bytes bytes' haccepted haccepted' hlen hne heq
  obtain ⟨msin, hmsin, hencodes⟩ := (Plain.wellFormed_iff _).mp (h f _ haccepted).2.2
  obtain ⟨msin', hmsin', hencodes'⟩ := (Plain.wellFormed_iff _).mp (h' f' _ haccepted').2.2
  rw [deconceal_of_accepted haccepted, deconceal_of_accepted haccepted',
    Plain.msin_of_encodes hencodes hmsin, Plain.msin_of_encodes hencodes' hmsin'] at heq
  have hdigits := List.append_cancel_left (Except.ok.inj heq)
  have hsame : msin = msin' := (List.append_inj hdigits hlen).2
  apply hne
  change bytes = tbcdEncode msin at hencodes
  change bytes' = tbcdEncode msin' at hencodes'
  rw [hencodes, hencodes', hsame]

end

/-- Two SUCIs yield genuine SUPIs, apart from each other, exactly when the digits of both would pass a
check. -/
theorem genuine_iff_checked (C : SuciCrypto) (keys : HomeNetworkKeys) (input input' : List Char) :
    (Genuine C keys input ∧ Genuine C keys input' ∧ Apart C keys input input') ↔
      (Checked C keys input ∧ Checked C keys input') := by
  constructor
  · rintro ⟨h, h', -⟩
    exact ⟨genuine_iff.mp h, genuine_iff.mp h'⟩
  · rintro ⟨h, h'⟩
    exact ⟨genuine_iff.mpr h, genuine_iff.mpr h', apart_of_checked h h'⟩

/-- The null scheme passes any text on. -/
theorem not_genuine : ¬ ∀ (C : SuciCrypto) (keys : HomeNetworkKeys) (input : List Char),
    Genuine C keys input := by
  intro h
  obtain ⟨f, p, msin, ⟨-, hfields, hplain⟩, hencodes, -, -, hmsin, -⟩ :=
    h sampleCrypto ⟨∅, ∅⟩ "suci-0-999-70-0-0-0-../1".toList rfl _ rfl
  have hf : parseSuci "suci-0-999-70-0-0-0-../1".toList =
      .ok { mcc := "999".toList, mnc := "70".toList, scheme := ['0'], keyId := 0, output := "../1".toList } := rfl
  rw [hf] at hfields
  cases hfields
  cases hplain
  change "../1".toList = msin at hencodes
  subst hencodes
  exact absurd hmsin (by decide)

end Radian.Udm
