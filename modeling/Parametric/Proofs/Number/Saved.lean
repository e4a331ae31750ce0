import Parametric.Proofs.Number.Arithmetic
import Parametric.Proofs.Number.Text
/-! Every number is read back from the text it is saved as.

A sign is read as a negation. What is not finite has a word of its own, and all
NaNs are one.
-/

set_option autoImplicit false

namespace Parametric

open Float.Model Float.Model.UnpackedFloat

variable {x : Float}

theorem signOf_of_negative (negative : NumberForm.isNegative x = true) :
    signOf x = .negative := by
  rw [signOf, negative]
  rfl

theorem neg_abs (finite : x.isFinite = true) (negative : NumberForm.isNegative x = true) :
    -x.abs = x := by
  have sign := signOf_of_negative negative
  rcases Nat.eq_zero_or_pos (Binary.ofFloat x).mantissa with zero | positive
  · have same := ofModel_zero finite zero
    rw [sign] at same
    rw [abs_of_zero finite zero, ← same]
    decide +kernel
  · have same := ofModel_finite finite positive
    rw [sign] at same
    have unpacked := (Binary.canonical positive).unpack_pack (Binary.exponent_le finite) .positive
    rw [abs_of_mantissa finite positive]
    change Float.ofModel (.pack (Float.Model.pack _).unpack.neg) = x
    rw [unpacked]
    exact same

theorem eq_of_isNaN (nan : x.isNaN = true) : 0.0 / 0.0 = x := by
  have parts := pack_unpack x
  have word : x.toModel.unpack = .notANumber := by
    change UnpackedFloat.isNaN x.toModel.unpack = true at nan
    cases unpacked : x.toModel.unpack with
    | notANumber => rfl
    | _ => rw [unpacked] at nan; cases nan
  rw [← parts, word]
  decide +kernel

theorem eq_of_isInf (infinite : x.isInf = true) :
    (if NumberForm.isNegative x then -(1.0 / 0.0) else 1.0 / 0.0) = x := by
  have parts := pack_unpack x
  have word : x.toModel.unpack = .infinity (signOf x) := by
    change UnpackedFloat.isInf x.toModel.unpack = true at infinite
    rw [unpack_eq] at infinite ⊢
    split_ifs at infinite ⊢ with largest none
    · rfl
    all_goals cases infinite
  rw [word] at parts
  rw [← parts]
  cases sign : NumberForm.isNegative x with
  | true =>
    rw [signOf_of_negative sign]
    decide +kernel
  | false =>
    rw [signOf_eq sign]
    decide +kernel

theorem Numeral.Plain.head {n : Numeral} (plain : n.Plain) :
    ∃ c rest, n.plainChars = c :: rest ∧ c.isDigit = true := by
  obtain ⟨c, rest, same⟩ := List.exists_cons_of_ne_nil plain.some
  refine ⟨c, rest ++ if n.fraction.isEmpty then [] else '.' :: n.fraction, ?_, ?_⟩
  · rw [Numeral.plainChars, same, List.cons_append]
  · exact plain.whole c (by simp [same])

theorem Numeral.Plain.mem_plainChars {n : Numeral} (plain : n.Plain) {c : Char}
    (member : c ∈ n.plainChars) : c.isDigit = true ∨ c = '.' := by
  rcases List.mem_append.mp member with inWhole | inFraction
  · exact .inl (plain.whole c inWhole)
  · split at inFraction
    · cases inFraction
    · rcases List.mem_cons.mp inFraction with point | inFraction
      · exact .inr point
      · exact .inl (plain.fraction c inFraction)

theorem readMagnitude_cons {c : Char} (rest : List Char) (lead : c.isDigit = true ∨ c = '.') :
    readMagnitude (c :: rest) = (Numeral.ofChars? (c :: rest)).map Numeral.value := by
  -- The first character stays as it is in lower case, so the text is none of the words.
  have lower : c.toLower = c := by
    apply Char.toLower_eq_of_not_isUpper
    rcases lead with digit | rfl
    · have bounds : 48 ≤ c.toNat ∧ c.toNat ≤ 57 := Char.isDigit_iff_toNat.mp digit
      intro upper
      simp only [Char.isUpper, decide_eq_true_eq] at upper
      have low : 65 ≤ c.toNat := upper.1
      omega
    · decide
  have noWord : ∀ d tail, d.isDigit = false → d ≠ '.' →
      String.ofList ((c :: rest).map Char.toLower) ≠ String.ofList (d :: tail) := by
    intro d tail noDigit noPoint word
    rw [String.ofList_inj, List.map_cons, lower] at word
    obtain ⟨rfl, -⟩ := List.cons.inj word
    rcases lead with digit | point
    · rw [noDigit] at digit
      cases digit
    · exact noPoint point
  have noInf : String.ofList ((c :: rest).map Char.toLower) ≠ "inf" :=
    noWord 'i' _ rfl (by decide)
  have noInfinity : String.ofList ((c :: rest).map Char.toLower) ≠ "infinity" :=
    noWord 'i' _ rfl (by decide)
  have noNaN : String.ofList ((c :: rest).map Char.toLower) ≠ "nan" :=
    noWord 'n' _ rfl (by decide)
  rw [readMagnitude, if_neg (not_or.mpr ⟨noInf, noInfinity⟩), if_neg noNaN]

theorem readNumber_cons {c : Char} (rest : List Char) (lead : c.isDigit = true ∨ c = '.') :
    readNumber (String.ofList (c :: rest)) =
      (Numeral.ofChars? (c :: rest)).map Numeral.value := by
  rw [readNumber, String.toList_ofList]
  split
  · next front =>
    obtain ⟨rfl, -⟩ := List.cons.inj front
    exact absurd lead (by decide)
  · next front =>
    obtain ⟨rfl, -⟩ := List.cons.inj front
    exact absurd lead (by decide)
  · exact readMagnitude_cons rest lead

theorem readMagnitude_plainChars {n : Numeral} (plain : n.Plain) :
    readMagnitude n.plainChars = some n.value := by
  obtain ⟨c, rest, same, digit⟩ := plain.head
  rw [same, readMagnitude_cons rest (.inl digit), ← same, Numeral.ofChars?_plainChars plain]
  rfl

theorem isNaN_or_isInf (notFinite : x.isFinite = false) : x.isNaN = true ∨ x.isInf = true := by
  have largest : fieldOf x = 2047 := by
    by_contra small
    rw [(isFinite_iff x).mpr small] at notFinite
    cases notFinite
  change UnpackedFloat.isNaN x.toModel.unpack = true ∨ UnpackedFloat.isInf x.toModel.unpack = true
  rw [unpack_eq, if_pos largest]
  split
  · exact .inr rfl
  · exact .inl rfl

theorem isFinite_of_neg (finite : (-x).isFinite = true) : x.isFinite = true := by
  by_contra infinite
  rcases isNaN_or_isInf (Bool.eq_false_iff.mpr infinite) with nan | infinite
  · rw [← eq_of_isNaN nan] at finite
    exact absurd finite (by decide +kernel)
  · rw [← eq_of_isInf infinite] at finite
    split at finite
    · exact absurd finite (by decide +kernel)
    · exact absurd finite (by decide +kernel)

inductive SavedText (x : Float) : List Char → Prop where
  | word (text : String) (listed : text ∈ ["NaN", "inf", "-inf"])
      (read : readNumber text = some x) : SavedText x text.toList
  | unsigned {n : Numeral} (plain : n.Plain) (value : n.value = x) : SavedText x n.plainChars
  | negative {n : Numeral} (plain : n.Plain) (value : -n.value = x) :
      SavedText x ('-' :: n.plainChars)

theorem savedText_of_isFinite (form : NumberForm)
    (positional : ∀ point, form.positional point = true) (finite : x.isFinite = true) :
    SavedText x (form.chars x) := by
  obtain ⟨n, plain, value, text⟩ := form.exists_magnitude positional finite
  rw [text]
  cases sign : NumberForm.isNegative x with
  | true => exact .negative plain (by rw [value, neg_abs finite sign])
  | false => exact .unsigned plain (value.trans (abs_of_unsigned finite sign))

theorem savedText (x : Float) : SavedText x (NumberForm.saved.chars x) := by
  cases finite : x.isFinite with
  | true => exact savedText_of_isFinite NumberForm.saved (fun _ => rfl) finite
  | false =>
    cases nan : x.isNaN with
    | true =>
      have read : readNumber "NaN" = some x := by
        rw [← eq_of_isNaN nan]
        decide +kernel
      have word := SavedText.word "NaN" (by simp) read
      rwa [NumberForm.chars, nan, if_pos rfl]
    | false =>
      have infinite : x.isInf = true :=
        (isNaN_or_isInf finite).resolve_left (Bool.eq_false_iff.mp nan)
      have same := eq_of_isInf infinite
      rw [NumberForm.chars, nan, if_neg Bool.false_ne_true, infinite, if_pos rfl]
      cases sign : NumberForm.isNegative x with
      | true =>
        rw [sign] at same
        have read : readNumber "-inf" = some x := by
          rw [← same]
          decide +kernel
        exact .word "-inf" (by simp) read
      | false =>
        rw [sign] at same
        have read : readNumber "inf" = some x := by
          rw [← same]
          decide +kernel
        exact .word "inf" (by simp) read

theorem SavedText.readNumber {cs : List Char} (text : SavedText x cs) :
    readNumber (String.ofList cs) = some x := by
  cases text with
  | word text listed read => rwa [String.ofList_toList]
  | @unsigned n plain value =>
    obtain ⟨c, rest, same, digit⟩ := plain.head
    rw [same, readNumber_cons rest (.inl digit), ← same, Numeral.ofChars?_plainChars plain]
    exact congrArg some value
  | negative plain value =>
    rw [Parametric.readNumber, String.toList_ofList]
    change (readMagnitude _).map _ = _
    rw [readMagnitude_plainChars plain]
    exact congrArg some value

/-- A finite number is read back from its text in every form without exponents. -/
theorem readNumber_write (form : NumberForm) (positional : ∀ point, form.positional point = true)
    (finite : x.isFinite = true) : readNumber (form.write x) = some x :=
  (savedText_of_isFinite form positional finite).readNumber

/-- Every number is read back from the text it is saved as. -/
theorem readNumber_saved (x : Float) : readNumber (NumberForm.saved.write x) = some x :=
  (savedText x).readNumber

end Parametric
