import Parametric.Proofs.Number.Shortest
/-! A number written without an exponent is read back as the same number. -/

set_option autoImplicit false

namespace Parametric

namespace Numeral

def plainChars (n : Numeral) : List Char :=
  n.whole ++ if n.fraction.isEmpty then [] else '.' :: n.fraction

structure Plain (n : Numeral) : Prop where
  some : n.whole ≠ []
  whole : ∀ c ∈ n.whole, c.isDigit = true
  fraction : ∀ c ∈ n.fraction, c.isDigit = true
  exponent : n.exponent = 0

theorem ofChars?_plainChars {n : Numeral} (plain : n.Plain) : ofChars? n.plainChars = some n := by
  obtain ⟨whole, fraction, exponent⟩ := n
  obtain ⟨some, wholeDigits, fractionDigits, rfl⟩ := plain
  have full : whole.isEmpty = false := by simpa using some
  unfold plainChars ofChars?
  dsimp only at wholeDigits fractionDigits ⊢
  rw [List.takeWhile_append_of_pos wholeDigits, List.dropWhile_append_of_pos wholeDigits]
  cases fraction with
  | nil => simp [full]
  | cons first rest =>
    have point : ('.' :: first :: rest).takeWhile Char.isDigit = [] := rfl
    have stays : ('.' :: first :: rest).dropWhile Char.isDigit = '.' :: first :: rest := rfl
    simp only [List.isEmpty_cons, Bool.false_eq_true, if_false, point, stays, List.append_nil,
      List.takeWhile_eq_self_iff.mpr fractionDigits, List.dropWhile_eq_nil_iff.mpr fractionDigits,
      full, Bool.false_and]

end Numeral

namespace Decimal

theorem isDigit_of_mem_zeros (count : Int) : ∀ c ∈ zeros count, c.isDigit = true := by
  intro c member
  rw [List.eq_of_mem_replicate member]
  rfl

theorem isDigit_of_mem_text (d : Decimal) : ∀ c ∈ d.text, c.isDigit = true := fun _ member =>
  Nat.isDigit_of_mem_toDigits (by norm_num) (by norm_num) member

theorem digitsValue_text (d : Decimal) : digitsValue d.text = d.digits :=
  Nat.ofDigitChars_ten_toDigits

theorem digitsValue_append_zeros (digits : List Char) (count : Int) :
    digitsValue (digits ++ zeros count) = 10 ^ count.toNat * digitsValue digits :=
  (Nat.ofDigitChars_append 0).trans Nat.ofDigitChars_replicate_zero

theorem digitsValue_zeros_append (count : Int) (digits : List Char) :
    digitsValue (zeros count ++ digits) = digitsValue digits := by
  have none : Nat.ofDigitChars 10 (zeros count) 0 = 0 := Nat.ofDigitChars_replicate_zero
  exact (Nat.ofDigitChars_append 0).trans (by rw [none]; rfl)

/-- The text is that of a numeral without exponent, which stands for the same number. -/
def Written (d : Decimal) (cs : List Char) : Prop :=
  ∃ n : Numeral, n.Plain ∧ cs = n.plainChars ∧
    (mk (digitsValue (n.whole ++ n.fraction)) (n.exponent - n.fraction.length)).toRat = d.toRat

theorem written_below {d : Decimal} (below : d.point ≤ 0) :
    d.Written ('0' :: '.' :: (zeros (-d.point) ++ d.text)) := by
  have some : d.text ≠ [] := Nat.toDigits_ne_nil
  have point : d.point = d.exponent + d.text.length := rfl
  refine ⟨⟨['0'], zeros (-d.point) ++ d.text, 0⟩, ⟨by simp, by simp, ?_, rfl⟩, ?_, ?_⟩
  · intro c member
    rcases List.mem_append.mp member with zero | digit
    · exact isDigit_of_mem_zeros _ c zero
    · exact d.isDigit_of_mem_text c digit
  · simp [Numeral.plainChars, some]
  · have value : digitsValue (['0'] ++ (zeros (-d.point) ++ d.text)) = d.digits :=
      (digitsValue_zeros_append (-d.point) d.text).trans d.digitsValue_text
    have exponent : (0 : Int) - (zeros (-d.point) ++ d.text).length = d.exponent := by
      simp only [List.length_append, zeros, List.length_replicate]
      omega
    dsimp only
    rw [value, exponent]

theorem written_within {d : Decimal} (above : ¬ d.point ≤ 0) (within : d.point < d.text.length) :
    d.Written (d.text.take d.point.toNat ++ '.' :: d.text.drop d.point.toNat) := by
  have point : d.point = d.exponent + d.text.length := rfl
  refine ⟨⟨d.text.take d.point.toNat, d.text.drop d.point.toNat, 0⟩, ⟨?_, ?_, ?_, rfl⟩, ?_, ?_⟩
  · have some : 0 < (d.text.take d.point.toNat).length := by
      rw [List.length_take]
      omega
    exact List.ne_nil_of_length_pos some
  · exact fun c member => d.isDigit_of_mem_text c (List.mem_of_mem_take member)
  · exact fun c member => d.isDigit_of_mem_text c (List.mem_of_mem_drop member)
  · have some : 0 < (d.text.drop d.point.toNat).length := by
      rw [List.length_drop]
      omega
    simp [Numeral.plainChars, List.ne_nil_of_length_pos some]
  · have exponent : (0 : Int) - (d.text.drop d.point.toNat).length = d.exponent := by
      rw [List.length_drop]
      omega
    dsimp only
    rw [List.take_append_drop, digitsValue_text, exponent]

theorem written_whole {d : Decimal} (above : ¬ d.point < d.text.length) (keepsFraction : Bool) :
    d.Written (d.text ++ zeros (d.point - d.text.length) ++
      if keepsFraction then ['.', '0'] else []) := by
  have some : d.text ≠ [] := Nat.toDigits_ne_nil
  have point : d.point = d.exponent + d.text.length := rfl
  refine ⟨⟨d.text ++ zeros (d.point - d.text.length), if keepsFraction then ['0'] else [], 0⟩,
    ⟨by simp [some], ?_, ?_, rfl⟩, ?_, ?_⟩
  · intro c member
    rcases List.mem_append.mp member with digit | zero
    · exact d.isDigit_of_mem_text c digit
    · exact isDigit_of_mem_zeros _ c zero
  · cases keepsFraction <;> simp
  · cases keepsFraction <;> simp [Numeral.plainChars]
  · -- The zeros behind the digits stand for the exponent, which is not negative here.
    have places : d.point - d.text.length = d.exponent := by omega
    have nonneg : 0 ≤ d.exponent := by omega
    have power : ((10 : Rat) ^ d.exponent) = 10 ^ d.exponent.toNat := by
      rw [← zpow_natCast, Int.toNat_of_nonneg nonneg]
    rw [places]
    cases keepsFraction with
    | false =>
      simp only [toRat, Bool.false_eq_true, if_false, List.append_nil, digitsValue_append_zeros,
        digitsValue_text, List.length_nil, power]
      push_cast
      ring
    | true =>
      have last : ['0'] = zeros 1 := rfl
      simp only [toRat, if_true, last, digitsValue_append_zeros, digitsValue_text, power]
      have one : (zeros 1).length = 1 := rfl
      rw [one]
      push_cast
      rw [zpow_neg_one]
      ring

theorem written_positional (d : Decimal) (keepsFraction : Bool) :
    d.Written (d.positional keepsFraction) := by
  unfold positional
  dsimp only
  split_ifs with below within
  · exact written_below below
  · exact written_within below within
  · exact written_whole within true
  · exact written_whole within false

end Decimal

namespace NumberForm

theorem exists_magnitude (form : NumberForm) (positional : ∀ point, form.positional point = true)
    {x : Float} (finite : x.isFinite = true) :
    ∃ n : Numeral, n.Plain ∧ n.value = x.abs ∧
      form.chars x = if isNegative x then '-' :: n.plainChars else n.plainChars := by
  unfold chars
  rw [isNaN_of_isFinite x finite, isInf_of_isFinite x finite]
  simp only [Bool.false_eq_true, if_false, positional, if_true]
  -- Zero is written apart from all others, since no interval of decimals surrounds it.
  rcases Nat.eq_zero_or_pos (Binary.ofFloat x).mantissa with zero | positive
  · have shortest : Decimal.shortest form.tie x = ⟨0, 0⟩ := by
      simp only [Decimal.shortest, zero, if_true]
    have none : 0.0 = x.abs := by
      rw [abs_of_zero finite zero]
      decide +kernel
    refine ⟨⟨['0'], if form.keepsFraction then ['0'] else [], 0⟩, ⟨by simp, by simp, ?_, rfl⟩,
      ?_, ?_⟩
    · cases form.keepsFraction <;> simp
    · rw [← none]
      cases form.keepsFraction <;> rfl
    · rw [shortest]
      cases form.keepsFraction <;> rfl
  · have nearest := Decimal.shortest_nearest form.tie finite positive
    have digits := Rounding.digits_pos (Binary.canonical positive) nearest
    obtain ⟨n, plain, text, same⟩ :=
      (Decimal.shortest form.tie x).written_positional form.keepsFraction
    rw [← same] at nearest
    refine ⟨n, plain, Decimal.toFloat_nearest finite positive nearest, ?_⟩
    rw [if_neg digits.ne', text]

theorem exists_plain (form : NumberForm) (positional : ∀ point, form.positional point = true)
    {x : Float} (finite : x.isFinite = true) (unsigned : isNegative x = false) :
    ∃ n : Numeral, n.Plain ∧ form.chars x = n.plainChars ∧ n.value = x := by
  obtain ⟨n, plain, value, text⟩ := form.exists_magnitude positional finite
  rw [unsigned] at text
  exact ⟨n, plain, text, value.trans (abs_of_unsigned finite unsigned)⟩

end NumberForm

end Parametric
