import Reshape.Proofs.NumberRoundTrip

/-!
Numerals that are read as the nearest number.

Documents are read with binary64 arithmetic that rounds more than once, so a number may come out as
a neighbour of the nearest one. But whole numbers below two to the 53rd are magnitudes, and so are
the powers of ten up to the 22nd (`ofQuotient?_natCast`, `powerOfTen?_eq`), and with these only the
last rounding changes anything. So a numeral of few digits, none of them far from the point, is read
as the nearest number (`number_scaled`), and a number that is written as such a numeral is read back
(`Numeral.Spells.recovers_scaled`).
-/

namespace Reshape

namespace Binary64

/-! ### Magnitudes -/

theorem value_eq_of_rank {x : Binary64} {runs above : Nat} (habove : above < fullUnits)
    (hrank : x.rank = (runs + 1) * fullUnits + above) :
    x.value = (fullUnits + above : Nat) * 2 ^ (runs - 1074 : Int) := by
  have hpos : 0 < fullUnits := by
    decide
  obtain ⟨hrun, hrest⟩ : x.rank / fullUnits = runs + 1 ∧ x.rank % fullUnits = above :=
    (Nat.div_mod_unique hpos).mpr ⟨by rw [hrank]; ring, habove⟩
  have hnormal : ¬ x.rank < fullUnits := fun hlt =>
    absurd (hrun.symm.trans (Nat.div_eq_of_lt hlt)) (Nat.succ_ne_zero runs)
  rw [value, significand, exponent, if_neg hnormal, if_neg hnormal, hrun, hrest, Nat.add_comm above]
  congr 2
  push_cast
  ring

/-- A number of fifty-three bits at most, in units that are neither too small nor too large, is a
magnitude. -/
theorem exists_value_eq (negative : Bool) {units : Nat} (hpos : 0 < units)
    (hunits : units < 2 ^ 53) (exponent : Int) (hlow : -1022 ≤ exponent)
    (hhigh : exponent ≤ 971) :
    ∃ x : Binary64, x.negative = negative ∧ x.value = units * 2 ^ exponent := by
  -- The units are made smaller until there are fifty-three bits of them.
  have hlog : Nat.log 2 units ≤ 52 := Nat.le_of_lt_succ (Nat.log_lt_of_lt_pow hpos.ne' hunits)
  obtain ⟨shift, hshift⟩ := Nat.exists_eq_add_of_le hlog
  have hfull : fullUnits ≤ units * 2 ^ shift :=
    calc fullUnits = 2 ^ Nat.log 2 units * 2 ^ shift := by rw [← Nat.pow_add, ← hshift]; rfl
      _ ≤ units * 2 ^ shift := Nat.mul_le_mul_right _ (Nat.pow_log_le_self 2 hpos.ne')
  have hbelow : units * 2 ^ shift < 2 * fullUnits :=
    calc units * 2 ^ shift < 2 ^ (Nat.log 2 units + 1) * 2 ^ shift :=
          Nat.mul_lt_mul_of_pos_right (Nat.lt_pow_succ_log_self (by decide) units)
            (Nat.two_pow_pos shift)
      _ = 2 * fullUnits := by
          rw [← Nat.pow_add, Nat.add_right_comm, ← hshift]
          rfl
  obtain ⟨above, habove⟩ := Nat.exists_eq_add_of_le hfull
  obtain ⟨runs, hruns⟩ : ∃ runs : Nat, exponent - shift = runs - 1074 :=
    ⟨(exponent - shift + 1074).toNat, by omega⟩
  have hless : above < fullUnits := by
    omega
  have hrank : (runs + 1) * fullUnits + above < rankBound :=
    calc (runs + 1) * fullUnits + above < (runs + 1) * fullUnits + fullUnits :=
          Nat.add_lt_add_left hless _
      _ = (runs + 2) * fullUnits := by ring
      _ ≤ rankBound := Nat.mul_le_mul_right _ (by omega)
  refine ⟨⟨negative, _, hrank⟩, rfl, ?_⟩
  rw [value_eq_of_rank hless rfl, ← habove, ← hruns, zpow_sub₀ two_ne_zero, zpow_natCast]
  push_cast
  field_simp

theorem ofQuotient?_natCast (negative : Bool) {n : Nat} (hn : n < 2 ^ 53) :
    ∃ x : Binary64, ofQuotient? negative n 1 = some x ∧ x.negative = negative ∧ x.value = n := by
  rcases Nat.eq_zero_or_pos n with rfl | hpos
  · exact ⟨zero negative, rfl, rfl, by rw [value_eq_zero rfl, Nat.cast_zero]⟩
  · obtain ⟨x, rfl, hvalue⟩ := exists_value_eq negative hpos hn 0 (by decide) (by decide)
    rw [zpow_zero, mul_one] at hvalue
    refine ⟨x, ?_, rfl, hvalue⟩
    rw [ofQuotient?_eq _ _ Nat.one_pos, Nat.cast_one, div_one, ← hvalue, ofRational?_value]

theorem powerOfTen?_eq {n : Nat} (hn : n ≤ 22) :
    ∃ power, powerOfTen? n = some power ∧ power.value = 10 ^ n := by
  have hfives : 5 ^ n < 2 ^ 53 :=
    Nat.lt_of_le_of_lt (Nat.pow_le_pow_right (by decide) hn) (by decide)
  obtain ⟨power, hsign, hvalue⟩ :=
    exists_value_eq false (Nat.pow_pos (by decide)) hfives n (by omega) (by omega)
  have hpower : power.value = 10 ^ n := by
    rw [hvalue, zpow_natCast, Nat.cast_pow, ← mul_pow]
    norm_num
  refine ⟨power, ?_, hpower⟩
  have hrational := ofRational?_value power
  rw [hsign, hpower] at hrational
  rw [powerOfTen?, ofQuotient?_eq _ _ Nat.one_pos, ← hrational]
  simp

/-! ### Products and quotients -/

theorem quotient_ratio (x : Binary64) : (x.quotient.1 : ℚ) / x.quotient.2 = x.value := by
  have hratio := scaleDown_ratio Nat.two_pos (-x.exponent) x.significand 1
  rw [Nat.cast_one, div_one, zpow_neg, div_inv_eq_mul] at hratio
  exact hratio

theorem quotient_pos (x : Binary64) : 0 < x.quotient.2 :=
  scaleDown_pos Nat.two_pos _ Nat.one_pos

/-- A product is rounded once. -/
theorem times?_eq (x power : Binary64) :
    x.times? power = ofRational? x.negative (x.value * power.value) := by
  rw [times?, ofQuotient?_eq _ _ (Nat.mul_pos x.quotient_pos power.quotient_pos),
    ← quotient_ratio x, ← quotient_ratio power, div_mul_div_comm, Nat.cast_mul, Nat.cast_mul]

theorem over?_eq (x : Binary64) {power : Binary64} (hpower : power.value ≠ 0) :
    x.over? power = ofRational? x.negative (x.value / power.value) := by
  have hpos : 0 < power.quotient.1 := by
    apply Nat.pos_of_ne_zero
    intro hzero
    rw [← quotient_ratio power, hzero, Nat.cast_zero, zero_div] at hpower
    exact hpower rfl
  rw [over?, ofQuotient?_eq _ _ (Nat.mul_pos x.quotient_pos hpos), ← quotient_ratio x,
    ← quotient_ratio power, div_div_div_eq, Nat.cast_mul, Nat.cast_mul]

theorem scale?_natCast (x : Binary64) {places : Nat} (h : places ≤ 22) :
    x.scale? places = ofRational? x.negative (x.value * 10 ^ places) := by
  obtain ⟨power, hpower, hvalue⟩ := powerOfTen?_eq h
  have hrange : (places : Int) ≤ greatestPower := by
    rw [greatestPower]
    omega
  rw [scale?, if_neg (by omega), if_pos hrange, Int.toNat_natCast, hpower, ← hvalue]
  exact x.times?_eq power

theorem scale?_neg_natCast (x : Binary64) {places : Nat} (hpos : 0 < places) (h : places ≤ 22) :
    x.scale? (-places) = ofRational? x.negative (x.value / 10 ^ places) := by
  obtain ⟨power, hpower, hvalue⟩ := powerOfTen?_eq h
  -- No division by the greatest power of ten comes before the last one.
  have hturns : (places - 1) / greatestPower = 0 := by
    rw [greatestPower]
    omega
  have hlast : (places - 1) % greatestPower + 1 = places := by
    rw [greatestPower]
    omega
  rw [scale?, if_pos (by omega), Int.neg_neg, Int.toNat_natCast]
  dsimp only
  rw [hturns, hlast, divide?, hpower, ← hvalue]
  exact x.over?_eq (by rw [hvalue]; positivity)

/-- With a power of ten that is a magnitude, only the result is rounded. -/
theorem scale?_eq (x : Binary64) {exponent : Int} (h : exponent.natAbs ≤ 22) :
    x.scale? exponent = ofRational? x.negative (x.value * 10 ^ exponent) := by
  obtain ⟨places, rfl | rfl⟩ := exponent.eq_nat_or_neg
  · rw [zpow_natCast]
    exact x.scale?_natCast (by omega)
  · rcases Nat.eq_zero_or_pos places with rfl | hpos
    · simpa using x.scale?_natCast (Nat.zero_le 22)
    · rw [zpow_neg, zpow_natCast, ← div_eq_mul_inv]
      exact x.scale?_neg_natCast hpos (by omega)

end Binary64

/-! ### Conversions -/

namespace Conversion

open Binary64

theorem fill_eq {digits : List Char} {seen : Nat}
    (h : Nat.ofDigitChars 10 digits seen ≤ 0xFFFFFFFFFFFFFFFF) :
    fill seen digits = (Nat.ofDigitChars 10 digits seen, []) := by
  induction digits generalizing seen with
  | nil => rfl
  | cons c digits ih =>
      rw [Nat.ofDigitChars_cons, Nat.mul_comm] at h ⊢
      rw [fill, if_pos (Nat.le_trans (le_ofDigitChars digits _) h)]
      exact ih h

/-- When the digits write a number below two to the 53rd, with the last of them no more than
twenty-two places from the point, what is computed is the nearest number. -/
theorem scaled_eq_exact (negative : Bool) {whole fraction : List Char} {exponent : Int}
    (hdigits : ofDigits (whole ++ fraction) < 2 ^ 53)
    (hplaces : (exponent - fraction.length).natAbs ≤ 22) :
    scaled negative whole fraction exponent = exact negative whole fraction exponent := by
  have hfits : ofDigits (whole ++ fraction) ≤ 0xFFFFFFFFFFFFFFFF :=
    Nat.le_trans hdigits.le (by decide)
  have hwritten : ofDigits (whole ++ fraction) = Nat.ofDigitChars 10 fraction (ofDigits whole) :=
    Nat.ofDigitChars_append ..
  have hwhole : fill 0 whole = (ofDigits whole, []) :=
    fill_eq (Nat.le_trans (le_ofDigitChars fraction _) (hwritten ▸ hfits))
  have hfraction : fill (ofDigits whole) fraction = (ofDigits (whole ++ fraction), []) := by
    rw [hwritten] at hfits ⊢
    exact fill_eq hfits
  obtain ⟨x, hx, hsign, hvalue⟩ := ofQuotient?_natCast negative hdigits
  have hexponent : exponent + ([] : List Char).length -
      (fraction.length - ([] : List Char).length : Nat) = exponent - fraction.length := by
    simp
  simp only [scaled, hwhole, hfraction, hx, hexponent]
  rw [exact, Decimal.toBinary64?_eq, Decimal.value, ← hvalue, ← hsign]
  exact x.scale?_eq hplaces

/-- One place further, what is computed may be a neighbour of the nearest number. -/
example : scaled false ['1'] [] (-23) ≠ exact false ['1'] [] (-23) := by
  decide +kernel

/-- Far from the point, it may be out of range though the nearest number is not. -/
example : scaled false ['1'] (Nat.toDigits 10 7976931348623158) 308 = none ∧
    (exact false ['1'] (Nat.toDigits 10 7976931348623158) 308).isSome := by
  decide +kernel

end Conversion

namespace Json

theorem assemble?_congr {one other : Conversion} {n : Numeral} {negative : Bool}
    (h : one negative n.whole (n.fraction?.getD []) (n.exponent?.getD 0) =
      other negative n.whole (n.fraction?.getD []) (n.exponent?.getD 0)) :
    assemble? one negative n.whole n.fraction? n.exponent? =
      assemble? other negative n.whole n.fraction? n.exponent? := by
  obtain ⟨whole, fraction?, exponent?⟩ := n
  cases fraction? <;> cases exponent? <;> simp_all [assemble?]

/-- A numeral whose digits write a number below two to the 53rd, with the last of them no more than
twenty-two places from the point, is read as the nearest number. -/
theorem number_scaled {n : Numeral} (h : n.Proper) (hdigits : n.decimal.coefficient < 2 ^ 53)
    (hplaces : n.decimal.exponent.natAbs ≤ 22) (negative : Bool) {rest : List Char}
    (hrest : EndsNumber rest) :
    number .scaled (Number.sign negative ++ n.text ++ rest) =
      number .exact (Number.sign negative ++ n.text ++ rest) := by
  rw [number_sign_append _ h, number_sign_append _ h, magnitude_numeral _ h negative hrest,
    magnitude_numeral _ h negative hrest,
    assemble?_congr (Conversion.scaled_eq_exact negative hdigits hplaces)]

/-- A number whose text is such a numeral is read back from its text. -/
theorem Numeral.Spells.recovers_scaled {n : Numeral} {negative : Bool} {value : Number}
    (h : n.Spells .exact negative value) (hdigits : n.decimal.coefficient < 2 ^ 53)
    (hplaces : n.decimal.exponent.natAbs ≤ 22) : Recovers .scaled value := by
  have hnumber : assemble? .scaled negative n.whole n.fraction? n.exponent? = some value := by
    rw [assemble?_congr (Conversion.scaled_eq_exact negative hdigits hplaces), h.number]
  have hspells : n.Spells .scaled negative value := ⟨h.proper, h.text, hnumber⟩
  exact hspells.recovers

end Json

end Reshape
