import Mathlib.Algebra.Order.Floor.Semifield
import Mathlib.Data.Int.Log
import Mathlib.Data.Rat.Floor
import Mathlib.Tactic.FieldSimp
import Mathlib.Tactic.Linarith
import Mathlib.Tactic.NormNum
import Mathlib.Tactic.Positivity
import Mathlib.Tactic.Ring
import Reshape.Number

/-!
Rounding to binary64 as a function of rational numbers.

A quotient of whole numbers is rounded by counting bits and dividing. What comes out depends on the
value of the quotient alone: it is `rankOf` of that rational number, which takes the unit from the
binary logarithm and rounds the number of units to the nearest whole one. Decimals with one value
are therefore nearest to one number, whatever digits they are written with, and the bounds on
exponents that are checked beforehand change no result (`Decimal.toBinary64?_eq`). A magnitude
has its own rank, so the exact decimal names it, and so does the shortest one.
-/

namespace Reshape

namespace Binary64

/-! ### Quotients -/

theorem scaleDown_ratio {base : Nat} (hbase : 0 < base) (exponent : Int) (num den : Nat) :
    ((scaleDown base exponent num den).1 : ℚ) / (scaleDown base exponent num den).2 =
      num / den / (base : ℚ) ^ exponent := by
  have hbase' : (base : ℚ) ≠ 0 := by
    positivity
  obtain ⟨size, rfl | rfl⟩ := exponent.eq_nat_or_neg
  · simp [scaleDown, div_div]
  · simp [scaleDown, div_eq_mul_inv, mul_right_comm]

theorem scaleDown_pos {base : Nat} (hbase : 0 < base) (exponent : Int) {num den : Nat}
    (hden : 0 < den) : 0 < (scaleDown base exponent num den).2 := by
  exact Nat.mul_pos hden (Nat.pow_pos hbase)

/-- The whole number nearest to a rational number that is not negative; an exact half goes to the
even neighbour. -/
def rounded (q : ℚ) : Nat :=
  let rest := q - ⌊q⌋₊
  if rest < 1 / 2 then ⌊q⌋₊
  else if 1 / 2 < rest then ⌊q⌋₊ + 1
  else ⌊q⌋₊ + ⌊q⌋₊ % 2

theorem nearest_eq {num den : Nat} (hden : 0 < den) : nearest num den = rounded (num / den) := by
  have hden' : (0 : ℚ) < den := by
    exact_mod_cast hden
  have hsplit : (num : ℚ) = den * (num / den : Nat) + (num % den : Nat) := by
    exact_mod_cast (Nat.div_add_mod num den).symm
  have hrest : (num : ℚ) / den - (num / den : Nat) = (num % den : Nat) / den := by
    field_simp
    linarith
  have hbelow : (num % den : Nat) / (den : ℚ) < 1 / 2 ↔ 2 * (num % den) < den := by
    rw [div_lt_iff₀ hden', one_div, inv_mul_eq_div, lt_div_iff₀' two_pos]
    exact_mod_cast Iff.rfl
  have habove : 1 / 2 < (num % den : Nat) / (den : ℚ) ↔ den < 2 * (num % den) := by
    rw [lt_div_iff₀ hden', one_div, inv_mul_eq_div, div_lt_iff₀' two_pos]
    exact_mod_cast Iff.rfl
  simp only [nearest, rounded, Nat.floor_div_eq_div, hrest, hbelow, habove]

theorem rounded_natCast (n : Nat) : rounded n = n := by
  simp [rounded]

theorem floor_le_rounded (q : ℚ) : ⌊q⌋₊ ≤ rounded q := by
  unfold rounded
  dsimp only
  split
  · exact Nat.le_refl _
  · split <;> omega

theorem rounded_of_lt_half {q : ℚ} (h : q < 1 / 2) : rounded q = 0 := by
  have hfloor : ⌊q⌋₊ = 0 := by
    rw [Nat.floor_eq_zero]
    linarith
  rw [rounded, hfloor, Nat.cast_zero, sub_zero, if_pos h]

theorem two_zpow_pos (exponent : Int) : (0 : ℚ) < 2 ^ exponent :=
  zpow_pos two_pos exponent

theorem zpow_le_iff {q : ℚ} (hq : 0 < q) (exponent : Int) :
    2 ^ exponent ≤ q ↔ exponent ≤ Int.log 2 q :=
  Int.zpow_le_iff_le_log (b := 2) (by decide) hq

theorem lt_zpow_iff {q : ℚ} (hq : 0 < q) (exponent : Int) :
    q < 2 ^ exponent ↔ Int.log 2 q < exponent :=
  Int.lt_zpow_iff_log_lt (b := 2) (by decide) hq

theorem log2_bounds {n : Nat} (hn : 0 < n) :
    (2 : ℚ) ^ (n.log2 : Int) ≤ n ∧ (n : ℚ) < 2 ^ (n.log2 + 1 : Int) := by
  constructor
  · rw [zpow_natCast]
    exact_mod_cast Nat.log2_self_le hn.ne'
  · exact_mod_cast Nat.lt_log2_self

/-- The logarithm that is counted in bits is that of the quotient. -/
theorem floorLog_eq {num den : Nat} (hnum : 0 < num) (hden : 0 < den) :
    floorLog num den = Int.log 2 (num / den : ℚ) := by
  have hden' : (0 : ℚ) < den := by
    exact_mod_cast hden
  have hq : (0 : ℚ) < num / den := div_pos (by exact_mod_cast hnum) hden'
  obtain ⟨hnumLow, hnumHigh⟩ := log2_bounds hnum
  obtain ⟨hdenLow, hdenHigh⟩ := log2_bounds hden
  -- The difference of the lengths in bits is the logarithm or one more, and it is more just if the
  -- scaled quotient is below one.
  have hguess : (scaleDown 2 (num.log2 - den.log2) num den).2 ≤
      (scaleDown 2 (num.log2 - den.log2) num den).1 ↔
      (num.log2 - den.log2 : Int) ≤ Int.log 2 (num / den : ℚ) := by
    have hscaled : (0 : ℚ) < (scaleDown 2 (num.log2 - den.log2) num den).2 := by
      exact_mod_cast scaleDown_pos Nat.two_pos _ hden
    have hratio := scaleDown_ratio Nat.two_pos (num.log2 - den.log2) num den
    rw [← zpow_le_iff hq, ← one_le_div₀ (two_zpow_pos _)]
    rw [Nat.cast_ofNat] at hratio
    rw [← hratio, one_le_div₀ hscaled, Nat.cast_le]
  have hlow : (num.log2 - den.log2 : Int) - 1 ≤ Int.log 2 (num / den : ℚ) := by
    rw [← zpow_le_iff hq, le_div_iff₀ hden']
    calc (2 : ℚ) ^ ((num.log2 - den.log2 : Int) - 1) * den
        ≤ 2 ^ ((num.log2 - den.log2 : Int) - 1) * 2 ^ (den.log2 + 1 : Int) :=
          mul_le_mul_of_nonneg_left hdenHigh.le (two_zpow_pos _).le
      _ = 2 ^ (num.log2 : Int) := by
          rw [← zpow_add₀ two_ne_zero]
          congr 1
          ring
      _ ≤ num := hnumLow
  have hhigh : Int.log 2 (num / den : ℚ) < (num.log2 - den.log2 : Int) + 1 := by
    rw [← lt_zpow_iff hq, div_lt_iff₀ hden']
    calc (num : ℚ) < 2 ^ (num.log2 + 1 : Int) := hnumHigh
      _ = 2 ^ ((num.log2 - den.log2 : Int) + 1) * 2 ^ (den.log2 : Int) := by
          rw [← zpow_add₀ two_ne_zero]
          congr 1
          ring
      _ ≤ 2 ^ ((num.log2 - den.log2 : Int) + 1) * den :=
          mul_le_mul_of_nonneg_left hdenLow (two_zpow_pos _).le
  unfold floorLog
  dsimp only
  split
  · rename_i h
    have := hguess.mp h
    omega
  · rename_i h
    have := mt hguess.mpr h
    omega

/-! ### Ranks -/

/-- The exponent of one unit among the magnitudes near a rational number. -/
def unitOf (q : ℚ) : Int :=
  max (Int.log 2 q - 52) (-1074)

/-- The rank nearest to a rational number that is not negative. -/
def rankOf (q : ℚ) : Nat :=
  if q = 0 then 0 else (unitOf q + 1074).toNat * fullUnits + rounded (q / 2 ^ unitOf q)

theorem nearestRank_eq {num den : Nat} (hnum : 0 < num) (hden : 0 < den) :
    nearestRank num den = rankOf (num / den) := by
  have hq : (0 : ℚ) < num / den := div_pos (by exact_mod_cast hnum) (by exact_mod_cast hden)
  have hunit : unitExponent num den = unitOf (num / den) := by
    rw [unitExponent, floorLog_eq hnum hden, unitOf, max_def]
    split <;> split <;> omega
  have hratio := scaleDown_ratio Nat.two_pos (unitOf (num / den)) num den
  rw [Nat.cast_ofNat] at hratio
  rw [rankOf, if_neg hq.ne', ← hratio, ← nearest_eq (scaleDown_pos (by decide) _ hden), ← hunit]
  rfl

/-- Past two to the 1024th there is no finite magnitude. -/
theorem rankBound_le_rankOf {q : ℚ} (h : 2 ^ (1024 : Int) ≤ q) : rankBound ≤ rankOf q := by
  have hq : 0 < q := lt_of_lt_of_le (two_zpow_pos _) h
  have hlog : 1024 ≤ Int.log 2 q := (zpow_le_iff hq _).mp h
  have hunit : unitOf q = Int.log 2 q - 52 := max_eq_left (by omega)
  have hunits : fullUnits ≤ rounded (q / 2 ^ unitOf q) := by
    refine Nat.le_trans (Nat.le_floor ?_) (floor_le_rounded _)
    rw [hunit, le_div_iff₀ (two_zpow_pos _)]
    calc (fullUnits : ℚ) * 2 ^ (Int.log 2 q - 52) = 2 ^ (52 : Int) * 2 ^ (Int.log 2 q - 52) := by
          norm_num [fullUnits]
      _ = 2 ^ Int.log 2 q := by
          rw [← zpow_add₀ two_ne_zero]
          congr 1
          ring
      _ ≤ q := (zpow_le_iff hq _).mpr (le_refl _)
  have hruns : 2046 ≤ (unitOf q + 1074).toNat := by
    omega
  rw [rankOf, if_neg hq.ne', rankBound]
  calc 2047 * fullUnits = 2046 * fullUnits + fullUnits := by ring
    _ ≤ (unitOf q + 1074).toNat * fullUnits + rounded (q / 2 ^ unitOf q) :=
        Nat.add_le_add (Nat.mul_le_mul_right _ hruns) hunits

/-- Less than half of the least positive magnitude is rounded to zero. -/
theorem rankOf_eq_zero {q : ℚ} (hq : 0 ≤ q) (h : q < 2 ^ (-1075 : Int)) : rankOf q = 0 := by
  rcases hq.eq_or_lt with rfl | hq
  · rfl
  · have hlog : Int.log 2 q < -1075 := (lt_zpow_iff hq _).mp h
    have hunit : unitOf q = -1074 := max_eq_right (by omega)
    have hhalf : q / 2 ^ (-1074 : Int) < 1 / 2 := by
      rw [div_lt_iff₀ (two_zpow_pos _)]
      calc q < 2 ^ (-1075 : Int) := h
        _ = 1 / 2 * 2 ^ (-1074 : Int) := by
            rw [show (-1075 : Int) = -1 + -1074 by norm_num, zpow_add₀ two_ne_zero]
            norm_num
    rw [rankOf, if_neg hq.ne', hunit, rounded_of_lt_half hhalf]
    rfl

/-- The rational number that is a magnitude. -/
def value (x : Binary64) : ℚ :=
  x.significand * 2 ^ x.exponent

theorem log_mul_zpow {q : ℚ} (hq : 0 < q) (exponent : Int) :
    Int.log 2 (q * 2 ^ exponent) = Int.log 2 q + exponent := by
  apply eq_of_forall_le_iff
  intro bound
  rw [← zpow_le_iff (mul_pos hq (two_zpow_pos _)), ← sub_le_iff_le_add, ← zpow_le_iff hq,
    zpow_sub₀ two_ne_zero, div_le_iff₀ (two_zpow_pos _)]

theorem significand_pos {x : Binary64} (hx : x.rank ≠ 0) : 0 < x.significand := by
  unfold significand fullUnits
  split <;> omega

/-- A magnitude is written in the unit that it is rounded to. -/
theorem unitOf_value {x : Binary64} (hx : x.rank ≠ 0) : unitOf x.value = x.exponent := by
  have hlog : Int.log 2 x.value = Nat.log 2 x.significand + x.exponent := by
    rw [value, log_mul_zpow (by exact_mod_cast significand_pos hx), Int.log_natCast]
  by_cases hsubnormal : x.rank < fullUnits
  · have hexponent : x.exponent = -1074 := if_pos hsubnormal
    have hsmall : Nat.log 2 x.significand < 52 := by
      rw [significand, if_pos hsubnormal]
      exact Nat.log_lt_of_lt_pow hx hsubnormal
    rw [unitOf, hlog, hexponent]
    exact max_eq_right (by omega)
  · have hexponent : x.exponent = (x.rank / fullUnits : Nat) - 1075 := if_neg hsubnormal
    have hruns : 1 ≤ x.rank / fullUnits :=
      (Nat.one_le_div_iff (by decide)).mpr (Nat.le_of_not_lt hsubnormal)
    have hlength : Nat.log 2 x.significand = 52 := by
      rw [significand, if_neg hsubnormal]
      apply Nat.log_eq_of_pow_le_of_lt_pow
      · exact Nat.le_add_left ..
      · have := Nat.mod_lt x.rank (show 0 < fullUnits by decide)
        simp only [fullUnits] at this ⊢
        omega
    rw [unitOf, hlog, hlength, max_eq_left (by omega)]
    omega

theorem rank_eq (x : Binary64) :
    (x.exponent + 1074).toNat * fullUnits + x.significand = x.rank := by
  by_cases hsubnormal : x.rank < fullUnits
  · simp [exponent, significand, hsubnormal]
  · have hexponent : x.exponent = (x.rank / fullUnits : Nat) - 1075 := if_neg hsubnormal
    have hruns : 1 ≤ x.rank / fullUnits :=
      (Nat.one_le_div_iff (by decide)).mpr (Nat.le_of_not_lt hsubnormal)
    have hcount : (x.exponent + 1074).toNat = x.rank / fullUnits - 1 := by
      omega
    rw [hcount, significand, if_neg hsubnormal]
    calc (x.rank / fullUnits - 1) * fullUnits + (x.rank % fullUnits + fullUnits)
        = (x.rank / fullUnits - 1 + 1) * fullUnits + x.rank % fullUnits := by ring
      _ = x.rank / fullUnits * fullUnits + x.rank % fullUnits := by
          rw [Nat.sub_add_cancel hruns]
      _ = x.rank := Nat.div_add_mod' ..

theorem value_eq_zero {x : Binary64} (hx : x.rank = 0) : x.value = 0 := by
  simp [value, significand, hx, fullUnits]

/-- A magnitude is nearest to itself. -/
theorem rankOf_value (x : Binary64) : rankOf x.value = x.rank := by
  by_cases hx : x.rank = 0
  · rw [value_eq_zero hx, hx]
    rfl
  · have hvalue : 0 < x.value :=
      mul_pos (by exact_mod_cast significand_pos hx) (two_zpow_pos _)
    have hunits : x.value / 2 ^ x.exponent = x.significand :=
      mul_div_cancel_right₀ _ (two_zpow_pos _).ne'
    rw [rankOf, if_neg hvalue.ne', unitOf_value hx, hunits, rounded_natCast, rank_eq]

/-- The binary64 number nearest to a rational number that is not negative. -/
def ofRational? (negative : Bool) (q : ℚ) : Option Binary64 :=
  if h : rankOf q < rankBound then some ⟨negative, rankOf q, h⟩ else none

theorem lt_of_ofRational?_eq_some {negative : Bool} {q : ℚ} {x : Binary64}
    (h : ofRational? negative q = some x) : q < 2 ^ (1024 : Int) := by
  by_contra hlarge
  rw [ofRational?, dif_neg (Nat.not_lt.mpr (rankBound_le_rankOf (not_lt.mp hlarge)))] at h
  cases h

theorem ofQuotient?_eq (negative : Bool) (num : Nat) {den : Nat} (hden : 0 < den) :
    ofQuotient? negative num den = ofRational? negative (num / den) := by
  rcases Nat.eq_zero_or_pos num with rfl | hnum
  · rw [Nat.cast_zero, zero_div]
    rfl
  · simp only [ofQuotient?, ofRational?, nearestRank_eq hnum hden, if_neg hnum.ne']

theorem ofRational?_value (x : Binary64) : ofRational? x.negative x.value = some x := by
  simp only [ofRational?, rankOf_value, x.rank_lt, dif_pos]

end Binary64

namespace Decimal

open Binary64

/-- The rational number that a decimal is. -/
def value (d : Decimal) : ℚ :=
  d.coefficient * 10 ^ d.exponent

theorem ten_zpow_pos (exponent : Int) : (0 : ℚ) < 10 ^ exponent :=
  zpow_pos (by norm_num) exponent

theorem value_eq_zero_iff {d : Decimal} : d.value = 0 ↔ d.coefficient = 0 := by
  simp [value, (ten_zpow_pos d.exponent).ne']

theorem one_le_coefficient {d : Decimal} (hd : d.coefficient ≠ 0) : (1 : ℚ) ≤ d.coefficient := by
  exact_mod_cast Nat.one_le_iff_ne_zero.mpr hd

theorem le_value_of_lt_exponent {d : Decimal} (hd : d.coefficient ≠ 0) (h : 310 < d.exponent) :
    2 ^ (1024 : Int) ≤ d.value := by
  have hpowers : 2 ^ 1024 ≤ 10 ^ 311 := by
    decide +kernel
  calc (2 : ℚ) ^ (1024 : Int) ≤ 10 ^ (311 : Int) := by
        rw [zpow_ofNat, zpow_ofNat]
        exact_mod_cast hpowers
    _ ≤ 10 ^ d.exponent := zpow_le_zpow_right₀ (by norm_num) (by omega)
    _ ≤ d.value := le_mul_of_one_le_left (ten_zpow_pos _).le (one_le_coefficient hd)

theorem value_lt_of_exponent_lt {d : Decimal} (hd : d.coefficient ≠ 0)
    (h : d.exponent + d.coefficient.log2 < -340) : d.value < 2 ^ (-1075 : Int) := by
  have hpowers : 2 ^ 1075 ≤ 10 ^ 340 := by
    decide +kernel
  have hlength : (d.coefficient : ℚ) < 10 ^ (d.coefficient.log2 + 1 : Int) :=
    lt_of_lt_of_le (log2_bounds (Nat.pos_of_ne_zero hd)).2
      (zpow_le_zpow_left₀ (by omega) (by norm_num) (by norm_num))
  calc d.value < 10 ^ (d.coefficient.log2 + 1 : Int) * 10 ^ d.exponent :=
        mul_lt_mul_of_pos_right hlength (ten_zpow_pos _)
    _ = 10 ^ (d.coefficient.log2 + 1 + d.exponent) := (zpow_add₀ (by norm_num) _ _).symm
    _ ≤ 10 ^ (-340 : Int) := zpow_le_zpow_right₀ (by norm_num) (by omega)
    _ ≤ 2 ^ (-1075 : Int) := by
        rw [zpow_neg, zpow_neg, zpow_ofNat, zpow_ofNat]
        apply inv_anti₀ (by positivity)
        exact_mod_cast hpowers

/-- A decimal is rounded to the number nearest to it, also where its exponent alone decides. -/
theorem toBinary64?_eq (negative : Bool) (d : Decimal) :
    d.toBinary64? negative = ofRational? negative d.value := by
  unfold toBinary64?
  split
  · rename_i hzero
    rw [value_eq_zero_iff.mpr hzero]
    rfl
  rename_i hd
  split
  · rename_i hlarge
    rw [ofRational?, dif_neg]
    exact Nat.not_lt.mpr (rankBound_le_rankOf (le_value_of_lt_exponent hd hlarge))
  split
  · rename_i hsmall
    have hvalue : 0 ≤ d.value := mul_nonneg (Nat.cast_nonneg _) (ten_zpow_pos _).le
    have hrank : rankOf d.value = 0 := rankOf_eq_zero hvalue (value_lt_of_exponent_lt hd hsmall)
    simp only [ofRational?, hrank]
    rfl
  · have hten : 0 < 10 := by
      decide
    have hratio := scaleDown_ratio hten (-d.exponent) d.coefficient 1
    have hden : 0 < (scaleDown 10 (-d.exponent) d.coefficient 1).2 :=
      scaleDown_pos hten _ Nat.one_pos
    have hvalue : (d.coefficient : ℚ) / (1 : Nat) / (10 : Nat) ^ (-d.exponent) = d.value := by
      simp [value]
    rw [← hvalue, ← hratio, ← ofQuotient?_eq negative _ hden]

end Decimal

namespace Binary64

theorem value_exact (x : Binary64) : x.exact.value = x.value := by
  unfold exact
  split
  · rename_i hexponent
    obtain ⟨size, hsize⟩ := Int.eq_ofNat_of_zero_le hexponent
    simp [Decimal.value, value, hsize]
  · rename_i hexponent
    obtain ⟨size, hsize⟩ : ∃ size : Nat, x.exponent = -size := ⟨(-x.exponent).toNat, by omega⟩
    have hten : (10 : ℚ) ^ size = 2 ^ size * 5 ^ size := by
      rw [← mul_pow]
      norm_num
    simp only [Decimal.value, value, hsize, neg_neg, Int.toNat_natCast, Nat.cast_mul, Nat.pow_eq,
      Nat.cast_pow, Nat.cast_ofNat, zpow_neg, zpow_natCast, hten]
    field_simp

theorem toBinary64?_of_namedAt? {x : Binary64} {exponent : Int} {d : Decimal}
    (h : x.namedAt? exponent = some d) : d.toBinary64? x.negative = some x := by
  have hnamed : ∀ found : Decimal, x.isNamedBy found → some found = some d →
      d.toBinary64? x.negative = some x := by
    rintro found hfound ⟨⟩
    exact eq_of_beq hfound
  unfold namedAt? at h
  dsimp only at h
  split at h
  · exact hnamed _ ‹_› h
  · split at h
    · exact hnamed _ ‹_› h
    · cases h

/-- A number is named by the shortest decimal that is found for it. -/
theorem toBinary64?_shortest (x : Binary64) : x.shortest.toBinary64? x.negative = some x := by
  unfold shortest
  split
  · rename_i hzero
    obtain ⟨negative, rank, hlt⟩ := x
    subst hzero
    rfl
  · dsimp only
    cases hfound : (List.range 17).findSome? fun extra : Nat =>
        x.namedAt? (floorLogTen x.quotient.1 x.quotient.2 - extra) with
    | none =>
        rw [Option.getD_none, Decimal.toBinary64?_eq, value_exact, ofRational?_value]
    | some d =>
        obtain ⟨extra, -, hnamed⟩ := List.exists_of_findSome?_eq_some hfound
        exact toBinary64?_of_namedAt? hnamed

end Binary64

end Reshape
