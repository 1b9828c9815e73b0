import Mathlib.Data.List.TakeWhile
import Reshape.Json.Reader
import Reshape.Proofs.Rounding

/-!
Numbers that are read back from their texts.

A numeral has digits before the point, and perhaps digits behind it and an exponent. The reader
takes the parts of a numeral back out of its text (`magnitude_numeral`). However a decimal is laid
out, positionally or with an exponent, the numeral has the value of the decimal, so it is rounded to
the same number. As the shortest decimal of a number names that number, the nearest number to what
is written is always the one that was written (`exact_recovers`). A whole number is read back
however others are rounded (`recovers_whole`).
-/

namespace Reshape

/-! ### Digits -/

/-- The number that digits write. -/
abbrev ofDigits (digits : List Char) : Nat :=
  Nat.ofDigitChars 10 digits 0

theorem ofDigits_append_zeros (digits : List Char) (count : Nat) :
    ofDigits (digits ++ List.replicate count '0') = ofDigits digits * 10 ^ count := by
  rw [ofDigits, Nat.ofDigitChars_append, Nat.ofDigitChars_replicate_zero, Nat.mul_comm]

theorem ofDigits_zeros_append (count : Nat) (digits : List Char) :
    ofDigits (List.replicate count '0' ++ digits) = ofDigits digits := by
  rw [ofDigits, Nat.ofDigitChars_append, Nat.ofDigitChars_replicate_zero, Nat.mul_zero]

theorem le_ofDigitChars (digits : List Char) (seen : Nat) :
    seen ≤ Nat.ofDigitChars 10 digits seen := by
  rw [Nat.ofDigitChars_eq_ofDigitChars_zero]
  exact Nat.le_trans (Nat.le_mul_of_pos_left _ (Nat.pow_pos (by decide))) (Nat.le_add_right ..)

theorem isDigit_of_mem_zeros {count : Nat} {c : Char} (h : c ∈ List.replicate count '0') :
    c.isDigit := by
  rw [List.eq_of_mem_replicate h]
  rfl

theorem isDigit_of_mem_toDigits {n : Nat} {c : Char} (h : c ∈ Nat.toDigits 10 n) : c.isDigit :=
  Nat.isDigit_of_mem_toDigits (by decide) (by decide) h

theorem head?_toDigits_ne_zero {n : Nat} (hn : n ≠ 0) : (Nat.toDigits 10 n).head? ≠ some '0' := by
  induction n using Nat.strongRecOn with
  | _ n ih =>
      rw [Nat.toDigits_eq_if (by decide)]
      split
      · rename_i hlt
        have hdigit : ∀ n < 10, n ≠ 0 → [Nat.digitChar n].head? ≠ some '0' := by
          decide
        exact hdigit n hlt hn
      · rename_i hge
        rw [List.head?_append_of_ne_nil _ Nat.toDigits_ne_nil]
        exact ih (n / 10) (by omega) (by omega)

theorem pow_length_toDigits_le {n : Nat} (hn : n ≠ 0) :
    10 ^ ((Nat.toDigits 10 n).length - 1) ≤ n := by
  induction n using Nat.strongRecOn with
  | _ n ih =>
      rw [Nat.toDigits_eq_if (by decide)]
      split
      · simpa using Nat.one_le_iff_ne_zero.mpr hn
      · rename_i hge
        have hfront := ih (n / 10) (by omega) (by omega)
        have hlength : 0 < (Nat.toDigits 10 (n / 10)).length :=
          List.length_pos_of_ne_nil Nat.toDigits_ne_nil
        rw [List.length_append, List.length_singleton, Nat.add_sub_cancel]
        calc 10 ^ (Nat.toDigits 10 (n / 10)).length
            = 10 ^ ((Nat.toDigits 10 (n / 10)).length - 1) * 10 := by
              rw [← Nat.pow_succ, Nat.succ_eq_add_one, Nat.sub_add_cancel hlength]
          _ ≤ n / 10 * 10 := Nat.mul_le_mul_right _ hfront
          _ ≤ n := Nat.div_mul_le_self n 10

namespace Decimal

variable {d : Decimal}

theorem exists_digits_eq (d : Decimal) :
    ∃ zeros, d.digits = d.significantDigits ++ List.replicate zeros '0' := by
  have hsplit : d.digits =
      d.significantDigits ++ (d.digits.reverse.takeWhile (· == '0')).reverse := by
    rw [significantDigits, ← List.reverse_append, List.takeWhile_append_dropWhile,
      List.reverse_reverse]
  have hzeros : ∀ c ∈ (d.digits.reverse.takeWhile (· == '0')).reverse, c = '0' := by
    intro c hc
    exact eq_of_beq (List.mem_takeWhile_imp (p := (· == '0')) (List.mem_reverse.mp hc))
  exact ⟨_, hsplit.trans (congrArg _ (List.eq_replicate_iff.mpr ⟨rfl, hzeros⟩))⟩

theorem isDigit_of_mem_significantDigits {c : Char} (h : c ∈ d.significantDigits) : c.isDigit := by
  obtain ⟨zeros, hdigits⟩ := d.exists_digits_eq
  exact isDigit_of_mem_toDigits (hdigits ▸ List.mem_append_left _ h)

theorem significantDigits_ne_nil (hd : d.coefficient ≠ 0) : d.significantDigits ≠ [] := by
  intro hnil
  obtain ⟨zeros, hdigits⟩ := d.exists_digits_eq
  have hhead := head?_toDigits_ne_zero hd
  rw [← digits, hdigits, hnil, List.nil_append] at hhead
  cases zeros with
  | zero => exact Nat.toDigits_ne_nil (hdigits.trans (by rw [hnil]; rfl))
  | succ zeros => exact hhead rfl

theorem head?_significantDigits (hd : d.coefficient ≠ 0) :
    d.significantDigits.head? ≠ some '0' := by
  obtain ⟨zeros, hdigits⟩ := d.exists_digits_eq
  have hhead : d.digits.head? = d.significantDigits.head? := by
    rw [hdigits, List.head?_append_of_ne_nil _ (significantDigits_ne_nil hd)]
  rw [← hhead]
  exact head?_toDigits_ne_zero hd

/-- A decimal is what its significant digits write, with the first of them at the leading
exponent. -/
theorem value_eq (d : Decimal) :
    d.value = ofDigits d.significantDigits *
      10 ^ (d.leadingExponent + 1 - d.significantDigits.length) := by
  obtain ⟨zeros, hdigits⟩ := d.exists_digits_eq
  have hcoefficient : d.coefficient = ofDigits d.significantDigits * 10 ^ zeros := by
    rw [← ofDigits_append_zeros, ← hdigits]
    exact Nat.ofDigitChars_ten_toDigits.symm
  have hexponent : d.leadingExponent + 1 - d.significantDigits.length = zeros + d.exponent := by
    rw [leadingExponent, hdigits, List.length_append, List.length_replicate]
    omega
  rw [value, hcoefficient, hexponent, zpow_add₀ (by norm_num), zpow_natCast]
  push_cast
  ring

theorem pow_leadingExponent_le (hd : d.coefficient ≠ 0) : 10 ^ d.leadingExponent ≤ d.value := by
  have hlength : 0 < d.digits.length := List.length_pos_of_ne_nil Nat.toDigits_ne_nil
  have hlead : d.leadingExponent = (d.digits.length - 1 : Nat) + d.exponent := by
    rw [leadingExponent]
    omega
  have hcoefficient : (10 : ℚ) ^ (d.digits.length - 1) ≤ d.coefficient := by
    exact_mod_cast pow_length_toDigits_le hd
  rw [hlead, zpow_add₀ (by norm_num), zpow_natCast]
  exact mul_le_mul_of_nonneg_right hcoefficient (ten_zpow_pos _).le

end Decimal

/-- The shortest decimal of a number has no more digits before the point than a finite number may
have. -/
theorem Binary64.leadingExponent_shortest_lt {x : Binary64} (hne : x.shortest.coefficient ≠ 0) :
    x.shortest.leadingExponent < 1024 := by
  have hnamed := x.toBinary64?_shortest
  rw [Decimal.toBinary64?_eq] at hnamed
  have hlt : (10 : ℚ) ^ x.shortest.leadingExponent < 10 ^ (1024 : Int) :=
    calc (10 : ℚ) ^ x.shortest.leadingExponent ≤ x.shortest.value :=
          Decimal.pow_leadingExponent_le hne
      _ < 2 ^ (1024 : Int) := lt_of_ofRational?_eq_some hnamed
      _ ≤ 10 ^ (1024 : Int) := zpow_le_zpow_left₀ (by norm_num) (by norm_num) (by norm_num)
  exact (zpow_lt_zpow_iff_right₀ (by norm_num)).mp hlt

namespace Json

/-! ### Numerals -/

/-- The parts of the text of a number without its sign. -/
structure Numeral where
  whole : List Char
  fraction? : Option (List Char)
  exponent? : Option Int

namespace Numeral

/-- An exponent with its sign. -/
def exponentText (exponent : Int) : List Char :=
  'e' :: (if exponent < 0 then '-' else '+') :: Nat.toDigits 10 exponent.natAbs

def text (n : Numeral) : List Char :=
  n.whole ++ (n.fraction?.elim [] ('.' :: ·) ++ n.exponent?.elim [] exponentText)

/-- The decimal that a numeral writes. -/
def decimal (n : Numeral) : Decimal :=
  ⟨ofDigits (n.whole ++ n.fraction?.getD []),
    n.exponent?.getD 0 - (n.fraction?.getD []).length⟩

/-- A numeral as the reader takes it: there are digits on either side of the point, those before
it start with a zero only if there is nothing else, and the exponent has at most 31 bits. -/
structure Proper (n : Numeral) : Prop where
  whole_ne_nil : n.whole ≠ []
  whole : ∀ c ∈ n.whole, c.isDigit
  lead : n.whole = ['0'] ∨ n.whole.head? ≠ some '0'
  fraction : ∀ fraction, n.fraction? = some fraction →
    fraction ≠ [] ∧ ∀ c ∈ fraction, c.isDigit
  exponent : ∀ exponent, n.exponent? = some exponent → exponent ≤ 0x7FFFFFFF

end Numeral

/-- A number ends here: what follows does not go on with it. -/
def EndsNumber (rest : List Char) : Prop :=
  ∀ c ∈ rest.head?, c.isDigit = false ∧ c ∉ ['.', 'e', 'E']

theorem digits_append {written rest : List Char} (hne : written ≠ [])
    (hdigits : ∀ c ∈ written, c.isDigit) (hrest : ∀ c ∈ rest.head?, c.isDigit = false) :
    digits (written ++ rest) = .ok (written, rest) := by
  obtain ⟨c, written, rfl⟩ := List.exists_cons_of_ne_nil hne
  obtain ⟨hc, hdigits⟩ := List.forall_mem_cons.mp hdigits
  have htaken : rest.takeWhile Char.isDigit = [] := by
    cases rest with
    | nil => rfl
    | cons next rest => rw [List.takeWhile_cons, hrest next rfl]; rfl
  have hleft : rest.dropWhile Char.isDigit = rest := by
    cases rest with
    | nil => rfl
    | cons next rest => rw [List.dropWhile_cons, hrest next rfl]; rfl
  rw [List.cons_append, digits, if_pos hc, List.takeWhile_append_of_pos hdigits, htaken,
    List.append_nil, List.dropWhile_append_of_pos hdigits, hleft]

theorem wholeDigits_append {written rest : List Char} (hne : written ≠ [])
    (hdigits : ∀ c ∈ written, c.isDigit) (hlead : written = ['0'] ∨ written.head? ≠ some '0')
    (hrest : ∀ c ∈ rest.head?, c.isDigit = false) :
    wholeDigits (written ++ rest) = .ok (written, rest) := by
  unfold wholeDigits
  split
  · rename_i c more htext
    rcases hlead with rfl | hlead
    · obtain ⟨-, rfl⟩ := List.cons.inj htext
      rw [hrest c rfl]
      rfl
    · have hhead : (written ++ rest).head? = written.head? :=
        List.head?_append_of_ne_nil _ hne
      rw [← hhead, htext] at hlead
      exact (hlead rfl).elim
  · exact digits_append hne hdigits hrest

theorem pastExponentRange?_eq_none {written : List Char} {seen : Nat}
    (h : Nat.ofDigitChars 10 written seen ≤ 0x7FFFFFFF) :
    pastExponentRange? seen written = none := by
  induction written generalizing seen with
  | nil => rfl
  | cons c written ih =>
      rw [Nat.ofDigitChars_cons, Nat.mul_comm] at h
      have hnext : seen * 10 + (c.toNat - '0'.toNat) ≤ 0x7FFFFFFF :=
        Nat.le_trans (le_ofDigitChars written _) h
      rw [pastExponentRange?, if_neg (Nat.not_lt.mpr hnext)]
      exact ih h

theorem fractionPart?_none {rest : List Char} (hrest : '.' ∉ rest.head?) :
    fractionPart? rest = .ok (none, rest) := by
  cases rest with
  | nil => rfl
  | cons c rest =>
      have hc : c ≠ '.' := fun heq => hrest (by simp [heq])
      unfold fractionPart?
      split
      · rename_i heq
        exact (hc (List.cons.inj heq).1).elim
      · rfl

theorem fractionPart?_some {fraction rest : List Char} (hne : fraction ≠ [])
    (hdigits : ∀ c ∈ fraction, c.isDigit) (hrest : ∀ c ∈ rest.head?, c.isDigit = false) :
    fractionPart? ('.' :: (fraction ++ rest)) = .ok (some fraction, rest) := by
  rw [fractionPart?, digits_append hne hdigits hrest]
  rfl

theorem exponentPart?_none {rest : List Char} (hrest : ∀ c ∈ rest.head?, c ∉ ['e', 'E'])
    (isZero : Bool) : exponentPart? isZero rest = .ok (none, rest) := by
  cases rest with
  | nil => rfl
  | cons c rest =>
      have hc : ¬ (c = 'e' ∨ c = 'E') := by
        simpa using hrest c rfl
      rw [exponentPart?, if_neg hc]
      rfl

theorem exponentPart?_some {exponent : Int} (hexponent : exponent ≤ 0x7FFFFFFF)
    {rest : List Char} (hrest : ∀ c ∈ rest.head?, c.isDigit = false) (isZero : Bool) :
    exponentPart? isZero (Numeral.exponentText exponent ++ rest) = .ok (some exponent, rest) := by
  have hdigits : digits (Nat.toDigits 10 exponent.natAbs ++ rest) = .ok (_, rest) :=
    digits_append Nat.toDigits_ne_nil (fun _ => isDigit_of_mem_toDigits) hrest
  have hsize : Nat.ofDigitChars 10 (Nat.toDigits 10 exponent.natAbs) 0 = exponent.natAbs :=
    Nat.ofDigitChars_ten_toDigits
  by_cases hnegative : exponent < 0
  · have hvalue : -(exponent.natAbs : Int) = exponent := by
      omega
    simp only [Numeral.exponentText, if_pos hnegative, List.cons_append, exponentPart?, true_or,
      if_true, exponentSign, hdigits, hsize, hvalue, bind, Except.bind]
    rfl
  · have hrange : pastExponentRange? 0 (Nat.toDigits 10 exponent.natAbs) = none := by
      apply pastExponentRange?_eq_none
      omega
    have hvalue : (exponent.natAbs : Int) = exponent := by
      omega
    simp only [Numeral.exponentText, if_neg hnegative, List.cons_append, exponentPart?, true_or,
      if_true, exponentSign, hdigits, hsize, hrange, hvalue, bind, Except.bind]
    rfl

theorem exponentPart?_append {exponent? : Option Int}
    (hexponent : ∀ exponent, exponent? = some exponent → exponent ≤ 0x7FFFFFFF)
    {rest : List Char} (hrest : EndsNumber rest) (isZero : Bool) :
    exponentPart? isZero (exponent?.elim [] Numeral.exponentText ++ rest) =
      .ok (exponent?, rest) := by
  cases exponent? with
  | none =>
      apply exponentPart?_none
      intro c hc hmem
      exact (hrest c hc).2 (List.mem_cons_of_mem _ hmem)
  | some exponent =>
      exact exponentPart?_some (hexponent exponent rfl) (fun c hc => (hrest c hc).1) isZero

theorem head?_exponent_append (exponent? : Option Int) {rest : List Char}
    (hrest : EndsNumber rest) :
    ∀ c ∈ (exponent?.elim [] Numeral.exponentText ++ rest).head?, c.isDigit = false ∧ c ≠ '.' := by
  cases exponent? with
  | none =>
      intro c hc
      refine ⟨(hrest c hc).1, ?_⟩
      rintro rfl
      exact (hrest _ hc).2 (List.mem_cons_self ..)
  | some exponent =>
      rintro _ ⟨⟩
      decide

section

variable {behind : List Char} (hbehind : ∀ c ∈ behind.head?, c.isDigit = false ∧ c ≠ '.')

include hbehind

theorem fractionPart?_append {fraction? : Option (List Char)}
    (hfraction : ∀ fraction, fraction? = some fraction →
      fraction ≠ [] ∧ ∀ c ∈ fraction, c.isDigit) :
    fractionPart? (fraction?.elim [] ('.' :: ·) ++ behind) = .ok (fraction?, behind) := by
  cases fraction? with
  | none => exact fractionPart?_none fun hc => (hbehind _ hc).2 rfl
  | some fraction =>
      obtain ⟨hne, hdigits⟩ := hfraction fraction rfl
      exact fractionPart?_some hne hdigits fun c hc => (hbehind c hc).1

theorem head?_fraction_append (fraction? : Option (List Char)) :
    ∀ c ∈ (fraction?.elim [] ('.' :: ·) ++ behind).head?, c.isDigit = false := by
  cases fraction? with
  | none => exact fun c hc => (hbehind c hc).1
  | some fraction =>
      rintro _ ⟨⟩
      rfl

end

/-- The parts of a numeral are read out of its text, and the number is put together of them. -/
theorem magnitude_numeral (convert : Conversion) {n : Numeral} (h : n.Proper) (negative : Bool)
    {rest : List Char} (hrest : EndsNumber rest) :
    magnitude convert negative (n.text ++ rest) =
      (assemble? convert negative n.whole n.fraction? n.exponent?).elim
        (.error ⟨.numberOutOfRange, rest, 0⟩) fun number => .ok (number, rest) := by
  -- A part is read out only if what is behind it does not go on with it.
  have hexponent := head?_exponent_append n.exponent? hrest
  have hfraction := head?_fraction_append hexponent n.fraction?
  rw [Numeral.text, List.append_assoc, List.append_assoc, magnitude,
    wholeDigits_append h.whole_ne_nil h.whole h.lead hfraction]
  dsimp only [bind, Except.bind]
  rw [fractionPart?_append hexponent h.fraction]
  dsimp only
  rw [exponentPart?_append h.exponent hrest]
  dsimp only
  cases assemble? convert negative n.whole n.fraction? n.exponent? <;> rfl

/-! ### Numerals of decimals -/

/-- A numeral, not of a whole number, with the given text and value. -/
structure Numeral.Writes (n : Numeral) (written : List Char) (value : ℚ) : Prop where
  proper : n.Proper
  text : n.text = written
  notWhole : n.fraction? ≠ none ∨ n.exponent? ≠ none
  value : n.decimal.value = value

theorem value_shifted (digits : List Char) (shift : Nat) (exponent : Int) :
    Decimal.value ⟨ofDigits digits * 10 ^ shift, exponent⟩ =
      ofDigits digits * 10 ^ (shift + exponent) := by
  rw [Decimal.value, zpow_add₀ (by norm_num), zpow_natCast]
  push_cast
  ring

section

variable {digits : List Char} (hne : digits ≠ []) (hdigits : ∀ c ∈ digits, c.isDigit)

include hne hdigits

/-- Zeros stand between the point and the first digit. -/
theorem exists_writes_below {lead : Int} (hlead : lead < 0) :
    ∃ n : Numeral, n.Writes (Number.positional digits lead)
      (ofDigits digits * 10 ^ (lead + 1 - digits.length)) := by
  obtain ⟨zeros, rfl⟩ : ∃ zeros : Nat, lead = -zeros - 1 := ⟨(-lead - 1).toNat, by omega⟩
  have hcount : (-(-zeros - 1 : Int) - 1).toNat = zeros := by
    omega
  have hfraction : ∀ c ∈ List.replicate zeros '0' ++ digits, c.isDigit :=
    List.forall_mem_append.mpr ⟨fun _ => isDigit_of_mem_zeros, hdigits⟩
  refine ⟨⟨['0'], some (List.replicate zeros '0' ++ digits), none⟩,
    ⟨by simp, by simp, .inl rfl, ?_, by simp⟩, ?_, .inl (by simp), ?_⟩
  · rintro fraction ⟨⟩
    exact ⟨by simp [hne], hfraction⟩
  · rw [Number.positional, if_pos hlead, hcount]
    simp [Numeral.text]
  · have hwritten : ofDigits (['0'] ++ (List.replicate zeros '0' ++ digits)) = ofDigits digits :=
      ofDigits_zeros_append (zeros + 1) digits
    simp only [Numeral.decimal, Option.getD_some, Option.getD_none, hwritten, Decimal.value,
      List.length_append, List.length_replicate]
    congr 2
    omega

variable (hhead : digits.head? ≠ some '0')

include hhead

/-- All digits stand before the point, with zeros behind them up to it. -/
theorem exists_writes_padded {places : Nat} (hplaces : digits.length ≤ places + 1) :
    ∃ n : Numeral, n.Writes (Number.positional digits places)
      (ofDigits digits * 10 ^ (places + 1 - digits.length : Int)) := by
  obtain ⟨zeros, hzeros⟩ := Nat.exists_eq_add_of_le hplaces
  have hcount : places + 1 - digits.length = zeros := by
    omega
  have hwhole : ∀ c ∈ digits ++ List.replicate zeros '0', c.isDigit :=
    List.forall_mem_append.mpr ⟨hdigits, fun _ => isDigit_of_mem_zeros⟩
  refine ⟨⟨digits ++ List.replicate zeros '0', some ['0'], none⟩,
    ⟨by simp [hne], hwhole, .inr ?_, ?_, by simp⟩, ?_, .inl (by simp), ?_⟩
  · rwa [List.head?_append_of_ne_nil _ hne]
  · rintro fraction ⟨⟩
    simp
  · rw [Number.positional, if_neg (by omega), Int.toNat_natCast]
    dsimp only
    rw [List.take_of_length_le hplaces, List.drop_of_length_le hplaces, hcount]
    simp [Numeral.text]
  · have hwritten : ofDigits (digits ++ List.replicate zeros '0' ++ ['0']) =
        ofDigits digits * 10 ^ (zeros + 1) := by
      rw [List.append_assoc, ← List.replicate_succ', ofDigits_append_zeros]
    simp only [Numeral.decimal, Option.getD_some, Option.getD_none, hwritten, value_shifted,
      List.length_singleton]
    congr 2
    push_cast
    omega

/-- The point stands between two digits. -/
theorem exists_writes_pointed {places : Nat} (hplaces : places + 1 < digits.length) :
    ∃ n : Numeral, n.Writes (Number.positional digits places)
      (ofDigits digits * 10 ^ (places + 1 - digits.length : Int)) := by
  have hcount : places + 1 - digits.length = 0 := by
    omega
  have hleft : (digits.drop (places + 1)).isEmpty = false := by
    simp [hplaces]
  refine ⟨⟨digits.take (places + 1), some (digits.drop (places + 1)), none⟩,
    ⟨by simp [hne], fun c hc => hdigits c (List.mem_of_mem_take hc), .inr ?_, ?_, by simp⟩,
    ?_, .inl (by simp), ?_⟩
  · rwa [List.head?_take, if_neg (by omega)]
  · rintro fraction ⟨⟩
    exact ⟨by simp [hplaces], fun c hc => hdigits c (List.mem_of_mem_drop hc)⟩
  · rw [Number.positional, if_neg (by omega), Int.toNat_natCast]
    dsimp only
    rw [hcount, hleft]
    simp [Numeral.text]
  · simp only [Numeral.decimal, Option.getD_some, Option.getD_none, List.take_append_drop,
      Decimal.value, List.length_drop]
    congr 2
    omega

theorem exists_writes_positional (lead : Int) :
    ∃ n : Numeral, n.Writes (Number.positional digits lead)
      (ofDigits digits * 10 ^ (lead + 1 - digits.length)) := by
  by_cases hlead : lead < 0
  · exact exists_writes_below hne hdigits hlead
  · obtain ⟨places, rfl⟩ := Int.eq_ofNat_of_zero_le (Int.not_lt.mp hlead)
    by_cases hplaces : digits.length ≤ places + 1
    · exact exists_writes_padded hne hdigits hhead hplaces
    · exact exists_writes_pointed hne hdigits hhead (Nat.lt_of_not_le hplaces)

theorem exists_writes_scientific {lead : Int} (hlead : lead ≤ 0x7FFFFFFF) :
    ∃ n : Numeral, n.Writes (Number.scientific digits lead)
      (ofDigits digits * 10 ^ (lead + 1 - digits.length)) := by
  obtain ⟨first, more, rfl⟩ := List.exists_cons_of_ne_nil hne
  obtain ⟨hfirst, hmore⟩ := List.forall_mem_cons.mp hdigits
  have hexponent : ∀ exponent, some lead = some exponent → exponent ≤ 0x7FFFFFFF := by
    rintro exponent ⟨⟩
    exact hlead
  cases more with
  | nil =>
      refine ⟨⟨[first], none, some lead⟩, ⟨hne, hdigits, .inr hhead, by simp, hexponent⟩, rfl,
        .inr (by simp), ?_⟩
      simp [Numeral.decimal, Decimal.value]
  | cons second more =>
      refine ⟨⟨[first], some (second :: more), some lead⟩,
        ⟨by simp, by simpa using hfirst, .inr (by simpa using hhead), ?_, hexponent⟩, rfl,
        .inr (by simp), ?_⟩
      · rintro fraction ⟨⟩
        exact ⟨by simp, hmore⟩
      · simp only [Numeral.decimal, Option.getD_some, List.singleton_append, Decimal.value,
          List.length_cons]
        congr 2
        omega

end

theorem exists_writes_decimalText {d : Decimal}
    (hlead : d.coefficient ≠ 0 → d.leadingExponent ≤ 0x7FFFFFFF) :
    ∃ n : Numeral, n.Writes (Number.decimalText d) d.value := by
  unfold Number.decimalText
  split
  · rename_i hzero
    rw [Decimal.value_eq_zero_iff.mpr hzero]
    refine ⟨⟨['0'], some ['0'], none⟩, ⟨by simp, by simp, .inl rfl, ?_, by simp⟩, rfl,
      .inl (by simp), Decimal.value_eq_zero_iff.mpr rfl⟩
    rintro fraction ⟨⟩
    simp
  · rename_i hne
    rw [d.value_eq]
    split
    · exact exists_writes_positional (Decimal.significantDigits_ne_nil hne)
        (fun _ => Decimal.isDigit_of_mem_significantDigits) (Decimal.head?_significantDigits hne) _
    · exact exists_writes_scientific (Decimal.significantDigits_ne_nil hne)
        (fun _ => Decimal.isDigit_of_mem_significantDigits) (Decimal.head?_significantDigits hne)
        (hlead hne)

/-! ### Numbers -/

theorem assemble?_exact {n : Numeral} (h : n.fraction? ≠ none ∨ n.exponent? ≠ none)
    (negative : Bool) :
    assemble? .exact negative n.whole n.fraction? n.exponent? =
      (n.decimal.toBinary64? negative).map .binary := by
  obtain ⟨whole, fraction?, exponent?⟩ := n
  cases fraction? <;> cases exponent? <;>
    simp_all [assemble?, Conversion.exact, Numeral.decimal]

theorem number_sign_append (convert : Conversion) {n : Numeral} (h : n.Proper) (negative : Bool)
    (rest : List Char) :
    number convert (Number.sign negative ++ n.text ++ rest) =
      magnitude convert negative (n.text ++ rest) := by
  cases negative with
  | true => rfl
  | false =>
      obtain ⟨c, more, hwhole⟩ := List.exists_cons_of_ne_nil h.whole_ne_nil
      have hdigit : c.isDigit := h.whole c (by simp [hwhole])
      have htext : Number.sign false ++ n.text ++ rest = n.text ++ rest := rfl
      rw [htext]
      unfold number
      split
      · rename_i heq
        rw [Numeral.text, hwhole, List.cons_append, List.cons_append] at heq
        obtain ⟨rfl, -⟩ := List.cons.inj heq
        cases hdigit
      · rfl

theorem ofInteger?_natAbs {value : Int}
    (fits : -0x8000000000000000 ≤ value ∧ value ≤ 0xFFFFFFFFFFFFFFFF) :
    Number.ofInteger? (value < 0) value.natAbs = some (.whole value fits) := by
  unfold Number.ofInteger?
  by_cases hnegative : value < 0
  · rw [if_pos (by simpa using hnegative), dif_pos (by omega)]
    congr 2
    omega
  · rw [if_neg (by simpa using hnegative), dif_pos (by omega)]
    congr 2
    omega

theorem proper_toDigits (n : Nat) : Numeral.Proper ⟨Nat.toDigits 10 n, none, none⟩ where
  whole_ne_nil := Nat.toDigits_ne_nil
  whole _ := isDigit_of_mem_toDigits
  lead := by
    by_cases hn : n = 0
    · exact .inl (by rw [hn, Nat.toDigits_zero])
    · exact .inr (head?_toDigits_ne_zero hn)
  fraction := by simp
  exponent := by simp

/-- A number has the text of a numeral behind a sign, and with a conversion it is put together of
the parts of that numeral. -/
structure Numeral.Spells (n : Numeral) (convert : Conversion) (negative : Bool) (value : Number) :
    Prop where
  proper : n.Proper
  text : value.text = Number.sign negative ++ n.text
  number : assemble? convert negative n.whole n.fraction? n.exponent? = some value

/-- A whole number does not depend on a conversion. -/
theorem exists_spells_whole (convert : Conversion) {value : Int}
    (fits : -0x8000000000000000 ≤ value ∧ value ≤ 0xFFFFFFFFFFFFFFFF) :
    ∃ negative, ∃ n : Numeral, n.Spells convert negative (.whole value fits) := by
  refine ⟨value < 0, ⟨Nat.toDigits 10 value.natAbs, none, none⟩, proper_toDigits _, ?_, ?_⟩
  · simp [Number.text, Numeral.text]
  · dsimp only [assemble?]
    rw [Nat.ofDigitChars_ten_toDigits, ofInteger?_natAbs fits]
    rfl

theorem exists_spells (value : Number) :
    ∃ negative, ∃ n : Numeral, n.Spells .exact negative value := by
  cases value with
  | whole value fits => exact exists_spells_whole .exact fits
  | binary x =>
      obtain ⟨n, hproper, htext, hnotWhole, hvalue⟩ := exists_writes_decimalText (d := x.shortest)
        fun hne => by have := x.leadingExponent_shortest_lt hne; omega
      refine ⟨x.negative, n, hproper, by rw [htext]; rfl, ?_⟩
      rw [assemble?_exact hnotWhole, Decimal.toBinary64?_eq, hvalue, ← Decimal.toBinary64?_eq,
        Binary64.toBinary64?_shortest]
      rfl

/-- With a conversion, a number is read back from its text. -/
def Recovers (convert : Conversion) (value : Number) : Prop :=
  ∀ rest, EndsNumber rest → number convert (value.text ++ rest) = .ok (value, rest)

theorem Numeral.Spells.recovers {n : Numeral} {convert : Conversion} {negative : Bool}
    {value : Number} (h : n.Spells convert negative value) : Recovers convert value := by
  intro rest hrest
  rw [h.text, number_sign_append convert h.proper,
    magnitude_numeral convert h.proper negative hrest, h.number]
  rfl

theorem recovers_whole (convert : Conversion) {value : Int}
    (fits : -0x8000000000000000 ≤ value ∧ value ≤ 0xFFFFFFFFFFFFFFFF) :
    Recovers convert (.whole value fits) := by
  obtain ⟨_, _, hspells⟩ := exists_spells_whole convert fits
  exact hspells.recovers

/-- Every number is the nearest one to what its text writes. -/
theorem exact_recovers (value : Number) : Recovers .exact value := by
  obtain ⟨_, _, hspells⟩ := exists_spells value
  exact hspells.recovers

theorem exists_cons_text (value : Number) :
    ∃ c more, value.text = c :: more ∧ (c = '-' ∨ c.isDigit) := by
  obtain ⟨negative, n, hproper, htext, -⟩ := exists_spells value
  obtain ⟨c, more, hwhole⟩ := List.exists_cons_of_ne_nil hproper.whole_ne_nil
  cases negative with
  | true => exact ⟨'-', n.text, htext, .inl rfl⟩
  | false =>
      refine ⟨c, _, htext.trans (congrArg (· ++ _) hwhole), .inr ?_⟩
      exact hproper.whole c (by simp [hwhole])

end Json

end Reshape
