import Reshape.Web.Base64

/-!
Base64 read back.

Each quantum of four letters holds twenty-four bits, three bytes; the padded one at the end holds
fewer, and its spare bits are zero. So the bytes that are encoded are found again, and an encoding
is made of nothing but letters and padding.
-/

namespace Reshape.Web.Base64

/-- The letters in the order of the six bits that they stand for. -/
def alphabet : List Char :=
  "ABCDEFGHIJKLMNOPQRSTUVWXYZabcdefghijklmnopqrstuvwxyz0123456789+/".toList

/-- The six bits that a letter stands for. -/
def sextet? (c : Char) : Option Nat :=
  alphabet.idxOf? c

/-- The bytes that an encoding stands for. Only the last quantum may be padded, and then its spare
bits have to be zero. -/
def decode : List Char → Option (List UInt8)
  | [] => some []
  | [p, q, '=', '='] => do
      let p ← sextet? p
      let q ← sextet? q
      if q % 16 = 0 then some [UInt8.ofNat (p * 4 + q / 16)] else none
  | [p, q, r, '='] => do
      let p ← sextet? p
      let q ← sextet? q
      let r ← sextet? r
      if r % 4 = 0 then some [UInt8.ofNat (p * 4 + q / 16), UInt8.ofNat (q % 16 * 16 + r / 4)]
      else none
  | p :: q :: r :: s :: rest => do
      let p ← sextet? p
      let q ← sextet? q
      let r ← sextet? r
      let s ← sextet? s
      let bytes ← decode rest
      return UInt8.ofNat (p * 4 + q / 16) :: UInt8.ofNat (q % 16 * 16 + r / 4) ::
        UInt8.ofNat (r % 4 * 64 + s) :: bytes
  | _ => none

theorem sextet?_letter : ∀ n < 64, sextet? (letter n) = some n := by
  decide +kernel

theorem letter_ne_padding : ∀ n < 64, letter n ≠ padding := by
  decide +kernel

theorem decode_twoLetters {p q : Nat} (hp : p < 64) (hq : q < 64) (hspare : q % 16 = 0) :
    decode [letter p, letter q, padding, padding] = some [UInt8.ofNat (p * 4 + q / 16)] := by
  rw [padding, decode, sextet?_letter p hp, sextet?_letter q hq]
  simp [hspare]

theorem decode_threeLetters {p q r : Nat} (hp : p < 64) (hq : q < 64) (hr : r < 64)
    (hspare : r % 4 = 0) :
    decode [letter p, letter q, letter r, padding] =
      some [UInt8.ofNat (p * 4 + q / 16), UInt8.ofNat (q % 16 * 16 + r / 4)] := by
  rw [padding, decode, sextet?_letter p hp, sextet?_letter q hq, sextet?_letter r hr]
  · simp [hspare]
  · exact letter_ne_padding r hr

theorem decode_fourLetters {p q r s : Nat} (hp : p < 64) (hq : q < 64) (hr : r < 64) (hs : s < 64)
    (rest : List Char) :
    decode (letter p :: letter q :: letter r :: letter s :: rest) =
      (decode rest).map fun bytes =>
        UInt8.ofNat (p * 4 + q / 16) :: UInt8.ofNat (q % 16 * 16 + r / 4) ::
          UInt8.ofNat (r % 4 * 64 + s) :: bytes := by
  rw [decode, sextet?_letter p hp, sextet?_letter q hq, sextet?_letter r hr, sextet?_letter s hs]
  · cases decode rest <;> rfl
  -- The last of four letters is no padding, so this is no quantum of the end.
  · rintro - hpadding
    exact absurd hpadding (letter_ne_padding s hs)
  · rintro hpadding
    exact absurd hpadding (letter_ne_padding s hs)

/-- A byte put together from the two parts that it was taken apart into. -/
theorem ofNat_eq_of_toNat (byte : UInt8) {n : Nat} (h : n = byte.toNat) : UInt8.ofNat n = byte := by
  rw [h, UInt8.ofNat_toNat]

theorem decode_encode (bytes : List UInt8) : decode (encode bytes) = some bytes := by
  induction bytes using encode.induct with
  | case1 => rfl
  | case2 a =>
      have ha : a.toNat < 256 := a.toNat_lt
      rw [encode, decode_twoLetters (by omega) (by omega) (by omega),
        ofNat_eq_of_toNat a (by omega)]
  | case3 a b =>
      have ha : a.toNat < 256 := a.toNat_lt
      have hb : b.toNat < 256 := b.toNat_lt
      rw [encode, decode_threeLetters (by omega) (by omega) (by omega) (by omega),
        ofNat_eq_of_toNat a (by omega), ofNat_eq_of_toNat b (by omega)]
  | case4 a b c rest ih =>
      have ha : a.toNat < 256 := a.toNat_lt
      have hb : b.toNat < 256 := b.toNat_lt
      have hc : c.toNat < 256 := c.toNat_lt
      rw [encode, decode_fourLetters (by omega) (by omega) (by omega) (by omega), ih,
        Option.map_some, ofNat_eq_of_toNat a (by omega), ofNat_eq_of_toNat b (by omega),
        ofNat_eq_of_toNat c (by omega)]

theorem letter_visible : ∀ n < 64, 0x20 < (letter n).toNat ∧ (letter n).toNat < 0x7F := by
  decide +kernel

/-- An encoding is made of visible characters of ASCII. -/
theorem visible_of_mem_encode {bytes : List UInt8} :
    ∀ c ∈ encode bytes, 0x20 < c.toNat ∧ c.toNat < 0x7F := by
  have hpadding : 0x20 < padding.toNat ∧ padding.toNat < 0x7F := by
    decide
  induction bytes using encode.induct with
  | case1 => simp [encode]
  | case2 a =>
      have ha : a.toNat < 256 := a.toNat_lt
      simp only [encode, List.forall_mem_cons]
      exact ⟨letter_visible _ (by omega), letter_visible _ (by omega), hpadding, hpadding, by simp⟩
  | case3 a b =>
      have ha : a.toNat < 256 := a.toNat_lt
      have hb : b.toNat < 256 := b.toNat_lt
      simp only [encode, List.forall_mem_cons]
      exact ⟨letter_visible _ (by omega), letter_visible _ (by omega), letter_visible _ (by omega),
        hpadding, by simp⟩
  | case4 a b c rest ih =>
      have ha : a.toNat < 256 := a.toNat_lt
      have hb : b.toNat < 256 := b.toNat_lt
      have hc : c.toNat < 256 := c.toNat_lt
      simp only [encode, List.forall_mem_cons]
      exact ⟨letter_visible _ (by omega), letter_visible _ (by omega), letter_visible _ (by omega),
        letter_visible _ (by omega), ih⟩

example : decode "QWxhZGRpbjpvcGVu".toList = some (List.map (·.toUInt8) "Aladdin:open".toList) := by
  decide

end Reshape.Web.Base64
