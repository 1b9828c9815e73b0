import Reshape.Json.Reader
import Reshape.Proofs.Basic
import Reshape.Web.PercentEncoding

/-!
Percent-encoded text read back.

What is encoded byte by byte is decoded byte by byte, so no two texts have one encoding. None of the
characters that part a URL stands in an encoding, which is made of letters, digits, percent signs
and the four other marks that stand for themselves.
-/

namespace Reshape.Web.PercentEncoding

/-- The bytes that an encoding stands for. A percent sign without two digits behind it stands for
itself. -/
def decodeBytes : List Char → List UInt8
  | [] => []
  | '%' :: high :: low :: rest =>
      match Json.hexValue? high, Json.hexValue? low with
      | some h, some l => UInt8.ofNat (16 * h + l) :: decodeBytes rest
      | _, _ => String.utf8EncodeChar '%' ++ decodeBytes (high :: low :: rest)
  | c :: rest => String.utf8EncodeChar c ++ decodeBytes rest

/-- The text that an encoding stands for, unless its bytes are no text. -/
def decode (encoded : List Char) : Option String :=
  String.fromUTF8? (decodeBytes encoded).toByteArray

theorem decodeBytes_cons {c : Char} (h : c ≠ '%') (rest : List Char) :
    decodeBytes (c :: rest) = String.utf8EncodeChar c ++ decodeBytes rest := by
  rw [decodeBytes]
  rintro _ _ _ rfl
  exact absurd rfl h

theorem isUnreserved_ofNat : ∀ n < 256, isUnreserved (UInt8.ofNat n) = true →
    Char.ofNat n ≠ '%' ∧ String.utf8EncodeChar (Char.ofNat n) = [UInt8.ofNat n] := by
  decide +kernel

theorem hexValue?_hexDigit : ∀ n < 16, Json.hexValue? (hexDigit n) = some n := by
  decide

theorem decodeBytes_encodeByte (byte : UInt8) (rest : List Char) :
    decodeBytes (encodeByte byte ++ rest) = byte :: decodeBytes rest := by
  have hbyte : byte.toNat < 256 := byte.toNat_lt
  unfold encodeByte
  split
  · rename_i hplain
    obtain ⟨hpercent, hutf8⟩ := isUnreserved_ofNat byte.toNat hbyte (by simpa using hplain)
    rw [List.singleton_append, decodeBytes_cons hpercent, hutf8]
    simp
  · have hhigh := hexValue?_hexDigit (byte.toNat / 16) (by omega)
    have hlow := hexValue?_hexDigit (byte.toNat % 16) (by omega)
    simp only [List.cons_append, List.nil_append, decodeBytes, hhigh, hlow]
    rw [Nat.div_add_mod, UInt8.ofNat_toNat]

theorem fromUTF8?_utf8 (text : String) : String.fromUTF8? (utf8 text).toByteArray = some text := by
  have hbytes : (utf8 text).toByteArray = text.toByteArray := String.utf8Encode_toList
  rw [hbytes, fromUTF8?_toByteArray]

theorem decodeBytes_encode (text : String) : decodeBytes (encode text) = utf8 text := by
  unfold encode
  induction utf8 text with
  | nil => rfl
  | cons byte bytes ih => rw [List.flatMap_cons, decodeBytes_encodeByte, ih]

theorem decode_encode (text : String) : decode (encode text) = some text := by
  rw [decode, decodeBytes_encode, fromUTF8?_utf8]

theorem encode_inj {text other : String} : encode text = encode other ↔ text = other := by
  constructor
  · intro h
    have hdecode := congrArg decode h
    rw [decode_encode, decode_encode] at hdecode
    exact Option.some.inj hdecode
  · exact congrArg encode

theorem isAlphanum_hexDigit : ∀ n < 16, (hexDigit n).isAlphanum := by
  decide

/-- The characters that an encoding is made of. -/
theorem mem_encode {text : String} {c : Char} (h : c ∈ encode text) :
    c.isAlphanum ∨ c ∈ ['-', '_', '.', '~', '%'] := by
  obtain ⟨byte, -, hc⟩ := List.mem_flatMap.mp h
  have hbyte : byte.toNat < 256 := byte.toNat_lt
  unfold encodeByte at hc
  split at hc
  · rename_i hplain
    obtain rfl := List.mem_singleton.mp hc
    simp only [isUnreserved, Bool.or_eq_true, decide_eq_true_eq] at hplain
    rcases hplain with (((halphanum | hmark) | hmark) | hmark) | hmark
    · exact .inl halphanum
    all_goals simp [hmark]
  · simp only [List.mem_cons, List.not_mem_nil, or_false] at hc
    rcases hc with rfl | rfl | rfl
    · simp
    · exact .inl (isAlphanum_hexDigit _ (by omega))
    · exact .inl (isAlphanum_hexDigit _ (by omega))

/-- The characters that part a URL are in no encoding. -/
theorem not_mem_encode {c : Char} (h : c ∈ ['/', '?', '#', '&', '=']) (text : String) :
    c ∉ encode text := by
  have hmarks : ∀ c ∈ ['/', '?', '#', '&', '='],
      ¬ (c.isAlphanum ∨ c ∈ ['-', '_', '.', '~', '%']) := by
    simp
  intro hmem
  exact hmarks c h (mem_encode hmem)

end Reshape.Web.PercentEncoding
