import Reshape.Issue.Connection
import Reshape.Proofs.Base64Decoding
import Reshape.Proofs.PercentDecoding

/-!
What the authorization header says.

The credentials are written in visible characters of ASCII whatever they are made of, so they are
never refused. Whoever receives the header finds the text of the user, a colon and the password
again, and knows where to part it unless the user holds a colon.
-/

namespace Reshape.Issue

open Web

/-- Whether a character may stand in any header: the blank and the visible ones of ASCII. -/
def IsVisible (c : Char) : Prop :=
  0x20 ≤ c.toNat ∧ c.toNat < 0x7F

/-- The text that is written in base64. -/
def textOfBase64? (encoded : List Char) : Option String := do
  String.fromUTF8? (← Base64.decode encoded).toByteArray

/-- The user and the password that are written in base64, with the first colon between them. -/
def credentials? (encoded : List Char) : Option (String × String) := do
  let (user, password) ← dividedAt? ':' (← textOfBase64? encoded).toList
  return (String.ofList user, String.ofList password)

theorem toList_authorization (connection : Connection) :
    connection.authorization.toList =
      "Basic ".toList ++
        Base64.encode (utf8 (connection.user ++ ":" ++ connection.password)) :=
  String.toList_append.trans (congrArg ("Basic ".toList ++ ·) String.toList_ofList)

theorem isVisible_of_mem_authorization (connection : Connection) :
    ∀ c ∈ connection.authorization.toList, IsVisible c := by
  have hscheme : ∀ c ∈ "Basic ".toList, IsVisible c := by
    simp [IsVisible]
  rw [toList_authorization]
  intro c hc
  rcases List.mem_append.mp hc with hc | hc
  · exact hscheme c hc
  · obtain ⟨hlow, hhigh⟩ := Base64.visible_of_mem_encode c hc
    exact ⟨Nat.le_of_lt hlow, hhigh⟩

theorem isHeaderValue_of_isVisible {text : String} (h : ∀ c ∈ text.toList, IsVisible c) :
    isHeaderValue text = true := by
  apply List.all_eq_true.mpr
  intro c hc
  obtain ⟨hlow, hhigh⟩ := h c hc
  simp [hlow, hhigh]

theorem headers_eq_ok {isValue : String → Bool}
    (hvisible : ∀ text : String, (∀ c ∈ text.toList, IsVisible c) → isValue text = true)
    (connection : Connection) :
    connection.headers isValue = .ok ⟨connection.authorization, acceptedType⟩ := by
  rw [Connection.headers, if_pos (hvisible _ (isVisible_of_mem_authorization connection))]

theorem textOfBase64?_encode (text : String) :
    textOfBase64? (Base64.encode (utf8 text)) = some text := by
  rw [textOfBase64?, Base64.decode_encode, Option.bind_eq_bind, Option.bind_some,
    PercentEncoding.fromUTF8?_utf8]

theorem credentials?_encode {text user password : String} :
    credentials? (Base64.encode (utf8 text)) = some (user, password) ↔
      text = user ++ ":" ++ password ∧ ':' ∉ user.toList := by
  rw [credentials?, textOfBase64?_encode, Option.bind_eq_bind, Option.bind_some,
    Option.bind_eq_bind, Option.bind_eq_some_iff]
  constructor
  · rintro ⟨⟨front, back⟩, hdivided, hparts⟩
    obtain ⟨htext, hfront⟩ := dividedAt?_eq_some.mp hdivided
    obtain ⟨rfl, rfl⟩ := Prod.mk.inj (Option.some.inj hparts)
    refine ⟨String.toList_inj.mp ?_, by simpa using hfront⟩
    simp [htext]
  · rintro ⟨rfl, huser⟩
    refine ⟨(user.toList, password.toList), dividedAt?_eq_some.mpr ⟨by simp, huser⟩, ?_⟩
    simp

/-- The headers of a request are always made, and what they carry is the text of the user, a colon
and the password. The two are told apart by the first colon just if there is none in the user. -/
theorem headers_carry_credentials {isValue : String → Bool}
    (hvisible : ∀ text : String, (∀ c ∈ text.toList, IsVisible c) → isValue text = true)
    (connection : Connection) :
    ∃ encoded, connection.headers isValue = .ok ⟨"Basic " ++ String.ofList encoded, acceptedType⟩ ∧
      Base64.decode encoded = some (utf8 (connection.user ++ ":" ++ connection.password)) ∧
      (credentials? encoded = some (connection.user, connection.password) ↔
        ':' ∉ connection.user.toList) := by
  refine ⟨Base64.encode (utf8 (connection.user ++ ":" ++ connection.password)),
    headers_eq_ok hvisible connection, Base64.decode_encode _, ?_⟩
  rw [credentials?_encode]
  exact and_iff_right rfl

def colonConnection : Connection :=
  ⟨"https", "host", 443, "josé", "a:b", "2"⟩

theorem headers_carry_credentials_colon :
    (∀ text : String, (∀ c ∈ text.toList, IsVisible c) → isHeaderValue text = true) ∧
    ∃ encoded, colonConnection.headers isHeaderValue =
        .ok ⟨"Basic " ++ String.ofList encoded, acceptedType⟩ ∧
      Base64.decode encoded = some (utf8 "josé:a:b") ∧
      credentials? encoded = some ("josé", "a:b") := by
  have hvisible : ∀ text : String, (∀ c ∈ text.toList, IsVisible c) → isHeaderValue text = true :=
    fun _ => isHeaderValue_of_isVisible
  refine ⟨hvisible, ?_⟩
  obtain ⟨encoded, hheaders, hbytes, hcredentials⟩ :=
    headers_carry_credentials hvisible colonConnection
  exact ⟨encoded, hheaders, hbytes, hcredentials.mpr (by decide)⟩

end Reshape.Issue
