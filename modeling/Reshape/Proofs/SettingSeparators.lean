import Reshape.Issue.Connection
import Reshape.Proofs.IssueAddress

/-!
The separators around the settings of a connection.

However many separators `://` stand behind the protocol, and slashes behind the host, around the
version and behind the root, an issue has the same URL (`separators_ignored`). A text parts in one
way only into copies of a mark and what is bare of it (`BareEnd.unique`), even if that is empty or
ends in some of the characters of the mark. What a trimmed text is follows from what is left of it
being bare, and further copies do not change that.
-/

namespace Reshape.Issue

/-- Copies of a mark, one behind the other. -/
def copies (mark : String) (n : Nat) : String :=
  String.join (List.replicate n mark)

@[simp]
theorem copies_zero (mark : String) : copies mark 0 = "" :=
  rfl

theorem copies_succ (mark : String) (n : Nat) : copies mark (n + 1) = copies mark n ++ mark := by
  simp [copies, List.replicate_succ']

theorem copies_add (mark : String) (n m : Nat) :
    copies mark (n + m) = copies mark n ++ copies mark m := by
  rw [copies, ← List.replicate_append_replicate, String.join_append]
  rfl

theorem toList_copies_slash (n : Nat) : (copies "/" n).toList = List.replicate n '/' := by
  simp [copies, String.toList_join, List.flatMap_replicate]

/-- What is left of a text without the copies of a mark at its end. -/
structure BareEnd (mark text bare : String) : Prop where
  parts : ∃ n, text = bare ++ copies mark n
  ends : ∀ front, bare ≠ front ++ mark

/-- What is left of a text without the copies of a mark at either end. -/
structure BareEnds (mark text bare : String) : Prop where
  parts : ∃ n m, text = copies mark n ++ bare ++ copies mark m
  starts : ∀ rest, bare ≠ mark ++ rest
  ends : ∀ front, bare ≠ front ++ mark

section

variable {mark text bare : String}

/-- A text has one bare part only: copies are taken off both sides, and neither side can run out of
them first, since what is left of it would end in a copy. -/
theorem eq_of_append_copies {bare' : String} (h : ∀ front, bare ≠ front ++ mark)
    (h' : ∀ front, bare' ≠ front ++ mark) {n m : Nat}
    (heq : bare ++ copies mark n = bare' ++ copies mark m) : bare = bare' := by
  induction n generalizing m with
  | zero =>
      cases m with
      | zero => simpa using heq
      | succ m =>
          rw [copies_succ, ← String.append_assoc, copies_zero, String.append_empty] at heq
          exact (h _ heq).elim
  | succ n ih =>
      rw [copies_succ, ← String.append_assoc] at heq
      cases m with
      | zero =>
          rw [copies_zero, String.append_empty] at heq
          exact (h' _ heq.symm).elim
      | succ m =>
          rw [copies_succ, ← String.append_assoc] at heq
          exact ih ((String.append_left_inj mark).mp heq)

theorem BareEnd.unique {bare' : String} (h : BareEnd mark text bare)
    (h' : BareEnd mark text bare') : bare = bare' := by
  obtain ⟨n, hn⟩ := h.parts
  obtain ⟨m, hm⟩ := h'.parts
  exact eq_of_append_copies h.ends h'.ends (hn.symm.trans hm)

theorem BareEnd.append_copies (h : BareEnd mark text bare) (n : Nat) :
    BareEnd mark (text ++ copies mark n) bare := by
  obtain ⟨⟨m, rfl⟩, hends⟩ := h
  exact ⟨⟨m + n, by rw [copies_add, String.append_assoc]⟩, hends⟩

theorem BareEnds.append_copies (h : BareEnds mark text bare) (n m : Nat) :
    BareEnds mark (copies mark n ++ text ++ copies mark m) bare := by
  obtain ⟨⟨i, j, rfl⟩, hstarts, hends⟩ := h
  refine ⟨⟨n + i, j + m, ?_⟩, hstarts, hends⟩
  simp only [copies_add, String.append_assoc]

end

/-! ### What trimming leaves -/

theorem dropSeparators_spec (text : List Char) :
    (∃ n, text.reverse = (dropSeparators text).reverse ++ (copies "://" n).toList) ∧
      ∀ rest, dropSeparators text ≠ '/' :: '/' :: ':' :: rest := by
  fun_induction dropSeparators text with
  | case1 rest ih =>
      obtain ⟨⟨n, hn⟩, hends⟩ := ih
      refine ⟨⟨n + 1, ?_⟩, hends⟩
      simp [copies_succ, hn]
  | case2 text hends => exact ⟨⟨0, by simp⟩, hends⟩

theorem bareEnd_protocol (protocol : String) :
    BareEnd "://" protocol (String.ofList (bareProtocol protocol)) := by
  obtain ⟨⟨n, hn⟩, hends⟩ := dropSeparators_spec protocol.toList.reverse
  constructor
  case parts =>
    refine ⟨n, String.toList_inj.mp ?_⟩
    simpa [bareProtocol] using hn
  case ends =>
    intro front hfront
    apply hends front.toList.reverse
    have htext : bareProtocol protocol = front.toList ++ "://".toList := by
      simpa using congrArg String.toList hfront
    rw [← List.reverse_reverse (dropSeparators _), ← bareProtocol, htext]
    simp

theorem ne_append_slash_iff {text : String} :
    (∀ front, text ≠ front ++ "/") ↔ text.toList.getLast? ≠ some '/' := by
  rw [ne_eq, List.getLast?_eq_some_iff, not_exists]
  constructor
  · intro h front hfront
    apply h (String.ofList front)
    simpa using congrArg String.ofList hfront
  · rintro h front rfl
    exact h front.toList (by simp)

theorem bareEnd_slashes (text : String) :
    BareEnd "/" text (String.ofList (withoutEndSlashes text)) := by
  obtain ⟨⟨n, hn⟩, hlast⟩ := withoutEndSlashes_spec text
  constructor
  case parts =>
    refine ⟨n, String.toList_inj.mp ?_⟩
    simpa [toList_copies_slash] using hn
  case ends => exact ne_append_slash_iff.mpr (by simpa using hlast)

theorem BareEnd.withoutEndSlashes_eq {text bare : String} (h : BareEnd "/" text bare) :
    withoutEndSlashes text = bare.toList := by
  rw [h.unique (bareEnd_slashes text), String.toList_ofList]

theorem withoutSlashes_eq_dropWhile (text : String) :
    withoutSlashes text = (withoutEndSlashes text).dropWhile (· = '/') :=
  rfl

theorem bareEnds_slashes (text : String) :
    BareEnds "/" text (String.ofList (withoutSlashes text)) := by
  obtain ⟨⟨m, hm⟩, hlast⟩ := withoutEndSlashes_spec text
  have hparts := List.takeWhile_append_dropWhile (p := (· = '/')) (l := withoutEndSlashes text)
  rw [← withoutSlashes_eq_dropWhile] at hparts
  constructor
  case parts =>
    obtain ⟨n, hn⟩ : ∃ n, (withoutEndSlashes text).takeWhile (· = '/') = List.replicate n '/' :=
      ⟨_, List.eq_replicate_iff.mpr ⟨rfl, fun c hc => by simpa using List.mem_takeWhile_imp hc⟩⟩
    refine ⟨n, m, String.toList_inj.mp ?_⟩
    rw [hm, ← hparts, hn]
    simp [toList_copies_slash]
  case starts =>
    intro rest hrest
    have hhead := List.head?_dropWhile_not (· = '/') (withoutEndSlashes text)
    have hbare : withoutSlashes text = '/' :: rest.toList := by
      simpa using congrArg String.toList hrest
    rw [← withoutSlashes_eq_dropWhile, hbare] at hhead
    simp at hhead
  case ends =>
    rw [ne_append_slash_iff, String.toList_ofList]
    intro hslash
    rw [← hparts, List.getLast?_append, hslash] at hlast
    exact hlast rfl

theorem BareEnds.withoutSlashes_eq {text bare : String} (h : BareEnds "/" text bare) :
    withoutSlashes text = bare.toList := by
  obtain ⟨⟨n, m, rfl⟩, hstarts, hends⟩ := h
  rw [withoutSlashes_eq_dropWhile]
  -- Slashes alone are all at the end, so that none is left to be dropped at the front.
  by_cases hempty : bare = ""
  · subst hempty
    have hbare : BareEnd "/" (copies "/" n ++ "" ++ copies "/" m) "" :=
      ⟨⟨n + m, by simp [copies_add]⟩, hends⟩
    rw [hbare.withoutEndSlashes_eq]
    rfl
  · have hne : bare.toList ≠ [] := by
      simpa using hempty
    have hbare : BareEnd "/" (copies "/" n ++ bare ++ copies "/" m) (copies "/" n ++ bare) := by
      refine ⟨⟨m, rfl⟩, ?_⟩
      rw [ne_append_slash_iff] at hends ⊢
      rwa [String.toList_append, List.getLast?_append_of_ne_nil _ hne]
    have hslashes : ∀ c ∈ (copies "/" n).toList, decide (c = '/') = true := by
      simp [toList_copies_slash]
    rw [hbare.withoutEndSlashes_eq, String.toList_append, List.dropWhile_append_of_pos hslashes]
    obtain ⟨c, rest, hrest⟩ := List.exists_cons_of_ne_nil hne
    rw [hrest]
    apply List.dropWhile_cons_of_neg
    intro hc
    apply hstarts (String.ofList rest)
    apply String.toList_inj.mp
    simpa [hrest] using hc

/-! ### Roots and addresses -/

/-- How many separators stand around the settings of a connection. -/
structure Decoration where
  behindProtocol : Nat
  behindHost : Nat
  beforeVersion : Nat
  behindVersion : Nat

def Connection.decorated (c : Connection) (d : Decoration) : Connection where
  protocol := c.protocol ++ copies "://" d.behindProtocol
  host := c.host ++ copies "/" d.behindHost
  port := c.port
  user := c.user
  password := c.password
  apiVersion := copies "/" d.beforeVersion ++ c.apiVersion ++ copies "/" d.behindVersion

/-- The root is that of the settings without the separators around them, however those are found. -/
theorem apiRoot_of_bare {protocol host version bareProtocol bareHost bareVersion : String}
    (hprotocol : BareEnd "://" protocol bareProtocol) (hhost : BareEnd "/" host bareHost)
    (hversion : BareEnds "/" version bareVersion) (port : UInt16) :
    apiRoot protocol host port version =
      bareProtocol ++ "://" ++ bareHost ++ ":" ++ toString port.toNat ++ "/rest/api/" ++
        bareVersion := by
  rw [apiRoot, (bareEnd_protocol protocol).unique hprotocol, hhost.withoutEndSlashes_eq,
    hversion.withoutSlashes_eq, String.ofList_toList, String.ofList_toList]

theorem apiRoot_decorated (protocol host : String) (port : UInt16) (version : String)
    (n m i j : Nat) :
    apiRoot (protocol ++ copies "://" n) (host ++ copies "/" m) port
        (copies "/" i ++ version ++ copies "/" j) =
      apiRoot protocol host port version := by
  have hprotocol := bareEnd_protocol protocol
  have hhost := bareEnd_slashes host
  have hversion := bareEnds_slashes version
  rw [apiRoot_of_bare hprotocol hhost hversion,
    apiRoot_of_bare (hprotocol.append_copies n) (hhost.append_copies m)
      (hversion.append_copies i j)]

theorem url_append_copies (root issue : String) (query : Query) (n : Nat) :
    url (root ++ copies "/" n) issue query = url root issue query := by
  have hroot := ((bareEnd_slashes root).append_copies n).withoutEndSlashes_eq
  rw [String.toList_ofList] at hroot
  rw [url, url, hroot]

/-- The root is made of the settings without the separators around them. So separators added there,
or slashes added behind the root, change neither the root nor the URL of an issue. -/
theorem separators_ignored :
    (∀ (protocol host : String) (port : UInt16) (version : String),
      ∃ bareProtocol bareHost bareVersion,
        BareEnd "://" protocol bareProtocol ∧ BareEnd "/" host bareHost ∧
        BareEnds "/" version bareVersion ∧
        apiRoot protocol host port version =
          bareProtocol ++ "://" ++ bareHost ++ ":" ++ toString port.toNat ++ "/rest/api/" ++
            bareVersion) ∧
    (∀ (protocol host : String) (port : UInt16) (version : String) (n m i j : Nat),
      apiRoot (protocol ++ copies "://" n) (host ++ copies "/" m) port
          (copies "/" i ++ version ++ copies "/" j) =
        apiRoot protocol host port version) ∧
    (∀ (root issue : String) (query : Query) (n : Nat),
      url (root ++ copies "/" n) issue query = url root issue query) ∧
    ∀ (c : Connection) (d : Decoration) (n : Nat) (issue : String) (query : Query),
      url ((c.decorated d).root ++ copies "/" n) issue query = url c.root issue query := by
  refine ⟨?_, apiRoot_decorated, url_append_copies, ?_⟩
  · intro protocol host port version
    have hprotocol := bareEnd_protocol protocol
    have hhost := bareEnd_slashes host
    have hversion := bareEnds_slashes version
    exact ⟨_, _, _, hprotocol, hhost, hversion, apiRoot_of_bare hprotocol hhost hversion port⟩
  · intro c d n issue query
    have hroot : (c.decorated d).root = c.root := apiRoot_decorated ..
    rw [url_append_copies, hroot]

example : apiRoot "a:/://://" "//" 80 "/v//1/" = "a:/://:80/rest/api/v//1" := by
  decide

end Reshape.Issue
