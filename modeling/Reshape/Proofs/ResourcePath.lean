import Reshape.Proofs.DotSegments
import Reshape.Proofs.IssueAddress
import Reshape.Text.Blank

/-!
The path that the URL of an issue leads along.

The path of a URL stands behind its scheme and authority and ends where a query or a fragment
begins. That of an issue goes on from the path of the root with two segments, and the last of them
stands for the key. Only the keys `.` and `..` make a dot segment of it (`path_url_kept_iff`): they
lead to the collection that the issue should be in, and to the root.
-/

namespace Reshape.Web

def endsPath (c : Char) : Bool :=
  c = '?' || c = '#'

def endsAuthority (c : Char) : Bool :=
  c = '/' || endsPath c

/-- What stands behind the scheme of a URL, which is the name in front of its first colon. -/
def afterScheme (url : List Char) : List Char :=
  match dividedAt? ':' url with
  | some (name, rest) => if name ≠ [] ∧ name.all (!endsAuthority ·) = true then rest else url
  | none => url

/-- What stands behind the authority, which two slashes introduce. -/
def afterAuthority : List Char → List Char
  | '/' :: '/' :: rest => rest.dropWhile (!endsAuthority ·)
  | rest => rest

def pathOf (url : List Char) : List Char :=
  (afterAuthority (afterScheme url)).takeWhile (!endsPath ·)

theorem endsPath_of_endsAuthority {c : Char} (h : endsAuthority c = false) :
    endsPath c = false := by
  rw [endsAuthority, Bool.or_eq_false_iff] at h
  exact h.2

theorem exists_front_of_afterScheme (url : List Char) :
    ∃ front, url = front ++ afterScheme url ∧ ∀ c ∈ front, endsPath c = false := by
  unfold afterScheme
  split
  · rename_i name rest hdivided
    obtain ⟨rfl, -⟩ := dividedAt?_eq_some.mp hdivided
    split
    · rename_i hname
      refine ⟨name ++ [':'], by simp, List.forall_mem_append.mpr ⟨?_, by simp [endsPath]⟩⟩
      intro c hc
      have hplain := List.all_eq_true.mp hname.2 c hc
      exact endsPath_of_endsAuthority (by simpa using hplain)
    · exact ⟨[], rfl, by simp⟩
  · exact ⟨[], rfl, by simp⟩

theorem exists_front_of_afterAuthority (text : List Char) :
    ∃ front, text = front ++ afterAuthority text ∧ ∀ c ∈ front, endsPath c = false := by
  unfold afterAuthority
  split
  · rename_i rest
    refine ⟨'/' :: '/' :: rest.takeWhile (!endsAuthority ·), by simp, ?_⟩
    simp only [List.forall_mem_cons]
    refine ⟨rfl, rfl, ?_⟩
    intro c hc
    have hname := List.mem_takeWhile_imp hc
    exact endsPath_of_endsAuthority (by simpa using hname)
  · exact ⟨[], rfl, by simp⟩

/-- What stands in front of the path holds no mark that ends it. -/
theorem exists_front_of_path (url : List Char) :
    ∃ front, url = front ++ afterAuthority (afterScheme url) ∧
      ∀ c ∈ front, endsPath c = false := by
  obtain ⟨scheme, hscheme, hplain⟩ := exists_front_of_afterScheme url
  obtain ⟨authority, hauthority, hplain'⟩ := exists_front_of_afterAuthority (afterScheme url)
  refine ⟨scheme ++ authority, ?_, List.forall_mem_append.mpr ⟨hplain, hplain'⟩⟩
  rw [List.append_assoc, ← hauthority]
  exact hscheme

theorem slash_mem_of_append_eq {url rest name more : List Char} (hcolon : ':' ∉ url)
    (h : url ++ '/' :: rest = name ++ ':' :: more) : '/' ∈ name := by
  rcases List.append_eq_append_iff.mp h with ⟨between, rfl, hbetween⟩ | ⟨between, rfl, hbetween⟩
  · cases between with
    | nil => simp at hbetween
    | cons c between =>
        obtain ⟨rfl, -⟩ := List.cons.inj hbetween
        simp
  · cases between with
    | nil => simp at hbetween
    | cons c between =>
        obtain ⟨rfl, -⟩ := List.cons.inj hbetween
        simp at hcolon

theorem afterScheme_append_slash (url rest : List Char) :
    afterScheme (url ++ '/' :: rest) = afterScheme url ++ '/' :: rest := by
  cases hdivided : dividedAt? ':' url with
  | some parts =>
      obtain ⟨name, more⟩ := parts
      obtain ⟨rfl, hname⟩ := dividedAt?_eq_some.mp hdivided
      have hlonger : dividedAt? ':' (name ++ ':' :: more ++ '/' :: rest) =
          some (name, more ++ '/' :: rest) :=
        dividedAt?_eq_some.mpr ⟨by simp, hname⟩
      rw [afterScheme, afterScheme, hdivided, hlonger]
      exact (apply_ite (· ++ '/' :: rest) _ _ _).symm
  | none =>
      -- A colon behind the slash ends no scheme.
      have hcolon := not_mem_of_dividedAt? hdivided
      have hsame : afterScheme url = url := by
        rw [afterScheme, hdivided]
      rw [hsame, afterScheme]
      split
      · rename_i name more hlonger
        obtain ⟨htext, -⟩ := dividedAt?_eq_some.mp hlonger
        have hslash := slash_mem_of_append_eq hcolon htext
        rw [if_neg]
        rintro ⟨-, hname⟩
        exact absurd (List.all_eq_true.mp hname '/' hslash) (by decide)
      · rfl

theorem afterAuthority_eq_self {text : List Char} (h : ¬ ['/', '/'] <+: text) :
    afterAuthority text = text := by
  unfold afterAuthority
  split
  · simp at h
  · rfl

theorem afterAuthority_append_slash {text rest : List Char} (hlast : text.getLast? ≠ some '/')
    (hrest : text = [] → rest.head? ≠ some '/') :
    afterAuthority (text ++ '/' :: rest) = afterAuthority text ++ '/' :: rest := by
  by_cases hprefix : ['/', '/'] <+: text
  · obtain ⟨text, rfl⟩ := hprefix
    show (text ++ '/' :: rest).dropWhile (!endsAuthority ·) =
      text.dropWhile (!endsAuthority ·) ++ '/' :: rest
    rw [List.dropWhile_append]
    split
    · rename_i hempty
      rw [List.isEmpty_iff.mp hempty]
      rfl
    · rfl
  · have hlonger : ¬ ['/', '/'] <+: text ++ '/' :: rest := by
      rcases text with _ | ⟨c, _ | ⟨d, text⟩⟩
      · cases rest with
        | nil => simp
        | cons d rest => simpa [eq_comm] using hrest
      · simpa [eq_comm] using hlast
      · simpa using hprefix
    rw [afterAuthority_eq_self hprefix, afterAuthority_eq_self hlonger]

section

variable {url rest : List Char} (hlast : url.getLast? ≠ some '/')

include hlast

theorem getLast?_afterScheme : (afterScheme url).getLast? ≠ some '/' := by
  obtain ⟨front, hurl, -⟩ := exists_front_of_afterScheme url
  intro h
  rw [hurl, List.getLast?_append, h] at hlast
  exact hlast rfl

theorem path_append_slash (hrest : afterScheme url = [] → rest.head? ≠ some '/') :
    pathOf (url ++ '/' :: rest) =
      (afterAuthority (afterScheme url) ++ '/' :: rest).takeWhile (!endsPath ·) := by
  rw [pathOf, afterScheme_append_slash,
    afterAuthority_append_slash (getLast?_afterScheme hlast) hrest]

/-- The path of a URL without a query and a fragment goes on when the URL does. -/
theorem pathOf_append_slash (hrest : afterScheme url = [] → rest.head? ≠ some '/')
    (hplain : ∀ c ∈ url, endsPath c = false) :
    pathOf (url ++ '/' :: rest) = pathOf url ++ '/' :: rest.takeWhile (!endsPath ·) := by
  obtain ⟨front, hurl, -⟩ := exists_front_of_path url
  have hpath : ∀ c ∈ afterAuthority (afterScheme url), (!endsPath c) = true := by
    intro c hc
    rw [hplain c (hurl ▸ List.mem_append_right front hc)]
    rfl
  rw [path_append_slash hlast hrest, pathOf, List.takeWhile_append_of_pos hpath,
    List.takeWhile_eq_self_iff.mpr hpath]
  rfl

/-- The path of a URL with a query or a fragment does not change when the URL goes on. -/
theorem pathOf_append_slash_of_ended (hrest : afterScheme url = [] → rest.head? ≠ some '/')
    (hended : ∃ c ∈ url, endsPath c = true) : pathOf (url ++ '/' :: rest) = pathOf url := by
  obtain ⟨front, hurl, hfront⟩ := exists_front_of_path url
  obtain ⟨c, hc, hends⟩ := hended
  have hpath : c ∈ afterAuthority (afterScheme url) := by
    rw [hurl] at hc
    rcases List.mem_append.mp hc with hc | hc
    · rw [hfront c hc] at hends
      cases hends
    · exact hc
  rw [path_append_slash hlast hrest, pathOf, List.takeWhile_append, if_neg]
  intro hlength
  have hall := List.takeWhile_eq_self_iff.mp
    ((List.takeWhile_prefix (!endsPath ·)).eq_of_length hlength) c hpath
  rw [hends] at hall
  cases hall

end

theorem dotFree_nil : DotFree [] := by
  decide

/-- Slashes at the end of a URL bring no dot segment into its path. -/
theorem dotFree_of_append_slashes {url : List Char} (hlast : url.getLast? ≠ some '/') {n : Nat}
    (h : DotFree (pathOf (url ++ List.replicate n '/'))) : DotFree (pathOf url) := by
  cases n with
  | zero => simpa using h
  | succ n =>
      rw [List.replicate_succ] at h
      by_cases hscheme : afterScheme url = []
      · rw [pathOf, hscheme]
        exact dotFree_nil
      · have hrest : afterScheme url = [] → (List.replicate n '/').head? ≠ some '/' :=
          fun h => absurd h hscheme
        by_cases hended : ∃ c ∈ url, endsPath c = true
        · rwa [pathOf_append_slash_of_ended hlast hrest hended] at h
        · have hplain : ∀ c ∈ url, endsPath c = false := by
            simpa using hended
          rw [pathOf_append_slash hlast hrest hplain] at h
          exact (dotFree_append_slash.mp h).1

end Reshape.Web

namespace Reshape.Issue

open Web Web.PercentEncoding

/-- The path of the root of an interface, which does not go on with slashes. -/
def basePath (root : String) : List Char :=
  pathOf (withoutEndSlashes root)

theorem dotFree_basePath {root : String} (h : DotFree (pathOf root.toList)) :
    DotFree (basePath root) := by
  obtain ⟨⟨n, hroot⟩, hlast⟩ := withoutEndSlashes_spec root
  rw [hroot] at h
  exact dotFree_of_append_slashes hlast h

theorem toList_url_append_slash (root issue : String) (query : Query) :
    (url root issue query).toList =
      withoutEndSlashes root ++
        '/' :: ("issue".toList ++ '/' :: (encode issue ++ query.marked)) := by
  rw [toList_url]
  simp

theorem mem_root_of_mem {root : String} {c : Char} (h : c ∈ withoutEndSlashes root) :
    c ∈ root.toList := by
  obtain ⟨⟨n, hroot⟩, -⟩ := withoutEndSlashes_spec root
  rw [hroot]
  exact List.mem_append_left _ h

theorem exists_mem_withoutEndSlashes {root : String} (h : ∃ c ∈ root.toList, endsPath c = true) :
    ∃ c ∈ withoutEndSlashes root, endsPath c = true := by
  obtain ⟨⟨n, hroot⟩, -⟩ := withoutEndSlashes_spec root
  obtain ⟨c, hc, hends⟩ := h
  rw [hroot] at hc
  rcases List.mem_append.mp hc with hc | hc
  · exact ⟨c, hc, hends⟩
  · rw [List.eq_of_mem_replicate hc] at hends
    cases hends

theorem not_endsPath_of_mem_encode {issue : String} : ∀ c ∈ encode issue, (!endsPath c) = true := by
  intro c hc
  have hquery : '?' ∉ encode issue := not_mem_encode (by simp) issue
  have hfragment : '#' ∉ encode issue := not_mem_encode (by simp) issue
  rw [endsPath, Bool.not_or, Bool.and_eq_true, Bool.not_eq_true', Bool.not_eq_true',
    decide_eq_false_iff_not, decide_eq_false_iff_not]
  exact ⟨fun h => hquery (h ▸ hc), fun h => hfragment (h ▸ hc)⟩

theorem takeWhile_marked (query : Query) : query.marked.takeWhile (!endsPath ·) = [] := by
  unfold Query.marked
  cases query.text? <;> rfl

section

variable {root : String} (issue : String) (query : Query)

theorem path_url (hplain : ∀ c ∈ root.toList, endsPath c = false) :
    pathOf (url root issue query).toList =
      basePath root ++ '/' :: "issue".toList ++ '/' :: encode issue := by
  have hbehind : ("issue".toList ++ '/' :: (encode issue ++ query.marked)).takeWhile (!endsPath ·) =
      "issue".toList ++ '/' :: encode issue := by
    have hkey : (encode issue ++ query.marked).takeWhile (!endsPath ·) = encode issue := by
      rw [List.takeWhile_append_of_pos not_endsPath_of_mem_encode, takeWhile_marked,
        List.append_nil]
    show "issue/".toList ++ (encode issue ++ query.marked).takeWhile (!endsPath ·) = _
    rw [hkey]
    rfl
  rw [toList_url_append_slash, pathOf_append_slash (withoutEndSlashes_spec root).2 (by simp)
    fun c hc => hplain c (mem_root_of_mem hc), hbehind]
  simp [basePath]

theorem path_url_of_ended (hended : ∃ c ∈ root.toList, endsPath c = true) :
    pathOf (url root issue query).toList = basePath root := by
  rw [toList_url_append_slash]
  exact pathOf_append_slash_of_ended (withoutEndSlashes_spec root).2 (by simp)
    (exists_mem_withoutEndSlashes hended)

end

theorem encode_dot : encode "." = ['.'] := by
  decide

theorem encode_dots : encode ".." = ['.', '.'] := by
  decide

theorem isOrdinary_encode_iff {issue : String} :
    IsOrdinary (encode issue) ↔ issue ≠ "." ∧ issue ≠ ".." := by
  rw [IsOrdinary, ← encode_dots, ← encode_dot]
  exact and_congr encode_inj.not encode_inj.not

theorem dotFree_collection {root : String} (hroot : DotFree (pathOf root.toList)) :
    DotFree (basePath root ++ '/' :: "issue".toList) := by
  exact dotFree_append_slash.mpr ⟨dotFree_basePath hroot, by decide⟩

theorem path_url_dot {root : String} (hroot : DotFree (pathOf root.toList))
    (hplain : ∀ c ∈ root.toList, endsPath c = false) (query : Query) :
    removeDotSegments (pathOf (url root "." query).toList) =
      basePath root ++ "/issue/".toList := by
  rw [path_url "." query hplain, encode_dot, removeDotSegments_dot (dotFree_collection hroot)]
  simp

theorem path_url_dots {root : String} (hroot : DotFree (pathOf root.toList))
    (hplain : ∀ c ∈ root.toList, endsPath c = false) (query : Query) :
    removeDotSegments (pathOf (url root ".." query).toList) = basePath root ++ "/".toList := by
  rw [path_url ".." query hplain, encode_dots,
    removeDotSegments_dots (by decide) (dotFree_collection hroot)]
  rfl

/-- The path of the URL of an issue is left as it is, and ends in a segment that stands for the key,
unless the key is `.` or `..`. -/
theorem path_url_kept_iff {root : String} (hroot : DotFree (pathOf root.toList)) (issue : String)
    (query : Query) :
    (removeDotSegments (pathOf (url root issue query).toList) =
        pathOf (url root issue query).toList ↔
      (issue ≠ "." ∧ issue ≠ "..") ∨ ∃ c ∈ root.toList, endsPath c = true) ∧
    ((∀ c ∈ root.toList, endsPath c = false) →
      (∃ segment, pathOf (url root issue query).toList =
          basePath root ++ "/issue/".toList ++ segment ∧
        '/' ∉ segment ∧ decode segment = some issue) ∧
      removeDotSegments (pathOf (url root "." query).toList) =
        basePath root ++ "/issue/".toList ∧
      removeDotSegments (pathOf (url root ".." query).toList) = basePath root ++ "/".toList) := by
  constructor
  · by_cases hended : ∃ c ∈ root.toList, endsPath c = true
    · have hkept := removeDotSegments_eq_self (dotFree_basePath hroot)
      simp [path_url_of_ended issue query hended, hkept, hended]
    · have hplain : ∀ c ∈ root.toList, endsPath c = false := by
        simpa using hended
      rw [or_iff_left hended]
      constructor
      · intro hkept
        constructor
        · rintro rfl
          rw [path_url_dot hroot hplain, path_url "." query hplain, encode_dot] at hkept
          simpa using congrArg List.length hkept
        · rintro rfl
          rw [path_url_dots hroot hplain, path_url ".." query hplain, encode_dots] at hkept
          simpa using congrArg List.length hkept
      · intro hissue
        apply removeDotSegments_eq_self
        rw [path_url issue query hplain, dotFree_append_slash,
          dotFree_iff_isOrdinary (not_mem_encode (by simp) issue), isOrdinary_encode_iff]
        exact ⟨dotFree_collection hroot, hissue⟩
  · intro hplain
    refine ⟨⟨encode issue, ?_, not_mem_encode (by simp) issue, decode_encode issue⟩,
      path_url_dot hroot hplain query, path_url_dots hroot hplain query⟩
    rw [path_url issue query hplain]
    simp

/-- Segments with more than dots are no dot segments, nor is one of three dots. -/
theorem path_url_kept_iff_threeDots :
    DotFree (pathOf "https://host/..a/.b//".toList) ∧
    (∀ c ∈ "https://host/..a/.b//".toList, endsPath c = false) ∧
    removeDotSegments (pathOf (url "https://host/..a/.b//" "..." ⟨some "f", none⟩).toList) =
      pathOf (url "https://host/..a/.b//" "..." ⟨some "f", none⟩).toList ∧
    removeDotSegments (pathOf (url "https://host/..a/.b//" ".." ⟨some "f", none⟩).toList) =
      "/..a/.b/".toList := by
  have hroot : DotFree (pathOf "https://host/..a/.b//".toList) := by
    decide
  have hplain : ∀ c ∈ "https://host/..a/.b//".toList, endsPath c = false := by
    simp [endsPath]
  obtain ⟨hkept, hparts⟩ := path_url_kept_iff hroot "..." ⟨some "f", none⟩
  exact ⟨hroot, hplain, hkept.mpr (.inl (by decide)), (hparts hplain).2.2⟩

/-- The key `..` is not blank, and leads to the root instead of an issue. -/
theorem path_url_leaves_collection :
    DotFree (pathOf "https://h:443/rest/api/2".toList) ∧
    Text.isBlank ".." = false ∧
    removeDotSegments (pathOf (url "https://h:443/rest/api/2" ".." ⟨none, none⟩).toList) =
      "/rest/api/2/".toList ∧
    removeDotSegments (pathOf (url "https://h:443/rest/api/2" ".." ⟨none, none⟩).toList) ≠
      pathOf (url "https://h:443/rest/api/2" ".." ⟨none, none⟩).toList := by
  have hroot : DotFree (pathOf "https://h:443/rest/api/2".toList) := by
    decide
  have hplain : ∀ c ∈ "https://h:443/rest/api/2".toList, endsPath c = false := by
    simp [endsPath]
  have hdots := path_url_dots hroot hplain ⟨none, none⟩
  refine ⟨hroot, by decide, hdots, ?_⟩
  rw [hdots]
  decide

end Reshape.Issue
