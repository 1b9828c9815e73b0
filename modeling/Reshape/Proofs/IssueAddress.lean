import Mathlib.Data.List.DropRight
import Reshape.Proofs.QueryReading

/-!
What the URL of an issue says.

The URL parts at its last slash, and what is behind the slash at its first question mark, into what
is below the root, the encoded key and the query. No key holds one of these marks once it is
encoded, and no query a slash, so the parts are found again whatever the root, the key and the
query are made of.
-/

namespace Reshape.Issue

open Web.PercentEncoding

/-- What is left of a text without the slashes at its end is what stands before them, and ends in
none itself. -/
theorem withoutEndSlashes_spec (text : String) :
    (∃ n, text.toList = withoutEndSlashes text ++ List.replicate n '/') ∧
      (withoutEndSlashes text).getLast? ≠ some '/' := by
  change (∃ n, text.toList = text.toList.rdropWhile (· = '/') ++ _) ∧
    (text.toList.rdropWhile (· = '/')).getLast? ≠ some '/'
  induction text.toList using List.reverseRecOn with
  | nil => exact ⟨⟨0, rfl⟩, by simp⟩
  | append_singleton front c ih =>
      obtain ⟨⟨n, hfront⟩, hlast⟩ := ih
      by_cases hc : c = '/'
      · rw [List.rdropWhile_concat_pos _ _ _ (by simpa using hc)]
        refine ⟨⟨n + 1, ?_⟩, hlast⟩
        rw [List.replicate_succ', ← List.append_assoc, ← hfront, hc]
      · rw [List.rdropWhile_concat_neg _ _ _ (by simpa using hc)]
        exact ⟨⟨0, by simp⟩, by simpa using hc⟩

theorem slash_not_mem_query {query : Query} {text : String} (h : query.text? = some text) :
    '/' ∉ text.toList := by
  obtain ⟨-, rfl⟩ := text?_eq_some h
  have hpieces : ∀ c ∈ ['&'].intercalate (query.supplied.map parameterText), c ≠ '/' := by
    refine forall_mem_intercalate (by simp) ?_
    rintro _ hpiece c hc rfl
    obtain ⟨parameter, hparameter, rfl⟩ := List.mem_map.mp hpiece
    exact not_mem_parameterText (by simp) hparameter hc
  rw [String.toList_ofList]
  exact fun hslash => hpieces '/' hslash rfl

/-- The query with the question mark before it, if there is one. -/
def Query.marked (query : Query) : List Char :=
  match query.text? with
  | some text => '?' :: text.toList
  | none => []

theorem toList_url (root issue : String) (query : Query) :
    (url root issue query).toList =
      withoutEndSlashes root ++ "/issue".toList ++ '/' :: (encode issue ++ query.marked) := by
  unfold url Query.marked
  cases query.text? <;> simp

/-- A URL shows what is below the root, a key and a query: behind the last slash, and there before
and behind the first question mark. -/
structure Shows (url base : List Char) (issue : String) (query? : Option String)
    (behind : List Char) : Prop where
  slash : url = base ++ '/' :: behind
  last : '/' ∉ behind
  key : decode (behind.takeWhile (· ≠ '?')) = some issue
  mark : '?' ∈ behind ↔ query?.isSome
  query : ∀ text, query? = some text → behind.dropWhile (· ≠ '?') = '?' :: text.toList

theorem shows_url (root issue : String) (query : Query) :
    Shows (url root issue query).toList (withoutEndSlashes root ++ "/issue".toList) issue
      query.text? (encode issue ++ query.marked) := by
  have hkey : ∀ c ∈ encode issue, decide (c ≠ '?') = true := by
    rintro c hc
    exact decide_eq_true fun h => not_mem_encode (by simp [h]) issue hc
  have hmark : '?' ∉ encode issue := not_mem_encode (by simp) issue
  have hslash : '/' ∉ encode issue := not_mem_encode (by simp) issue
  refine ⟨toList_url root issue query, ?_, ?_, ?_, ?_⟩
  · rw [List.mem_append, not_or, Query.marked]
    refine ⟨hslash, ?_⟩
    cases htext : query.text? with
    | none => simp
    | some text => simp [slash_not_mem_query htext]
  · have hmarked : query.marked.takeWhile (· ≠ '?') = [] := by
      unfold Query.marked
      cases query.text? <;> simp
    rw [List.takeWhile_append_of_pos hkey, hmarked, List.append_nil, decode_encode]
  · unfold Query.marked
    cases query.text? <;> simp [hmark]
  · intro text htext
    rw [List.dropWhile_append_of_pos hkey, Query.marked, htext]
    simp

theorem append_slash_inj {base base' behind behind' : List Char} (hbehind : '/' ∉ behind)
    (hbehind' : '/' ∉ behind') (h : base ++ '/' :: behind = base' ++ '/' :: behind') :
    base = base' ∧ behind = behind' := by
  -- Else one of the two slashes stands behind the other.
  rcases List.append_eq_append_iff.mp h with ⟨more, rfl, hmore⟩ | ⟨more, rfl, hmore⟩
  · cases more with
    | nil => simpa using hmore
    | cons c more =>
        obtain ⟨-, rfl⟩ := List.cons.inj hmore
        simp at hbehind
  · cases more with
    | nil => simpa using hmore.symm
    | cons c more =>
        obtain ⟨-, rfl⟩ := List.cons.inj hmore
        simp at hbehind'

theorem Shows.unique {url base base' behind behind' : List Char} {issue issue' : String}
    {query? query?' : Option String} (h : Shows url base issue query? behind)
    (h' : Shows url base' issue' query?' behind') :
    base = base' ∧ issue = issue' ∧ query? = query?' := by
  obtain ⟨rfl, rfl⟩ := append_slash_inj h.last h'.last (h.slash.symm.trans h'.slash)
  refine ⟨rfl, Option.some.inj (h.key.symm.trans h'.key), ?_⟩
  have hsome : query?.isSome ↔ query?'.isSome := h.mark.symm.trans h'.mark
  cases htext : query? with
  | none => simp_all
  | some text =>
      obtain ⟨text', htext'⟩ := Option.isSome_iff_exists.mp (hsome.mp (by simp [htext]))
      have hdrop := (h.query text htext).symm.trans (h'.query text' htext')
      rw [htext', String.toList_inj.mp (List.cons.inj hdrop).2]

/-- The URL of an issue shows the root without the slashes at its end, the key and the query, so no
other root, key or query has this URL. -/
theorem url_shows (root issue : String) (query : Query) :
    (∃ behind, Shows (url root issue query).toList (withoutEndSlashes root ++ "/issue".toList) issue
      query.text? behind) ∧
    ((∃ n, root.toList = withoutEndSlashes root ++ List.replicate n '/') ∧
      (withoutEndSlashes root).getLast? ≠ some '/') ∧
    ∀ root' issue' query', url root issue query = url root' issue' query' ↔
      withoutEndSlashes root = withoutEndSlashes root' ∧ issue = issue' ∧
        query.text? = query'.text? := by
  refine ⟨⟨_, shows_url root issue query⟩, withoutEndSlashes_spec root, ?_⟩
  intro root' issue' query'
  constructor
  · intro h
    have hshows := shows_url root issue query
    rw [h] at hshows
    obtain ⟨hbase, hissue, hquery⟩ := hshows.unique (shows_url root' issue' query')
    exact ⟨List.append_cancel_right hbase, hissue, hquery⟩
  · rintro ⟨hroot, rfl, hquery⟩
    rw [url, url, hroot, hquery]

example : url "https://host/rest?x//" "A/B?" ⟨some "a&b", none⟩ =
    "https://host/rest?x/issue/A%2FB%3F?fields=a%26b" := by
  decide

end Reshape.Issue
