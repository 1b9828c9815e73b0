import Mathlib.Data.List.ReduceOption
import Reshape.Issue.Address
import Reshape.Proofs.PercentDecoding

/-!
What the query of an issue says.

The query parts at its ampersands into parameters, and each parameter at its first equals sign into
a name and an encoded value. What is read there are the values that are not empty, in order. So the
text of a query tells which one it is, except that an empty value does not differ from a missing
one.
-/

namespace Reshape.Issue

open Web.PercentEncoding

/-- A value that is there and not empty. -/
def given? (value? : Option String) : Option String :=
  value?.filter (· ≠ "")

def Query.withoutEmpty (query : Query) : Query :=
  ⟨given? query.fields, given? query.expand⟩

/-- The parameters of a query that are there and not empty, with their names. -/
def Query.supplied (query : Query) : List (String × String) :=
  ((given? query.fields).map ("fields", ·)).toList ++
    ((given? query.expand).map ("expand", ·)).toList

def parameterText (parameter : String × String) : List Char :=
  parameter.1.toList ++ '=' :: encode parameter.2

/-- Reads a parameter: the name stands before the first equals sign, the encoded value behind. -/
def readParameter? (text : List Char) : Option (String × String) := do
  let (name, encoded) ← dividedAt? '=' text
  return (String.ofList name, ← decode encoded)

def readQuery? (text : String) : Option (List (String × String)) :=
  (text.toList.splitOn '&').mapM readParameter?

theorem given?_eq_none_iff {value? : Option String} :
    given? value? = none ↔ value? = none ∨ value? = some "" := by
  cases value? <;> simp [given?]

theorem parameter?_eq (name : String) (value? : Option String) :
    parameter? name value? = (given? value?).map fun value => parameterText (name, value) := by
  cases value? with
  | none => rfl
  | some value =>
      by_cases hvalue : value = "" <;>
        simp [parameter?, given?, parameterText, hvalue, Option.filter]

theorem parameters_eq (query : Query) :
    query.parameters = query.supplied.map parameterText := by
  rw [Query.parameters, parameter?_eq, parameter?_eq, Query.supplied]
  cases given? query.fields <;> cases given? query.expand <;> rfl

theorem name_of_mem_supplied {query : Query} {parameter : String × String}
    (h : parameter ∈ query.supplied) : parameter.1 ∈ ["fields", "expand"] := by
  simp only [Query.supplied, List.mem_append, Option.mem_toList, Option.map_eq_some_iff] at h
  rcases h with ⟨value, -, rfl⟩ | ⟨value, -, rfl⟩ <;> simp

theorem not_mem_name_of_mem_supplied {c : Char} (hc : c ∈ ['/', '&', '=']) {query : Query}
    {parameter : String × String} (h : parameter ∈ query.supplied) :
    c ∉ parameter.1.toList := by
  have hnames : ∀ c ∈ ['/', '&', '='], ∀ name ∈ ["fields", "expand"], c ∉ name.toList := by
    simp
  exact hnames c hc _ (name_of_mem_supplied h)

theorem not_mem_parameterText {c : Char} (hc : c ∈ ['/', '&']) {query : Query}
    {parameter : String × String} (h : parameter ∈ query.supplied) :
    c ∉ parameterText parameter := by
  rcases List.mem_pair.mp hc with rfl | rfl <;>
    simp [parameterText, not_mem_encode, not_mem_name_of_mem_supplied _ h]

theorem readParameter?_parameterText {parameter : String × String}
    (hname : '=' ∉ parameter.1.toList) :
    readParameter? (parameterText parameter) = some parameter := by
  have hdivided : dividedAt? '=' (parameterText parameter) =
      some (parameter.1.toList, encode parameter.2) :=
    dividedAt?_eq_some.mpr ⟨rfl, hname⟩
  rw [readParameter?, hdivided]
  simp [decode_encode]

theorem mapM_readParameter? {parameters : List (String × String)}
    (hnames : ∀ parameter ∈ parameters, '=' ∉ parameter.1.toList) :
    (parameters.map parameterText).mapM readParameter? = some parameters := by
  induction parameters with
  | nil => rfl
  | cons parameter parameters ih =>
      obtain ⟨hname, hnames⟩ := List.forall_mem_cons.mp hnames
      rw [List.map_cons, List.mapM_cons, readParameter?_parameterText hname, ih hnames]
      rfl

theorem text?_eq_none_iff {query : Query} : query.text? = none ↔ query.supplied = [] := by
  rw [Query.text?, parameters_eq]
  cases query.supplied <;> simp

theorem text?_eq_some {query : Query} {text : String} (h : query.text? = some text) :
    query.supplied ≠ [] ∧
      text = String.ofList (['&'].intercalate (query.supplied.map parameterText)) := by
  rw [Query.text?, parameters_eq] at h
  cases hsupplied : query.supplied with
  | nil => simp [hsupplied] at h
  | cons parameter parameters =>
      rw [hsupplied] at h
      exact ⟨List.cons_ne_nil _ _, (Option.some.inj h).symm⟩

theorem readQuery?_of_text? {query : Query} {text : String} (h : query.text? = some text) :
    readQuery? text = some query.supplied := by
  obtain ⟨hne, rfl⟩ := text?_eq_some h
  have hmarks : ∀ piece ∈ query.supplied.map parameterText, '&' ∉ piece := by
    rintro _ hpiece
    obtain ⟨parameter, hparameter, rfl⟩ := List.mem_map.mp hpiece
    exact not_mem_parameterText (by simp) hparameter
  rw [readQuery?, String.toList_ofList, List.splitOn_intercalate '&' hmarks (by simpa using hne)]
  exact mapM_readParameter? fun _ => not_mem_name_of_mem_supplied (by simp)

theorem lookup_supplied (query : Query) :
    query.supplied.lookup "fields" = given? query.fields ∧
      query.supplied.lookup "expand" = given? query.expand := by
  unfold Query.supplied
  cases given? query.fields <;> cases given? query.expand <;> exact ⟨rfl, rfl⟩

theorem supplied_inj {query other : Query} (h : query.supplied = other.supplied) :
    query.withoutEmpty = other.withoutEmpty := by
  obtain ⟨hfields, hexpand⟩ := lookup_supplied query
  obtain ⟨hfields', hexpand'⟩ := lookup_supplied other
  rw [Query.withoutEmpty, ← hfields, ← hexpand, h, hfields', hexpand']
  rfl

/-- There is a text of a query unless each value is missing or empty, and what is read from it are
the other values. So two queries have one text just if they differ at most in empty values. -/
theorem query_reads (query : Query) :
    (query.text? = none ↔ (query.fields = none ∨ query.fields = some "") ∧
      (query.expand = none ∨ query.expand = some "")) ∧
    (∀ text, query.text? = some text → readQuery? text = some query.supplied) ∧
    ∀ other : Query, query.text? = other.text? ↔ query.withoutEmpty = other.withoutEmpty := by
  refine ⟨?_, fun _ => readQuery?_of_text?, fun other => ⟨?_, ?_⟩⟩
  · rw [text?_eq_none_iff, ← given?_eq_none_iff, ← given?_eq_none_iff]
    simp [Query.supplied]
  · intro h
    apply supplied_inj
    cases htext : query.text? with
    | none =>
        rw [text?_eq_none_iff.mp htext, text?_eq_none_iff.mp (h ▸ htext)]
    | some text =>
        have hread := readQuery?_of_text? htext
        rw [readQuery?_of_text? (h ▸ htext)] at hread
        exact (Option.some.inj hread).symm
  · intro h
    have hsupplied : query.supplied = other.supplied := by
      obtain ⟨hfields, hexpand⟩ := Query.mk.inj h
      rw [Query.supplied, Query.supplied, hfields, hexpand]
    rw [Query.text?, Query.text?, parameters_eq, parameters_eq, hsupplied]

example : (⟨some "a&b=%", some "+ é"⟩ : Query).text? =
    some "fields=a%26b%3D%25&expand=%2B%20%C3%A9" := by
  decide

end Reshape.Issue
