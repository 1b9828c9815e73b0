import Mathlib.Data.List.Forall2

/-!
Results that may be faults, and texts.

What is run and gives no fault has given none at any of its steps (`map_eq_ok`, `bind_eq_ok`,
`mapM_eq_ok`), and a fault that ends it is that of its first step at fault (`bind_eq_error`,
`mapM_eq_error`). A text is divided at the first of its marks (`dividedAt?_eq_some`).
-/

namespace Reshape

theorem map_eq_ok {α β ε : Type} {f : α → β} {result : Except ε α} {b : β} :
    result.map f = .ok b ↔ ∃ a, result = .ok a ∧ f a = b := by
  cases result <;> simp [Except.map]

theorem mapError_eq_ok {α ε ε' : Type} {f : ε → ε'} {result : Except ε α} {a : α} :
    result.mapError f = .ok a ↔ result = .ok a := by
  cases result with
  | ok value =>
      constructor
      · rintro ⟨⟩
        rfl
      · rintro ⟨⟩
        rfl
  | error fault =>
      constructor
      · rintro ⟨⟩
      · rintro ⟨⟩

theorem bind_eq_ok {α β ε : Type} {f : α → Except ε β} {result : Except ε α} {b : β} :
    (result >>= f) = .ok b ↔ ∃ a, result = .ok a ∧ f a = .ok b := by
  cases result <;> simp [bind, Except.bind]

theorem bind_eq_error {α β ε : Type} {f : α → Except ε β} {result : Except ε α} {error : ε} :
    (result >>= f) = .error error ↔
      result = .error error ∨ ∃ a, result = .ok a ∧ f a = .error error := by
  cases result <;> simp [bind, Except.bind]

theorem mapM_eq_ok {α β ε : Type} {f : α → Except ε β} {items : List α} {results : List β} :
    items.mapM f = .ok results ↔ List.Forall₂ (fun item b => f item = .ok b) items results := by
  induction items generalizing results with
  | nil => cases results <;> simp [pure, Except.pure]
  | cons item items ih =>
      rw [List.mapM_cons, List.forall₂_cons_left_iff, bind_eq_ok]
      constructor
      · rintro ⟨b, hb, h⟩
        obtain ⟨others, hothers, h⟩ := bind_eq_ok.mp h
        exact ⟨b, others, hb, ih.mp hothers, (Except.ok.inj h).symm⟩
      · rintro ⟨b, others, hb, hothers, rfl⟩
        exact ⟨b, hb, bind_eq_ok.mpr ⟨others, ih.mpr hothers, rfl⟩⟩

/-- What runs through a list of items ends with the fault of the first item that has one. -/
theorem mapM_eq_error {α β ε : Type} {f : α → Except ε β} {items : List α} {error : ε} :
    items.mapM f = .error error ↔ ∃ before item after, items = before ++ item :: after ∧
      (∀ other ∈ before, ∃ b, f other = .ok b) ∧ f item = .error error := by
  induction items with
  | nil => simp [pure, Except.pure]
  | cons item items ih =>
      rw [List.mapM_cons, bind_eq_error]
      constructor
      · rintro (hitem | ⟨b, hb, h⟩)
        · exact ⟨[], item, items, rfl, by simp, hitem⟩
        · have hrest : items.mapM f = .error error := by
            rcases bind_eq_error.mp h with h | ⟨_, -, ⟨⟩⟩
            exact h
          obtain ⟨before, other, after, rfl, hbefore, hother⟩ := ih.mp hrest
          exact ⟨item :: before, other, after, rfl,
            List.forall_mem_cons.mpr ⟨⟨b, hb⟩, hbefore⟩, hother⟩
      · rintro ⟨_ | ⟨first, before⟩, other, after, hitems, hbefore, hother⟩
        · obtain ⟨rfl, rfl⟩ := List.cons.inj hitems
          exact .inl hother
        · obtain ⟨rfl, rfl⟩ := List.cons.inj hitems
          obtain ⟨⟨b, hb⟩, hbefore⟩ := List.forall_mem_cons.mp hbefore
          have hrest := ih.mpr ⟨before, other, after, rfl, hbefore, hother⟩
          exact .inr ⟨b, hb, bind_eq_error.mpr (.inl hrest)⟩

/-! ### Texts -/

theorem forall_mem_intercalate {holds : Char → Prop} {separator : List Char}
    {texts : List (List Char)} (hseparator : ∀ c ∈ separator, holds c)
    (htexts : ∀ text ∈ texts, ∀ c ∈ text, holds c) :
    ∀ c ∈ List.intercalate separator texts, holds c := by
  induction texts with
  | nil => simp
  | cons text texts ih =>
      obtain ⟨htext, htexts⟩ := List.forall_mem_cons.mp htexts
      cases texts with
      | nil => simpa using htext
      | cons second texts =>
          rw [List.intercalate_cons_cons]
          exact List.forall_mem_append.mpr
            ⟨List.forall_mem_append.mpr ⟨htext, hseparator⟩, ih htexts⟩

theorem filter_intercalate (keep : Char → Bool) (separator : List Char)
    (texts : List (List Char)) :
    (List.intercalate separator texts).filter keep =
      List.intercalate (separator.filter keep) (texts.map (·.filter keep)) := by
  induction texts with
  | nil => simp
  | cons text texts ih =>
      cases texts with
      | nil => simp
      | cons second texts =>
          simp only [List.intercalate_cons_cons, List.filter_append, ih, List.map_cons]

theorem intercalate_append {separator : List Char} {texts others : List (List Char)}
    (htexts : texts ≠ []) (hothers : others ≠ []) :
    separator.intercalate (texts ++ others) =
      separator.intercalate texts ++ separator ++ separator.intercalate others := by
  induction texts with
  | nil => exact (htexts rfl).elim
  | cons text texts ih =>
      cases texts with
      | nil => simp [List.intercalate_cons_of_ne_nil hothers]
      | cons second texts =>
          rw [List.cons_append, List.intercalate_cons_of_ne_nil (by simp), ih (by simp),
            List.intercalate_cons_cons]
          simp only [List.append_assoc]

/-- To join what is joined already is to join all of it at once. -/
theorem intercalate_map_intercalate {α : Type} {separator : List Char} {items : List α}
    {texts : α → List (List Char)} (h : ∀ item ∈ items, texts item ≠ []) :
    separator.intercalate (items.map fun item => separator.intercalate (texts item)) =
      separator.intercalate (items.flatMap texts) := by
  induction items with
  | nil => rfl
  | cons item items ih =>
      obtain ⟨hitem, hitems⟩ := List.forall_mem_cons.mp h
      by_cases hne : items = []
      · simp [hne]
      · have hrest : items.flatMap texts ≠ [] := by
          obtain ⟨second, items, rfl⟩ := List.exists_cons_of_ne_nil hne
          simp [hitems second]
        rw [List.map_cons, List.intercalate_cons_of_ne_nil (by simpa using hne), ih hitems,
          List.flatMap_cons, intercalate_append hitem hrest]

theorem length_le_intercalate_of_mem {separator text : List Char} {texts : List (List Char)}
    (h : text ∈ texts) : text.length ≤ (List.intercalate separator texts).length := by
  induction texts with
  | nil => simp at h
  | cons first texts ih =>
      cases texts with
      | nil => simp_all
      | cons second texts =>
          rw [List.intercalate_cons_cons, List.length_append, List.length_append]
          rcases List.mem_cons.mp h with rfl | h
          · omega
          · have := ih h
            omega

/-- The two parts of a text before and behind the first place where a mark stands. -/
def dividedAt? (mark : Char) : List Char → Option (List Char × List Char)
  | [] => none
  | c :: rest =>
      if c = mark then some ([], rest)
      else (dividedAt? mark rest).map fun (front, back) => (c :: front, back)

theorem dividedAt?_eq_some {mark : Char} {text front back : List Char} :
    dividedAt? mark text = some (front, back) ↔ text = front ++ mark :: back ∧ mark ∉ front := by
  induction text generalizing front with
  | nil => simp [dividedAt?]
  | cons c rest ih =>
      rw [dividedAt?]
      split
      · rename_i hmark
        subst hmark
        constructor
        · rintro ⟨⟩
          exact ⟨rfl, by simp⟩
        · rintro ⟨htext, hfront⟩
          cases front with
          | nil => rw [(List.cons.inj htext).2]
          | cons first front => simp_all
      · rename_i hmark
        rw [Option.map_eq_some_iff]
        constructor
        · rintro ⟨⟨front, _⟩, hrest, ⟨⟩⟩
          obtain ⟨rfl, hfront⟩ := ih.mp hrest
          exact ⟨rfl, by simp [hfront, Ne.symm hmark]⟩
        · rintro ⟨htext, hfront⟩
          cases front with
          | nil => simp_all
          | cons first front =>
              obtain ⟨rfl, rfl⟩ := List.cons.inj htext
              exact ⟨(front, back), ih.mpr ⟨rfl, by simp_all⟩, rfl⟩

theorem not_mem_of_dividedAt? {mark : Char} {text : List Char}
    (h : dividedAt? mark text = none) : mark ∉ text := by
  intro hmem
  obtain ⟨front, back, hparts⟩ := List.eq_append_cons_of_mem hmem
  rw [dividedAt?_eq_some.mpr hparts] at h
  cases h

theorem fromUTF8?_toByteArray (text : String) : String.fromUTF8? text.toByteArray = some text := by
  rw [String.fromUTF8?, dif_pos text.isValidUTF8]
  rfl

end Reshape
