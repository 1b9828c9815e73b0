import Reshape.Proofs.LosslessWriting

/-!
The characters of written documents.

Whatever holds of the characters of scalars and of those between them holds of all characters of a
text, in either layout (`IsLayout.forall_mem`). So a pretty text holds no control characters but
line breaks and U+007F, which may stand raw in strings and keys. To drop U+007F from a text is to
write the document with that character dropped from each string and key (`IsLayout.filter`).
-/

namespace Reshape

/-- A text with the control character U+007F taken out. -/
def withoutDelete (text : String) : String :=
  String.ofList (text.toList.filter (· ≠ '\x7f'))

theorem withoutDelete_eq_self {text : String} (h : '\x7f' ∉ text.toList) :
    withoutDelete text = text := by
  have hkept : text.toList.filter (· ≠ '\x7f') = text.toList := by
    apply List.filter_eq_self.mpr
    intro c hc
    exact decide_eq_true fun heq => h (heq ▸ hc)
  rw [withoutDelete, hkept, String.ofList_toList]

theorem not_mem_withoutDelete (text : String) : '\x7f' ∉ (withoutDelete text).toList := by
  simp [withoutDelete]

namespace Json

/-! ### Changed texts -/

mutual

/-- A document with each of its strings and keys changed. -/
def mapTexts (change : String → String) : Json → Json
  | .str text => .str (change text)
  | .arr items => .arr (mapItemTexts change items)
  | .obj members => .obj (mapMemberTexts change members)
  | scalar => scalar

def mapItemTexts (change : String → String) : List Json → List Json
  | [] => []
  | item :: items => mapTexts change item :: mapItemTexts change items

def mapMemberTexts (change : String → String) : List (String × Json) → List (String × Json)
  | [] => []
  | (key, value) :: members => (change key, mapTexts change value) :: mapMemberTexts change members

end

theorem mapTexts_of_kind_ne {value : Json} (hsequence : value.kind ≠ .sequence)
    (hmapping : value.kind ≠ .mapping) (hstring : value.kind ≠ .string)
    (change : String → String) : mapTexts change value = value := by
  cases value with
  | str text => exact (hstring rfl).elim
  | arr items => exact (hsequence rfl).elim
  | obj members => exact (hmapping rfl).elim
  | _ => rfl

theorem mapTexts_arr (change : String → String) (items : List Json) :
    mapTexts change (.arr items) = .arr (items.map (mapTexts change)) := by
  rw [mapTexts]
  congr 1
  induction items with
  | nil => rfl
  | cons item items ih => rw [mapItemTexts, ih, List.map_cons]

theorem mapTexts_obj (change : String → String) (members : List (String × Json)) :
    mapTexts change (.obj members) =
      .obj (members.map fun member => (change member.1, mapTexts change member.2)) := by
  rw [mapTexts]
  congr 1
  induction members with
  | nil => rfl
  | cons member members ih => rw [mapMemberTexts, ih, List.map_cons]

/-- A character is in none of the strings and keys of a document. -/
structure Lacks (c : Char) (value : Json) : Prop where
  strings : ∀ text, Occurs (.str text) value → c ∉ text.toList
  keys : ∀ key, HasKey key value → c ∉ key.toList

theorem lacks_iff_madeOf {c : Char} {value : Json} :
    value.Lacks c ↔
      MadeOf (fun part => ∀ text, part = .str text → c ∉ text.toList) (c ∉ ·.toList) value := by
  constructor
  · rintro ⟨hstrings, hkeys⟩
    exact ⟨fun _ _ _ hpart text heq => hstrings text (heq ▸ hpart), hkeys⟩
  · rintro ⟨hscalars, hkeys⟩
    exact ⟨fun text htext => hscalars _ (by simp [kind]) (by simp [kind]) htext text rfl, hkeys⟩

/-- A document whose texts a change leaves as they are is left as it is. -/
theorem mapTexts_eq_self {change : String → String} {value : Json}
    (h : MadeOf (fun part => ∀ text, part = .str text → change text = text)
      (fun key => change key = key) value) : mapTexts change value = value := by
  induction value with
  | str text =>
      rw [mapTexts, madeOf_str.mp h text rfl]
  | arr items ih =>
      have hitems := madeOf_arr.mp h
      rw [mapTexts_arr, List.map_congr_left fun item hitem => ih item hitem (hitems item hitem),
        List.map_id']
  | obj members ih =>
      obtain ⟨hkeys, hvalues⟩ := madeOf_obj.mp h
      have hmembers : ∀ member ∈ members, (change member.1, mapTexts change member.2) = member := by
        intro member hmember
        rw [hkeys _ (List.mem_map_of_mem hmember), ih member hmember (hvalues member hmember)]
      rw [mapTexts_obj, List.map_congr_left hmembers, List.map_id']
  | _ => rfl

theorem madeOf_mapTexts {change : String → String} {scalars : Json → Prop} {keys : String → Prop}
    (hstrings : ∀ text, scalars (.str (change text))) (hkeys : ∀ key, keys (change key))
    {value : Json} (h : ∀ part, part.kind ≠ .sequence → part.kind ≠ .mapping →
      part.kind ≠ .string → Occurs part value → scalars part) :
    MadeOf scalars keys (mapTexts change value) := by
  induction value with
  | str text => exact madeOf_str.mpr (hstrings text)
  | arr items ih =>
      rw [mapTexts_arr, madeOf_arr]
      rintro _ hitem
      obtain ⟨item, hmem, rfl⟩ := List.mem_map.mp hitem
      exact ih item hmem fun part hsequence hmapping hstring hpart =>
        h part hsequence hmapping hstring (.item hmem hpart)
  | obj members ih =>
      rw [mapTexts_obj, madeOf_obj]
      constructor
      · intro key hkey
        simp only [List.map_map, List.mem_map] at hkey
        obtain ⟨member, -, rfl⟩ := hkey
        exact hkeys member.1
      · rintro _ hmember
        obtain ⟨member, hmem, rfl⟩ := List.mem_map.mp hmember
        exact ih member hmem fun part hsequence hmapping hstring hpart =>
          h part hsequence hmapping hstring (.member hmem hpart)
  | _ =>
      rw [mapTexts_of_kind_ne (by simp [kind]) (by simp [kind]) (by simp [kind]),
        madeOf_scalar (by simp [kind]) (by simp [kind])]
      exact h _ (by simp [kind]) (by simp [kind]) (by simp [kind]) .whole

/-- What a document has by its parts is not lost when members with one key are united. -/
theorem holds_united {holds : Json → Prop} {keysHold : List String → Prop}
    (h : ByParts holds keysHold) {value : Json} (hvalue : holds value) : holds value.united := by
  induction value with
  | arr items ih =>
      rw [united, unitedItems_eq_map]
      apply h.arr.mpr
      rintro _ hitem
      obtain ⟨item, hmem, rfl⟩ := List.mem_map.mp hitem
      exact ih item hmem (h.arr.mp hvalue item hmem)
  | obj members ih =>
      obtain ⟨hkeys, hvalues⟩ := h.obj.mp hvalue
      have hunite : ∀ (rest held : List (String × Json)), rest ⊆ members → holds (.obj held) →
          holds (.obj (unite held rest)) := by
        intro rest
        induction rest with
        | nil => exact fun _ _ hheld => hheld
        | cons member rest ihrest =>
            obtain ⟨key, value⟩ := member
            intro held hrest hheld
            have hmember : (key, value) ∈ members := hrest (List.mem_cons_self ..)
            refine ihrest _ (fun _ hmem => hrest (List.mem_cons_of_mem _ hmem)) ?_
            exact h.amend hheld hkeys (List.mem_map_of_mem hmember)
              (ih _ hmember (hvalues _ hmember))
      exact hunite members [] (fun _ hmem => hmem) h.empty
  | _ => exact hvalue

/-! ### The characters of a text -/

/-- Of the characters in an escape none is a control, but for a raw U+007F. -/
theorem mem_escaped {c part : Char} (h : part ∈ escaped c) :
    0x20 ≤ part.toNat ∧ (part = '\x7f' → c = '\x7f') := by
  have hplain : ∀ parts : List Char, (parts.all fun part => 0x20 ≤ part.toNat ∧ part ≠ '\x7f') →
      part ∈ parts → 0x20 ≤ part.toNat ∧ (part = '\x7f' → c = '\x7f') := by
    intro parts hparts hpart
    obtain ⟨hcontrol, hdelete⟩ := List.all_iff_forall_prop.mp hparts part hpart
    exact ⟨hcontrol, fun heq => (hdelete heq).elim⟩
  have hunit : ∀ n < 0x20, ['\\', 'u', '0', '0', hexDigit (n / 16), hexDigit (n % 16)].all
      fun part => 0x20 ≤ part.toNat ∧ part ≠ '\x7f' := by
    decide
  unfold escaped at h
  -- Seven characters have an escape with a letter or a mark of its own.
  iterate 7
    split at h
    · exact hplain _ (by decide) h
  split at h
  · rename_i hcontrol
    exact hplain _ (hunit _ hcontrol) h
  · rename_i hcontrol
    obtain rfl := List.mem_singleton.mp h
    exact ⟨Nat.le_of_not_lt hcontrol, id⟩

theorem filter_escaped (c : Char) :
    (escaped c).filter (· ≠ '\x7f') = if c = '\x7f' then [] else escaped c := by
  split
  · subst c
    rfl
  · rename_i hc
    apply List.filter_eq_self.mpr
    intro part hpart
    exact decide_eq_true fun heq => hc ((mem_escaped hpart).2 heq)

theorem filter_quoted (text : String) :
    (quoted text).filter (· ≠ '\x7f') = quoted (withoutDelete text) := by
  have hbody : ∀ chars : List Char, (chars.flatMap escaped).filter (· ≠ '\x7f') =
      (chars.filter (· ≠ '\x7f')).flatMap escaped := by
    intro chars
    induction chars with
    | nil => rfl
    | cons c chars ih =>
        rw [List.flatMap_cons, List.filter_append, filter_escaped, ih]
        by_cases hc : c = '\x7f' <;> simp [hc]
  simpa [quoted, withoutDelete] using hbody text.toList

end Json

/-- The characters that numbers are written with. -/
def isNumeral (c : Char) : Bool :=
  c.isDigit || c = '-' || c = '+' || c = '.' || c = 'e'

theorem isNumeral_of_isDigit {c : Char} (h : c.isDigit) : isNumeral c := by
  simp [isNumeral, h]

namespace Json

theorem Numeral.Proper.isNumeral_of_mem {n : Numeral} (h : n.Proper) :
    ∀ c ∈ n.text, isNumeral c := by
  obtain ⟨whole, fraction?, exponent?⟩ := n
  simp only [Numeral.text, List.forall_mem_append]
  refine ⟨fun c hc => isNumeral_of_isDigit (h.whole c hc), ?_, ?_⟩
  · cases fraction? with
    | none => exact List.forall_mem_nil _
    | some fraction =>
        exact List.forall_mem_cons.mpr
          ⟨rfl, fun c hc => isNumeral_of_isDigit ((h.fraction fraction rfl).2 c hc)⟩
  · cases exponent? with
    | none => exact List.forall_mem_nil _
    | some exponent =>
        simp only [Option.elim_some, Numeral.exponentText, List.forall_mem_cons]
        refine ⟨rfl, ?_, fun c hc => isNumeral_of_isDigit (isDigit_of_mem_toDigits hc)⟩
        split <;> rfl

theorem isNumeral_of_mem_text {number : Number} {c : Char} (h : c ∈ number.text) :
    isNumeral c := by
  obtain ⟨negative, n, hproper, htext, -⟩ := exists_spells number
  rw [htext] at h
  rcases List.mem_append.mp h with h | h
  · cases negative with
    | false => cases h
    | true =>
        obtain rfl := List.mem_singleton.mp h
        rfl
  · exact hproper.isNumeral_of_mem c h

theorem printing_of_isNumeral {c : Char} (h : isNumeral c) : 0x20 ≤ c.toNat ∧ c ≠ '\x7f' := by
  simp only [isNumeral, Bool.or_eq_true, decide_eq_true_eq] at h
  rcases h with (((h | rfl) | rfl) | rfl) | rfl
  · have hrange : 48 ≤ c.toNat ∧ c.toNat ≤ 57 := Char.isDigit_iff_toNat.mp h
    refine ⟨by omega, ?_⟩
    rintro rfl
    simp at hrange
  all_goals decide

/-! ### The characters of a layout -/

theorem filter_blank {blanks : List Char} (hblanks : AllBlank blanks) :
    blanks.filter (· ≠ '\x7f') = blanks := by
  apply List.filter_eq_self.mpr
  intro c hc
  apply decide_eq_true
  rintro rfl
  exact absurd (hblanks _ hc) (by decide)

theorem filter_cons {c : Char} (hc : c ≠ '\x7f') (text : List Char) :
    (c :: text).filter (· ≠ '\x7f') = c :: text.filter (· ≠ '\x7f') :=
  List.filter_cons_of_pos (decide_eq_true hc)

theorem filter_scalarText {value : Json} (hstring : value.kind ≠ .string) :
    (scalarText value).filter (· ≠ '\x7f') = scalarText value := by
  cases value with
  | str text => exact (hstring rfl).elim
  | num number =>
      apply List.filter_eq_self.mpr
      intro c hc
      exact decide_eq_true (printing_of_isNumeral (isNumeral_of_mem_text hc)).2
  | bool value => cases value <;> rfl
  | _ => rfl

section

variable {write : Nat → Json → List Char} {gap : Nat → List Char} {space : List Char}
  (h : IsLayout write gap space)

include h

/-- What holds of the characters of scalars and of those between them holds of every character of
a document. -/
theorem IsLayout.forall_mem {holds : Char → Prop}
    (hmarks : ∀ c ∈ ['[', ']', '{', '}', ',', ':'], holds c)
    (hgap : ∀ level, ∀ c ∈ gap level, holds c) (hspace : ∀ c ∈ space, holds c)
    (hscalar : ∀ value, ∀ c ∈ scalarText value, holds c) (level : Nat) (value : Json) :
    ∀ c ∈ write level value, holds c := by
  simp only [List.forall_mem_cons] at hmarks
  obtain ⟨hopen, hclose, hopenBrace, hcloseBrace, hcomma, hcolon, -⟩ := hmarks
  induction value generalizing level with
  | arr items ih =>
      by_cases hne : items = []
      · subst hne
        rw [h.noItems]
        simp [hopen, hclose]
      · have hitems : ∀ text ∈ items.map (write (level + 1)), ∀ c ∈ text, holds c := by
          rintro _ htext
          obtain ⟨item, hitem, rfl⟩ := List.mem_map.mp htext
          exact ih item hitem (level + 1)
        rw [h.items level items hne]
        simp only [List.cons_append, List.forall_mem_append, List.forall_mem_cons]
        exact ⟨hopen, ⟨⟨hgap _, forall_mem_intercalate
          (List.forall_mem_cons.mpr ⟨hcomma, hgap _⟩) hitems⟩, hgap _⟩, hclose, by simp⟩
  | obj members ih =>
      by_cases hne : members = []
      · subst hne
        rw [h.noMembers]
        simp [hopenBrace, hcloseBrace]
      · have hmembers : ∀ text ∈ members.map (memberText space (write (level + 1))),
            ∀ c ∈ text, holds c := by
          rintro _ htext
          obtain ⟨member, hmember, rfl⟩ := List.mem_map.mp htext
          simp only [memberText, List.forall_mem_append, List.forall_mem_cons]
          exact ⟨hscalar (.str member.1), hcolon, hspace, ih member hmember (level + 1)⟩
        rw [h.members level members hne]
        simp only [List.cons_append, List.forall_mem_append, List.forall_mem_cons]
        exact ⟨hopenBrace, ⟨⟨hgap _, forall_mem_intercalate
          (List.forall_mem_cons.mpr ⟨hcomma, hgap _⟩) hmembers⟩, hgap _⟩, hcloseBrace, by simp⟩
  | _ =>
      rw [h.scalar level _ (by simp [kind]) (by simp [kind])]
      exact hscalar _

/-- To drop U+007F from the text of a document is to write the document without it. -/
theorem IsLayout.filter (level : Nat) (value : Json) :
    (write level value).filter (· ≠ '\x7f') = write level (value.mapTexts withoutDelete) := by
  induction value generalizing level with
  | str text =>
      rw [h.scalar level _ (by simp [kind]) (by simp [kind]), mapTexts,
        h.scalar level _ (by simp [kind]) (by simp [kind])]
      exact filter_quoted text
  | arr items ih =>
      rw [mapTexts_arr]
      by_cases hne : items = []
      · subst hne
        rw [List.map_nil, h.noItems]
        rfl
      · have hitems : (items.map (write (level + 1))).map (·.filter (· ≠ '\x7f')) =
            (items.map (mapTexts withoutDelete)).map (write (level + 1)) := by
          rw [List.map_map, List.map_map]
          exact List.map_congr_left fun item hitem => ih item hitem (level + 1)
        rw [h.items level items hne, h.items level _ (by simpa using hne), ← hitems]
        simp only [List.filter_append, filter_intercalate, filter_blank (h.blankGap _),
          filter_cons (c := '[') (by decide), filter_cons (c := ',') (by decide),
          filter_cons (c := ']') (by decide), List.filter_nil]
  | obj members ih =>
      rw [mapTexts_obj]
      by_cases hne : members = []
      · subst hne
        rw [List.map_nil, h.noMembers]
        rfl
      · have hmembers :
            (members.map (memberText space (write (level + 1)))).map (·.filter (· ≠ '\x7f')) =
              (members.map fun member =>
                (withoutDelete member.1, mapTexts withoutDelete member.2)).map
                (memberText space (write (level + 1))) := by
          rw [List.map_map, List.map_map]
          apply List.map_congr_left
          intro member hmember
          simp only [Function.comp_apply, memberText, List.filter_append, filter_quoted,
            filter_cons (c := ':') (by decide), filter_blank h.blankSpace,
            ih member hmember (level + 1)]
        rw [h.members level members hne, h.members level _ (by simpa using hne), ← hmembers]
        simp only [List.filter_append, filter_intercalate, filter_blank (h.blankGap _),
          filter_cons (c := '{') (by decide), filter_cons (c := ',') (by decide),
          filter_cons (c := '}') (by decide), List.filter_nil]
  | _ =>
      rw [mapTexts_of_kind_ne (by simp [kind]) (by simp [kind]) (by simp [kind]),
        h.scalar level _ (by simp [kind]) (by simp [kind])]
      exact filter_scalarText (by simp [kind])

theorem IsLayout.depth_le_length (level : Nat) (value : Json) :
    value.depth ≤ (write level value).length := by
  induction value generalizing level with
  | arr items ih =>
      by_cases hne : items = []
      · subst hne
        rw [h.noItems]
        simp [depth, depthItems]
      · have hinside : ∀ item ∈ items, item.depth ≤ (List.intercalate (',' :: gap (level + 1))
            (items.map (write (level + 1)))).length := fun item hitem =>
          Nat.le_trans (ih item hitem (level + 1))
            (length_le_intercalate_of_mem (List.mem_map_of_mem hitem))
        have hdepth := depth_arr_le.mpr hinside
        rw [h.items level items hne]
        simp only [List.length_append, List.length_cons, List.length_nil]
        omega
  | obj members ih =>
      by_cases hne : members = []
      · subst hne
        rw [h.noMembers]
        simp [depth, depthMembers]
      · have hmember : ∀ member ∈ members, member.2.depth ≤
            (memberText space (write (level + 1)) member).length := by
          intro member hmember
          have := ih member hmember (level + 1)
          simp only [memberText, List.length_append, List.length_cons]
          omega
        have hinside : ∀ member ∈ members, member.2.depth ≤
            (List.intercalate (',' :: gap (level + 1))
              (members.map (memberText space (write (level + 1))))).length := fun member hmem =>
          Nat.le_trans (hmember member hmem)
            (length_le_intercalate_of_mem (List.mem_map_of_mem hmem))
        have hdepth := depth_obj_le.mpr hinside
        rw [h.members level members hne]
        simp only [List.length_append, List.length_cons, List.length_nil]
        omega
  | _ => exact Nat.zero_le _

end

theorem printing_of_mem_scalarText {value : Json} {c : Char} (h : c ∈ scalarText value) :
    0x20 ≤ c.toNat := by
  have hwords : ∀ c ∈ "null".toList ++ "true".toList ++ "false".toList, 0x20 ≤ c.toNat :=
    List.all_iff_forall_prop.mp (by decide)
  simp only [List.forall_mem_append] at hwords
  obtain ⟨⟨hnull, htrue⟩, hfalse⟩ := hwords
  cases value with
  | null => exact hnull c h
  | bool value =>
      cases value with
      | true => exact htrue c h
      | false => exact hfalse c h
  | num number => exact (printing_of_isNumeral (isNumeral_of_mem_text h)).1
  | str text =>
      simp only [scalarText, quoted, List.mem_append, List.mem_cons, List.mem_flatMap] at h
      rcases h with (rfl | ⟨written, -, h⟩) | rfl | h
      · decide
      · exact (mem_escaped h).1
      · decide
      · cases h
  | arr items => cases h
  | obj members => cases h

theorem printing_of_mem_newLine {level : Nat} {c : Char} (h : c ∈ newLine level) :
    c = '\n' ∨ 0x20 ≤ c.toNat := by
  rcases List.mem_cons.mp h with rfl | h
  · exact .inl rfl
  · obtain rfl := List.eq_of_mem_replicate h
    exact .inr (by decide)

/-- The pretty text of a document holds no control characters but line breaks and U+007F. -/
theorem printing_of_mem_pretty {value : Json} {c : Char} (h : c ∈ value.pretty.toList) :
    c = '\n' ∨ 0x20 ≤ c.toNat := by
  rw [pretty, String.toList_ofList] at h
  exact pretty_isLayout.forall_mem (List.all_iff_forall_prop.mp (by decide))
    (fun _ _ => printing_of_mem_newLine) (List.all_iff_forall_prop.mp (by decide))
    (fun _ _ hc => .inr (printing_of_mem_scalarText hc)) 0 value c h

end Json

end Reshape
