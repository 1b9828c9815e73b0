import Mathlib.Data.Bool.AllAny
import Mathlib.Data.List.DropRight
import Reshape.Json.Printer
import Reshape.Proofs.DocumentReading
import Reshape.Proofs.NumberRoundTrip

/-!
Documents that are read back from their texts.

The two ways of writing a document differ only in the blanks between its parts. `IsLayout` says
what they have in common, and that is all a reader needs: the text of a document is read as that
document, by a reader that may go as deep as the document does and recovers its numbers
(`IsLayout.readBack`). Only members with one key are united on the way, so a document with distinct
keys comes back as it is.
-/

namespace Reshape.Json

variable {convert : Conversion}

/-! ### Blanks -/

/-- A text of nothing but blanks. -/
def AllBlank (text : List Char) : Prop :=
  ∀ c ∈ text, isBlank c

theorem allBlank_nil : AllBlank [] := by
  simp [AllBlank]

theorem allBlank_lineEnd : AllBlank ['\n'] := by
  simp [AllBlank, isBlank]

theorem skipBlanks_append {blanks : List Char} (h : AllBlank blanks) (text : List Char) :
    skipBlanks (blanks ++ text) = skipBlanks text :=
  List.dropWhile_append_of_pos h

theorem skipBlanks_cons {c : Char} (h : isBlank c = false) (text : List Char) :
    skipBlanks (c :: text) = c :: text := by
  rw [skipBlanks, List.dropWhile_cons, h]
  rfl

theorem document_skipBlanks (inner : Option (Reader Json)) (text : List Char) :
    document convert inner (skipBlanks text) = document convert inner text := by
  have hskip : skipBlanks (skipBlanks text) = skipBlanks text :=
    List.dropWhile_idempotent _ _
  rw [document, document, hskip]

theorem value_eq_document (convert : Conversion) (limit : Nat) :
    ∃ inner, value convert limit = document convert inner := by
  cases limit with
  | zero => exact ⟨none, rfl⟩
  | succ limit => exact ⟨some (value convert limit), rfl⟩

theorem value_skipBlanks (limit : Nat) (text : List Char) :
    value convert limit (skipBlanks text) = value convert limit text := by
  obtain ⟨inner, hinner⟩ := value_eq_document convert limit
  rw [hinner, document_skipBlanks]

/-! ### Strings -/

theorem hexUnit?_hexDigit : ∀ unit < 0x20,
    hexUnit? '0' '0' (hexDigit (unit / 16)) (hexDigit (unit % 16)) = some unit := by
  decide

theorem stringBody_cons {c : Char} (hquote : c ≠ '"') (hbackslash : c ≠ '\\')
    (hcontrol : ¬ c.toNat < 0x20) (text : List Char) :
    stringBody (c :: text) = before c (stringBody text) := by
  rw [stringBody.eq_def]
  split
  case h_7 h =>
    obtain ⟨rfl, rfl⟩ := List.cons.inj h
    exact if_neg hcontrol
  all_goals simp_all

theorem stringBody_escaped (c : Char) (text : List Char) :
    stringBody (escaped c ++ text) = before c (stringBody text) := by
  unfold escaped
  split
  · subst c
    rfl
  rename_i hquote
  split
  · subst c
    rfl
  rename_i hbackslash
  iterate 5
    split
    · subst c
      rfl
  split
  · rename_i hcontrol
    simp only [List.cons_append, List.nil_append, stringBody, hexUnit?_hexDigit _ hcontrol]
    rw [if_neg (by omega), if_neg (by omega), Char.ofNat_toNat]
  · rename_i hcontrol
    exact stringBody_cons hquote hbackslash hcontrol text

theorem stringBody_flatMap_escaped (chars rest : List Char) :
    stringBody (chars.flatMap escaped ++ '"' :: rest) = .ok (chars, rest) := by
  induction chars with
  | nil => rfl
  | cons c chars ih =>
      rw [List.flatMap_cons, List.append_assoc, stringBody_escaped, ih]
      rfl

theorem key_quoted (text : String) (rest : List Char) :
    key (quoted text ++ rest) = .ok (text, rest) := by
  have hbody := stringBody_flatMap_escaped text.toList rest
  simp only [quoted, List.cons_append, List.append_assoc, List.nil_append, key, hbody]
  simp [Except.map]

/-! ### Texts that are read back -/

/-- What may stand behind a document: nothing, a blank, a comma or a closing bracket. -/
def Delimited (rest : List Char) : Prop :=
  ∀ c ∈ rest.head?, isBlank c ∨ c ∈ [',', ']', '}']

theorem delimited_nil : Delimited [] := by
  simp [Delimited]

theorem Delimited.append {blanks rest : List Char} (hblanks : AllBlank blanks)
    (hrest : Delimited rest) : Delimited (blanks ++ rest) := by
  cases blanks with
  | nil => exact hrest
  | cons blank blanks =>
      rintro _ ⟨⟩
      exact Or.inl (hblanks blank (by simp))

/-- Within a limit, a text is read as a document, up to the end of the text. -/
def ReadBack (convert : Conversion) (limit : Nat) (text : List Char) (read : Json) : Prop :=
  ∀ rest, Delimited rest → value convert limit (text ++ rest) = .ok (read, rest)

theorem ReadBack.blank_append {limit : Nat} {blanks text : List Char} {read : Json}
    (hblanks : AllBlank blanks) (h : ReadBack convert limit text read) :
    ReadBack convert limit (blanks ++ text) read := by
  intro rest hrest
  rw [← value_skipBlanks, List.append_assoc, skipBlanks_append hblanks, value_skipBlanks]
  exact h rest hrest

theorem ReadBack.skipBlanks {limit : Nat} {text rest : List Char} {read : Json}
    (h : ReadBack convert limit text read) (hrest : Delimited rest) :
    value convert limit (skipBlanks (text ++ rest)) = .ok (read, rest) := by
  rw [value_skipBlanks]
  exact h rest hrest

/-! ### Members with one key -/

mutual

/-- A document with the members of one key united: the value of the last, in the place of the
first. -/
def united : Json → Json
  | .arr items => .arr (unitedItems items)
  | .obj members => .obj (unite [] members)
  | scalar => scalar

def unitedItems : List Json → List Json
  | [] => []
  | item :: items => united item :: unitedItems items

/-- Writes members one after the other to those held already. -/
def unite (held : List (String × Json)) : List (String × Json) → List (String × Json)
  | [] => held
  | (key, value) :: members => unite (write key (united value) held) members

end

theorem unitedItems_eq_map (items : List Json) : unitedItems items = items.map united := by
  induction items with
  | nil => rfl
  | cons item items ih => rw [unitedItems, ih, List.map_cons]

theorem unite_of_nodup {held members : List (String × Json)}
    (hkeys : ((held ++ members).map Prod.fst).Nodup) :
    unite held members = held ++ members.map fun member => (member.1, united member.2) := by
  induction members generalizing held with
  | nil => simp [unite]
  | cons member members ih =>
      obtain ⟨key, value⟩ := member
      have habsent : key ∉ held.map Prod.fst := by
        rw [List.map_append] at hkeys
        exact not_mem_of_nodup_append_cons hkeys
      have hkeys' : ((held ++ [(key, united value)] ++ members).map Prod.fst).Nodup := by
        simpa using hkeys
      rw [unite, write, amend_of_not_mem _ habsent, ih hkeys', List.append_assoc]
      rfl

theorem united_eq_self {value : Json} (hkeys : value.keysDistinct) : united value = value := by
  induction value with
  | arr items ih =>
      have hitems : items.map united = items.map id :=
        List.map_congr_left fun item hitem => ih item hitem (keysDistinct_arr.mp hkeys item hitem)
      rw [united, unitedItems_eq_map, hitems, List.map_id]
  | obj members ih =>
      obtain ⟨hnodup, hvalues⟩ := keysDistinct_obj.mp hkeys
      have hmembers : members.map (fun member => (member.1, united member.2)) = members.map id :=
        List.map_congr_left fun member hmember =>
          congrArg (Prod.mk member.1) (ih member hmember (hvalues member hmember))
      have hunited := unite_of_nodup ((List.nil_append members).symm ▸ hnodup)
      rw [united, hunited, hmembers, List.map_id, List.nil_append]
  | _ => rfl

/-! ### Items -/

theorem items_last {value : Reader Json} {turns : Nat} {text rest behind : List Char} {item : Json}
    (hitem : value text = .ok (item, rest)) (hrest : skipBlanks rest = ']' :: behind) :
    items value (turns + 1) text = .ok ([item], behind) := by
  rw [items, hitem]
  dsimp only [bind, Except.bind]
  rw [hrest]
  rfl

theorem items_closed {limit turns : Nat} {text : List Char} {result : List Json × List Char} :
    items (value convert limit) turns (']' :: text) ≠ .ok result := by
  intro h
  cases turns with
  | zero => cases h
  | succ turns =>
      obtain ⟨_, hitem, -⟩ := bind_eq_ok.mp h
      obtain ⟨inner, hinner⟩ := value_eq_document convert limit
      rw [hinner] at hitem
      cases hitem

theorem items_next {limit turns : Nat} {text rest more behind : List Char} {item : Json}
    {read : List Json} (hitem : value convert limit text = .ok (item, rest))
    (hrest : skipBlanks rest = ',' :: more)
    (hmore : items (value convert limit) turns (skipBlanks more) = .ok (read, behind)) :
    items (value convert limit) (turns + 1) text = .ok (item :: read, behind) := by
  simp only [items, hitem, hrest, bind, Except.bind]
  split
  · rename_i closed hclosed
    rw [hclosed] at hmore
    exact (items_closed hmore).elim
  · rw [hmore]
    rfl

/-- Items are read back from their texts with commas between them. -/
theorem items_intercalate {limit turns : Nat} {gap close rest : List Char}
    {text : Json → List Char} (hgap : AllBlank gap) (hclose : AllBlank close) {written : List Json}
    (hne : written ≠ []) (hread : ∀ item ∈ written, ReadBack convert limit (text item) item.united)
    (hturns : written.length ≤ turns) :
    items (value convert limit) turns
        (skipBlanks (List.intercalate (',' :: gap) (written.map text) ++ (close ++ ']' :: rest))) =
      .ok (unitedItems written, rest) := by
  have hend : Delimited (close ++ ']' :: rest) :=
    Delimited.append hclose (by simp [Delimited])
  induction written generalizing turns with
  | nil => exact (hne rfl).elim
  | cons item written ih =>
      obtain ⟨hitem, hread⟩ := List.forall_mem_cons.mp hread
      cases turns with
      | zero => cases hturns
      | succ turns =>
          cases written with
          | nil =>
              rw [List.map_cons, List.map_nil, List.intercalate_singleton]
              refine items_last (hitem.skipBlanks hend) ?_
              rw [skipBlanks_append hclose, skipBlanks_cons rfl]
          | cons second written =>
              have hmore := ih (List.cons_ne_nil _ _) hread (Nat.le_of_succ_le_succ hturns)
              rw [List.map_cons, List.map_cons, List.intercalate_cons_cons, ← List.map_cons,
                List.append_assoc, List.append_assoc, List.cons_append]
              refine items_next (hitem.skipBlanks (by simp [Delimited])) (skipBlanks_cons rfl _) ?_
              rw [skipBlanks_append hgap]
              exact hmore

/-! ### Members -/

/-- The text of a member, with its value behind a colon and blanks. -/
def memberText (space : List Char) (text : Json → List Char) (member : String × Json) :
    List Char :=
  quoted member.1 ++ ':' :: (space ++ text member.2)

/-- A member is read at the front of a text, with some of the text left. -/
def MemberRead (value : Reader Json) (text : List Char) (member : String × Json)
    (rest : List Char) : Prop :=
  ∃ behindKey behindColon, key text = .ok (member.1, behindKey) ∧
    colon behindKey = .ok behindColon ∧ value behindColon = .ok (member.2, rest)

theorem memberRead_memberText {limit : Nat} {space rest : List Char} {text : Json → List Char}
    {member : String × Json} {read : Json} (hspace : AllBlank space)
    (hmember : ReadBack convert limit (text member.2) read) (hrest : Delimited rest) :
    MemberRead (value convert limit) (skipBlanks (memberText space text member ++ rest))
      (member.1, read) rest := by
  refine ⟨':' :: (space ++ text member.2) ++ rest, _, ?_, ?_,
    hmember.blank_append hspace rest hrest⟩
  · rw [memberText, List.append_assoc]
    exact key_quoted member.1 _
  · rw [List.cons_append, colon, skipBlanks_cons rfl]
    rfl

section

variable {value : Reader Json} {turns : Nat} {held : List (String × Json)}
  {member : String × Json} {text rest : List Char}

theorem members_last {behind : List Char} (hmember : MemberRead value text member rest)
    (hrest : skipBlanks rest = '}' :: behind) :
    members value (turns + 1) held text = .ok (write member.1 member.2 held, behind) := by
  obtain ⟨behindKey, behindColon, hkey, hcolon, hvalue⟩ := hmember
  simp only [members, hkey, hcolon, hvalue, hrest, bind, Except.bind]
  rfl

theorem members_closed {result : List (String × Json) × List Char} :
    members value turns held ('}' :: text) ≠ .ok result := by
  cases turns with
  | zero => simp [members]
  | succ turns => simp [members, key, bind, Except.bind]

theorem members_next {more : List Char} {result : List (String × Json) × List Char}
    (hmember : MemberRead value text member rest) (hrest : skipBlanks rest = ',' :: more)
    (hmore : members value turns (write member.1 member.2 held) (skipBlanks more) = .ok result) :
    members value (turns + 1) held text = .ok result := by
  obtain ⟨behindKey, behindColon, hkey, hcolon, hvalue⟩ := hmember
  simp only [members, hkey, hcolon, hvalue, hrest, bind, Except.bind]
  split
  · rename_i closed hclosed
    rw [hclosed] at hmore
    exact (members_closed hmore).elim
  · exact hmore

end

/-- Members are read back from their texts with commas between them, and united as they are. -/
theorem members_intercalate {limit turns : Nat} {gap close space rest : List Char}
    {text : Json → List Char} (hgap : AllBlank gap) (hclose : AllBlank close)
    (hspace : AllBlank space) {held written : List (String × Json)} (hne : written ≠ [])
    (hread : ∀ member ∈ written, ReadBack convert limit (text member.2) member.2.united)
    (hturns : written.length ≤ turns) :
    members (value convert limit) turns held
        (skipBlanks (List.intercalate (',' :: gap) (written.map (memberText space text)) ++
          (close ++ '}' :: rest))) =
      .ok (unite held written, rest) := by
  have hend : Delimited (close ++ '}' :: rest) :=
    Delimited.append hclose (by simp [Delimited])
  induction written generalizing held turns with
  | nil => exact (hne rfl).elim
  | cons member written ih =>
      obtain ⟨hmember, hread⟩ := List.forall_mem_cons.mp hread
      cases turns with
      | zero => cases hturns
      | succ turns =>
          rw [unite]
          cases written with
          | nil =>
              rw [List.map_cons, List.map_nil, List.intercalate_singleton]
              refine members_last (memberRead_memberText hspace hmember hend) ?_
              rw [skipBlanks_append hclose, skipBlanks_cons rfl]
          | cons second written =>
              rw [List.map_cons, List.map_cons, List.intercalate_cons_cons, ← List.map_cons,
                List.append_assoc, List.append_assoc, List.cons_append]
              refine members_next (memberRead_memberText hspace hmember (by simp [Delimited]))
                (skipBlanks_cons rfl _) ?_
              rw [skipBlanks_append hgap]
              exact ih (List.cons_ne_nil _ _) hread (Nat.le_of_succ_le_succ hturns)

/-! ### Containers -/

theorem length_le_intercalate {separator : List Char} (hseparator : separator ≠ [])
    (texts : List (List Char)) :
    texts.length ≤ (List.intercalate separator texts).length + 1 := by
  induction texts with
  | nil => simp
  | cons text texts ih =>
      cases texts with
      | nil => simp
      | cons second texts =>
          have hpos := List.length_pos_of_ne_nil hseparator
          rw [List.intercalate_cons_cons]
          simp only [List.length_cons, List.length_append] at ih ⊢
          omega

theorem length_le_skipBlanks_append {c : Char} (hc : isBlank c = false) (text rest : List Char) :
    rest.length < (skipBlanks (text ++ c :: rest)).length := by
  have hrest : skipBlanks (c :: rest) = c :: rest := skipBlanks_cons hc rest
  rw [skipBlanks] at hrest
  rw [skipBlanks, List.dropWhile_append, hrest]
  split
  · simp
  · simp
    omega

/-- The blanks in front of texts with commas between them are no reason to have too few turns. -/
theorem length_le_skipBlanks_intercalate {c : Char} (hc : isBlank c = false)
    (gap close rest : List Char) (texts : List (List Char)) :
    texts.length ≤
      (skipBlanks (List.intercalate (',' :: gap) texts ++ (close ++ c :: rest))).length := by
  cases texts with
  | nil => simp
  | cons text texts =>
      cases texts with
      | nil =>
          rw [List.intercalate_singleton, ← List.append_assoc]
          exact Nat.lt_of_le_of_lt (Nat.zero_le _) (length_le_skipBlanks_append hc _ rest)
      | cons second texts =>
          have hle := length_le_intercalate (List.cons_ne_nil ',' gap) (second :: texts)
          rw [List.intercalate_cons_cons, List.append_assoc, List.append_assoc, List.cons_append]
          refine Nat.le_trans ?_ (length_le_skipBlanks_append (c := ',') rfl text _)
          simp only [List.length_cons, List.length_append] at hle ⊢
          omega

theorem sequence_of_items {limit : Nat} {text rest : List Char} {read : List Json}
    (h : items (value convert limit) (skipBlanks text).length (skipBlanks text) =
      .ok (read, rest)) :
    sequence (value convert limit) text = .ok (.arr read, rest) := by
  unfold sequence
  split
  · rename_i hempty
    rw [hempty] at h
    cases h
  · rename_i hclosed
    rw [hclosed] at h
    exact (items_closed h).elim
  · rw [h]
    rfl

theorem mapping_of_members {value : Reader Json} {text rest : List Char}
    {read : List (String × Json)}
    (h : members value (skipBlanks text).length [] (skipBlanks text) = .ok (read, rest)) :
    mapping value text = .ok (.obj read, rest) := by
  unfold mapping
  split
  · rename_i hempty
    rw [hempty] at h
    cases h
  · rename_i hclosed
    rw [hclosed] at h
    exact (members_closed h).elim
  · rw [h]
    rfl

theorem readBack_sequence {limit : Nat} {gap close : List Char} {text : Json → List Char}
    (hgap : AllBlank gap) (hclose : AllBlank close) {written : List Json} (hne : written ≠ [])
    (hread : ∀ item ∈ written, ReadBack convert limit (text item) item.united) :
    ReadBack convert (limit + 1)
      ('[' :: gap ++ List.intercalate (',' :: gap) (written.map text) ++ close ++ [']'])
      (united (.arr written)) := by
  intro rest _
  have hturns := length_le_skipBlanks_intercalate (c := ']') rfl gap close rest (written.map text)
  rw [List.length_map] at hturns
  simp only [List.append_assoc, List.cons_append, List.nil_append]
  rw [value, document, skipBlanks_cons rfl]
  apply sequence_of_items
  rw [skipBlanks_append hgap]
  exact items_intercalate hgap hclose hne hread hturns

theorem readBack_mapping {limit : Nat} {gap close space : List Char} {text : Json → List Char}
    (hgap : AllBlank gap) (hclose : AllBlank close) (hspace : AllBlank space)
    {written : List (String × Json)} (hne : written ≠ [])
    (hread : ∀ member ∈ written, ReadBack convert limit (text member.2) member.2.united) :
    ReadBack convert (limit + 1)
      ('{' :: gap ++ List.intercalate (',' :: gap) (written.map (memberText space text)) ++
        close ++ ['}'])
      (united (.obj written)) := by
  intro rest _
  have hturns := length_le_skipBlanks_intercalate (c := '}') rfl gap close rest
    (written.map (memberText space text))
  rw [List.length_map] at hturns
  simp only [List.append_assoc, List.cons_append, List.nil_append]
  rw [value, document, skipBlanks_cons rfl]
  apply mapping_of_members
  rw [skipBlanks_append hgap]
  exact members_intercalate hgap hclose hspace hne hread hturns

/-! ### Documents -/

theorem endsNumber_of_delimited {rest : List Char} (h : Delimited rest) : EndsNumber rest := by
  have hmarks : ∀ c ∈ [' ', '\t', '\n', '\r', ',', ']', '}'],
      c.isDigit = false ∧ c ∉ ['.', 'e', 'E'] :=
    List.all_iff_forall_prop.mp (by decide)
  intro c hc
  have hmark := h c hc
  simp only [isBlank, Bool.or_eq_true, decide_eq_true_eq, or_assoc] at hmark
  exact hmarks c (by simpa using hmark)

theorem document_of_sign_or_digit {c : Char} (hc : c = '-' ∨ c.isDigit)
    (inner : Option (Reader Json)) (more : List Char) :
    document convert inner (c :: more) =
      (number convert (c :: more)).map fun (read, rest) => (.num read, rest) := by
  have hother : ∀ other ∈ [' ', '\t', '\n', '\r', 'n', 't', 'f', '"', '[', '{'], c ≠ other := by
    have hnone : ∀ other ∈ [' ', '\t', '\n', '\r', 'n', 't', 'f', '"', '[', '{'],
        ¬ (other = '-' ∨ other.isDigit) :=
      List.all_iff_forall_prop.mp (by decide)
    rintro _ hother rfl
    exact hnone c hother hc
  simp only [List.forall_mem_cons] at hother
  obtain ⟨hspace, htab, hline, hreturn, hnull, htrue, hfalse, hquote, hopen, hbrace, -⟩ := hother
  have hblank : isBlank c = false := by
    simp [isBlank, hspace, htab, hline, hreturn]
  rw [document, skipBlanks_cons hblank]
  -- With the other first characters ruled out, the match comes down to its last case.
  simp only [hc]
  rfl

theorem readBack_number (limit : Nat) {number : Number} (hnumber : Recovers convert number) :
    ReadBack convert limit number.text (.num number) := by
  intro rest hrest
  obtain ⟨inner, hinner⟩ := value_eq_document convert limit
  obtain ⟨c, more, htext, hc⟩ := exists_cons_text number
  have hread := hnumber rest (endsNumber_of_delimited hrest)
  rw [htext, List.cons_append] at hread ⊢
  rw [hinner, document_of_sign_or_digit hc, hread]
  rfl

/-- A scalar is read back from its text. -/
theorem readBack_scalarText {limit : Nat} {read : Json} (hsequence : read.kind ≠ .sequence)
    (hmapping : read.kind ≠ .mapping)
    (hnumber : ∀ number, read = .num number → Recovers convert number) :
    ReadBack convert limit (scalarText read) read := by
  intro rest hrest
  obtain ⟨inner, hinner⟩ := value_eq_document convert limit
  cases read with
  | null =>
      rw [hinner]
      rfl
  | bool value =>
      rw [hinner]
      cases value <;> rfl
  | str text =>
      have hbody := stringBody_flatMap_escaped text.toList rest
      rw [hinner]
      simp [scalarText, quoted, document, skipBlanks_cons (c := '"') rfl, hbody, Except.map]
  | num number => exact readBack_number limit (hnumber number rfl) rest hrest
  | arr items => exact (hsequence rfl).elim
  | obj members => exact (hmapping rfl).elim

/-- What ways of writing have in common. Only blanks stand between the parts of a container, and a
container without any is closed up. -/
structure IsLayout (write : Nat → Json → List Char) (gap : Nat → List Char) (space : List Char) :
    Prop where
  blankGap : ∀ level, AllBlank (gap level)
  blankSpace : AllBlank space
  scalar : ∀ level value, value.kind ≠ .sequence → value.kind ≠ .mapping →
    write level value = scalarText value
  noItems : ∀ level, write level (.arr []) = ['[', ']']
  items : ∀ level items, items ≠ [] → write level (.arr items) =
    '[' :: gap (level + 1) ++
      List.intercalate (',' :: gap (level + 1)) (items.map (write (level + 1))) ++
      gap level ++ [']']
  noMembers : ∀ level, write level (.obj []) = ['{', '}']
  members : ∀ level members, members ≠ [] → write level (.obj members) =
    '{' :: gap (level + 1) ++
      List.intercalate (',' :: gap (level + 1))
        (members.map (memberText space (write (level + 1)))) ++
      gap level ++ ['}']

/-- A document is read back from its text, but for members with one key, by a reader that may go as
deep as the document does and recovers its numbers. -/
theorem IsLayout.readBack {write : Nat → Json → List Char} {gap : Nat → List Char}
    {space : List Char} (h : IsLayout write gap space) {written : Json} {limit : Nat}
    (hdepth : written.depth ≤ limit)
    (hnumbers : ∀ number, Occurs (.num number) written → Recovers convert number) (level : Nat) :
    ReadBack convert limit (write level written) written.united := by
  induction written generalizing limit level with
  | arr items ih =>
      cases limit with
      | zero => simp [depth] at hdepth
      | succ limit =>
          by_cases hne : items = []
          · subst hne
            rw [h.noItems]
            intro rest _
            rfl
          · rw [h.items level items hne]
            apply readBack_sequence (h.blankGap _) (h.blankGap _) hne
            intro item hitem
            exact ih item hitem (depth_arr_le.mp hdepth item hitem)
              (fun number hnumber => hnumbers number (.item hitem hnumber)) (level + 1)
  | obj members ih =>
      cases limit with
      | zero => simp [depth] at hdepth
      | succ limit =>
          by_cases hne : members = []
          · subst hne
            rw [h.noMembers]
            intro rest _
            rfl
          · rw [h.members level members hne]
            apply readBack_mapping (h.blankGap _) (h.blankGap _) h.blankSpace hne
            intro member hmember
            exact ih member hmember (depth_obj_le.mp hdepth member hmember)
              (fun number hnumber => hnumbers number (.member hmember hnumber)) (level + 1)
  | _ =>
      rw [h.scalar level _ (by simp [kind]) (by simp [kind])]
      apply readBack_scalarText (by simp [kind]) (by simp [kind])
      intro number heq
      exact hnumbers number (heq ▸ .whole)

theorem compactItems_eq (items : List Json) :
    compactItems items = List.intercalate [','] (items.map compactText) := by
  induction items with
  | nil => rfl
  | cons item items ih =>
      cases items with
      | nil => simp [compactItems]
      | cons second items =>
          rw [compactItems, ih]
          · simp
          · exact List.cons_ne_nil _ _

theorem compactMembers_eq (members : List (String × Json)) :
    compactMembers members = List.intercalate [','] (members.map (memberText [] compactText)) := by
  induction members with
  | nil => rfl
  | cons member members ih =>
      cases members with
      | nil => simp [compactMembers, memberText]
      | cons second members =>
          rw [compactMembers, ih]
          · simp [memberText]
          · exact List.cons_ne_nil _ _

theorem compact_isLayout : IsLayout (fun _ => compactText) (fun _ => []) [] where
  blankGap _ := allBlank_nil
  blankSpace := allBlank_nil
  scalar _ value hsequence hmapping := by
    cases value with
    | arr items => exact (hsequence rfl).elim
    | obj members => exact (hmapping rfl).elim
    | _ => rfl
  noItems _ := rfl
  items _ items _ := by
    rw [compactText, compactItems_eq]
    simp
  noMembers _ := rfl
  members _ members _ := by
    rw [compactText, compactMembers_eq]
    simp

theorem prettyItems_eq (level : Nat) (items : List Json) :
    prettyItems level items =
      List.intercalate (',' :: newLine level) (items.map (prettyText level)) := by
  induction items with
  | nil => rfl
  | cons item items ih =>
      cases items with
      | nil => simp [prettyItems]
      | cons second items =>
          rw [prettyItems, ih]
          · simp
          · exact List.cons_ne_nil _ _

theorem prettyMembers_eq (level : Nat) (members : List (String × Json)) :
    prettyMembers level members = List.intercalate (',' :: newLine level)
      (members.map (memberText [' '] (prettyText level))) := by
  induction members with
  | nil => rfl
  | cons member members ih =>
      cases members with
      | nil => simp [prettyMembers, memberText]
      | cons second members =>
          rw [prettyMembers, ih]
          · simp [memberText]
          · exact List.cons_ne_nil _ _

theorem pretty_isLayout : IsLayout prettyText newLine [' '] where
  blankGap level := by
    intro c hc
    rcases List.mem_cons.mp hc with rfl | hc
    · rfl
    · obtain rfl := List.eq_of_mem_replicate hc
      rfl
  blankSpace := by
    simp [AllBlank, isBlank]
  scalar level value hsequence hmapping := by
    cases value with
    | arr items => exact (hsequence rfl).elim
    | obj members => exact (hmapping rfl).elim
    | _ => rfl
  noItems level := by
    rw [prettyText]
  items level items hne := by
    obtain ⟨item, items, rfl⟩ := List.exists_cons_of_ne_nil hne
    rw [prettyText, prettyItems_eq]
  noMembers level := by
    rw [prettyText]
  members level members hne := by
    obtain ⟨member, members, rfl⟩ := List.exists_cons_of_ne_nil hne
    rw [prettyText, prettyMembers_eq]

/-! ### Whole texts -/

theorem whole_append {limit : Nat} {text blanks : List Char} {read : Json}
    (h : ReadBack convert limit text read) (hblanks : AllBlank blanks) :
    whole (value convert limit) (text ++ blanks) = .ok read := by
  have hvalue : value convert limit (text ++ blanks) = .ok (read, blanks) := by
    refine h blanks ?_
    simpa using Delimited.append hblanks delimited_nil
  have hfinish : skipBlanks blanks = [] := by
    simpa [skipBlanks] using skipBlanks_append hblanks []
  rw [whole, hvalue]
  simp [bind, Except.bind, finish, hfinish]
  rfl

/-- The numbers in a document are all whole, so that none of them is rounded. -/
def WholeNumbers (value : Json) : Prop :=
  MadeOf (fun part => ∀ x, part ≠ .num (.binary x)) (fun _ => True) value

theorem WholeNumbers.recovers {value : Json} (h : WholeNumbers value) {number : Number}
    (hnumber : Occurs (.num number) value) : Recovers convert number := by
  cases number with
  | whole number fits => exact recovers_whole convert fits
  | binary x => exact (h.scalar _ (by simp [kind]) (by simp [kind]) hnumber x rfl).elim

section

variable {written : Json} (hkeys : written.keysDistinct)
  (hnumbers : ∀ number, Occurs (.num number) written → Recovers .scaled number)
  (hdepth : written.depth ≤ nestingLimit)

include hkeys hnumbers hdepth

theorem IsLayout.read_append {write : Nat → Json → List Char} {gap : Nat → List Char}
    {space blanks : List Char} (h : IsLayout write gap space) (hblanks : AllBlank blanks) :
    Json.read (String.ofList (write 0 written ++ blanks)) = .ok written := by
  have hback : ReadBack .scaled nestingLimit (write 0 written) written.united :=
    h.readBack hdepth hnumbers 0
  have hwhole := whole_append hback hblanks
  rw [Json.read, leading, String.toList_ofList, hwhole, united_eq_self hkeys]
  rfl

/-- A document within the usual limit is read from the text that is written of it, if its numbers
are. -/
theorem read_compact : Json.read (compact written) = .ok written := by
  have hread := compact_isLayout.read_append hkeys hnumbers hdepth allBlank_nil
  rwa [List.append_nil] at hread

theorem read_pretty : Json.read (pretty written) = .ok written := by
  have hread := pretty_isLayout.read_append hkeys hnumbers hdepth allBlank_nil
  rwa [List.append_nil] at hread

theorem read_pretty_line : Json.read (pretty written ++ "\n") = .ok written := by
  have hread := pretty_isLayout.read_append hkeys hnumbers hdepth allBlank_lineEnd
  rwa [String.ofList_append] at hread

end

end Reshape.Json
