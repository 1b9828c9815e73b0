import Reshape.Proofs.TextRoundTrip

/-!
Where a document ends in a text.

A reader takes a front of the text and leaves the rest. It looks no further into the rest than to
see that what it reads does not go on there, so it reads the same when the rest is cut off, at any
place. `value_takesFronts` says so of documents, by way of their parts: strings end themselves, and
numbers end where the text does or a character stands that cannot belong to them. In particular a
document at the front of a text is a document by itself (`exists_front_of_leading`).
-/

namespace Reshape.Json

variable {convert : Conversion}

/-- What a reader gives is taken from the front of a text, however much of the rest is cut off. -/
def Takes {α : Type} (read : Reader α) (front : List Char) (a : α) (rest : List Char) : Prop :=
  ∀ behind, behind <+: rest → read (front ++ behind) = .ok (a, behind)

theorem forall_head?_of_cut {P : Char → Prop} {behind rest : List Char} (h : behind <+: rest)
    (hrest : ∀ c ∈ rest.head?, P c) : ∀ c ∈ behind.head?, P c := by
  intro c hc
  cases behind with
  | nil => cases hc
  | cons first behind =>
      obtain ⟨more, rfl⟩ := h
      exact hrest c hc

theorem forall_head?_dropWhile (p : Char → Bool) (text : List Char) :
    ∀ c ∈ (text.dropWhile p).head?, p c = false := by
  intro c hc
  have hstop := List.head?_dropWhile_not p text
  rw [Option.mem_def.mp hc] at hstop
  simpa using hstop

/-! ### Strings -/

/-- A string is taken from the front of a text, whatever follows its closing quotation mark. -/
def TakesString (front chars : List Char) : Prop :=
  ∀ behind, stringBody (front ++ behind) = .ok (chars, behind)

theorem exists_front_of_before (piece : List Char) {c : Char} {more rest chars : List Char}
    (hpiece : ∀ more, stringBody (piece ++ more) = before c (stringBody more))
    (hmore : ∀ {chars}, stringBody more = .ok (chars, rest) →
      ∃ front, more = front ++ rest ∧ TakesString front chars)
    (h : before c (stringBody more) = .ok (chars, rest)) :
    ∃ front, piece ++ more = front ++ rest ∧ TakesString front chars := by
  obtain ⟨⟨others, rest'⟩, hothers, h⟩ := map_eq_ok.mp h
  cases h
  obtain ⟨front, rfl, hfront⟩ := hmore hothers
  refine ⟨piece ++ front, by simp, ?_⟩
  intro behind
  rw [List.append_assoc, hpiece, hfront behind]
  rfl

theorem exists_front_of_stringBody {text rest chars : List Char}
    (h : stringBody text = .ok (chars, rest)) :
    ∃ front, text = front ++ rest ∧ TakesString front chars := by
  -- Five cases give a string: its end, and what it goes on behind, which is a surrogate pair, a
  -- single unit, an escaped letter or a plain character.
  fun_induction stringBody text generalizing chars with
  | case2 rest =>
      cases h
      exact ⟨['"'], rfl, fun _ => rfl⟩
  | case7 a b c d unit hunit hnotTrailing hleading e f g i more trailing htrailing hinRange ih =>
      refine exists_front_of_before ['\\', 'u', a, b, c, d, '\\', 'u', e, f, g, i] ?_ ih h
      intro more
      simp [stringBody, hunit, hnotTrailing, hleading, htrailing, hinRange]
  | case10 a b c d more unit hunit hnotTrailing hnotLeading ih =>
      refine exists_front_of_before ['\\', 'u', a, b, c, d] ?_ ih h
      intro more
      simp [stringBody, hunit, hnotTrailing, hnotLeading]
  | case12 c more _ hunicode plain hplain ih =>
      refine exists_front_of_before ['\\', c] ?_ ih h
      intro more
      have hletter : c ≠ 'u' := hunicode
      rw [List.cons_append, List.cons_append, List.nil_append, stringBody]
      · rw [hplain]
      · simp [hletter]
      · simp [hletter]
  | case15 c more hquote hend _ _ hescape hcontrol ih =>
      refine exists_front_of_before [c] ?_ ih h
      have hbackslash : c ≠ '\\' := by
        rintro rfl
        cases more with
        | nil => exact hend rfl rfl
        | cons next more => exact hescape next more rfl rfl
      exact stringBody_cons hquote hbackslash hcontrol
  | _ => cases h

/-! ### Numbers -/

theorem digits_eq_ok {text written rest : List Char} (h : digits text = .ok (written, rest)) :
    text = written ++ rest ∧ written ≠ [] ∧ (∀ c ∈ written, c.isDigit) ∧
      ∀ c ∈ rest.head?, c.isDigit = false := by
  cases text with
  | nil => cases h
  | cons c text =>
      rw [digits] at h
      split at h
      · rename_i hc
        cases h
        have hmore : ∀ c ∈ text.takeWhile Char.isDigit, c.isDigit :=
          fun _ => List.mem_takeWhile_imp
        exact ⟨by simp, by simp, List.forall_mem_cons.mpr ⟨hc, hmore⟩,
          forall_head?_dropWhile Char.isDigit text⟩
      · cases h

theorem wholeDigits_eq_ok {text written rest : List Char}
    (h : wholeDigits text = .ok (written, rest)) :
    text = written ++ rest ∧ written ≠ [] ∧ (∀ c ∈ written, c.isDigit) ∧
      (written = ['0'] ∨ written.head? ≠ some '0') ∧ ∀ c ∈ rest.head?, c.isDigit = false := by
  unfold wholeDigits at h
  split at h
  · rename_i c text
    split at h
    · cases h
    · rename_i hc
      cases h
      simpa using hc
  · rename_i hzero
    obtain ⟨rfl, hne, hdigits, hrest⟩ := digits_eq_ok h
    refine ⟨rfl, hne, hdigits, ?_, hrest⟩
    obtain ⟨first, others, rfl⟩ := List.exists_cons_of_ne_nil hne
    cases others with
    | nil => simpa using em (first = '0')
    | cons second others =>
        right
        rintro ⟨⟩
        exact hzero second (others ++ rest) rfl

theorem takes_wholeDigits {text written rest : List Char}
    (h : wholeDigits text = .ok (written, rest)) : Takes wholeDigits written written rest := by
  obtain ⟨-, hne, hdigits, hlead, hrest⟩ := wholeDigits_eq_ok h
  intro behind hbehind
  exact wholeDigits_append hne hdigits hlead (forall_head?_of_cut hbehind hrest)

theorem exists_front_of_fractionPart? {text rest : List Char} {fraction? : Option (List Char)}
    (h : fractionPart? text = .ok (fraction?, rest)) :
    ∃ front, text = front ++ rest ∧ Takes fractionPart? front fraction? rest := by
  unfold fractionPart? at h
  split at h
  · obtain ⟨⟨written, rest'⟩, hwritten, h⟩ := map_eq_ok.mp h
    cases h
    obtain ⟨rfl, hne, hdigits, hrest⟩ := digits_eq_ok hwritten
    refine ⟨'.' :: written, rfl, ?_⟩
    intro behind hbehind
    exact fractionPart?_some hne hdigits (forall_head?_of_cut hbehind hrest)
  · rename_i hpoint
    cases h
    refine ⟨[], rfl, ?_⟩
    intro behind hbehind
    apply fractionPart?_none
    have hrest : ∀ c ∈ text.head?, c ≠ '.' := by
      rintro _ hc rfl
      exact hpoint _ (List.eq_cons_of_mem_head? hc)
    exact fun hc => forall_head?_of_cut hbehind hrest _ hc rfl

theorem exists_sign {text written rest : List Char}
    (h : (exponentSign text).2 = written ++ rest) (hne : written ≠ [])
    (hdigits : ∀ c ∈ written, c.isDigit) :
    ∃ sign, text = sign ++ (written ++ rest) ∧ ∀ behind,
      exponentSign (sign ++ (written ++ behind)) = ((exponentSign text).1, written ++ behind) := by
  unfold exponentSign at h
  split at h
  · exact ⟨['-'], by rw [← h]; rfl, fun _ => rfl⟩
  · exact ⟨['+'], by rw [← h]; rfl, fun _ => rfl⟩
  · obtain ⟨c, others, rfl⟩ := List.exists_cons_of_ne_nil hne
    have hc : c.isDigit := hdigits c (by simp)
    have hplain : ∀ more, exponentSign (c :: more) = (false, c :: more) := by
      intro more
      unfold exponentSign
      split <;> simp_all
    subst h
    exact ⟨[], rfl, fun _ => by rw [List.nil_append, List.cons_append, List.cons_append,
      hplain, hplain]⟩

/-- The exponent with a sign and digits, which may be out of range. -/
def exponentOf (isZero negative : Bool) (written : List Char) : Reader (Option Int) := fun rest =>
  let size := Nat.ofDigitChars 10 written 0
  if negative then .ok (some (-size), rest)
  else
    match pastExponentRange? 0 written with
    | none => .ok (some size, rest)
    | some unread =>
        if isZero then .ok (some 0, rest) else .error ⟨.numberOutOfRange, unread ++ rest, 0⟩

theorem exponentPart?_cons {c : Char} (hc : c = 'e' ∨ c = 'E') (isZero : Bool)
    (text : List Char) :
    exponentPart? isZero (c :: text) = digits (exponentSign text).2 >>= fun (written, rest) =>
      exponentOf isZero (exponentSign text).1 written rest := by
  rw [exponentPart?, if_pos hc]
  rfl

theorem exponentOf_eq_ok {isZero negative : Bool} {written rest rest' : List Char}
    {exponent? : Option Int}
    (h : exponentOf isZero negative written rest' = .ok (exponent?, rest)) :
    rest' = rest ∧
      ∀ behind, exponentOf isZero negative written behind = .ok (exponent?, behind) := by
  unfold exponentOf at h ⊢
  cases negative with
  | true =>
      cases h
      exact ⟨rfl, fun _ => rfl⟩
  | false =>
      cases hrange : pastExponentRange? 0 written with
      | none =>
          rw [hrange] at h
          cases h
          exact ⟨rfl, fun _ => rfl⟩
      | some unread =>
          rw [hrange] at h
          cases isZero with
          | true =>
              cases h
              exact ⟨rfl, fun _ => rfl⟩
          | false => cases h

theorem exists_front_of_exponentPart? {isZero : Bool} {text rest : List Char}
    {exponent? : Option Int} (h : exponentPart? isZero text = .ok (exponent?, rest)) :
    ∃ front, text = front ++ rest ∧ Takes (exponentPart? isZero) front exponent? rest := by
  cases text with
  | nil =>
      cases h
      refine ⟨[], rfl, ?_⟩
      intro behind hbehind
      rw [List.prefix_nil.mp hbehind]
      rfl
  | cons c text =>
      by_cases hc : c = 'e' ∨ c = 'E'
      · rw [exponentPart?_cons hc] at h
        obtain ⟨⟨written, _⟩, hwritten, h⟩ := bind_eq_ok.mp h
        obtain ⟨rfl, hexponent⟩ := exponentOf_eq_ok h
        obtain ⟨hsigned, hne, hdigits, hrest⟩ := digits_eq_ok hwritten
        obtain ⟨sign, rfl, hsign⟩ := exists_sign hsigned hne hdigits
        refine ⟨c :: (sign ++ written), by simp, ?_⟩
        intro behind hbehind
        have hread := digits_append hne hdigits (forall_head?_of_cut hbehind hrest)
        rw [List.cons_append, List.append_assoc, exponentPart?_cons hc, hsign, hread]
        exact hexponent behind
      · rw [exponentPart?, if_neg hc] at h
        cases h
        refine ⟨[], rfl, ?_⟩
        intro behind hbehind
        apply exponentPart?_none
        have hfirst : ∀ other ∈ (c :: text).head?, other ∉ ['e', 'E'] := by
          rintro _ ⟨⟩
          simpa using hc
        exact forall_head?_of_cut hbehind hfirst

theorem Takes.cut {α : Type} {read : Reader α} {front more rest behind : List Char} {a : α}
    (h : Takes read front a (more ++ rest)) (hbehind : behind <+: rest) :
    read (front ++ (more ++ behind)) = .ok (a, more ++ behind) :=
  h _ (List.prefix_append_right_inj more |>.mpr hbehind)

theorem exists_front_of_magnitude {negative : Bool} {text rest : List Char} {read : Number}
    (h : magnitude convert negative text = .ok (read, rest)) :
    ∃ c front, c.isDigit ∧ text = c :: front ++ rest ∧
      Takes (magnitude convert negative) (c :: front) read rest := by
  obtain ⟨⟨whole, _⟩, hwhole, hbehind⟩ := bind_eq_ok.mp h
  obtain ⟨⟨fraction?, _⟩, hfraction, hbehind⟩ := bind_eq_ok.mp hbehind
  obtain ⟨⟨exponent?, _⟩, hexponent, hlast⟩ := bind_eq_ok.mp hbehind
  have takesWhole := takes_wholeDigits hwhole
  obtain ⟨rfl, hne, hdigits, -⟩ := wholeDigits_eq_ok hwhole
  obtain ⟨fraction, rfl, takesFraction⟩ := exists_front_of_fractionPart? hfraction
  obtain ⟨exponent, rfl, takesExponent⟩ := exists_front_of_exponentPart? hexponent
  obtain ⟨c, others, rfl⟩ := List.exists_cons_of_ne_nil hne
  cases hnumber : assemble? convert negative (c :: others) fraction? exponent? with
  | none => simp [hnumber] at hlast
  | some number =>
      simp only [hnumber] at hlast
      cases hlast
      refine ⟨c, others ++ fraction ++ exponent, hdigits c (by simp), by simp, ?_⟩
      intro behind hcut
      rw [← List.append_assoc] at takesWhole
      have readWhole := takesWhole.cut hcut
      have readFraction := takesFraction.cut hcut
      have readExponent := takesExponent behind hcut
      simp only [List.append_assoc, List.cons_append] at readWhole ⊢
      simp only [magnitude, readWhole, readFraction, readExponent, hnumber, bind, Except.bind]
      rfl

theorem number_of_digit {c : Char} (hc : c.isDigit) (text : List Char) :
    number convert (c :: text) = magnitude convert false (c :: text) := by
  unfold number
  split
  · rename_i heq
    obtain ⟨rfl, -⟩ := List.cons.inj heq
    cases hc
  · rfl

theorem exists_front_of_number {text rest : List Char} {read : Number}
    (h : number convert text = .ok (read, rest)) :
    ∃ c front, (c = '-' ∨ c.isDigit) ∧ text = c :: front ++ rest ∧
      Takes (number convert) (c :: front) read rest := by
  unfold number at h
  split at h
  · obtain ⟨c, front, -, rfl, htakes⟩ := exists_front_of_magnitude h
    exact ⟨'-', c :: front, .inl rfl, rfl, htakes⟩
  · obtain ⟨c, front, hc, rfl, htakes⟩ := exists_front_of_magnitude h
    refine ⟨c, front, .inr hc, rfl, ?_⟩
    intro behind hcut
    rw [List.cons_append, number_of_digit hc]
    exact htakes behind hcut

/-! ### Blanks -/

theorem allBlank_takeWhile (text : List Char) : AllBlank (text.takeWhile isBlank) :=
  fun _ => List.mem_takeWhile_imp

theorem takeWhile_append_skipBlanks (text : List Char) :
    text.takeWhile isBlank ++ skipBlanks text = text :=
  List.takeWhile_append_dropWhile

/-- Blanks and a mark behind them are skipped up to the mark, whatever follows it. -/
theorem exists_blanks_of_mark {c : Char} {text rest : List Char} (h : skipBlanks text = c :: rest) :
    ∃ blanks, text = blanks ++ c :: rest ∧
      ∀ behind, skipBlanks (blanks ++ c :: behind) = c :: behind := by
  have hfirst : ∀ first ∈ (skipBlanks text).head?, isBlank first = false :=
    forall_head?_dropWhile isBlank text
  have hc : isBlank c = false := hfirst c (by rw [h]; rfl)
  refine ⟨text.takeWhile isBlank, ?_, ?_⟩
  · rw [← h, takeWhile_append_skipBlanks]
  · intro behind
    rw [skipBlanks_append (allBlank_takeWhile text), skipBlanks_cons hc]

/-- What is behind blanks may be nothing, and then nothing of the rest is a blank that is skipped,
however much of it is cut off. -/
theorem exists_blanks_of_front {text front rest : List Char} (h : skipBlanks text = front ++ rest) :
    ∃ blanks, text = blanks ++ (front ++ rest) ∧
      ∀ behind, behind <+: rest → skipBlanks (blanks ++ (front ++ behind)) = front ++ behind := by
  refine ⟨text.takeWhile isBlank, ?_, ?_⟩
  · rw [← h, takeWhile_append_skipBlanks]
  · intro behind hcut
    rw [skipBlanks_append (allBlank_takeWhile text)]
    have hfront : front ++ behind <+: skipBlanks text := by
      rw [h]
      exact (List.prefix_append_right_inj front).mpr hcut
    have hfirst := forall_head?_of_cut hfront (forall_head?_dropWhile isBlank text)
    cases hread : front ++ behind with
    | nil => rfl
    | cons c more => exact skipBlanks_cons (hfirst c (by rw [hread]; rfl)) more

/-! ### Containers -/

/-- Whatever a reader gives is taken from a front of the text. -/
def TakesFronts {α : Type} (read : Reader α) : Prop :=
  ∀ text a rest, read text = .ok (a, rest) → ∃ front, text = front ++ rest ∧ Takes read front a rest

theorem items_eq_ok {value : Reader Json} {turns : Nat} {text rest : List Char} {read : List Json}
    (h : items value (turns + 1) text = .ok (read, rest)) :
    ∃ item behind, value text = .ok (item, behind) ∧
      (skipBlanks behind = ']' :: rest ∧ read = [item] ∨
        ∃ more others, skipBlanks behind = ',' :: more ∧
          items value turns (skipBlanks more) = .ok (others, rest) ∧ read = item :: others) := by
  unfold items at h
  obtain ⟨⟨item, behind⟩, hitem, h⟩ := bind_eq_ok.mp h
  refine ⟨item, behind, hitem, ?_⟩
  dsimp only at h
  split at h
  · cases h
  · rename_i hclosed
    cases h
    exact .inl ⟨hclosed, rfl⟩
  · rename_i more hcomma
    split at h
    · cases h
    · obtain ⟨⟨others, _⟩, hothers, h⟩ := bind_eq_ok.mp h
      cases h
      exact .inr ⟨more, others, hcomma, hothers, rfl⟩
  · cases h

theorem exists_front_of_items {limit turns : Nat} {text rest : List Char} {read : List Json}
    (hvalue : TakesFronts (value convert limit))
    (h : items (value convert limit) turns text = .ok (read, rest)) :
    ∃ front, text = front ++ rest ∧ ∀ turns', front.length ≤ turns' →
      Takes (items (value convert limit) turns') front read rest := by
  -- There are as many turns as the text has characters, so fewer once the rest is cut off; the
  -- front takes no more than it is long.
  induction turns generalizing text read with
  | zero => simp [items] at h
  | succ turns ih =>
      obtain ⟨item, behindItem, hitem, hbehind⟩ := items_eq_ok h
      obtain ⟨first, rfl, takesItem⟩ := hvalue _ _ _ hitem
      rcases hbehind with ⟨hclosed, rfl⟩ | ⟨behindComma, others, hcomma, hothers, rfl⟩
      · obtain ⟨blanks, rfl, skipsBlanks⟩ := exists_blanks_of_mark hclosed
        refine ⟨first ++ blanks ++ [']'], by simp, ?_⟩
        intro turns' hturns behind hcut
        cases turns' with
        | zero => simp at hturns
        | succ turns' =>
            have hitem := takesItem (blanks ++ ']' :: behind) (by simpa using hcut)
            simpa using items_last hitem (skipsBlanks behind)
      · obtain ⟨blanks, rfl, skipsBlanks⟩ := exists_blanks_of_mark hcomma
        obtain ⟨front, hfront, takesOthers⟩ := ih hothers
        obtain ⟨gap, rfl, skipsGap⟩ := exists_blanks_of_front hfront
        refine ⟨first ++ blanks ++ ',' :: (gap ++ front), by simp, ?_⟩
        intro turns' hturns behind hcut
        cases turns' with
        | zero => simp at hturns
        | succ turns' =>
            have hle : front.length ≤ turns' := by
              simp only [List.length_append, List.length_cons] at hturns
              omega
            have hitem := takesItem (blanks ++ ',' :: (gap ++ (front ++ behind)))
              (by simpa using hcut)
            have hothers := takesOthers turns' hle behind hcut
            rw [← skipsGap behind hcut] at hothers
            simpa using items_next hitem (skipsBlanks _) hothers

theorem sequence_takesFronts {limit : Nat} (hvalue : TakesFronts (value convert limit)) :
    TakesFronts (sequence (value convert limit)) := by
  intro text read rest h
  unfold sequence at h
  split at h
  · cases h
  · rename_i hclosed
    cases h
    obtain ⟨blanks, rfl, skipsBlanks⟩ := exists_blanks_of_mark hclosed
    refine ⟨blanks ++ [']'], by simp, ?_⟩
    intro behind _
    rw [List.append_assoc, List.singleton_append, sequence, skipsBlanks]
    rfl
  · obtain ⟨⟨read, _⟩, hread, h⟩ := map_eq_ok.mp h
    cases h
    obtain ⟨front, hfront, takesItems⟩ := exists_front_of_items hvalue hread
    obtain ⟨blanks, rfl, skipsBlanks⟩ := exists_blanks_of_front hfront
    refine ⟨blanks ++ front, by simp, ?_⟩
    intro behind hcut
    rw [List.append_assoc]
    apply sequence_of_items
    rw [skipsBlanks behind hcut]
    exact takesItems _ (by simp) behind hcut

theorem exists_front_of_key {text rest : List Char} {name : String}
    (h : key text = .ok (name, rest)) :
    ∃ front, text = front ++ rest ∧ ∀ behind, key (front ++ behind) = .ok (name, behind) := by
  unfold key at h
  split at h
  · cases h
  · obtain ⟨⟨chars, _⟩, hchars, h⟩ := map_eq_ok.mp h
    cases h
    obtain ⟨front, rfl, takesString⟩ := exists_front_of_stringBody hchars
    refine ⟨'"' :: front, rfl, ?_⟩
    intro behind
    rw [List.cons_append, key, takesString behind]
    rfl
  · cases h

theorem exists_front_of_colon {text rest : List Char} (h : colon text = .ok rest) :
    ∃ front, text = front ++ rest ∧ ∀ behind, colon (front ++ behind) = .ok behind := by
  unfold colon at h
  split at h
  · cases h
  · rename_i hcolon
    cases h
    obtain ⟨blanks, rfl, skipsBlanks⟩ := exists_blanks_of_mark hcolon
    refine ⟨blanks ++ [':'], by simp, ?_⟩
    intro behind
    rw [List.append_assoc, List.singleton_append, colon, skipsBlanks]
    rfl
  · cases h

theorem MemberRead.exists_front {value : Reader Json} {text rest : List Char}
    {member : String × Json} (hvalue : TakesFronts value) (h : MemberRead value text member rest) :
    ∃ front, text = front ++ rest ∧
      ∀ behind, behind <+: rest → MemberRead value (front ++ behind) member behind := by
  obtain ⟨behindKey, behindColon, hkey, hcolon, hitem⟩ := h
  obtain ⟨name, rfl, takesName⟩ := exists_front_of_key hkey
  obtain ⟨mark, rfl, takesMark⟩ := exists_front_of_colon hcolon
  obtain ⟨item, rfl, takesItem⟩ := hvalue _ _ _ hitem
  refine ⟨name ++ mark ++ item, by simp, ?_⟩
  intro behind hcut
  rw [List.append_assoc, List.append_assoc]
  exact ⟨_, _, takesName _, takesMark _, takesItem behind hcut⟩

theorem members_eq_ok {value : Reader Json} {turns : Nat} {text rest : List Char}
    {held read : List (String × Json)}
    (h : members value (turns + 1) held text = .ok (read, rest)) :
    ∃ member behind, MemberRead value text member behind ∧
      (skipBlanks behind = '}' :: rest ∧ read = write member.1 member.2 held ∨
        ∃ more, skipBlanks behind = ',' :: more ∧
          members value turns (write member.1 member.2 held) (skipBlanks more) =
            .ok (read, rest)) := by
  unfold members at h
  obtain ⟨⟨name, behindKey⟩, hkey, h⟩ := bind_eq_ok.mp h
  obtain ⟨behindColon, hcolon, h⟩ := bind_eq_ok.mp h
  obtain ⟨⟨item, behind⟩, hitem, h⟩ := bind_eq_ok.mp h
  refine ⟨(name, item), behind, ⟨behindKey, behindColon, hkey, hcolon, hitem⟩, ?_⟩
  dsimp only at h
  split at h
  · cases h
  · rename_i hclosed
    cases h
    exact .inl ⟨hclosed, rfl⟩
  · rename_i more hcomma
    split at h
    · cases h
    · exact .inr ⟨more, hcomma, h⟩
  · cases h

theorem exists_front_of_members {value : Reader Json} {turns : Nat} {text rest : List Char}
    {held read : List (String × Json)} (hvalue : TakesFronts value)
    (h : members value turns held text = .ok (read, rest)) :
    ∃ front, text = front ++ rest ∧ ∀ turns', front.length ≤ turns' →
      Takes (members value turns' held) front read rest := by
  induction turns generalizing held text with
  | zero => simp [members] at h
  | succ turns ih =>
      obtain ⟨member, behindMember, hmember, hbehind⟩ := members_eq_ok h
      obtain ⟨first, rfl, takesMember⟩ := hmember.exists_front hvalue
      rcases hbehind with ⟨hclosed, rfl⟩ | ⟨behindComma, hcomma, hothers⟩
      · obtain ⟨blanks, rfl, skipsBlanks⟩ := exists_blanks_of_mark hclosed
        refine ⟨first ++ blanks ++ ['}'], by simp, ?_⟩
        intro turns' hturns behind hcut
        cases turns' with
        | zero => simp at hturns
        | succ turns' =>
            have hmember := takesMember (blanks ++ '}' :: behind) (by simpa using hcut)
            simpa using members_last hmember (skipsBlanks behind)
      · obtain ⟨blanks, rfl, skipsBlanks⟩ := exists_blanks_of_mark hcomma
        obtain ⟨front, hfront, takesOthers⟩ := ih hothers
        obtain ⟨gap, rfl, skipsGap⟩ := exists_blanks_of_front hfront
        refine ⟨first ++ blanks ++ ',' :: (gap ++ front), by simp, ?_⟩
        intro turns' hturns behind hcut
        cases turns' with
        | zero => simp at hturns
        | succ turns' =>
            have hle : front.length ≤ turns' := by
              simp only [List.length_append, List.length_cons] at hturns
              omega
            have hmember := takesMember (blanks ++ ',' :: (gap ++ (front ++ behind)))
              (by simpa using hcut)
            have hothers := takesOthers turns' hle behind hcut
            rw [← skipsGap behind hcut] at hothers
            simpa using members_next hmember (skipsBlanks _) hothers

theorem mapping_takesFronts {value : Reader Json} (hvalue : TakesFronts value) :
    TakesFronts (mapping value) := by
  intro text read rest h
  unfold mapping at h
  split at h
  · cases h
  · rename_i hclosed
    cases h
    obtain ⟨blanks, rfl, skipsBlanks⟩ := exists_blanks_of_mark hclosed
    refine ⟨blanks ++ ['}'], by simp, ?_⟩
    intro behind _
    rw [List.append_assoc, List.singleton_append, mapping, skipsBlanks]
    rfl
  · obtain ⟨⟨read, _⟩, hread, h⟩ := map_eq_ok.mp h
    cases h
    obtain ⟨front, hfront, takesMembers⟩ := exists_front_of_members hvalue hread
    obtain ⟨blanks, rfl, skipsBlanks⟩ := exists_blanks_of_front hfront
    refine ⟨blanks ++ front, by simp, ?_⟩
    intro behind hcut
    rw [List.append_assoc]
    apply mapping_of_members
    rw [skipsBlanks behind hcut]
    exact takesMembers _ (by simp) behind hcut

/-! ### Documents -/

theorem word_eq_ok {letters text rest : List Char} (h : word letters text = .ok rest) :
    text = letters ++ rest := by
  induction letters generalizing text with
  | nil =>
      cases h
      rfl
  | cons letter letters ih =>
      cases text with
      | nil => cases h
      | cons c text =>
          rw [word] at h
          split at h
          · rename_i hc
            rw [hc, ih h]
            rfl
          · cases h

theorem eq_of_word {letters text rest : List Char} {named read : Json}
    (h : (word letters text).map (named, ·) = .ok (read, rest)) :
    text = letters ++ rest ∧ named = read := by
  obtain ⟨_, hword, h⟩ := map_eq_ok.mp h
  cases h
  exact ⟨word_eq_ok hword, rfl⟩

theorem document_takesFronts {inner : Option (Reader Json)}
    (hinner : ∀ read, inner = some read → TakesFronts (sequence read) ∧ TakesFronts (mapping read)) :
    TakesFronts (document convert inner) := by
  intro text read rest h
  -- A document is told by its first character behind the blanks, so these are set aside.
  suffices hfront : ∃ front, skipBlanks text = front ++ rest ∧
      Takes (document convert inner) front read rest by
    obtain ⟨front, hfront, takesDocument⟩ := hfront
    obtain ⟨blanks, rfl, skipsBlanks⟩ := exists_blanks_of_front hfront
    refine ⟨blanks ++ front, by simp, ?_⟩
    intro behind hcut
    rw [List.append_assoc, ← document_skipBlanks, skipsBlanks behind hcut]
    exact takesDocument behind hcut
  unfold document at h
  split at h
  · cases h
  · rename_i hstart
    obtain ⟨rfl, rfl⟩ := eq_of_word h
    exact ⟨"null".toList, hstart, fun _ _ => rfl⟩
  · rename_i hstart
    obtain ⟨rfl, rfl⟩ := eq_of_word h
    exact ⟨"true".toList, hstart, fun _ _ => rfl⟩
  · rename_i hstart
    obtain ⟨rfl, rfl⟩ := eq_of_word h
    exact ⟨"false".toList, hstart, fun _ _ => rfl⟩
  · rename_i hstart
    obtain ⟨⟨chars, _⟩, hchars, h⟩ := map_eq_ok.mp h
    cases h
    obtain ⟨front, rfl, takesString⟩ := exists_front_of_stringBody hchars
    refine ⟨'"' :: front, hstart, ?_⟩
    intro behind _
    rw [List.cons_append, document, skipBlanks_cons rfl]
    simp only [takesString behind]
    rfl
  · rename_i hstart
    split at h
    · obtain ⟨front, rfl, takesSequence⟩ := (hinner _ rfl).1 _ _ _ h
      refine ⟨'[' :: front, hstart, ?_⟩
      intro behind hcut
      rw [List.cons_append, document, skipBlanks_cons rfl]
      exact takesSequence behind hcut
    · cases h
  · rename_i hstart
    split at h
    · obtain ⟨front, rfl, takesMapping⟩ := (hinner _ rfl).2 _ _ _ h
      refine ⟨'{' :: front, hstart, ?_⟩
      intro behind hcut
      rw [List.cons_append, document, skipBlanks_cons rfl]
      exact takesMapping behind hcut
    · cases h
  · rename_i hstart
    split at h
    · obtain ⟨⟨number, _⟩, hnumber, h⟩ := map_eq_ok.mp h
      cases h
      obtain ⟨c, front, hc, hfront, takesNumber⟩ := exists_front_of_number hnumber
      refine ⟨c :: front, hstart.trans hfront, ?_⟩
      intro behind hcut
      rw [List.cons_append, document_of_sign_or_digit hc]
      have hread := takesNumber behind hcut
      rw [List.cons_append] at hread
      rw [hread]
      rfl
    · cases h

theorem value_takesFronts (convert : Conversion) (limit : Nat) :
    TakesFronts (value convert limit) := by
  induction limit with
  | zero =>
      have hread : value convert 0 = document convert none := rfl
      rw [hread]
      exact document_takesFronts (by simp)
  | succ limit ih =>
      have hread : value convert (limit + 1) = document convert (some (value convert limit)) :=
        rfl
      rw [hread]
      apply document_takesFronts
      rintro _ ⟨⟩
      exact ⟨sequence_takesFronts ih, mapping_takesFronts ih⟩

/-- A document at the front of a text can be read as a text of its own. -/
theorem exists_front_of_leading {text rest : List Char} {read : Json}
    (h : leading text = .ok (read, rest)) :
    ∃ front, text = front ++ rest ∧ Json.read (String.ofList front) = .ok read := by
  obtain ⟨front, rfl, takesDocument⟩ := value_takesFronts _ _ _ _ _ h
  refine ⟨front, rfl, ?_⟩
  have halone : leading (front ++ []) = .ok (read, []) := takesDocument [] List.nil_prefix
  rw [List.append_nil] at halone
  rw [Json.read, String.toList_ofList, whole, halone]
  rfl

end Reshape.Json
