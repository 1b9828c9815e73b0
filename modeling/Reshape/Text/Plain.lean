/-!
Plain text: what is left of a text when it may not control a terminal.

The control characters that are no white space are dropped, U+007F among them, and so are the
escape sequences of terminals: a single letter behind the escape character, a control sequence up
to its final letter, or a string for the terminal up to its end. No character beyond ASCII ends a
sequence, but for one whose bytes hold the end mark of strings.

White space inside a sequence is kept, unless the sequence is a string, and what is printed behind
it is kept with it. At the next control character that is dropped the sequence goes on from where
it was, unless a character beyond ASCII has been kept since. A text is written in pieces: sequences
run on from piece to piece, but a run of kept characters ends with its piece.
-/

namespace Reshape.Text

/-- What part of a terminal's escape sequence a text is in, if any. Of the strings, a title ends
otherwise than the others, and those for a device begin with settings before a letter. -/
inductive SequencePart where
  | none
  | start
  | middle
  | control
  | title
  | message
  | device
  | deviceSettings
  | deviceMiddle
deriving DecidableEq

/-- Whether a control character is white space. -/
def isControlBlank (c : Char) : Bool :=
  c = '\t' || c = '\n' || c = '\x0c' || c = '\r'

/-- Whether the bytes of a character in UTF-8 hold the byte that ends a string for a terminal. -/
def endsMessage (c : Char) : Bool :=
  (String.utf8EncodeChar c).contains 0x9C

namespace SequencePart

/-- Whether a character in some part is kept. -/
def keeps (part : SequencePart) (c : Char) : Bool :=
  match part with
  | .none => 0x20 ≤ c.toNat && c ≠ '\x7f' || isControlBlank c
  | .start | .middle | .control => isControlBlank c
  | .title | .message | .device | .deviceSettings | .deviceMiddle => false

/-- The part that the printing character of ASCII behind an escape character leads to. -/
def afterEscape (c : Char) : SequencePart :=
  if c = '[' then .control
  else if c = ']' then .title
  else if c = 'P' then .device
  else if c = 'X' ∨ c = '^' ∨ c = '_' then .message
  else if c.toNat < 0x30 then .middle
  else .none

/-- The part that a printing character of ASCII leads to. -/
def afterPrinting (part : SequencePart) (c : Char) : SequencePart :=
  match part with
  | .none => .none
  | .start => afterEscape c
  | .middle => if c.toNat < 0x30 then .middle else .none
  | .control => if c.toNat < 0x40 then .control else .none
  | .title => .title
  | .message => .message
  | .device =>
      if c.toNat < 0x30 then .deviceMiddle
      else if c.toNat < 0x40 then .deviceSettings
      else .message
  | .deviceSettings =>
      if c.toNat < 0x30 then .deviceMiddle
      else if c.toNat < 0x3C then .deviceSettings
      else .message
  | .deviceMiddle => if c.toNat < 0x30 then .deviceMiddle else .message

/-- The part that a character leads to, if it is not kept. -/
def next (part : SequencePart) (c : Char) : SequencePart :=
  if c = '\x18' ∨ c = '\x1a' then .none
  else if c = '\x1b' then .start
  else if part = .title ∧ c = '\x07' ∨ part = .message ∧ endsMessage c then .none
  else if 0x20 ≤ c.toNat ∧ c.toNat < 0x7F then part.afterPrinting c
  else part

end SequencePart

/-- Where in a text a character stands: in what part of a sequence, and whether within a run of
kept characters. -/
structure PlainPosition where
  part : SequencePart
  inRun : Bool
deriving DecidableEq

namespace PlainPosition

/-- Whether a character is kept. -/
def keeps (position : PlainPosition) (c : Char) : Bool :=
  if position.inRun then SequencePart.none.keeps c else position.part.keeps c

/-- Where the character behind a character stands. -/
def next (position : PlainPosition) (c : Char) : PlainPosition :=
  if position.keeps c then ⟨if 0x80 ≤ c.toNat then .none else position.part, true⟩
  else ⟨position.part.next c, false⟩

end PlainPosition

/-- What is kept of a text whose first character stands at some position. -/
def keptFrom (position : PlainPosition) : List Char → List Char
  | [] => []
  | c :: rest =>
      if position.keeps c then c :: keptFrom (position.next c) rest
      else keptFrom (position.next c) rest

/-- What is kept of the pieces of a text that starts in some part of a sequence. -/
def plainFrom (part : SequencePart) : List String → List Char
  | [] => []
  | piece :: rest =>
      let start : PlainPosition := ⟨part, false⟩
      keptFrom start piece.toList ++
        plainFrom (piece.toList.foldl PlainPosition.next start).part rest

/-- Drops what controls a terminal from a text that is written in pieces. -/
def plain (pieces : List String) : String :=
  String.ofList (plainFrom .none pieces)

/-- Outside of sequences a line break and a character that is no low control lead nowhere else. -/
theorem PlainPosition.next_none {c : Char} (h : c = '\n' ∨ 0x20 ≤ c.toNat) (inRun : Bool) :
    ∃ inNextRun, PlainPosition.next ⟨.none, inRun⟩ c = ⟨.none, inNextRun⟩ := by
  have hlow : ∀ d : Char, d.toNat < 0x20 → d ≠ '\n' → c ≠ d := fun d hd hn he => by
    subst he
    rcases h with h | h
    · exact hn h
    · omega
  have h1 := hlow '\x18' (by decide) (by decide)
  have h2 := hlow '\x1a' (by decide) (by decide)
  have h3 := hlow '\x1b' (by decide) (by decide)
  unfold PlainPosition.next
  split
  · exact ⟨true, by split <;> rfl⟩
  · exact ⟨false, by simp [SequencePart.next, SequencePart.afterPrinting, h1, h2, h3]⟩

/-- Of these characters U+007F alone is dropped. -/
theorem PlainPosition.keeps_none {c : Char} (h : c = '\n' ∨ 0x20 ≤ c.toNat) (inRun : Bool) :
    PlainPosition.keeps ⟨.none, inRun⟩ c = decide (c ≠ '\x7f') := by
  rcases h with rfl | h
  · simp [PlainPosition.keeps, SequencePart.keeps, isControlBlank]
  · by_cases hdel : c = '\x7f'
    · simp [PlainPosition.keeps, SequencePart.keeps, isControlBlank, hdel]
    · simp [PlainPosition.keeps, SequencePart.keeps, h, hdel]

/-- A text whose only control character is the line break loses U+007F and nothing else. -/
theorem keptFrom_none {text : List Char} (h : ∀ c ∈ text, c = '\n' ∨ 0x20 ≤ c.toNat)
    (inRun : Bool) : keptFrom ⟨.none, inRun⟩ text = text.filter (· ≠ '\x7f') := by
  induction text generalizing inRun with
  | nil => rfl
  | cons c rest ih =>
      have hc := h c List.mem_cons_self
      obtain ⟨inNextRun, hnext⟩ := PlainPosition.next_none hc inRun
      have hrest := ih (fun c hc => h c (List.mem_cons_of_mem _ hc)) inNextRun
      rw [keptFrom, PlainPosition.keeps_none hc, hnext, hrest]
      by_cases hdel : c = '\x7f' <;> simp [hdel]

/-- Such a text ends where it starts, outside of sequences. -/
theorem part_foldl_next {text : List Char} (h : ∀ c ∈ text, c = '\n' ∨ 0x20 ≤ c.toNat)
    (inRun : Bool) : (text.foldl PlainPosition.next ⟨.none, inRun⟩).part = .none := by
  induction text generalizing inRun with
  | nil => rfl
  | cons c rest ih =>
      obtain ⟨inNextRun, hnext⟩ := PlainPosition.next_none (h c List.mem_cons_self) inRun
      rw [List.foldl_cons, hnext]
      exact ih (fun c hc => h c (List.mem_cons_of_mem _ hc)) inNextRun

/-- The same for a text in pieces: what is kept does not depend on where the pieces end. -/
theorem plainFrom_none {pieces : List String}
    (h : ∀ piece ∈ pieces, ∀ c ∈ piece.toList, c = '\n' ∨ 0x20 ≤ c.toNat) :
    plainFrom .none pieces = (pieces.flatMap String.toList).filter (· ≠ '\x7f') := by
  induction pieces with
  | nil => rfl
  | cons piece rest ih =>
      have hpiece := h piece List.mem_cons_self
      have hrest := ih fun piece hp => h piece (List.mem_cons_of_mem _ hp)
      simp [plainFrom, keptFrom_none hpiece, part_foldl_next hpiece, hrest]

end Reshape.Text
