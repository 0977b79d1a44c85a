import Pocl.Diagnostic

/-!
# Reading a source by byte offsets

A slice of a source is given by two byte offsets. It exists where the first is not after the second
and both stand between characters of the source. The line and the column of an offset can be read
from two slices: the text before the offset, and the last line of that text. A cursor is a byte
offset too: scanning moves it over the source from character to character, and both the next
character and the text of a lexeme are read from slices. An answer is `none` where a slice does not
exist.

## Main definitions

* `slice? source start stop`: the text between two byte offsets
* `Location.ofSlices? source offset`: the location of an offset, read from slices
* `peek? source pos`: the character at the cursor
* `skip? source p pos`: the cursor after the characters that pass a test
* `run? source p kind start c`: the token that goes on while a test is passed
* `lexeme? source start c`: the token that begins with the character `c` at an offset
* `nextToken? source pos`: the first token from the cursor on
* `scanSlices? source pos`: the tokens from the cursor on

## Main results

* `utf8ByteSize_of_slice?`: how long a slice is
* `lt_of_peek?`: a character that is read lies before the end
* `le_of_skip?`, `lt_position_of_lexeme?`: the cursor does not move back
-/

namespace Pocl

variable {source : String} {p : Char → Bool} {c : Char} {pos start stop : Nat} {t : Token}

/-- The text between two byte offsets, or `none` where one of them lies beyond the end of the source
or inside a character, or the second before the first. -/
def slice? (source : String) (start stop : Nat) : Option String :=
  if h : String.Pos.Raw.IsValid source ⟨start⟩ ∧ String.Pos.Raw.IsValid source ⟨stop⟩ ∧
      start ≤ stop then
    some (source.slice (source.pos ⟨start⟩ h.1) (source.pos ⟨stop⟩ h.2.1)
      (String.Pos.le_iff.mpr (String.Pos.Raw.le_iff.mpr h.2.2))).copy
  else none

theorem utf8ByteSize_of_slice? {part : String} (h : slice? source start stop = some part) :
    start + part.utf8ByteSize = stop := by
  unfold slice? at h
  split at h
  next hvalid =>
    obtain rfl := Option.some.inj h
    rw [String.Slice.utf8ByteSize_copy, String.utf8ByteSize_slice]
    exact Nat.add_sub_of_le hvalid.2.2
  next => cases h

/-! ## Locations -/

/-- The offset of the last line feed. -/
def lastLineFeed? : List Char → Option Nat
  | [] => none
  | c :: cs =>
    match lastLineFeed? cs with
    | some i => some (c.utf8Size + i)
    | none => if c = '\n' then some 0 else none

/-- The location of a byte offset, read from the slice before it and the slice from the last line
feed of that one on. -/
def Location.ofSlices? (source : String) (offset : Nat) : Option Location := do
  let before ← slice? source 0 (min offset source.utf8ByteSize)
  let lineStart := (lastLineFeed? before.toList).elim 0 (· + 1)
  let line ← slice? before lineStart before.utf8ByteSize
  some ⟨before.toList.count '\n' + 1, line.length + 1⟩

/-! ## Scanning: characters -/

/-- The character at the cursor, or `some none` at the end of the source. -/
def peek? (source : String) (pos : Nat) : Option (Option Char) :=
  (slice? source pos source.utf8ByteSize).map fun rest => rest.toList.head?

theorem lt_of_peek? (h : peek? source pos = some (some c)) : pos < source.utf8ByteSize := by
  obtain ⟨rest, hrest, hc⟩ := Option.map_eq_some_iff.mp h
  have hsize := utf8ByteSize_of_slice? hrest
  have : rest.utf8ByteSize ≠ 0 := by
    intro hzero
    rw [String.utf8ByteSize_eq_zero_iff.mp hzero] at hc
    cases hc
  omega

/-- The cursor after the characters that pass the test. -/
def skip? (source : String) (p : Char → Bool) (pos : Nat) : Option Nat :=
  match _h : peek? source pos with
  | none => none
  | some none => some pos
  | some (some c) => if p c then skip? source p (pos + c.utf8Size) else some pos
termination_by source.utf8ByteSize - pos
decreasing_by
  have := lt_of_peek? _h
  have := c.utf8Size_pos
  omega

theorem le_of_skip? (h : skip? source p pos = some stop) : pos ≤ stop := by
  fun_induction skip? source p pos with
  | case1 => cases h
  | case2 => exact Nat.le_of_eq (Option.some.inj h)
  | case3 pos c hc hp ih =>
    have := ih h
    omega
  | case4 => exact Nat.le_of_eq (Option.some.inj h)

/-! ## Scanning: tokens -/

/-- The token of the character `c` at the offset `start` and of the characters after it that pass
the test. Its text decides its class. -/
def run? (source : String) (p : Char → Bool) (kind : String → TokenKind) (start : Nat) (c : Char) :
    Option Token := do
  let stop ← skip? source p (start + c.utf8Size)
  let text ← slice? source start stop
  some ⟨kind text, text, stop⟩

theorem lt_position_of_run? {kind : String → TokenKind} (h : run? source p kind start c = some t) :
    start < t.position := by
  obtain ⟨stop, hstop, h⟩ := Option.bind_eq_some_iff.mp h
  obtain ⟨text, -, h⟩ := Option.bind_eq_some_iff.mp h
  obtain rfl := Option.some.inj h
  exact Nat.lt_of_lt_of_le (Nat.lt_add_of_pos_right c.utf8Size_pos) (le_of_skip? hstop)

/-- The token that begins with the character `c` at the offset `start`. -/
def lexeme? (source : String) (start : Nat) (c : Char) : Option Token :=
  if c.isDigit then run? source Char.isDigit (fun _ => .literal) start c
  else if isLetter c then
    run? source isWordPart (fun word => if isKeyword word then .keyword else .identifier) start c
  else if c = '.' then do
    let next ← peek? source (start + c.utf8Size)
    if next = some '.' then some ⟨.operator, "..", start + c.utf8Size + '.'.utf8Size⟩
    else some ⟨.error, ".", start + c.utf8Size⟩
  else some ⟨symbolKind c, String.singleton c, start + c.utf8Size⟩

theorem lt_position_of_lexeme? (h : lexeme? source start c = some t) : start < t.position := by
  have hc : start < start + c.utf8Size := Nat.lt_add_of_pos_right c.utf8Size_pos
  unfold lexeme? at h
  split at h
  · exact lt_position_of_run? h
  split at h
  · exact lt_position_of_run? h
  split at h
  · obtain ⟨next, -, h⟩ := Option.bind_eq_some_iff.mp h
    split at h <;> obtain rfl := Option.some.inj h
    · exact Nat.lt_add_right _ hc
    · exact hc
  · obtain rfl := Option.some.inj h
    exact hc

/-- The first token from the cursor on, or `some none` where only blanks are left. -/
def nextToken? (source : String) (pos : Nat) : Option (Option Token) := do
  let start ← skip? source isBlank pos
  match ← peek? source start with
  | none => some none
  | some c => (lexeme? source start c).map some

theorem lt_of_nextToken? (h : nextToken? source pos = some (some t)) :
    pos < source.utf8ByteSize ∧ pos < t.position := by
  obtain ⟨start, hstart, h⟩ := Option.bind_eq_some_iff.mp h
  obtain ⟨next, hnext, h⟩ := Option.bind_eq_some_iff.mp h
  have hle := le_of_skip? hstart
  cases next with
  | none => cases h
  | some c =>
    obtain ⟨u, hu, h⟩ := Option.map_eq_some_iff.mp h
    obtain rfl := Option.some.inj h
    exact ⟨Nat.lt_of_le_of_lt hle (lt_of_peek? hnext),
      Nat.lt_of_le_of_lt hle (lt_position_of_lexeme? hu)⟩

/-- The tokens from the cursor on. -/
def scanSlices? (source : String) (pos : Nat) : Option (List Token) :=
  match _h : nextToken? source pos with
  | none => none
  | some none => some []
  | some (some t) => (scanSlices? source t.position).map (t :: ·)
termination_by source.utf8ByteSize - pos
decreasing_by
  have := lt_of_nextToken? _h
  omega

end Pocl
