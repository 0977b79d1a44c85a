import Pocl.Proofs.Json.Grammar

/-!
# Reading JSON

A reader takes characters from the front of a text. It answers what it read with the characters
after it, which are fewer than those it began with, so that its recursion ends. The reader takes
each text that the grammar allows and no other, so a text stands for one document at most.

## Main definitions

* `Reading α bound`: what was read, with fewer than `bound` characters after it
* `readValue`, `readItems`, `readMembers`: read a document, and the rest of an array or of an object
* `read? text`: the document that the whole text stands for

## Main results

* `Part.Spelled.read`: whatever follows the grammar is read as what it stands for
* `exists_spelled_of_readValue`: whatever is read follows the grammar
* `read?_eq_some_iff`: a text is read as the document it stands for, and no other text is read
-/

namespace Pocl.Json

/-- What was read from the front of a text, with the characters after it. -/
structure Reading (α : Type) (bound : Nat) where
  value : α
  rest : List Char
  rest_lt : rest.length < bound

/-! ## Signs -/

/-- Reads blanks and the given sign. -/
def readSign (sign : Char) (cs : List Char) : Option (Reading Unit cs.length) :=
  match cs with
  | [] => none
  | c :: us =>
    if c = sign then some ⟨(), us, Nat.lt_succ_self _⟩
    else if isBlank c then do
      let ⟨_, rest, h⟩ ← readSign sign us
      some ⟨(), rest, Nat.lt_succ_of_lt h⟩
    else none

/-- Reads what stands in front of an item, up to the comma. -/
def readSeparator (turn : Turn) (cs : List Char) : Option (Reading Unit (cs.length + 1)) :=
  match turn with
  | .first => some ⟨(), cs, Nat.lt_succ_self _⟩
  | .later => do
    let ⟨_, rest, h⟩ ← readSign ',' cs
    some ⟨(), rest, Nat.lt_succ_of_lt h⟩

/-! ## Strings and numbers -/

/-- The character with the given code, where there is one. -/
def charOfCode? (n : Nat) : Option Char :=
  if (Char.ofNat n).toNat = n then some (Char.ofNat n) else none

/-- Reads a character that is written as four hexadecimal digits. -/
def readCode (cs : List Char) : Option (Reading Char cs.length) :=
  match cs with
  | h₁ :: h₂ :: h₃ :: h₄ :: rest => do
    let n ← hexCode? h₁ h₂ h₃ h₄
    let c ← charOfCode? n
    some ⟨c, rest, by simp only [List.length_cons]; omega⟩
  | _ => none

/-- Reads an escaped character after its backslash. -/
def readEscape (cs : List Char) : Option (Reading Char cs.length) :=
  match cs with
  | [] => none
  | mark :: us =>
    if mark = 'u' then do
      let ⟨c, rest, h⟩ ← readCode us
      some ⟨c, rest, Nat.lt_succ_of_lt h⟩
    else do
      let c ← letterEscapes.lookup mark
      some ⟨c, us, Nat.lt_succ_self _⟩

/-- Reads the characters of a string after its first quote, up to and including the second. -/
def readChars (cs : List Char) : Option (Reading (List Char) cs.length) :=
  match cs with
  | [] => none
  | c :: us =>
    if c = '"' then some ⟨[], us, Nat.lt_succ_self _⟩
    else if c = '\\' then do
      let ⟨d, vs, h⟩ ← readEscape us
      let ⟨ds, rest, h'⟩ ← readChars vs
      some ⟨d :: ds, rest, Nat.lt_succ_of_lt (Nat.lt_trans h' h)⟩
    else if c.toNat < 0x20 then none
    else do
      let ⟨ds, rest, h⟩ ← readChars us
      some ⟨c :: ds, rest, Nat.lt_succ_of_lt h⟩
termination_by cs.length

/-- Reads blanks and a string. -/
def readString (cs : List Char) : Option (Reading String cs.length) := do
  let ⟨_, us, h⟩ ← readSign '"' cs
  let ⟨s, rest, h'⟩ ← readChars us
  some ⟨.ofList s, rest, Nat.lt_trans h' h⟩

theorem length_dropWhile_lt {p : Char → Bool} {cs : List Char} (h : cs.takeWhile p ≠ []) :
    (cs.dropWhile p).length < cs.length := by
  have hsplit := congrArg List.length (List.takeWhile_append_dropWhile (p := p) (l := cs))
  have hpos := List.length_pos_iff.mpr h
  rw [List.length_append] at hsplit
  omega

/-- Reads a natural number, with all the digits that stand in front. -/
def readNumber (cs : List Char) : Option (Reading Nat cs.length) :=
  let digits := cs.takeWhile Char.isDigit
  if h : digits ≠ [] ∧ (digits.head? = some '0' → digits = ['0']) then
    some ⟨Nat.ofDigitChars 10 digits 0, cs.dropWhile Char.isDigit, length_dropWhile_lt h.1⟩
  else none

/-! ## Documents -/

mutual

/-- Reads blanks and a document. -/
def readValue (cs : List Char) : Option (Reading Json cs.length) :=
  match cs with
  | [] => none
  | c :: us =>
    if isBlank c then do
      let ⟨d, rest, h⟩ ← readValue us
      some ⟨d, rest, Nat.lt_succ_of_lt h⟩
    else if c = '"' then do
      let ⟨s, rest, h⟩ ← readChars us
      some ⟨.string (.ofList s), rest, Nat.lt_succ_of_lt h⟩
    else if c = '[' then do
      let ⟨ds, rest, h⟩ ← readItems .first us
      some ⟨.array ds, rest, Nat.lt_succ_of_lt h⟩
    else if c = '\x7b' then do
      let ⟨ms, rest, h⟩ ← readMembers .first us
      some ⟨.object ms, rest, Nat.lt_succ_of_lt h⟩
    else do
      let ⟨n, rest, h⟩ ← readNumber (c :: us)
      some ⟨.number n, rest, h⟩
termination_by 2 * cs.length
decreasing_by all_goals simp only [List.length_cons]; omega

/-- Reads the items of an array from a turn on, up to and including its closing bracket. -/
def readItems (turn : Turn) (cs : List Char) : Option (Reading (List Json) cs.length) :=
  match readSign ']' cs with
  | some ⟨_, rest, h⟩ => some ⟨[], rest, h⟩
  | none => do
    let ⟨_, us, h⟩ ← readSeparator turn cs
    let ⟨d, vs, h'⟩ ← readValue us
    let ⟨ds, rest, h''⟩ ← readItems .later vs
    some ⟨d :: ds, rest, by omega⟩
termination_by 2 * cs.length + 1
decreasing_by all_goals omega

/-- Reads the members of an object from a turn on, up to and including its closing brace. -/
def readMembers (turn : Turn) (cs : List Char) :
    Option (Reading (List (String × Json)) cs.length) :=
  match readSign '\x7d' cs with
  | some ⟨_, rest, h⟩ => some ⟨[], rest, h⟩
  | none => do
    let ⟨_, us, h₁⟩ ← readSeparator turn cs
    let ⟨key, vs, h₂⟩ ← readString us
    let ⟨_, ws, h₃⟩ ← readSign ':' vs
    let ⟨d, xs, h₄⟩ ← readValue ws
    let ⟨ms, rest, h₅⟩ ← readMembers .later xs
    some ⟨(key, d) :: ms, rest, by omega⟩
termination_by 2 * cs.length + 1
decreasing_by all_goals omega

end

/-- The document that the whole text stands for. -/
def read? (text : String) : Option Json := do
  let ⟨d, rest, _⟩ ← readValue text.toList
  if Blank rest then some d else none

/-! ## What a reader answers -/

section Reads

variable {α β : Type} {bound bound' : Nat} {u v : α} {w : β} {us rest : List Char}

/-- The answer is the value, with the given characters after it. -/
def Reads (answer : Option (Reading α bound)) (value : α) (rest : List Char) : Prop :=
  ∃ h, answer = some ⟨value, rest, h⟩

theorem reads_some {h : rest.length < bound} : Reads (some ⟨v, rest, h⟩) v rest :=
  ⟨h, rfl⟩

theorem reads_some_iff {h : us.length < bound} :
    Reads (some ⟨u, us, h⟩) v rest ↔ u = v ∧ us = rest := by
  simp only [Reads, Option.some.injEq, Reading.mk.injEq]
  exact ⟨fun ⟨_, hv⟩ => hv, fun hv => ⟨hv.2 ▸ h, hv⟩⟩

theorem not_reads_none : ¬ Reads (none : Option (Reading α bound)) v rest := by
  rintro ⟨_, h⟩
  cases h

theorem reads_bind_iff {x : Option (Reading α bound)}
    {f : Reading α bound → Option (Reading β bound')} :
    Reads (x >>= f) w rest ↔
      ∃ u us h, Reads x u us ∧ Reads (f ⟨u, us, h⟩) w rest := by
  constructor
  · rintro ⟨h, hx⟩
    obtain ⟨⟨u, us, hus⟩, hu, hf⟩ := Option.bind_eq_some_iff.mp hx
    exact ⟨u, us, hus, ⟨hus, hu⟩, ⟨h, hf⟩⟩
  · rintro ⟨u, us, h, ⟨_, rfl⟩, hf⟩
    exact hf

theorem Reads.bind {x : Option (Reading α bound)}
    {f : Reading α bound → Option (Reading β bound')} (hx : Reads x u us)
    (hf : ∀ h, Reads (f ⟨u, us, h⟩) w rest) : Reads (x >>= f) w rest := by
  obtain ⟨h, rfl⟩ := hx
  exact hf h

end Reads

/-! ## Signs -/

variable {sign c : Char} {turn : Turn} {cs us vs ws rest : List Char}

/-- A character of a class is not one from outside. -/
theorem ne_of_class {p : Char → Bool} (hc : p c = true) (hsign : p sign = false) : c ≠ sign := by
  rintro rfl
  exact absurd (hc.symm.trans hsign) (by decide)

theorem reads_readSign (sign : Char) (rest : List Char) (hws : Blank ws)
    (hsign : isBlank sign = false) :
    Reads (readSign sign (ws ++ sign :: rest)) () rest := by
  induction ws with
  | nil =>
    rw [List.nil_append, readSign, if_pos rfl]
    exact reads_some
  | cons c ws ih =>
    obtain ⟨hc, hws⟩ := blank_cons_iff.mp hws
    rw [List.cons_append, readSign, if_neg (ne_of_class hc hsign), if_pos hc]
    exact (ih hws).bind fun _ => reads_some

theorem readSign_eq_none (sign : Char) (hws : Blank ws) (hsign : isBlank sign = false)
    (hc : isBlank c = false) (hne : c ≠ sign) : readSign sign (ws ++ c :: rest) = none := by
  induction ws with
  | nil => rw [List.nil_append, readSign, if_neg hne, if_neg (by simp [hc])]
  | cons b ws ih =>
    obtain ⟨hb, hws⟩ := blank_cons_iff.mp hws
    rw [List.cons_append, readSign, if_neg (ne_of_class hb hsign), if_pos hb, ih hws]
    rfl

theorem exists_blank_of_readSign (h : Reads (readSign sign cs) () rest) :
    ∃ ws, Blank ws ∧ cs = ws ++ sign :: rest := by
  induction cs with
  | nil => exact absurd h not_reads_none
  | cons c us ih =>
    rw [readSign] at h
    split at h
    case isTrue hc =>
      obtain ⟨-, rfl⟩ := reads_some_iff.mp h
      exact ⟨[], blank_nil, by rw [hc, List.nil_append]⟩
    case isFalse =>
      split at h
      case isTrue hc =>
        obtain ⟨_, vs, _, hrec, hsome⟩ := reads_bind_iff.mp h
        obtain ⟨-, rfl⟩ := reads_some_iff.mp hsome
        obtain ⟨ws, hws, rfl⟩ := ih hrec
        exact ⟨c :: ws, blank_cons_iff.mpr ⟨hc, hws⟩, rfl⟩
      case isFalse => exact absurd h not_reads_none

theorem reads_readSeparator (h : SeparatorSpelled turn ws) (rest : List Char) :
    ∃ bs, Blank bs ∧ Reads (readSeparator turn (ws ++ rest)) () (bs ++ rest) := by
  cases h with
  | first hws => exact ⟨ws, hws, reads_some⟩
  | @later ws bs hws hbs =>
    refine ⟨bs, hbs, ?_⟩
    rw [List.append_assoc]
    exact (reads_readSign _ _ hws (by decide)).bind fun _ => reads_some

theorem exists_separator_of_readSeparator {bs : List Char}
    (h : Reads (readSeparator turn cs) () (bs ++ rest)) (hbs : Blank bs) :
    ∃ ws, SeparatorSpelled turn ws ∧ cs = ws ++ rest := by
  cases turn with
  | first =>
    obtain ⟨-, rfl⟩ := reads_some_iff.mp h
    exact ⟨bs, .first hbs, rfl⟩
  | later =>
    obtain ⟨_, us, _, hsign, hsome⟩ := reads_bind_iff.mp h
    obtain ⟨-, rfl⟩ := reads_some_iff.mp hsome
    obtain ⟨ws, hws, rfl⟩ := exists_blank_of_readSign hsign
    exact ⟨ws ++ ',' :: bs, .later hws hbs, by simp⟩

/-! ## Strings -/

theorem charOfCode?_eq_some_iff {n : Nat} : charOfCode? n = some c ↔ n = c.toNat := by
  unfold charOfCode?
  constructor
  · intro h
    split at h
    case isTrue hn =>
      obtain rfl := Option.some.inj h
      exact hn.symm
    case isFalse => cases h
  · rintro rfl
    rw [Char.ofNat_toNat, if_pos rfl]

/-- No letter stands for two characters. -/
theorem lookup_letterEscapes_iff {mark : Char} :
    letterEscapes.lookup mark = some c ↔ (mark, c) ∈ letterEscapes := by
  have distinct : ∀ pair ∈ letterEscapes, letterEscapes.lookup pair.1 = some pair.2 := by
    decide
  refine ⟨fun h => ?_, distinct (mark, c)⟩
  obtain ⟨before, after, heq, -⟩ := List.lookup_eq_some_iff.mp h
  rw [heq]
  exact List.mem_append_right _ List.mem_cons_self

theorem ne_u_of_mem_letterEscapes : ∀ pair ∈ letterEscapes, pair.1 ≠ 'u' := by
  decide

theorem reads_readEscape (h : CharSpelled c ('\\' :: us)) :
    Reads (readEscape (us ++ rest)) c rest := by
  cases h with
  | plain _ hne _ => exact absurd rfl hne
  | letter hmem =>
    rw [List.singleton_append, readEscape, if_neg (ne_u_of_mem_letterEscapes _ hmem),
      lookup_letterEscapes_iff.mpr hmem]
    exact reads_some
  | @code _ h₁ h₂ h₃ h₄ hcode =>
    have hread : Reads (readCode (h₁ :: h₂ :: h₃ :: h₄ :: rest)) c rest := by
      rw [readCode, hcode, Option.bind_eq_bind, Option.bind_some,
        charOfCode?_eq_some_iff.mpr rfl]
      exact reads_some
    simp only [List.cons_append, List.nil_append]
    rw [readEscape, if_pos rfl]
    exact hread.bind fun _ => reads_some

theorem exists_code_of_readCode (h : Reads (readCode cs) c rest) :
    ∃ h₁ h₂ h₃ h₄, hexCode? h₁ h₂ h₃ h₄ = some c.toNat ∧ cs = h₁ :: h₂ :: h₃ :: h₄ :: rest := by
  unfold readCode at h
  split at h
  case h_1 h₁ h₂ h₃ h₄ us =>
    obtain ⟨_, hread⟩ := h
    obtain ⟨n, hcode, hread⟩ := Option.bind_eq_some_iff.mp hread
    obtain ⟨d, hd, hread⟩ := Option.bind_eq_some_iff.mp hread
    obtain ⟨rfl, rfl⟩ := reads_some_iff.mp ⟨_, hread⟩
    exact ⟨h₁, h₂, h₃, h₄, charOfCode?_eq_some_iff.mp hd ▸ hcode, rfl⟩
  case h_2 => exact absurd h not_reads_none

theorem exists_charSpelled_of_readEscape (h : Reads (readEscape cs) c rest) :
    ∃ us, CharSpelled c ('\\' :: us) ∧ cs = us ++ rest := by
  cases cs with
  | nil => exact absurd h not_reads_none
  | cons mark vs =>
    rw [readEscape] at h
    split at h
    case isTrue hu =>
      obtain ⟨d, us, _, hread, hsome⟩ := reads_bind_iff.mp h
      obtain ⟨rfl, rfl⟩ := reads_some_iff.mp hsome
      obtain ⟨h₁, h₂, h₃, h₄, hcode, rfl⟩ := exists_code_of_readCode hread
      exact ⟨[mark, h₁, h₂, h₃, h₄], hu ▸ .code hcode, rfl⟩
    case isFalse =>
      obtain ⟨_, hread⟩ := h
      obtain ⟨d, hd, hread⟩ := Option.bind_eq_some_iff.mp hread
      obtain ⟨rfl, rfl⟩ := reads_some_iff.mp ⟨_, hread⟩
      exact ⟨[mark], .letter (lookup_letterEscapes_iff.mp hd), rfl⟩

theorem reads_readChars {ds : List Char} (h : CharsSpelled ds us) :
    Reads (readChars (us ++ rest)) ds rest := by
  induction h with
  | quote =>
    rw [List.singleton_append, readChars, if_pos rfl]
    exact reads_some
  | @cons c ds us vs hc _ ih =>
    rw [List.append_assoc]
    by_cases hescaped : ∃ us', us = '\\' :: us'
    · obtain ⟨us, rfl⟩ := hescaped
      rw [List.cons_append, readChars, if_neg (by decide), if_pos rfl]
      exact (reads_readEscape hc).bind fun _ => ih.bind fun _ => reads_some
    · cases hc with
      | plain hquote hbackslash hspace =>
        rw [List.singleton_append, readChars, if_neg hquote, if_neg hbackslash,
          if_neg (Nat.not_lt_of_le hspace)]
        exact ih.bind fun _ => reads_some
      | letter => exact absurd ⟨_, rfl⟩ hescaped
      | code => exact absurd ⟨_, rfl⟩ hescaped

theorem exists_charsSpelled_of_readChars {ds : List Char} (h : Reads (readChars cs) ds rest) :
    ∃ us, CharsSpelled ds us ∧ cs = us ++ rest := by
  induction hn : cs.length using Nat.strongRecOn generalizing cs ds with
  | ind n ih =>
  subst hn
  cases cs with
  | nil =>
    rw [readChars] at h
    exact absurd h not_reads_none
  | cons c us =>
    rw [readChars] at h
    split at h
    case isTrue hc =>
      obtain ⟨rfl, rfl⟩ := reads_some_iff.mp h
      exact ⟨['"'], .quote, by rw [hc, List.singleton_append]⟩
    split at h
    case isTrue hc =>
      obtain ⟨d, vs, hvs, hescape, h⟩ := reads_bind_iff.mp h
      obtain ⟨ds', ws, hws, hchars, hsome⟩ := reads_bind_iff.mp h
      obtain ⟨rfl, rfl⟩ := reads_some_iff.mp hsome
      obtain ⟨us, hd, rfl⟩ := exists_charSpelled_of_readEscape hescape
      obtain ⟨vs, hds, rfl⟩ := ih _ (Nat.lt_succ_of_lt hvs) hchars rfl
      exact ⟨_, .cons hd hds, by rw [hc, List.append_assoc, List.cons_append]⟩
    split at h
    case isTrue => exact absurd h not_reads_none
    case isFalse hquote hbackslash hspace =>
      obtain ⟨ds', vs, hvs, hchars, hsome⟩ := reads_bind_iff.mp h
      obtain ⟨rfl, rfl⟩ := reads_some_iff.mp hsome
      obtain ⟨vs, hds, rfl⟩ := ih _ (Nat.lt_succ_self _) hchars rfl
      exact ⟨_, .cons (.plain hquote hbackslash (Nat.le_of_not_lt hspace)) hds, rfl⟩

theorem reads_readString {s : String} (hws : Blank ws) (h : StringSpelled s us)
    (rest : List Char) :
    Reads (readString (ws ++ (us ++ rest))) s rest := by
  obtain ⟨hchars⟩ := h
  rw [List.cons_append]
  refine (reads_readSign _ _ hws (by decide)).bind fun _ =>
    (reads_readChars hchars).bind fun _ => ?_
  exact reads_some_iff.mpr ⟨String.ofList_toList, rfl⟩

theorem exists_stringSpelled_of_readString {s : String} (h : Reads (readString cs) s rest) :
    ∃ ws us, Blank ws ∧ StringSpelled s us ∧ cs = ws ++ (us ++ rest) := by
  obtain ⟨_, vs, _, hsign, h⟩ := reads_bind_iff.mp h
  obtain ⟨ds, us, _, hchars, hsome⟩ := reads_bind_iff.mp h
  obtain ⟨rfl, rfl⟩ := reads_some_iff.mp hsome
  obtain ⟨ws, hws, rfl⟩ := exists_blank_of_readSign hsign
  obtain ⟨us, hds, rfl⟩ := exists_charsSpelled_of_readChars hchars
  exact ⟨ws, '"' :: us, hws, .intro (by rwa [String.toList_ofList]), rfl⟩

/-! ## Numbers -/

/-- The characters do not go on with a number. -/
def EndsNumber (cs : List Char) : Prop :=
  ∀ c ∈ cs.head?, c.isDigit = false

theorem EndsNumber.takeWhile_eq_nil (h : EndsNumber cs) : cs.takeWhile Char.isDigit = [] := by
  cases cs with
  | nil => rfl
  | cons c us => exact List.takeWhile_cons_of_neg (by simp [h c rfl])

theorem EndsNumber.dropWhile_eq (h : EndsNumber cs) : cs.dropWhile Char.isDigit = cs := by
  cases cs with
  | nil => rfl
  | cons c us => exact List.dropWhile_cons_of_neg (by simp [h c rfl])

theorem reads_readNumber {n : Nat} (h : NumberSpelled n us) (hrest : EndsNumber rest) :
    Reads (readNumber (us ++ rest)) n rest := by
  have htake : (us ++ rest).takeWhile Char.isDigit = us := by
    rw [List.takeWhile_append_of_pos h.digits, hrest.takeWhile_eq_nil, List.append_nil]
  have hdrop : (us ++ rest).dropWhile Char.isDigit = rest := by
    rw [List.dropWhile_append_of_pos h.digits, hrest.dropWhile_eq]
  unfold readNumber
  simp only [htake, hdrop]
  rw [dif_pos ⟨h.nonempty, h.noLeadingZero⟩]
  exact reads_some_iff.mpr ⟨h.value, rfl⟩

theorem exists_numberSpelled_of_readNumber {n : Nat} (h : Reads (readNumber cs) n rest) :
    ∃ us, NumberSpelled n us ∧ cs = us ++ rest := by
  simp only [readNumber] at h
  split at h
  case isTrue hdigits =>
    obtain ⟨rfl, rfl⟩ := reads_some_iff.mp h
    refine ⟨_, ⟨hdigits.1, ?_, hdigits.2, rfl⟩, List.takeWhile_append_dropWhile.symm⟩
    exact List.all_eq_true.mp List.all_takeWhile
  case isFalse => exact absurd h not_reads_none

/-! ## Documents -/

theorem isDigit_of_isBlank (h : isBlank c = true) : c.isDigit = false := by
  have hmem : c ∈ [' ', '\t', '\n', '\r'] := of_decide_eq_true h
  simp only [List.mem_cons, List.not_mem_nil, or_false] at hmem
  rcases hmem with rfl | rfl | rfl | rfl <;> rfl

theorem isBlank_of_isDigit (h : c.isDigit = true) : isBlank c = false := by
  refine Bool.eq_false_iff.mpr fun hblank => ?_
  exact absurd (h.symm.trans (isDigit_of_isBlank hblank)) (by decide)

theorem NumberSpelled.exists_digit {n : Nat} (h : NumberSpelled n us) :
    ∃ c vs, us = c :: vs ∧ c.isDigit = true := by
  cases us with
  | nil => exact absurd rfl h.nonempty
  | cons c vs => exact ⟨c, vs, rfl, h.digits c List.mem_cons_self⟩

/-- A document begins neither with a blank nor with a bracket that closes one. -/
theorem Part.Spelled.exists_head {d : Json} (h : (Part.value d).Spelled us) :
    ∃ c vs, us = c :: vs ∧ isBlank c = false ∧ c ≠ ']' := by
  cases h with
  | string h =>
    obtain ⟨h⟩ := h
    exact ⟨_, _, rfl, by decide, by decide⟩
  | number h =>
    obtain ⟨c, vs, rfl, hc⟩ := h.exists_digit
    exact ⟨c, vs, rfl, isBlank_of_isDigit hc, ne_of_class hc (by decide)⟩
  | array => exact ⟨_, _, rfl, by decide, by decide⟩
  | object => exact ⟨_, _, rfl, by decide, by decide⟩

theorem endsNumber_of_blank (hws : Blank ws) (hc : c.isDigit = false) :
    EndsNumber (ws ++ c :: rest) := by
  cases ws with
  | nil =>
    rintro _ ⟨⟩
    exact hc
  | cons b ws =>
    rintro _ ⟨⟩
    exact isDigit_of_isBlank (blank_cons_iff.mp hws).1

theorem SeparatorSpelled.endsNumber (h : SeparatorSpelled .later ws) :
    EndsNumber (ws ++ rest) := by
  cases h with
  | later hws _ =>
    rw [List.append_assoc]
    exact endsNumber_of_blank hws (by decide)

theorem SeparatorSpelled.readSign_eq_none (h : SeparatorSpelled turn ws) (sign : Char)
    (hsign : isBlank sign = false) (hcomma : sign ≠ ',') (hc : isBlank c = false)
    (hne : c ≠ sign) : readSign sign (ws ++ c :: rest) = none := by
  cases h with
  | first hws => exact Json.readSign_eq_none sign hws hsign hc hne
  | later hws _ =>
    rw [List.append_assoc]
    exact Json.readSign_eq_none sign hws hsign (by decide) hcomma.symm

theorem Part.Spelled.endsNumber_items {ds : List Json}
    (h : (Part.items .later ds).Spelled us) (rest : List Char) : EndsNumber (us ++ rest) := by
  cases h with
  | noItems hws =>
    rw [List.append_assoc]
    exact endsNumber_of_blank hws (by decide)
  | item hws _ _ =>
    rw [List.append_assoc]
    exact hws.endsNumber

theorem Part.Spelled.endsNumber_members {ms : List (String × Json)}
    (h : (Part.members .later ms).Spelled us) (rest : List Char) :
    EndsNumber (us ++ rest) := by
  cases h with
  | noMembers hws =>
    rw [List.append_assoc]
    exact endsNumber_of_blank hws (by decide)
  | member hws _ _ _ _ _ =>
    rw [List.append_assoc]
    exact hws.endsNumber

theorem reads_readValue_of_blank {d : Json} (hws : Blank ws) (h : Reads (readValue cs) d rest) :
    Reads (readValue (ws ++ cs)) d rest := by
  induction ws with
  | nil => exact h
  | cons c ws ih =>
    obtain ⟨hc, hws⟩ := blank_cons_iff.mp hws
    rw [List.cons_append, readValue, if_pos hc]
    exact (ih hws).bind fun _ => reads_some

/-- What the reader of a part answers on the characters `us`. -/
def Part.Read : Part → List Char → Prop
  | .value d, us => ∀ rest, EndsNumber rest → Reads (readValue (us ++ rest)) d rest
  | .items turn ds, us => ∀ rest, Reads (readItems turn (us ++ rest)) ds rest
  | .members turn ms, us => ∀ rest, Reads (readMembers turn (us ++ rest)) ms rest

/-- Whatever follows the grammar is read as what it stands for. -/
theorem Part.Spelled.read {part : Part} (h : part.Spelled us) : part.Read us := by
  induction h with
  | string h =>
    intro rest _
    obtain ⟨h⟩ := h
    rw [List.cons_append, readValue, if_neg (by decide), if_pos rfl]
    refine (reads_readChars h).bind fun _ => ?_
    exact reads_some_iff.mpr ⟨congrArg Json.string String.ofList_toList, rfl⟩
  | number h =>
    intro rest hrest
    obtain ⟨c, vs, rfl, hc⟩ := h.exists_digit
    have hread := reads_readNumber h hrest
    rw [List.cons_append] at hread ⊢
    rw [readValue, if_neg (by simp [isBlank_of_isDigit hc]), if_neg (ne_of_class hc (by decide)),
      if_neg (ne_of_class hc (by decide)), if_neg (ne_of_class hc (by decide))]
    exact hread.bind fun _ => reads_some
  | array _ ih =>
    intro rest _
    rw [List.cons_append, readValue, if_neg (by decide), if_neg (by decide), if_pos rfl]
    exact (ih rest).bind fun _ => reads_some
  | object _ ih =>
    intro rest _
    rw [List.cons_append, readValue, if_neg (by decide), if_neg (by decide), if_neg (by decide),
      if_pos rfl]
    exact (ih rest).bind fun _ => reads_some
  | noItems hws =>
    intro rest
    obtain ⟨h, hread⟩ := reads_readSign ']' rest hws (by decide)
    rw [List.append_assoc, List.singleton_append, readItems, hread]
    exact reads_some
  | @item _ ws us vs _ _ hws hd hds ih ihs =>
    intro rest
    obtain ⟨c, us, rfl, hc, hne⟩ := hd.exists_head
    -- The separator takes the comma but leaves the blanks after it to the item.
    obtain ⟨bs, hbs, hseparator⟩ := reads_readSeparator hws (c :: us ++ (vs ++ rest))
    have hvalue := reads_readValue_of_blank hbs (ih _ (hds.endsNumber_items rest))
    rw [List.append_assoc, List.append_assoc, readItems, List.cons_append,
      hws.readSign_eq_none ']' (by decide) (by decide) hc hne]
    exact hseparator.bind fun _ => hvalue.bind fun _ => (ihs rest).bind fun _ => reads_some
  | noMembers hws =>
    intro rest
    obtain ⟨h, hread⟩ := reads_readSign '\x7d' rest hws (by decide)
    rw [List.append_assoc, List.singleton_append, readMembers, hread]
    exact reads_some
  | @member _ ws ks bs es us vs _ _ _ hws hkey hbs hes _ hms ih ihs =>
    intro rest
    have hcolon := reads_readSign ':' (es ++ (us ++ (vs ++ rest))) hbs (by decide)
    have hvalue := reads_readValue_of_blank hes (ih _ (hms.endsNumber_members rest))
    have hassoc : ws ++ (ks ++ (bs ++ ':' :: (es ++ (us ++ vs)))) ++ rest =
        ws ++ (ks ++ (bs ++ ':' :: (es ++ (us ++ (vs ++ rest))))) := by simp
    rw [hassoc]
    generalize bs ++ ':' :: (es ++ (us ++ (vs ++ rest))) = after at hcolon ⊢
    obtain ⟨xs, hxs, hseparator⟩ := reads_readSeparator hws (ks ++ after)
    have hname := reads_readString hxs hkey after
    obtain ⟨hchars⟩ := hkey
    rw [readMembers, List.cons_append,
      hws.readSign_eq_none '\x7d' (by decide) (by decide) (by decide) (by decide)]
    exact hseparator.bind fun _ => hname.bind fun _ => hcolon.bind fun _ => hvalue.bind fun _ =>
      (ihs rest).bind fun _ => reads_some

mutual

/-- Whatever is read follows the grammar. -/
theorem exists_spelled_of_readValue {d : Json} {rest : List Char} (cs : List Char)
    (h : Reads (readValue cs) d rest) :
    ∃ ws us, Blank ws ∧ (Part.value d).Spelled us ∧ cs = ws ++ (us ++ rest) := by
  match cs with
  | [] =>
    rw [readValue] at h
    exact absurd h not_reads_none
  | c :: vs =>
    rw [readValue] at h
    split at h
    case isTrue hc =>
      obtain ⟨_, _, _, hread, hsome⟩ := reads_bind_iff.mp h
      obtain ⟨rfl, rfl⟩ := reads_some_iff.mp hsome
      obtain ⟨ws, us, hws, hd, rfl⟩ := exists_spelled_of_readValue vs hread
      exact ⟨c :: ws, us, blank_cons_iff.mpr ⟨hc, hws⟩, hd, rfl⟩
    split at h
    case isTrue hc =>
      obtain ⟨ds, _, _, hread, hsome⟩ := reads_bind_iff.mp h
      obtain ⟨rfl, rfl⟩ := reads_some_iff.mp hsome
      obtain ⟨us, hds, rfl⟩ := exists_charsSpelled_of_readChars hread
      refine ⟨[], '"' :: us, blank_nil, .string (.intro ?_), by rw [hc]; rfl⟩
      rwa [String.toList_ofList]
    split at h
    case isTrue hc =>
      obtain ⟨ds, _, _, hread, hsome⟩ := reads_bind_iff.mp h
      obtain ⟨rfl, rfl⟩ := reads_some_iff.mp hsome
      obtain ⟨us, hds, rfl⟩ := exists_spelled_of_readItems .first vs hread
      exact ⟨[], '[' :: us, blank_nil, .array hds, by rw [hc]; rfl⟩
    split at h
    case isTrue hc =>
      obtain ⟨ms, _, _, hread, hsome⟩ := reads_bind_iff.mp h
      obtain ⟨rfl, rfl⟩ := reads_some_iff.mp hsome
      obtain ⟨us, hms, rfl⟩ := exists_spelled_of_readMembers .first vs hread
      exact ⟨[], '\x7b' :: us, blank_nil, .object hms, by rw [hc]; rfl⟩
    case isFalse =>
      obtain ⟨n, _, _, hread, hsome⟩ := reads_bind_iff.mp h
      obtain ⟨rfl, rfl⟩ := reads_some_iff.mp hsome
      obtain ⟨us, hn, heq⟩ := exists_numberSpelled_of_readNumber hread
      exact ⟨[], us, blank_nil, .number hn, heq⟩
termination_by 2 * cs.length
decreasing_by all_goals simp only [List.length_cons]; omega

theorem exists_spelled_of_readItems {ds : List Json} {rest : List Char} (turn : Turn)
    (cs : List Char) (h : Reads (readItems turn cs) ds rest) :
    ∃ us, (Part.items turn ds).Spelled us ∧ cs = us ++ rest := by
  rw [readItems] at h
  split at h
  case h_1 hsign =>
    obtain ⟨rfl, rfl⟩ := reads_some_iff.mp h
    obtain ⟨ws, hws, rfl⟩ := exists_blank_of_readSign ⟨_, hsign⟩
    exact ⟨ws ++ [']'], .noItems hws, by simp⟩
  case h_2 =>
    obtain ⟨_, us, hus, hseparator, h⟩ := reads_bind_iff.mp h
    obtain ⟨d, vs, hvs, hvalue, h⟩ := reads_bind_iff.mp h
    obtain ⟨ds, _, _, hitems, hsome⟩ := reads_bind_iff.mp h
    obtain ⟨rfl, rfl⟩ := reads_some_iff.mp hsome
    obtain ⟨bs, us, hbs, hd, rfl⟩ := exists_spelled_of_readValue us hvalue
    obtain ⟨vs, hds, rfl⟩ := exists_spelled_of_readItems .later vs hitems
    obtain ⟨ws, hws, rfl⟩ := exists_separator_of_readSeparator hseparator hbs
    exact ⟨_, .item hws hd hds, by simp⟩
termination_by 2 * cs.length + 1
decreasing_by all_goals omega

theorem exists_spelled_of_readMembers {ms : List (String × Json)} {rest : List Char}
    (turn : Turn) (cs : List Char) (h : Reads (readMembers turn cs) ms rest) :
    ∃ us, (Part.members turn ms).Spelled us ∧ cs = us ++ rest := by
  rw [readMembers] at h
  split at h
  case h_1 hsign =>
    obtain ⟨rfl, rfl⟩ := reads_some_iff.mp h
    obtain ⟨ws, hws, rfl⟩ := exists_blank_of_readSign ⟨_, hsign⟩
    exact ⟨ws ++ ['\x7d'], .noMembers hws, by simp⟩
  case h_2 =>
    obtain ⟨_, us, hus, hseparator, h⟩ := reads_bind_iff.mp h
    obtain ⟨key, vs, hvs, hname, h⟩ := reads_bind_iff.mp h
    obtain ⟨_, ws, hws, hcolon, h⟩ := reads_bind_iff.mp h
    obtain ⟨d, xs, hxs, hvalue, h⟩ := reads_bind_iff.mp h
    obtain ⟨ms, _, _, hmembers, hsome⟩ := reads_bind_iff.mp h
    obtain ⟨rfl, rfl⟩ := reads_some_iff.mp hsome
    obtain ⟨es, us, hes, hd, rfl⟩ := exists_spelled_of_readValue ws hvalue
    obtain ⟨vs, hms, rfl⟩ := exists_spelled_of_readMembers .later xs hmembers
    obtain ⟨bs, hbs, rfl⟩ := exists_blank_of_readSign hcolon
    obtain ⟨ys, ks, hys, hkey, rfl⟩ := exists_stringSpelled_of_readString hname
    obtain ⟨ws, hws, rfl⟩ := exists_separator_of_readSeparator hseparator hys
    exact ⟨_, .member hws hkey hbs hes hd hms, by simp⟩
termination_by 2 * cs.length + 1
decreasing_by all_goals omega

end

/-! ## Whole texts -/

/-- A text is read as the document it stands for, and no other text is read. -/
theorem read?_eq_some_iff {text : String} {d : Json} : read? text = some d ↔ TextOf d text := by
  constructor
  · intro h
    obtain ⟨⟨d', rest, hrest⟩, hread, h⟩ := Option.bind_eq_some_iff.mp h
    obtain ⟨ws, us, hws, hd, heq⟩ := exists_spelled_of_readValue _ ⟨_, hread⟩
    obtain ⟨hblank, h⟩ := Option.ite_none_right_eq_some.mp h
    obtain rfl := Option.some.inj h
    exact ⟨ws, us, rest, hws, hd, hblank, heq⟩
  · rintro ⟨ws, us, bs, hws, hd, hbs, heq⟩
    have hends : EndsNumber bs := fun c hc =>
      isDigit_of_isBlank (hbs c (List.mem_of_mem_head? hc))
    have hread : Reads (readValue text.toList) d bs := by
      rw [heq]
      exact reads_readValue_of_blank hws (hd.read bs hends)
    obtain ⟨_, hread⟩ := hread
    rw [read?, hread]
    exact if_pos hbs

end Pocl.Json
