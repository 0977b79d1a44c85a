import Pocl.Token

/-!
# Byte offsets and lexemes

A text takes as many bytes as its characters together, and no character takes none. So an offset
between two characters splits a text in one way only. Every class of tokens has its own shape of
lexeme. Words and numbers are also as long as they can be, and a full stop is a token by itself only
where no other follows. The shapes leave no choice: the characters from a lexeme on determine its
class and its end.

## Main definitions

* `width cs`: the number of bytes of the characters `cs`
* `StandsAt source start part`: the text `part` stands in `source` from the byte `start` on
* `Leads cs p`: the first of the characters `cs` passes the test `p`
* `IsWord lexeme`: a letter with letters and numerals after it
* `Fits followed lexeme kind`: the lexeme has the shape of its class

## Main results

* `split_of_width_le`: of two splits of a text, the earlier one splits the first part of the later
* `standsAt_iff`: the place of a text by characters
* `fits_cut`: scanning cuts off a lexeme that has the shape of its class
* `cut_eq_of_fits`: it cuts off every lexeme that has
-/

namespace Pocl

variable {source part : String} {as bs cs ds post : List Char} {c : Char} {p : Char → Bool}
  {n : Nat}

/-! ## Widths -/

/-- The number of bytes of the characters. -/
def width : List Char → Nat
  | [] => 0
  | c :: cs => c.utf8Size + width cs

@[simp] theorem width_nil : width [] = 0 := rfl

@[simp] theorem width_cons (c : Char) (cs : List Char) : width (c :: cs) = c.utf8Size + width cs :=
  rfl

@[simp] theorem width_append (as bs : List Char) : width (as ++ bs) = width as + width bs := by
  induction as with
  | nil => rw [List.nil_append, width_nil, Nat.zero_add]
  | cons c as ih => rw [List.cons_append, width_cons, width_cons, ih, Nat.add_assoc]

theorem width_concat (cs : List Char) (c : Char) : width (cs ++ [c]) = width cs + c.utf8Size :=
  width_append cs [c]

theorem width_pos (h : cs ≠ []) : 0 < width cs := by
  cases cs with
  | nil => exact absurd rfl h
  | cons c cs =>
    rw [width_cons]
    exact Nat.add_pos_left c.utf8Size_pos _

theorem width_eq_zero_iff : width cs = 0 ↔ cs = [] := by
  refine ⟨fun h => ?_, fun h => h ▸ rfl⟩
  by_cases hcs : cs = []
  · exact hcs
  · exact absurd h (Nat.pos_iff_ne_zero.mp (width_pos hcs))

theorem utf8ByteSize_ofList (cs : List Char) : (String.ofList cs).utf8ByteSize = width cs := by
  induction cs with
  | nil => rfl
  | cons c cs ih =>
    rw [String.ofList_cons, String.utf8ByteSize_append, String.utf8ByteSize_singleton, ih,
      width_cons]

theorem width_toList (s : String) : width s.toList = s.utf8ByteSize := by
  rw [← utf8ByteSize_ofList, String.ofList_toList]

/-! ## Splits -/

/-- Of two splits of a text, the earlier one splits the first part of the later. -/
theorem split_of_width_le (h : as ++ bs = cs ++ ds) (hw : width as ≤ width cs) :
    ∃ es, cs = as ++ es ∧ bs = es ++ ds := by
  rcases List.append_eq_append_iff.mp h with ⟨es, hcs, hbs⟩ | ⟨es, rfl, rfl⟩
  · exact ⟨es, hcs, hbs⟩
  · -- The part by which the first one would be longer takes no bytes.
    have : width es = 0 := by
      rw [width_append] at hw
      omega
    obtain rfl := width_eq_zero_iff.mp this
    exact ⟨[], by simp, by simp⟩

theorem split_of_width_eq (h : as ++ bs = cs ++ ds) (hw : width as = width cs) :
    as = cs ∧ bs = ds := by
  obtain ⟨es, rfl, rfl⟩ := split_of_width_le h (Nat.le_of_eq hw)
  have : width es = 0 := by
    rw [width_append] at hw
    omega
  obtain rfl := width_eq_zero_iff.mp this
  simp

/-! ## Places -/

/-- The text `part` stands in `source` from the byte `start` on. -/
def StandsAt (source : String) (start : Nat) (part : String) : Prop :=
  ∃ before after, source = before ++ part ++ after ∧ before.utf8ByteSize = start

theorem standsAt_iff : StandsAt source n part ↔
    ∃ before after, source.toList = before ++ (part.toList ++ after) ∧ width before = n := by
  constructor
  · rintro ⟨before, after, rfl, rfl⟩
    exact ⟨before.toList, after.toList, by simp, width_toList before⟩
  · rintro ⟨before, after, h, rfl⟩
    refine ⟨String.ofList before, String.ofList after, ?_, utf8ByteSize_ofList before⟩
    rw [← String.toList_inj]
    simpa using h

/-! ## Shapes -/

/-- The first of the characters passes the test. -/
def Leads (cs : List Char) (p : Char → Bool) : Prop :=
  ∃ c, cs.head? = some c ∧ p c = true

/-- A word is a letter with letters and numerals after it. -/
def IsWord (lexeme : String) : Prop :=
  ∃ c cs, lexeme.toList = c :: cs ∧ isLetter c = true ∧ ∀ d ∈ cs, isWordPart d = true

/-- The lexeme has the shape of its class, where `followed p` tells whether a character that passes
the test `p` stands just after it. -/
def Fits (followed : (Char → Bool) → Prop) (lexeme : String) : TokenKind → Prop
  | .literal => (∀ c ∈ lexeme.toList, c.isDigit = true) ∧ ¬ followed Char.isDigit
  | .keyword => IsWord lexeme ∧ lexeme ∈ keywords ∧ ¬ followed isWordPart
  | .identifier => IsWord lexeme ∧ lexeme ∉ keywords ∧ ¬ followed isWordPart
  | .operator => lexeme ∈ ["=", "+", "-", "*", "/", ".."]
  | .error => lexeme = "." ∧ ¬ followed (· == '.')
  | .paren => lexeme = "(" ∨ lexeme = ")"
  | .brace => lexeme = "\x7b" ∨ lexeme = "\x7d"
  | .unknown => ∃ c, lexeme = String.singleton c ∧ isBlank c = false ∧ c.isDigit = false ∧
      isLetter c = false ∧ c ∉ ['.', '=', '+', '-', '*', '/', '(', ')', '\x7b', '\x7d']

theorem isKeyword_iff {word : String} : isKeyword word = true ↔ word ∈ keywords :=
  List.contains_iff_mem

/-! ## The first character -/

@[simp] theorem not_leads_nil : ¬ Leads [] p := by
  rintro ⟨c, hc, _⟩
  cases hc

@[simp] theorem leads_cons : Leads (c :: cs) p ↔ p c = true := by
  simp [Leads]

theorem not_leads_dropWhile : ¬ Leads (cs.dropWhile p) p := by
  rintro ⟨c, hc, hp⟩
  have := List.head?_dropWhile_not p cs
  simp only [hc] at this
  rw [hp] at this
  cases this

theorem takeWhile_append_of_not_leads (hds : ∀ d ∈ ds, p d = true) (hpost : ¬ Leads post p) :
    (ds ++ post).takeWhile p = ds := by
  rw [List.takeWhile_append_of_pos hds]
  cases post with
  | nil => simp
  | cons c cs => simp_all

theorem dropWhile_append_of_not_leads (hds : ∀ d ∈ ds, p d = true) (hpost : ¬ Leads post p) :
    (ds ++ post).dropWhile p = post := by
  rw [List.dropWhile_append_of_pos hds]
  cases post with
  | nil => simp
  | cons c cs => simp_all

/-! ## Letters, digits and blanks -/

/-- There is no letter below the capital A. -/
theorem le_toNat_of_isLetter (h : isLetter c = true) : 0x41 ≤ c.toNat := by
  unfold isLetter alphabeticRanges inRanges at h
  split at h
  · cases h
  · omega

theorem isLetter_of_isDigit (h : c.isDigit = true) : isLetter c = false := by
  refine Bool.eq_false_iff.mpr fun hl => ?_
  have := le_toNat_of_isLetter hl
  simp only [Char.isDigit, Bool.and_eq_true, decide_eq_true_eq] at h
  have : c.toNat ≤ 57 := h.2
  omega

theorem isDigit_of_isLetter (h : isLetter c = true) : c.isDigit = false := by
  refine Bool.eq_false_iff.mpr fun hd => ?_
  rw [isLetter_of_isDigit hd] at h
  cases h

theorem isWordPart_of_isWord {lexeme : String} (h : IsWord lexeme) :
    ∀ d ∈ lexeme.toList, isWordPart d = true := by
  obtain ⟨c, cs, hl, hc, hcs⟩ := h
  rw [hl]
  exact List.forall_mem_cons.mpr ⟨isWordPart_of_isLetter hc, hcs⟩

/-- No lexeme holds a blank. -/
theorem Fits.not_isBlank {followed : (Char → Bool) → Prop} {lexeme : String} {kind : TokenKind}
    (h : Fits followed lexeme kind) : ∀ d ∈ lexeme.toList, isBlank d = false := by
  cases kind with
  | literal =>
    exact fun d hd => not_isBlank_of_isWordPart (isWordPart_of_isDigit (h.1 d hd))
  | keyword => exact fun d hd => not_isBlank_of_isWordPart (isWordPart_of_isWord h.1 d hd)
  | identifier => exact fun d hd => not_isBlank_of_isWordPart (isWordPart_of_isWord h.1 d hd)
  | operator =>
    have shapes : ∀ lexeme ∈ ["=", "+", "-", "*", "/", ".."], ∀ d ∈ lexeme.toList,
        isBlank d = false := by
      simp [isBlank]
    exact shapes lexeme h
  | error =>
    obtain rfl := h.1
    simp [isBlank]
  | paren => rcases h with rfl | rfl <;> simp [isBlank]
  | brace => rcases h with rfl | rfl <;> simp [isBlank]
  | unknown =>
    obtain ⟨c, rfl, hc, _⟩ := h
    simpa using hc

/-- A lexeme keeps its shape where nothing else follows but a blank. -/
theorem Fits.mono {followed followed' : (Char → Bool) → Prop} {lexeme : String} {kind : TokenKind}
    (h : Fits followed lexeme kind)
    (hf : ∀ p, (∀ c, isBlank c = true → p c = false) → followed' p → followed p) :
    Fits followed' lexeme kind := by
  have notDigit := hf Char.isDigit fun c hc => Bool.eq_false_iff.mpr fun hd => by
    rw [not_isBlank_of_isWordPart (isWordPart_of_isDigit hd)] at hc
    cases hc
  have notWordPart := hf isWordPart fun c hc => Bool.eq_false_iff.mpr fun hd => by
    rw [not_isBlank_of_isWordPart hd] at hc
    cases hc
  have notDot := hf (· == '.') fun c hc => by
    rcases isBlank_iff.mp hc with rfl | rfl | rfl <;> rfl
  cases kind with
  | literal => exact ⟨h.1, mt notDigit h.2⟩
  | keyword => exact ⟨h.1, h.2.1, mt notWordPart h.2.2⟩
  | identifier => exact ⟨h.1, h.2.1, mt notWordPart h.2.2⟩
  | error => exact ⟨h.1, mt notDot h.2⟩
  | operator => exact h
  | paren => exact h
  | brace => exact h
  | unknown => exact h

/-! ## Cutting -/

theorem cut_of_isDigit (h : c.isDigit = true) :
    cut c cs = ⟨.literal, c :: cs.takeWhile Char.isDigit, cs.dropWhile Char.isDigit⟩ :=
  if_pos h

theorem cut_of_isLetter (h : isLetter c = true) :
    cut c cs = ⟨wordKind (c :: cs.takeWhile isWordPart), c :: cs.takeWhile isWordPart,
      cs.dropWhile isWordPart⟩ := by
  have hd : ¬ c.isDigit = true := by simp [isDigit_of_isLetter h]
  unfold cut
  exact (if_neg hd).trans (if_pos h)

theorem cut_symbol (hd : c.isDigit = false) (hl : isLetter c = false) (hc : c ≠ '.') :
    cut c cs = ⟨symbolKind c, [c], cs⟩ := by
  simp [cut, hd, hl, hc]

theorem cut_dots : cut '.' ('.' :: cs) = ⟨.operator, ['.', '.'], cs⟩ := rfl

theorem cut_dot (h : ¬ Leads cs (· == '.')) : cut '.' cs = ⟨.error, ['.'], cs⟩ := by
  cases cs with
  | nil => rfl
  | cons c cs =>
    have hc : c ≠ '.' := by simpa using h
    simp [cut, hc, show isLetter '.' = false from rfl]

theorem forall_mem_takeWhile : ∀ d ∈ cs.takeWhile p, p d = true :=
  List.all_eq_true.mp List.all_takeWhile

theorem fits_wordKind {followed : (Char → Bool) → Prop} (hc : isLetter c = true)
    (hcs : ∀ d ∈ cs, isWordPart d = true) (hf : ¬ followed isWordPart) :
    Fits followed (String.ofList (c :: cs)) (wordKind (c :: cs)) := by
  have word : IsWord (String.ofList (c :: cs)) := ⟨c, cs, String.toList_ofList, hc, hcs⟩
  unfold wordKind
  split
  next h => exact ⟨word, isKeyword_iff.mp h, hf⟩
  next h => exact ⟨word, mt isKeyword_iff.mpr h, hf⟩

theorem fits_symbolKind {followed : (Char → Bool) → Prop} (hb : isBlank c = false)
    (hd : c.isDigit = false) (hl : isLetter c = false) (hc : c ≠ '.') :
    Fits followed (String.ofList [c]) (symbolKind c) := by
  unfold symbolKind
  split
  next h =>
    have : ∀ c ∈ ['=', '+', '-', '*', '/'], Fits followed (String.ofList [c]) .operator := by
      simp [Fits]
    exact this c h
  split
  next h =>
    have : ∀ c ∈ ['(', ')'], Fits followed (String.ofList [c]) .paren := by simp [Fits]
    exact this c h
  split
  next h =>
    have : ∀ c ∈ ['\x7b', '\x7d'], Fits followed (String.ofList [c]) .brace := by simp [Fits]
    exact this c h
  next h₁ h₂ h₃ =>
    refine ⟨c, rfl, hb, hd, hl, ?_⟩
    simp_all

theorem text_cut_ne_nil : (cut c cs).text ≠ [] := by
  fun_cases cut c cs <;> exact List.cons_ne_nil _ _

/-- Scanning cuts off a lexeme that has the shape of its class. -/
theorem fits_cut (hb : isBlank c = false) :
    Fits (Leads (cut c cs).rest) (String.ofList (cut c cs).text) (cut c cs).kind := by
  by_cases hd : c.isDigit = true
  · rw [cut_of_isDigit hd]
    refine ⟨?_, not_leads_dropWhile⟩
    rw [String.toList_ofList]
    exact List.forall_mem_cons.mpr ⟨hd, forall_mem_takeWhile⟩
  by_cases hl : isLetter c = true
  · rw [cut_of_isLetter hl]
    exact fits_wordKind hl forall_mem_takeWhile not_leads_dropWhile
  by_cases hc : c = '.'
  · subst hc
    by_cases hcs : Leads cs (· == '.')
    · obtain ⟨ds, rfl⟩ : ∃ ds, cs = '.' :: ds := by
        cases cs with
        | nil => exact absurd hcs not_leads_nil
        | cons c ds => exact ⟨ds, by simpa using hcs⟩
      simp [cut_dots, Fits]
    · rw [cut_dot hcs]
      exact ⟨rfl, hcs⟩
  · rw [cut_symbol (by simpa using hd) (by simpa using hl) hc]
    exact fits_symbolKind hb (by simpa using hd) (by simpa using hl) hc

theorem symbolKind_eq_unknown
    (h : c ∉ ['.', '=', '+', '-', '*', '/', '(', ')', '\x7b', '\x7d']) :
    symbolKind c = .unknown := by
  simp_all [symbolKind]

theorem cut_word {lexeme : String} (h : IsWord lexeme) (hl : lexeme.toList = c :: ds)
    (hpost : ¬ Leads post isWordPart) :
    cut c (ds ++ post) = ⟨wordKind lexeme.toList, lexeme.toList, post⟩ := by
  obtain ⟨d, es, hl', hd, hes⟩ := h
  obtain ⟨rfl, rfl⟩ := List.cons.inj (hl.symm.trans hl')
  rw [cut_of_isLetter hd, takeWhile_append_of_not_leads hes hpost,
    dropWhile_append_of_not_leads hes hpost, hl]

/-- Scanning cuts off every lexeme that has the shape of its class where it stands. -/
theorem cut_eq_of_fits {kind : TokenKind} {lexeme : String} (hne : lexeme ≠ "")
    (h : Fits (Leads post) lexeme kind) (hl : c :: cs = lexeme.toList ++ post) :
    cut c cs = ⟨kind, lexeme.toList, post⟩ := by
  -- The lexeme begins with the first character, which decides the branch of `cut`.
  obtain ⟨ds, hds, rfl⟩ : ∃ ds, lexeme.toList = c :: ds ∧ cs = ds ++ post := by
    rcases List.cons_eq_append_iff.mp hl with ⟨hnil, _⟩ | hcons
    · exact absurd (String.toList_eq_nil_iff.mp hnil) hne
    · exact hcons
  cases kind with
  | literal =>
    obtain ⟨digits, hpost⟩ := h
    rw [hds, List.forall_mem_cons] at digits
    rw [cut_of_isDigit digits.1, takeWhile_append_of_not_leads digits.2 hpost,
      dropWhile_append_of_not_leads digits.2 hpost, hds]
  | keyword =>
    obtain ⟨word, hk, hpost⟩ := h
    rw [cut_word word hds hpost, wordKind, String.ofList_toList, if_pos (isKeyword_iff.mpr hk)]
  | identifier =>
    obtain ⟨word, hk, hpost⟩ := h
    rw [cut_word word hds hpost, wordKind, String.ofList_toList, if_neg (mt isKeyword_iff.mp hk)]
  | operator =>
    simp only [Fits, List.mem_cons, List.not_mem_nil, or_false] at h
    rcases h with rfl | rfl | rfl | rfl | rfl | rfl
    all_goals
      cases hds
      rfl
  | error =>
    obtain ⟨rfl, hpost⟩ := h
    obtain ⟨rfl, rfl⟩ : c = '.' ∧ ds = [] := by simpa using hds.symm
    exact cut_dot hpost
  | paren =>
    rcases h with rfl | rfl
    all_goals
      cases hds
      rfl
  | brace =>
    rcases h with rfl | rfl
    all_goals
      cases hds
      rfl
  | unknown =>
    obtain ⟨c, rfl, _, hd, hletter, hc⟩ := h
    obtain ⟨rfl, rfl⟩ : _ = c ∧ ds = [] := by simpa using hds.symm
    have hdot : c ≠ '.' := fun h => hc (h ▸ List.mem_cons_self)
    rw [List.nil_append, cut_symbol hd hletter hdot, symbolKind_eq_unknown hc, hds]

end Pocl
