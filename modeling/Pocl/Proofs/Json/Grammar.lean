import Pocl.Json

/-!
# The grammar of JSON

The grammar says which texts stand for a document, without saying how a text is laid out. Blanks may
stand around the document and before and after every sign, and a character of a string may be
written as itself, by one letter after a backslash, or by four hexadecimal digits. The text that is
printed for a document follows the grammar, whatever the document.

## Main definitions

* `CharSpelled c cs`, `StringSpelled s cs`: the ways to write a character inside a string, a string
* `NumberSpelled n cs`: the way to write a natural number
* `Part.Spelled`: the ways to write a document, and the rest of an array or of an object
* `TextOf document text`: the text stands for the document, by the grammar

## Main results

* `charSpelled_escape`: every character is escaped in one of the ways to write it
* `spelled_pretty`: a document is printed by the grammar at every depth
* `textOf_text`: the text of a document stands for it
-/

namespace Pocl.Json

variable {c : Char} {cs us ws : List Char}

/-! ## Blanks -/

/-- A blank of JSON is a space, a tab, a line feed or a carriage return. -/
def isBlank (c : Char) : Bool :=
  c ∈ [' ', '\t', '\n', '\r']

/-- There are only blanks in the text. -/
def Blank (cs : List Char) : Prop :=
  ∀ c ∈ cs, isBlank c = true

instance (cs : List Char) : Decidable (Blank cs) :=
  List.decidableBAll _ cs

theorem blank_nil : Blank [] :=
  List.forall_mem_nil _

theorem blank_cons_iff : Blank (c :: cs) ↔ isBlank c = true ∧ Blank cs :=
  List.forall_mem_cons

theorem blank_space : Blank [' '] :=
  blank_cons_iff.mpr ⟨rfl, blank_nil⟩

theorem blank_lineBreak (depth : Nat) : Blank (lineBreak depth).toList := by
  simp [Blank, lineBreak, isBlank]

/-! ## Strings -/

/-- The letters that stand for a character after a backslash, each with its character. -/
def letterEscapes : List (Char × Char) :=
  [('"', '"'), ('\\', '\\'), ('/', '/'), ('b', '\x08'), ('f', '\x0c'), ('n', '\n'), ('r', '\r'),
    ('t', '\t')]

/-- The value of a hexadecimal digit, in either case. -/
def hexDigit? (c : Char) : Option Nat :=
  if c.isDigit then some (c.toNat - '0'.toNat)
  else if 'a' ≤ c ∧ c ≤ 'f' then some (c.toNat - 'a'.toNat + 10)
  else if 'A' ≤ c ∧ c ≤ 'F' then some (c.toNat - 'A'.toNat + 10)
  else none

/-- The value of four hexadecimal digits. -/
def hexCode? (a b c d : Char) : Option Nat := do
  let high := (← hexDigit? a) * 16 + (← hexDigit? b)
  let low := (← hexDigit? c) * 16 + (← hexDigit? d)
  some (high * 256 + low)

/-- The ways to write a character inside a string. -/
inductive CharSpelled : Char → List Char → Prop where
  | plain {c : Char} : c ≠ '"' → c ≠ '\\' → 0x20 ≤ c.toNat → CharSpelled c [c]
  | letter {mark c : Char} : (mark, c) ∈ letterEscapes → CharSpelled c ['\\', mark]
  | code {c h₁ h₂ h₃ h₄ : Char} :
      hexCode? h₁ h₂ h₃ h₄ = some c.toNat → CharSpelled c ['\\', 'u', h₁, h₂, h₃, h₄]

/-- The ways to write characters inside a string, one after the other, with the quote after
them. -/
inductive CharsSpelled : List Char → List Char → Prop where
  | quote : CharsSpelled [] ['"']
  | cons {c : Char} {cs us vs : List Char} :
      CharSpelled c us → CharsSpelled cs vs → CharsSpelled (c :: cs) (us ++ vs)

/-- The ways to write a string, between quotes. -/
inductive StringSpelled : String → List Char → Prop where
  | intro {s : String} {us : List Char} :
      CharsSpelled s.toList us → StringSpelled s ('"' :: us)

theorem hexCode?_of_lt_space : ∀ n < 0x20,
    hexCode? '0' '0' (Nat.digitChar (n / 16)) (Nat.digitChar (n % 16)) = some n := by
  decide

/-- Every character is escaped in one of the ways to write it. -/
theorem charSpelled_escape (c : Char) : CharSpelled c (escape c) := by
  fun_cases escape c
  case case8 hspace => exact .code (hexCode?_of_lt_space _ hspace)
  case case9 hquote hbackslash _ _ _ _ _ hspace =>
    exact .plain hquote hbackslash (Nat.le_of_not_lt hspace)
  all_goals exact .letter (by simp [letterEscapes, *])

theorem charsSpelled_escape (cs : List Char) :
    CharsSpelled cs (cs.flatMap escape ++ ['"']) := by
  induction cs with
  | nil => exact .quote
  | cons c cs ih =>
    rw [List.flatMap_cons, List.append_assoc]
    exact .cons (charSpelled_escape c) ih

theorem stringSpelled_quote (s : String) : StringSpelled s (quote s).toList := by
  have := StringSpelled.intro (charsSpelled_escape s.toList)
  simpa [quote] using this

/-! ## Numbers -/

/-- A natural number is written in decimal, without a zero in front of other digits. -/
structure NumberSpelled (n : Nat) (cs : List Char) : Prop where
  nonempty : cs ≠ []
  digits : ∀ c ∈ cs, c.isDigit = true
  noLeadingZero : cs.head? = some '0' → cs = ['0']
  value : Nat.ofDigitChars 10 cs 0 = n

/-- The decimal digits of a positive number do not begin with a zero. -/
theorem head?_toDigits_ne_zero {n : Nat} (h : 0 < n) :
    (Nat.toDigits 10 n).head? ≠ some '0' := by
  induction n using Nat.strongRecOn with
  | ind n ih =>
    rw [Nat.toDigits_eq_if (by decide)]
    split
    case isTrue hlt =>
      have nonzero : ∀ n < 10, 0 < n → Nat.digitChar n ≠ '0' := by decide
      simpa using nonzero n hlt h
    case isFalse hge =>
      have := ih (n / 10) (by omega) (by omega)
      rwa [List.head?_append, Option.or_of_isSome (by simp [Nat.toDigits_ne_nil])]

theorem numberSpelled_toString (n : Nat) : NumberSpelled n (toString n).toList := by
  rw [Nat.toString_eq_ofList_toDigits, String.toList_ofList]
  refine ⟨Nat.toDigits_ne_nil, fun c => Nat.isDigit_of_mem_toDigits (by decide) (by decide), ?_,
    Nat.ofDigitChars_ten_toDigits⟩
  intro h
  rcases Nat.eq_zero_or_pos n with rfl | hn
  · rfl
  · exact absurd h (head?_toDigits_ne_zero hn)

/-! ## Documents -/

/-- Whether an item is the first one, or stands after another. -/
inductive Turn where
  | first
  | later
  deriving DecidableEq, Repr

/-- What stands in front of an item: a comma, except for the first one, among blanks. -/
inductive SeparatorSpelled : Turn → List Char → Prop where
  | first {ws : List Char} : Blank ws → SeparatorSpelled .first ws
  | later {ws us : List Char} : Blank ws → Blank us → SeparatorSpelled .later (ws ++ ',' :: us)

/-- A part of a text, with what it stands for: a document, or the items or members from some turn
on with the bracket that closes them. -/
inductive Part where
  | value (document : Json)
  | items (turn : Turn) (items : List Json)
  | members (turn : Turn) (members : List (String × Json))

/-- The ways to write a document, and the rest of an array or of an object. -/
inductive Part.Spelled : Part → List Char → Prop where
  | string {s : String} {us : List Char} : StringSpelled s us → Spelled (.value (.string s)) us
  | number {n : Nat} {us : List Char} : NumberSpelled n us → Spelled (.value (.number n)) us
  | array {ds : List Json} {us : List Char} :
      Spelled (.items .first ds) us → Spelled (.value (.array ds)) ('[' :: us)
  | object {ms : List (String × Json)} {us : List Char} :
      Spelled (.members .first ms) us → Spelled (.value (.object ms)) ('\x7b' :: us)
  | noItems {turn : Turn} {ws : List Char} : Blank ws → Spelled (.items turn []) (ws ++ [']'])
  | item {turn : Turn} {ws us vs : List Char} {d : Json} {ds : List Json} :
      SeparatorSpelled turn ws → Spelled (.value d) us → Spelled (.items .later ds) vs →
      Spelled (.items turn (d :: ds)) (ws ++ (us ++ vs))
  | noMembers {turn : Turn} {ws : List Char} :
      Blank ws → Spelled (.members turn []) (ws ++ ['\x7d'])
  | member {turn : Turn} {ws ks bs es us vs : List Char} {key : String} {d : Json}
      {ms : List (String × Json)} :
      SeparatorSpelled turn ws → StringSpelled key ks → Blank bs → Blank es →
      Spelled (.value d) us → Spelled (.members .later ms) vs →
      Spelled (.members turn ((key, d) :: ms)) (ws ++ (ks ++ (bs ++ ':' :: (es ++ (us ++ vs)))))

/-- The text stands for the document, by the grammar, with blanks around it. -/
def TextOf (document : Json) (text : String) : Prop :=
  ∃ ws us bs, Blank ws ∧ (Part.value document).Spelled us ∧ Blank bs ∧
    text.toList = ws ++ (us ++ bs)

mutual

/-- A document is printed by the grammar at every depth. -/
theorem spelled_pretty (depth : Nat) : (document : Json) →
    (Part.value document).Spelled (document.pretty depth).toList
  | .string value => .string (stringSpelled_quote value)
  | .number value => .number (numberSpelled_toString value)
  | .array [] => by simpa [pretty] using Part.Spelled.array (.noItems blank_nil)
  | .array (item :: items) => by
    have := Part.Spelled.array (.item (.first (blank_lineBreak (depth + 1)))
      (spelled_pretty (depth + 1) item) (spelled_prettyItems depth items))
    simpa [pretty] using this
  | .object [] => by simpa [pretty] using Part.Spelled.object (.noMembers blank_nil)
  | .object ((key, value) :: members) => by
    have := Part.Spelled.object (.member (.first (blank_lineBreak (depth + 1)))
      (stringSpelled_quote key) blank_nil blank_space
      (spelled_pretty (depth + 1) value) (spelled_prettyMembers depth members))
    simpa [pretty] using this

/-- The further items of an array, up to its bracket, are printed by the grammar. -/
theorem spelled_prettyItems (depth : Nat) : (items : List Json) →
    (Part.items .later items).Spelled
      ((prettyItems (depth + 1) items).toList ++ (lineBreak depth).toList ++ [']'])
  | [] => .noItems (blank_lineBreak depth)
  | item :: items => by
    have := Part.Spelled.item (.later blank_nil (blank_lineBreak (depth + 1)))
      (spelled_pretty (depth + 1) item) (spelled_prettyItems depth items)
    simpa [prettyItems] using this

/-- The further members of an object, up to its brace, are printed by the grammar. -/
theorem spelled_prettyMembers (depth : Nat) : (members : List (String × Json)) →
    (Part.members .later members).Spelled
      ((prettyMembers (depth + 1) members).toList ++ (lineBreak depth).toList ++ ['\x7d'])
  | [] => .noMembers (blank_lineBreak depth)
  | (key, value) :: members => by
    have := Part.Spelled.member (.later blank_nil (blank_lineBreak (depth + 1)))
      (stringSpelled_quote key) blank_nil blank_space
      (spelled_pretty (depth + 1) value) (spelled_prettyMembers depth members)
    simpa [prettyMembers] using this

end

/-- The text of a document stands for it. -/
theorem textOf_text (document : Json) : TextOf document document.text :=
  ⟨[], _, [], blank_nil, spelled_pretty 0 document, blank_nil, by simp [text]⟩

end Pocl.Json
