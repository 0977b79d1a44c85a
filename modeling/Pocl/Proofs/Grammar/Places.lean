import Pocl.Proofs.Grammar.Refusal
import Pocl.Proofs.Token.Spelling

/-!
# Places do not matter to parsing

Parsing looks at the classes and the lexemes of tokens, never at their places. Two lists of the same
forms spell the same program, or parsing stops on both at the same index and requires the same. A
place is seen only in the token that an error reports, and it is that of the list that was parsed.

Blanks between tokens do not matter beyond keeping them apart: a source that is written again with
a single space between any two of its lexemes has the same tokens but for their places. So the
lexemes of a source determine the classes of its tokens and the way in which it is parsed.

## Main definitions

* `ParseError.expected?`: what an error requires
* `ErrorsAlike ts us e e'`: the error `e` on `ts` and the error `e'` on `us` differ only in places
* `respace source`: the lexemes of the source with a space between any two
* `ReadAlike source source'`: the same tokens and the same parse, but for the places of the tokens

## Main results

* `parse_ok_of_alike`: lists of the same forms spell the same program
* `exists_error_of_alike`: they are refused alike
* `parse_eq_up_to_places`: lists that agree at every index are parsed alike
* `respace_reads_alike`: respacing a source changes nothing but places
-/

namespace Pocl

open Grammar Rule

variable {ts us : List Token} {e e' : ParseError} {p : Program} {source source' : String}

/-! ## Token lists -/

/-- The token that an error requires, or `none` where an operand or a statement was due. -/
def ParseError.expected? : ParseError → Option Expected
  | unexpected _ => none
  | mismatch expected _ => some expected

theorem Grammar.Failure.expected?_error (f : Failure) : f.error.expected? = f.expected := by
  unfold error
  split <;> simp_all [ParseError.expected?]

/-- An error reports the token after those that were taken. -/
theorem Grammar.Failure.found_error_append (x : Option Expected) (used rest : List Token) :
    (Failure.error ⟨x, rest⟩).found = (used ++ rest)[used.length]? := by
  rw [found_error, List.getElem?_append_right (Nat.le_refl _), Nat.sub_self, List.head?_eq_getElem?]

/-- The errors require the same, and parsing stops at the same index, where each list has the token
that its error reports and both tokens have the same form, or where both lists end. -/
structure ErrorsAlike (ts us : List Token) (e e' : ParseError) : Prop where
  expected : e'.expected? = e.expected?
  found : ∃ i, errorIndex? ts = some i ∧ e.found = ts[i]? ∧ errorIndex? us = some i ∧
    e'.found = us[i]?
  form : e'.found.map Token.form = e.found.map Token.form

theorem Grammar.Rule.Alike.length_eq (h : Alike us ts) : us.length = ts.length := by
  simpa using congrArg List.length h

/-- Lists of the same forms spell the same program. -/
theorem parse_ok_of_alike (h : Alike us ts) (hp : parse ts = .ok p) : parse us = .ok p :=
  parse_of_derives (Clause.Spelled.alike (derives_of_parse hp) h)

/-- Lists of the same forms are refused alike. -/
theorem exists_error_of_alike (h : Alike us ts) (he : parse ts = .error e) :
    ∃ e', parse us = .error e' ∧ ErrorsAlike ts us e e' := by
  obtain ⟨x, used, rest, rfl, hr, rfl, hindex, -⟩ := exists_stop_of_parse_error he
  obtain ⟨used', rest', rfl, hused, hrest⟩ := Alike.append_iff.mp h
  have hnext : next rest' = next rest := by
    have := congrArg List.head? hrest
    rwa [List.head?_map, List.head?_map] at this
  have hr' := (stepwise_settled.statements _).error_append hr rfl hused hnext
  have hindex' : errorIndex? (used' ++ rest') = some used.length := by
    rw [← hused.length_eq]
    exact errorIndex?_of_error hr'
  have hfound' : (Failure.error ⟨x, rest'⟩).found = (used' ++ rest')[used.length]? := by
    rw [← hused.length_eq]
    exact Failure.found_error_append x used' rest'
  refine ⟨_, parse_of_statements_error hr', ?_, ⟨used.length, hindex,
    Failure.found_error_append x used rest, hindex', hfound'⟩, ?_⟩
  · rw [Failure.expected?_error, Failure.expected?_error]
  · rw [Failure.found_error, Failure.found_error]
    exact hnext

/-! ## Lists that agree index by index -/

theorem alike_of_getElem (hlength : us.length = ts.length)
    (h : ∀ (i : Nat) (ht : i < ts.length) (hu : i < us.length), us[i].form = ts[i].form) :
    Alike us ts := by
  refine List.ext_getElem (by simpa using hlength) fun i hu ht => ?_
  rw [List.length_map] at hu ht
  rw [List.getElem_map, List.getElem_map]
  exact h i ht hu

/-- Errors that require the same are of the same kind. -/
theorem ErrorsAlike.kind (h : ErrorsAlike ts us e e') :
    (e = .unexpected e.found ∧ e' = .unexpected e'.found) ∨
      ∃ x, e = .mismatch x e.found ∧ e' = .mismatch x e'.found := by
  have hexpected := h.expected
  cases e with
  | unexpected found =>
    cases e' with
    | unexpected found' => exact .inl ⟨rfl, rfl⟩
    | mismatch x' found' => cases hexpected
  | mismatch x found =>
    cases e' with
    | unexpected found' => cases hexpected
    | mismatch x' found' =>
      obtain rfl := Option.some.inj hexpected
      exact .inr ⟨x', rfl, rfl⟩

/-- **Places do not matter to parsing.** Two lists of the same length that have tokens of the same
classes and lexemes at every index spell the same program, or parsing stops on both at the same
index, with the same kind of error and the same requirement. Each error reports the token that its
own list has there, with the position of that token, or else the end of the input. -/
theorem parse_eq_up_to_places (ts us : List Token) (hlength : us.length = ts.length)
    (h : ∀ (i : Nat) (ht : i < ts.length) (hu : i < us.length),
      us[i].kind = ts[i].kind ∧ us[i].lexeme = ts[i].lexeme) :
    (∃ p, parse ts = .ok p ∧ parse us = .ok p) ∨
      ∃ i e e', errorIndex? ts = some i ∧ errorIndex? us = some i ∧
        parse ts = .error e ∧ parse us = .error e' ∧
        ((e = .unexpected ts[i]? ∧ e' = .unexpected us[i]?) ∨
          ∃ x, e = .mismatch x ts[i]? ∧ e' = .mismatch x us[i]?) ∧
        e.position = ts[i]?.map Token.position ∧ e'.position = us[i]?.map Token.position := by
  have halike : Alike us ts := alike_of_getElem hlength fun i ht hu =>
    Prod.ext (h i ht hu).1 (h i ht hu).2
  cases hts : parse ts with
  | ok p => exact .inl ⟨p, rfl, parse_ok_of_alike halike hts⟩
  | error e =>
    obtain ⟨e', hus, herrors⟩ := exists_error_of_alike halike hts
    obtain ⟨i, hi, hfound, hi', hfound'⟩ := herrors.found
    refine .inr ⟨i, e, e', hi, hi', rfl, hus, ?_, ?_, ?_⟩
    · rw [← hfound, ← hfound']
      exact herrors.kind
    · rw [ParseError.position, hfound]
    · rw [ParseError.position, hfound']

/-- `f(1)` is the same call wherever its tokens stand, and `x = )` is refused at its parenthesis. -/
theorem parse_of_moved_tokens :
    let call (m n : Nat) : List Token :=
      [⟨.identifier, "f", m⟩, ⟨.paren, "(", n⟩, ⟨.literal, "1", n⟩, ⟨.paren, ")", m⟩]
    let r (n : Nat) : Token := ⟨.paren, ")", n⟩
    let stray (m n : Nat) : List Token := [⟨.identifier, "x", m⟩, ⟨.operator, "=", n⟩, r n]
    (∃ p, parse (call 1 2) = .ok p ∧ parse (call 90 7) = .ok p) ∧
      parse (stray 1 3) = .error (.unexpected (some (r 3))) ∧
      parse (stray 5 40) = .error (.unexpected (some (r 40))) := by
  intro call r stray
  have hcall : parse (call 1 2) = .ok ⟨[.functionCall "f" [.number "1"]]⟩ := by cbv
  have hstray : parse (stray 1 3) = .error (.unexpected (some (r 3))) := by cbv
  have hindex : errorIndex? (stray 1 3) = some 2 := by cbv
  constructor
  · rcases parse_eq_up_to_places (call 1 2) (call 90 7) rfl (by decide) with
      h | ⟨_, e, _, -, -, he, -⟩
    · exact h
    · cases hcall.symm.trans he
  · rcases parse_eq_up_to_places (stray 1 3) (stray 5 40) rfl (by decide) with
      ⟨p, hp, -⟩ | ⟨i, e, e', hi, -, he, he', hkind, -⟩
    · cases hstray.symm.trans hp
    · obtain rfl : 2 = i := Option.some.inj (hindex.symm.trans hi)
      obtain rfl := Except.error.inj (hstray.symm.trans he)
      rcases hkind with ⟨-, rfl⟩ | ⟨x, hx, -⟩
      · exact ⟨hstray, he'⟩
      · cases hx

/-! ## Source texts -/

/-- The lexemes of the source with a space between any two of them. -/
def respace (source : String) : String :=
  " ".intercalate ((scan source).map Token.lexeme)

/-- The sources have tokens of the same forms, in the same order. Where the first one spells a
program, so does the second one, and where the first one is refused, the second one is refused
alike. -/
structure ReadAlike (source source' : String) : Prop where
  forms : (scan source').map Token.form = (scan source).map Token.form
  accepted : ∀ p, parseSource source = .ok p → parseSource source' = .ok p
  refused : ∀ e, parseSource source = .error e → ∃ e', parseSource source' = .error e' ∧
    ErrorsAlike (scan source) (scan source') e e'

theorem map_lexeme_eq_of_forms {ts us : List Token} (h : us.map Token.form = ts.map Token.form) :
    us.map Token.lexeme = ts.map Token.lexeme := by
  have hsnd (ts : List Token) : ts.map Token.lexeme = (ts.map Token.form).map Prod.snd := by
    rw [List.map_map]
    rfl
  rw [hsnd, hsnd, h]

theorem readAlike_of_forms (h : (scan source').map Token.form = (scan source).map Token.form) :
    ReadAlike source source' :=
  ⟨h, fun _ => parse_ok_of_alike h, fun _ => exists_error_of_alike h⟩

theorem forms_respace (source : String) :
    (scan (respace source)).map Token.form = (scan source).map Token.form := by
  have hshaped : ∀ form ∈ (scan source).map Token.form, Shaped form := by
    rintro form hform
    obtain ⟨t, ht, rfl⟩ := List.mem_map.mp hform
    exact shaped_of_mem_scan ht
  have h := map_form_scanFrom_intercalate (n := 0) hshaped
  rwa [List.map_map] at h

/-- **Respacing changes nothing but places.** A source with single spaces between its lexemes has
tokens of the same classes and lexemes, it is respaced already, and it spells the same program or is
refused at the same index in the same way. So the lexemes of a source determine how it is read. -/
theorem respace_reads_alike (source : String) :
    ReadAlike source (respace source) ∧ respace (respace source) = respace source ∧
    ∀ source', (scan source').map Token.lexeme = (scan source).map Token.lexeme →
      ReadAlike source source' := by
  have hforms := forms_respace source
  refine ⟨readAlike_of_forms hforms, ?_, fun source' h => readAlike_of_forms ?_⟩
  · exact congrArg (" ".intercalate ·) (map_lexeme_eq_of_forms hforms)
  · -- Both are respaced to the same text.
    have hsame : respace source' = respace source := congrArg (" ".intercalate ·) h
    rw [← forms_respace source', hsame, hforms]

/-- A call that is accepted and a full stop that is refused, both written without blanks. -/
theorem respace_of_call_and_full_stop :
    let call := "x=f(1)"
    let p : Program := ⟨[.assignment "x" (.functionCall "f" [.number "1"])]⟩
    let stop := "é=.5"
    let e : ParseError := .unexpected (some ⟨.error, ".", 4⟩)
    (respace call = "x = f ( 1 )" ∧ parseSource call = .ok p ∧ parseSource (respace call) = .ok p ∧
      ReadAlike call "x =f (1)") ∧
    respace stop = "é = . 5" ∧ parseSource stop = .error e ∧
      ∃ e', parseSource (respace stop) = .error e' ∧
        ErrorsAlike (scan stop) (scan (respace stop)) e e' := by
  intro call p stop e
  have hcall : scan call = [⟨.identifier, "x", 1⟩, ⟨.operator, "=", 2⟩, ⟨.identifier, "f", 3⟩,
      ⟨.paren, "(", 4⟩, ⟨.literal, "1", 5⟩, ⟨.paren, ")", 6⟩] := by decide +kernel
  have hstop : scan stop = [⟨.identifier, "é", 2⟩, ⟨.operator, "=", 3⟩, ⟨.error, ".", 4⟩,
      ⟨.literal, "5", 5⟩] := by decide +kernel
  have hp : parseSource call = .ok p := by
    rw [parseSource, hcall]
    cbv
  have he : parseSource stop = .error e := by
    rw [parseSource, hstop]
    cbv
  obtain ⟨hrespaced, -, hsame⟩ := respace_reads_alike call
  exact ⟨⟨by decide +kernel, hp, hrespaced.accepted p hp, hsame _ (by decide +kernel)⟩,
    by decide +kernel, he, (respace_reads_alike stop).1.refused e he⟩

end Pocl
