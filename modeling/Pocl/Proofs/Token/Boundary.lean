import Mathlib.Data.List.Basic
import Pocl.Proofs.Token.Tiling

/-!
# Scanning two texts put together

Where one text follows another, the tokens of both are the tokens of the first and, moved by its
length, those of the second, unless a token runs over the boundary. A token does so only if it ends
with the first text and its class goes on with the first character of the second: a number goes on
with a digit, a word with a letter or a numeral, and a full stop with another one.

## Main definitions

* `TokenKind.goesOn kind c`: a token of the class is longer where `c` follows it
* `Token.shift n t`: the token `t`, moved by `n` bytes
* `Joins s s'`: the last token of `s` goes on with the first character of `s'`

## Main results

* `fits_iff_shape`: what follows a lexeme matters only where its class would go on
* `scanFrom_append_of_not_joins`: without a join the scan of the first text is not disturbed
* `scan_append_eq_iff_not_joins`: scanning is compositional exactly where nothing joins
-/

namespace Pocl

variable {s s' lexeme : String} {cs ds : List Char} {c : Char} {p : Char → Bool}
  {kind : TokenKind} {n : Nat} {t : Token}

/-! ## What a class goes on with -/

/-- Whether a token of the class is longer where the character follows it. -/
def TokenKind.goesOn : TokenKind → Char → Bool
  | .literal => Char.isDigit
  | .keyword => isWordPart
  | .identifier => isWordPart
  | .error => (· == '.')
  | _ => fun _ => false

/-- A lexeme has its shape by itself, and no character follows it with which its class goes on. -/
theorem fits_iff_shape {followed : (Char → Bool) → Prop} (hf : ¬ followed fun _ => false) :
    Fits followed lexeme kind ↔ Fits (fun _ => False) lexeme kind ∧ ¬ followed kind.goesOn := by
  cases kind <;> simp [Fits, TokenKind.goesOn, hf, and_assoc]

theorem goesOn_of_isBlank (h : isBlank c = true) : kind.goesOn c = false := by
  have notWordPart : isWordPart c = false := Bool.eq_false_iff.mpr fun hw => by
    rw [not_isBlank_of_isWordPart hw] at h
    cases h
  cases kind with
  | literal =>
    refine Bool.eq_false_iff.mpr fun hd => ?_
    rw [isWordPart_of_isDigit hd] at notWordPart
    cases notWordPart
  | keyword => exact notWordPart
  | identifier => exact notWordPart
  | error => rcases isBlank_iff.mp h with rfl | rfl | rfl <;> rfl
  | operator | paren | brace | unknown => rfl

theorem not_leads_false : ¬ Leads cs fun _ => false := by
  rintro ⟨c, -, hc⟩
  cases hc

theorem leads_append_iff (h : cs ≠ []) : Leads (cs ++ ds) p ↔ Leads cs p := by
  cases cs with
  | nil => exact absurd rfl h
  | cons c cs => simp

/-- A lexeme keeps its shape where a text is put after the one it stands in, unless it ends there
and its class goes on. -/
theorem Fits.append (h : Fits (Leads cs) lexeme kind) (hds : cs = [] → ¬ Leads ds kind.goesOn) :
    Fits (Leads (cs ++ ds)) lexeme kind := by
  obtain ⟨shape, hcs⟩ := (fits_iff_shape not_leads_false).mp h
  refine (fits_iff_shape not_leads_false).mpr ⟨shape, ?_⟩
  by_cases hnil : cs = []
  · rw [hnil]
    exact hds hnil
  · rwa [leads_append_iff hnil]

/-! ## Moving tokens -/

/-- The token, moved by `n` bytes. -/
def Token.shift (n : Nat) (t : Token) : Token :=
  { t with position := n + t.position }

theorem scanFrom_add (m n : Nat) (cs : List Char) :
    scanFrom (m + n) cs = (scanFrom n cs).map (Token.shift m) := by
  fun_induction scanFrom n cs with
  | case1 n => rw [scanFrom, List.map_nil]
  | case2 n c cs hc ih => rw [scanFrom_blank hc, Nat.add_assoc, ih]
  | case3 n c cs hc lexeme stop ih =>
    have hstop : (cutToken (m + n) c cs).position = m + stop := Nat.add_assoc _ _ _
    rw [scanFrom_lexeme (Bool.eq_false_iff.mpr hc), List.map_cons, ← ih, hstop]
    exact congrArg (· :: _) (congrArg (Token.mk _ _) hstop)

/-! ## The boundary -/

/-- The last token of `s` ends with `s` and goes on with the first character of `s'`. -/
def Joins (s s' : String) : Prop :=
  ∃ t c, (scan s).getLast? = some t ∧ t.position = s.utf8ByteSize ∧
    s'.toList.head? = some c ∧ t.kind.goesOn c = true

theorem joins_iff : Joins s s' ↔ ∃ t, (scan s).getLast? = some t ∧ t.position = s.utf8ByteSize ∧
    Leads s'.toList t.kind.goesOn := by
  simp only [Joins, Leads, exists_and_left]

/-- The lexeme that is cut off stays the same where a text is put after it, unless nothing is left
of the first text and the class of the lexeme goes on. -/
theorem cut_append (hc : isBlank c = false)
    (h : (cut c cs).rest = [] → ¬ Leads ds (cut c cs).kind.goesOn) :
    cut c (cs ++ ds) = ⟨(cut c cs).kind, (cut c cs).text, (cut c cs).rest ++ ds⟩ := by
  have hne : String.ofList (cut c cs).text ≠ "" := by
    simpa [← String.toList_inj] using text_cut_ne_nil
  have hsplit : c :: (cs ++ ds) =
      (String.ofList (cut c cs).text).toList ++ ((cut c cs).rest ++ ds) := by
    rw [String.toList_ofList, ← List.append_assoc, text_append_rest_cut, List.cons_append]
  rw [cut_eq_of_fits hne ((fits_cut hc).append h) hsplit, String.toList_ofList]

/-- Where no token runs over the boundary, scanning what stands before it is not disturbed. -/
theorem scanFrom_append_of_not_joins
    (h : ∀ t, (scanFrom n cs).getLast? = some t → t.position = n + width cs →
      ¬ Leads ds t.kind.goesOn) :
    scanFrom n (cs ++ ds) = scanFrom n cs ++ scanFrom (n + width cs) ds := by
  fun_induction scanFrom n cs with
  | case1 n => rfl
  | case2 n c cs hc ih =>
    rw [width_cons, ← Nat.add_assoc] at h ⊢
    rw [List.cons_append, scanFrom_blank hc]
    exact ih h
  | case3 n c cs hb lexeme stop ih =>
    have hc : isBlank c = false := Bool.eq_false_iff.mpr hb
    have hwidth : n + width (c :: cs) = stop + width (cut c cs).rest := by
      rw [← text_append_rest_cut, width_append, ← utf8ByteSize_ofList (cut c cs).text,
        ← Nat.add_assoc]
    rw [hwidth] at h ⊢
    have hcut : cut c (cs ++ ds) =
        ⟨(cut c cs).kind, (cut c cs).text, (cut c cs).rest ++ ds⟩ := cut_append hc fun hrest => by
      refine h ⟨(cut c cs).kind, lexeme, stop⟩ ?_ ?_
      · rw [hrest, scanFrom, List.getLast?_singleton]
      · rw [hrest, width_nil, Nat.add_zero]
    have hrest := ih fun t ht => h t (by rw [List.getLast?_cons, ht, Option.getD_some])
    rw [List.cons_append, scanFrom_lexeme hc, cutToken, hcut, hrest]
    rfl

/-- A token that runs over the boundary is not one of the tokens of both texts. -/
theorem not_joins_of_scan_append
    (h : scan (s ++ s') = scan s ++ (scan s').map (Token.shift s.utf8ByteSize)) : ¬ Joins s s' := by
  rw [joins_iff]
  rintro ⟨t, hlast, hend, hleads⟩
  have hmem : t ∈ scan (s ++ s') := by
    rw [h]
    exact List.mem_append_left _ (List.mem_of_getLast? hlast)
  have hfits := (placed_of_mem_scan hmem).fits
  have hfollowed : FollowedBy (s ++ s') t.position = Leads s'.toList := by
    funext p
    rw [hend, ← width_toList]
    exact propext (followedBy_width_iff String.toList_append)
  rw [hfollowed] at hfits
  exact ((fits_iff_shape not_leads_false).mp hfits).2 hleads

/-- A token that ends with its source is the end of it. -/
theorem Placed.exists_append (h : Placed s t) (hend : t.position = s.utf8ByteSize) :
    ∃ before, s.toList = before ++ t.lexeme.toList := by
  obtain ⟨before, after, hs, hw⟩ := standsAt_iff.mp h.stands
  have hsize := congrArg width hs
  rw [width_append, width_append, width_toList, width_toList, hw, ← hend, ← h.start_add] at hsize
  obtain rfl : after = [] := width_eq_zero_iff.mp (by omega)
  exact ⟨before, by rw [hs, List.append_nil]⟩

/-- A blank on either side of the boundary keeps tokens from joining. -/
theorem not_joins_of_isBlank (hc : isBlank c = true)
    (h : s.toList.getLast? = some c ∨ s'.toList.head? = some c) : ¬ Joins s s' := by
  rintro ⟨t, d, hlast, hend, hd, hgoes⟩
  rcases h with h | h
  · -- The last token would end with the blank.
    have hp := placed_of_mem_scan (List.mem_of_getLast? hlast)
    obtain ⟨before, hs⟩ := hp.exists_append hend
    rw [hs, List.getLast?_append_of_ne_nil _ (mt String.toList_eq_nil_iff.mp hp.nonempty)] at h
    rw [hp.solid c (List.mem_of_getLast? h)] at hc
    cases hc
  · obtain rfl := Option.some.inj (hd.symm.trans h)
    rw [goesOn_of_isBlank hc] at hgoes
    cases hgoes

/-- **Scanning is compositional exactly where nothing joins.** The tokens of two texts put together
are those of the first and, moved by its length, those of the second, if and only if the last token
of the first does not run over the boundary. It never does so over a blank. -/
theorem scan_append_eq_iff_not_joins (s s' : String) :
    (scan (s ++ s') = scan s ++ (scan s').map (Token.shift s.utf8ByteSize) ↔ ¬ Joins s s') ∧
    ∀ c, isBlank c = true → s.toList.getLast? = some c ∨ s'.toList.head? = some c →
      scan (s ++ s') = scan s ++ (scan s').map (Token.shift s.utf8ByteSize) := by
  have hiff : scan (s ++ s') = scan s ++ (scan s').map (Token.shift s.utf8ByteSize) ↔
      ¬ Joins s s' := by
    refine ⟨not_joins_of_scan_append, fun h => ?_⟩
    have hsize : s.utf8ByteSize = 0 + width s.toList := by rw [width_toList, Nat.zero_add]
    rw [scan, scan, scan, String.toList_append, ← scanFrom_add, Nat.add_zero, hsize]
    exact scanFrom_append_of_not_joins fun t hlast hend hleads =>
      h (joins_iff.mpr ⟨t, hlast, hend.trans hsize.symm, hleads⟩)
  exact ⟨hiff, fun c hc h => hiff.mpr (not_joins_of_isBlank hc h)⟩

/-- Two full stops join to one operator, unless a blank stands between them. -/
theorem scan_append_at_full_stop :
    let s := "1."
    Joins s ".2" ∧ scan (s ++ ".2") ≠ scan s ++ (scan ".2").map (Token.shift 2) ∧
      isBlank '\t' = true ∧ scan (s ++ "\t.2") = scan s ++ (scan "\t.2").map (Token.shift 2) := by
  intro s
  have h : Joins s ".2" := ⟨⟨.error, ".", 2⟩, '.', by decide +kernel, rfl, rfl, rfl⟩
  exact ⟨h, fun heq => (scan_append_eq_iff_not_joins s ".2").1.mp heq h, rfl,
    (scan_append_eq_iff_not_joins s "\t.2").2 '\t' rfl (.inr rfl)⟩

end Pocl
