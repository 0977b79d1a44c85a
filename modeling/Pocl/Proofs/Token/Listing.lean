import Pocl.Proofs.Text
import Pocl.Proofs.Token.Tiling
import Pocl.Token

/-!
# Listings are lossless

A lexeme stands unescaped in the display form of its token, and it may look like the end of that
form. The form is still read in one way, from both of its ends: no display name of a class holds a
colon, so that the first colon ends the name, and the end offset is the number behind the last
space. A lexeme on one line leaves its token on one line, and so a listing is cut into its tokens at
its line feeds.

## Main results

* `Token.render_inj`: a token is determined by its display form
* `listing_inj`: tokens with lexemes on one line are determined by their listing
* `listing_determines_tokens`: both, and the tokens of a source are determined by their listing
-/

namespace Pocl

variable {source : String} {t u : Token} {ts us : List Token} {kind kind' : TokenKind}
  {cs ds : List Char}

/-! ## Display names -/

theorem TokenKind.name_inj (h : kind.name = kind'.name) : kind = kind' := by
  revert h
  cases kind <;> cases kind' <;> decide

/-- The first colon behind a display name ends it. -/
theorem TokenKind.name_append_inj
    (h : kind.name.toList ++ ':' :: cs = kind'.name.toList ++ ':' :: ds) :
    kind = kind' ∧ cs = ds := by
  have noColon (kind : TokenKind) : ∀ c ∈ kind.name.toList, (c != ':') = true := by
    have hcolon : ':' ∉ kind.name.toList := by cases kind <;> decide
    intro c hc
    rw [bne_iff_ne]
    rintro rfl
    exact hcolon hc
  obtain ⟨hname, hrest⟩ := append_inj_of_not_leads (p := (· != ':')) (noColon kind) (noColon kind')
    (by simp) (by simp) h
  exact ⟨name_inj (String.toList_inj.mp hname), (List.cons.inj hrest).2⟩

/-! ## Tokens -/

/-- A token is determined by its display form. -/
theorem Token.render_inj (h : t.render = u.render) : t = u := by
  have hchars := congrArg String.toList h
  simp only [render, String.toList_append] at hchars
  -- The end offset is read from the end, and the class from the front of what is left.
  obtain ⟨hfront, hposition⟩ := append_toString_inj (by simp) (by simp)
    (List.append_cancel_right hchars)
  have hname := List.append_cancel_right hfront
  simp only [List.append_assoc] at hname
  obtain ⟨hkind, hquote⟩ := TokenKind.name_append_inj (List.append_cancel_left hname)
  have hlexeme := String.toList_inj.mp (List.append_cancel_left hquote)
  cases t
  cases u
  rw [mk.injEq]
  exact ⟨hkind, hlexeme, hposition⟩

theorem oneLine_toString (n : Nat) : OneLine (toString n) := by
  intro hfeed
  cases isDigit_of_mem_toString n '\n' hfeed

/-- A lexeme on one line leaves its token on one line. -/
theorem Token.oneLine_render (h : OneLine t.lexeme) : OneLine t.render := by
  have hname : OneLine t.kind.name := by cases t.kind <;> decide
  simp only [render, oneLine_append]
  exact ⟨⟨⟨⟨⟨⟨by decide, hname⟩, by decide⟩, h⟩, by decide⟩, oneLine_toString _⟩, by decide⟩

/-! ## Listings -/

/-- Tokens with lexemes on one line are determined by their listing. -/
theorem listing_inj (hts : ∀ t ∈ ts, OneLine t.lexeme) (hus : ∀ u ∈ us, OneLine u.lexeme)
    (h : listing ts = listing us) : ts = us := by
  have hlines (ts : List Token) :
      listing ts = String.join ((ts.map Token.render).map (· ++ "\n")) := by
    rw [listing, List.map_map]
    rfl
  rw [hlines, hlines] at h
  have hrendered := join_lines_inj
    (List.forall_mem_map.mpr fun t ht => Token.oneLine_render (hts t ht))
    (List.forall_mem_map.mpr fun u hu => Token.oneLine_render (hus u hu)) h
  exact (List.map_inj_right fun _ _ => Token.render_inj).mp hrendered

/-- No scanned lexeme holds a line feed, which is a blank. -/
theorem oneLine_of_mem_scan (h : t ∈ scan source) : OneLine t.lexeme := by
  intro hfeed
  cases (placed_of_mem_scan h).solid '\n' hfeed

/-- **Listings are lossless.** Every token is determined by its display form, whatever its lexeme
holds, and tokens whose lexemes hold no line feed are determined by their listing. No scanned lexeme
holds one, so that sources with the same listing have the same tokens. -/
theorem listing_determines_tokens :
    (∀ t u : Token, t.render = u.render → t = u) ∧
    (∀ ts us : List Token, (∀ t ∈ ts, '\n' ∉ t.lexeme.toList) → (∀ u ∈ us, '\n' ∉ u.lexeme.toList) →
      listing ts = listing us → ts = us) ∧
    (∀ source, ∀ t ∈ scan source, '\n' ∉ t.lexeme.toList) ∧
    ∀ source source', listing (scan source) = listing (scan source') → scan source = scan source' :=
  ⟨fun _ _ => Token.render_inj, fun _ _ => listing_inj, fun _ _ => oneLine_of_mem_scan,
    fun _ _ => listing_inj (fun _ => oneLine_of_mem_scan) fun _ => oneLine_of_mem_scan⟩

/-- A quotation mark is an unrecognized character, and it stands unescaped in its entry. The tokens
can still be read off from the listing, and a blank at the end of the source leaves no trace. -/
theorem listing_of_quotation_mark :
    let mark : Token := ⟨.unknown, "'", 2⟩
    let ts : List Token := [⟨.identifier, "b", 1⟩, mark]
    listing ts = "<IDENTIFIER: 'b' @ 1>\n<UNKNOWN: ''' @ 2>\n" ∧
      scan "b' " = ts ∧ scan "b'\n" = scan "b' " ∧
      ∀ t : Token, t.render = "<UNKNOWN: ''' @ 2>" → t = mark := by
  intro mark ts
  have hts : ∀ t ∈ ts, '\n' ∉ t.lexeme.toList := by decide
  obtain ⟨tokens, lists, scanned, sources⟩ := listing_determines_tokens
  exact ⟨by decide +kernel, lists _ ts (scanned "b' ") hts (by decide +kernel),
    sources _ _ (by decide +kernel), fun t ht => tokens t mark (ht.trans (by decide +kernel))⟩

end Pocl
