import Mathlib.Data.List.Forall2
import Pocl.Proofs.Grammar.Acceptance
import Pocl.Proofs.Text

/-!
# Diagnostics point at what they are about

A scanned token stands in its source from its first byte on, and no lexeme holds a line feed. So
the location of that byte points at the lexeme. An error names a token of the list that was
parsed, and there is a warning for each doubtful token. Both are about scanned tokens, and so their
locations point at the text they talk about.

Each character of a text leads to a later place: one on the next line, or one further to the right
on the same line. So of two offsets into a source the smaller one has the earlier location, and
tokens, of which no two begin at the same offset, are told apart by theirs. A warning states the
location and the lexeme of its token, which can both be read off from its text, and so there is one
warning at most at every location.

## Main definitions

* `Token.isDoubtful t`: the token is of a class that scanning warns about
* `WarnsAt w place t`: the text `w` warns of the token `t` at the place
* `WarnsOf source w t`: the text `w` warns of the token `t` at a place of its lexeme
* `p < q`: the location `p` comes before `q`, by their lines and on one line by their columns

## Main results

* `exists_pointsAt_of_mem_scan`: the first byte of a scanned token locates its lexeme
* `found_mem_of_parse_error`: an error reports a token of the list
* `printed_locations_point_at_lexemes`: the locations in diagnostics and warnings are right
* `Location.lt_of_ofOffset?`: the smaller offset has the earlier location
* `WarnsAt.inj`: the text of a warning determines its place, and the class and lexeme of its token
* `locations_order_and_separate`: warnings come in the order of their locations, and a diagnostic of
  a doubtful token shares its location with one of them
-/

namespace Pocl

variable {source w : String} {cs ds : List Char} {m n i j : Nat} {t : Token} {ts : List Token}
  {e : ParseError} {ws : List String} {places : List Location}

/-! ## Scanned tokens -/

/-- The first byte of a scanned token locates its lexeme. -/
theorem exists_pointsAt_of_mem_scan (h : t ∈ scan source) :
    ∃ place : Location, Location.ofOffset? source t.start = some place ∧
      place.PointsAt source t.lexeme := by
  have placed := placed_of_mem_scan h
  refine exists_pointsAt_of_standsAt placed.stands fun hfeed => ?_
  -- A line feed is a blank, and no lexeme holds one.
  cases placed.solid '\n' hfeed

/-- A scanned token begins between two characters. -/
theorem isValid_start_of_mem_scan (h : t ∈ scan source) :
    String.Pos.Raw.IsValid source ⟨t.start⟩ := by
  obtain ⟨before, after, hsource, hstart⟩ := (placed_of_mem_scan h).stands
  refine String.Pos.Raw.isValid_iff_exists_append.mpr ⟨before, t.lexeme ++ after, ?_, ?_⟩
  · rw [hsource, String.append_assoc]
  · rw [String.rawEndPos, hstart]

/-! ## Parse errors -/

/-- An error reports a token of the list. -/
theorem found_mem_of_parse_error (h : parse ts = .error e) (ht : e.found = some t) : t ∈ ts := by
  obtain ⟨used, rest, rfl, hfound, -⟩ := exists_split_of_parse_error h
  exact List.mem_append_right used (List.mem_of_head? (hfound.symm.trans ht))

theorem diagnostic?_of_found {place : Location} (ht : e.found = some t)
    (hplace : Location.ofOffset? source t.start = some place) :
    e.diagnostic? source = some ("error at line " ++ toString place.line ++ ", col " ++
      toString place.column ++ ": " ++ e.message) := by
  simp only [ParseError.diagnostic?, ht, hplace, Option.bind_eq_bind, Option.bind_some]

/-! ## Warnings -/

/-- The token is of a class that scanning warns about. -/
def Token.isDoubtful (t : Token) : Bool :=
  t.kind = .unknown || t.kind = .error

theorem Token.isDoubtful_eq_isSome (t : Token) : t.isDoubtful = t.kind.complaint?.isSome := by
  unfold isDoubtful
  cases t.kind <;> rfl

/-- The text `w` warns of the token at the place, in the words for its class. -/
def WarnsAt (w : String) (place : Location) (t : Token) : Prop :=
  ∃ complaint, (t.kind, complaint) ∈ [(TokenKind.unknown, "unrecognized character"),
      (.error, "malformed range operator")] ∧
    w = "warning at line " ++ toString place.line ++ ", col " ++ toString place.column ++ ": " ++
      complaint ++ " '" ++ t.lexeme ++ "'"

/-- The text warns of the token at a place where its lexeme stands. -/
def WarnsOf (source w : String) (t : Token) : Prop :=
  ∃ place, Location.PointsAt place source t.lexeme ∧ WarnsAt w place t

theorem warnsAt_warning {complaint : String} (h : t.kind.complaint? = some complaint)
    (place : Location) : WarnsAt (warning place complaint t) place t := by
  refine ⟨complaint, ?_, rfl⟩
  cases hkind : t.kind <;> simp_all [TokenKind.complaint?]

/-- There is a warning for each doubtful token, in order, where the tokens have locations, whatever
is known of those. -/
theorem exists_warnings {known : Token → Location → Prop} (h : ∀ t ∈ ts, ∃ place : Location,
      Location.ofOffset? source t.start = some place ∧ known t place) :
    ∃ ws, warnings? source ts = some ws ∧
      List.Forall₂ (fun w t => ∃ place, known t place ∧ WarnsAt w place t) ws
        (ts.filter Token.isDoubtful) := by
  induction ts with
  | nil => exact ⟨[], rfl, .nil⟩
  | cons t ts ih =>
    obtain ⟨⟨place, hplace, hknown⟩, hts⟩ := List.forall_mem_cons.mp h
    obtain ⟨ws, hws, hwarns⟩ := ih hts
    rw [List.filter_cons, Token.isDoubtful_eq_isSome, warnings?]
    cases hc : t.kind.complaint? with
    | none => exact ⟨ws, hws, hwarns⟩
    | some complaint =>
      refine ⟨warning place complaint t :: ws, ?_, .cons ⟨place, hknown, warnsAt_warning hc place⟩
        hwarns⟩
      simp [hplace, hws]

/-- There is a warning for each doubtful token of a source. -/
theorem exists_warnings_scan (source : String) :
    ∃ ws, warnings? source (scan source) = some ws ∧
      List.Forall₂ (WarnsOf source) ws ((scan source).filter Token.isDoubtful) :=
  exists_warnings fun _ => exists_pointsAt_of_mem_scan

/-! ## Both -/

/-- **Printed locations point at the text they talk about.** The token that a parse error reports
is one of the source, and the diagnostic gives a line and a column at which its lexeme stands. There
is one warning for each token that is unknown or an error, in order, and it gives a line and a
column at which the lexeme of that token stands. -/
theorem printed_locations_point_at_lexemes (source : String) :
    (∀ e t, parseSource source = .error e → e.found = some t →
      t ∈ scan source ∧ ∃ place : Location, place.PointsAt source t.lexeme ∧
        e.diagnostic? source = some ("error at line " ++ toString place.line ++ ", col " ++
          toString place.column ++ ": " ++ e.message)) ∧
    ∃ ws, warnings? source (scan source) = some ws ∧
      List.Forall₂ (WarnsOf source) ws ((scan source).filter Token.isDoubtful) := by
  refine ⟨fun e t h ht => ?_, exists_warnings_scan source⟩
  have hmem := found_mem_of_parse_error h ht
  obtain ⟨place, hplace, points⟩ := exists_pointsAt_of_mem_scan hmem
  exact ⟨hmem, place, points, diagnostic?_of_found ht hplace⟩

/-- A source with characters of two bytes, which stops parsing on its second line. -/
theorem location_of_stray_sign :
    let source := "é = 1\nü = ¬"
    let sign : Token := ⟨.unknown, "¬", 14⟩
    let e : ParseError := .unexpected (some sign)
    parseSource source = .error e ∧
      e.diagnostic? source =
        some "error at line 2, col 5: unexpected token <UNKNOWN: '¬' @ 14>" ∧
      warnings? source (scan source) =
        some ["warning at line 2, col 5: unrecognized character '¬'"] ∧
      (sign ∈ scan source ∧ ∃ place : Location, place.PointsAt source sign.lexeme ∧
        e.diagnostic? source = some ("error at line " ++ toString place.line ++ ", col " ++
          toString place.column ++ ": " ++ e.message)) ∧
      ∃ w, warnings? source (scan source) = some [w] ∧ WarnsOf source w sign := by
  intro source sign e
  have hscan : scan source = [⟨.identifier, "é", 2⟩, ⟨.operator, "=", 4⟩, ⟨.literal, "1", 6⟩,
      ⟨.identifier, "ü", 9⟩, ⟨.operator, "=", 11⟩, sign] := by decide +kernel
  have h : parseSource source = .error e := by
    rw [parseSource, hscan]
    cbv
  obtain ⟨diagnostics, ws, hws, hwarns⟩ := printed_locations_point_at_lexemes source
  rw [hscan] at hwarns
  obtain ⟨w, rest, hw, hrest, rfl⟩ := List.forall₂_cons_right_iff.mp hwarns
  obtain rfl := List.forall₂_nil_right_iff.mp hrest
  exact ⟨h, by decide +kernel, by decide +kernel, diagnostics e sign h rfl, w, hws, hw⟩

namespace Location

variable {p q r : Location}

/-! ## The order of locations -/

/-- Locations are ordered by their lines, and on one line by their columns. -/
instance : LT Location where
  lt p q := p.line < q.line ∨ p.line = q.line ∧ p.column < q.column

theorem lt_iff : p < q ↔ p.line < q.line ∨ p.line = q.line ∧ p.column < q.column :=
  Iff.rfl

theorem ne_of_lt (h : p < q) : p ≠ q := by
  rintro rfl
  simp [lt_iff] at h

theorem lt_trans (hpq : p < q) (hqr : q < r) : p < r := by
  rw [lt_iff] at *
  omega

/-! ## The order of offsets -/

theorem lt_step (p : Location) (c : Char) : p < p.step c := by
  rw [lt_iff, step]
  split
  · exact .inl (Nat.lt_succ_self _)
  · exact .inr ⟨rfl, Nat.lt_succ_self _⟩

/-- A walk through a character or more leads to a later place. -/
theorem lt_foldl_step (p : Location) (h : cs ≠ []) : p < cs.foldl step p := by
  induction cs generalizing p with
  | nil => exact absurd rfl h
  | cons c cs ih =>
    rw [List.foldl_cons]
    by_cases hcs : cs = []
    · subst hcs
      exact lt_step p c
    · exact lt_trans (lt_step p c) (ih _ hcs)

/-- The smaller of two offsets into a source has the earlier location. -/
theorem lt_of_ofOffset? (hp : ofOffset? source m = some p) (hq : ofOffset? source n = some q)
    (hmn : m < n) (hn : n ≤ source.utf8ByteSize) : p < q := by
  obtain ⟨as, has, rfl⟩ := Option.map_eq_some_iff.mp hp
  obtain ⟨bs, hbs, rfl⟩ := Option.map_eq_some_iff.mp hq
  obtain ⟨⟨post, hsource⟩, hwidth⟩ := charactersBefore?_eq_some_iff.mp has
  obtain ⟨⟨post', hsource'⟩, hwidth'⟩ := charactersBefore?_eq_some_iff.mp hbs
  rw [width_toList] at hwidth hwidth'
  -- The text before the larger offset goes on after the text before the smaller one.
  obtain ⟨es, rfl, -⟩ := split_of_width_le (hsource.symm.trans hsource') (by omega)
  rw [width_append] at hwidth'
  have hes : es ≠ [] := by
    rintro rfl
    rw [width_nil] at hwidth'
    omega
  rw [after_eq_walk, after_eq_walk, walk, walk, List.foldl_append]
  exact lt_foldl_step _ hes

theorem exists_ofOffset?_of_isValid (h : String.Pos.Raw.IsValid source ⟨n⟩) :
    n ≤ source.utf8ByteSize ∧ ∃ place, ofOffset? source n = some place := by
  obtain ⟨before, after, rfl, hsize⟩ := String.Pos.Raw.isValid_iff_exists_append.mp h
  obtain rfl : n = before.utf8ByteSize := congrArg String.Pos.Raw.byteIdx hsize
  have hle : before.utf8ByteSize ≤ (before ++ after).utf8ByteSize := by
    rw [String.utf8ByteSize_append]
    exact Nat.le_add_right _ _
  exact ⟨hle, _, ofOffset?_append (Nat.min_eq_left hle).symm⟩

/-! ## Locations in a text -/

/-- A line and a column are determined by their text, where no digit follows it. -/
theorem text_append_inj (hcs : ¬ Leads cs Char.isDigit) (hds : ¬ Leads ds Char.isDigit)
    (h : (toString p.line).toList ++ (", col ".toList ++ ((toString p.column).toList ++ cs)) =
      (toString q.line).toList ++ (", col ".toList ++ ((toString q.column).toList ++ ds))) :
    p = q ∧ cs = ds := by
  obtain ⟨hline, hrest⟩ := toString_append_inj (by simp) (by simp) h
  obtain ⟨hcolumn, htail⟩ := toString_append_inj hcs hds (List.append_cancel_left hrest)
  cases p
  cases q
  rw [mk.injEq]
  exact ⟨⟨hline, hcolumn⟩, htail⟩

end Location

/-! ## Warnings one after the other -/

/-- The text of a warning determines its place, and the class and the lexeme of its token. -/
theorem WarnsAt.inj {p q : Location} {u : Token} (ht : WarnsAt w p t) (hu : WarnsAt w q u) :
    p = q ∧ t.kind = u.kind ∧ t.lexeme = u.lexeme := by
  obtain ⟨complaint, hcomplaint, rfl⟩ := ht
  obtain ⟨complaint', hcomplaint', heq⟩ := hu
  have hchars := congrArg String.toList heq
  simp only [String.toList_append, List.append_assoc] at hchars
  obtain ⟨hplace, hrest⟩ := Location.text_append_inj (by simp) (by simp)
    (List.append_cancel_left hchars)
  have hwords := List.append_cancel_left hrest
  have hsame : complaint = complaint' ∧ t.kind = u.kind := by
    simp only [List.mem_cons, Prod.mk.injEq, List.not_mem_nil, or_false] at hcomplaint hcomplaint'
    rcases hcomplaint with ⟨hkind, rfl⟩ | ⟨hkind, rfl⟩ <;>
      rcases hcomplaint' with ⟨hkind', rfl⟩ | ⟨hkind', rfl⟩
    · exact ⟨rfl, hkind.trans hkind'.symm⟩
    · simp at hwords
    · simp at hwords
    · exact ⟨rfl, hkind.trans hkind'.symm⟩
  obtain ⟨rfl, hkind⟩ := hsame
  have hquoted := List.append_cancel_left (List.append_cancel_left hwords)
  exact ⟨hplace, hkind, String.toList_inj.mp (List.append_cancel_right hquoted)⟩

/-- The text `w` warns of the token at the location of its first byte. -/
def WarnsAtStart (source w : String) (t : Token) : Prop :=
  ∃ place, Location.ofOffset? source t.start = some place ∧ WarnsAt w place t

theorem exists_warnings_at_start (source : String) :
    ∃ ws, warnings? source (scan source) = some ws ∧
      List.Forall₂ (WarnsAtStart source) ws ((scan source).filter Token.isDoubtful) := by
  refine exists_warnings fun t ht => ?_
  obtain ⟨place, hplace, -⟩ := exists_pointsAt_of_mem_scan ht
  exact ⟨place, hplace, hplace⟩

/-- Each scanned token begins after those before it. -/
theorem pairwise_start_scan (source : String) :
    (scan source).Pairwise fun t u => t.start < u.start := by
  have tiles := (scanFrom_eq_iff_tilesFrom (List.nil_append source.toList).symm width_nil).mp rfl
  exact tiles.ordered.imp_of_mem fun ht _ hle => Nat.lt_of_lt_of_le (tiles.placed _ ht).start_lt hle

/-- Warnings of tokens that begin one after the other have locations one after the other. -/
theorem exists_places (h : List.Forall₂ (WarnsAtStart source) ws ts)
    (hstarts : ts.Pairwise fun t u => t.start < u.start)
    (hend : ∀ t ∈ ts, t.start ≤ source.utf8ByteSize) :
    ∃ places, List.Forall₂ (fun w place => ∃ t, WarnsAt w place t) ws places ∧
      places.Pairwise (· < ·) := by
  refine ⟨ts.filterMap fun t => Location.ofOffset? source t.start, ?_, ?_⟩
  · clear hstarts hend
    induction h with
    | nil => exact .nil
    | cons hw _ ih =>
      obtain ⟨place, hplace, hw⟩ := hw
      rw [List.filterMap_cons, hplace]
      exact .cons ⟨_, hw⟩ ih
  · rw [List.pairwise_filterMap]
    exact hstarts.imp_of_mem fun _ hu hlt p hp q hq =>
      Location.lt_of_ofOffset? hp hq hlt (hend _ hu)

/-- No two warnings share a location, where the locations come one after the other. -/
theorem index_eq_of_warnsAt {w' : String} {u : Token} {place : Location}
    (h : List.Forall₂ (fun w place => ∃ t, WarnsAt w place t) ws places)
    (hplaces : places.Pairwise (· < ·)) (hi : ws[i]? = some w) (hj : ws[j]? = some w')
    (hw : WarnsAt w place t) (hw' : WarnsAt w' place u) : i = j := by
  have placed {k : Nat} {w : String} {t : Token} (hk : ws[k]? = some w) (hw : WarnsAt w place t) :
      places[k]? = some place := by
    obtain ⟨hlt, rfl⟩ := List.getElem?_eq_some_iff.mp hk
    obtain ⟨u, hu⟩ := h.get hlt (h.length_eq ▸ hlt)
    exact List.getElem?_eq_some_iff.mpr ⟨h.length_eq ▸ hlt, (hu.inj hw).1⟩
  have hnodup : places.Nodup := hplaces.imp Location.ne_of_lt
  have hlt := (List.getElem?_eq_some_iff.mp (placed hi hw)).1
  exact (List.getElem?_inj hlt hnodup).mp ((placed hi hw).trans (placed hj hw').symm)

/-- **Locations are ordered as their offsets, and separate what they locate.** Of two offsets
between characters of a source, the smaller one has the earlier location. The locations of the
warnings about a source come one after the other, so that no two warnings share one. Where parsing
stops at a token that is unknown or an error, exactly one of the warnings has the location of the
diagnostic, and it names the lexeme of that token. -/
theorem locations_order_and_separate (source : String) :
    (∀ m n, String.Pos.Raw.IsValid source ⟨m⟩ → String.Pos.Raw.IsValid source ⟨n⟩ → m < n →
      ∃ p q, Location.ofOffset? source m = some p ∧ Location.ofOffset? source n = some q ∧
        p < q) ∧
    ∃ ws, warnings? source (scan source) = some ws ∧
      (∃ places, List.Forall₂ (fun w place => ∃ t, WarnsAt w place t) ws places ∧
        places.Pairwise (· < ·)) ∧
      (∀ (i j : Nat) w w' place t u, ws[i]? = some w → ws[j]? = some w' →
        WarnsAt w place t → WarnsAt w' place u → i = j) ∧
      ∀ e t, parseSource source = .error e → e.found = some t → t.isDoubtful = true →
        ∃ place : Location,
          e.diagnostic? source = some ("error at line " ++ toString place.line ++ ", col " ++
            toString place.column ++ ": " ++ e.message) ∧
          (∃! i : Nat, ∃ w, ws[i]? = some w ∧ WarnsAt w place t) ∧
          ∀ w ∈ ws, ∀ u, WarnsAt w place u → u.lexeme = t.lexeme := by
  constructor
  · intro m n hm hn hmn
    obtain ⟨-, p, hp⟩ := Location.exists_ofOffset?_of_isValid hm
    obtain ⟨hend, q, hq⟩ := Location.exists_ofOffset?_of_isValid hn
    exact ⟨p, q, hp, hq, Location.lt_of_ofOffset? hp hq hmn hend⟩
  obtain ⟨ws, hws, hwarns⟩ := exists_warnings_at_start source
  obtain ⟨places, hat, hplaces⟩ := exists_places hwarns ((pairwise_start_scan source).filter _)
    fun t ht => (Location.exists_ofOffset?_of_isValid
      (isValid_start_of_mem_scan (List.mem_of_mem_filter ht))).1
  have separate (i j : Nat) w w' place t u (hi : ws[i]? = some w) (hj : ws[j]? = some w')
      (hw : WarnsAt w place t) (hw' : WarnsAt w' place u) : i = j :=
    index_eq_of_warnsAt hat hplaces hi hj hw hw'
  refine ⟨ws, hws, ⟨places, hat, hplaces⟩, separate, fun e t he ht hdoubtful => ?_⟩
  have hmem := List.mem_filter.mpr ⟨found_mem_of_parse_error he ht, hdoubtful⟩
  obtain ⟨i, hi, rfl⟩ := List.getElem_of_mem hmem
  have hlt : i < ws.length := hwarns.length_eq ▸ hi
  have hi' := List.getElem?_eq_getElem hlt
  obtain ⟨place, hplace, hw⟩ := hwarns.get hlt hi
  refine ⟨place, diagnostic?_of_found ht hplace, ⟨i, ⟨_, hi', hw⟩, ?_⟩, fun w hmem u hu => ?_⟩
  · rintro j ⟨w, hj, hw'⟩
    exact separate j i _ _ _ _ _ hj hi' hw' hw
  · obtain ⟨j, hj⟩ := List.getElem?_of_mem hmem
    obtain rfl := separate j i _ _ _ _ _ hj hi' hu hw
    obtain rfl := Option.some.inj (hj.symm.trans hi')
    exact (hu.inj hw).2.2

/-- The first line is warned about twice and the second one once, where parsing stops. -/
theorem locations_of_three_warnings :
    let source := "f(a, b, c)\nx = ."
    let dot : Token := ⟨.error, ".", 16⟩
    let e : ParseError := .unexpected (some dot)
    parseSource source = .error e ∧
      (∃ p q, Location.ofOffset? source 10 = some p ∧ Location.ofOffset? source 11 = some q ∧
        p < q) ∧
      ∃ ws, warnings? source (scan source) = some ws ∧
        ws = ["warning at line 1, col 4: unrecognized character ','",
          "warning at line 1, col 7: unrecognized character ','",
          "warning at line 2, col 5: malformed range operator '.'"] ∧
        (∃ places, List.Forall₂ (fun w place => ∃ t, WarnsAt w place t) ws places ∧
          places.Pairwise (· < ·)) ∧
        ∃ place : Location,
          e.diagnostic? source = some ("error at line " ++ toString place.line ++ ", col " ++
            toString place.column ++ ": " ++ e.message) ∧
          (∃! i : Nat, ∃ w, ws[i]? = some w ∧ WarnsAt w place dot) ∧
          ∀ w ∈ ws, ∀ u, WarnsAt w place u → u.lexeme = "." := by
  intro source dot e
  have hscan : scan source = [⟨.identifier, "f", 1⟩, ⟨.paren, "(", 2⟩, ⟨.identifier, "a", 3⟩,
      ⟨.unknown, ",", 4⟩, ⟨.identifier, "b", 6⟩, ⟨.unknown, ",", 7⟩, ⟨.identifier, "c", 9⟩,
      ⟨.paren, ")", 10⟩, ⟨.identifier, "x", 12⟩, ⟨.operator, "=", 14⟩, dot] := by decide +kernel
  have h : parseSource source = .error e := by
    rw [parseSource, hscan]
    cbv
  obtain ⟨offsets, ws, hws, places, -, diagnostics⟩ := locations_order_and_separate source
  refine ⟨h, offsets 10 11 (by decide +kernel) (by decide +kernel) (by decide), ws, hws,
    Option.some.inj (hws.symm.trans ?_), places, diagnostics e dot h rfl rfl⟩
  decide +kernel

end Pocl
