import Pocl.Proofs.Token.Lexeme

/-!
# Tilings

The tokens of a source lie in it in order, they have the shapes of their classes where they lie,
and only blanks lie between them. There is one such list of tokens, and scanning computes it.

## Main definitions

* `FollowedBy source offset p`: the character at the offset passes the test `p`
* `BlankAt source i`: the byte `i` belongs to a blank
* `Placed source t`: the token `t` lies in the source, with the shape of its class
* `TilesFrom source n ts`: the tokens `ts` and the blanks make up the source from the byte `n` on
* `Tiles source ts`: they make up all of it

## Main results

* `tilesFrom_nil_iff`, `tilesFrom_blank_iff`, `tilesFrom_lexeme_iff`: how a tiling begins
* `scanFrom_eq_iff_tilesFrom`: scanning the rest of a source computes the only tiling of it
* `placed_of_mem_scan`: scanned tokens lie in the source
* `scan_eq_iff_tiles`: scanning a source computes the only tiling of it
-/

namespace Pocl

variable {source part : String} {pre post cs : List Char} {c : Char} {p : Char → Bool} {i n : Nat}
  {t : Token} {ts us : List Token}

/-- The character that stands at the offset passes the test. -/
def FollowedBy (source : String) (offset : Nat) (p : Char → Bool) : Prop :=
  ∃ c, StandsAt source offset (String.singleton c) ∧ p c = true

/-- The byte `i` belongs to a blank. -/
def BlankAt (source : String) (i : Nat) : Prop :=
  ∃ offset c, StandsAt source offset (String.singleton c) ∧ offset ≤ i ∧ i < offset + c.utf8Size ∧
    isBlank c = true

/-- The token lies in the source, without a blank in it and with the shape of its class. -/
structure Placed (source : String) (t : Token) : Prop where
  nonempty : t.lexeme ≠ ""
  bounded : t.lexeme.utf8ByteSize ≤ t.position
  stands : StandsAt source t.start t.lexeme
  solid : ∀ c ∈ t.lexeme.toList, isBlank c = false
  fits : Fits (FollowedBy source t.position) t.lexeme t.kind

/-- The tokens lie in the source in order, from the byte `n` on, and each byte from there on that
belongs to none of them belongs to a blank. -/
structure TilesFrom (source : String) (n : Nat) (ts : List Token) : Prop where
  ordered : ts.Pairwise fun t u => t.position ≤ u.start
  placed : ∀ t ∈ ts, Placed source t
  after : ∀ t ∈ ts, n ≤ t.start
  gaps : ∀ i, n ≤ i → i < source.utf8ByteSize → (∀ t ∈ ts, ¬ (t.start ≤ i ∧ i < t.position)) →
    BlankAt source i

/-- The tokens lie in the source in order, and each byte that belongs to none of them belongs to a
blank. -/
def Tiles (source : String) (ts : List Token) : Prop :=
  TilesFrom source 0 ts

/-- The token that scanning cuts off at the byte `n`. -/
def cutToken (n : Nat) (c : Char) (cs : List Char) : Token :=
  ⟨(cut c cs).kind, String.ofList (cut c cs).text,
    n + (String.ofList (cut c cs).text).utf8ByteSize⟩

theorem cutToken_position (n : Nat) (c : Char) (cs : List Char) :
    (cutToken n c cs).position = n + (cutToken n c cs).lexeme.utf8ByteSize := rfl

/-! ## Places in a split source -/

theorem standsAt_width_iff (h : source.toList = pre ++ cs) :
    StandsAt source (width pre) part ↔ ∃ post, cs = part.toList ++ post := by
  rw [standsAt_iff]
  constructor
  · rintro ⟨before, post, h', hw⟩
    exact ⟨post, (split_of_width_eq (h.symm.trans h') hw.symm).2⟩
  · rintro ⟨post, rfl⟩
    exact ⟨pre, post, h, rfl⟩

theorem followedBy_width_iff (h : source.toList = pre ++ cs) :
    FollowedBy source (width pre) p ↔ Leads cs p := by
  unfold FollowedBy Leads
  simp only [standsAt_width_iff h, String.toList_singleton, List.singleton_append]
  refine exists_congr fun c => and_congr_left fun _ => ?_
  cases cs <;> simp [eq_comm]

/-- A text that stands at the next character or later stands there or after that character. -/
theorem StandsAt.cases (h : source.toList = pre ++ c :: cs) (hs : StandsAt source n part)
    (hn : width pre ≤ n) :
    (n = width pre ∧ ∃ post, c :: cs = part.toList ++ post) ∨ width pre + c.utf8Size ≤ n := by
  obtain ⟨before, after, h', rfl⟩ := standsAt_iff.mp hs
  obtain ⟨es, rfl, hes⟩ := split_of_width_le (h.symm.trans h') hn
  cases es with
  | nil => exact .inl ⟨by simp, after, hes⟩
  | cons d es =>
    obtain ⟨rfl, -⟩ := List.cons.inj hes
    refine .inr ?_
    rw [width_append, width_cons]
    omega

/-- The bytes of a character belong to a blank only if it is one. -/
theorem blankAt_iff (h : source.toList = pre ++ c :: cs) (hi : width pre ≤ i)
    (hi' : i < width pre + c.utf8Size) : BlankAt source i ↔ isBlank c = true := by
  constructor
  · rintro ⟨offset, d, hd, hlo, hhi, hb⟩
    rcases Nat.lt_or_ge offset (width pre) with hlt | hge
    · -- The character at the offset would reach into the next one.
      obtain ⟨before, after, h', rfl⟩ := standsAt_iff.mp hd
      have hc : StandsAt source (width pre) (String.singleton c) :=
        (standsAt_width_iff h).mpr ⟨cs, by simp⟩
      rw [String.toList_singleton, List.singleton_append] at h'
      rcases hc.cases h' (Nat.le_of_lt hlt) with ⟨heq, _⟩ | hle <;> omega
    · rcases hd.cases h hge with ⟨-, post, heq⟩ | hle
      · obtain ⟨rfl, -⟩ := List.cons.inj (by simpa using heq)
        exact hb
      · omega
  · intro hc
    exact ⟨width pre, c, (standsAt_width_iff h).mpr ⟨cs, by simp⟩, hi, hi', hc⟩

theorem placed_iff (h : source.toList = pre ++ (t.lexeme.toList ++ post))
    (ht : t.position = width pre + t.lexeme.utf8ByteSize) :
    Placed source t ↔ t.lexeme ≠ "" ∧ Fits (Leads post) t.lexeme t.kind := by
  have followed : FollowedBy source t.position = Leads post := by
    funext p
    rw [ht, ← width_toList, ← width_append]
    exact propext (followedBy_width_iff (by rw [h, List.append_assoc]))
  constructor
  · intro hp
    exact ⟨hp.nonempty, followed ▸ hp.fits⟩
  · rintro ⟨hne, hf⟩
    have start : t.start = width pre := by
      unfold Token.start
      omega
    exact ⟨hne, ht ▸ Nat.le_add_left _ _, start ▸ (standsAt_width_iff h).mpr ⟨post, rfl⟩,
      hf.not_isBlank, followed ▸ hf⟩

theorem Placed.start_add (h : Placed source t) :
    t.start + t.lexeme.utf8ByteSize = t.position :=
  Nat.sub_add_cancel h.bounded

theorem Placed.start_lt (h : Placed source t) : t.start < t.position := by
  have := Nat.pos_iff_ne_zero.mpr (mt String.utf8ByteSize_eq_zero_iff.mp h.nonempty)
  have := h.start_add
  omega

/-! ## How a tiling begins -/

theorem tilesFrom_nil_iff (h : source.toList = pre) :
    TilesFrom source (width pre) ts ↔ ts = [] := by
  have hsize : source.utf8ByteSize = width pre := by rw [← h, width_toList]
  constructor
  · intro ht
    refine List.eq_nil_iff_forall_not_mem.mpr fun t hmem => ?_
    have hp := ht.placed t hmem
    obtain ⟨before, after, hb, hw⟩ := standsAt_iff.mp hp.stands
    have := congrArg width (h.symm.trans hb)
    simp only [width_append, width_toList] at this
    have := ht.after t hmem
    have := hp.start_lt
    have := hp.start_add
    omega
  · rintro rfl
    exact ⟨.nil, by simp, by simp, fun i hi hi' => by omega⟩

theorem tilesFrom_blank_iff (h : source.toList = pre ++ c :: cs) (hc : isBlank c = true) :
    TilesFrom source (width pre) ts ↔ TilesFrom source (width pre + c.utf8Size) ts := by
  constructor
  · intro ht
    refine ⟨ht.ordered, ht.placed, fun t hmem => ?_, fun i hi => ht.gaps i (by omega)⟩
    have hp := ht.placed t hmem
    rcases hp.stands.cases h (ht.after t hmem) with ⟨-, post, heq⟩ | hle
    · -- No token begins with the blank.
      rcases List.cons_eq_append_iff.mp heq with ⟨hnil, _⟩ | ⟨ds, hds, _⟩
      · exact absurd (String.toList_eq_nil_iff.mp hnil) hp.nonempty
      · have := hp.solid c (hds ▸ List.mem_cons_self)
        rw [hc] at this
        cases this
    · exact hle
  · intro ht
    refine ⟨ht.ordered, ht.placed, fun t hmem => ?_, fun i hi hi' hout => ?_⟩
    · have := ht.after t hmem
      omega
    · -- A byte outside the tokens is one of the blank or lies after it.
      rcases Nat.lt_or_ge i (width pre + c.utf8Size) with hlt | hge
      · exact (blankAt_iff h hi hlt).mpr hc
      · exact ht.gaps i hge hi' hout

/-- A token and the tiling after it make a tiling. -/
theorem tilesFrom_cons_iff (ht : t.position = n + t.lexeme.utf8ByteSize) (hp : Placed source t) :
    TilesFrom source n (t :: us) ↔ TilesFrom source t.position us := by
  have start : t.start = n := by
    unfold Token.start
    omega
  constructor
  · intro htiles
    obtain ⟨hfirst, hrest⟩ := List.pairwise_cons.mp htiles.ordered
    refine ⟨hrest, fun u hu => htiles.placed u (.tail _ hu), hfirst, fun i hi hi' hout => ?_⟩
    refine htiles.gaps i (by omega) hi' (List.forall_mem_cons.mpr ⟨by omega, hout⟩)
  · intro htiles
    refine ⟨List.pairwise_cons.mpr ⟨htiles.after, htiles.ordered⟩,
      List.forall_mem_cons.mpr ⟨hp, htiles.placed⟩,
      List.forall_mem_cons.mpr ⟨Nat.le_of_eq start.symm, fun u hu => ?_⟩, fun i hi hi' hout => ?_⟩
    · have := htiles.after u hu
      omega
    · obtain ⟨hfirst, hrest⟩ := List.forall_mem_cons.mp hout
      exact htiles.gaps i (by omega) hi' hrest

/-- A tiling of a text that begins with no blank begins with a token there. -/
theorem TilesFrom.exists_cons (h : source.toList = pre ++ c :: cs) (hc : isBlank c = false)
    (ht : TilesFrom source (width pre) ts) :
    ∃ t us post, ts = t :: us ∧ t.position = width pre + t.lexeme.utf8ByteSize ∧
      c :: cs = t.lexeme.toList ++ post := by
  have hlt : width pre < source.utf8ByteSize := by
    rw [← width_toList, h, width_append]
    exact Nat.lt_add_of_pos_right (width_pos (List.cons_ne_nil c cs))
  have hsize := c.utf8Size_pos
  have notBlank : ¬ BlankAt source (width pre) := by
    rw [blankAt_iff h (Nat.le_refl _) (by omega), hc]
    exact Bool.false_ne_true
  cases ts with
  | nil => exact absurd (ht.gaps _ (Nat.le_refl _) hlt (by simp)) notBlank
  | cons t us =>
    have hp := ht.placed t (.head _)
    rcases hp.stands.cases h (ht.after t (.head _)) with ⟨hstart, post, heq⟩ | hle
    · exact ⟨t, us, post, rfl, by rw [← hstart, hp.start_add], heq⟩
    · -- The first byte would belong to no token.
      have out : ∀ u ∈ t :: us, ¬ (u.start ≤ width pre ∧ width pre < u.position) := by
        intro u hu hin
        rcases List.mem_cons.mp hu with rfl | hu
        · omega
        · have := (List.pairwise_cons.mp ht.ordered).1 u hu
          have := hp.start_lt
          omega
      exact absurd (ht.gaps _ (Nat.le_refl _) hlt out) notBlank

/-- The token that scanning cuts off lies in the source. -/
theorem placed_cutToken (h : source.toList = pre ++ c :: cs) (hc : isBlank c = false) :
    Placed source (cutToken (width pre) c cs) := by
  have hsplit : source.toList =
      pre ++ ((cutToken (width pre) c cs).lexeme.toList ++ (cut c cs).rest) := by
    rw [cutToken, String.toList_ofList, text_append_rest_cut, h]
  refine (placed_iff hsplit rfl).mpr ⟨?_, fits_cut hc⟩
  intro hnil
  have := congrArg String.toList hnil
  rw [cutToken, String.toList_ofList] at this
  exact text_cut_ne_nil this

/-- Where the text begins with no blank, a tiling begins with the token that scanning cuts off. -/
theorem tilesFrom_lexeme_iff (h : source.toList = pre ++ c :: cs) (hc : isBlank c = false) :
    TilesFrom source (width pre) ts ↔ ∃ us, ts = cutToken (width pre) c cs :: us ∧
      TilesFrom source (cutToken (width pre) c cs).position us := by
  constructor
  · intro ht
    -- The first token begins where the scan stands, and its shape makes it the one cut off.
    obtain ⟨t, us, post, rfl, hpos, heq⟩ := ht.exists_cons h hc
    have hp := ht.placed t (.head _)
    have hfits := (placed_iff (h.trans (congrArg (pre ++ ·) heq)) hpos).mp hp
    have hcut : cutToken (width pre) c cs = t := by
      rw [cutToken, cut_eq_of_fits hfits.1 hfits.2 heq, String.ofList_toList, ← hpos]
    exact ⟨us, by rw [hcut], hcut ▸ (tilesFrom_cons_iff hpos hp).mp ht⟩
  · rintro ⟨us, rfl, hus⟩
    exact (tilesFrom_cons_iff (cutToken_position _ _ _) (placed_cutToken h hc)).mpr hus

/-! ## Scanning -/

theorem scanFrom_blank (hc : isBlank c = true) :
    scanFrom n (c :: cs) = scanFrom (n + c.utf8Size) cs := by
  rw [scanFrom, if_pos hc]

theorem scanFrom_lexeme (hc : isBlank c = false) :
    scanFrom n (c :: cs) =
      cutToken n c cs :: scanFrom (cutToken n c cs).position (cut c cs).rest := by
  rw [scanFrom, if_neg (Bool.eq_false_iff.mp hc)]
  rfl

/-- Scanning the rest of a source computes the only tiling of it. -/
theorem scanFrom_eq_iff_tilesFrom (h : source.toList = pre ++ cs) (hn : width pre = n) :
    scanFrom n cs = ts ↔ TilesFrom source n ts := by
  -- Along the scan, the text before it takes `n` bytes.
  fun_induction scanFrom n cs generalizing pre ts with
  | case1 n =>
    subst hn
    rw [tilesFrom_nil_iff (h.trans (List.append_nil _)), eq_comm]
  | case2 n c cs hc ih =>
    subst hn
    rw [tilesFrom_blank_iff h hc]
    exact ih (h.trans (List.append_cons pre c cs)) (by simp)
  | case3 n c cs hb lexeme =>
    rename_i stop ih
    subst hn
    have hc : isBlank c = false := Bool.eq_false_iff.mpr hb
    have hrest : source.toList = (pre ++ (cut c cs).text) ++ (cut c cs).rest := by
      rw [h, List.append_assoc, text_append_rest_cut]
    have hstop : width (pre ++ (cut c cs).text) = stop := by
      rw [width_append, ← utf8ByteSize_ofList (cut c cs).text]
    rw [tilesFrom_lexeme_iff h hc]
    constructor
    · rintro rfl
      exact ⟨_, rfl, (ih hrest hstop).mp rfl⟩
    · rintro ⟨us, rfl, hus⟩
      exact congrArg _ ((ih hrest hstop).mpr hus)

/-- A scanned token lies in the source, with the shape of its class. -/
theorem placed_of_mem_scan (h : t ∈ scan source) : Placed source t :=
  ((scanFrom_eq_iff_tilesFrom (List.nil_append _).symm width_nil).mp rfl).placed t h

/-- Scanning a source computes the only tiling of it. -/
theorem scan_eq_iff_tiles (source : String) (ts : List Token) :
    scan source = ts ↔ Tiles source ts :=
  scanFrom_eq_iff_tilesFrom (List.nil_append _).symm width_nil

end Pocl
