import Mathlib.Data.List.Basic
import Mathlib.Data.List.Induction
import Pocl.Proofs.Token.Tiling
import Pocl.Slice

/-!
# What a location points at

A location names a line by its number and a character of that line by its column. The location of
the byte from which a text stands in a source names the first character of that text, provided the
text lies on one line.

Where a source is split into a text before, a part and a text after it, the slice from the end of
the first to the beginning of the last is the part, and no other slice exists. So a location can be
read from slices exactly where the offset stands between characters.

A line feed leads to the first column of the next line, and every other character to the next
column. The location of an offset is the place where a walk through the characters before it ends,
if it begins at the first column of the first line. So it does not matter that a location is read
off from the whole text before the offset: from the line feeds in it, and from its last line.

## Main definitions

* `lines source`: the lines of a source, without the line feeds between them
* `Location.PointsAt place source text`: the text stands at the place
* `Location.step place c`: the place after the character `c` at a place
* `Location.walk cs`: the place after the characters `cs`, one by one

## Main results

* `charactersBefore?_eq_some_iff`: the characters before an offset are a first part of that width
* `exists_pointsAt_of_standsAt`: a text on one line is located by the byte it stands from
* `slice?_eq_some_iff`: a slice is the text that stands between its offsets
* `Location.ofSlices?_eq_ofOffset?`: reading a location from slices fails only inside a character
* `Location.after_eq_walk`: the place after a text is where a walk through it ends
* `location_eq_walk`: offsets are located by walking
-/

namespace Pocl

variable {source part : String} {as bs cs pre post text : List Char} {c : Char}
  {n start stop offset : Nat}

/-! ## The characters before an offset -/

/-- The characters before an offset are the first part that takes as many bytes, and all of them
where there are fewer. -/
theorem charactersBefore?_eq_some_iff : charactersBefore? n cs = some pre ↔
    (∃ post, cs = pre ++ post) ∧ width pre = min n (width cs) := by
  fun_induction charactersBefore? n cs generalizing pre with
  | case1 n =>
    rw [width_nil, Nat.min_zero, width_eq_zero_iff, Option.some.injEq, eq_comm]
    exact ⟨fun h => ⟨⟨[], by rw [h, List.nil_append]⟩, h⟩, And.right⟩
  | case2 c cs =>
    rw [Nat.zero_min, width_eq_zero_iff, Option.some.injEq, eq_comm]
    exact ⟨fun h => ⟨⟨c :: cs, by rw [h, List.nil_append]⟩, h⟩, And.right⟩
  | case3 offset c cs hc ih =>
    have hpos := c.utf8Size_pos
    cases pre with
    | nil =>
      simp only [Option.map_eq_some_iff, reduceCtorEq, and_false, exists_false, width_nil,
        width_cons, false_iff]
      omega
    | cons d pre =>
      simp only [Option.map_eq_some_iff, List.cons.injEq, List.cons_append, width_cons]
      constructor
      · rintro ⟨ds, h, rfl, rfl⟩
        obtain ⟨⟨post, rfl⟩, hw⟩ := ih.mp h
        exact ⟨⟨post, rfl, rfl⟩, by omega⟩
      · rintro ⟨⟨post, rfl, rfl⟩, hw⟩
        exact ⟨pre, ih.mpr ⟨⟨post, rfl⟩, by omega⟩, rfl, rfl⟩
  | case4 offset c cs hc =>
    cases pre with
    | nil =>
      simp only [reduceCtorEq, width_nil, width_cons, false_iff]
      omega
    | cons d pre =>
      simp only [reduceCtorEq, List.cons_append, List.cons.injEq, width_cons, false_iff]
      rintro ⟨⟨post, rfl, -⟩, hw⟩
      omega

theorem Location.ofOffset?_of_split (h : source.toList = pre ++ post)
    (hw : width pre = min offset (width source.toList)) :
    ofOffset? source offset = some (after pre) := by
  rw [ofOffset?, charactersBefore?_eq_some_iff.mpr ⟨⟨post, h⟩, hw⟩, Option.map_some]

theorem Location.ofOffset?_width (h : source.toList = pre ++ post) :
    ofOffset? source (width pre) = some (after pre) := by
  refine ofOffset?_of_split h ?_
  rw [h, width_append]
  omega

/-! ## Lines -/

/-- The lines of a source, without the line feeds between them. -/
def lines (source : String) : List (List Char) :=
  source.toList.splitOn '\n'

theorem length_splitOn_lineFeed (cs : List Char) :
    (cs.splitOn '\n').length = cs.count '\n' + 1 := by
  induction cs with
  | nil => rfl
  | cons c cs ih =>
    rw [List.splitOn_cons_eq_if_modifyHead, List.count_cons]
    split <;> simp [ih]

/-- What precedes the first line feed goes to the first line. -/
theorem splitOn_append_of_notMem (h : '\n' ∉ bs) :
    (bs ++ cs).splitOn '\n' = (cs.splitOn '\n').modifyHead (bs ++ ·) := by
  induction bs with
  | nil =>
    rw [List.nil_append]
    cases cs.splitOn '\n' <;> rfl
  | cons c bs ih =>
    rw [List.mem_cons, not_or] at h
    rw [List.cons_append, List.splitOn_cons_eq_if_modifyHead, if_neg (by simpa using Ne.symm h.1),
      ih h.2, List.modifyHead_modifyHead]
    rfl

/-- A text has a last line. -/
theorem notMem_or_exists_lastLine (cs : List Char) :
    '\n' ∉ cs ∨ ∃ as bs, cs = as ++ '\n' :: bs ∧ '\n' ∉ bs := by
  by_cases h : '\n' ∈ cs
  · obtain ⟨bs, as, hcs, hbs⟩ := List.eq_append_cons_of_mem (List.mem_reverse.mpr h)
    refine .inr ⟨as.reverse, bs.reverse, ?_, by simpa using hbs⟩
    rw [← List.reverse_reverse cs, hcs]
    simp
  · exact .inl h

/-- A text without a line feed begins the first line. -/
theorem exists_head_splitOn (h : '\n' ∉ text) (post : List Char) :
    ∃ line others, (text ++ post).splitOn '\n' = (text ++ line) :: others := by
  rw [splitOn_append_of_notMem h]
  cases hpost : post.splitOn '\n' with
  | nil => exact absurd hpost (List.splitOn_ne_nil _ _)
  | cons line others => exact ⟨line, others, rfl⟩

namespace Location

theorem takeWhile_reverse_append (h : '\n' ∉ bs) (as : List Char) :
    (bs.reverse ++ as).takeWhile (· ≠ '\n') = bs.reverse ++ as.takeWhile (· ≠ '\n') := by
  refine List.takeWhile_append_of_pos fun c hc => decide_eq_true fun heq => h ?_
  exact heq ▸ List.mem_reverse.mp hc

theorem after_of_notMem (h : '\n' ∉ cs) : after cs = ⟨1, cs.length + 1⟩ := by
  have hline := takeWhile_reverse_append h []
  rw [List.append_nil, List.takeWhile_nil, List.append_nil] at hline
  rw [after, List.count_eq_zero_of_not_mem h, hline, List.length_reverse]

/-- Only the characters of the last line count for the column. -/
theorem after_append_line (h : '\n' ∉ bs) :
    after (as ++ '\n' :: bs) = ⟨as.count '\n' + 2, bs.length + 1⟩ := by
  have hcount : (as ++ '\n' :: bs).count '\n' = as.count '\n' + 1 := by
    rw [List.count_append, List.count_cons_self, List.count_eq_zero_of_not_mem h]
  have hline : (as ++ '\n' :: bs).reverse.takeWhile (· ≠ '\n') = bs.reverse := by
    rw [List.reverse_append, List.reverse_cons, List.append_assoc, takeWhile_reverse_append h]
    simp
  rw [after, hcount, hline, List.length_reverse]

/-- The text stands at the place in the source: in the line with its number, from the character
with its column on, both counted from one. -/
def PointsAt (place : Location) (source text : String) : Prop :=
  ∃ l c line, place = ⟨l + 1, c + 1⟩ ∧ (lines source)[l]? = some line ∧ text.toList <+: line.drop c

theorem pointsAt_after (h : source.toList = pre ++ (part.toList ++ post))
    (hpart : '\n' ∉ part.toList) : (after pre).PointsAt source part := by
  obtain ⟨line, others, hlines⟩ := exists_head_splitOn hpart post
  rcases notMem_or_exists_lastLine pre with hpre | ⟨as, bs, rfl, hbs⟩
  · -- The text stands on the first line.
    refine ⟨0, pre.length, pre ++ (part.toList ++ line), after_of_notMem hpre, ?_, ?_⟩
    · rw [lines, h, splitOn_append_of_notMem hpre, hlines]
      rfl
    · rw [List.drop_left]
      exact List.prefix_append _ _
  · -- It stands on the line after those of `as`.
    refine ⟨as.count '\n' + 1, bs.length, bs ++ (part.toList ++ line), after_append_line hbs,
      ?_, ?_⟩
    · rw [lines, h, List.append_assoc, List.cons_append, List.splitOn_append_cons_self,
        splitOn_append_of_notMem hbs, hlines, ← length_splitOn_lineFeed]
      simp
    · rw [List.drop_left]
      exact List.prefix_append _ _

end Location

/-- A text on one line is located by the byte from which it stands. -/
theorem exists_pointsAt_of_standsAt (h : StandsAt source n part) (hpart : '\n' ∉ part.toList) :
    ∃ place : Location, Location.ofOffset? source n = some place ∧ place.PointsAt source part := by
  obtain ⟨pre, post, hsource, rfl⟩ := standsAt_iff.mp h
  exact ⟨_, Location.ofOffset?_width hsource, Location.pointsAt_after hsource hpart⟩

/-! ## Slices of a split source -/

theorem slice?_append (before part after : String) :
    slice? (before ++ part ++ after) before.utf8ByteSize
      (before.utf8ByteSize + part.utf8ByteSize) = some part := by
  have hstart : String.Pos.Raw.IsValid (before ++ part ++ after) ⟨before.utf8ByteSize⟩ :=
    String.Pos.Raw.isValid_iff_exists_append.mpr
      ⟨before, part ++ after, String.append_assoc, rfl⟩
  have hsize : (before ++ part).rawEndPos = ⟨before.utf8ByteSize + part.utf8ByteSize⟩ := by
    rw [String.rawEndPos, String.utf8ByteSize_append]
  have hstop : String.Pos.Raw.IsValid (before ++ part ++ after)
      ⟨before.utf8ByteSize + part.utf8ByteSize⟩ :=
    String.Pos.Raw.isValid_iff_exists_append.mpr ⟨before ++ part, after, rfl, hsize.symm⟩
  rw [slice?, dif_pos ⟨hstart, hstop, Nat.le_add_right _ _⟩]
  obtain ⟨_, hcopy⟩ := String.copy_slice_eq_iff_splits.mpr
    ⟨before, after, ⟨String.append_assoc, String.offset_pos (h := hstart)⟩,
      ⟨rfl, (String.offset_pos (h := hstop)).trans hsize.symm⟩⟩
  exact congrArg some hcopy

theorem standsAt_of_slice? (h : slice? source start stop = some part) :
    StandsAt source start part := by
  unfold slice? at h
  split at h
  next hvalid =>
    obtain ⟨before, after, hsource, -⟩ :=
      String.copy_slice_eq_iff_splits.mp ⟨_, Option.some.inj h⟩
    refine ⟨before, after, ?_, ?_⟩
    · rw [String.append_assoc]
      exact hsource.eq_append
    · exact (congrArg String.Pos.Raw.byteIdx hsource.offset_eq_rawEndPos).symm
  next => cases h

/-- A slice is the text that stands between its offsets. -/
theorem slice?_eq_some_iff : slice? source start stop = some part ↔
    StandsAt source start part ∧ start + part.utf8ByteSize = stop := by
  refine ⟨fun h => ⟨standsAt_of_slice? h, utf8ByteSize_of_slice? h⟩, ?_⟩
  rintro ⟨⟨before, after, rfl, rfl⟩, rfl⟩
  exact slice?_append before part after

/-- The slice of a split source. -/
theorem slice?_width (h : source.toList = pre ++ (cs ++ post)) (hstop : width (pre ++ cs) = stop) :
    slice? source (width pre) stop = some (String.ofList cs) := by
  rw [slice?_eq_some_iff, utf8ByteSize_ofList, ← width_append]
  exact ⟨standsAt_iff.mpr ⟨pre, post, by rw [String.toList_ofList, h], rfl⟩, hstop⟩

/-! ## Locations from slices -/

theorem lastLineFeed?_of_notMem (h : '\n' ∉ cs) : lastLineFeed? cs = none := by
  induction cs with
  | nil => rfl
  | cons c cs ih =>
    rw [List.mem_cons, not_or] at h
    simp [lastLineFeed?, ih h.2, Ne.symm h.1]

theorem lastLineFeed?_append_line (h : '\n' ∉ bs) :
    lastLineFeed? (as ++ '\n' :: bs) = some (width as) := by
  induction as with
  | nil => simp [lastLineFeed?, lastLineFeed?_of_notMem h]
  | cons c as ih => simp [lastLineFeed?, ih]

namespace Location

theorem slice?_zero_eq_some_iff {before : String} :
    slice? source 0 (min offset source.utf8ByteSize) = some before ↔
      charactersBefore? offset source.toList = some before.toList := by
  rw [slice?_eq_some_iff, charactersBefore?_eq_some_iff, width_toList, width_toList, Nat.zero_add]
  exact and_congr_left fun _ => standsAt_width_iff (List.nil_append source.toList).symm

theorem ofSlices?_of_slice? {before : String}
    (h : slice? source 0 (min offset source.utf8ByteSize) = some before) :
    ofSlices? source offset = some (after before.toList) := by
  rcases notMem_or_exists_lastLine before.toList with hbefore | ⟨as, bs, heq, hbs⟩
  · -- All of the text is one line.
    have hline : slice? before 0 before.utf8ByteSize = some before := by
      simpa using slice?_append "" before ""
    simp [ofSlices?, h, lastLineFeed?_of_notMem hbefore, hline, after_of_notMem hbefore,
      List.count_eq_zero_of_not_mem hbefore, String.length_toList]
  · -- The last line begins one byte after the last line feed.
    have hsplit : before.toList = (as ++ ['\n']) ++ (bs ++ []) := by rw [heq]; simp
    have hstart : width (as ++ ['\n']) = width as + 1 := by rw [width_append]; rfl
    have hline : slice? before (width as + 1) before.utf8ByteSize = some (String.ofList bs) := by
      rw [← hstart]
      exact slice?_width hsplit (by rw [← width_toList, hsplit, List.append_nil])
    have hcount : before.toList.count '\n' = as.count '\n' + 1 := by
      rw [heq, List.count_append, List.count_cons_self, List.count_eq_zero_of_not_mem hbs]
    have hfeed : lastLineFeed? before.toList = some (width as) := by
      rw [heq, lastLineFeed?_append_line hbs]
    rw [heq, after_append_line hbs]
    simp [ofSlices?, h, hfeed, hline, hcount]

/-- A location can be read from slices exactly where the offset stands between characters. -/
theorem ofSlices?_eq_ofOffset? (source : String) (offset : Nat) :
    ofSlices? source offset = ofOffset? source offset := by
  cases hslice : slice? source 0 (min offset source.utf8ByteSize) with
  | some before =>
    rw [ofSlices?_of_slice? hslice, ofOffset?, slice?_zero_eq_some_iff.mp hslice, Option.map_some]
  | none =>
    have hnone : charactersBefore? offset source.toList = none := by
      refine Option.eq_none_iff_forall_ne_some.mpr fun pre hpre => ?_
      rw [← String.toList_ofList (l := pre), ← slice?_zero_eq_some_iff, hslice] at hpre
      cases hpre
    rw [ofOffset?, hnone, ofSlices?, hslice]
    rfl

end Location

/-! ## Walking through a text -/

namespace Location

/-- The place after a character: the first column of the next line after a line feed, and the next
column otherwise. -/
def step (place : Location) (c : Char) : Location :=
  if c = '\n' then ⟨place.line + 1, 1⟩ else ⟨place.line, place.column + 1⟩

/-- The place after the characters `cs`, one by one, from the first column of the first line. -/
def walk (cs : List Char) : Location :=
  cs.foldl step ⟨1, 1⟩

theorem walk_concat (cs : List Char) (c : Char) : walk (cs ++ [c]) = (walk cs).step c :=
  List.foldl_concat ..

/-- One more character is one more step. -/
theorem after_concat (cs : List Char) (c : Char) : after (cs ++ [c]) = (after cs).step c := by
  have hreverse : (cs ++ [c]).reverse = c :: cs.reverse := List.reverse_concat ..
  rw [after, after, step, hreverse, List.count_append, List.takeWhile_cons]
  by_cases hc : c = '\n'
  · simp [hc]
  · simp [hc]

/-- The place after a text is where a walk through it ends. -/
theorem after_eq_walk (cs : List Char) : after cs = walk cs := by
  induction cs using List.reverseRecOn with
  | nil => rfl
  | append_singleton cs c ih => rw [after_concat, walk_concat, ih]

theorem ofOffset?_append {before after : String}
    (hsize : before.utf8ByteSize = min offset (before ++ after).utf8ByteSize) :
    ofOffset? (before ++ after) offset = some (walk before.toList) := by
  rw [← after_eq_walk]
  exact ofOffset?_of_split (String.toList_append ..) (by rwa [width_toList, width_toList])

theorem isValid_of_ofOffset? {place : Location} (h : ofOffset? source offset = some place) :
    String.Pos.Raw.IsValid source ⟨min offset source.utf8ByteSize⟩ := by
  obtain ⟨pre, hpre, -⟩ := Option.map_eq_some_iff.mp h
  obtain ⟨⟨post, hsource⟩, hwidth⟩ := charactersBefore?_eq_some_iff.mp hpre
  refine String.Pos.Raw.isValid_iff_exists_append.mpr
    ⟨String.ofList pre, String.ofList post, ?_, ?_⟩
  · rw [← String.toList_inj, hsource, ← String.ofList_append, String.toList_ofList]
  · rw [String.rawEndPos, utf8ByteSize_ofList, hwidth, width_toList]

end Location

/-- **Offsets are located by walking.** Where an offset, or the end of the source if the offset lies
beyond it, stands between two characters, its location is the place where a walk through the text
before it ends, and so is the location read from slices. Inside a character there is no location,
and no slice to read it from. -/
theorem location_eq_walk (source : String) (offset : Nat) :
    (String.Pos.Raw.IsValid source ⟨min offset source.utf8ByteSize⟩ →
      ∃ before after, source = before ++ after ∧
        before.utf8ByteSize = min offset source.utf8ByteSize ∧
        Location.ofOffset? source offset = some (.walk before.toList) ∧
        Location.ofSlices? source offset = some (.walk before.toList)) ∧
      (¬ String.Pos.Raw.IsValid source ⟨min offset source.utf8ByteSize⟩ →
        Location.ofOffset? source offset = none ∧ Location.ofSlices? source offset = none) := by
  rw [Location.ofSlices?_eq_ofOffset?]
  constructor
  · intro hvalid
    obtain ⟨before, after, rfl, hsize⟩ := String.Pos.Raw.isValid_iff_exists_append.mp hvalid
    have hsize := (congrArg String.Pos.Raw.byteIdx hsize).symm
    have hplace := Location.ofOffset?_append hsize
    exact ⟨before, after, rfl, hsize, hplace, hplace⟩
  · intro hinvalid
    have hnone : Location.ofOffset? source offset = none :=
      Option.eq_none_iff_forall_ne_some.mpr fun _ h => hinvalid (Location.isValid_of_ofOffset? h)
    exact ⟨hnone, hnone⟩

/-- The text before the byte 9 ends with a character of two bytes, and the byte 8 lies inside it. An
offset beyond the end stands for the end, after a line feed. -/
theorem location_around_accent :
    let source := "a = 1\nbé = 2\n"
    (∃ before after, source = before ++ after ∧ before.utf8ByteSize = 9 ∧
      Location.ofOffset? source 9 = some (.walk before.toList)) ∧
      Location.ofOffset? source 9 = some ⟨2, 3⟩ ∧
      Location.ofOffset? source 8 = none ∧ Location.ofSlices? source 8 = none ∧
      (∃ before after, source = before ++ after ∧ before.utf8ByteSize = 14 ∧
        Location.ofSlices? source 1000 = some (.walk before.toList)) ∧
      Location.ofOffset? source 1000 = some ⟨3, 1⟩ := by
  intro source
  obtain ⟨before, after, hsource, hsize, hplace, -⟩ :=
    (location_eq_walk source 9).1 (by decide +kernel)
  obtain ⟨hnone, hnone'⟩ := (location_eq_walk source 8).2 (by decide +kernel)
  obtain ⟨all, rest, hall, hend, -, hlast⟩ := (location_eq_walk source 1000).1 (by decide +kernel)
  exact ⟨⟨before, after, hsource, hsize, hplace⟩, by decide +kernel, hnone, hnone',
    ⟨all, rest, hall, hend, hlast⟩, by decide +kernel⟩

end Pocl
