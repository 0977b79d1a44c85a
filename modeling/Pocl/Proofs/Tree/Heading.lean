/-!
# Indented headings

Indentation alone tells a tree where the lines below a heading stand further in than the heading
does: they end before the first line that does not. So a forest of headings is read back from its
lines, whatever lines follow, as long as those do not stand so far in.

## Main definitions

* `Caption`: a text that begins with no space
* `Heading`: a caption with the headings below it
* `Heading.lines`, `headingLines`: the indented lines of a heading, of several headings
* `StandLeftOf column lines`: the first of the lines stands left of the column

## Main results

* `countP_headingLines`: headings are counted by the lines at their column
* `Heading.lines_append_inj`, `headingLines_append_inj`: headings are determined by their lines
-/

namespace Pocl

/-- A text that begins with no space, so that the indentation before it ends with it. -/
@[ext]
structure Caption where
  text : String
  flush : text.toList.head? ≠ some ' '

/-- A caption with the headings below it. -/
inductive Heading where
  | mk (caption : Caption) (below : List Heading)

/-- A heading with a text that begins with no space. -/
abbrev Heading.of (text : String) (below : List Heading)
    (flush : text.toList.head? ≠ some ' ' := by simp) : Heading :=
  mk ⟨text, flush⟩ below

/-- The text after a number of spaces. -/
def indented (column : Nat) (text : String) : String :=
  String.ofList (List.replicate column ' ') ++ text

mutual

/-- The lines of a heading at a column. The headings below it stand `step` columns further in,
those below them `step'` columns further in than they do, and so on by turns. -/
def Heading.lines (column step step' : Nat) : Heading → List String
  | .mk caption below =>
    indented column caption.text :: headingLines (column + step) step' step below

/-- The lines of several headings at a column, in order. -/
def headingLines (column step step' : Nat) : List Heading → List String
  | [] => []
  | heading :: headings =>
    heading.lines column step step' ++ headingLines column step step' headings

end

variable {column column' step step' : Nat} {xs ys : List String} {text text' : String}
  {t u : Heading} {ts us : List Heading}

@[simp] theorem lines_mk (caption : Caption) : (Heading.mk caption ts).lines column step step' =
    indented column caption.text :: headingLines (column + step) step' step ts := rfl

@[simp] theorem headingLines_nil : headingLines column step step' [] = [] := rfl

@[simp] theorem headingLines_cons : headingLines column step step' (t :: ts) =
    t.lines column step step' ++ headingLines column step step' ts := rfl

/-! ## Columns -/

/-- The number of spaces before the text of a line. -/
def columnOf (line : String) : Nat :=
  (line.toList.takeWhile (· = ' ')).length

theorem columnOf_indented (caption : Caption) (column : Nat) :
    columnOf (indented column caption.text) = column := by
  have hflush : caption.text.toList.takeWhile (· = ' ') = [] := by
    have h := caption.flush
    cases hcs : caption.text.toList with
    | nil => rfl
    | cons c cs =>
      rw [hcs] at h
      exact List.takeWhile_cons_of_neg (by simpa using h)
  have hspaces : ∀ c ∈ List.replicate column ' ', decide (c = ' ') = true := by simp
  rw [columnOf, indented, String.toList_append, String.toList_ofList,
    List.takeWhile_append_of_pos hspaces, hflush, List.append_nil, List.length_replicate]

theorem indented_inj : indented column text = indented column text' ↔ text = text' :=
  String.append_right_inj _

mutual

/-- The lines of a heading stand at its column or further in. -/
theorem le_columnOf_of_mem_lines {column step step' : Nat} {line : String} : (t : Heading) →
    line ∈ t.lines column step step' → column ≤ columnOf line
  | .mk caption below, h => by
    rw [Heading.lines, List.mem_cons] at h
    rcases h with rfl | h
    · exact Nat.le_of_eq (columnOf_indented caption column).symm
    · exact Nat.le_trans (Nat.le_add_right _ _) (le_columnOf_of_mem_headingLines below h)

/-- The lines of headings at a column stand there or further in. -/
theorem le_columnOf_of_mem_headingLines {column step step' : Nat} {line : String} :
    (ts : List Heading) → line ∈ headingLines column step step' ts → column ≤ columnOf line
  | [], h => absurd h List.not_mem_nil
  | t :: ts, h => by
    rw [headingLines, List.mem_append] at h
    exact h.elim (le_columnOf_of_mem_lines t) (le_columnOf_of_mem_headingLines ts)

end

/-- Of the lines of headings at a column, as many stand at that column as there are headings. -/
theorem countP_headingLines (hs : 0 < step) (ts : List Heading) :
    (headingLines column step step' ts).countP (columnOf · = column) = ts.length := by
  induction ts with
  | nil => rfl
  | cons t ts ih =>
    obtain ⟨caption, below⟩ := t
    have hbelow :
        (headingLines (column + step) step' step below).countP (columnOf · = column) = 0 := by
      refine List.countP_eq_zero.mpr fun line hline => ?_
      have hle := le_columnOf_of_mem_headingLines below hline
      rw [decide_eq_true_iff]
      omega
    rw [headingLines_cons, lines_mk, List.countP_append, ih, List.countP_cons, hbelow,
      columnOf_indented, List.length_cons]
    simp [Nat.add_comm]

/-- The first of the lines, where there is one, stands left of the column. -/
def StandLeftOf (column : Nat) (lines : List String) : Prop :=
  ∀ line ∈ lines.head?, columnOf line < column

theorem standLeftOf_nil : StandLeftOf column [] := by
  simp [StandLeftOf]

theorem StandLeftOf.mono (h : StandLeftOf column xs) (hle : column ≤ column') :
    StandLeftOf column' xs :=
  fun line hline => Nat.lt_of_lt_of_le (h line hline) hle

/-- Where no line of the column comes first, none of the headings is left to stand there. -/
theorem not_standLeftOf_lines : ¬ StandLeftOf column (t.lines column step step' ++ xs) := by
  obtain ⟨caption, below⟩ := t
  intro h
  have hlt := h (indented column caption.text) (by simp [Heading.lines])
  rw [columnOf_indented] at hlt
  exact Nat.lt_irrefl _ hlt

/-- After a heading, another heading of the column or what follows the headings comes first. -/
theorem standLeftOf_headingLines (h : StandLeftOf column xs) (hlt : column < column') :
    StandLeftOf column' (headingLines column step step' ts ++ xs) := by
  cases ts with
  | nil => exact h.mono (Nat.le_of_lt hlt)
  | cons t ts =>
    obtain ⟨caption, below⟩ := t
    intro line hline
    obtain rfl : indented column caption.text = line := by
      simpa [headingLines, Heading.lines] using hline
    rwa [columnOf_indented]

/-! ## Reading headings back -/

mutual

/-- A heading is determined by its lines, and so is where they end. -/
theorem Heading.lines_append_inj {column step step' : Nat} {xs ys : List String} (hs : 0 < step)
    (hs' : 0 < step') : (t u : Heading) → StandLeftOf (column + step) xs →
    StandLeftOf (column + step) ys →
    t.lines column step step' ++ xs = u.lines column step step' ++ ys → t = u ∧ xs = ys
  | .mk caption below, .mk caption' below', hx, hy, h => by
    rw [Heading.lines, Heading.lines, List.cons_append, List.cons_append] at h
    obtain ⟨hcaption, hbelow⟩ := List.cons.inj h
    obtain ⟨rfl, hrest⟩ := headingLines_append_inj hs' hs below below' hx hy hbelow
    obtain rfl : caption = caption' := Caption.ext (indented_inj.mp hcaption)
    exact ⟨rfl, hrest⟩

/-- Headings at a column are determined by their lines, and so is where those end. -/
theorem headingLines_append_inj {column step step' : Nat} {xs ys : List String} (hs : 0 < step)
    (hs' : 0 < step') : (ts us : List Heading) → StandLeftOf column xs → StandLeftOf column ys →
    headingLines column step step' ts ++ xs = headingLines column step step' us ++ ys →
    ts = us ∧ xs = ys
  | [], [], _, _, h => ⟨rfl, h⟩
  | [], u :: us, hx, _, h => by
    rw [headingLines, headingLines, List.nil_append, List.append_assoc] at h
    rw [h] at hx
    exact absurd hx not_standLeftOf_lines
  | t :: ts, [], _, hy, h => by
    rw [headingLines, headingLines, List.nil_append, List.append_assoc] at h
    rw [← h] at hy
    exact absurd hy not_standLeftOf_lines
  | t :: ts, u :: us, hx, hy, h => by
    have hlt : column < column + step := Nat.lt_add_of_pos_right hs
    rw [headingLines, headingLines, List.append_assoc, List.append_assoc] at h
    obtain ⟨rfl, hrest⟩ := Heading.lines_append_inj hs hs' t u (standLeftOf_headingLines hx hlt)
      (standLeftOf_headingLines hy hlt) h
    obtain ⟨rfl, hend⟩ := headingLines_append_inj hs hs' ts us hx hy hrest
    exact ⟨rfl, hend⟩

end

end Pocl
