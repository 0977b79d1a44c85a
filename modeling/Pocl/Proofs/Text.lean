import Pocl.Proofs.Location

/-!
# Texts that can be taken apart

A number is written in decimal digits, and its text goes on to the first character that is not a
digit. So a number can be read back from a text that begins or ends with it, whatever else the text
holds. A text of lines holds each line with a line feed after it, and a list of names holds a comma
and a space between any two. Where no line holds a line feed and no name a comma, cutting the text
gives the lines, or the names, back.

## Main definitions

* `OneLine s`, `OneLines lines`: no line feed stands in the text, in any of the lines
* `IsListable name`: the name can be told from its neighbours in a list

## Main results

* `append_inj_of_not_leads`: a text is cut in one way after the characters that pass a test
* `toString_append_inj`, `append_toString_inj`: a number in front of a text, and behind one
* `join_lines_inj`: lines are determined by their text
* `intercalate_comma_inj`: names are determined by the text of their list
-/

namespace Pocl

variable {p : Char → Bool} {as bs cs ds : List Char} {c : Char} {m n : Nat} {name : String}
  {texts texts' names names' : List String}

/-! ## Numbers -/

/-- A text is cut in one way between characters that pass a test and one that does not. -/
theorem append_inj_of_not_leads (has : ∀ c ∈ as, p c = true) (hbs : ∀ c ∈ bs, p c = true)
    (hcs : ¬ Leads cs p) (hds : ¬ Leads ds p) (h : as ++ cs = bs ++ ds) : as = bs ∧ cs = ds := by
  constructor
  · rw [← takeWhile_append_of_not_leads has hcs, h, takeWhile_append_of_not_leads hbs hds]
  · rw [← dropWhile_append_of_not_leads has hcs, h, dropWhile_append_of_not_leads hbs hds]

theorem isDigit_of_mem_toString (n : Nat) : ∀ c ∈ (toString n).toList, c.isDigit = true := by
  intro c hc
  rw [Nat.toString_eq_ofList_toDigits, String.toList_ofList] at hc
  exact Nat.isDigit_of_mem_toDigits (by decide) (by decide) hc

/-- Different numbers are written differently. -/
theorem toString_inj (h : toString m = toString n) : m = n := by
  rw [Nat.toString_eq_ofList_toDigits, Nat.toString_eq_ofList_toDigits, String.ofList_inj] at h
  rw [← Nat.ofDigitChars_ten_toDigits (n := m), h, Nat.ofDigitChars_ten_toDigits]

/-- A number in front of a text is determined, where the text does not begin with a digit. -/
theorem toString_append_inj (hcs : ¬ Leads cs Char.isDigit) (hds : ¬ Leads ds Char.isDigit)
    (h : (toString m).toList ++ cs = (toString n).toList ++ ds) : m = n ∧ cs = ds := by
  obtain ⟨hdigits, hrest⟩ := append_inj_of_not_leads (isDigit_of_mem_toString m)
    (isDigit_of_mem_toString n) hcs hds h
  exact ⟨toString_inj (String.toList_inj.mp hdigits), hrest⟩

/-- A number behind a text is determined, where the text does not end with a digit. -/
theorem append_toString_inj (has : ¬ Leads as.reverse Char.isDigit)
    (hbs : ¬ Leads bs.reverse Char.isDigit)
    (h : as ++ (toString m).toList = bs ++ (toString n).toList) : as = bs ∧ m = n := by
  have hreverse := congrArg List.reverse h
  rw [List.reverse_append, List.reverse_append] at hreverse
  obtain ⟨hdigits, hrest⟩ := append_inj_of_not_leads
    (fun c hc => isDigit_of_mem_toString m c (List.mem_reverse.mp hc))
    (fun c hc => isDigit_of_mem_toString n c (List.mem_reverse.mp hc)) has hbs hreverse
  exact ⟨List.reverse_inj.mp hrest,
    toString_inj (String.toList_inj.mp (List.reverse_inj.mp hdigits))⟩

/-! ## Lines -/

theorem splitOn_of_notMem (h : c ∉ cs) : cs.splitOn c = [cs] := by
  have hsingle : [c].intercalate [cs] = cs := List.intercalate_singleton
  rw [← hsingle, List.splitOn_intercalate c (by simpa using h) (List.cons_ne_nil _ _), hsingle]

/-- No line feed stands in the text. -/
def OneLine (s : String) : Prop :=
  '\n' ∉ s.toList

instance : DecidablePred OneLine :=
  fun s => inferInstanceAs (Decidable ('\n' ∉ s.toList))

@[simp] theorem oneLine_append {s t : String} : OneLine (s ++ t) ↔ OneLine s ∧ OneLine t := by
  simp [OneLine]

/-- Each of the lines is one line. -/
def OneLines (lines : List String) : Prop :=
  ∀ line ∈ lines, OneLine line

@[simp] theorem oneLines_nil : OneLines [] :=
  List.forall_mem_nil _

@[simp] theorem oneLines_cons {line : String} {lines : List String} :
    OneLines (line :: lines) ↔ OneLine line ∧ OneLines lines :=
  List.forall_mem_cons

@[simp] theorem oneLines_append {lines lines' : List String} :
    OneLines (lines ++ lines') ↔ OneLines lines ∧ OneLines lines' :=
  List.forall_mem_append

/-- The lines of a text of lines, with what follows the last line feed. -/
theorem lines_join (h : OneLines texts) :
    lines (String.join (texts.map (· ++ "\n"))) = texts.map String.toList ++ [[]] := by
  induction texts with
  | nil => rfl
  | cons text texts ih =>
    obtain ⟨htext, htexts⟩ := oneLines_cons.mp h
    have hfeed : "\n".toList = ['\n'] := rfl
    rw [lines, List.map_cons, String.join_cons, String.toList_append, String.toList_append, hfeed,
      List.append_assoc, List.singleton_append, List.splitOn_append_cons_self,
      splitOn_of_notMem htext, ← lines, ih htexts]
    rfl

/-- Lines are determined by their text. -/
theorem join_lines_inj (h : OneLines texts) (h' : OneLines texts')
    (heq : String.join (texts.map (· ++ "\n")) = String.join (texts'.map (· ++ "\n"))) :
    texts = texts' := by
  have hlines := congrArg lines heq
  rw [lines_join h, lines_join h'] at hlines
  exact (List.map_inj_right fun _ _ => String.toList_inj.mp).mp (List.append_cancel_right hlines)

/-! ## Lists of names -/

/-- The name can be told from its neighbours in a list, and a list of it from an empty one. -/
def IsListable (name : String) : Prop :=
  name ≠ "" ∧ ',' ∉ name.toList

theorem oneLine_intercalate_comma (h : OneLines names) :
    OneLine (", ".intercalate names) := by
  induction names with
  | nil => decide
  | cons name names ih =>
    obtain ⟨hname, hnames⟩ := oneLines_cons.mp h
    cases names with
    | nil => rwa [String.intercalate_singleton]
    | cons name' names =>
      rw [String.intercalate_cons_cons, oneLine_append, oneLine_append]
      exact ⟨⟨hname, by decide⟩, ih hnames⟩

/-- A list of names is cut at its commas, and each name but the first has a space before it. -/
theorem splitOn_intercalate_comma (h : ∀ n ∈ name :: names, ',' ∉ n.toList) :
    (", ".intercalate (name :: names)).toList.splitOn ',' =
      name.toList :: names.map (' ' :: ·.toList) := by
  induction names generalizing name with
  | nil =>
    rw [String.intercalate_singleton]
    exact splitOn_of_notMem (h name (.head _))
  | cons name' names ih =>
    obtain ⟨hname, hnames⟩ := List.forall_mem_cons.mp h
    have hcomma : ", ".toList = [',', ' '] := rfl
    rw [String.intercalate_cons_cons, String.toList_append, String.toList_append, hcomma,
      List.append_assoc, List.cons_append, List.splitOn_append_cons_self, splitOn_of_notMem hname,
      List.singleton_append, List.singleton_append, List.splitOn_cons_eq_if_modifyHead,
      if_neg (by simp), ih hnames]
    rfl

/-- The text of a list with a name is not empty. -/
theorem intercalate_comma_ne_empty (h : ∀ n ∈ name :: names, IsListable n) :
    ", ".intercalate (name :: names) ≠ "" := by
  intro hempty
  have hcut := splitOn_intercalate_comma fun n hn => (h n hn).2
  rw [hempty, String.toList_empty, List.splitOn_nil] at hcut
  exact (h name (.head _)).1 (String.toList_eq_nil_iff.mp (List.cons.inj hcut).1.symm)

/-- Names are determined by the text of their list. -/
theorem intercalate_comma_inj (h : ∀ name ∈ names, IsListable name)
    (h' : ∀ name ∈ names', IsListable name)
    (heq : ", ".intercalate names = ", ".intercalate names') : names = names' := by
  cases names with
  | nil =>
    cases names' with
    | nil => rfl
    | cons name' names' => exact absurd heq.symm (intercalate_comma_ne_empty h')
  | cons name names =>
    cases names' with
    | nil => exact absurd heq (intercalate_comma_ne_empty h)
    | cons name' names' =>
      have hcut := congrArg (·.toList.splitOn ',') heq
      simp only [splitOn_intercalate_comma fun n hn => (h n hn).2,
        splitOn_intercalate_comma fun n hn => (h' n hn).2] at hcut
      obtain ⟨hname, hnames⟩ := List.cons.inj hcut
      rw [String.toList_inj.mp hname]
      have hspace (s t : String) (h : ' ' :: s.toList = ' ' :: t.toList) : s = t :=
        String.toList_inj.mp (List.cons.inj h).2
      rw [(List.map_inj_right hspace).mp hnames]

end Pocl
