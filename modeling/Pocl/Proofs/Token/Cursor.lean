import Pocl.Proofs.Location
import Pocl.Proofs.Token.Tiling
import Pocl.Slice

/-!
# The cursor stands between characters

A cursor that stands after some characters of the source reads the characters after them, and it
moves over whole characters only. So every slice that scanning takes exists, and scanning by byte
offsets gives the tokens that scanning the characters gives.

## Main results

* `peek?_width`, `skip?_width`: what is read after the characters `pre`
* `lexeme?_width`: the token that begins after the characters `pre`
* `scanSlices?_eq_scan`: scanning by byte offsets gives the tokens of the source
-/

namespace Pocl

variable {source : String} {pre mid post cs : List Char} {c : Char} {p : Char → Bool}

/-! ## Characters -/

theorem peek?_width (h : source.toList = pre ++ cs) :
    peek? source (width pre) = some cs.head? := by
  have hslice : slice? source (width pre) source.utf8ByteSize = some (String.ofList cs) := by
    have hsplit : source.toList = pre ++ (cs ++ []) := by rw [h, List.append_nil]
    exact slice?_width hsplit (by rw [← h, width_toList])
  rw [peek?, hslice, Option.map_some, String.toList_ofList]

theorem skip?_eq (source : String) (p : Char → Bool) (pos : Nat) :
    skip? source p pos = match peek? source pos with
      | none => none
      | some none => some pos
      | some (some c) => if p c then skip? source p (pos + c.utf8Size) else some pos := by
  rw [skip?]
  split <;> simp_all

/-- The cursor moves over a character that passes the test. -/
theorem skip?_pos (h : source.toList = pre ++ c :: cs) (hc : p c = true) :
    skip? source p (width pre) = skip? source p (width (pre ++ [c])) := by
  rw [skip?_eq, peek?_width h, width_append]
  exact if_pos hc

/-- The cursor stays where no character that passes the test follows. -/
theorem skip?_neg (h : source.toList = pre ++ cs) (hcs : ¬ Leads cs p) :
    skip? source p (width pre) = some (width pre) := by
  rw [skip?_eq, peek?_width h]
  cases cs with
  | nil => rfl
  | cons c cs => exact if_neg (mt leads_cons.mpr hcs)

/-- The cursor moves over all characters that pass the test. -/
theorem skip?_width (h : source.toList = pre ++ (mid ++ post)) (hmid : ∀ d ∈ mid, p d = true)
    (hpost : ¬ Leads post p) : skip? source p (width pre) = some (width (pre ++ mid)) := by
  induction mid generalizing pre with
  | nil =>
    rw [List.append_nil]
    exact skip?_neg h hpost
  | cons c mid ih =>
    obtain ⟨hc, hmid⟩ := List.forall_mem_cons.mp hmid
    rw [skip?_pos h hc, ih (h.trans (List.append_cons pre c _)) hmid, ← List.append_cons]

/-! ## Tokens -/

/-- A run takes all characters that pass its test. -/
theorem run?_width (kind : String → TokenKind) (h : source.toList = pre ++ c :: cs) :
    run? source p kind (width pre) c = some
      ⟨kind (String.ofList (c :: cs.takeWhile p)), String.ofList (c :: cs.takeWhile p),
        width pre + width (c :: cs.takeWhile p)⟩ := by
  have hsplit : source.toList = pre ++ (c :: (cs.takeWhile p ++ cs.dropWhile p)) := by
    rw [List.takeWhile_append_dropWhile, h]
  have hskip := skip?_width (hsplit.trans (List.append_cons pre c _)) forall_mem_takeWhile
    not_leads_dropWhile
  have hslice : slice? source (width pre) (width pre + width (c :: cs.takeWhile p)) =
      some (String.ofList (c :: cs.takeWhile p)) := slice?_width hsplit (width_append _ _)
  rw [width_concat, ← List.append_cons, width_append] at hskip
  rw [run?, hskip, Option.bind_eq_bind, Option.bind_some, hslice]
  rfl

theorem cutToken_eq {n : Nat} {kind : TokenKind} {text rest : List Char}
    (h : cut c cs = ⟨kind, text, rest⟩) :
    cutToken n c cs = ⟨kind, String.ofList text, n + width text⟩ := by
  rw [cutToken, h, utf8ByteSize_ofList]

/-- The token that begins after the characters `pre`. -/
theorem lexeme?_width (h : source.toList = pre ++ c :: cs) :
    lexeme? source (width pre) c = some (cutToken (width pre) c cs) := by
  unfold lexeme?
  split
  next hd => rw [run?_width _ h, cutToken_eq (cut_of_isDigit hd)]
  split
  next hl =>
    rw [run?_width _ h, cutToken_eq (cut_of_isLetter hl)]
    rfl
  split
  next hc =>
    subst hc
    have hpeek := peek?_width (h.trans (List.append_cons pre '.' cs))
    rw [width_concat] at hpeek
    rw [hpeek, Option.bind_eq_bind, Option.bind_some]
    cases cs with
    | nil =>
      rw [cutToken_eq (cut_dot not_leads_nil)]
      rfl
    | cons d ds =>
      by_cases hd : d = '.'
      · subst hd
        rw [cutToken_eq cut_dots, Nat.add_assoc]
        rfl
      · have hne : some d ≠ some '.' := by simpa using hd
        rw [cutToken_eq (cut_dot (by simpa using hd)), List.head?_cons, if_neg hne]
        rfl
  next hd hl hc =>
    rw [cutToken_eq (cut_symbol (by simpa using hd) (by simpa using hl) hc)]
    rfl

/-! ## Scanning -/

theorem nextToken?_nil (h : source.toList = pre) : nextToken? source (width pre) = some none := by
  have h' : source.toList = pre ++ [] := h.trans (List.append_nil pre).symm
  simp [nextToken?, skip?_neg h' not_leads_nil, peek?_width h']

theorem nextToken?_blank (h : source.toList = pre ++ c :: cs) (hc : isBlank c = true) :
    nextToken? source (width pre) = nextToken? source (width (pre ++ [c])) := by
  rw [nextToken?, nextToken?, skip?_pos h hc]

theorem nextToken?_lexeme (h : source.toList = pre ++ c :: cs) (hc : isBlank c = false) :
    nextToken? source (width pre) = some (some (cutToken (width pre) c cs)) := by
  have hstart : skip? source isBlank (width pre) = some (width pre) :=
    skip?_neg h (by simp [hc])
  simp [nextToken?, hstart, peek?_width h, lexeme?_width h]

theorem scanSlices?_eq (source : String) (pos : Nat) :
    scanSlices? source pos = match nextToken? source pos with
      | none => none
      | some none => some []
      | some (some t) => (scanSlices? source t.position).map (t :: ·) := by
  rw [scanSlices?]
  split <;> simp_all

/-- Scanning from a cursor that stands between characters gives the tokens of those after it. -/
theorem scanSlices?_width (h : source.toList = pre ++ cs) :
    scanSlices? source (width pre) = some (scanFrom (width pre) cs) := by
  -- As the scan goes on, the characters that it has passed take as many bytes as the cursor says.
  generalize hn : width pre = n
  fun_induction scanFrom n cs generalizing pre with
  | case1 n =>
    rw [← hn, scanSlices?_eq, nextToken?_nil (h.trans (List.append_nil pre))]
  | case2 n c cs hc ih =>
    have hstop : width (pre ++ [c]) = n + c.utf8Size := by rw [width_concat, hn]
    rw [← ih (h.trans (List.append_cons pre c cs)) hstop, ← hn, scanSlices?_eq,
      nextToken?_blank h hc, ← scanSlices?_eq, hn, hstop]
  | case3 n c cs hb lexeme =>
    rename_i stop ih
    have hc : isBlank c = false := Bool.eq_false_iff.mpr hb
    have hrest : source.toList = (pre ++ (cut c cs).text) ++ (cut c cs).rest := by
      rw [h, List.append_assoc, text_append_rest_cut]
    have hstop : width (pre ++ (cut c cs).text) = stop := by
      rw [width_append, hn, ← utf8ByteSize_ofList (cut c cs).text]
    rw [← hn, scanSlices?_eq, nextToken?_lexeme h hc, hn]
    exact congrArg (Option.map (cutToken n c cs :: ·)) (ih hrest hstop)

/-- Scanning by byte offsets gives the tokens of the source. -/
theorem scanSlices?_eq_scan (source : String) : scanSlices? source 0 = some (scan source) :=
  scanSlices?_width (List.nil_append source.toList).symm

end Pocl
