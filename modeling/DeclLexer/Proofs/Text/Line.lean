import DeclLexer.Proofs.Text.Run
import DeclLexer.Text.Blank
import DeclLexer.Text.Line
import Mathlib.Data.List.DropRight

/-!
# The line of a place

A place in a text lies between a part of its line that stands before it and one that stands after
it. `placeAt?_of_inLine` says that this line is the one that is found for the byte offset of the
place, under the number of line feeds before it.
-/

namespace DeclLexer.Text

variable {earlier before after later line rest cs : List Char} {ls : List (List Char)}
  {f : Char → Char} {number offset : Nat}

/-- The place between `before` and `after` is in the line `before ++ after`, which runs from the
last line feed before the place, or the start of the text, to the next one behind it, or the end. -/
structure InLine (earlier before after later : List Char) : Prop where
  starts : Continues (· == '\n') earlier.reverse
  notMem_before : '\n' ∉ before
  notMem_after : '\n' ∉ after
  stops : Continues (· == '\n') later

/-- Every place of a text is in a line. -/
lemma exists_inLine (past ahead : List Char) :
    ∃ earlier before after later, past = earlier ++ before ∧ ahead = after ++ later ∧
      InLine earlier before after later := by
  obtain ⟨earlier, before, hpast, hstarts, hbefore⟩ := exists_last_run (· != '\n') past
  refine ⟨earlier, before, ahead.takeWhile (· != '\n'), ahead.dropWhile (· != '\n'), hpast,
    List.takeWhile_append_dropWhile.symm, ?_, ?_, ?_, ?_⟩
  · intro c hc
    simpa using hstarts c hc
  · intro hmem
    simpa using hbefore _ hmem
  · intro hmem
    simpa using List.mem_takeWhile_imp hmem
  · intro c hc
    simpa using stops_dropWhile c hc

/-! ### Lines -/

lemma lines_append_newline (h : '\n' ∉ line) (rest : List Char) :
    lines (line ++ '\n' :: rest) = (line ++ ['\n']) :: lines rest := by
  induction line with
  | nil =>
    rw [List.nil_append, lines_cons]
    cases lines rest <;> simp [consLine]
  | cons c line ih =>
    have hc : c ≠ '\n' := fun hc => h (by simp [hc])
    rw [List.cons_append, lines_cons, ih (fun hmem => h (.tail _ hmem)), consLine, if_neg hc,
      List.cons_append]

lemma lines_of_notMem (h : '\n' ∉ line) (hne : line ≠ []) : lines line = [line] := by
  induction line with
  | nil => exact absurd rfl hne
  | cons c line ih =>
    have hc : c ≠ '\n' := fun hc => h (by simp [hc])
    cases line with
    | nil => rfl
    | cons d line =>
      rw [lines_cons, ih (fun hmem => h (.tail _ hmem)) (List.cons_ne_nil _ _), consLine, if_neg hc]

lemma lines_ne_nil (hne : cs ≠ []) : lines cs ≠ [] := by
  intro h
  apply hne
  rw [← flatten_lines cs, h, List.flatten_nil]

/-! ### The place of an offset -/

lemma placeIn_cons_of_lt (hlt : offset < byteLength line) :
    placeIn number offset (line :: ls) = ⟨number, line, offset⟩ := by
  cases ls with
  | nil => rfl
  | cons next ls =>
    rw [placeIn, if_pos hlt]
    exact nofun

lemma placeIn_cons_of_le (hle : byteLength line ≤ offset) (hne : ls ≠ []) :
    placeIn number offset (line :: ls) = placeIn (number + 1) (offset - byteLength line) ls := by
  rw [placeIn, if_neg (Nat.not_lt.mpr hle)]
  exact hne

/-- A place in the first line. -/
lemma placeIn_first (hbefore : '\n' ∉ before) (hafter : '\n' ∉ after)
    (hlater : Continues (· == '\n') later) :
    placeIn number (byteLength before) (lines (before ++ (after ++ later))) =
      ⟨number, before ++ after ++ later.take 1, byteLength before⟩ := by
  have hline : '\n' ∉ before ++ after := by simp [hbefore, hafter]
  rw [← List.append_assoc]
  cases later with
  | nil =>
    rw [List.append_nil, List.take_nil, List.append_nil]
    by_cases hne : before ++ after = []
    · obtain ⟨rfl, rfl⟩ := List.append_eq_nil_iff.mp hne
      rfl
    · rw [lines_of_notMem hline hne, placeIn]
  | cons c rest =>
    obtain rfl : c = '\n' := by simpa using hlater
    have hlt : byteLength before < byteLength (before ++ after ++ ['\n']) := by
      simp only [byteLength_append]
      have := '\n'.utf8Size_pos
      simp only [byteLength_cons]
      omega
    rw [lines_append_newline hline, placeIn_cons_of_lt hlt]
    rfl

/-- A place behind a line is found behind it. -/
lemma placeIn_append_newline (h : '\n' ∉ line) (hne : rest ≠ []) (offset : Nat) :
    placeIn number (byteLength (line ++ ['\n']) + offset) (lines (line ++ '\n' :: rest)) =
      placeIn (number + 1) offset (lines rest) := by
  rw [lines_append_newline h, placeIn_cons_of_le (Nat.le_add_right _ _) (lines_ne_nil hne),
    Nat.add_sub_cancel_left]

lemma InLine.placeIn_eq (h : InLine earlier before after later)
    (hne : before ++ (after ++ later) ≠ []) :
    placeIn number (byteLength (earlier ++ before))
        (lines (earlier ++ (before ++ (after ++ later)))) =
      ⟨number + earlier.count '\n', before ++ after ++ later.take 1, byteLength before⟩ := by
  induction hlen : earlier.length using Nat.strong_induction_on generalizing earlier number with
  | _ n ih =>
  -- the first line is passed while it is not the one of the place
  by_cases hmem : '\n' ∈ earlier
  · obtain ⟨line, rest, rfl, hline⟩ := List.eq_append_cons_of_mem hmem
    have hrest : InLine rest before after later := by
      refine ⟨?_, h.notMem_before, h.notMem_after, h.stops⟩
      have hstarts := h.starts
      rw [List.reverse_append, List.reverse_cons, List.append_assoc] at hstarts
      exact hstarts.of_append
    have hoffset : byteLength (line ++ '\n' :: rest ++ before) =
        byteLength (line ++ ['\n']) + byteLength (rest ++ before) := by
      simp only [byteLength_append, byteLength_cons, byteLength_nil]
      omega
    have hcount : (line ++ '\n' :: rest).count '\n' = 1 + rest.count '\n' := by
      rw [List.count_append, List.count_eq_zero.mpr hline, List.count_cons_self, Nat.zero_add,
        Nat.add_comm]
    have hlt : rest.length < n := by
      rw [← hlen, List.length_append, List.length_cons]
      omega
    rw [hoffset, List.append_assoc, List.cons_append,
      placeIn_append_newline hline (by simp_all), ih rest.length hlt hrest rfl, hcount,
      Nat.add_assoc]
  · obtain rfl : earlier = [] := by
      cases hrev : earlier.reverse with
      | nil => exact List.reverse_eq_nil_iff.mp hrev
      | cons c cs =>
        have hc := h.starts
        rw [hrev, continues_cons, beq_iff_eq] at hc
        have : c ∈ earlier := List.mem_reverse.mp (hrev ▸ List.mem_cons_self)
        exact absurd (hc ▸ this) hmem
    exact placeIn_first h.notMem_before h.notMem_after h.stops

/-- The line of a place has the number of line feeds before it, counted from one. -/
theorem placeAt?_of_inLine (h : InLine earlier before after later)
    (hne : before ++ (after ++ later) ≠ []) :
    placeAt? (earlier ++ (before ++ (after ++ later))) (byteLength (earlier ++ before)) =
      some ⟨1 + earlier.count '\n', before ++ after ++ later.take 1, byteLength before⟩ := by
  rw [placeAt?, if_pos, h.placeIn_eq hne]
  simp only [byteLength_append]
  omega

/-! ### Lines of a text with other characters -/

lemma consLine_map (hf : ∀ c, f c = '\n' ↔ c = '\n') (c : Char) :
    consLine (f c) (ls.map (List.map f)) = (consLine c ls).map (List.map f) := by
  cases ls with
  | nil => rfl
  | cons line ls => by_cases hc : c = '\n' <;> simp [consLine, hf, hc]

/-- Lines stay lines when no line feed is put in or taken out. -/
lemma lines_map (hf : ∀ c, f c = '\n' ↔ c = '\n') (cs : List Char) :
    lines (cs.map f) = (lines cs).map (List.map f) := by
  induction cs with
  | nil => rfl
  | cons c cs ih => rw [List.map_cons, lines_cons, lines_cons, ih, consLine_map hf]

lemma placeIn_map (hf : ∀ c, (f c).utf8Size = c.utf8Size) :
    placeIn number offset (ls.map (List.map f)) =
      { placeIn number offset ls with line := (placeIn number offset ls).line.map f } := by
  fun_induction placeIn number offset ls with
  | case1 => rfl
  | case2 => rfl
  | case3 number offset line ls hls hlt =>
    rw [List.map_cons, placeIn_cons_of_lt (by rwa [byteLength_map hf])]
  | case4 number offset line ls hls hge ih =>
    rw [List.map_cons, placeIn_cons_of_le (by rw [byteLength_map hf]; omega) (by simpa using hls),
      byteLength_map hf, ih]

/-- The place of an offset stays where it is when characters of the same sizes stand there. -/
lemma placeAt?_map (hsize : ∀ c, (f c).utf8Size = c.utf8Size) (hfeed : ∀ c, f c = '\n' ↔ c = '\n')
    (cs : List Char) (offset : Nat) :
    placeAt? (cs.map f) offset =
      (placeAt? cs offset).map fun p => { p with line := p.line.map f } := by
  rw [placeAt?, placeAt?, byteLength_map hsize, lines_map hfeed, placeIn_map hsize]
  split <;> rfl

/-! ### White space at the end of a line -/

/-- What is trimmed from the end of a text is white space. -/
lemma exists_trimEnd (cs : List Char) :
    ∃ tail, cs = trimEnd cs ++ tail ∧ ∀ c ∈ tail, isWhiteSpace c :=
  ⟨cs.rtakeWhile isWhiteSpace, List.rdropWhile_append_rtakeWhile.symm,
    fun _ hc => List.mem_rtakeWhile_imp hc⟩

/-- The line feed of a line is trimmed with the white space before it. -/
lemma trimEnd_append_take_one (hlater : Continues (· == '\n') later) :
    trimEnd (line ++ later.take 1) = trimEnd line := by
  cases later with
  | nil => rw [List.take_nil, List.append_nil]
  | cons c cs =>
    obtain rfl : c = '\n' := by simpa using hlater
    exact List.rdropWhile_concat_pos isWhiteSpace line '\n' (by decide)

end DeclLexer.Text
