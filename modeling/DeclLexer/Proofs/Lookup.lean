import DeclLexer.Proofs.Text.Line

/-!
# The line of an offset

Every offset up to the length of a text has a place in one of its lines, whether it stands between
two characters or inside one. The lines before the place and the offset in its line make up the
offset, and the walk that counts them never passes it.
-/

namespace DeclLexer.Text

variable {cs ds line : List Char} {ls : List (List Char)} {p : Place} {w : Walk}
  {number offset : Nat}

/-! ### Lines -/

/-- The lines make up the text. None of them is empty, a line feed stands only at the end of a line,
and only the last line may lack it. -/
structure AreLinesOf (ls : List (List Char)) (cs : List Char) : Prop where
  flatten_eq : ls.flatten = cs
  ne_nil : ∀ line ∈ ls, line ≠ []
  notMem_dropLast : ∀ line ∈ ls, '\n' ∉ line.dropLast
  getLast?_eq : ∀ line ∈ ls.dropLast, line.getLast? = some '\n'

lemma AreLinesOf.consLine (h : AreLinesOf ls cs) (c : Char) :
    AreLinesOf (consLine c ls) (c :: cs) := by
  have hflatten : (Text.consLine c ls).flatten = c :: cs := by rw [flatten_consLine, h.flatten_eq]
  cases ls with
  | nil =>
    rw [Text.consLine] at hflatten ⊢
    exact ⟨hflatten, by simp, by simp, by simp⟩
  | cons line later =>
    obtain ⟨-, hne, hfeed, hlast⟩ := h
    have hline := hne line List.mem_cons_self
    by_cases hc : c = '\n'
    · rw [Text.consLine, if_pos hc] at hflatten ⊢
      exact ⟨hflatten, by simpa using hne, by simpa using hfeed, by simpa [hc] using hlast⟩
    · rw [Text.consLine, if_neg hc] at hflatten ⊢
      refine ⟨hflatten, by simp_all, ?_, ?_⟩
      · simpa [List.dropLast_cons_of_ne_nil hline, Ne.symm hc] using hfeed
      · cases later with
        | nil => simp
        | cons next later =>
          obtain ⟨d, rest, rfl⟩ := List.exists_cons_of_ne_nil hline
          simpa using hlast

lemma areLinesOf_lines (cs : List Char) : AreLinesOf (lines cs) cs := by
  induction cs with
  | nil => exact ⟨rfl, by simp, by simp, by simp⟩
  | cons c cs ih => exact ih.consLine c

/-- A line that ends with a line feed has no other one. -/
lemma count_of_getLast?_eq (hfeed : '\n' ∉ line.dropLast) (hlast : line.getLast? = some '\n') :
    line.count '\n' = 1 := by
  obtain ⟨body, rfl⟩ := List.getLast?_eq_some_iff.mp hlast
  rw [List.dropLast_concat] at hfeed
  simp [List.count_eq_zero.mpr hfeed]

lemma AreLinesOf.count_earlier {earlier later : List (List Char)}
    (h : AreLinesOf (earlier ++ line :: later) cs) :
    earlier.flatten.count '\n' = earlier.length := by
  have hone : ∀ line ∈ earlier, line.count '\n' = 1 := by
    intro line hline
    refine count_of_getLast?_eq (h.notMem_dropLast line (by simp [hline])) (h.getLast?_eq line ?_)
    rw [List.dropLast_append_of_ne_nil (by simp)]
    exact List.mem_append_left _ hline
  rw [List.count_flatten, List.map_congr_left hone]
  simp

/-! ### Line feeds among the bytes -/

/-- A byte of a character below 128 is the character, and no other character has such a byte. -/
lemma toNat_of_mem_utf8EncodeChar {c : Char} {b : UInt8} (h : b ∈ String.utf8EncodeChar c) :
    (c.toNat < 128 ∧ b.toNat = c.toNat) ∨ (128 ≤ c.toNat ∧ 128 ≤ b.toNat) := by
  have mod (n : Nat) : (UInt8.ofNat n).toNat = n % 256 := UInt8.toNat_ofNat'
  simp only [String.utf8EncodeChar] at h
  simp only [Char.toNat]
  split at h
  · left
    obtain rfl := List.eq_of_mem_singleton h
    rw [mod]
    omega
  right
  refine ⟨by omega, ?_⟩
  split at h
  · simp only [List.mem_cons, List.not_mem_nil, or_false] at h
    rcases h with rfl | rfl <;> rw [mod] <;> omega
  split at h
  · simp only [List.mem_cons, List.not_mem_nil, or_false] at h
    rcases h with rfl | rfl | rfl <;> rw [mod] <;> omega
  · simp only [List.mem_cons, List.not_mem_nil, or_false] at h
    rcases h with rfl | rfl | rfl | rfl <;> rw [mod] <;> omega

lemma count_utf8EncodeChar (c : Char) :
    (String.utf8EncodeChar c).count 0x0a = if c = '\n' then 1 else 0 := by
  split
  · next hc =>
    rw [hc]
    decide
  · next hc =>
    rw [List.count_eq_zero]
    intro hmem
    apply hc
    rw [← Char.toNat_inj]
    rcases toNat_of_mem_utf8EncodeChar hmem with ⟨-, h⟩ | ⟨-, h⟩
    · exact h.symm
    · exact absurd h (by decide)

/-- The byte of the line feed stands for a line feed wherever it is. -/
lemma count_utf8 (cs : List Char) : (utf8 cs).count 0x0a = cs.count '\n' := by
  induction cs with
  | nil => rfl
  | cons c cs ih =>
    rw [utf8] at ih
    rw [utf8, List.flatMap_cons, List.count_append, count_utf8EncodeChar, List.count_cons, ih,
      Nat.add_comm]
    simp

lemma notMem_utf8 (h : '\n' ∉ cs) : 0x0a ∉ utf8 cs := by
  rwa [← List.count_eq_zero, count_utf8, List.count_eq_zero]

/-- No line feed stands among the bytes of a line but at its end. -/
lemma count_take_utf8 (hfeed : '\n' ∉ line.dropLast) (hlt : offset < byteLength line) :
    ((utf8 line).take offset).count 0x0a = 0 := by
  rw [List.count_eq_zero]
  intro hmem
  rcases List.eq_nil_or_concat line with rfl | ⟨body, c, rfl⟩
  · simp at hlt
  · rw [List.concat_eq_append] at hlt hmem hfeed
    rw [List.dropLast_concat] at hfeed
    by_cases hc : c = '\n'
    · have hbody : offset ≤ (utf8 body).length := by
        rw [hc, byteLength_append] at hlt
        rw [length_utf8]
        exact Nat.le_of_lt_succ hlt
      rw [utf8_append, List.take_append_of_le_length hbody] at hmem
      exact notMem_utf8 hfeed (List.mem_of_mem_take hmem)
    · refine notMem_utf8 ?_ (List.mem_of_mem_take hmem)
      simp [hfeed, Ne.symm hc]

/-! ### The place of an offset -/

/-- The place is the one of an offset: its line has its number among the lines of the text, the lines
before it and the offset in it make up the offset, and that is the end of the line only at the end
of the text. The empty text has a place in an empty line. -/
structure Place.IsAt (p : Place) (cs : List Char) (offset : Nat) : Prop where
  of_nil : cs = [] → p = ⟨1, [], 0⟩
  exists_lines : cs ≠ [] → ∃ earlier later, lines cs = earlier ++ p.line :: later ∧
    p.number = earlier.length + 1 ∧ byteLength earlier.flatten + p.offset = offset
  offset_le : p.offset ≤ byteLength p.line
  offset_eq : p.offset = byteLength p.line → offset = byteLength cs

/-- The line of an offset in lines that reach so far. -/
lemma exists_placeIn_eq (number : Nat) (hne : ls ≠ []) (hle : offset ≤ byteLength ls.flatten) :
    ∃ earlier line later rest, ls = earlier ++ line :: later ∧
      offset = byteLength earlier.flatten + rest ∧
      placeIn number offset ls = ⟨number + earlier.length, line, rest⟩ ∧
      rest ≤ byteLength line ∧ (rest = byteLength line → later = []) := by
  fun_induction placeIn number offset ls with
  | case1 => exact absurd rfl hne
  | case2 number offset line =>
    exact ⟨[], line, [], offset, rfl, by simp, by simp, by simpa using hle, fun _ => rfl⟩
  | case3 number offset line later hlater hlt =>
    exact ⟨[], line, later, offset, rfl, by simp, by simp, hlt.le, fun heq => by omega⟩
  | case4 number offset line later hlater hge ih =>
    rw [List.flatten_cons, byteLength_append] at hle
    obtain ⟨earlier, line', later', rest, rfl, hrest, hplace, hbounds⟩ := ih hlater (by omega)
    refine ⟨line :: earlier, line', later', rest, rfl, ?_, ?_, hbounds⟩
    · rw [List.flatten_cons, byteLength_append]
      omega
    · rw [hplace, List.length_cons, Nat.add_assoc, Nat.add_comm 1]

/-- The place of an offset that is not past the end of the text. -/
lemma isAt_placeIn (hle : offset ≤ byteLength cs) : (placeIn 1 offset (lines cs)).IsAt cs offset := by
  by_cases hcs : cs = []
  · subst hcs
    obtain rfl : offset = 0 := Nat.le_zero.mp hle
    exact ⟨fun _ => rfl, fun h => absurd rfl h, Nat.le_refl 0, fun _ => rfl⟩
  · have hflatten := flatten_lines cs
    obtain ⟨earlier, line, later, rest, hlines, hoffset, hplace, hrest, hend⟩ :=
      exists_placeIn_eq 1 (lines_ne_nil hcs) (hflatten.symm ▸ hle)
    rw [hplace]
    refine ⟨fun h => absurd h hcs, fun _ => ⟨earlier, later, hlines, Nat.add_comm _ _, hoffset.symm⟩,
      hrest, fun heq => ?_⟩
    -- a place at the end of its line has no line behind it
    have hrest : rest = byteLength line := heq
    rw [← hflatten, hlines, hend heq, List.flatten_append, byteLength_append, hoffset, hrest]
    simp

/-- Every offset that is not past the end of the text has a place. -/
lemma exists_placeAt?_eq (hle : offset ≤ byteLength cs) :
    ∃ p, placeAt? cs offset = some p ∧ p.IsAt cs offset :=
  ⟨_, if_pos hle, isAt_placeIn hle⟩

lemma placeAt?_eq_none_iff : placeAt? cs offset = none ↔ byteLength cs < offset := by
  rw [placeAt?]
  split
  · next hle => exact iff_of_false (Option.some_ne_none _) (Nat.not_lt.mpr hle)
  · next hlt => exact iff_of_true rfl (Nat.not_le.mp hlt)

/-- The line of a place in the text, with as many line feeds before it as its number says. -/
lemma Place.IsAt.exists_append (h : p.IsAt cs offset) (hle : offset ≤ byteLength cs) :
    ∃ earlier later, cs = earlier ++ (p.line ++ later) ∧ offset = byteLength earlier + p.offset ∧
      p.number = 1 + earlier.count '\n' ∧ '\n' ∉ p.line.dropLast ∧ (p.line = [] → cs = []) ∧
      (p.offset = byteLength p.line → later = []) := by
  by_cases hcs : cs = []
  · subst hcs
    rw [h.of_nil rfl]
    exact ⟨[], [], rfl, Nat.le_zero.mp hle, rfl, by simp, fun _ => rfl, fun _ => rfl⟩
  obtain ⟨earlier, later, hlines, hnumber, hoffset⟩ := h.exists_lines hcs
  have hcut := areLinesOf_lines cs
  rw [hlines] at hcut
  have hcs : cs = earlier.flatten ++ (p.line ++ later.flatten) := by
    rw [← hcut.flatten_eq, List.flatten_append, List.flatten_cons]
  refine ⟨earlier.flatten, later.flatten, hcs, hoffset.symm, ?_, hcut.notMem_dropLast _ (by simp),
    fun hnil => absurd hnil (hcut.ne_nil _ (by simp)), fun heq => ?_⟩
  · rw [hnumber, hcut.count_earlier, Nat.add_comm]
  · -- a place at the end of its line is at the end of the text
    have hend := h.offset_eq heq
    rw [hcs, byteLength_append, byteLength_append] at hend
    exact byteLength_eq_zero.mp (by omega)

/-- The number of the line is one more than the line feeds before the offset, but for the end of a
text that ends with one. -/
lemma Place.IsAt.number_eq (h : p.IsAt cs offset) (hle : offset ≤ byteLength cs) :
    p.number = if offset = byteLength cs ∧ cs.getLast? = some '\n' then cs.count '\n'
      else 1 + ((utf8 cs).take offset).count 0x0a := by
  obtain ⟨earlier, later, rfl, rfl, hnumber, hfeed, hnil, hend⟩ := h.exists_append hle
  have htake : ((utf8 (earlier ++ (p.line ++ later))).take (byteLength earlier + p.offset)).count
      0x0a = earlier.count '\n' + ((utf8 p.line).take p.offset).count 0x0a := by
    rw [utf8_append, ← length_utf8 earlier, List.take_length_add_append, utf8_append,
      List.take_append_of_le_length (by rw [length_utf8]; exact h.offset_le), List.count_append,
      count_utf8]
  rcases Nat.lt_or_eq_of_le h.offset_le with hlt | heq
  · have hbefore : byteLength earlier + p.offset < byteLength (earlier ++ (p.line ++ later)) := by
      rw [byteLength_append, byteLength_append]
      omega
    rw [if_neg (fun hlast => hbefore.ne hlast.1), htake, count_take_utf8 hfeed hlt, hnumber,
      Nat.add_zero]
  · obtain rfl := hend heq
    have hwhole : (utf8 p.line).take p.offset = utf8 p.line := by
      rw [heq, ← length_utf8, List.take_length]
    rw [htake, hwhole, count_utf8, hnumber, heq, List.append_nil, ← byteLength_append]
    rcases List.eq_nil_or_concat p.line with hline | ⟨body, c, hline⟩
    · obtain rfl : earlier = [] := (List.append_eq_nil_iff.mp (hnil hline)).1
      simp [hline]
    · -- the last line feed of the text is that of the line
      rw [List.concat_eq_append] at hline
      rw [hline, List.dropLast_concat, ← List.count_eq_zero] at hfeed
      by_cases hc : c = '\n'
      · simp [hline, hfeed, hc, Nat.add_comm]
      · simp [hline, hfeed, hc]

/-! ### The walk over the lines -/

lemma Walk.step_of_lt (hle : w.start ≤ offset) (hlt : offset < w.start + byteLength line) :
    w.step offset line = .error (.found ⟨w.number, line, offset - w.start⟩) := by
  rw [step, if_neg (Nat.not_lt.mpr hle)]
  exact if_pos hlt

lemma Walk.step_of_le (hle : w.start + byteLength line ≤ offset) :
    w.step offset line = .ok ⟨w.number + 1, w.start + byteLength line,
      some ⟨w.number, line, offset - w.start⟩⟩ := by
  rw [step, if_neg (by omega)]
  exact if_neg (Nat.not_lt.mpr hle)

/-- A walk that begins before the offset finds its line, or passes all lines. -/
lemma foldlM_step_eq (hle : w.start ≤ offset) :
    ls.foldlM (Walk.step offset) w =
      if offset < w.start + byteLength ls.flatten then
        .error (.found (placeIn w.number (offset - w.start) ls))
      else .ok ⟨w.number + ls.length, w.start + byteLength ls.flatten,
        if ls = [] then w.last else some (placeIn w.number (offset - w.start) ls)⟩ := by
  induction ls generalizing w with
  | nil =>
    rw [if_neg (by simpa using hle)]
    rfl
  | cons line ls ih =>
    rw [List.foldlM_cons, List.flatten_cons, byteLength_append, ← Nat.add_assoc]
    rcases Nat.lt_or_ge offset (w.start + byteLength line) with hlt | hge
    · rw [Walk.step_of_lt hle hlt, if_pos (by omega), placeIn_cons_of_lt (by omega)]
      rfl
    · have hrest := ih (w := ⟨w.number + 1, w.start + byteLength line,
        some ⟨w.number, line, offset - w.start⟩⟩) hge
      have hplace : placeIn w.number (offset - w.start) (line :: ls) =
          if ls = [] then ⟨w.number, line, offset - w.start⟩
          else placeIn (w.number + 1) (offset - (w.start + byteLength line)) ls := by
        split
        · next hnil => rw [hnil, placeIn]
        · next hne => rw [placeIn_cons_of_le (by omega) hne, Nat.sub_sub]
      rw [Walk.step_of_le hge, hplace]
      refine Eq.trans hrest ?_
      split
      · next hlt =>
        have hne : ls ≠ [] := by
          rintro rfl
          simp at hlt
          omega
        rw [if_neg hne]
      · rw [List.length_cons, Nat.add_assoc, Nat.add_comm 1]
        simp [apply_ite some]

/-- The walk finds the place of the offset. It never reaches a line that begins behind the offset,
and the lines do not end before it is found. -/
lemma search_eq (cs : List Char) (offset : Nat) :
    search cs offset = (placeAt? cs offset).elim .past .found := by
  rw [search, placeAt?]
  rcases Nat.lt_or_ge (byteLength cs) offset with hpast | hle
  · rw [if_pos hpast, if_neg (Nat.not_le.mpr hpast)]
    rfl
  rw [if_neg (Nat.not_lt.mpr hle), if_pos hle, foldlM_step_eq (Nat.zero_le _), flatten_lines,
    Nat.zero_add]
  rcases Nat.lt_or_eq_of_le hle with hlt | heq
  · rw [if_pos hlt]
    rfl
  · rw [if_neg heq.not_lt]
    by_cases hcs : cs = []
    · subst hcs
      subst heq
      rfl
    · simp [heq, lines_ne_nil hcs]

/-- An offset has a place unless it is past the end of the text. The place is in the line that the
line feeds before it say, and the lines before that one and the offset in it make up the offset. The
walk over the lines finds this place: no line it reaches begins behind the offset, and it never ends
without a line. -/
theorem placeAt?_exact (cs : List Char) (offset : Nat) :
    AreLinesOf (lines cs) cs ∧
      (placeAt? cs offset = none ↔ byteLength cs < offset) ∧
      (offset ≤ byteLength cs → ∃ p, placeAt? cs offset = some p ∧ p.IsAt cs offset ∧
        p.number = if offset = byteLength cs ∧ cs.getLast? = some '\n' then cs.count '\n'
          else 1 + ((utf8 cs).take offset).count 0x0a) ∧
      search cs offset = (placeAt? cs offset).elim .past .found := by
  refine ⟨areLinesOf_lines cs, placeAt?_eq_none_iff, fun hle => ?_, search_eq cs offset⟩
  obtain ⟨p, hp, hat⟩ := exists_placeAt?_eq hle
  exact ⟨p, hp, hat, hat.number_eq hle⟩

/-- The second byte of a character, in the second line, and the end behind the last line feed. -/
theorem placeAt?_inside_character :
    4 ≤ byteLength "a;\né\n".toList ∧ 6 ≤ byteLength "a;\né\n".toList ∧
      (∃ p, placeAt? "a;\né\n".toList 4 = some p ∧ p.IsAt "a;\né\n".toList 4 ∧ p.number = 2) ∧
      ∃ p, placeAt? "a;\né\n".toList 6 = some p ∧ p.IsAt "a;\né\n".toList 6 ∧ p.number = 2 := by
  refine ⟨by decide, by decide, ?_, ?_⟩
  · obtain ⟨p, hp, hat, hnumber⟩ := (placeAt?_exact "a;\né\n".toList 4).2.2.1 (by decide)
    exact ⟨p, hp, hat, hnumber⟩
  · obtain ⟨p, hp, hat, hnumber⟩ := (placeAt?_exact "a;\né\n".toList 6).2.2.1 (by decide)
    exact ⟨p, hp, hat, hnumber⟩

end DeclLexer.Text
