import DeclLexer.Proofs.Diagnostic
import DeclLexer.Proofs.Lookup
import DeclLexer.Proofs.Number.Reading

/-!
# Diagnostics of any error

A diagnostic can be asked for any error and any source, whether the one was found in the other or
not. An offset past the end of the source has no line to show. Any other one has, and the caret is
below the line as it is shown: below the character at the offset, at the start of the line for an
offset inside a character or in the indentation, and never further than one column behind its end.
-/

namespace DeclLexer

open Text

variable {as bs cs ds past ahead line : List Char} {ls : List (List Char)} {f : Char → Char}
  {number offset seen n : Nat} {p : Place}

/-! ### Offsets between two characters -/

namespace Text

/-- The offset is between two characters of the text, or at one of its ends. -/
def IsBoundary (cs : List Char) (offset : Nat) : Prop :=
  ∃ past ahead, cs = past ++ ahead ∧ byteLength past = offset

/-- Of two ways to cut a text, the one with the longer first part goes on where the other ends. -/
lemma exists_append_of_byteLength_le (h : as ++ bs = cs ++ ds) (hle : byteLength as ≤ byteLength cs) :
    ∃ mid, cs = as ++ mid ∧ bs = mid ++ ds := by
  rcases List.append_eq_append_iff.mp h with ⟨mid, hcs, hbs⟩ | ⟨mid, has, hds⟩
  · exact ⟨mid, hcs, hbs⟩
  · have hmid : mid = [] := by
      rw [has, byteLength_append] at hle
      exact byteLength_eq_zero.mp (by omega)
    subst hmid
    exact ⟨[], by simpa using has.symm, by simpa using hds.symm⟩

/-- Characters are counted up to a place between two of them. -/
lemma exists_of_charsBefore?_eq (h : charsBefore? seen offset cs = some n) :
    ∃ before after, cs = before ++ after ∧ byteLength before = offset ∧
      n = seen + before.length := by
  induction cs generalizing seen offset with
  | nil =>
    rw [charsBefore?] at h
    split at h
    · next hzero => exact ⟨[], [], rfl, hzero.symm, (Option.some.inj h).symm⟩
    · cases h
  | cons c cs ih =>
    rw [charsBefore?] at h
    split at h
    · next hzero => exact ⟨[], c :: cs, rfl, hzero.symm, (Option.some.inj h).symm⟩
    split at h
    · next hsize =>
      obtain ⟨before, after, rfl, hoffset, rfl⟩ := ih h
      refine ⟨c :: before, after, rfl, ?_, ?_⟩
      · rw [byteLength_cons]
        omega
      · rw [List.length_cons]
        omega
    · cases h

/-- Characters are counted up to an offset exactly when it is between two of them. -/
lemma isBoundary_iff : IsBoundary cs offset ↔ (charsBefore? 0 offset cs).isSome := by
  constructor
  · rintro ⟨past, ahead, rfl, rfl⟩
    rw [charsBefore?_append, Option.isSome_some]
  · intro h
    obtain ⟨n, hn⟩ := Option.isSome_iff_exists.mp h
    obtain ⟨before, after, rfl, hoffset, -⟩ := exists_of_charsBefore?_eq hn
    exact ⟨before, after, rfl, hoffset⟩

instance : Decidable (IsBoundary cs offset) :=
  decidable_of_iff _ isBoundary_iff.symm

/-- A place between two characters of the text is one between two characters of its line. -/
lemma Place.IsAt.exists_of_eq_append (h : p.IsAt (past ++ ahead) (byteLength past)) :
    ∃ before after later, p.line = before ++ after ∧ byteLength before = p.offset ∧
      ahead = after ++ later ∧ (after = [] → later = []) := by
  obtain ⟨earlier, later, heq, hoffset, -, -, -, hend⟩ := h.exists_append (by simp)
  obtain ⟨before, rfl, hline⟩ := exists_append_of_byteLength_le heq.symm (by omega)
  have hbefore : byteLength before = p.offset := by
    rw [byteLength_append] at hoffset
    omega
  obtain ⟨after, hafter, hahead⟩ :=
    exists_append_of_byteLength_le hline.symm (by rw [hbefore]; exact h.offset_le)
  refine ⟨before, after, later, hafter, hbefore, hahead, fun hnil => hend ?_⟩
  rw [hafter, hnil, List.append_nil, hbefore]

lemma Place.IsAt.isBoundary (h : p.IsAt cs offset) (hle : offset ≤ byteLength cs)
    (hline : IsBoundary p.line p.offset) : IsBoundary cs offset := by
  obtain ⟨earlier, later, rfl, rfl, -⟩ := h.exists_append hle
  obtain ⟨before, after, hline, hoffset⟩ := hline
  exact ⟨earlier ++ before, after ++ later, by simp [hline], by simp [hoffset]⟩

end Text

/-! ### Tabs -/

namespace Excerpt

lemma untabbed_untabbed (line : List Char) : untabbed (untabbed line) = untabbed line := by
  have hspace (c : Char) : (if (if c = '\t' then ' ' else c) = '\t' then ' '
      else if c = '\t' then ' ' else c) = if c = '\t' then ' ' else c := by
    by_cases hc : c = '\t' <;> simp [hc]
  simp only [untabbed, List.map_map, Function.comp_def, hspace]

lemma ofPlace_untabbed (p : Place) : ofPlace { p with line := untabbed p.line } = ofPlace p := by
  simp only [ofPlace, untabbed_untabbed]

/-- The excerpt of an offset does not change when tabs become spaces. -/
lemma at?_untabbed (cs : List Char) (offset : Nat) : at? (untabbed cs) offset = at? cs offset := by
  have hfeed (c : Char) : (if c = '\t' then ' ' else c) = '\n' ↔ c = '\n' := by
    by_cases hc : c = '\t' <;> simp [hc]
  rw [at?, untabbed, placeAt?_map utf8Size_untab hfeed, Option.map_map, at?]
  congr 1
  funext p
  exact ofPlace_untabbed p

lemma caret_ofPlace (p : Place) :
    (ofPlace p).caret = (charsBefore? 0 p.offset p.line).getD 0 - indentation (untabbed p.line) := by
  rw [ofPlace, untabbed, charsBefore?_map utf8Size_untab]

/-- A line begins with the spaces of its indentation. -/
lemma eq_replicate_append (line : List Char) :
    line = List.replicate (indentation line) ' ' ++ line.drop (indentation line) := by
  have hspaces : line.takeWhile (· == ' ') = List.replicate (indentation line) ' ' :=
    List.eq_replicate_of_mem fun c hc => by simpa using List.mem_takeWhile_imp hc
  rw [← hspaces, drop_indentation, List.takeWhile_append_dropWhile]

lemma byteLength_spaces (n : Nat) : byteLength (List.replicate n ' ') = n := by
  induction n with
  | zero => rfl
  | succ n ih =>
    rw [List.replicate_succ, byteLength_cons, ih, Nat.add_comm]
    rfl

/-- The indentation has as many bytes as characters, so that it ends between two of them. -/
lemma dropBytes?_indentation (line : List Char) :
    dropBytes? (indentation line) line = some (line.drop (indentation line)) := by
  have hdrop := dropBytes?_append (List.replicate (indentation line) ' ')
    (line.drop (indentation line))
  rwa [byteLength_spaces, ← eq_replicate_append] at hdrop

end Excerpt

/-! ### Below the line -/

/-- The column is that of an offset in the text `shown`, which is the line of its place `p` as it is
shown, without `indentation` spaces. An offset inside a character has the first column. One between
two characters has the column of the character behind it, and the first one if that is in the
indentation. -/
structure IsCaret (source : List Char) (offset : Nat) (p : Place) (indentation : Nat)
    (shown : List Char) (column : Nat) : Prop where
  inside : ¬ IsBoundary source offset → column = 0
  between : ∀ past ahead, source = past ++ ahead → byteLength past = offset →
    ∃ before after, p.line = before ++ after ∧ byteLength before = p.offset ∧
      column = before.length - indentation ∧
      ∀ c, indentation ≤ before.length → ahead.head? = some c →
        shown[column]? = some (if c = '\t' then ' ' else c)
  le_length : column ≤ shown.length

/-- Behind the indentation, the character of a line at a column is the one that is shown there. -/
lemma Excerpt.getElem?_text {before after : List Char} {c : Char} (hline : p.line = before ++ c :: after)
    (hindent : indentation (untabbed p.line) ≤ before.length) :
    (ofPlace p).text[before.length - indentation (untabbed p.line)]? =
      some (if c = '\t' then ' ' else c) := by
  have htext : (ofPlace p).text = (untabbed p.line).drop (indentation (untabbed p.line)) := rfl
  have hlength : before.length = (untabbed before).length := (length_untabbed before).symm
  rw [htext, List.getElem?_drop, Nat.add_sub_cancel' hindent, hline, untabbed_append, hlength,
    List.getElem?_append_right (Nat.le_refl _), Nat.sub_self]
  rfl

lemma isCaret_ofPlace (h : p.IsAt cs offset) (hle : offset ≤ byteLength cs) :
    IsCaret cs offset p (Excerpt.indentation (Excerpt.untabbed p.line)) (Excerpt.ofPlace p).text
      (Excerpt.ofPlace p).caret := by
  rw [Excerpt.caret_ofPlace]
  constructor
  case inside =>
    intro hinside
    have hnone : charsBefore? 0 p.offset p.line = none := by
      rw [← Option.not_isSome_iff_eq_none, ← isBoundary_iff]
      exact fun hline => hinside (h.isBoundary hle hline)
    rw [hnone, Option.getD_none, Nat.zero_sub]
  case between =>
    rintro past ahead rfl rfl
    obtain ⟨before, after, later, hline, hbefore, rfl, hend⟩ := h.exists_of_eq_append
    have hcount : charsBefore? 0 p.offset p.line = some before.length := by
      rw [hline, ← hbefore, charsBefore?_append, Nat.zero_add]
    rw [hcount, Option.getD_some]
    refine ⟨before, after, hline, hbefore, rfl, fun c hindent hc => ?_⟩
    cases after with
    | nil => simp [hend rfl] at hc
    | cons d rest =>
      obtain rfl : d = c := by simpa using hc
      exact Excerpt.getElem?_text hline hindent
  case le_length =>
    have hcolumn : (charsBefore? 0 p.offset p.line).getD 0 ≤ p.line.length := by
      cases hcount : charsBefore? 0 p.offset p.line with
      | none => exact Nat.zero_le _
      | some n =>
        obtain ⟨before, after, hline, -, rfl⟩ := exists_of_charsBefore?_eq hcount
        simp [hline]
    simp only [Excerpt.ofPlace, List.length_drop, Excerpt.length_untabbed]
    exact Nat.sub_le_sub_right hcolumn _

/-! ### Diagnostics -/

/-- A diagnostic without an excerpt gives the offset. -/
lemma ScanError.diagnostic_of_at?_eq_none {e : ScanError} {source : String}
    (h : Excerpt.at? source.toList e.position.offset.toNat = none) :
    e.diagnostic source = String.ofList
      ([e.heading.toList, "-> ".toList ++ e.position.file.toList,
        "   at offset ".toList ++ natDigits e.position.offset.toNat].flatMap (· ++ ['\n'])) := by
  rw [diagnostic, diagnosticLines, h]

/-- A diagnostic with an excerpt ends with its caret. -/
lemma ScanError.exists_toList_diagnostic_eq {e : ScanError} {source : String} {x : Excerpt}
    (h : Excerpt.at? source.toList e.position.offset.toNat = some x) :
    ∃ text, (e.diagnostic source).toList = text ++ ['^'] ++ ['\n'] := by
  obtain ⟨gutter, code, pointer, hdiagnostic, hshows⟩ := exists_showsAt h
  refine ⟨[e.heading.toList, "-> ".toList ++ e.position.file.toList, gutter, code].flatMap
    (· ++ ['\n']) ++ (gutter ++ ' ' :: List.replicate x.caret '-'), ?_⟩
  refine (congrArg String.toList hdiagnostic).trans (String.toList_ofList.trans ?_)
  rw [hshows.pointer_eq]
  simp

/-- A text that ends with a number does not end with a caret. -/
lemma not_suffix_caret (front text : List Char) (n : Nat) :
    ¬ front ++ natDigits n ++ ['\n'] <:+ text ++ ['^'] ++ ['\n'] := by
  rintro ⟨start, h⟩
  have hcaret : start ++ (front ++ natDigits n) = text ++ ['^'] := by
    rw [← List.append_assoc] at h
    exact List.append_cancel_right h
  have hlast : (natDigits n).getLast? = some '^' := by
    have := congrArg List.getLast? hcaret
    rwa [← List.append_assoc, List.getLast?_append_of_ne_nil _ (natDigits_ne_nil n),
      List.getLast?_concat] at this
  exact absurd (isDigit_of_mem_natDigits (List.mem_of_getLast? hlast)) (by decide)

lemma Excerpt.at?_eq_some (h : placeAt? cs offset = some p) : at? cs offset = some (ofPlace p) := by
  rw [at?, h, Option.map_some]

/-- An offset past the end of the source has no excerpt. -/
lemma Excerpt.at?_eq_none (hlt : byteLength cs < offset) : at? cs offset = none := by
  rw [at?, placeAt?_eq_none_iff.mpr hlt, Option.map_none]

/-- The diagnostic of any error is safe for any source. It has no line, and ends with the offset,
exactly when the offset is past the end of the source. Any other one shows the line that is found for
the offset, without the spaces at its start, which are cut off between two characters, and its caret
is the one of the offset in this text. Tabs are shown as spaces, so that a diagnostic is the same
with spaces for tabs. -/
theorem diagnostic_aligned (e : ScanError) (source : String) :
    ("   at offset ".toList ++ natDigits e.position.offset.toNat ++ ['\n'] <:+
        (e.diagnostic source).toList ↔ source.utf8ByteSize < e.position.offset.toNat) ∧
      (source.utf8ByteSize < e.position.offset.toNat →
        e.diagnostic source = String.ofList
          ([e.heading.toList, "-> ".toList ++ e.position.file.toList,
            "   at offset ".toList ++ natDigits e.position.offset.toNat].flatMap (· ++ ['\n']))) ∧
      (e.position.offset.toNat ≤ source.utf8ByteSize →
        ∃ p indentation shown column gutter code pointer,
          placeAt? source.toList e.position.offset.toNat = some p ∧
          Excerpt.untabbed p.line = List.replicate indentation ' ' ++ shown ∧
          Stops (· == ' ') shown ∧
          dropBytes? indentation (Excerpt.untabbed p.line) = some shown ∧
          e.diagnostic source = String.ofList
            ([e.heading.toList, "-> ".toList ++ e.position.file.toList, gutter, code,
              pointer].flatMap (· ++ ['\n'])) ∧
          ShowsAt p.number (trimEnd shown) column gutter code pointer ∧
          IsCaret source.toList e.position.offset.toNat p indentation shown column) ∧
      e.diagnostic (String.ofList (Excerpt.untabbed source.toList)) = e.diagnostic source := by
  rw [← byteLength_toList]
  have hpast (hlt : byteLength source.toList < e.position.offset.toNat) :=
    ScanError.diagnostic_of_at?_eq_none (Excerpt.at?_eq_none hlt)
  refine ⟨⟨fun hsuffix => ?_, fun hlt => ?_⟩, hpast, fun hle => ?_, ?_⟩
  · by_contra hnot
    obtain ⟨p, hp, -⟩ := exists_placeAt?_eq (Nat.not_lt.mp hnot)
    obtain ⟨text, htext⟩ := ScanError.exists_toList_diagnostic_eq (Excerpt.at?_eq_some hp)
    rw [htext] at hsuffix
    exact not_suffix_caret _ _ _ hsuffix
  · rw [hpast hlt, String.toList_ofList]
    exact ⟨e.heading.toList ++ '\n' :: ("-> ".toList ++ e.position.file.toList ++ ['\n']), by simp⟩
  · obtain ⟨p, hp, hat⟩ := exists_placeAt?_eq hle
    obtain ⟨gutter, code, pointer, hdiagnostic, hshows⟩ :=
      ScanError.exists_showsAt (Excerpt.at?_eq_some hp)
    refine ⟨p, _, _, _, gutter, code, pointer, hp, Excerpt.eq_replicate_append _, ?_,
      Excerpt.dropBytes?_indentation _, hdiagnostic, hshows, isCaret_ofPlace hat hle⟩
    rw [Excerpt.drop_indentation]
    exact stops_dropWhile
  · have htext : (String.ofList (Excerpt.untabbed source.toList)).toList =
        Excerpt.untabbed source.toList := String.toList_ofList
    rw [ScanError.diagnostic, ScanError.diagnosticLines, htext, Excerpt.at?_untabbed]
    rfl

/-- An offset inside the character behind a tab, and one past the end. -/
theorem diagnostic_aligned_inside_character :
    (Position.ofBytes "f" 2).offset.toNat ≤ "\té;".utf8ByteSize ∧
      "\té;".utf8ByteSize < (Position.ofBytes "f" 9).offset.toNat ∧
      (∃ (p : Place) (shown gutter code pointer : List Char),
        ScanError.diagnostic ⟨.emptySource, .ofBytes "f" 2⟩ "\té;" = String.ofList
          (["Error: EmptySource (load a source before scanning)".toList, "-> f".toList, gutter, code,
            pointer].flatMap (· ++ ['\n'])) ∧
        ShowsAt p.number (trimEnd shown) 0 gutter code pointer) ∧
      "   at offset 9\n".toList <:+
        (ScanError.diagnostic ⟨.emptySource, .ofBytes "f" 9⟩ "\té;").toList := by
  have hle : (Position.ofBytes "f" 2).offset.toNat ≤ "\té;".utf8ByteSize := by decide +kernel
  have hlt : "\té;".utf8ByteSize < (Position.ofBytes "f" 9).offset.toNat := by decide +kernel
  obtain ⟨-, -, hshown, -⟩ := diagnostic_aligned ⟨.emptySource, .ofBytes "f" 2⟩ "\té;"
  obtain ⟨p, indentation, shown, column, gutter, code, pointer, -, -, -, -, hdiagnostic, hshows,
    hcaret⟩ := hshown hle
  have hcolumn : column = 0 := hcaret.inside (by decide +kernel)
  refine ⟨hle, hlt, ⟨p, shown, gutter, code, pointer, hdiagnostic, hcolumn ▸ hshows⟩, ?_⟩
  exact (diagnostic_aligned ⟨.emptySource, .ofBytes "f" 9⟩ "\té;").1.mpr hlt

end DeclLexer
