import DeclLexer.Diagnostic
import DeclLexer.Proofs.Fault
import DeclLexer.Proofs.Text.Line

/-!
# Diagnostics point at the fault

The diagnostic of a scan that failed shows the line of the fault, and its caret stands below the
character that the fault begins with. No fault lies in the indentation of a line, so that taking it
away moves the text and the caret alike.
-/

namespace DeclLexer

open Text

/-! ### Lines as they are shown -/

/-- The characters that indent a line. -/
def isIndent (c : Char) : Bool :=
  c == ' ' || c == '\t'

/-- The number of characters that indent a line. -/
def indent (line : List Char) : Nat :=
  (line.takeWhile isIndent).length

/-- A line as it is shown: with tabs as spaces, and without spaces at its start and white space at
its end. -/
def shownLine (line : List Char) : List Char :=
  trimEnd ((Excerpt.untabbed line).dropWhile (· == ' '))

/-- The column of a place in its line, as it is shown. -/
def caretColumn (before after : List Char) : Nat :=
  before.length - indent (before ++ after)

/-- Three lines show a text under its number, and a caret below one of its columns: the bars stand
in the same column, and the caret two columns and as many more behind it as the text has before the
place it is below. -/
structure ShowsAt (number : Nat) (text : List Char) (column : Nat)
    (gutter code pointer : List Char) : Prop where
  gutter_eq : gutter = List.replicate ((natDigits number).length + 1) ' ' ++ ['|']
  code_eq : code = natDigits number ++ [' ', '|', ' '] ++ text
  pointer_eq : pointer = gutter ++ ' ' :: List.replicate column '-' ++ ['^']
  aligned : ∃ bar : Nat, gutter[bar]? = some '|' ∧ code[bar]? = some '|' ∧
    pointer[bar]? = some '|' ∧ pointer[bar + 2 + column]? = some '^' ∧
    ∀ i, code[bar + 2 + i]? = text[i]?

/-- The three lines are aligned as they are put together. -/
lemma ShowsAt.of_eq (number : Nat) (text : List Char) (column : Nat) :
    ShowsAt number text column (List.replicate ((natDigits number).length + 1) ' ' ++ ['|'])
      (natDigits number ++ [' ', '|', ' '] ++ text)
      (List.replicate ((natDigits number).length + 1) ' ' ++ ['|'] ++
        ' ' :: List.replicate column '-' ++ ['^']) := by
  have hgutter : (List.replicate ((natDigits number).length + 1) ' ').length =
      (natDigits number).length + 1 := List.length_replicate
  refine ⟨rfl, rfl, rfl, (natDigits number).length + 1, ?_, ?_, ?_, ?_, ?_⟩
  · rw [List.getElem?_append_right hgutter.le, hgutter, Nat.sub_self, List.getElem?_cons_zero]
  · simp
  · simp
  · have hcolumn : (natDigits number).length + 1 + 2 + column =
        (List.replicate ((natDigits number).length + 1) ' ' ++ ['|'] ++
          ' ' :: List.replicate column '-').length := by
      simp only [List.length_append, List.length_replicate, List.length_cons, List.length_nil]
      omega
    rw [hcolumn, List.getElem?_concat_length]
  · intro i
    have hcolumn : (natDigits number).length + 1 + 2 + i =
        (natDigits number ++ [' ', '|', ' ']).length + i := by
      simp only [List.length_append, List.length_cons, List.length_nil]
    rw [hcolumn, List.getElem?_append_right (Nat.le_add_right _ _), Nat.add_sub_cancel_left]

section

variable {line before after later earlier : List Char} {number : Nat}

namespace Excerpt

lemma untabbed_append (cs ds : List Char) : untabbed (cs ++ ds) = untabbed cs ++ untabbed ds :=
  List.map_append

lemma length_untabbed (cs : List Char) : (untabbed cs).length = cs.length :=
  List.length_map _

/-- A tab and a space have one byte each. -/
lemma utf8Size_untab (c : Char) : (if c = '\t' then ' ' else c).utf8Size = c.utf8Size := by
  split
  · next hc =>
    rw [hc]
    rfl
  · rfl

lemma byteLength_untabbed (cs : List Char) : byteLength (untabbed cs) = byteLength cs :=
  byteLength_map utf8Size_untab cs

/-- The spaces a line starts with were spaces or tabs. -/
lemma indentation_untabbed (line : List Char) : indentation (untabbed line) = indent line := by
  have hspace : (fun c => c == ' ') ∘ (fun c : Char => if c = '\t' then ' ' else c) = isIndent := by
    funext c
    by_cases hc : c = '\t' <;> simp [isIndent, hc]
  rw [indentation, untabbed, List.takeWhile_map, List.length_map, hspace, indent]

lemma drop_indentation (line : List Char) :
    line.drop (indentation line) = line.dropWhile (· == ' ') := by
  have hline := List.takeWhile_append_dropWhile (p := (· == ' ')) (l := line)
  calc line.drop (indentation line)
      = (line.takeWhile (· == ' ') ++ line.dropWhile (· == ' ')).drop (indentation line) := by
        rw [hline]
    _ = line.dropWhile (· == ' ') := List.drop_left

/-- The excerpt of the place between two parts of a line, with the line feed behind it. -/
def ofLine (number : Nat) (before after later : List Char) : Excerpt where
  number := number
  text := (untabbed (before ++ after)).dropWhile (· == ' ') ++ later.take 1
  caret := caretColumn before after

lemma ofPlace_line (hlater : Continues (· == '\n') later) :
    ofPlace ⟨number, before ++ after ++ later.take 1, byteLength before⟩ =
      ofLine number before after later := by
  have hfeed : untabbed (later.take 1) = later.take 1 ∧ Stops (· == ' ') (later.take 1) := by
    cases later with
    | nil => exact ⟨rfl, stops_nil⟩
    | cons c cs =>
      obtain rfl : c = '\n' := by simpa using hlater
      exact ⟨rfl, stops_cons.mpr rfl⟩
  have hstops : Stops (· == ' ')
      ((untabbed (before ++ after)).dropWhile (· == ' ') ++ later.take 1) :=
    stops_dropWhile.append_stops hfeed.2
  have hindent : indentation (untabbed (before ++ after ++ later.take 1)) =
      indent (before ++ after) := by
    rw [untabbed_append, hfeed.1, indentation, takeWhile_append_of_stops hstops, ← indentation,
      indentation_untabbed]
  have hcolumn : charsBefore? 0 (byteLength before) (untabbed (before ++ after ++ later.take 1)) =
      some before.length := by
    rw [List.append_assoc, untabbed_append, ← byteLength_untabbed, charsBefore?_append,
      length_untabbed, Nat.zero_add]
  have htext : (untabbed (before ++ after ++ later.take 1)).drop (indent (before ++ after)) =
      (untabbed (before ++ after)).dropWhile (· == ' ') ++ later.take 1 := by
    rw [← hindent, drop_indentation, untabbed_append, hfeed.1, dropWhile_append_of_stops hstops]
  simp only [ofPlace, hcolumn, hindent, htext, Option.getD_some, ofLine, caretColumn]

lemma at?_of_inLine (h : InLine earlier before after later)
    (hne : before ++ (after ++ later) ≠ []) :
    at? (earlier ++ (before ++ (after ++ later))) (byteLength (earlier ++ before)) =
      some (ofLine (1 + earlier.count '\n') before after later) := by
  rw [at?, placeAt?_of_inLine h hne, Option.map_some, ofPlace_line h.stops]

/-- The lines of an excerpt show its text. -/
lemma lines_showsAt (x : Excerpt) :
    ∃ gutter code pointer, x.lines = [gutter, code, pointer] ∧
      ShowsAt x.number (trimEnd x.text) x.caret gutter code pointer := by
  have hbar : ['|'].leftpad ((natDigits x.number).length + 2) ' ' =
      List.replicate ((natDigits x.number).length + 1) ' ' ++ ['|'] := rfl
  have hcaret : ['^'].leftpad (x.caret + 1) '-' = List.replicate x.caret '-' ++ ['^'] := rfl
  refine ⟨_, _, _, ?_, .of_eq x.number (trimEnd x.text) x.caret⟩
  simp only [lines, hbar, hcaret, List.append_assoc, List.cons_append, List.nil_append]

/-! ### Below the caret -/

lemma head?_untabbed (hafter : Stops (· == '\t') after) : (untabbed after).head? = after.head? := by
  cases after with
  | nil => rfl
  | cons c cs =>
    have hc : c ≠ '\t' := by simpa using hafter
    simp [untabbed, hc]

lemma isWhiteSpace_of_untabbed (h : ∀ c ∈ untabbed after, isWhiteSpace c) :
    ∀ c ∈ after, isWhiteSpace c := by
  intro c hc
  by_cases htab : c = '\t'
  · rw [htab]
    decide
  · have := h _ (List.mem_map_of_mem hc)
    rwa [if_neg htab] at this

/-- Without the indentation, as many characters stand before a place as its column says. -/
lemma exists_dropWhile_untabbed (h : indent (before ++ after) ≤ before.length) :
    ∃ front, front.length = caretColumn before after ∧
      (untabbed (before ++ after)).dropWhile (· == ' ') = front ++ untabbed after := by
  refine ⟨(untabbed before).drop (indent (before ++ after)), ?_, ?_⟩
  · rw [List.length_drop, length_untabbed, caretColumn]
  · rw [← drop_indentation, indentation_untabbed, untabbed_append,
      List.drop_append_of_le_length (by rwa [length_untabbed])]

end Excerpt

/-- In the column of a place stands the character behind it. -/
lemma getElem?_shownLine (hafter : Stops (· == '\t') after)
    (hindent : indent (before ++ after) ≤ before.length)
    (hcolumn : caretColumn before after < (shownLine (before ++ after)).length) :
    ∃ c, after.head? = some c ∧
      (shownLine (before ++ after))[caretColumn before after]? = some c := by
  obtain ⟨front, hfront, heq⟩ := Excerpt.exists_dropWhile_untabbed hindent
  obtain ⟨tail, htail, -⟩ := exists_trimEnd (front ++ Excerpt.untabbed after)
  rw [shownLine, heq] at hcolumn ⊢
  have hget : (trimEnd (front ++ Excerpt.untabbed after))[caretColumn before after]? =
      after.head? := by
    have hprefix := @List.getElem?_append_left _ _ tail _ hcolumn
    rw [← htail, List.getElem?_append_right hfront.le, hfront, Nat.sub_self,
      ← List.head?_eq_getElem?, Excerpt.head?_untabbed hafter] at hprefix
    exact hprefix.symm
  rw [hget]
  rw [List.getElem?_eq_getElem hcolumn] at hget
  exact ⟨_, hget.symm, hget.symm⟩

/-- A place behind the end of the line as it is shown has nothing but white space behind it. -/
lemma isWhiteSpace_of_le_caretColumn (hindent : indent (before ++ after) ≤ before.length)
    (hcolumn : (shownLine (before ++ after)).length ≤ caretColumn before after) :
    ∀ c ∈ after, isWhiteSpace c := by
  obtain ⟨front, hfront, heq⟩ := Excerpt.exists_dropWhile_untabbed hindent
  obtain ⟨tail, htail, hspace⟩ := exists_trimEnd (front ++ Excerpt.untabbed after)
  rw [shownLine, heq, ← hfront] at hcolumn
  -- what was trimmed reaches back to the caret
  have hsuffix : Excerpt.untabbed after <:+ tail := by
    have hlength := congrArg List.length htail
    rw [List.length_append, List.length_append] at hlength
    refine List.suffix_of_suffix_length_le (List.suffix_append front _) ?_ (by omega)
    exact htail ▸ List.suffix_append _ tail
  exact Excerpt.isWhiteSpace_of_untabbed fun c hc => hspace c (hsuffix.subset hc)

end

/-! ### The line of a fault -/

namespace Cause

variable {read ahead : List Char} {cause : Cause}

/-- What has been taken of a lexeme is in the line of the fault. -/
lemma Describes.notMem_newline (h : cause.Describes read ahead) : '\n' ∉ read := by
  have hnotMem {p : Char → Bool} {cs : List Char} (hp : p '\n' = false) (hcs : ∀ c ∈ cs, p c) :
      '\n' ∉ cs := by
    intro hmem
    have := hcs _ hmem
    rw [hp] at this
    cases this
  cases cause with
  | emptySource => exact h.elim
  | unrecognizedCharacter c => exact h.1 ▸ List.not_mem_nil
  | invalidNumericLiteral literal found =>
    obtain ⟨-, -, -, ⟨-, -, hread⟩ | ⟨whole, rfl, -, hwhole, hfraction⟩⟩ := h
    · exact hnotMem rfl hread
    · simp [hnotMem rfl hwhole, hnotMem rfl hfraction]
  | numberOutOfRange token => exact h.1 ▸ List.not_mem_nil
  | unterminatedString found =>
    have hread : ∃ opening body, read = opening :: body ∧ isQuote opening ∧
        ∀ d ∈ body, isBodyChar d := by
      cases found with
      | none => exact h.2
      | some c => exact h.2.2
    obtain ⟨opening, body, rfl, hopening, hbody⟩ := hread
    rw [List.mem_cons, not_or]
    constructor
    · rintro rfl
      cases hopening
    · exact hnotMem rfl hbody

/-- The character at a fault takes one column. -/
lemma Describes.stops_tab (hstops : Stops isBlank (read ++ ahead))
    (h : cause.Describes read ahead) : Stops (· == '\t') ahead := by
  have htab (c : Char) (hc : c == '\t') : isBlank c := by
    rw [beq_iff_eq] at hc
    rw [hc]
    rfl
  cases cause with
  | emptySource => exact h.elim
  | unrecognizedCharacter c =>
    obtain ⟨rfl, -⟩ := h
    exact hstops.mono htab
  | invalidNumericLiteral literal found =>
    obtain ⟨⟨cs, rfl⟩, -, hfound, -⟩ := h
    rw [stops_cons, beq_eq_false_iff_ne]
    rintro rfl
    cases hfound
  | numberOutOfRange token =>
    obtain ⟨rfl, -⟩ := h
    exact hstops.mono htab
  | unterminatedString found =>
    cases found with
    | none => exact h.1 ▸ stops_nil
    | some c =>
      obtain ⟨hc, ⟨cs, rfl⟩, -⟩ := h
      rcases hc with rfl | rfl <;> exact stops_cons.mpr rfl

end Cause

/-- The line of a byte offset in a source is `before ++ after`, and the offset is between the
two. -/
structure IsLineAt (source : String) (offset : Nat) (earlier before after later : List Char) :
    Prop where
  source_eq : source.toList = earlier ++ (before ++ (after ++ later))
  offset_eq : offset = byteLength (earlier ++ before)
  inLine : InLine earlier before after later

section

variable {file source : String} {e : ScanError} {offset : Nat}
  {earlier before after later front read : List Char}

lemma indent_le (h : Stops isIndent (read ++ after)) :
    indent (front ++ read ++ after) ≤ (front ++ read).length := by
  rw [indent, List.append_assoc, takeWhile_append_of_stops (stops_dropWhile.append_stops h),
    List.length_append]
  exact Nat.le_add_right_of_le (List.takeWhile_prefix isIndent).length_le

/-- A fault is behind the indentation of its line, and no tab stands there. -/
lemma exists_isLineAt (hsize : source.utf8ByteSize < 2 ^ 32) (h : tokenize file source = .error e) :
    e.position.file = file ∧ ∃ earlier before after later,
      IsLineAt source e.position.offset.toNat earlier before after later ∧
      before ++ (after ++ later) ≠ [] ∧ indent (before ++ after) ≤ before.length ∧
      Stops (· == '\t') after := by
  obtain ⟨L, c, rest, fault, hstop, htext, rfl⟩ := tokenize_eq_error_iff.mp h
  obtain ⟨read, ahead, heq, hbytes, hcause⟩ := hstop.fails.isIn hstop.notBlank
  -- the line of the lexeme is that of the fault, as no line feed has been taken with the lexeme
  obtain ⟨earlier, front, after, later, hpast, rfl, hin⟩ := exists_inLine L.text ahead
  have hsource : source.toList = earlier ++ (front ++ read ++ (after ++ later)) := by
    rw [← htext, heq, hpast]
    simp only [List.append_assoc]
  have hplace : byteLength L.text + fault.bytes = byteLength (earlier ++ (front ++ read)) := by
    rw [hpast, hbytes]
    simp only [byteLength_append, Nat.add_assoc]
  have hblank : Stops isBlank (read ++ (after ++ later)) := heq ▸ stops_cons.mpr hstop.notBlank
  refine ⟨rfl, earlier, front ++ read, after, later, ⟨hsource, ?_, ?_⟩, ?_, ?_, ?_⟩
  · rw [hstop.toNat_offset htext hsize, hplace]
  · have hbefore : '\n' ∉ front ++ read := by
      rw [List.mem_append, not_or]
      exact ⟨hin.notMem_before, hcause.notMem_newline⟩
    exact ⟨hin.starts, hbefore, hin.notMem_after, hin.stops⟩
  · rw [List.append_assoc, ← heq]
    simp
  · -- the lexeme begins with no blank, so that the indentation ends before it
    apply indent_le
    rw [← List.append_assoc] at hblank
    exact hblank.of_append.mono fun d hd => by simp_all [isIndent, isBlank]
  · exact (hcause.stops_tab hblank).of_append

/-- The excerpt of the line of an offset. -/
lemma IsLineAt.excerpt_eq (h : IsLineAt source offset earlier before after later)
    (hne : before ++ (after ++ later) ≠ []) :
    Excerpt.at? source.toList offset =
      some (.ofLine (1 + (earlier ++ before).count '\n') before after later) := by
  have hcount : (earlier ++ before).count '\n' = earlier.count '\n' := by
    rw [List.count_append, List.count_eq_zero.mpr h.inLine.notMem_before, Nat.add_zero]
  rw [h.source_eq, h.offset_eq, hcount, Excerpt.at?_of_inLine h.inLine hne]

/-- A diagnostic with an excerpt shows its text, and the caret below it. -/
lemma ScanError.exists_showsAt {x : Excerpt}
    (h : Excerpt.at? source.toList e.position.offset.toNat = some x) :
    ∃ gutter code pointer,
      e.diagnostic source = String.ofList
        ([e.heading.toList, "-> ".toList ++ e.position.file.toList, gutter, code, pointer].flatMap
          (· ++ ['\n'])) ∧
      ShowsAt x.number (trimEnd x.text) x.caret gutter code pointer := by
  obtain ⟨gutter, code, pointer, hlines, hshows⟩ := x.lines_showsAt
  refine ⟨gutter, code, pointer, ?_, hshows⟩
  rw [diagnostic, diagnosticLines, h]
  simp only [hlines]

/-- The diagnostic shows the line of the offset. -/
lemma IsLineAt.exists_showsAt
    (h : IsLineAt source e.position.offset.toNat earlier before after later)
    (hne : before ++ (after ++ later) ≠ []) :
    ∃ gutter code pointer,
      e.diagnostic source = String.ofList
        ([e.heading.toList, "-> ".toList ++ e.position.file.toList, gutter, code, pointer].flatMap
          (· ++ ['\n'])) ∧
      ShowsAt (1 + (earlier ++ before).count '\n') (shownLine (before ++ after))
        (caretColumn before after) gutter code pointer := by
  obtain ⟨gutter, code, pointer, hdiagnostic, hshows⟩ :=
    ScanError.exists_showsAt (h.excerpt_eq hne)
  dsimp only [Excerpt.ofLine] at hshows
  rw [trimEnd_append_take_one h.inLine.stops] at hshows
  exact ⟨gutter, code, pointer, hdiagnostic, hshows⟩

end

/-! ### Diagnostics -/

/-- The heading of an error has its tip, and only characters that cannot be recognized have none. -/
lemma ScanError.heading_cases (e : ScanError) :
    ((∃ c, e.cause = .unrecognizedCharacter c) ∧ e.heading = "Error: " ++ e.cause.name) ∨
      (∀ c, e.cause ≠ .unrecognizedCharacter c) ∧
        ∃ tip, e.cause.tip? = some tip ∧
          e.heading = "Error: " ++ e.cause.name ++ " (" ++ tip ++ ")" := by
  obtain ⟨cause, position⟩ := e
  cases cause with
  | unrecognizedCharacter c => exact .inl ⟨⟨c, rfl⟩, rfl⟩
  | emptySource => exact .inr ⟨nofun, _, rfl, rfl⟩
  | invalidNumericLiteral literal found => exact .inr ⟨nofun, _, rfl, rfl⟩
  | numberOutOfRange token => exact .inr ⟨nofun, _, rfl, rfl⟩
  | unterminatedString found => cases found <;> exact .inr ⟨nofun, _, rfl, rfl⟩

/-- The diagnostic of a scan that failed shows the line of the fault under its number, and never an
offset. Its caret is below the character at the fault, or behind the end of the line as it is
shown, where the line has nothing but white space. -/
theorem diagnostic_points_at_fault {file source : String} {e : ScanError}
    (hsize : source.utf8ByteSize < 2 ^ 32) (h : tokenize file source = .error e) :
    ∃ earlier before after later gutter code pointer,
      IsLineAt source e.position.offset.toNat earlier before after later ∧
      (Excerpt.at? source.toList e.position.offset.toNat).isSome ∧
      e.diagnostic source = String.ofList
        ([e.heading.toList, "-> ".toList ++ file.toList, gutter, code, pointer].flatMap
          (· ++ ['\n'])) ∧
      (((∃ c, e.cause = .unrecognizedCharacter c) ∧ e.heading = "Error: " ++ e.cause.name) ∨
        (∀ c, e.cause ≠ .unrecognizedCharacter c) ∧
          ∃ tip, e.cause.tip? = some tip ∧
            e.heading = "Error: " ++ e.cause.name ++ " (" ++ tip ++ ")") ∧
      ShowsAt (1 + (earlier ++ before).count '\n') (shownLine (before ++ after))
        (caretColumn before after) gutter code pointer ∧
      indent (before ++ after) ≤ before.length ∧
      (caretColumn before after < (shownLine (before ++ after)).length →
        ∃ c, after.head? = some c ∧
          (shownLine (before ++ after))[caretColumn before after]? = some c) ∧
      ((shownLine (before ++ after)).length ≤ caretColumn before after →
        ∀ c ∈ after, isWhiteSpace c) := by
  obtain ⟨rfl, earlier, before, after, later, hline, hne, hindent, htab⟩ := exists_isLineAt hsize h
  obtain ⟨gutter, code, pointer, hdiagnostic, hshows⟩ := hline.exists_showsAt hne
  refine ⟨earlier, before, after, later, gutter, code, pointer, hline, ?_, hdiagnostic,
    e.heading_cases, hshows, hindent, ?_, ?_⟩
  · rw [hline.excerpt_eq hne, Option.isSome_some]
  · exact getElem?_shownLine htab hindent
  · exact isWhiteSpace_of_le_caretColumn hindent

/-- A letter behind digits, in a line with a tab before it. -/
theorem diagnostic_points_at_letter_in_number :
    "'é';\n\t12x".utf8ByteSize < 2 ^ 32 ∧
      ∃ e, tokenize "shell" "'é';\n\t12x" = .error e ∧
        ∃ earlier before after later gutter code pointer,
          IsLineAt "'é';\n\t12x" e.position.offset.toNat earlier before after later ∧
          e.diagnostic "'é';\n\t12x" = String.ofList
            ([e.heading.toList, "-> ".toList ++ "shell".toList, gutter, code, pointer].flatMap
              (· ++ ['\n'])) ∧
          ShowsAt (1 + (earlier ++ before).count '\n') (shownLine (before ++ after))
            (caretColumn before after) gutter code pointer := by
  have hsize : "'é';\n\t12x".utf8ByteSize < 2 ^ 32 := by decide +kernel
  have hstring : step "shell" ⟨0, "'é';\n\t12x".toList⟩ =
      .advance (.ofKind .string (some (.text "é")) (.ofBytes "shell" 0 4))
        ⟨4, ";\n\t12x".toList⟩ := by
    decide +kernel
  have hsemicolon : step "shell" ⟨4, ";\n\t12x".toList⟩ =
      .advance (.ofKind .semicolon none (.ofBytes "shell" 4 5)) ⟨5, "\n\t12x".toList⟩ := by
    decide +kernel
  have hnumber : step "shell" ⟨5, "\n\t12x".toList⟩ =
      .fail ⟨.invalidNumericLiteral "12" 'x', .ofBytes "shell" 9⟩ := by
    decide +kernel
  have h : tokenize "shell" "'é';\n\t12x" =
      .error ⟨.invalidNumericLiteral "12" 'x', .ofBytes "shell" 9⟩ := by
    rw [tokenize_eq_scanText, scanText, scanFrom_of_advance hstring,
      scanFrom_of_advance hsemicolon, scanFrom_of_fail hnumber]
  obtain ⟨earlier, before, after, later, gutter, code, pointer, hline, -, hdiagnostic, -, hshows,
    -⟩ := diagnostic_points_at_fault hsize h
  exact ⟨hsize, _, h, earlier, before, after, later, gutter, code, pointer, hline, hdiagnostic,
    hshows⟩

end DeclLexer
