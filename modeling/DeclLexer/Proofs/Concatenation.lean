import DeclLexer.Proofs.Fault
import Mathlib.Data.List.Forall2

/-!
# Sources put together

A scan of two sources with blanks between them is a scan of the first and then of the second one,
which gives the same tokens or the same error as by itself, only further on.
-/

namespace DeclLexer

open Text

/-- A place that many bytes further on in the same file. -/
structure Position.MovedBy (bytes : Nat) (p q : Position) : Prop where
  offset : q.offset.toNat = p.offset.toNat + bytes
  file : q.file = p.file

/-- The same token that many bytes further on. -/
structure Token.MovedBy (bytes : Nat) (t u : Token) : Prop where
  kind : u.kind = t.kind
  value : u.value = t.value
  mutable : u.mutable = t.mutable
  start : t.span.start.MovedBy bytes u.span.start
  stop : t.span.stop.MovedBy bytes u.span.stop

/-- The same error that many bytes further on. -/
structure ScanError.MovedBy (bytes : Nat) (e e' : ScanError) : Prop where
  cause : e'.cause = e.cause
  position : e.position.MovedBy bytes e'.position

section

variable {file : String} {offset bytes start stop : Nat} {l : Lexeme} {L : Layout} {t u : Token}

lemma Position.movedBy_ofBytes (h : offset + bytes < 2 ^ 32) :
    (Position.ofBytes file offset).MovedBy bytes (.ofBytes file (offset + bytes)) := by
  constructor
  · have hlt : offset < 2 ^ 32 := Nat.lt_of_le_of_lt (Nat.le_add_right _ _) h
    rw [Position.toNat_offset_ofBytes h, Position.toNat_offset_ofBytes hlt]
  · rfl

lemma Token.movedBy_of_span (hstart : start ≤ stop) (hstop : stop + bytes < 2 ^ 32)
    (ht : t.span = .ofBytes file start stop) :
    t.MovedBy bytes { t with span := .ofBytes file (start + bytes) (stop + bytes) } := by
  refine ⟨rfl, rfl, rfl, ?_, ?_⟩
  · rw [ht]
    apply Position.movedBy_ofBytes
    omega
  · rw [ht]
    exact Position.movedBy_ofBytes hstop

/-- The lexemes of a layout further on make the same tokens. -/
lemma Layout.Valid.lexemeTokens_movedBy (hL : L.Valid)
    (hsize : offset + byteLength L.text + bytes < 2 ^ 32) :
    List.Forall₂ (Token.MovedBy bytes) (L.lexemeTokens file offset)
      (L.lexemeTokens file (offset + bytes)) := by
  induction L generalizing offset with
  | done gap => exact .nil
  | item gap l rest ih =>
    obtain ⟨-, -, hrange, -, hrest⟩ := hL
    simp only [Layout.text, byteLength_append] at hsize
    have hstart : offset + bytes + byteLength gap = offset + byteLength gap + bytes := by omega
    have hstop : offset + byteLength gap + bytes + byteLength l.spelling =
        offset + byteLength gap + byteLength l.spelling + bytes := by omega
    have hplace : offset + byteLength gap ≤ offset + byteLength gap + byteLength l.spelling :=
      Nat.le_add_right _ _
    have hlt : offset + byteLength gap + byteLength l.spelling + bytes < 2 ^ 32 := by omega
    obtain ⟨t, ht, htokens⟩ := @hrange.tokens_eq _ (.ofBytes file (offset + byteLength gap)
      (offset + byteLength gap + byteLength l.spelling))
    have hmoved := Token.movedBy_of_span hplace hlt (Lexeme.span_of_token? ht)
    simp only [Layout.lexemeTokens, htokens, hstart, hstop]
    rw [Lexeme.token?_eq_map, ht]
    exact .cons hmoved (ih hrest (by omega))

lemma Layout.Valid.tokens_movedBy (hL : L.Valid)
    (hsize : offset + byteLength L.text + bytes < 2 ^ 32) :
    List.Forall₂ (Token.MovedBy bytes) (L.tokens file offset) (L.tokens file (offset + bytes)) := by
  have hstop : offset + bytes + byteLength L.text = offset + byteLength L.text + bytes := by omega
  simp only [Layout.tokens, hstop]
  refine List.rel_append (hL.lexemeTokens_movedBy hsize) (.cons ?_ .nil)
  exact Token.movedBy_of_span (Nat.le_refl _) hsize rfl

end

section

variable {file a w b : String} {cs : List Char} {L : Layout}

/-- Blanks keep two sources apart, and what ends a layout does so without them. -/
lemma Layout.IsLayoutOf.delimited (hL : L.IsLayoutOf a) (hw : ∀ c ∈ w.toList, isBlank c)
    (hends : w = "" → ∀ c ∈ a.toList.getLast?, endsLayout c) :
    L.Delimited (w.toList ++ cs) := by
  by_cases hempty : w = ""
  · apply hL.1.delimited_of_getLast?
    rw [hL.2]
    exact hends hempty
  · apply hL.1.delimited_of_continues
    obtain ⟨d, ds, hd⟩ := List.exists_cons_of_ne_nil (String.toList_eq_nil_iff.not.mpr hempty)
    rw [hd] at hw ⊢
    exact continues_cons.mpr (hw d (.head _))

lemma Layout.dropLast_tokens {t : Token} :
    (t :: L.tokens file 0).dropLast = t :: L.lexemeTokens file 0 := by
  rw [Layout.tokens, ← List.cons_append, List.dropLast_concat]

/-- A scan passes a source and the blanks behind it, and goes on with the next one. -/
lemma tokenize_append_eq_scanFrom (hL : L.IsLayoutOf a) (hw : ∀ c ∈ w.toList, isBlank c)
    (hends : w = "" → ∀ c ∈ a.toList.getLast?, endsLayout c) :
    tokenize file (a ++ w ++ b) =
      scanFrom file ⟨0 + (a.utf8ByteSize + w.utf8ByteSize), b.toList⟩
        ((L.lexemeTokens file 0).reverse ++
          [.ofKind .startOfFile none (.ofBytes file 0 0)]) := by
  rw [tokenize_eq_scanText, scanText, String.toList_append, String.toList_append,
    List.append_assoc, ← hL.2, scanFrom_append hL.1 (hL.delimited hw hends), scanFrom_gap hw, hL.2,
    byteLength_toList, byteLength_toList, Nat.add_assoc]

end

/-- Two accepted sources with blanks between them have the tokens of the first one without its last
and those of the second one without its first, which stand further on by the bytes before it. An
error in the second source is found in both together, further on by as many bytes. The blanks may be
left out where the first source is empty or ends with a blank, a sign or a quote. -/
theorem tokenize_append {file a w b : String} {ta : List Token}
    (hsize : (a ++ w ++ b).utf8ByteSize < 2 ^ 32) (ha : tokenize file a = .ok ta)
    (hw : ∀ c ∈ w.toList, isBlank c)
    (hends : w = "" → ∀ c ∈ a.toList.getLast?, endsLayout c) :
    (∀ tb, tokenize file b = .ok tb →
        ∃ moved, List.Forall₂ (Token.MovedBy (a.utf8ByteSize + w.utf8ByteSize)) tb.tail moved ∧
          tokenize file (a ++ w ++ b) = .ok (ta.dropLast ++ moved)) ∧
      ∀ e, tokenize file b = .error e →
        ∃ e', ScanError.MovedBy (a.utf8ByteSize + w.utf8ByteSize) e e' ∧
          tokenize file (a ++ w ++ b) = .error e' := by
  obtain ⟨L, hL, rfl⟩ := tokenize_eq_ok_iff.mp ha
  rw [tokenize_append_eq_scanFrom hL hw hends]
  rw [String.utf8ByteSize_append, String.utf8ByteSize_append] at hsize
  generalize a.utf8ByteSize + w.utf8ByteSize = bytes at hsize ⊢
  constructor
  · intro tb hb
    obtain ⟨L', hL', rfl⟩ := tokenize_eq_ok_iff.mp hb
    refine ⟨L'.tokens file (0 + bytes), ?_, ?_⟩
    · apply hL'.1.tokens_movedBy
      rw [hL'.2, byteLength_toList]
      omega
    · rw [← hL'.2, scanFrom_of_valid hL'.1, List.reverse_append, List.reverse_reverse,
        Layout.dropLast_tokens]
      rfl
  · intro e hb
    obtain ⟨L', c, rest, fault, hstop, htext, rfl⟩ := tokenize_eq_error_iff.mp hb
    have hbytes := hstop.fails.bytes_le hstop.notBlank
    have hlength : byteLength L'.text + byteLength (c :: rest) = b.utf8ByteSize := by
      rw [← byteLength_append, htext, byteLength_toList]
    have hplace : 0 + bytes + byteLength L'.text + fault.bytes =
        byteLength L'.text + fault.bytes + bytes := by omega
    refine ⟨⟨fault.cause, .ofBytes file (byteLength L'.text + fault.bytes + bytes)⟩, ⟨rfl, ?_⟩, ?_⟩
    · apply Position.movedBy_ofBytes
      omega
    · rw [← htext, hstop.scanFrom_eq, hplace]

/-- A sign at the end of the first source needs no blank behind it. -/
theorem tokenize_append_of_semicolon :
    ("a=1;" ++ "" ++ "b").utf8ByteSize < 2 ^ 32 ∧
      ∃ ta tb moved, tokenize "shell" "a=1;" = .ok ta ∧ tokenize "shell" "b" = .ok tb ∧
        List.Forall₂ (Token.MovedBy ("a=1;".utf8ByteSize + "".utf8ByteSize)) tb.tail moved ∧
        tokenize "shell" ("a=1;" ++ "" ++ "b") = .ok (ta.dropLast ++ moved) := by
  have hsize : ("a=1;" ++ "" ++ "b").utf8ByteSize < 2 ^ 32 := by decide +kernel
  have hfirst : Layout.IsLayoutOf
      (.item [] (.word ['a']) <| .item [] .equals <| .item [] (.integer ['1']) <|
        .item [] .semicolon <| .done []) "a=1;" := by decide +kernel
  have hsecond : Layout.IsLayoutOf (.item [] (.word ['b']) <| .done []) "b" := by decide +kernel
  have ha := @tokenize_eq_ok_iff "shell" _ _ |>.mpr ⟨_, hfirst, rfl⟩
  have hb := @tokenize_eq_ok_iff "shell" _ _ |>.mpr ⟨_, hsecond, rfl⟩
  obtain ⟨moved, hmoved, h⟩ :=
    (tokenize_append hsize ha (by decide) fun _ c hc => by cases hc; decide).1 _ hb
  exact ⟨hsize, _, _, moved, ha, hb, hmoved, h⟩

end DeclLexer
