import DeclLexer.Proofs.Grammar.Prefix
import DeclLexer.Proofs.Lexer.Simulation

/-!
# The language of the lexer

A source is accepted exactly when it has a valid layout. The layout is then the only one, and each
of its lexemes makes one token.
-/

namespace DeclLexer

open Text

variable {file source : String} {offset : Nat} {ts : List Token} {e : ScanError} {L : Layout}

/-- The tokens of a source are those of its layout, behind the first token. -/
lemma tokenize_eq_ok_iff :
    tokenize file source = .ok ts ↔
      ∃ L : Layout, L.IsLayoutOf source ∧
        ts = .ofKind .startOfFile none (.ofBytes file 0 0) :: L.tokens file 0 := by
  rw [tokenize_eq_scanText, scanText, scanFrom_eq_ok_iff]
  constructor
  · rintro ⟨L, hL, htext, rfl⟩
    exact ⟨L, ⟨hL, htext⟩, rfl⟩
  · rintro ⟨L, ⟨hL, htext⟩, rfl⟩
    exact ⟨L, hL, htext, rfl⟩

/-- The error of a source is the one behind the layout that a scan passes. -/
lemma tokenize_eq_error_iff :
    tokenize file source = .error e ↔
      ∃ L c rest fault, Layout.StopsAt L c rest fault ∧ L.text ++ c :: rest = source.toList ∧
        e = ⟨fault.cause, .ofBytes file (byteLength L.text + fault.bytes)⟩ := by
  rw [tokenize_eq_scanText, scanText, scanFrom_eq_error_iff]
  simp only [Nat.zero_add]

lemma Layout.IsLayoutOf.unique {L' : Layout} (h : L.IsLayoutOf source) (h' : L'.IsLayoutOf source) :
    L = L' :=
  h.1.eq_of_text_eq h'.1 (h.2.trans h'.2.symm)

/-- Each lexeme makes one token. -/
lemma Layout.Valid.length_lexemeTokens (h : L.Valid) :
    (L.lexemeTokens file offset).length = L.lexemes.length := by
  induction L generalizing offset with
  | done gap => rfl
  | item gap l rest ih =>
    obtain ⟨-, -, hrange, -, hrest⟩ := h
    obtain ⟨t, -, htokens⟩ := hrange.tokens_eq
    rw [Layout.lexemeTokens, htokens, List.singleton_append, List.length_cons, ih hrest,
      Layout.lexemes, List.length_cons]

/-- A source is accepted exactly when it can be taken apart into blank gaps and lexemes that have
their shape, are in range and end before what follows them. No source can be taken apart in two
ways, and one with `n` lexemes has `n + 2` tokens. -/
theorem tokenize_isOk_iff_exists_layout (file source : String) :
    ((∃ ts, tokenize file source = .ok ts) ↔ ∃ L : Layout, L.IsLayoutOf source) ∧
      (∀ L L' : Layout, L.IsLayoutOf source → L'.IsLayoutOf source → L = L') ∧
      ∀ ts, ∀ L : Layout, tokenize file source = .ok ts → L.IsLayoutOf source →
        ts.length = L.lexemes.length + 2 := by
  refine ⟨?_, fun L L' h h' => h.unique h', ?_⟩
  · constructor
    · rintro ⟨ts, h⟩
      obtain ⟨L, hL, -⟩ := tokenize_eq_ok_iff.mp h
      exact ⟨L, hL⟩
    · rintro ⟨L, hL⟩
      exact ⟨_, tokenize_eq_ok_iff.mpr ⟨L, hL, rfl⟩⟩
  · intro ts L h hL
    obtain ⟨L', hL', rfl⟩ := tokenize_eq_ok_iff.mp h
    rw [List.length_cons, Layout.tokens, List.length_append, hL'.1.length_lexemeTokens,
      hL'.unique hL]
    rfl

/-- A word, a sign, a fraction without digits after the point, and mixed quotes. -/
theorem tokenize_isOk_declaration :
    ∃ ts, tokenize "shell" "let a=1. 'b\";" = .ok ts ∧ ts.length = 8 := by
  obtain ⟨hiff, -, hlength⟩ := tokenize_isOk_iff_exists_layout "shell" "let a=1. 'b\";"
  have hlayout : Layout.IsLayoutOf
      (.item [] (.word ['l', 'e', 't']) <| .item [' '] (.word ['a']) <| .item [] .equals <|
        .item [] (.decimal ['1'] []) <| .item [' '] (.quoted '\'' ['b'] '"') <|
        .item [] .semicolon <| .done []) "let a=1. 'b\";" := by decide +kernel
  obtain ⟨ts, h⟩ := hiff.mpr ⟨_, hlayout⟩
  exact ⟨ts, h, hlength ts _ h hlayout⟩

end DeclLexer
