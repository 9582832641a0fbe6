import DeclLexer.Proofs.Language
import Mathlib.Data.List.Forall2

/-!
# Other layouts of the same lexemes

The blanks between lexemes and the quotes of strings can be chosen anew, as long as some blank is
left where there was one between two lexemes. The source stays accepted then, and its tokens say the
same as before.
-/

namespace DeclLexer

open Text

/-! ### Sources laid out anew -/

/-- The same lexeme, or the same string in other quotes. -/
inductive Lexeme.Requoted : Lexeme → Lexeme → Prop
  | same (l : Lexeme) : Requoted l l
  | quoted {opening closing opening' closing' : Char} (body : List Char) (ho : isQuote opening')
      (hc : isQuote closing') :
      Requoted (.quoted opening body closing) (.quoted opening' body closing')

/-- The same lexemes in other gaps. A gap between two lexemes, which stands `behind` one, is not
closed. -/
inductive Layout.Relaid : Bool → Layout → Layout → Prop
  | done {behind : Bool} {gap gap' : List Char} (hgap : ∀ c ∈ gap', isBlank c) :
      Relaid behind (.done gap) (.done gap')
  | item {behind : Bool} {gap gap' : List Char} {l l' : Lexeme} {rest rest' : Layout}
      (hgap : ∀ c ∈ gap', isBlank c) (hkept : behind → gap ≠ [] → gap' ≠ []) (hl : l.Requoted l')
      (hrest : Relaid true rest rest') : Relaid behind (.item gap l rest) (.item gap' l' rest')

/-- Tokens that say the same, wherever they stand. -/
structure Token.Alike (t u : Token) : Prop where
  kind : u.kind = t.kind
  value : u.value = t.value
  mutable : u.mutable = t.mutable

/-! ### Other quotes -/

namespace Lexeme.Requoted

variable {l l' : Lexeme} {rest : List Char} {span span' : Span} {t : Token}

lemma wellFormed (h : l.Requoted l') (hwf : l.WellFormed) : l'.WellFormed := by
  cases h with
  | same => exact hwf
  | quoted body ho hc => exact ⟨ho, hwf.2.1, hc⟩

lemma inRange (h : l.Requoted l') (hrange : l.InRange) : l'.InRange := by
  cases h with
  | same => exact hrange
  | quoted body ho hc => trivial

lemma endsBefore (h : l.Requoted l') (hends : l.EndsBefore rest) : l'.EndsBefore rest := by
  cases h with
  | same => exact hends
  | quoted body ho hc => trivial

/-- A lexeme begins as it did, or with a quote for a quote. -/
lemma head? (h : l.Requoted l') (hwf : l.WellFormed) :
    ∃ c cs c' cs', l.spelling = c :: cs ∧ l'.spelling = c' :: cs' ∧
      (c' = c ∨ (isQuote c ∧ isQuote c')) := by
  cases h with
  | same =>
    obtain ⟨c, cs, heq, -⟩ := hwf.spelling_cons
    exact ⟨c, cs, c, cs, heq, heq, .inl rfl⟩
  | quoted body ho hc => exact ⟨_, _, _, _, rfl, rfl, .inr ⟨hwf.1, ho⟩⟩

lemma token?_alike (h : l.Requoted l') (ht : l.token? span = .ok t) :
    ∃ t', l'.token? span' = .ok t' ∧ t.Alike t' := by
  cases h with
  | same =>
    rw [Lexeme.token?_eq_map l span, ht]
    exact ⟨_, rfl, rfl, rfl, rfl⟩
  | quoted body ho hc =>
    cases ht
    exact ⟨_, rfl, rfl, rfl, rfl⟩

end Lexeme.Requoted

/-! ### Other gaps -/

section

variable {file file' : String} {offset offset' : Nat} {behind : Bool} {l : Lexeme} {c : Char}
  {L L' rest rest' : Layout}

lemma isNameChar_of_isQuote (h : isQuote c) : isNameChar c = false :=
  isNameChar_of_endsLayout (by simp [endsLayout, h])

lemma endsNumber_of_isQuote (h : isQuote c) : endsNumber c = false := by
  simp only [isQuote, Bool.or_eq_true, beq_iff_eq] at h
  rcases h with rfl | rfl <;> decide

/-- Behind a lexeme comes a blank, or what came there before, or a quote for a quote. -/
lemma Layout.Relaid.head? (h : rest.Relaid true rest') (hrest : rest.Valid) :
    ∀ c' ∈ rest'.text.head?,
      isBlank c' ∨ ∃ c ∈ rest.text.head?, c' = c ∨ (isQuote c ∧ isQuote c') := by
  intro c' hc'
  cases h with
  | done hgap => exact .inl (hgap c' (List.mem_of_mem_head? hc'))
  | @item _ gap gap' l l' rest rest' hgap hkept hl _ =>
    cases gap' with
    | cons d gap' =>
      cases hc'
      exact .inl (hgap _ (.head _))
    | nil =>
      obtain rfl : gap = [] := by
        by_contra hne
        exact hkept rfl hne rfl
      obtain ⟨c, cs, d, ds, heq, heq', hcd⟩ := hl.head? hrest.2.1
      simp only [Layout.text, heq', List.nil_append, List.cons_append] at hc'
      cases hc'
      refine .inr ⟨c, ?_, hcd⟩
      simp [Layout.text, heq]

/-- What ends a lexeme still does. -/
lemma Layout.Relaid.endsBefore (h : rest.Relaid true rest') (hrest : rest.Valid)
    (hends : l.EndsBefore rest.text) : l.EndsBefore rest'.text := by
  have hblank : ∀ c, isBlank c → isNameChar c = false ∧ endsNumber c := fun c hc =>
    ⟨isNameChar_of_endsLayout (by simp [endsLayout, hc]), by simp [endsNumber, hc]⟩
  have hnumber (hends : Continues endsNumber rest.text) : Continues endsNumber rest'.text := by
    intro c' hc'
    rcases h.head? hrest c' hc' with hc' | ⟨c, hc, rfl | ⟨hquote, -⟩⟩
    · exact (hblank c' hc').2
    · exact hends c' hc
    · have := hends c hc
      rw [endsNumber_of_isQuote hquote] at this
      cases this
  cases l with
  | word name =>
    intro c' hc'
    rcases h.head? hrest c' hc' with hc' | ⟨c, hc, rfl | ⟨-, hquote⟩⟩
    · exact (hblank c' hc').1
    · exact hends c' hc
    · exact isNameChar_of_isQuote hquote
  | integer digits => exact hnumber hends
  | decimal whole fraction => exact hnumber hends
  | _ => trivial

/-- A valid layout stays valid. -/
lemma Layout.Relaid.valid (h : L.Relaid behind L') (hL : L.Valid) : L'.Valid := by
  induction h with
  | done hgap => exact hgap
  | item hgap hkept hl hrest ih =>
    obtain ⟨-, hwf, hrange, hends, hvalid⟩ := hL
    refine ⟨hgap, hl.wellFormed hwf, hl.inRange hrange, ?_, ih hvalid⟩
    exact hl.endsBefore (hrest.endsBefore hvalid hends)

/-- The lexemes still make the tokens they did. -/
lemma Layout.Relaid.lexemeTokens_alike (h : L.Relaid behind L') (hL : L.Valid) :
    List.Forall₂ Token.Alike (L.lexemeTokens file offset) (L'.lexemeTokens file' offset') := by
  induction h generalizing offset offset' with
  | done hgap => exact .nil
  | item hgap hkept hl hrest ih =>
    obtain ⟨-, -, hrange, -, hvalid⟩ := hL
    obtain ⟨t, ht, htokens⟩ := hrange.tokens_eq
    obtain ⟨t', ht', halike⟩ := hl.token?_alike ht
    rw [Layout.lexemeTokens, Layout.lexemeTokens, htokens, ht']
    exact .cons halike (ih hvalid)

end

/-- The blanks before, between and behind the lexemes of an accepted source can be chosen anew,
where only a gap between two lexemes may not be closed, and each quote of a string can be either of
the two. The source is accepted then too, and has the same tokens but for their places. -/
theorem tokenize_relaid {file file' source : String} {ts : List Token}
    (h : tokenize file source = .ok ts) :
    ∃ L : Layout, L.IsLayoutOf source ∧
      ∀ L' : Layout, L.Relaid false L' →
        ∃ ts', tokenize file' (String.ofList L'.text) = .ok ts' ∧
          List.Forall₂ Token.Alike ts ts' := by
  obtain ⟨L, hL, rfl⟩ := tokenize_eq_ok_iff.mp h
  refine ⟨L, hL, fun L' hrelaid => ?_⟩
  have hL' : L'.IsLayoutOf (String.ofList L'.text) :=
    ⟨hrelaid.valid hL.1, String.toList_ofList.symm⟩
  refine ⟨_, tokenize_eq_ok_iff.mpr ⟨L', hL', rfl⟩, .cons ⟨rfl, rfl, rfl⟩ ?_⟩
  exact List.rel_append (hrelaid.lexemeTokens_alike hL.1) (.cons ⟨rfl, rfl, rfl⟩ .nil)

/-- A gap is opened before the sign and another one made longer, and the string gets mixed
quotes. -/
theorem tokenize_relaid_declaration :
    ∃ ts ts', tokenize "shell" "let a='b c'" = .ok ts ∧
      tokenize "shell" "let\n\ta ='b c\"" = .ok ts' ∧ List.Forall₂ Token.Alike ts ts' := by
  have hlayout : Layout.IsLayoutOf
      (.item [] (.word ['l', 'e', 't']) <| .item [' '] (.word ['a']) <| .item [] .equals <|
        .item [] (.quoted '\'' ['b', ' ', 'c'] '\'') <| .done []) "let a='b c'" := by
    decide +kernel
  have hrelaid : Layout.Relaid false
      (.item [] (.word ['l', 'e', 't']) <| .item [' '] (.word ['a']) <| .item [] .equals <|
        .item [] (.quoted '\'' ['b', ' ', 'c'] '\'') <| .done [])
      (.item [] (.word ['l', 'e', 't']) <| .item ['\n', '\t'] (.word ['a']) <|
        .item [' '] .equals <| .item [] (.quoted '\'' ['b', ' ', 'c'] '"') <| .done []) :=
    .item (by decide) nofun (.same _) <| .item (by decide) (by decide) (.same _) <|
      .item (by decide) (by decide) (.same _) <|
        .item (by decide) (by decide) (.quoted _ (by decide) (by decide)) <| .done (by decide)
  have h := @tokenize_eq_ok_iff "shell" _ _ |>.mpr ⟨_, hlayout, rfl⟩
  obtain ⟨L, hL, hlaid⟩ := tokenize_relaid h
  obtain rfl := hL.unique hlayout
  obtain ⟨ts', hts', halike⟩ := hlaid _ hrelaid
  exact ⟨_, ts', h, hts', halike⟩

end DeclLexer
