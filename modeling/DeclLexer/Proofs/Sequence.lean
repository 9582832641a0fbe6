import DeclLexer.Proofs.History
import DeclLexer.Proofs.Number.Nearest

/-!
# The tokens a lexer keeps

The tokens of a lexer are at any time those of a scan that succeeded, or there are none. They stand
between a first and a last one, and each has the value that its kind asks for. The numbers in them
are finite and have no sign, so that `==` compares tokens of scans bit for bit.
-/

namespace DeclLexer

open Text

/-- Tokens of the kind may carry the value. -/
def Value.Suits : Value → Kind → Prop
  | .text name, .identifier => (Lexeme.word name.toList).WellFormed ∧ name ≠ "let"
  | .text body, .string     => ∀ c ∈ body.toList, isBodyChar c
  | .int n,     .int        => 0 ≤ n
  | .float x,   .float      => x.isFinite ∧ x.isNegative = false
  | _,          _           => False

/-- The token has what its kind asks for, and stands in the file. -/
structure Token.Proper (file : String) (t : Token) : Prop where
  hasValue : t.value.isSome = t.kind.hasValue
  value : ∀ v ∈ t.value, v.Suits t.kind
  mutable : t.mutable ↔ t.kind = .declaration
  start : t.span.start.file = file
  stop : t.span.stop.file = file

/-- Tokens between a first and a last one that mark the ends of a source, and are the only ones that
do. -/
def IsSequence (ts : List Token) : Prop :=
  ∃ first middle last, ts = first :: middle ++ [last] ∧ first.kind = .startOfFile ∧
    last.kind = .endOfFile ∧ ∀ t ∈ middle, t.kind ≠ .startOfFile ∧ t.kind ≠ .endOfFile

/-- The tokens that a scan gives in some session, whatever was done before. -/
def Scanned (ts : List Token) : Prop :=
  ∃ (actions : List Action) (s : Session) (i : Nat) (l : Lexer),
    Session.empty.run actions = some s ∧ s.lexers[i]? = some l ∧ l.result = .ok ts

/-- The token is one of those that a scan gives. -/
def Token.Scanned (t : Token) : Prop :=
  ∃ ts, DeclLexer.Scanned ts ∧ t ∈ ts

/-- The tokens of a lexer are those of some source in its file, if it has any. -/
def Lexer.KeepsScan (l : Lexer) : Prop :=
  l.tokens = [] ∨ ∃ source, tokenize l.file source = .ok l.tokens

/-! ### The tokens of a source -/

section

variable {file source : String} {offset start stop : Nat} {whole fraction : List Char} {kind : Kind}
  {x : Binary64} {l : Lexeme} {L : Layout} {t : Token} {ts : List Token}

lemma Binary64.isFinite_of_ofDecimal? (h : ofDecimal? whole fraction = some x) :
    x.isFinite ∧ x.isNegative = false := by
  unfold ofDecimal? at h
  dsimp only at h
  split at h
  · next hlt =>
    cases h
    exact ⟨isFinite_ofMagnitude hlt, isNegative_ofMagnitude (hlt.trans infinity_lt_signBit)⟩
  · cases h

lemma Token.proper_declaration : (declaration (.ofBytes file start stop)).Proper file :=
  ⟨rfl, fun _ hv => absurd hv (Option.not_mem_none _), iff_of_true rfl rfl, rfl, rfl⟩

lemma Token.proper_ofKind_none (hkind : kind.hasValue = false) (hne : kind ≠ .declaration) :
    (ofKind kind none (.ofBytes file start stop)).Proper file :=
  ⟨hkind.symm, fun _ hv => absurd hv (Option.not_mem_none _),
    iff_of_false Bool.false_ne_true hne, rfl, rfl⟩

lemma Token.proper_ofKind_some {v : Value} (hkind : kind.hasValue) (hv : v.Suits kind) :
    (ofKind kind (some v) (.ofBytes file start stop)).Proper file := by
  have hne : kind ≠ .declaration := by
    rintro rfl
    cases hkind
  refine ⟨hkind.symm, fun w hw => ?_, iff_of_false Bool.false_ne_true hne, rfl, rfl⟩
  cases hw
  exact hv

/-- The token of a lexeme is neither the first nor the last one. -/
lemma Lexeme.WellFormed.proper (hwf : l.WellFormed)
    (ht : l.token? (.ofBytes file start stop) = .ok t) :
    t.Proper file ∧ t.kind ≠ .startOfFile ∧ t.kind ≠ .endOfFile := by
  cases l with
  | equals =>
    cases ht
    exact ⟨Token.proper_ofKind_none rfl (by decide), by simp [Token.ofKind]⟩
  | semicolon =>
    cases ht
    exact ⟨Token.proper_ofKind_none rfl (by decide), by simp [Token.ofKind]⟩
  | word name =>
    rw [token?] at ht
    by_cases hlet : String.ofList name = "let"
    · rw [wordToken_of_eq hlet] at ht
      cases ht
      exact ⟨Token.proper_declaration, by simp [Token.declaration]⟩
    · rw [wordToken_of_ne hlet] at ht
      cases ht
      refine ⟨Token.proper_ofKind_some rfl ⟨?_, hlet⟩, by simp [Token.ofKind]⟩
      rwa [String.toList_ofList]
  | integer digits =>
    rw [token?, integerToken?] at ht
    split at ht
    · next hmax =>
      cases ht
      refine ⟨Token.proper_ofKind_some rfl ?_, by simp [Token.ofKind]⟩
      change 0 ≤ Int64.ofNat (digitsValue digits)
      rw [Int64.le_iff_toInt_le, Int64.toInt_ofNat_of_lt (Nat.lt_succ_of_le hmax)]
      exact Int.natCast_nonneg _
    · cases ht
  | decimal whole fraction =>
    rw [token?] at ht
    cases hx : Binary64.ofDecimal? whole fraction with
    | none =>
      rw [hx] at ht
      cases ht
    | some x =>
      rw [hx] at ht
      cases ht
      exact ⟨Token.proper_ofKind_some rfl (Binary64.isFinite_of_ofDecimal? hx),
        by simp [Token.ofKind]⟩
  | quoted opening body closing =>
    cases ht
    refine ⟨Token.proper_ofKind_some rfl fun c hc => ?_, by simp [Token.ofKind]⟩
    rw [String.toList_ofList] at hc
    exact hwf.2.1 c hc

lemma Layout.Valid.proper_of_mem_lexemeTokens (hL : L.Valid) (h : t ∈ L.lexemeTokens file offset) :
    t.Proper file ∧ t.kind ≠ .startOfFile ∧ t.kind ≠ .endOfFile := by
  induction L generalizing offset with
  | done gap => cases h
  | item gap l rest ih =>
    obtain ⟨-, hwf, hrange, -, hrest⟩ := hL
    obtain ⟨u, hu, htokens⟩ := hrange.tokens_eq
    rw [Layout.lexemeTokens, htokens, List.singleton_append] at h
    rcases List.mem_cons.mp h with rfl | h
    · exact hwf.proper hu
    · exact ih hrest h

/-- The tokens of a source are a proper sequence. -/
lemma isSequence_of_tokenize (h : tokenize file source = .ok ts) :
    IsSequence ts ∧ ∀ t ∈ ts, t.Proper file := by
  obtain ⟨L, hL, rfl⟩ := tokenize_eq_ok_iff.mp h
  refine ⟨⟨_, _, _, rfl, rfl, rfl, fun t ht => (hL.1.proper_of_mem_lexemeTokens ht).2⟩,
    fun t ht => ?_⟩
  rcases List.mem_cons.mp ht with rfl | ht
  · exact Token.proper_ofKind_none rfl (by decide)
  rcases List.mem_append.mp ht with ht | ht
  · exact (hL.1.proper_of_mem_lexemeTokens ht).1
  · rw [List.eq_of_mem_singleton ht]
    exact Token.proper_ofKind_none rfl (by decide)

end

/-! ### The tokens of a session -/

section

variable {actions : List Action} {action : Action} {s s' : Session} {P : Lexer → Prop} {i : Nat}
  {l : Lexer} {ts : List Token}

/-- What holds of every new lexer and is kept by loading and scanning holds after an action of all
lexers of which it held before. -/
lemma Session.forall_mem_act (hnew : ∀ file, P (.new file))
    (hload : ∀ l source, P l → P (l.load source)) (hscan : ∀ l, P l → P l.scan.2)
    (h : ∀ l ∈ s.lexers, P l) (hact : s.act action = some s') : ∀ l ∈ s'.lexers, P l := by
  have hadd {l' : Lexer} (hl' : P l') : ∀ l ∈ (s.add l').lexers, P l := by
    intro l hl
    rcases List.mem_append.mp hl with hl | hl
    · exact h l hl
    · rwa [List.eq_of_mem_singleton hl]
  have hset {j : Nat} {l' : Lexer} (hl' : P l') : ∀ l ∈ s.lexers.set j l', P l := by
    intro l hl
    rcases List.mem_or_eq_of_mem_set hl with hl | rfl
    · exact h l hl
    · exact hl'
  cases action with
  | create file latest =>
    cases latest with
    | none =>
      cases hact
      exact hadd (hnew file)
    | some source =>
      cases hact
      exact hadd (hload _ source (hnew file))
  | clone j =>
    obtain ⟨l, hj, rfl⟩ := Option.map_eq_some_iff.mp hact
    exact hadd (h l (List.mem_of_getElem? hj))
  | load j source =>
    obtain ⟨l, hj, rfl⟩ := Option.map_eq_some_iff.mp hact
    exact hset (hload l source (h l (List.mem_of_getElem? hj)))
  | scan j =>
    obtain ⟨l, hj, rfl⟩ := Option.map_eq_some_iff.mp hact
    exact hset (hscan l (h l (List.mem_of_getElem? hj)))

lemma Session.forall_mem_run (hnew : ∀ file, P (.new file))
    (hload : ∀ l source, P l → P (l.load source)) (hscan : ∀ l, P l → P l.scan.2)
    (h : ∀ l ∈ s.lexers, P l) (hrun : s.run actions = some s') : ∀ l ∈ s'.lexers, P l := by
  induction actions generalizing s with
  | nil =>
    cases hrun
    exact h
  | cons action actions ih =>
    obtain ⟨s₁, hact, hrun⟩ := Option.bind_eq_some_iff.mp hrun
    exact ih (forall_mem_act hnew hload hscan h hact) hrun

lemma tokenize_of_resultOf {file : String} {latest : Option String}
    (h : resultOf file latest = .ok ts) : ∃ source, tokenize file source = .ok ts := by
  cases latest with
  | some source => exact ⟨source, h⟩
  | none => cases h

lemma Lexer.Holds.keepsScan_scan {latest : Option String} (h : l.Holds latest) :
    l.scan.2.KeepsScan := by
  rw [KeepsScan, h.tokens_scan, h.file_scan, h.result_eq]
  cases hresult : resultOf l.file latest with
  | error e => exact .inl rfl
  | ok ts => exact .inr (tokenize_of_resultOf hresult)

/-- Every lexer of a session keeps the tokens of a scan. -/
lemma Session.keepsScan_of_run (hrun : empty.run actions = some s) (hi : s.lexers[i]? = some l) :
    (∃ latest, l.Holds latest) ∧ l.KeepsScan := by
  -- a lexer keeps tokens over a new source, so what it holds has to be carried along
  refine forall_mem_run (P := fun l => (∃ latest, l.Holds latest) ∧ l.KeepsScan) ?_ ?_ ?_
    (fun _ h => absurd h List.not_mem_nil) hrun l (List.mem_of_getElem? hi)
  · exact fun file => ⟨⟨none, Lexer.holds_new⟩, .inl rfl⟩
  · exact fun l source h => ⟨⟨some source, Lexer.holds_load⟩, h.2⟩
  · rintro l ⟨⟨latest, h⟩, -⟩
    exact ⟨⟨latest, h.scan⟩, h.keepsScan_scan⟩

/-- The tokens of a lexer are a proper sequence, if it has any. -/
lemma Lexer.KeepsScan.proper (h : l.KeepsScan) :
    (l.tokens = [] ∨ IsSequence l.tokens) ∧ ∀ t ∈ l.tokens, t.Proper l.file := by
  rcases h with hnil | ⟨source, h⟩
  · rw [hnil]
    exact ⟨.inl rfl, List.forall_mem_nil _⟩
  · obtain ⟨hsequence, hproper⟩ := isSequence_of_tokenize h
    exact ⟨.inr hsequence, hproper⟩

/-- The tokens that a scan gives are proper in the file of its lexer. -/
lemma Scanned.proper (h : Scanned ts) : ∃ file, ∀ t ∈ ts, t.Proper file := by
  obtain ⟨actions, s, i, l, hrun, hi, hresult⟩ := h
  obtain ⟨⟨latest, hl⟩, -⟩ := Session.keepsScan_of_run hrun hi
  obtain ⟨source, h⟩ := tokenize_of_resultOf (hl.result_eq.symm.trans hresult)
  exact ⟨l.file, (isSequence_of_tokenize h).2⟩

end

/-! ### Equality of tokens -/

section

variable {file file' : String} {x y : Binary64} {v w : Value} {kind kind' : Kind} {t u : Token}
  {ts us : List Token}

/-- Finite numbers without a sign are equal bit for bit. -/
lemma Binary64.beq_iff (hx : x.isFinite ∧ x.isNegative = false)
    (hy : y.isFinite ∧ y.isNegative = false) : x == y ↔ x = y := by
  constructor
  · intro h
    change equal x y at h
    simp only [equal, Bool.and_eq_true, Bool.or_eq_true, beq_iff_eq] at h
    rcases h.2 with hbits | ⟨hzero, hzero'⟩
    · exact congrArg Binary64.mk hbits
    · rw [← ofMagnitude_magnitude hx.2, ← ofMagnitude_magnitude hy.2, hzero, hzero']
  · rintro rfl
    change equal x x
    simp [equal, isNaN_of_isFinite hx.1]

lemma Value.beq_iff (hv : v.Suits kind) (hw : w.Suits kind') : v == w ↔ v = w := by
  change v.equal w ↔ v = w
  cases v with
  | text s => cases w <;> simp [equal]
  | int n => cases w <;> simp [equal]
  | float x =>
    cases w with
    | float y =>
      cases kind <;> first | exact hv.elim | skip
      cases kind' <;> first | exact hw.elim | skip
      rw [equal, Binary64.beq_iff hv hw, Value.float.injEq]
    | _ => simp [equal]

lemma Token.Proper.beq_iff (ht : t.Proper file) (hu : u.Proper file') : t == u ↔ t = u := by
  have hvalue : t.value == u.value ↔ t.value = u.value := by
    have hv := ht.value
    have hw := hu.value
    generalize t.value = v at hv ⊢
    generalize u.value = w at hw ⊢
    cases v <;> cases w
    · simp
    · simp
    · simp
    · rw [Option.some_beq_some, Value.beq_iff (hv _ rfl) (hw _ rfl), Option.some.injEq]
  change t.equal u ↔ t = u
  obtain ⟨kind, value, mutable, span⟩ := t
  obtain ⟨kind', value', mutable', span'⟩ := u
  simp only [equal, Bool.and_eq_true, hvalue, Token.mk.injEq, beq_iff_eq, and_assoc]

lemma beq_iff_of_proper (hts : ∀ t ∈ ts, t.Proper file) (hus : ∀ u ∈ us, u.Proper file') :
    ts == us ↔ ts = us := by
  induction ts generalizing us with
  | nil => cases us <;> simp
  | cons t ts ih =>
    cases us with
    | nil => simp
    | cons u us =>
      rw [List.forall_mem_cons] at hts hus
      rw [List.cons_beq_cons, Bool.and_eq_true, hts.1.beq_iff hus.1, ih hts.2 hus.2,
        List.cons.injEq]

end

/-- However a session came about, the tokens of each lexer are a proper sequence in its file, or
there are none. Two tokens that scans have given are equal as tokens only if they are the same bit
for bit, and so are the sequences; so `==` is an equivalence relation on the sequences of scans. It
is none on all tokens: one that holds what is not a number is not equal to itself. -/
theorem Session.tokens_proper_and_told_apart :
    (∀ (actions : List Action) (s : Session) (i : Nat) (l : Lexer),
        empty.run actions = some s → s.lexers[i]? = some l →
        (l.tokens = [] ∨ IsSequence l.tokens) ∧ ∀ t ∈ l.tokens, t.Proper l.file) ∧
      (∀ t u : Token, t.Scanned → u.Scanned → (t == u ↔ t = u)) ∧
      (∀ ts us : List Token, Scanned ts → Scanned us → (ts == us ↔ ts = us)) ∧
      (Equivalence fun ts us : { ts : List Token // Scanned ts } => ts.1 == us.1) ∧
      ¬ Equivalence fun t u : Token => t == u := by
  have hlists (ts us : List Token) (hts : Scanned ts) (hus : Scanned us) : ts == us ↔ ts = us := by
    obtain ⟨file, hts⟩ := hts.proper
    obtain ⟨file', hus⟩ := hus.proper
    exact beq_iff_of_proper hts hus
  refine ⟨?_, ?_, hlists, ⟨?_, ?_, ?_⟩, ?_⟩
  · intro actions s i l hrun hi
    exact (keepsScan_of_run hrun hi).2.proper
  · rintro t u ⟨ts, hts, ht⟩ ⟨us, hus, hu⟩
    obtain ⟨file, hts⟩ := hts.proper
    obtain ⟨file', hus⟩ := hus.proper
    exact (hts t ht).beq_iff (hus u hu)
  · exact fun ts => (hlists _ _ ts.2 ts.2).mpr rfl
  · intro ts us h
    rw [hlists _ _ ts.2 us.2] at h
    exact (hlists _ _ us.2 ts.2).mpr h.symm
  · intro ts us vs h h'
    rw [hlists _ _ ts.2 us.2] at h
    rw [hlists _ _ us.2 vs.2] at h'
    exact (hlists _ _ ts.2 vs.2).mpr (h.trans h')
  · intro h
    have hrefl := h.refl
      (.ofKind .float (some (.float ⟨0x7ff8000000000000⟩)) (.ofBytes "shell" 0 1))
    revert hrefl
    decide +kernel

/-- A number is scanned, and then another source is loaded. -/
theorem Session.tokens_proper_after_load :
    ∃ s l, Session.empty.run [.create (some "f") (some "a=1."), .scan 0, .load 0 "'"] = some s ∧
      s.lexers[0]? = some l ∧ IsSequence l.tokens ∧ ∀ t ∈ l.tokens, t.Proper "f" := by
  obtain ⟨s, hrun, hi⟩ : ∃ s,
      Session.empty.run [.create (some "f") (some "a=1."), .scan 0, .load 0 "'"] = some s ∧
      s.lexers[0]? = some ((Lexer.withSource "a=1." (some "f")).scan.2.load "'") := ⟨_, rfl, rfl⟩
  have hlayout : Layout.IsLayoutOf
      (.item [] (.word ['a']) <| .item [] .equals <| .item [] (.decimal ['1'] []) <| .done [])
      "a=1." := by decide +kernel
  have hscan := @tokenize_eq_ok_iff "f" _ _ |>.mpr ⟨_, hlayout, rfl⟩
  have hholds : (Lexer.withSource "a=1." (some "f")).Holds (some "a=1.") := Lexer.holds_load
  obtain ⟨hsequence, hproper⟩ := tokens_proper_and_told_apart.1 _ s 0 _ hrun hi
  have htokens : ((Lexer.withSource "a=1." (some "f")).scan.2.load "'").tokens ≠ [] := by
    change (Lexer.withSource "a=1." (some "f")).scan.2.tokens ≠ []
    rw [hholds.tokens_scan, hholds.result_eq]
    change (tokenize "f" "a=1.").toOption.getD [] ≠ []
    rw [hscan]
    exact List.cons_ne_nil _ _
  refine ⟨s, _, hrun, hi, hsequence.resolve_left htokens, ?_⟩
  intro t ht
  have hfile : ((Lexer.withSource "a=1." (some "f")).scan.2.load "'").file = "f" := hholds.file_scan
  exact hfile ▸ hproper t ht

end DeclLexer
