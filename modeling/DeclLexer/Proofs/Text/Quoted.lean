import DeclLexer.Proofs.Text.Run
import DeclLexer.Text.Quoted

/-!
# Quoted text can be taken apart

`Escapes` lists the three forms in which a character stands in quoted text. No form begins another
one, so the text between two quotes is known from its quoted form, whatever follows, and none of them
has a control character.
-/

namespace DeclLexer.Text

/-- The character that a letter stands for behind a backslash. -/
def escaped (letter : Char) : Char :=
  if letter = '0' then '\x00'
  else if letter = 't' then '\t'
  else if letter = 'r' then '\r'
  else if letter = 'n' then '\n'
  else letter

/-- The forms of a character in quoted text: by itself, by a letter, or by its code point. -/
inductive Escapes (quote : Char) : Char → List Char → Prop
  | plain {c : Char} (hquote : c ≠ quote) (hslash : c ≠ '\\') (hc : isControl c = false) :
      Escapes quote c [c]
  | letter {c : Char} (hletter : c ≠ 'u') (hc : isControl c = false) :
      Escapes quote (escaped c) ['\\', c]
  | codePoint (c : Char) :
      Escapes quote c ('\\' :: 'u' :: '\x7b' :: Nat.toDigits 16 c.toNat ++ ['\x7d'])

section

variable {quote c d : Char} {cs ds rest rest' form form' : List Char} {m n : Nat}

/-! ### Hexadecimal digits -/

lemma toDigits_hex (n : Nat) :
    Nat.toDigits 16 n =
      (if n < 16 then [] else Nat.toDigits 16 (n / 16)) ++ [Nat.digitChar (n % 16)] := by
  rw [Nat.toDigits_eq_if (by decide)]
  split
  · next h => rw [Nat.mod_eq_of_lt h, List.nil_append]
  · rfl

lemma exists_digitChar_of_mem (h : c ∈ Nat.toDigits 16 n) : ∃ d < 16, c = Nat.digitChar d := by
  induction n using Nat.strongRecOn with
  | ind n ih =>
    rw [toDigits_hex] at h
    rcases List.mem_append.mp h with h | h
    · split at h
      · cases h
      · exact ih (n / 16) (by omega) h
    · exact ⟨n % 16, Nat.mod_lt _ (by decide), List.eq_of_mem_singleton h⟩

lemma isControl_digitChar : ∀ d < 16, isControl (Nat.digitChar d) = false := by
  decide

lemma digitChar_ne_brace : ∀ d < 16, Nat.digitChar d ≠ '\x7d' := by
  decide

lemma digitChar_injective : ∀ d < 16, ∀ e < 16, Nat.digitChar d = Nat.digitChar e → d = e := by
  decide

/-- The last digits are equal and so are the ones before them. -/
lemma toDigits_hex_injective (h : Nat.toDigits 16 m = Nat.toDigits 16 n) : m = n := by
  induction m using Nat.strongRecOn generalizing n with
  | ind m ih =>
    rw [toDigits_hex m, toDigits_hex n] at h
    obtain ⟨hinit, hlast⟩ := List.append_inj' h rfl
    have hmod := digitChar_injective _ (Nat.mod_lt m (by decide)) _ (Nat.mod_lt n (by decide))
      (List.singleton_inj.mp hlast)
    split at hinit
    · split at hinit
      · omega
      · exact absurd hinit.symm Nat.toDigits_ne_nil
    · split at hinit
      · exact absurd hinit Nat.toDigits_ne_nil
      · have hdiv := ih (m / 16) (by omega) hinit
        omega

/-! ### One character -/

/-- Every character has one of the forms. -/
lemma escapes_escape (hquote : quote = '"' ∨ quote = '\'') (c : Char) :
    Escapes quote c (escape quote c) := by
  unfold escape
  split
  · next h =>
    have hc : c = '"' ∨ c = '\'' ∨ c = '\\' := by
      rcases h with rfl | rfl
      · exact hquote.imp_right .inl
      · exact .inr (.inr rfl)
    have hself : escaped c = c := by rcases hc with rfl | rfl | rfl <;> rfl
    have hletter : c ≠ 'u' := by rcases hc with rfl | rfl | rfl <;> decide
    have hcontrol : isControl c = false := by rcases hc with rfl | rfl | rfl <;> decide
    have hform : Escapes quote (escaped c) ['\\', c] := .letter hletter hcontrol
    rwa [hself] at hform
  next h =>
  rw [not_or] at h
  split
  · next hzero =>
    rw [hzero]
    exact .letter (c := '0') (by decide) (by decide)
  split
  · next htab =>
    rw [htab]
    exact .letter (c := 't') (by decide) (by decide)
  split
  · next hreturn =>
    rw [hreturn]
    exact .letter (c := 'r') (by decide) (by decide)
  split
  · next hline =>
    rw [hline]
    exact .letter (c := 'n') (by decide) (by decide)
  split
  · exact .codePoint c
  · next hprint =>
    refine .plain h.1 h.2 ?_
    rw [Bool.eq_false_iff]
    exact fun hc => hprint (isUnprintable_of_isControl hc)

lemma Escapes.isControl_of_mem (h : Escapes quote c form) (hd : d ∈ form) :
    isControl d = false := by
  cases h with
  | plain hquote hslash hc =>
    rwa [List.eq_of_mem_singleton hd]
  | letter hletter hc =>
    rcases List.mem_cons.mp hd with rfl | hd
    · decide
    · rwa [List.eq_of_mem_singleton hd]
  | codePoint =>
    simp only [List.cons_append, List.mem_cons, List.mem_append, List.not_mem_nil, or_false] at hd
    rcases hd with rfl | rfl | rfl | hd | rfl
    · decide
    · decide
    · decide
    · obtain ⟨d, hlt, rfl⟩ := exists_digitChar_of_mem hd
      exact isControl_digitChar d hlt
    · decide

/-- No character begins with the quote. -/
lemma Escapes.append_ne (hquote : quote ≠ '\\') (h : Escapes quote c form) :
    form ++ rest ≠ quote :: rest' := by
  intro heq
  cases h with
  | plain hne => exact hne (List.cons.inj heq).1
  | letter => exact hquote (List.cons.inj heq).1.symm
  | codePoint => exact hquote (List.cons.inj heq).1.symm

/-- A code point ends at its brace. -/
lemma codePoint_append_inj
    (h : Nat.toDigits 16 m ++ '\x7d' :: rest = Nat.toDigits 16 n ++ '\x7d' :: rest') :
    m = n ∧ rest = rest' := by
  have hdigits (n : Nat) : ∀ c ∈ Nat.toDigits 16 n, (c != '\x7d') = true := by
    intro c hc
    obtain ⟨d, hlt, rfl⟩ := exists_digitChar_of_mem hc
    rw [bne_iff_ne]
    exact digitChar_ne_brace d hlt
  obtain ⟨hhex, hrest⟩ := run_eq_of_append_eq (p := (· != '\x7d')) (hdigits m) (hdigits n)
    (stops_cons.mpr rfl) (stops_cons.mpr rfl) h
  exact ⟨toDigits_hex_injective hhex, (List.cons.inj hrest).2⟩

/-- The form at the front of a text tells which character it is of, and where it ends. -/
lemma Escapes.append_inj (h : Escapes quote c form) (h' : Escapes quote d form')
    (heq : form ++ rest = form' ++ rest') : c = d ∧ rest = rest' := by
  cases h with
  | plain hquote hslash =>
    cases h' with
    | plain => exact List.cons.inj heq
    | letter => exact absurd (List.cons.inj heq).1 hslash
    | codePoint => exact absurd (List.cons.inj heq).1 hslash
  | letter hletter =>
    cases h' with
    | plain hquote hslash => exact absurd (List.cons.inj heq).1.symm hslash
    | letter =>
      obtain ⟨rfl, hrest⟩ := List.cons.inj (List.cons.inj heq).2
      exact ⟨rfl, hrest⟩
    | codePoint => exact absurd (List.cons.inj (List.cons.inj heq).2).1 hletter
  | codePoint =>
    cases h' with
    | plain hquote hslash => exact absurd (List.cons.inj heq).1.symm hslash
    | letter hletter => exact absurd (List.cons.inj (List.cons.inj heq).2).1.symm hletter
    | codePoint =>
      simp only [List.cons_append, List.append_assoc, List.cons.injEq, true_and,
        List.nil_append] at heq
      obtain ⟨hcode, hrest⟩ := codePoint_append_inj heq
      exact ⟨Char.toNat_inj.mp hcode, hrest⟩

/-! ### Texts -/

lemma isControl_of_mem_quoteWith (hquote : quote = '"' ∨ quote = '\'')
    (h : d ∈ quoteWith quote cs) : isControl d = false := by
  have hq : isControl quote = false := by rcases hquote with rfl | rfl <;> decide
  simp only [quoteWith, List.cons_append, List.mem_cons, List.mem_append, List.mem_flatMap,
    List.not_mem_nil, or_false] at h
  rcases h with rfl | ⟨c, -, hd⟩ | rfl
  · exact hq
  · exact (escapes_escape hquote c).isControl_of_mem hd
  · exact hq

lemma flatMap_escape_append_inj (hquote : quote = '"' ∨ quote = '\'')
    (h : cs.flatMap (escape quote) ++ quote :: rest = ds.flatMap (escape quote) ++ quote :: rest') :
    cs = ds ∧ rest = rest' := by
  have hslash : quote ≠ '\\' := by rcases hquote with rfl | rfl <;> decide
  induction cs generalizing ds with
  | nil =>
    cases ds with
    | nil => exact ⟨rfl, (List.cons.inj h).2⟩
    | cons d ds =>
      rw [List.flatMap_cons, List.append_assoc] at h
      exact absurd h.symm ((escapes_escape hquote d).append_ne hslash)
  | cons c cs ih =>
    cases ds with
    | nil =>
      rw [List.flatMap_cons, List.append_assoc] at h
      exact absurd h ((escapes_escape hquote c).append_ne hslash)
    | cons d ds =>
      rw [List.flatMap_cons, List.flatMap_cons, List.append_assoc, List.append_assoc] at h
      obtain ⟨rfl, htail⟩ := (escapes_escape hquote c).append_inj (escapes_escape hquote d) h
      obtain ⟨rfl, hrest⟩ := ih htail
      exact ⟨rfl, hrest⟩

/-- The quoted form of a text tells which text it is of, and where it ends. -/
lemma quoteWith_append_inj (hquote : quote = '"' ∨ quote = '\'')
    (h : quoteWith quote cs ++ rest = quoteWith quote ds ++ rest') : cs = ds ∧ rest = rest' := by
  simp only [quoteWith, List.cons_append, List.append_assoc, List.nil_append, List.cons.injEq,
    true_and] at h
  exact flatMap_escape_append_inj hquote h

end

/-- A quoted string tells which string it is, and where it ends. -/
lemma quoteString_append_inj {s t : String} {rest rest' : List Char}
    (h : (quoteString s).toList ++ rest = (quoteString t).toList ++ rest') :
    s = t ∧ rest = rest' := by
  rw [quoteString, quoteString, String.toList_ofList, String.toList_ofList] at h
  obtain ⟨htext, hrest⟩ := quoteWith_append_inj (.inl rfl) h
  exact ⟨String.toList_inj.mp htext, hrest⟩

/-- A quoted character tells which character it is, and where it ends. -/
lemma quoteChar_append_inj {c d : Char} {rest rest' : List Char}
    (h : (quoteChar c).toList ++ rest = (quoteChar d).toList ++ rest') :
    c = d ∧ rest = rest' := by
  rw [quoteChar, quoteChar, String.toList_ofList, String.toList_ofList] at h
  obtain ⟨htext, hrest⟩ := quoteWith_append_inj (.inr rfl) h
  exact ⟨List.singleton_inj.mp htext, hrest⟩

/-- Strings are told apart by their quoted forms. -/
lemma quoteString_injective {s t : String} (h : quoteString s = quoteString t) : s = t :=
  (quoteString_append_inj (congrArg (String.toList · ++ []) h)).1

end DeclLexer.Text
