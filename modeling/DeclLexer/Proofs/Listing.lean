import DeclLexer.CommandLine
import DeclLexer.Proofs.Number.Printing
import DeclLexer.Proofs.Sequence
import DeclLexer.Proofs.Text.Quoted
import Mathlib.Data.List.Forall2

/-!
# Listings can be read back

A listing has one line for each token, since no text of a token has a line feed or another control
character. A line is made of columns: the two offsets, the kind and the value. Each column ends where
it says, and the values of scanned tokens are told apart by their texts, so two scans with the same
listing have the same tokens in the same places.
-/

namespace DeclLexer

open Text

/-- The tokens are the same, and stand at the same offsets of their files. -/
structure Token.Matches (t u : Token) : Prop where
  kind : t.kind = u.kind
  value : t.value = u.value
  mutable : t.mutable = u.mutable
  start : t.span.start.offset = u.span.start.offset
  stop : t.span.stop.offset = u.span.stop.offset

/-! ### No control characters -/

/-- The text has no control character. -/
def IsPlain (cs : List Char) : Prop :=
  ∀ c ∈ cs, isControl c = false

instance : DecidablePred IsPlain := fun cs =>
  List.decidableBAll (fun c => isControl c = false) cs

section

variable {c : Char} {cs ds digits : List Char}

@[simp] lemma isPlain_append : IsPlain (cs ++ ds) ↔ IsPlain cs ∧ IsPlain ds :=
  List.forall_mem_append

@[simp] lemma isPlain_cons : IsPlain (c :: cs) ↔ isControl c = false ∧ IsPlain cs :=
  List.forall_mem_cons

lemma isPlain_of_isDigit (h : ∀ c ∈ cs, c.isDigit) : IsPlain cs := by
  intro c hc
  have := isDigit_iff.mp (h c hc)
  simp only [isControl, Bool.or_eq_false_iff, Bool.and_eq_false_iff, decide_eq_false_iff_not]
  omega

lemma isPlain_natDigits (n : Nat) : IsPlain (natDigits n) :=
  isPlain_of_isDigit fun _ => isDigit_of_mem_natDigits

lemma isPlain_intDigits (e : Int) : IsPlain (intDigits e) := by
  cases e with
  | ofNat n => exact isPlain_natDigits n
  | negSucc n => exact isPlain_cons.mpr ⟨by decide, isPlain_natDigits (n + 1)⟩

lemma IsPositional.isPlain (h : IsPositional cs) : IsPlain cs := by
  obtain ⟨whole, fraction, rfl, hwhole, hfraction⟩ := h
  rw [isPlain_append, isPlain_cons]
  exact ⟨isPlain_of_isDigit hwhole.2, by decide, isPlain_of_isDigit hfraction.2⟩

lemma isPlain_scientific (hdigits : IsPlain digits) (e : Int) :
    IsPlain (scientific digits e) := by
  have hfraction : IsPlain (digits.drop 1) := fun c hc => hdigits c (List.mem_of_mem_drop hc)
  have hpoint : IsPlain (if (digits.drop 1).isEmpty then [] else '.' :: digits.drop 1) := by
    split
    · decide
    · exact isPlain_cons.mpr ⟨by decide, hfraction⟩
  rw [scientific, isPlain_append, isPlain_append, isPlain_cons]
  exact ⟨⟨fun c hc => hdigits c (List.mem_of_mem_take hc), hpoint⟩, by decide, isPlain_intDigits _⟩

lemma isPlain_magnitudeText (m : Nat) : IsPlain (Binary64.magnitudeText m) := by
  by_cases hrange : Binary64.InPositionalRange m
  · exact (Binary64.isPositional_magnitudeText hrange).isPlain
  · rw [Binary64.magnitudeText_scientific hrange]
    exact isPlain_scientific (isPlain_natDigits _) _

lemma Binary64.isPlain_text (x : Binary64) : IsPlain x.text := by
  have hsign : IsPlain (if x.isNegative then ['-'] else []) := by
    cases x.isNegative <;> decide
  rw [text]
  dsimp only
  split
  · decide
  split
  · exact isPlain_append.mpr ⟨hsign, isPlain_magnitudeText _⟩
  · exact isPlain_append.mpr ⟨hsign, by decide⟩

lemma Value.isPlain_format (v : Value) : IsPlain v.format.toList := by
  cases v with
  | text s =>
    rw [format, quoteString, String.toList_ofList]
    exact fun _ => isControl_of_mem_quoteWith (.inl rfl)
  | int n =>
    rw [format, String.toList_ofList]
    exact isPlain_intDigits _
  | float x =>
    rw [format, String.toList_ofList]
    exact x.isPlain_text

lemma Token.isPlain_payload (t : Token) : IsPlain t.payload.toList := by
  rw [payload]
  split
  · exact Value.isPlain_format _
  · split <;> decide

lemma Kind.isPlain_text (kind : Kind) : IsPlain kind.text.toList := by
  cases kind <;> decide

end

/-! ### The columns of a line -/

namespace Token

/-- A line is made of the two offsets between spaces, the kind, and the value in parentheses. -/
lemma toList_listing (t : Token) :
    t.listing.toList =
      List.replicate (4 - (natDigits t.span.start.offset.toNat).length) ' ' ++
        (natDigits t.span.start.offset.toNat ++ '.' :: '.' ::
          (natDigits t.span.stop.offset.toNat ++
            (List.replicate (4 - (natDigits t.span.stop.offset.toNat).length + 1) ' ' ++
              (t.kind.text.toList ++ ' ' :: '(' :: (t.payload.toList ++ [')']))))) := by
  simp [listing, format, Span.text, List.leftpad, List.rightpad, List.replicate_succ']

/-- No line has a control character. -/
lemma isPlain_listing (t : Token) : IsPlain t.listing.toList := by
  have hspaces (n : Nat) : IsPlain (List.replicate n ' ') := by
    intro c hc
    rw [List.eq_of_mem_replicate hc]
    decide
  have hpoint : isControl '.' = false := by decide
  have hspace : isControl ' ' = false := by decide
  have hparenthesis : isControl '(' = false := by decide
  have hend : isControl ')' = false ∧ IsPlain [] := by decide
  rw [toList_listing]
  simp only [isPlain_append, isPlain_cons]
  exact ⟨hspaces _, isPlain_natDigits _, hpoint, hpoint, isPlain_natDigits _, hspaces _,
    t.kind.isPlain_text, hspace, hparenthesis, t.isPlain_payload, hend⟩

end Token

section

variable {rest rest' : List Char} {m n a b : Nat} {t u : Token}

/-- A column of digits ends at the first other character. -/
lemma natDigits_append_inj (hrest : Stops Char.isDigit rest) (hrest' : Stops Char.isDigit rest')
    (h : natDigits m ++ rest = natDigits n ++ rest') : m = n ∧ rest = rest' := by
  obtain ⟨hdigits, hrest⟩ := run_eq_of_append_eq (fun _ => isDigit_of_mem_natDigits)
    (fun _ => isDigit_of_mem_natDigits) hrest hrest' h
  exact ⟨natDigits_injective hdigits, hrest⟩

/-- A column of spaces ends at the first other character. -/
lemma spaces_append_inj (hrest : Stops (· == ' ') rest) (hrest' : Stops (· == ' ') rest')
    (h : List.replicate a ' ' ++ rest = List.replicate b ' ' ++ rest') : rest = rest' := by
  have hspaces (n : Nat) : ∀ c ∈ List.replicate n ' ', (c == ' ') = true := by
    intro c hc
    rw [List.eq_of_mem_replicate hc]
    rfl
  exact (run_eq_of_append_eq (hspaces a) (hspaces b) hrest hrest' h).2

lemma stops_natDigits : Stops (· == ' ') (natDigits n ++ rest) := by
  obtain ⟨c, cs, hcs⟩ := List.exists_cons_of_ne_nil (natDigits_ne_nil n)
  have hc : c.isDigit := isDigit_of_mem_natDigits (n := n) (by rw [hcs]; exact .head _)
  rw [hcs, List.cons_append, stops_cons, beq_eq_false_iff_ne]
  rintro rfl
  exact absurd hc (by decide)

lemma stops_spaces : Stops Char.isDigit (List.replicate (n + 1) ' ' ++ rest) :=
  stops_cons.mpr (by decide)

lemma Kind.stops_text (kind : Kind) : Stops (· == ' ') (kind.text.toList ++ rest) := by
  have hstops : Stops (· == ' ') kind.text.toList ∧ kind.text.toList ≠ [] := by
    cases kind <;> decide
  exact hstops.1.append hstops.2

lemma Kind.text_injective {kind kind' : Kind} (h : kind.text = kind'.text) : kind = kind' := by
  revert h
  cases kind <;> cases kind' <;> decide

/-- The column of the kind ends at the first space. -/
lemma Kind.text_append_inj {kind kind' : Kind}
    (h : kind.text.toList ++ ' ' :: rest = kind'.text.toList ++ ' ' :: rest') :
    kind = kind' ∧ rest = rest' := by
  have hword (kind : Kind) : ∀ c ∈ kind.text.toList, (c != ' ') = true := by
    cases kind <;> decide
  obtain ⟨htext, hrest⟩ := run_eq_of_append_eq (p := (· != ' ')) (hword kind) (hword kind')
    (stops_cons.mpr rfl) (stops_cons.mpr rfl) h
  exact ⟨text_injective (String.toList_inj.mp htext), (List.cons.inj hrest).2⟩

/-- A line tells what stands in each column. -/
lemma Token.columns_of_listing_eq (h : t.listing = u.listing) :
    t.span.start.offset = u.span.start.offset ∧ t.span.stop.offset = u.span.stop.offset ∧
      t.kind = u.kind ∧ t.payload = u.payload := by
  -- the columns come off from the left, up to the value, which has the rest of the line
  have hline := congrArg String.toList h
  rw [toList_listing, toList_listing] at hline
  have hdigits := spaces_append_inj stops_natDigits stops_natDigits hline
  obtain ⟨hstart, hpoints⟩ :=
    natDigits_append_inj (stops_cons.mpr (by decide)) (stops_cons.mpr (by decide)) hdigits
  have hcolumns := (List.cons.inj (List.cons.inj hpoints).2).2
  obtain ⟨hstop, hspaces⟩ := natDigits_append_inj stops_spaces stops_spaces hcolumns
  have hkinds := spaces_append_inj t.kind.stops_text u.kind.stops_text hspaces
  obtain ⟨hkind, hvalue⟩ := Kind.text_append_inj hkinds
  have hpayload := List.append_cancel_right (List.cons.inj hvalue).2
  exact ⟨UInt32.toNat_inj.mp hstart, UInt32.toNat_inj.mp hstop, hkind,
    String.toList_inj.mp hpayload⟩

end

/-! ### The values of a column -/

section

variable {file file' : String} {kind : Kind} {e e' : Int} {v w : Value} {t u : Token}

lemma intDigits_injective (h : intDigits e = intDigits e') : e = e' := by
  have hread := Binary64.exponent?_intDigits e
  rw [h, Binary64.exponent?_intDigits] at hread
  exact (Option.some.inj hread).symm

/-- The values that scanned tokens of a kind have are told apart by their texts. -/
lemma Value.eq_of_format_eq (hv : v.Suits kind) (hw : w.Suits kind) (h : v.format = w.format) :
    v = w := by
  cases v <;> cases w <;> cases kind <;> try first | exact hv.elim | exact hw.elim
  case text.text.identifier | text.text.string =>
    exact congrArg Value.text (quoteString_injective h)
  case int.int.int n k =>
    have hdigits := intDigits_injective (String.ofList_injective h)
    exact congrArg Value.int (Int64.toInt_inj.mp hdigits)
  case float.float.float x y =>
    have htext : x.text = y.text := String.ofList_injective h
    have hx := Binary64.ofText?_text (Binary64.isNaN_of_isFinite hv.1)
    have hy := Binary64.ofText?_text (Binary64.isNaN_of_isFinite hw.1)
    rw [htext, hy] at hx
    exact congrArg Value.float (Option.some.inj hx).symm

/-- Scanned tokens with the same line are the same, but perhaps for their files. -/
lemma Token.Proper.matches (ht : t.Proper file) (hu : u.Proper file') (h : t.listing = u.listing) :
    t.Matches u := by
  obtain ⟨hstart, hstop, hkind, hpayload⟩ := columns_of_listing_eq h
  have hmutable : t.mutable = u.mutable := by
    rw [Bool.eq_iff_iff, ht.mutable, hu.mutable, hkind]
  have hvalue : t.value = u.value := by
    have hsome : t.value.isSome = u.value.isSome := by rw [ht.hasValue, hu.hasValue, hkind]
    have hv := ht.value
    have hw := hu.value
    rw [hkind] at hv
    rw [payload, payload, hmutable] at hpayload
    generalize t.value = v at *
    generalize u.value = w at *
    cases v <;> cases w
    · rfl
    · cases hsome
    · cases hsome
    · exact congrArg some (Value.eq_of_format_eq (hv _ rfl) (hw _ rfl) hpayload)
  exact ⟨hkind, hvalue, hmutable, hstart, hstop⟩

/-! ### The lines of a listing -/

variable {ts us : List Token}

lemma toList_listing_cons (t : Token) (ts : List Token) :
    (listing (t :: ts)).toList = t.listing.toList ++ '\n' :: (listing ts).toList := by
  rw [listing, List.map_cons, String.join_cons, String.toList_append, String.toList_append,
    List.append_assoc]
  rfl

/-- A line ends at its line feed. -/
lemma listing_cons_inj (h : listing (t :: ts) = listing (u :: us)) :
    t.listing = u.listing ∧ listing ts = listing us := by
  have hline (t : Token) : ∀ c ∈ t.listing.toList, (c != '\n') = true := by
    intro c hc
    rw [bne_iff_ne]
    rintro rfl
    exact absurd (t.isPlain_listing _ hc) (by decide)
  have htexts := congrArg String.toList h
  rw [toList_listing_cons, toList_listing_cons] at htexts
  obtain ⟨hlines, hrest⟩ := run_eq_of_append_eq (p := (· != '\n')) (hline t) (hline u)
    (stops_cons.mpr rfl) (stops_cons.mpr rfl) htexts
  exact ⟨String.toList_inj.mp hlines, String.toList_inj.mp (List.cons.inj hrest).2⟩

lemma listing_cons_ne_nil : listing (t :: ts) ≠ listing [] := by
  intro h
  have htexts := congrArg String.toList h
  rw [toList_listing_cons] at htexts
  exact absurd htexts (by simp [listing])

/-- Proper tokens with the same listing match one by one. -/
lemma forall₂_matches_of_listing_eq (hts : ∀ t ∈ ts, t.Proper file)
    (hus : ∀ u ∈ us, u.Proper file') (h : listing ts = listing us) :
    List.Forall₂ Token.Matches ts us := by
  induction ts generalizing us with
  | nil =>
    cases us with
    | nil => exact .nil
    | cons u us => exact absurd h.symm listing_cons_ne_nil
  | cons t ts ih =>
    cases us with
    | nil => exact absurd h listing_cons_ne_nil
    | cons u us =>
      rw [List.forall_mem_cons] at hts hus
      obtain ⟨hline, hlines⟩ := listing_cons_inj h
      exact .cons (hts.1.matches hus.1 hline) (ih hts.2 hus.2 hlines)

end

/-- The line of a token, whatever token it is, has no line feed and no other control character. Two
accepted sources with the same listing have as many tokens, and token by token the same kinds,
values, mutability and offsets. -/
theorem listing_unambiguous :
    (∀ t : Token, ∀ c ∈ t.listing.toList, c ≠ '\n' ∧ isControl c = false) ∧
      ∀ (file file' source source' : String) (ts us : List Token),
        tokenize file source = .ok ts → tokenize file' source' = .ok us →
        listing ts = listing us → ts.length = us.length ∧ List.Forall₂ Token.Matches ts us := by
  constructor
  · intro t c hc
    have hplain := t.isPlain_listing c hc
    refine ⟨?_, hplain⟩
    rintro rfl
    exact absurd hplain (by decide)
  · intro file file' source source' ts us hts hus h
    have hmatches := forall₂_matches_of_listing_eq (isSequence_of_tokenize hts).2
      (isSequence_of_tokenize hus).2 h
    exact ⟨hmatches.length_eq, hmatches⟩

/-- The quotes of a string and the blank before it do not show in a listing. -/
theorem listing_unambiguous_of_quotes :
    ∃ ts us, tokenize "f" "a '\\'" = .ok ts ∧ tokenize "g" "a\n\"\\\"" = .ok us ∧
      listing ts = listing us ∧ List.Forall₂ Token.Matches ts us := by
  have hlayout : Layout.IsLayoutOf
      (.item [] (.word ['a']) <| .item [' '] (.quoted '\'' ['\\'] '\'') <| .done [])
      "a '\\'" := by decide +kernel
  have hlayout' : Layout.IsLayoutOf
      (.item [] (.word ['a']) <| .item ['\n'] (.quoted '"' ['\\'] '"') <| .done [])
      "a\n\"\\\"" := by decide +kernel
  have hts := @tokenize_eq_ok_iff "f" _ _ |>.mpr ⟨_, hlayout, rfl⟩
  have hus := @tokenize_eq_ok_iff "g" _ _ |>.mpr ⟨_, hlayout', rfl⟩
  obtain ⟨-, hmatches⟩ := listing_unambiguous.2 _ _ _ _ _ _ hts hus (by decide +kernel)
  exact ⟨_, _, hts, hus, by decide +kernel, hmatches⟩

end DeclLexer
