import DeclLexer.Proofs.History
import DeclLexer.Proofs.Lexer.Place

/-!
# The cursor of a scan

A scan goes round after round, and between any two of its calls the lexer is in its place. A round
after which the scan goes on has pushed one token and moved the cursor, so there are at most as many
of them as the source has bytes; then a last one ends the scan.
-/

namespace DeclLexer

open Text

/-- The lexers between the calls of a scan, from the start of its source on. -/
def Lexer.scanPoints (l : Lexer) : List Lexer :=
  match l.text with
  | none   => []
  | some _ => l.atStart :: Scanner.Trace.rounds.points l.atStart

/-! ### Rounds -/

/-- So many rounds lead from a lexer to another one, and the scan goes on after each of them. -/
inductive Scanner.Reaches (l : Lexer) : Nat → Lexer → Prop
  | start : Reaches l 0 l
  | round {n : Nat} {p p' : Lexer} (h : Reaches l n p) (hr : round.run p = .ok true p') :
      Reaches l (n + 1) p'

/-- What a round does. If the scan goes on, it has pushed one token and moved the cursor. If the
scan ends, it has pushed one token and the cursor is at the end of the source. If it fails, it has
pushed nothing, and a character that the error names is the one at the cursor. -/
def Lexer.Progresses (l : Lexer) (source : List Char) : Prop :=
  match Scanner.round.run l with
  | .ok true l'  => l.cursor < l'.cursor ∧ ∃ t, l'.tokens = l.tokens ++ [t]
  | .ok false l' => l'.cursor = byteLength source ∧ ∃ t, l'.tokens = l.tokens ++ [t]
  | .error e l'  => l'.tokens = l.tokens ∧ e.cause.NamesNext l'.remainder

namespace Scanner

variable {l l' p : Lexer} {source : List Char} {n : Nat}

lemma cursor_lt_of_round (h : round.run l = .ok true l') : l.cursor < l'.cursor := by
  rw [run_round] at h
  exact Nat.lt_of_le_of_lt (onward_skipBlanks l).cursor (cursor_lt_of_next h).1

lemma atEnd_of_round (h : round.run l = .ok false l') : l'.atEnd := by
  rw [run_round, run_next] at h
  split at h
  · next hend =>
    cases h
    exact hend
  · split at h <;> cases h

/-- A round pushes one token, or none and fails. -/
lemma tokens_of_round (hl : l.StandsIn source) :
    match round.run l with
    | .ok _ l'    => ∃ t, l'.tokens = l.tokens ++ [t]
    | .error _ l' => l'.tokens = l.tokens := by
  obtain ⟨past, rest, rfl, hat⟩ := hl
  have hr := roundAs_round hat
  cases hs : step l.file ⟨byteLength past, rest⟩ with
  | finish token =>
    rw [hs] at hr
    obtain ⟨n, hn⟩ := hr
    rw [hn]
    exact ⟨token, rfl⟩
  | advance token next =>
    rw [hs] at hr
    obtain ⟨read, -, -, hn⟩ := hr
    rw [hn]
    exact ⟨token, rfl⟩
  | fail e =>
    rw [hs] at hr
    obtain ⟨n, hn⟩ := hr
    rw [hn]
    rfl

/-- The lexer behind a round that ends the scan is at the end of the source. -/
lemma cursor_eq_of_round (hl : l.StandsIn source) (h : round.run l = .ok false l') :
    l'.cursor = byteLength source :=
  ((Trace.sound_round hl).standsIn_of_ok h).inPlace.atEnd_iff.mp (atEnd_of_round h)

lemma progresses_of_standsIn (hl : l.StandsIn source) : l.Progresses source := by
  have htokens := tokens_of_round hl
  unfold Lexer.Progresses
  cases hr : round.run l with
  | ok goesOn l' =>
    rw [hr] at htokens
    cases goesOn with
    | true  => exact ⟨cursor_lt_of_round hr, htokens⟩
    | false => exact ⟨cursor_eq_of_round hl hr, htokens⟩
  | error e l' =>
    rw [hr] at htokens
    exact ⟨htokens, (Trace.sound_round hl).failure e l' hr⟩

/-! ### Round after round -/

lemma Reaches.after_round (hr : Scanner.round.run l = .ok true l') (h : Reaches l' n p) :
    Reaches l (n + 1) p := by
  induction h with
  | start => exact .round .start hr
  | round h hr' ih => exact .round ih hr'

/-- The rounds of a scan start with lexers of its trace, and each scans a part of it. -/
lemma Reaches.mem_points (h : Reaches l n p) :
    p ∈ l :: Trace.rounds.points l ∧ Trace.rounds.points p ⊆ Trace.rounds.points l := by
  induction h with
  | start => exact ⟨.head _, List.Subset.refl _⟩
  | @round n p p' h hr ih =>
    obtain ⟨hmem, hsubset⟩ := ih
    have hpoints : Trace.rounds.points p = Trace.round.points p ++ Trace.rounds.points p' := by
      change Trace.roundPoints p = _
      rw [Trace.roundPoints_eq, hr]
      rfl
    rw [hpoints, List.append_subset] at hsubset
    refine ⟨?_, hsubset.2⟩
    have hafter := Trace.round.after_mem p
    rw [after, hr] at hafter
    rcases List.mem_cons.mp hafter with rfl | hafter
    · exact hmem
    · exact .tail _ (hsubset.1 hafter)

lemma Reaches.standsIn (h : Reaches l n p) (hl : l.StandsIn source) : p.StandsIn source :=
  (Trace.sound_rounds hl).points p h.mem_points.1

/-- Each round has moved the cursor and pushed one token. -/
lemma Reaches.moved_and_pushed (h : Reaches l n p) (hl : l.StandsIn source) :
    l.cursor + n ≤ p.cursor ∧ p.tokens.length = l.tokens.length + n := by
  induction h with
  | start => exact ⟨Nat.le_refl _, rfl⟩
  | round h hr ih =>
    have hround := progresses_of_standsIn (h.standsIn hl)
    unfold Lexer.Progresses at hround
    rw [hr] at hround
    obtain ⟨hlt, t, htokens⟩ := hround
    rw [htokens, List.length_append, List.length_singleton]
    omega

/-- A scan comes to a last round, and ends as it does. -/
lemma exists_last_round (l : Lexer) :
    ∃ n p, Reaches l n p ∧
      ((∃ l', round.run p = .ok false l' ∧ rounds l = .ok () l') ∨
        ∃ e l', round.run p = .error e l' ∧ rounds l = .error e l') := by
  fun_induction rounds l with
  | case1 l l' h ih =>
    obtain ⟨n, p, hreaches, hlast⟩ := ih
    exact ⟨n + 1, p, hreaches.after_round h, hlast⟩
  | case2 l l' h => exact ⟨0, l, .start, .inl ⟨l', h, rfl⟩⟩
  | case3 l e l' h => exact ⟨0, l, .start, .inr ⟨e, l', h, rfl⟩⟩

end Scanner

/-! ### Scans -/

namespace Lexer

variable {l l' : Lexer} {source : List Char} {e : ScanError}

lemma standsIn_atStart (htext : l.text = some source) (hlength : l.length = byteLength source) :
    l.atStart.StandsIn source :=
  ⟨[], source, rfl, htext, hlength, rfl⟩

lemma scanPoints_eq (htext : l.text = some source) :
    l.scanPoints = l.atStart :: Scanner.Trace.rounds.points l.atStart := by
  rw [scanPoints, htext]

/-- What the rounds leave, whether they fail or not, is one of the lexers of the scan. -/
lemma after_mem_scanPoints (htext : l.text = some source) :
    Scanner.after Scanner.rounds l.atStart ∈ l.scanPoints :=
  scanPoints_eq htext ▸ Scanner.Trace.rounds.after_mem l.atStart

lemma scan_of_rounds_ok (htext : l.text = some source)
    (h : Scanner.rounds l.atStart = .ok () l') :
    l' ∈ l.scanPoints ∧ l.scan = (.ok l'.tokens, l') := by
  have hafter := after_mem_scanPoints htext
  unfold Scanner.after EStateM.run at hafter
  rw [h] at hafter
  exact ⟨hafter, by rw [scan, htext, h]⟩

lemma scan_of_rounds_error (htext : l.text = some source)
    (h : Scanner.rounds l.atStart = .error e l') :
    l' ∈ l.scanPoints ∧ l.scan = (.error e, { l' with tokens := [] }) := by
  have hafter := after_mem_scanPoints htext
  unfold Scanner.after EStateM.run at hafter
  rw [h] at hafter
  exact ⟨hafter, by rw [scan, htext, h]⟩

/-- The rounds of a scan, counted from its start. -/
lemma progresses_of_reaches {n : Nat} {p : Lexer} (hstart : l.atStart.StandsIn source)
    (h : Scanner.Reaches l.atStart n p) :
    n ≤ p.cursor ∧ p.tokens.length = n + 1 ∧ p.Progresses source := by
  obtain ⟨hcursor, htokens⟩ := h.moved_and_pushed hstart
  have hzero : l.atStart.cursor = 0 := rfl
  have hone : l.atStart.tokens.length = 1 := rfl
  exact ⟨by omega, by omega, Scanner.progresses_of_standsIn (h.standsIn hstart)⟩

end Lexer

/-- Between any two calls of a scan, of whatever lexer of a session, the lexer stands in its source.
Each round of the loop moves the cursor and pushes one token, or else it is the last one. There are
no more rounds that go on than bytes in the source, and then one that ends the scan. If it succeeds,
the cursor is at the end of the source, and there are at most two tokens more than bytes. -/
theorem Session.scan_stays_in_place {actions : List Action} {s : Session} {i : Nat} {l : Lexer}
    {source : String} (hrun : Session.empty.run actions = some s) (hi : s.lexers[i]? = some l)
    (hsource : l.source = some source) :
    (∀ p ∈ l.scanPoints, p.InPlace source.toList) ∧
      (∀ n p, Scanner.Reaches l.atStart n p →
        p ∈ l.scanPoints ∧ n ≤ p.cursor ∧ p.tokens.length = n + 1 ∧
          p.Progresses source.toList) ∧
      (∃ n p, Scanner.Reaches l.atStart n p ∧ n ≤ source.utf8ByteSize ∧
        ((∃ l', Scanner.round.run p = .ok false l' ∧ l' ∈ l.scanPoints ∧
            l.scan = (.ok l'.tokens, l')) ∨
          ∃ e l', Scanner.round.run p = .error e l' ∧ l' ∈ l.scanPoints ∧
            l.scan = (.error e, { l' with tokens := [] }))) ∧
      ∀ ts, l.result = .ok ts →
        l.scan.2.cursor = source.utf8ByteSize ∧ ts.length ≤ source.utf8ByteSize + 2 := by
  have hholds := (Session.tracks_empty.run hrun).holds hi
  have htext : l.text = some source.toList := by
    obtain ⟨cs, htext, rfl⟩ := Option.map_eq_some_iff.mp hsource
    rw [htext, String.toList_ofList]
  have hstart := Lexer.standsIn_atStart htext (hholds.length _ htext)
  have hsize := byteLength_toList source
  obtain ⟨n, p, hreaches, hlast⟩ := Scanner.exists_last_round l.atStart
  obtain ⟨hcursor, htokens, hprogresses⟩ := Lexer.progresses_of_reaches hstart hreaches
  have hle := (hreaches.standsIn hstart).inPlace.cursor_le
  refine ⟨fun q hq => ?_, fun m q hq => ?_, ⟨n, p, hreaches, by omega, ?_⟩, fun ts hts => ?_⟩
  · rw [Lexer.scanPoints_eq htext] at hq
    exact ((Scanner.Trace.sound_rounds hstart).points q hq).inPlace
  · rw [Lexer.scanPoints_eq htext]
    exact ⟨hq.mem_points.1, Lexer.progresses_of_reaches hstart hq⟩
  · rcases hlast with ⟨l', hr, hrounds⟩ | ⟨e, l', hr, hrounds⟩
    · exact .inl ⟨l', hr, Lexer.scan_of_rounds_ok htext hrounds⟩
    · exact .inr ⟨e, l', hr, Lexer.scan_of_rounds_error htext hrounds⟩
  · rcases hlast with ⟨l', hr, hrounds⟩ | ⟨e, l', hr, hrounds⟩
    · have hscan := (Lexer.scan_of_rounds_ok htext hrounds).2
      rw [Lexer.result, hscan] at hts
      cases hts
      rw [hscan]
      unfold Lexer.Progresses at hprogresses
      rw [hr] at hprogresses
      obtain ⟨hend, t, hpushed⟩ := hprogresses
      refine ⟨hend.trans hsize, ?_⟩
      rw [hpushed, List.length_append, List.length_singleton]
      omega
    · rw [Lexer.result, (Lexer.scan_of_rounds_error htext hrounds).2] at hts
      cases hts

/-- A lexer whose cursor is behind the end of another source scans a string with a character of two
bytes, and then a NUL. -/
theorem Session.scan_of_nul_stays_in_place :
    ∃ s l, Session.empty.run
        [.create none (some "let abc = 1; "), .scan 0, .load 0 "'é'\x00"] = some s ∧
      s.lexers[0]? = some l ∧ l.source = some "'é'\x00" ∧
      (∀ p ∈ l.scanPoints, p.InPlace "'é'\x00".toList) ∧
      ∃ n p, Scanner.Reaches l.atStart n p ∧ n ≤ "'é'\x00".utf8ByteSize := by
  obtain ⟨s, l, hrun, hi, hsource⟩ : ∃ s l, Session.empty.run
      [.create none (some "let abc = 1; "), .scan 0, .load 0 "'é'\x00"] = some s ∧
      s.lexers[0]? = some l ∧ l.source = some "'é'\x00" :=
    ⟨_, _, rfl, rfl, congrArg some String.ofList_toList⟩
  obtain ⟨hpoints, -, ⟨n, p, hreaches, hn, -⟩, -⟩ := Session.scan_stays_in_place hrun hi hsource
  exact ⟨s, l, hrun, hi, hsource, hpoints, n, p, hreaches, hn⟩

end DeclLexer
