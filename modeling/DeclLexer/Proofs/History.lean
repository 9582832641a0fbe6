import DeclLexer.Proofs.Fault
import DeclLexer.Session

/-!
# Scans and what came before them

A scan depends on the source that was loaded last and on nothing else that was done before, with the
same lexer or with others. `Lexer.Holds` is what a lexer keeps true, `Session.Tracks` says it of all
lexers of a session, and a run of actions preserves it.
-/

namespace DeclLexer

open Text

/-! ### What has happened

A history is a list of actions, the newest first. -/

/-- The lexer that an action changes. -/
def Action.target? : Action → Option Nat
  | .load i _   => some i
  | .scan i     => some i
  | .create _ _ => none
  | .clone _    => none

/-- The number of lexers after a history. -/
def lexerCount : List Action → Nat
  | []                  => 0
  | .create _ _ :: past => lexerCount past + 1
  | .clone _ :: past    => lexerCount past + 1
  | .load _ _ :: past   => lexerCount past
  | .scan _ :: past     => lexerCount past

/-- The source that a lexer was given last. A clone starts with that of the lexer it was made of. -/
def latestSource : List Action → Nat → Option String
  | [],                       _ => none
  | .create _ source :: past, i => if i = lexerCount past then source else latestSource past i
  | .clone j :: past,         i => latestSource past (if i = lexerCount past then j else i)
  | .load j source :: past,   i => if i = j then some source else latestSource past i
  | .scan _ :: past,          i => latestSource past i

/-- A lexer was given a source at some time, or the lexer it was cloned from was, before that. -/
inductive EverGiven : List Action → Nat → Prop
  | created {past : List Action} (file : Option String) (source : String) :
      EverGiven (.create file (some source) :: past) (lexerCount past)
  | cloned {past : List Action} {j : Nat} (h : EverGiven past j) :
      EverGiven (.clone j :: past) (lexerCount past)
  | loaded {past : List Action} (i : Nat) (source : String) : EverGiven (.load i source :: past) i
  | before {past : List Action} {i : Nat} (action : Action) (hi : i < lexerCount past)
      (h : EverGiven past i) : EverGiven (action :: past) i

/-- What a scan gives when this is the source that was given last. -/
def resultOf (file : String) : Option String → Except ScanError (List Token)
  | some source => tokenize file source
  | none        => .error ⟨.emptySource, .ofBytes file 0⟩

/-! ### One lexer -/

namespace Lexer

variable {l : Lexer} {latest file : Option String} {source : String}

/-- What a lexer keeps true of itself: it has the source it was given last, and its length, and
before it was given one it has not scanned anything. -/
structure Holds (l : Lexer) (latest : Option String) : Prop where
  text : l.text = latest.map String.toList
  length : ∀ cs, l.text = some cs → l.length = byteLength cs
  fresh : l.text = none → l.cursor = 0 ∧ l.tokens = []

lemma holds_new : (Lexer.new file).Holds none :=
  ⟨rfl, nofun, fun _ => ⟨rfl, rfl⟩⟩

lemma holds_load : (l.load source).Holds (some source) := by
  refine ⟨rfl, fun cs h => ?_, nofun⟩
  cases h
  exact (byteLength_toList source).symm

/-- A scan gives the result of the latest source and keeps its tokens, and changes nothing else but
the cursor, and that only if there is a source. -/
lemma Holds.scan_eq (h : l.Holds latest) :
    ∃ cursor, (latest = none → cursor = 0) ∧
      l.scan = (resultOf l.file latest,
        { l with cursor, tokens := (resultOf l.file latest).toOption.getD [] }) := by
  cases latest with
  | some source =>
    obtain ⟨cursor, hscan⟩ := scan_of_text h.text (h.length _ h.text)
    rw [← tokenize_eq_scanText] at hscan
    exact ⟨cursor, nofun, hscan⟩
  | none =>
    obtain ⟨file, text, length, cursor, tokens⟩ := l
    obtain ⟨htext, -, hfresh⟩ := h
    obtain ⟨rfl, rfl⟩ := hfresh htext
    exact ⟨0, fun _ => rfl, scan_of_no_text htext⟩

lemma Holds.scan (h : l.Holds latest) : l.scan.2.Holds latest := by
  obtain ⟨cursor, hcursor, hscan⟩ := h.scan_eq
  rw [hscan]
  refine ⟨h.text, h.length, fun hnone => ?_⟩
  obtain rfl : latest = none := Option.map_eq_none_iff.mp (h.text.symm.trans hnone)
  exact ⟨hcursor rfl, rfl⟩

lemma Holds.result_eq (h : l.Holds latest) : l.result = resultOf l.file latest := by
  obtain ⟨cursor, -, hscan⟩ := h.scan_eq
  rw [result, hscan]

lemma Holds.file_scan (h : l.Holds latest) : l.scan.2.file = l.file := by
  obtain ⟨cursor, -, hscan⟩ := h.scan_eq
  rw [hscan]

lemma Holds.source_scan (h : l.Holds latest) : l.scan.2.source = l.source := by
  obtain ⟨cursor, -, hscan⟩ := h.scan_eq
  rw [hscan]
  rfl

/-- The tokens of a scan are kept, and after a failure there are none. -/
lemma Holds.tokens_scan (h : l.Holds latest) : l.scan.2.tokens = l.result.toOption.getD [] := by
  obtain ⟨cursor, -, hscan⟩ := h.scan_eq
  rw [result, hscan]

/-- A second scan gives what the first one gave. -/
lemma Holds.result_scan (h : l.Holds latest) : l.scan.2.result = l.result := by
  rw [h.result_eq, h.scan.result_eq, h.file_scan]

end Lexer

/-- A source, even an empty one, is never missing. -/
lemma tokenize_ne_emptySource {file source : String} {position : Position} :
    tokenize file source ≠ .error ⟨.emptySource, position⟩ := by
  intro h
  rw [tokenize_eq_scanText, scanText] at h
  obtain ⟨L, read, ahead, -, -, -, hcause⟩ := describes_of_scanFrom h
  exact hcause

/-! ### What the lexers were given -/

section

variable {past : List Action} {i j : Nat} {file latest : Option String} {source : String}

lemma everGiven_create :
    EverGiven (.create file latest :: past) i ↔
      (i = lexerCount past ∧ latest.isSome) ∨ (i < lexerCount past ∧ EverGiven past i) := by
  constructor
  · intro h
    cases h with
    | created => exact .inl ⟨rfl, rfl⟩
    | before _ hi h => exact .inr ⟨hi, h⟩
  · rintro (⟨rfl, hlatest⟩ | ⟨hi, h⟩)
    · obtain ⟨source, rfl⟩ := Option.isSome_iff_exists.mp hlatest
      exact .created file source
    · exact .before _ hi h

lemma everGiven_clone :
    EverGiven (.clone j :: past) i ↔
      (i = lexerCount past ∧ EverGiven past j) ∨ (i < lexerCount past ∧ EverGiven past i) := by
  constructor
  · intro h
    cases h with
    | cloned h => exact .inl ⟨rfl, h⟩
    | before _ hi h => exact .inr ⟨hi, h⟩
  · rintro (⟨rfl, h⟩ | ⟨hi, h⟩)
    · exact .cloned h
    · exact .before _ hi h

lemma everGiven_load :
    EverGiven (.load j source :: past) i ↔ i = j ∨ (i < lexerCount past ∧ EverGiven past i) := by
  constructor
  · intro h
    cases h with
    | loaded => exact .inl rfl
    | before _ hi h => exact .inr ⟨hi, h⟩
  · rintro (rfl | ⟨hi, h⟩)
    · exact .loaded i source
    · exact .before _ hi h

lemma everGiven_scan :
    EverGiven (.scan j :: past) i ↔ i < lexerCount past ∧ EverGiven past i := by
  constructor
  · intro h
    cases h with
    | before _ hi h => exact ⟨hi, h⟩
  · rintro ⟨hi, h⟩
    exact .before _ hi h

end

/-! ### All lexers of a session -/

namespace Session

variable {s s' : Session} {past actions : List Action} {action : Action} {i j : Nat} {l l' : Lexer}

/-- The lexers of a session hold what the history says. -/
structure Tracks (s : Session) (past : List Action) : Prop where
  count : s.lexers.length = lexerCount past
  holds : ∀ {i} {l : Lexer}, s.lexers[i]? = some l → l.Holds (latestSource past i)
  given : ∀ {i}, i < s.lexers.length → (EverGiven past i ↔ (latestSource past i).isSome)

lemma tracks_empty : empty.Tracks [] :=
  ⟨rfl, nofun, nofun⟩

/-- A new lexer leaves the others as they are. -/
lemma getElem?_add (hi : (s.add l').lexers[i]? = some l) :
    (i < s.lexers.length ∧ s.lexers[i]? = some l) ∨ (i = s.lexers.length ∧ l = l') := by
  rw [add, List.getElem?_append] at hi
  split at hi
  · next hlt => exact .inl ⟨hlt, hi⟩
  · next hge =>
    rw [List.getElem?_singleton] at hi
    split at hi
    · next hzero =>
      cases hi
      exact .inr ⟨by omega, rfl⟩
    · cases hi

/-- A new lexer is tracked when the history says what it holds, and the same of the others as
before. -/
lemma Tracks.add (h : s.Tracks past) (hcount : lexerCount (action :: past) = lexerCount past + 1)
    (hnew : l.Holds (latestSource (action :: past) (lexerCount past)))
    (hgiven : EverGiven (action :: past) (lexerCount past) ↔
      (latestSource (action :: past) (lexerCount past)).isSome)
    (hlatest : ∀ i < lexerCount past, latestSource (action :: past) i = latestSource past i)
    (hever : ∀ i < lexerCount past, EverGiven (action :: past) i ↔ EverGiven past i) :
    (s.add l).Tracks (action :: past) := by
  have hlength : (s.add l).lexers.length = lexerCount past + 1 := by
    rw [Session.add, List.length_append, h.count, List.length_singleton]
  refine ⟨by rw [hlength, hcount], fun {i l'} hi => ?_, fun {i} hi => ?_⟩
  · rcases getElem?_add hi with ⟨hlt, hold⟩ | ⟨rfl, rfl⟩
    · rw [hlatest i (h.count ▸ hlt)]
      exact h.holds hold
    · rwa [h.count]
  · rcases Nat.lt_or_ge i (lexerCount past) with hlt | hge
    · rw [hever i hlt, hlatest i hlt, h.given (by rwa [h.count])]
    · obtain rfl : i = lexerCount past := by omega
      exact hgiven

/-- A changed lexer is tracked when the history says what it holds, and the same of the others as
before. -/
lemma Tracks.set (h : s.Tracks past) (hj : s.lexers[j]? = some l)
    (hcount : lexerCount (action :: past) = lexerCount past)
    (hnew : l'.Holds (latestSource (action :: past) j))
    (hgiven : EverGiven (action :: past) j ↔ (latestSource (action :: past) j).isSome)
    (hlatest : ∀ i < lexerCount past, i ≠ j → latestSource (action :: past) i = latestSource past i)
    (hever : ∀ i < lexerCount past, i ≠ j → (EverGiven (action :: past) i ↔ EverGiven past i)) :
    Tracks { s with lexers := s.lexers.set j l' } (action :: past) := by
  refine ⟨by rw [List.length_set, h.count, hcount], fun {i m} hi => ?_, fun {i} hi => ?_⟩
  · by_cases heq : i = j
    · subst heq
      rw [List.getElem?_set_self (List.getElem?_eq_some_iff.mp hj).1] at hi
      cases hi
      exact hnew
    · rw [List.getElem?_set_ne (Ne.symm heq)] at hi
      have hlt := (List.getElem?_eq_some_iff.mp hi).1
      rw [hlatest i (h.count ▸ hlt) heq]
      exact h.holds hi
  · rw [List.length_set] at hi
    by_cases heq : i = j
    · subst heq
      exact hgiven
    · rw [hever i (h.count ▸ hi) heq, hlatest i (h.count ▸ hi) heq, h.given hi]

lemma Tracks.create {file latest : Option String} (h : s.Tracks past) (hl : l.Holds latest) :
    (s.add l).Tracks (.create file latest :: past) := by
  have hlatest : latestSource (.create file latest :: past) (lexerCount past) = latest := if_pos rfl
  refine h.add rfl (by rwa [hlatest]) ?_ ?_ ?_
  · rw [hlatest]
    simp [everGiven_create]
  · intro i hi
    exact if_neg (Nat.ne_of_lt hi)
  · intro i hi
    simp [everGiven_create, hi, Nat.ne_of_lt hi]

lemma Tracks.clone (h : s.Tracks past) (hj : s.lexers[j]? = some l) :
    (s.add l).Tracks (.clone j :: past) := by
  have hlatest : latestSource (.clone j :: past) (lexerCount past) = latestSource past j :=
    congrArg _ (if_pos rfl)
  refine h.add rfl (hlatest ▸ h.holds hj) ?_ ?_ ?_
  · rw [hlatest, ← h.given (List.getElem?_eq_some_iff.mp hj).1]
    simp [everGiven_clone]
  · intro i hi
    exact congrArg _ (if_neg (Nat.ne_of_lt hi))
  · intro i hi
    simp [everGiven_clone, hi, Nat.ne_of_lt hi]

lemma Tracks.load {source : String} (h : s.Tracks past) (hj : s.lexers[j]? = some l) :
    Tracks { s with lexers := s.lexers.set j (l.load source) } (.load j source :: past) := by
  have hlatest : latestSource (.load j source :: past) j = some source := if_pos rfl
  refine h.set hj rfl (hlatest ▸ Lexer.holds_load) ?_ ?_ ?_
  · rw [hlatest]
    simp [everGiven_load]
  · intro i _ hij
    exact if_neg hij
  · intro i hi hij
    simp [everGiven_load, hi, hij]

lemma Tracks.scan (h : s.Tracks past) (hj : s.lexers[j]? = some l) :
    (s.afterScan j l).Tracks (.scan j :: past) := by
  have hlt := (List.getElem?_eq_some_iff.mp hj).1
  have hset : Tracks { s with lexers := s.lexers.set j l.scan.2 } (.scan j :: past) := by
    refine h.set hj rfl (h.holds hj).scan ?_ (fun _ _ _ => rfl) ?_
    · rw [everGiven_scan, ← h.count]
      exact (and_iff_right hlt).trans (h.given hlt)
    · intro i hi _
      simp [everGiven_scan, hi]
  exact ⟨hset.count, hset.holds, hset.given⟩

/-- An action keeps the lexers in step with the history. -/
lemma Tracks.act (h : s.Tracks past) (hact : s.act action = some s') :
    s'.Tracks (action :: past) := by
  cases action with
  | create file latest =>
    cases latest with
    | none =>
      cases hact
      exact h.create Lexer.holds_new
    | some source =>
      cases hact
      exact h.create Lexer.holds_load
  | clone j =>
    obtain ⟨l, hj, rfl⟩ := Option.map_eq_some_iff.mp hact
    exact h.clone hj
  | load j source =>
    obtain ⟨l, hj, rfl⟩ := Option.map_eq_some_iff.mp hact
    exact h.load hj
  | scan j =>
    obtain ⟨l, hj, rfl⟩ := Option.map_eq_some_iff.mp hact
    exact h.scan hj

/-- A run of actions keeps the lexers in step with the history. -/
lemma Tracks.run (h : s.Tracks past) (hrun : s.run actions = some s') :
    s'.Tracks (actions.reverse ++ past) := by
  induction actions generalizing s past with
  | nil =>
    cases hrun
    exact h
  | cons action actions ih =>
    obtain ⟨s₁, hact, hrun⟩ := Option.bind_eq_some_iff.mp hrun
    rw [List.reverse_cons, List.append_assoc]
    exact ih (h.act hact) hrun

/-! ### What an action leaves alone -/

/-- An action leaves the lexers as they are that it does not change. -/
lemma getElem?_act (hact : s.act action = some s') (hi : s.lexers[i]? = some l)
    (htarget : action.target? ≠ some i) : s'.lexers[i]? = some l := by
  have hlt := (List.getElem?_eq_some_iff.mp hi).1
  have hadd (l' : Lexer) : (s.add l').lexers[i]? = some l := by
    rw [Session.add, List.getElem?_append_left hlt, hi]
  cases action with
  | create file latest =>
    cases latest with
    | none => cases hact; exact hadd _
    | some source => cases hact; exact hadd _
  | clone j =>
    obtain ⟨l', -, rfl⟩ := Option.map_eq_some_iff.mp hact
    exact hadd l'
  | load j source =>
    obtain ⟨l', -, rfl⟩ := Option.map_eq_some_iff.mp hact
    exact (List.getElem?_set_ne fun h => htarget (congrArg some h)).trans hi
  | scan j =>
    obtain ⟨l', -, rfl⟩ := Option.map_eq_some_iff.mp hact
    exact (List.getElem?_set_ne fun h => htarget (congrArg some h)).trans hi

/-- A run of actions leaves the lexers as they are that none of them changes. -/
lemma getElem?_run (hrun : s.run actions = some s') (hi : s.lexers[i]? = some l)
    (htarget : ∀ action ∈ actions, action.target? ≠ some i) : s'.lexers[i]? = some l := by
  induction actions generalizing s with
  | nil =>
    cases hrun
    exact hi
  | cons action actions ih =>
    obtain ⟨s₁, hact, hrun⟩ := Option.bind_eq_some_iff.mp hrun
    exact ih hrun (getElem?_act hact hi (htarget action (.head _)))
      fun action' h => htarget action' (.tail _ h)

end Session

/-- A scan in a session depends on the file and the latest source of its lexer only, however the
session came about. It fails for want of a source exactly if there never was one. It keeps the
tokens it gives and none if it fails, and neither it nor loading a source changes anything else; a
clone is one more lexer with the same contents. What is done with other lexers, clones among them,
does not touch a lexer. -/
theorem Session.scan_independent_of_history {actions : List Action} {s : Session} {i : Nat}
    {l : Lexer} (hrun : Session.empty.run actions = some s) (hi : s.lexers[i]? = some l) :
    l.result = resultOf l.file (latestSource actions.reverse i) ∧
      l.source = latestSource actions.reverse i ∧
      (l.result = .error ⟨.emptySource, .ofBytes l.file 0⟩ ↔ ¬ EverGiven actions.reverse i) ∧
      (∃ s' l', s.act (.scan i) = some s' ∧ s'.lexers[i]? = some l' ∧
        l'.tokens = l.result.toOption.getD [] ∧ l'.source = l.source ∧ l'.file = l.file ∧
        l'.result = l.result) ∧
      (∀ source, ∃ s' l', s.act (.load i source) = some s' ∧ s'.lexers[i]? = some l' ∧
        l'.source = some source ∧ l'.tokens = l.tokens ∧ l'.file = l.file) ∧
      (∃ s', s.act (.clone i) = some s' ∧ s'.lexers = s.lexers ++ [l]) ∧
      ∀ later s', s.run later = some s' → (∀ action ∈ later, action.target? ≠ some i) →
        s'.lexers[i]? = some l := by
  have htracks := tracks_empty.run hrun
  rw [List.append_nil] at htracks
  have hlt := (List.getElem?_eq_some_iff.mp hi).1
  have hl := htracks.holds hi
  refine ⟨hl.result_eq, ?_, ?_, ?_, ?_, ⟨s.add l, ?_, rfl⟩, ?_⟩
  · rw [Lexer.source, hl.text, Option.map_map]
    cases latestSource actions.reverse i with
    | none => rfl
    | some source => exact congrArg some String.ofList_toList
  · rw [htracks.given hlt, hl.result_eq]
    cases latestSource actions.reverse i with
    | none => exact ⟨fun _ => nofun, fun _ => rfl⟩
    | some source => exact ⟨fun h => absurd h tokenize_ne_emptySource, fun h => absurd rfl h⟩
  · refine ⟨s.afterScan i l, l.scan.2, ?_, ?_, hl.tokens_scan, hl.source_scan, hl.file_scan,
      hl.result_scan⟩
    · exact Option.map_eq_some_iff.mpr ⟨l, hi, rfl⟩
    · exact List.getElem?_set_self hlt
  · intro source
    refine ⟨{ s with lexers := s.lexers.set i (l.load source) }, l.load source, ?_, ?_, ?_, rfl,
      rfl⟩
    · exact Option.map_eq_some_iff.mpr ⟨l, hi, rfl⟩
    · exact List.getElem?_set_self hlt
    · exact congrArg some String.ofList_toList
  · exact Option.map_eq_some_iff.mpr ⟨l, hi, rfl⟩
  · intro later s' hrun' htarget
    exact getElem?_run hrun' hi htarget

/-- A clone of a scanned lexer keeps its source when the original gets another one. -/
theorem Session.scan_of_clone_independent :
    ∃ s l, Session.empty.run
        [.create none (some "a"), .scan 0, .clone 0, .load 0 "b", .scan 0] = some s ∧
      s.lexers[1]? = some l ∧ l.result = tokenize l.file "a" := by
  obtain ⟨s, l, hrun, hi⟩ : ∃ s l, Session.empty.run
      [.create none (some "a"), .scan 0, .clone 0, .load 0 "b", .scan 0] = some s ∧
      s.lexers[1]? = some l := ⟨_, _, rfl, rfl⟩
  exact ⟨s, l, hrun, hi, (Session.scan_independent_of_history hrun hi).1⟩

end DeclLexer
