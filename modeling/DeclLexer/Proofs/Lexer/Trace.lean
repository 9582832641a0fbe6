import DeclLexer.Lexer

/-!
# Traces of scanners

A scanner calls others, and between two calls the lexer stands where the first one has left it. A
trace of a scanner lists these lexers for whatever lexer it starts with. Its type says whose trace
it is, so a trace follows the definition of its scanner call by call. A call that changes the lexer
at one stroke has one point, the lexer behind it; a loop has the points of all its rounds.
-/

namespace DeclLexer

open Text

namespace Scanner

variable {α β : Type}

theorem after_bind (x : Scanner α) (f : α → Scanner β) (l : Lexer) :
    (x >>= f).after l =
      match x.run l with
      | .ok a l'    => (f a).after l'
      | .error _ l' => l' := by
  rw [after, EStateM.run_bind]
  cases x.run l <;> rfl

theorem getLastD_append (xs ys : List α) (a : α) :
    (xs ++ ys).getLastD a = ys.getLastD (xs.getLastD a) := by
  simp only [List.getLastD_eq_getLast?, List.getLast?_append, Option.getD_or]

/-- The lexers behind the calls of a scanner, in their order. The last one is what it leaves. -/
structure Trace (x : Scanner α) where
  points : Lexer → List Lexer
  getLastD_points : ∀ l, (points l).getLastD l = x.after l

namespace Trace

/-! ### Putting traces together -/

/-- A call that changes the lexer at one stroke. -/
def call (x : Scanner α) : Trace x where
  points l := [x.after l]
  getLastD_points _ := rfl

/-- A look at the lexer, which does not change it. -/
def look : Trace (get : Scanner Lexer) where
  points _ := []
  getLastD_points _ := rfl

/-- The end of a scanner that succeeds. -/
def done (a : α) : Trace (pure a : Scanner α) where
  points _ := []
  getLastD_points _ := rfl

/-- The end of a scanner that fails. -/
def fail (e : ScanError) : Trace (throw e : Scanner α) where
  points _ := []
  getLastD_points _ := rfl

/-- One scanner behind another. -/
def bind {x : Scanner α} {f : α → Scanner β} (t : Trace x) (u : ∀ a, Trace (f a)) :
    Trace (x >>= f) where
  points l :=
    t.points l ++
      match x.run l with
      | .ok a l'   => (u a).points l'
      | .error _ _ => []
  getLastD_points l := by
    rw [after_bind, getLastD_append, t.getLastD_points, after]
    cases x.run l with
    | ok a l'    => exact (u a).getLastD_points l'
    | error e l' => rfl

/-- One of two scanners. -/
def ite {c : Prop} [Decidable c] {x y : Scanner α} (t : Trace x) (u : Trace y) :
    Trace (if c then x else y) where
  points l := if c then t.points l else u.points l
  getLastD_points l := by
    split
    · exact t.getLastD_points l
    · exact u.getLastD_points l

/-- What a scanner leaves is one of the lexers of its trace, unless it changes nothing. -/
theorem after_mem {x : Scanner α} (t : Trace x) (l : Lexer) : x.after l ∈ l :: t.points l := by
  rw [← t.getLastD_points l, List.getLastD_eq_getLast?]
  cases hlast : (t.points l).getLast? with
  | none => exact List.mem_cons_self
  | some p => exact List.mem_cons_of_mem _ (List.mem_of_getLast? hlast)

/-! ### The scanners of lexemes -/

def sign (lexeme : Lexeme) : Trace (Scanner.sign lexeme) :=
  look.bind fun _ => (call (advance 1)).bind fun _ => call (emit _ _)

def word : Trace Scanner.word :=
  look.bind fun _ => (call (eat isNameChar)).bind fun _ => call (emit _ _)

def digits : Trace Scanner.digits :=
  (call (eat Char.isDigit)).bind fun _ => look.bind fun _ =>
    ite ((fail _).bind fun _ => done _) (done _)

def number : Trace Scanner.number :=
  look.bind fun _ => digits.bind fun _ => look.bind fun _ =>
    ite ((call (advance 1)).bind fun _ => digits.bind fun _ => call (emit _ _)) (call (emit _ _))

def quoted (opening : Char) : Trace (Scanner.quoted opening) :=
  look.bind fun _ => (call (eat isBodyChar)).bind fun _ => look.bind fun _ =>
    ite ((call (advance 1)).bind fun _ => call (emit _ _)) (ite (fail _) (fail _))

def lexeme : Trace Scanner.lexeme :=
  look.bind fun _ =>
    ite (sign _) <| ite (sign _) <| ite ((call (advance 1)).bind fun _ => quoted _) <|
      ite word <| ite number (fail _)

def next : Trace Scanner.next :=
  look.bind fun _ => ite ((call (push _)).bind fun _ => done _) (lexeme.bind fun _ => done _)

/-! ### Loops -/

/-- The lexers behind the blanks at the cursor, one after another. -/
def blanks (l : Lexer) : List Lexer :=
  if !l.atEnd && isBlank l.peek then l.advance 1 :: blanks (l.advance 1) else []
termination_by l.length - l.cursor
decreasing_by
  simp_all [Lexer.atEnd, Lexer.advance]
  omega

def skipBlanks : Trace (modify Scanner.skipBlanks) where
  points := blanks
  getLastD_points l := by
    change (blanks l).getLastD l = Scanner.skipBlanks l
    fun_induction blanks l with
    | case1 l h ih => rw [List.getLastD_cons, ih, Scanner.skipBlanks.eq_def l, if_pos h]
    | case2 l h    => rw [Scanner.skipBlanks, if_neg h, List.getLastD_nil]

def round : Trace Scanner.round :=
  skipBlanks.bind fun _ => next

/-- The lexers of round after round, until the source ends or a lexeme fails. -/
def roundPoints (l : Lexer) : List Lexer :=
  round.points l ++
    match _h : Scanner.round.run l with
    | .ok true l'  => roundPoints l'
    | .ok false _  => []
    | .error _ _   => []
termination_by l.length - l.cursor
decreasing_by exact remaining_lt_of_round _h

theorem roundPoints_eq (l : Lexer) :
    roundPoints l =
      round.points l ++
        match Scanner.round.run l with
        | .ok true l'  => roundPoints l'
        | .ok false _  => []
        | .error _ _   => [] := by
  rw [roundPoints]
  split <;> simp_all

def rounds : Trace (Scanner.rounds : Scanner Unit) where
  points := roundPoints
  getLastD_points l := by
    unfold after EStateM.run
    fun_induction Scanner.rounds l with
    | case1 l l' h ih =>
      rw [roundPoints_eq, getLastD_append, round.getLastD_points, after, h]
      exact ih
    | case2 l l' h   => rw [roundPoints_eq, getLastD_append, round.getLastD_points, after, h]; rfl
    | case3 l e l' h => rw [roundPoints_eq, getLastD_append, round.getLastD_points, after, h]; rfl

/-- A scan is a round, and a scan from there if it goes on. -/
theorem rounds_eq_bind :
    (Scanner.rounds : Scanner Unit) =
      Scanner.round >>= fun goesOn => if goesOn then (Scanner.rounds : Scanner Unit) else pure () := by
  funext l
  change Scanner.rounds l = (Scanner.round >>= _).run l
  rw [EStateM.run_bind]
  cases h : Scanner.round.run l with
  | ok goesOn l' =>
    cases goesOn with
    | true  => exact rounds_of_continue h
    | false => exact rounds_of_stop h
  | error e l' => exact rounds_of_error h

theorem points_rounds (l : Lexer) :
    rounds.points l = (round.bind fun goesOn => ite (c := goesOn) rounds (done ())).points l := by
  change roundPoints l = round.points l ++ _
  rw [roundPoints_eq]
  cases Scanner.round.run l with
  | ok goesOn l' => cases goesOn <;> rfl
  | error e l'   => rfl

/-- A word, a blank, and a string with a character of two bytes. -/
example : (rounds.points (Lexer.withSource "a 'é'" none)).map Lexer.cursor =
    [1, 1, 2, 3, 5, 6, 6, 6] := by decide +kernel

end Trace
end Scanner
end DeclLexer
