import DeclLexer.Text.Bytes
import Mathlib.Data.List.DropRight
import Mathlib.Data.List.TakeWhile

/-!
# Longest runs

A run of characters of a class is the longest one when it stops: at the end of the text or at a
character of another class. Then it is what `takeWhile` takes, and `dropWhile` leaves the rest.
-/

namespace DeclLexer.Text

variable {p q : Char → Bool} {run run' rest rest' tail cs : List Char} {c : Char}

/-- No run of the class goes on into the text. -/
def Stops (p : Char → Bool) (rest : List Char) : Prop :=
  ∀ c ∈ rest.head?, p c = false

/-- The text has ended, or goes on with a character of the class. -/
def Continues (p : Char → Bool) (rest : List Char) : Prop :=
  ∀ c ∈ rest.head?, p c

/-- A run is checked character by character, and not over all characters there are. -/
instance decidableRun : Decidable (∀ c ∈ run, p c) :=
  List.decidableBAll (fun c => p c) run

instance : Decidable (Stops p rest) :=
  @Option.decidableForallMem Char (fun c => p c = false) _ rest.head?

instance : Decidable (Continues p rest) :=
  @Option.decidableForallMem Char (fun c => p c) _ rest.head?

@[simp] lemma stops_nil : Stops p [] := by simp [Stops]

@[simp] lemma stops_cons : Stops p (c :: cs) ↔ p c = false := by simp [Stops]

@[simp] lemma continues_nil : Continues p [] := by simp [Continues]

@[simp] lemma continues_cons : Continues p (c :: cs) ↔ p c := by simp [Continues]

lemma Stops.mono (h : Stops q rest) (hpq : ∀ c, p c → q c) : Stops p rest := by
  intro c hc
  rw [Bool.eq_false_iff]
  intro hp
  have hq := h c hc
  rw [hpq c hp] at hq
  cases hq

lemma Continues.mono (h : Continues p rest) (hpq : ∀ c, p c → q c) : Continues q rest :=
  fun c hc => hpq c (h c hc)

lemma Continues.stops (h : Continues p rest) (hpq : ∀ c, p c → q c = false) : Stops q rest :=
  fun c hc => hpq c (h c hc)

/-- Nothing changes where a text has not ended. -/
lemma Continues.append (h : Continues p rest) (hne : rest ≠ []) : Continues p (rest ++ tail) := by
  obtain ⟨c, cs, rfl⟩ := List.exists_cons_of_ne_nil hne
  exact continues_cons.mpr (continues_cons.mp h)

lemma Stops.append (h : Stops p rest) (hne : rest ≠ []) : Stops p (rest ++ tail) := by
  obtain ⟨c, cs, rfl⟩ := List.exists_cons_of_ne_nil hne
  exact stops_cons.mpr (stops_cons.mp h)

lemma Stops.append_stops (h : Stops p rest) (htail : Stops p tail) : Stops p (rest ++ tail) := by
  by_cases hne : rest = []
  · rwa [hne, List.nil_append]
  · exact h.append hne

lemma Continues.of_append (h : Continues p (rest ++ tail)) : Continues p rest := by
  cases rest with
  | nil => exact continues_nil
  | cons c cs => exact fun d hd => h d hd

lemma Stops.of_append (h : Stops p (rest ++ tail)) : Stops p rest := by
  cases rest with
  | nil => exact stops_nil
  | cons c cs => exact fun d hd => h d hd

lemma stops_dropWhile : Stops p (cs.dropWhile p) := by
  intro c hc
  have := List.head?_dropWhile_not p cs
  rw [Option.mem_def] at hc
  simpa [hc] using this

/-- Where a longest run has stopped there is no character of its class. -/
lemma of_dropWhile_eq_cons {rest : List Char} (h : cs.dropWhile p = c :: rest) : p c = false :=
  stops_cons.mp (h ▸ stops_dropWhile)

/-- A text that begins with a character of the class begins with a run of it. -/
lemma ne_nil_of_stops (hc : p c) (hrest : Stops p rest) (heq : c :: cs = run ++ rest) :
    run ≠ [] := by
  rintro rfl
  rw [List.nil_append] at heq
  rw [← heq, stops_cons, hc] at hrest
  cases hrest

lemma takeWhile_run (hrun : ∀ c ∈ run, p c) (hrest : Stops p rest) :
    (run ++ rest).takeWhile p = run := by
  rw [List.takeWhile_append_of_pos hrun]
  cases rest with
  | nil => simp
  | cons c cs => rw [List.takeWhile_cons_of_neg (by simpa using hrest), List.append_nil]

lemma dropWhile_run (hrun : ∀ c ∈ run, p c) (hrest : Stops p rest) :
    (run ++ rest).dropWhile p = rest := by
  rw [List.dropWhile_append_of_pos hrun]
  cases rest with
  | nil => simp
  | cons c cs => rw [List.dropWhile_cons_of_neg (by simpa using hrest)]

/-- A text begins with one longest run of a class. -/
lemma run_eq_of_append_eq (hrun : ∀ c ∈ run, p c) (hrun' : ∀ c ∈ run', p c) (hrest : Stops p rest)
    (hrest' : Stops p rest') (h : run ++ rest = run' ++ rest') : run = run' ∧ rest = rest' := by
  have hlongest := congrArg (List.takeWhile p) h
  rw [takeWhile_run hrun hrest, takeWhile_run hrun' hrest'] at hlongest
  subst hlongest
  exact ⟨rfl, List.append_cancel_left h⟩

/-- No run of the class at the front of a text is longer than the one that stops. -/
lemma length_le_of_run (hrun : ∀ c ∈ run, p c) (hrun' : ∀ c ∈ run', p c) (hrest' : Stops p rest')
    (h : run ++ rest = run' ++ rest') : run.length ≤ run'.length := by
  have hlongest := congrArg (List.takeWhile p) h
  rw [List.takeWhile_append_of_pos hrun, takeWhile_run hrun' hrest'] at hlongest
  rw [← hlongest, List.length_append]
  exact Nat.le_add_right _ _

/-- A run that stops before what follows is the same with it. -/
lemma takeWhile_append_of_stops (h : Stops p (cs.dropWhile p ++ tail)) :
    (cs ++ tail).takeWhile p = cs.takeWhile p := by
  have hcs : cs ++ tail = cs.takeWhile p ++ (cs.dropWhile p ++ tail) := by
    rw [← List.append_assoc, List.takeWhile_append_dropWhile]
  rw [hcs, takeWhile_run (fun d hd => List.mem_takeWhile_imp hd) h]

lemma dropWhile_append_of_stops (h : Stops p (cs.dropWhile p ++ tail)) :
    (cs ++ tail).dropWhile p = cs.dropWhile p ++ tail := by
  have hcs : cs ++ tail = cs.takeWhile p ++ (cs.dropWhile p ++ tail) := by
    rw [← List.append_assoc, List.takeWhile_append_dropWhile]
  rw [hcs, dropWhile_run (fun d hd => List.mem_takeWhile_imp hd) h]

/-- What follows a run need not be looked at where the run has stopped before. -/
lemma stops_dropWhile_append (h : cs.dropWhile p = c :: rest) :
    Stops p (cs.dropWhile p ++ tail) :=
  stops_dropWhile.append (by simp [h])

/-- A text ends with a run of a class, and what stands before it does not end with the class. -/
lemma exists_last_run (p : Char → Bool) (cs : List Char) :
    ∃ front last, cs = front ++ last ∧ Stops p front.reverse ∧ ∀ c ∈ last, p c := by
  refine ⟨cs.rdropWhile p, cs.rtakeWhile p, List.rdropWhile_append_rtakeWhile.symm, ?_,
    fun c hc => List.mem_rtakeWhile_imp hc⟩
  rw [List.rdropWhile, List.reverse_reverse]
  exact stops_dropWhile

end DeclLexer.Text
