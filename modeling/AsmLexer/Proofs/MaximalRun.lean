/-!
# Maximal runs

All the characters of a class that stand at the front of a text. A reader takes them one by one up
to the first character outside the class; here a run is described by what it is made of and by what
comes after it.
-/

namespace AsmLexer.Text

/-- What comes next, if anything does, is outside the class. -/
def NoneAhead (p : Char → Bool) (rest : List Char) : Prop :=
  ∀ c ∈ rest.head?, p c = false

structure MaximalRun (p : Char → Bool) (run rest : List Char) : Prop where
  all : ∀ c ∈ run, p c = true
  stops : NoneAhead p rest

variable {p : Char → Bool}

@[simp] theorem noneAhead_nil : NoneAhead p [] := by
  simp [NoneAhead]

@[simp] theorem noneAhead_cons {c : Char} {rest : List Char} :
    NoneAhead p (c :: rest) ↔ p c = false := by
  simp [NoneAhead]

theorem NoneAhead.mono {q : Char → Bool} {rest : List Char} (h : NoneAhead q rest)
    (hpq : ∀ {c}, p c = true → q c = true) : NoneAhead p rest := by
  intro c hc
  apply Bool.eq_false_iff.mpr
  intro hp
  exact Bool.eq_false_iff.mp (h c hc) (hpq hp)

theorem takeWhile_eq_nil_iff {text : List Char} : text.takeWhile p = [] ↔ NoneAhead p text := by
  cases text with
  | nil => simp
  | cons c rest => cases hc : p c <;> simp [hc]

theorem MaximalRun.takeWhile_append {run rest : List Char} (h : MaximalRun p run rest) :
    (run ++ rest).takeWhile p = run := by
  rw [List.takeWhile_append_of_pos h.all, takeWhile_eq_nil_iff.mpr h.stops, List.append_nil]

theorem MaximalRun.notMem {run rest : List Char} (h : MaximalRun p run rest) {c : Char}
    (hc : p c = false) : c ∉ run := by
  intro hmem
  simp [h.all c hmem] at hc

theorem exists_maximalRun (p : Char → Bool) (text : List Char) :
    ∃ run rest, text = run ++ rest ∧ MaximalRun p run rest := by
  refine ⟨text.takeWhile p, text.dropWhile p, List.takeWhile_append_dropWhile.symm, ?_, ?_⟩
  · exact fun c hc ↦ List.all_eq_true.mp List.all_takeWhile c hc
  · intro c hc
    have hfirst := List.head?_dropWhile_not p text
    rw [Option.mem_def.mp hc] at hfirst
    exact hfirst

end AsmLexer.Text
