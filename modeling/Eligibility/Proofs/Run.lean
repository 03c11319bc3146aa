import Mathlib.Data.List.TakeWhile

/-!
# Runs of characters

A run is a text that is not empty and holds characters of one class only. A text that begins
with a character of the class splits into the longest run at its start and a rest that does not
go on with the class (`exists_run`); `takeWhile` and `dropWhile` find these two parts
(`IsRun.takeWhile_append`, `IsRun.dropWhile_append`).
-/

namespace Eligibility

variable {p q : Char → Bool} {run rest text : List Char}

theorem ne_of_class {c d : Char} (hc : p c = true) (hd : p d = false) : c ≠ d := by
  rintro rfl
  simp [hc] at hd

/-- Whether a text begins with a character of a class. -/
def startsWith (p : Char → Bool) (text : List Char) : Bool :=
  text.head?.any p

@[simp] theorem startsWith_nil : startsWith p [] = false := rfl

@[simp] theorem startsWith_cons (c : Char) : startsWith p (c :: text) = p c := rfl

/-- What begins with no character of a class begins with none of a smaller one. -/
theorem startsWith_eq_false_of_imp (h : ∀ c, p c = true → q c = true)
    (hq : startsWith q text = false) : startsWith p text = false := by
  cases text with
  | nil => rfl
  | cons c text =>
    rw [startsWith_cons] at hq ⊢
    exact Bool.eq_false_iff.mpr fun hp => by simp [h c hp] at hq

theorem takeWhile_of_startsWith (h : startsWith p text = false) : text.takeWhile p = [] := by
  cases text with
  | nil => rfl
  | cons c text => exact List.takeWhile_cons_of_neg (by simpa using h)

theorem dropWhile_of_startsWith (h : startsWith p text = false) : text.dropWhile p = text := by
  cases text with
  | nil => rfl
  | cons c text => exact List.dropWhile_cons_of_neg (by simpa using h)

theorem ne_nil_of_startsWith (h : startsWith p text = true) : text ≠ [] := by
  rintro rfl
  simp at h

theorem startsWith_append (h : text ≠ []) : startsWith p (text ++ rest) = startsWith p text := by
  obtain ⟨c, text, rfl⟩ := List.exists_cons_of_ne_nil h
  rfl

theorem startsWith_eq_false_of_append (h : startsWith p (text ++ rest) = false) :
    startsWith p text = false := by
  cases text with
  | nil => rfl
  | cons c text => exact h

theorem startsWith_take {n : Nat} (h : 0 < n) : startsWith p (text.take n) = startsWith p text := by
  obtain ⟨n, rfl⟩ := Nat.exists_eq_succ_of_ne_zero h.ne'
  cases text <;> rfl

theorem startsWith_dropWhile (p : Char → Bool) (text : List Char) :
    startsWith p (text.dropWhile p) = false := by
  have := List.head?_dropWhile_not p text
  unfold startsWith
  cases h : (text.dropWhile p).head? with
  | none => rfl
  | some c => simpa [h] using this

/-- One or more characters of a class. -/
structure IsRun (p : Char → Bool) (text : List Char) : Prop where
  ne_nil : text ≠ []
  all : ∀ c ∈ text, p c = true

namespace IsRun

theorem imp (h : IsRun p run) (hpq : ∀ c, p c = true → q c = true) : IsRun q run :=
  ⟨h.ne_nil, fun c hc => hpq c (h.all c hc)⟩

theorem startsWith_append (h : IsRun p run) (rest : List Char) :
    startsWith p (run ++ rest) = true := by
  obtain ⟨c, tail, rfl⟩ := List.exists_cons_of_ne_nil h.ne_nil
  exact h.all c (by simp)

/-- What begins with a run of one class does not begin with a character of another one. -/
theorem startsWith_append_eq_false (h : IsRun p run) (hpq : ∀ c, p c = true → q c = false)
    (rest : List Char) : startsWith q (run ++ rest) = false := by
  obtain ⟨c, tail, rfl⟩ := List.exists_cons_of_ne_nil h.ne_nil
  exact hpq c (h.all c (by simp))

theorem reverse (h : IsRun p run) : IsRun p run.reverse :=
  ⟨by simpa using h.ne_nil, fun c hc => h.all c (List.mem_reverse.mp hc)⟩

theorem takeWhile_append (h : IsRun p run) (hr : startsWith p rest = false) :
    (run ++ rest).takeWhile p = run := by
  rw [List.takeWhile_append_of_pos h.all, takeWhile_of_startsWith hr, List.append_nil]

theorem dropWhile_append (h : IsRun p run) (hr : startsWith p rest = false) :
    (run ++ rest).dropWhile p = rest := by
  rw [List.dropWhile_append_of_pos h.all, dropWhile_of_startsWith hr]

theorem append {run' : List Char} (h : IsRun p run) (h' : ∀ c ∈ run', p c = true) :
    IsRun p (run ++ run') :=
  ⟨by simp [h.ne_nil], fun c hc => (List.mem_append.mp hc).elim (h.all c) (h' c)⟩

end IsRun

theorem isRun_takeWhile (h : startsWith p text = true) : IsRun p (text.takeWhile p) := by
  refine ⟨fun hn => ?_, fun c hc => List.mem_takeWhile_imp hc⟩
  cases text with
  | nil => simp at h
  | cons c text =>
    rw [startsWith_cons] at h
    simp [h] at hn

/-- The longest run at the start of a text, and the rest. -/
theorem exists_run (h : startsWith p text = true) :
    ∃ run rest, text = run ++ rest ∧ IsRun p run ∧ startsWith p rest = false :=
  ⟨text.takeWhile p, text.dropWhile p, List.takeWhile_append_dropWhile.symm, isRun_takeWhile h,
    startsWith_dropWhile p text⟩

end Eligibility
