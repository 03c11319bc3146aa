/-!
# Outcomes

A computation that may fail and is carried on with its value succeeds when both parts do
(`bind_eq_ok_iff`). Readers of every kind are taken apart this way. A computation over a list
succeeds when it does for every member (`mapM_eq_ok_iff`), and fails as it does for the first
member where it fails (`mapM_eq_error_iff`).
-/

namespace Eligibility

variable {ε α β : Type} {x : Except ε α} {f : α → Except ε β} {b : β}

theorem bind_eq_ok_iff : x >>= f = .ok b ↔ ∃ a, x = .ok a ∧ f a = .ok b := by
  cases x with
  | error e =>
    constructor
    · intro h
      cases h
    · rintro ⟨a, h, -⟩
      cases h
  | ok a =>
    constructor
    · intro h
      exact ⟨a, rfl, h⟩
    · rintro ⟨a', h, hf⟩
      rw [Except.ok.inj h]
      exact hf

theorem bind_eq_error_iff {e : ε} :
    x >>= f = .error e ↔ x = .error e ∨ ∃ a, x = .ok a ∧ f a = .error e := by
  cases x with
  | error e' =>
    constructor
    · intro h
      exact .inl (congrArg Except.error (Except.error.inj h))
    · rintro (h | ⟨a, h, -⟩)
      · exact congrArg Except.error (Except.error.inj h)
      · cases h
  | ok a =>
    constructor
    · exact fun h => .inr ⟨a, rfl, h⟩
    · rintro (h | ⟨a', h, hf⟩)
      · cases h
      · rw [Except.ok.inj h]
        exact hf

theorem map_eq_ok_iff {g : α → β} : x.map g = .ok b ↔ ∃ a, x = .ok a ∧ g a = b := by
  cases x <;> simp [Except.map]

theorem map_eq_error_iff {g : α → β} {e : ε} : x.map g = .error e ↔ x = .error e := by
  cases x <;> simp [Except.map]

/-! ## Over lists -/

variable {g : α → Except ε β} {l : List α}

theorem mapM_eq_ok_iff {bs : List β} : l.mapM g = .ok bs ↔ l.map g = bs.map .ok := by
  induction l generalizing bs with
  | nil =>
    rw [List.mapM_nil]
    constructor
    · intro h
      rw [← Except.ok.inj h]
      rfl
    · intro h
      rw [List.map_eq_nil_iff.mp h.symm]
      rfl
  | cons a l ih =>
    simp only [List.mapM_cons, bind_eq_ok_iff, ih, List.map_cons]
    constructor
    · rintro ⟨b, hb, bs', hbs, h⟩
      rw [← Except.ok.inj h, hb, hbs]
      rfl
    · intro h
      obtain ⟨b, bs', rfl, hb, hbs⟩ := List.map_eq_cons_iff.mp h.symm
      exact ⟨b, hb.symm, bs', hbs.symm, rfl⟩

/-- A member of a list with what comes before it is the first one with nothing before it, or a
later one. -/
theorem exists_split_cons {P : List α → α → Prop} {a : α} :
    (∃ before b after, a :: l = before ++ b :: after ∧ P before b) ↔
      P [] a ∨ ∃ before b after, l = before ++ b :: after ∧ P (a :: before) b := by
  constructor
  · rintro ⟨before, b, after, h, hP⟩
    cases before with
    | nil =>
      cases h
      exact .inl hP
    | cons c before =>
      cases h
      exact .inr ⟨before, b, after, rfl, hP⟩
  · rintro (hP | ⟨before, b, after, rfl, hP⟩)
    · exact ⟨[], a, l, rfl, hP⟩
    · exact ⟨a :: before, b, after, rfl, hP⟩

/-- The results over a list are those for its members. -/
theorem mem_iff_of_mapM {bs : List β} (h : l.mapM g = .ok bs) {b : β} :
    b ∈ bs ↔ ∃ a ∈ l, g a = .ok b := by
  rw [← List.mem_map, mapM_eq_ok_iff.mp h]
  constructor
  · exact List.mem_map_of_mem
  · intro hb
    obtain ⟨b', hb', heq⟩ := List.mem_map.mp hb
    rwa [← Except.ok.inj heq]

theorem forall_of_mapM {bs : List β} (h : l.mapM g = .ok bs) : ∀ a ∈ l, ∃ b, g a = .ok b := by
  intro a ha
  have hmem := List.mem_map_of_mem (f := g) ha
  rw [mapM_eq_ok_iff.mp h] at hmem
  obtain ⟨b, -, hb⟩ := List.mem_map.mp hmem
  exact ⟨b, hb.symm⟩

/-- The first failure decides, and what comes after it does not count. -/
theorem mapM_eq_error_iff {e : ε} : l.mapM g = .error e ↔ ∃ before a after,
    l = before ++ a :: after ∧ (∀ b ∈ before, ∃ y, g b = .ok y) ∧ g a = .error e := by
  induction l with
  | nil =>
    rw [List.mapM_nil]
    constructor
    · intro h
      cases h
    · rintro ⟨before, a, after, h, -⟩
      simp at h
  | cons a l ih =>
    simp only [List.mapM_cons, bind_eq_error_iff, ih]
    constructor
    · rintro (ha | ⟨y, hy, ⟨before, b, after, rfl, hbefore, hb⟩ | ⟨ys, -, h⟩⟩)
      · exact ⟨[], a, l, rfl, List.forall_mem_nil _, ha⟩
      · exact ⟨a :: before, b, after, rfl, List.forall_mem_cons.mpr ⟨⟨y, hy⟩, hbefore⟩, hb⟩
      · cases h
    · rintro ⟨before, b, after, h, hbefore, hb⟩
      cases before with
      | nil =>
        cases h
        exact .inl hb
      | cons c before =>
        cases h
        obtain ⟨⟨y, hy⟩, hbefore⟩ := List.forall_mem_cons.mp hbefore
        exact .inr ⟨y, hy, .inl ⟨before, b, after, rfl, hbefore, hb⟩⟩

theorem exists_mapM_eq_ok_iff : (∃ bs, l.mapM g = .ok bs) ↔ ∀ a ∈ l, ∃ b, g a = .ok b := by
  refine ⟨fun ⟨bs, h⟩ => forall_of_mapM h, fun h => ?_⟩
  cases hresults : l.mapM g with
  | ok bs => exact ⟨bs, rfl⟩
  | error e =>
    obtain ⟨before, a, after, rfl, -, ha⟩ := mapM_eq_error_iff.mp hresults
    obtain ⟨b, hb⟩ := h a List.mem_append_cons_self
    cases ha.symm.trans hb

end Eligibility
