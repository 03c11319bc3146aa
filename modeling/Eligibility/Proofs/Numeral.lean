import Eligibility.Number.Layout
import Eligibility.Proofs.NumeralGrammar
import Eligibility.Proofs.Rounding

/-!
# Numerals of numbers

The shortest decimal of a magnitude reads back as the magnitude (`ofDecimal_shortest`), in
whichever style it is laid out (`value_ofMagnitude`). A numeral of digits is read from its own
spelling (`ofText?_toText`). Together, the text that a style gives to a finite number denotes
that number again.
-/

namespace Eligibility

namespace Magnitude

variable {m : Magnitude} {tie : Tie}

/-! ## Shortest decimals -/

/-- A grid point is taken only if it reads back. -/
theorem ofDecimal_gridPoint? {place : Int} {digits : Nat}
    (h : m.gridPoint? tie place = some digits) : ofDecimal digits place = m := by
  unfold gridPoint? at h
  simp only at h
  split at h
  · rename_i hbelow _
    exact Option.some.inj h ▸ of_decide_eq_true hbelow
  · rename_i _ habove
    exact Option.some.inj h ▸ of_decide_eq_true habove
  · cases h
  · rename_i hbelow habove
    split at h
    · exact Option.some.inj h ▸ of_decide_eq_true hbelow
    · exact Option.some.inj h ▸ of_decide_eq_true habove
    · exact Option.some.inj h ▸ of_decide_eq_true habove
    · rw [← Option.some.inj h]
      -- the even one of the two is the lower or the upper one
      rcases Nat.mod_two_eq_zero_or_one ((m.scaled place).1 / (m.scaled place).2) with heven | hodd
      · rw [heven]
        exact of_decide_eq_true hbelow
      · rw [hodd]
        exact of_decide_eq_true habove

theorem ofDecimal_firstGridPoint? : ∀ {tries : Nat} {place : Int} {digits : Nat} {place' : Int},
    m.firstGridPoint? tie tries place = some (digits, place') → ofDecimal digits place' = m
  | 0, _, _, _, h => by cases h
  | tries + 1, place, digits, place', h => by
    unfold firstGridPoint? at h
    split at h
    · rename_i found hfound
      obtain ⟨rfl, rfl⟩ := Prod.mk.inj (Option.some.inj h)
      exact ofDecimal_gridPoint? hfound
    · exact ofDecimal_firstGridPoint? h

theorem units_ne_zero (h : m.rank ≠ 0) : m.units ≠ 0 := by
  intro hzero
  obtain ⟨significand, doublings, hunits, hlog, hrank⟩ := m.exists_significand
  rw [hzero, Nat.log2_zero] at hlog
  rw [hzero, ← hlog] at hunits
  rw [← hlog] at hrank
  omega

/-- The value in full reads back. -/
theorem ofDecimal_exact (h : m.rank ≠ 0) : ofDecimal m.exact.1 m.exact.2 = m := by
  have hne : m.units * 5 ^ unitHalvings ≠ 0 := Nat.mul_ne_zero (units_ne_zero h) (by positivity)
  have hlog : unitHalvings ≤ (m.units * 5 ^ unitHalvings).log2 := by
    rw [Nat.le_log2 hne]
    calc 2 ^ unitHalvings ≤ 5 ^ unitHalvings := Nat.pow_le_pow_left (by decide) _
      _ ≤ m.units * 5 ^ unitHalvings :=
        Nat.le_mul_of_pos_left _ (Nat.pos_of_ne_zero (units_ne_zero h))
  simp only [exact, Nat.pow_eq]
  rw [ofDecimal_eq_nearest hne (by omega) (by omega)]
  refine nearest_of_units (by positivity) ?_
  have hleft : (-(unitHalvings : Int)).toNat = 0 := by omega
  have hright : (- -(unitHalvings : Int)).toNat = unitHalvings := by omega
  rw [hleft, hright, Nat.shiftLeft_eq, Nat.pow_zero, Nat.mul_one, Nat.mul_assoc, ← Nat.mul_pow]

/-- The shortest decimal of a magnitude reads back. -/
theorem ofDecimal_shortest (tie : Tie) (m : Magnitude) :
    ofDecimal (m.shortest tie).1 (m.shortest tie).2 = m := by
  unfold shortest
  split
  · rename_i h
    rw [ofDecimal_zero]
    obtain ⟨rank, hr⟩ := m
    cases h
    rfl
  · rename_i h
    cases hg : m.firstGridPoint? tie 20 m.topPlace with
    | none => exact ofDecimal_exact h
    | some found => exact ofDecimal_firstGridPoint? hg

/-- Only zero has the digits of zero. -/
theorem shortest_ne_zero (tie : Tie) (h : m.rank ≠ 0) :
    (m.shortest tie).1 ≠ 0 := by
  intro hzero
  have hback := ofDecimal_shortest tie m
  rw [hzero, ofDecimal_zero] at hback
  exact h (congrArg rank hback).symm

end Magnitude

/-! ## Digits -/

theorem digitsValue_eq (digits : List Char) : digitsValue digits = Nat.ofDigitChars 10 digits 0 :=
  Nat.ofDigitChars_eq_foldl.symm

theorem digitsValue_toDigits (n : Nat) : digitsValue (Nat.toDigits 10 n) = n := by
  rw [digitsValue_eq, Nat.ofDigitChars_ten_toDigits]

theorem digitsValue_append_zeros (digits : List Char) (n : Nat) :
    digitsValue (digits ++ List.replicate n '0') = digitsValue digits * 10 ^ n := by
  rw [digitsValue_eq, digitsValue_eq, Nat.ofDigitChars_append, Nat.ofDigitChars_replicate_zero,
    Nat.mul_comm]

theorem digitsValue_zeros_append (digits : List Char) (n : Nat) :
    digitsValue (List.replicate n '0' ++ digits) = digitsValue digits := by
  rw [digitsValue_eq, digitsValue_eq, Nat.ofDigitChars_append, Nat.ofDigitChars_replicate_zero,
    Nat.mul_zero]

theorem isRun_toDigits (n : Nat) : IsRun Char.isDigit (Nat.toDigits 10 n) :=
  ⟨Nat.toDigits_ne_nil, fun _ => Nat.isDigit_of_mem_toDigits (by decide) (by decide)⟩

theorem isDigit_of_mem_zeros {n : Nat} {c : Char} (h : c ∈ List.replicate n '0') :
    c.isDigit = true := by
  rw [List.eq_of_mem_replicate h]
  rfl

namespace Numeral

/-- A numeral of digits, at least one of them before the point. -/
structure IsSpelled (n : Numeral) : Prop where
  whole : IsRun Char.isDigit n.whole
  fraction : ∀ c ∈ n.fraction, c.isDigit = true

/-! ## Layout -/

theorem isSpelled_positional (keepsPoint negative : Bool) {digits : List Char}
    (h : IsRun Char.isDigit digits) (place : Int) :
    IsSpelled ⟨negative, (positional keepsPoint digits place).1,
      (positional keepsPoint digits place).2, none⟩ := by
  unfold positional
  split
  · refine ⟨h.append fun c => isDigit_of_mem_zeros, ?_⟩
    intro c hc
    cases keepsPoint <;> simp at hc
    exact hc ▸ rfl
  · split
    · rename_i p hlt
      refine ⟨⟨?_, fun c hc => h.all c (List.mem_of_mem_take hc)⟩,
        fun c hc => h.all c (List.mem_of_mem_drop hc)⟩
      intro hnil
      have := congrArg List.length hnil
      simp at this
      omega
    · refine ⟨⟨by simp, by simp⟩, ?_⟩
      intro c hc
      exact (List.mem_append.mp hc).elim isDigit_of_mem_zeros (h.all c)

/-- Positional digits denote the digits at their place, with more zeros and as many places less. -/
theorem positional_value (keepsPoint : Bool) (digits : List Char) (place : Int) :
    ∃ zeros : Nat,
      digitsValue ((positional keepsPoint digits place).1 ++
        (positional keepsPoint digits place).2) = digitsValue digits * 10 ^ zeros ∧
      -((positional keepsPoint digits place).2.length : Int) = place - zeros := by
  unfold positional
  split
  · rename_i p
    cases keepsPoint with
    | false => exact ⟨p, by simp [digitsValue_append_zeros], by simp⟩
    | true =>
      refine ⟨p + 1, ?_, by simp⟩
      rw [← digitsValue_append_zeros, List.replicate_succ', ← List.append_assoc]
      rfl
  · rename_i p
    refine ⟨0, ?_, ?_⟩
    · split
      · simp
      · have hzero : ∀ rest, ['0'] ++ (List.replicate (p + 1 - digits.length) '0' ++ rest) =
            List.replicate (p + 1 - digits.length + 1) '0' ++ rest := fun _ => rfl
        rw [hzero, digitsValue_zeros_append, Nat.pow_zero, Nat.mul_one]
    · split
      · simp
        omega
      · simp
        omega

theorem isSpelled_ofMagnitude (style : NumberStyle) (negative : Bool) (m : Magnitude) :
    IsSpelled (ofMagnitude style negative m) := by
  have hrun := isRun_toDigits (m.shortest style.tie).1
  unfold ofMagnitude
  simp only
  split
  · exact isSpelled_positional style.keepsPoint negative hrun _
  · obtain ⟨c, digits, heq⟩ := List.exists_cons_of_ne_nil hrun.ne_nil
    rw [heq] at hrun ⊢
    exact ⟨⟨by simp, by simpa using hrun.all c (by simp)⟩,
      fun d hd => hrun.all d (List.mem_of_mem_drop hd)⟩

/-- In every style a finite magnitude is written as a numeral that denotes it. -/
theorem value_ofMagnitude (style : NumberStyle) (negative : Bool) {m : Magnitude}
    (h : m.isFinite = true) : (ofMagnitude style negative m).value = .signed negative m := by
  have hshortest := Magnitude.ofDecimal_shortest style.tie m
  have hzero : m.rank = 0 → (m.shortest style.tie).1 = 0 := by
    intro hm
    rw [Magnitude.shortest, if_pos hm]
  unfold ofMagnitude value
  simp only
  split
  · obtain ⟨zeros, hvalue, hlength⟩ := positional_value style.keepsPoint
      (Nat.toDigits 10 (m.shortest style.tie).1) (m.shortest style.tie).2
    rw [hvalue, digitsValue_toDigits]
    simp only [Option.getD_none, Int.zero_sub, hlength]
    rw [Magnitude.ofDecimal_mul_pow hshortest h hzero]
  · rw [List.take_append_drop, digitsValue_toDigits]
    have hlength : 0 < (Nat.toDigits 10 (m.shortest style.tie).1).length := Nat.length_toDigits_pos
    have hplace : ((Nat.toDigits 10 (m.shortest style.tie).1).length : Int) - 1 +
        (m.shortest style.tie).2 - ((Nat.toDigits 10 (m.shortest style.tie).1).length - 1 : Nat) =
          (m.shortest style.tie).2 := by omega
    rw [Option.getD_some, List.length_drop, hplace, hshortest]

/-! ## Reading -/

theorem spells_exponentText (exponent : Option Int) :
    SpellsExponent (exponentText exponent) exponent := by
  cases exponent with
  | none => exact .absent
  | some e =>
    cases e with
    | ofNat e =>
      have hpower := SpellsExponent.power (.inl rfl) .plus (isRun_toDigits e)
      rwa [digitsValue_toDigits] at hpower
    | negSucc e =>
      have hpower := SpellsExponent.power (.inl rfl) .minus (isRun_toDigits (e + 1))
      rwa [digitsValue_toDigits] at hpower

/-- A numeral of digits is spelled by its own text. -/
theorem IsSpelled.spells {n : Numeral} (h : n.IsSpelled) : n.Spells n.toText := by
  obtain ⟨negative, whole, fraction, exponent⟩ := n
  obtain ⟨hwhole, hfraction⟩ := h
  have hpoint : SpellsFraction (if fraction.isEmpty then [] else '.' :: fraction) fraction := by
    cases fraction with
    | nil => exact .absent
    | cons c fraction => exact .point hfraction
  have hspells := Spells.mk (spellsSign_minus negative) hwhole.all hpoint (.inl hwhole.ne_nil)
    (spells_exponentText exponent)
  simpa only [toText, List.append_assoc] using hspells

/-- A numeral of digits is read from its spelling. -/
theorem ofText?_toText {n : Numeral} (h : n.IsSpelled) : ofText? n.toText = some n :=
  h.spells.ofText?

end Numeral

end Eligibility
