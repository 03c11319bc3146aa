import Eligibility.Json.Lexeme
import Eligibility.Proofs.Numeral

/-!
# Strict numerals

A numeral is strict if it has digits before the point and no needless zero is the first of them.
Such a numeral is cut off its own text (`Numeral.cutStrict?_toText`). The naturals, and the
numbers in every style, are written strictly (`isStrict_toDigits`, `isStrict_ofMagnitude`).
-/

namespace Eligibility

variable {rest : List Char} {p : Char → Bool}

/-- Only zero has the first digit zero. -/
theorem startsWith_toDigits : ∀ {n : Nat}, n ≠ 0 →
    startsWith (· == '0') (Nat.toDigits 10 n) = false := by
  intro n
  induction n using Nat.strongRecOn with
  | ind n ih =>
    intro hn
    by_cases hlt : n < 10
    · rw [Nat.toDigits_of_lt_base hlt]
      simpa using hn
    · rw [Nat.toDigits_of_base_le (by decide) (Nat.not_lt.mp hlt),
        startsWith_append Nat.toDigits_ne_nil]
      exact ih (n / 10) (by omega) (by omega)

namespace Numeral

/-- A numeral of digits with none before the point but those that are needed. -/
structure IsStrict (n : Numeral) : Prop extends n.IsSpelled where
  leading : n.whole = ['0'] ∨ startsWith (· == '0') n.whole = false

/-! ## Reading -/

variable {numeral : Numeral} {exponent : Option Int}

theorem startsWith_exponentText (he : p 'e' = false) (hp : ∀ c, p c = true → isPart c = true)
    (hrest : startsWith isPart rest = false) :
    startsWith p (exponentText exponent ++ rest) = false := by
  cases exponent with
  | none => exact startsWith_eq_false_of_imp hp hrest
  | some e => cases e <;> exact he

/-- The point with the digits after it, if there are any. -/
def fractionText (fraction : List Char) : List Char :=
  if fraction.isEmpty then [] else '.' :: fraction

/-- After its sign a strict numeral is read before everything that it does not go on with. -/
theorem cutUnsigned?_append (h : numeral.IsStrict) (hrest : startsWith isPart rest = false) :
    cutUnsigned? numeral.negative (numeral.whole ++ (fractionText numeral.fraction ++
      (exponentText numeral.exponent ++ rest))) = some (numeral, rest) := by
  obtain ⟨negative, whole, fraction, exponent⟩ := numeral
  obtain ⟨⟨hwhole, hfraction⟩, hleading⟩ := h
  simp only at hwhole hfraction hleading ⊢
  have hexponent := (spells_exponentText exponent).cutExponent?_append hrest
  have hdigit : startsWith Char.isDigit (exponentText exponent ++ rest) = false :=
    startsWith_exponentText (by decide) (fun c hc => by simp [isPart, hc]) hrest
  have hpoint : startsWith (· == '.') (exponentText exponent ++ rest) = false :=
    startsWith_exponentText (by decide) (fun c hc => by simp_all [isPart]) hrest
  cases fraction with
  | nil =>
    simp only [fractionText, List.isEmpty_nil, if_true, List.nil_append]
    unfold cutUnsigned?
    rw [hwhole.takeWhile_append hdigit, hwhole.dropWhile_append hdigit]
    split
    · exact absurd rfl hwhole.ne_nil
    · simp at hleading
    · rename_i heq
      simp [heq] at hpoint
    · rw [hexponent]
      rfl
  | cons c fraction =>
    have hrun : IsRun Char.isDigit (c :: fraction) := ⟨by simp, hfraction⟩
    have hstop : startsWith Char.isDigit
        ('.' :: ((c :: fraction) ++ (exponentText exponent ++ rest))) = false := rfl
    simp only [fractionText, List.isEmpty_cons, Bool.false_eq_true, if_false, List.cons_append]
    unfold cutUnsigned?
    rw [← List.cons_append, hwhole.takeWhile_append hstop, hwhole.dropWhile_append hstop]
    split
    · exact absurd rfl hwhole.ne_nil
    · simp at hleading
    · rename_i heq
      cases heq
      rw [hrun.takeWhile_append hdigit, hrun.dropWhile_append hdigit, hexponent]
      rfl
    · rename_i heq
      simp at heq

/-- A strict numeral is read before everything that it does not go on with. -/
theorem cutStrict?_toText (h : numeral.IsStrict) (hrest : startsWith isPart rest = false) :
    cutStrict? (numeral.toText ++ rest) = some (numeral, rest) := by
  have hcut := cutUnsigned?_append h hrest
  have htext : numeral.toText ++ rest = (if numeral.negative then ['-'] else []) ++
      (numeral.whole ++ (fractionText numeral.fraction ++
        (exponentText numeral.exponent ++ rest))) := by
    simp [toText, fractionText]
  rw [htext]
  cases hnegative : numeral.negative with
  | true => rwa [hnegative] at hcut
  | false =>
    rw [hnegative] at hcut
    obtain ⟨c, whole, hwhole⟩ := List.exists_cons_of_ne_nil h.whole.ne_nil
    have hc := h.whole.all c (by simp [hwhole])
    rw [hwhole] at hcut ⊢
    simp only [Bool.false_eq_true, if_false, List.nil_append, List.cons_append]
    rw [cutStrict?]
    · exact hcut
    · rintro rest' heq
      cases heq
      simp at hc

/-! ## Writing -/

theorem isStrict_toDigits (n : Nat) : IsStrict ⟨false, Nat.toDigits 10 n, [], none⟩ where
  whole := isRun_toDigits n
  fraction := by simp
  leading := by
    by_cases hn : n = 0
    · exact .inl (hn ▸ Nat.toDigits_zero 10)
    · exact .inr (startsWith_toDigits hn)

/-- Every magnitude is written strictly in every style. -/
theorem isStrict_ofMagnitude (style : NumberStyle) (negative : Bool) (m : Magnitude) :
    IsStrict (ofMagnitude style negative m) where
  toIsSpelled := isSpelled_ofMagnitude style negative m
  leading := by
    by_cases hm : m.rank = 0
    · have hshortest : m.shortest style.tie = (0, 0) := if_pos hm
      simp only [ofMagnitude, hshortest, Nat.toDigits_zero]
      split <;> exact .inl rfl
    · -- the digits begin with another one than zero, and the text with them or with `0.`
      have hdigits := startsWith_toDigits (Magnitude.shortest_ne_zero style.tie hm)
      have hlength : 0 < (Nat.toDigits 10 (m.shortest style.tie).1).length :=
        Nat.length_toDigits_pos
      simp only [ofMagnitude]
      split
      · unfold positional
        split
        · exact .inr ((startsWith_append Nat.toDigits_ne_nil).trans hdigits)
        · split
          · exact .inr ((startsWith_take (by omega)).trans hdigits)
          · exact .inl rfl
      · exact .inr ((startsWith_take Nat.one_pos).trans hdigits)

end Numeral

end Eligibility
