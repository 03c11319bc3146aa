import Eligibility.Number.Numeral
import Eligibility.Proofs.Run

/-!
# The grammar of numerals

`Numeral.Spells` says which texts spell a numeral : a sign, digits, a point with digits, and a
power of ten, each of which may be missing, but not the digits on both sides of the point. A
text is read as a numeral exactly if it spells the numeral (`Numeral.ofText?_eq_some_iff`).
-/

namespace Eligibility

namespace Numeral

/-- The text is a sign, or nothing in the place of a plus. -/
inductive SpellsSign : List Char → Bool → Prop
  | absent : SpellsSign [] false
  | plus : SpellsSign ['+'] false
  | minus : SpellsSign ['-'] true

/-- The text is a point with digits, of which there may be none. -/
inductive SpellsFraction : List Char → List Char → Prop
  | absent : SpellsFraction [] []
  | point {digits : List Char} : (∀ c ∈ digits, c.isDigit = true) →
      SpellsFraction ('.' :: digits) digits

/-- The text is a power of ten, with or without a sign. -/
inductive SpellsExponent : List Char → Option Int → Prop
  | absent : SpellsExponent [] none
  | power {e : Char} {sign digits : List Char} {negative : Bool} : e = 'e' ∨ e = 'E' →
      SpellsSign sign negative → IsRun Char.isDigit digits →
      SpellsExponent (e :: (sign ++ digits))
        (some (if negative then -(digitsValue digits : Int) else digitsValue digits))

/-- The text spells the numeral. -/
inductive Spells : Numeral → List Char → Prop
  | mk {sign whole point fraction power : List Char} {negative : Bool} {exponent : Option Int} :
      SpellsSign sign negative → (∀ c ∈ whole, c.isDigit = true) →
      SpellsFraction point fraction → whole ≠ [] ∨ fraction ≠ [] →
      SpellsExponent power exponent →
      Spells ⟨negative, whole, fraction, exponent⟩ (sign ++ (whole ++ (point ++ power)))

variable {text rest sign point power digits fraction : List Char} {negative : Bool}
  {exponent : Option Int} {n : Numeral}

/-! ## Signs -/

theorem spellsSign_minus (negative : Bool) :
    SpellsSign (if negative then ['-'] else []) negative := by
  cases negative with
  | true => exact .minus
  | false => exact .absent

theorem exists_cutSign (text : List Char) : ∃ sign rest negative, text = sign ++ rest ∧
    SpellsSign sign negative ∧ cutSign text = (negative, rest) := by
  unfold cutSign
  split
  · exact ⟨['+'], _, false, rfl, .plus, rfl⟩
  · exact ⟨['-'], _, true, rfl, .minus, rfl⟩
  · exact ⟨[], text, false, rfl, .absent, rfl⟩

/-- A sign is read before everything that begins with no other. -/
theorem cutSign_append (h : SpellsSign sign negative) (hplus : startsWith (· == '+') rest = false)
    (hminus : startsWith (· == '-') rest = false) : cutSign (sign ++ rest) = (negative, rest) := by
  cases h with
  | plus | minus => rfl
  | absent =>
    cases rest with
    | nil => rfl
    | cons c rest =>
      rw [List.nil_append]
      unfold cutSign
      split
      · rename_i heq
        cases heq
        simp at hplus
      · rename_i heq
        cases heq
        simp at hminus
      · rfl

/-- A sign is read before digits. -/
theorem cutSign_digits (h : SpellsSign sign negative) (hdigits : IsRun Char.isDigit digits)
    (rest : List Char) : cutSign (sign ++ (digits ++ rest)) = (negative, digits ++ rest) := by
  obtain ⟨c, digits, rfl⟩ := List.exists_cons_of_ne_nil hdigits.ne_nil
  have hc := hdigits.all c (by simp)
  exact cutSign_append h (by simpa using ne_of_class hc (by decide))
    (by simpa using ne_of_class hc (by decide))

/-! ## Fractions and powers of ten -/

theorem exists_cutFraction (text : List Char) : ∃ point fraction rest, text = point ++ rest ∧
    SpellsFraction point fraction ∧ cutFraction text = (fraction, rest) := by
  unfold cutFraction
  split
  · rename_i rest
    exact ⟨'.' :: rest.takeWhile Char.isDigit, _, rest.dropWhile Char.isDigit, by simp,
      .point fun c hc => List.mem_takeWhile_imp hc, rfl⟩
  · exact ⟨[], [], text, rfl, .absent, rfl⟩

/-- A fraction is read before everything that goes on neither with a digit nor with a point. -/
theorem cutFraction_append (h : SpellsFraction point fraction)
    (hdigit : startsWith Char.isDigit rest = false) (hpoint : startsWith (· == '.') rest = false) :
    cutFraction (point ++ rest) = (fraction, rest) := by
  cases h with
  | absent =>
    rw [List.nil_append]
    unfold cutFraction
    split
    · simp at hpoint
    · rfl
  | point h =>
    rw [List.cons_append, cutFraction, List.takeWhile_append_of_pos h,
      List.dropWhile_append_of_pos h, takeWhile_of_startsWith hdigit,
      dropWhile_of_startsWith hdigit, List.append_nil]

theorem SpellsExponent.of_cutExponent? (h : cutExponent? text = some (exponent, [])) :
    SpellsExponent text exponent := by
  cases text with
  | nil =>
    obtain ⟨rfl, -⟩ := Prod.mk.inj (Option.some.inj h)
    exact .absent
  | cons c text =>
    obtain ⟨sign, rest, negative, rfl, hsign, hcut⟩ := exists_cutSign text
    simp only [cutExponent?, hcut] at h
    split at h
    · rename_i hc
      split at h
      · cases h
      · rename_i digits hdigits
        obtain ⟨rfl, hend⟩ := Prod.mk.inj (Option.some.inj h)
        have hrun : rest.takeWhile Char.isDigit = rest := by
          simpa [hend] using List.takeWhile_append_dropWhile (p := Char.isDigit) (l := rest)
        rw [hrun] at hdigits ⊢
        exact .power hc hsign ⟨hdigits, fun c hc => List.mem_takeWhile_imp (hrun.symm ▸ hc)⟩
    · cases h

/-- What a numeral may go on with : digits, a point or a power of ten. -/
def isPart (c : Char) : Bool := c.isDigit || c == '.' || c == 'e' || c == 'E'

/-- A power of ten is read before everything that a numeral does not go on with. -/
theorem SpellsExponent.cutExponent?_append (h : SpellsExponent power exponent)
    (hrest : Eligibility.startsWith isPart rest = false) :
    Numeral.cutExponent? (power ++ rest) = some (exponent, rest) := by
  cases h with
  | absent =>
    cases rest with
    | nil => rfl
    | cons c rest =>
      have hc : ¬(c = 'e' ∨ c = 'E') := by
        rintro (rfl | rfl) <;> simp [isPart] at hrest
      exact if_neg hc
  | power he hsign hdigits =>
    have hdigit : Eligibility.startsWith Char.isDigit rest = false :=
      startsWith_eq_false_of_imp (fun c hc => by simp [isPart, hc]) hrest
    simp only [List.cons_append, List.append_assoc, Numeral.cutExponent?,
      cutSign_digits hsign hdigits, hdigits.takeWhile_append hdigit,
      hdigits.dropWhile_append hdigit, if_pos he]
    split
    · exact absurd rfl hdigits.ne_nil
    · rfl

theorem SpellsExponent.cutExponent? (h : SpellsExponent power exponent) :
    Numeral.cutExponent? power = some (exponent, []) := by
  simpa using h.cutExponent?_append startsWith_nil

theorem SpellsExponent.startsWith (h : SpellsExponent power exponent) {p : Char → Bool}
    (he : p 'e' = false) (hE : p 'E' = false) : Eligibility.startsWith p power = false := by
  cases h with
  | absent => rfl
  | power he' => rcases he' with rfl | rfl <;> simpa

/-! ## Numerals -/

/-- What is read as a numeral spells it. -/
theorem spells_of_ofText? (h : ofText? text = some n) : n.Spells text := by
  obtain ⟨sign, rest, negative, rfl, hsign, hcut⟩ := exists_cutSign text
  obtain ⟨point, fraction, power, hrest, hfraction, hpoint⟩ :=
    exists_cutFraction (rest.dropWhile Char.isDigit)
  simp only [ofText?, hcut, hpoint] at h
  split at h
  · cases h
  · rename_i hempty
    split at h
    · rename_i exponent hexponent
      obtain rfl := Option.some.inj h
      have hrest' : rest = rest.takeWhile Char.isDigit ++ (point ++ power) := by
        rw [← hrest, List.takeWhile_append_dropWhile]
      have hdigits : rest.takeWhile Char.isDigit ≠ [] ∨ fraction ≠ [] := by
        simpa [Decidable.or_iff_not_imp_left] using hempty
      have hspells := Spells.mk hsign (fun c hc => List.mem_takeWhile_imp hc) hfraction hdigits
        (.of_cutExponent? hexponent)
      rwa [← hrest'] at hspells
    · cases h

/-- What spells a numeral is read as that. -/
theorem Spells.ofText? (h : n.Spells text) : ofText? text = some n := by
  cases h with
  | @mk sign whole point fraction power negative exponent hsign hwhole hfraction hdigits hpower =>
    have hstop : Eligibility.startsWith Char.isDigit (point ++ power) = false := by
      cases hfraction with
      | absent => exact hpower.startsWith (by decide) (by decide)
      | point => rfl
    have hcut : cutSign (sign ++ (whole ++ (point ++ power))) =
        (negative, whole ++ (point ++ power)) := by
      have hbegin : ∀ {c : Char}, c.isDigit = false → c ≠ '.' →
          Eligibility.startsWith (· == c) (whole ++ (point ++ power)) = false := by
        intro c hc hne
        cases whole with
        | nil =>
          cases hfraction with
          | absent => simp at hdigits
          | point => simpa using hne.symm
        | cons d whole => simpa using ne_of_class (hwhole d (by simp)) hc
      exact cutSign_append hsign (hbegin (by decide) (by decide)) (hbegin (by decide) (by decide))
    have hpoint := cutFraction_append hfraction (hpower.startsWith (by decide) (by decide))
      (hpower.startsWith (by decide) (by decide))
    have hempty : (whole.isEmpty && fraction.isEmpty) = false := by
      simpa [Decidable.or_iff_not_imp_left] using hdigits
    simp only [Numeral.ofText?, hcut, List.takeWhile_append_of_pos hwhole,
      List.dropWhile_append_of_pos hwhole, takeWhile_of_startsWith hstop,
      dropWhile_of_startsWith hstop, List.append_nil, hpoint, hempty, hpower.cutExponent?]
    rfl

theorem ofText?_eq_some_iff : ofText? text = some n ↔ n.Spells text :=
  ⟨spells_of_ofText?, Spells.ofText?⟩

end Numeral

end Eligibility
