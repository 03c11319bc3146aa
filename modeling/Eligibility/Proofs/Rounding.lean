import Eligibility.Number.Rounding
import Mathlib.Algebra.Order.Ring.Nat
import Mathlib.Tactic.Positivity
import Mathlib.Tactic.Ring

/-!
# Rounding exact values

`Magnitude.nearest` depends on a quotient alone and not on how it is written (`nearest_congr`),
and a quotient that is the value of a magnitude is not rounded (`nearest_of_units`). So decimals
with the same value, written with more or fewer zeros, denote the same number
(`ofDecimal_mul_pow`).

The highest bit of a quotient decides between which two multiples of `ranksPerDoubling` the rank
of its nearest magnitude lies (`rank_nearest_bounds`). A decimal that is a tenth or less of a
whole one other than zero therefore denotes a smaller number (`rank_ofDecimal_sub_lt`), and no
quotient is rounded below a lesser one (`rank_nearest_mono`). Different naturals may be rounded to
the same magnitude, but not up to `2 ^ 53`, where none is rounded at all (`units_nearest_natCast`).
-/

namespace Eligibility

/-! ## Quotients -/

theorem roundQuotient_mul_right (num den : Nat) {k : Nat} (hk : 0 < k) :
    roundQuotient (num * k) (den * k) = roundQuotient num den := by
  have hcompare : compare (2 * (num % den * k)) (den * k) = compare (2 * (num % den)) den := by
    rw [← Nat.mul_assoc, Nat.compare_eq_ite_lt, Nat.compare_eq_ite_lt]
    simp only [Nat.mul_lt_mul_right hk]
  simp only [roundQuotient, Nat.mul_div_mul_right _ _ hk, Nat.mul_mod_mul_right, hcompare]

/-- A quotient without remainder is not rounded. -/
theorem roundQuotient_mul_self (q : Nat) {den : Nat} (hden : 0 < den) :
    roundQuotient (q * den) den = q := by
  have hlt : compare 0 den = .lt := Nat.compare_eq_lt.mpr hden
  simp [roundQuotient, Nat.mul_div_cancel _ hden, hlt]

theorem div_le_roundQuotient (num den : Nat) : num / den ≤ roundQuotient num den := by
  unfold roundQuotient
  split <;> omega

theorem roundQuotient_le (num den : Nat) : roundQuotient num den ≤ num / den + 1 := by
  unfold roundQuotient
  split <;> omega

/-- A quotient is not rounded below a lesser one. -/
theorem roundQuotient_mono {num num' : Nat} (den : Nat) (h : num ≤ num') :
    roundQuotient num den ≤ roundQuotient num' den := by
  rcases Nat.lt_or_eq_of_le (Nat.div_le_div_right (c := den) h) with hlt | heq
  · exact ((roundQuotient_le num den).trans hlt).trans (div_le_roundQuotient num' den)
  · -- with the same whole part the remainders are in the same order
    have hmod : num % den ≤ num' % den := by
      have hsplit := Nat.div_add_mod num den
      have hsplit' := Nat.div_add_mod num' den
      rw [← heq] at hsplit'
      omega
    unfold roundQuotient
    rw [← heq]
    split <;> split <;> simp only [Nat.compare_eq_lt, Nat.compare_eq_eq, Nat.compare_eq_gt] at * <;>
      omega

namespace Magnitude

theorem nearest_mul_right (num den : Nat) {k : Nat} (hk : 0 < k) :
    nearest (num * k) (den * k) = nearest num den := by
  simp only [nearest, Nat.shiftLeft_eq, Nat.mul_right_comm _ k, Nat.mul_div_mul_right _ _ hk,
    roundQuotient_mul_right _ _ hk]

/-- Equal quotients have the same nearest magnitude. -/
theorem nearest_congr {num den num' den' : Nat} (hden : 0 < den) (hden' : 0 < den')
    (h : num * den' = num' * den) : nearest num den = nearest num' den' := by
  rw [← nearest_mul_right num den hden', h, Nat.mul_comm den, nearest_mul_right _ _ hden]

theorem log2_mul_two_pow {n k : Nat} (d : Nat) (hle : 2 ^ k ≤ n) (hlt : n < 2 ^ (k + 1)) :
    (n * 2 ^ d).log2 = k + d := by
  have hpos := Nat.two_pow_pos d
  have hn : n ≠ 0 := Nat.ne_of_gt (Nat.lt_of_lt_of_le (Nat.two_pow_pos k) hle)
  rw [Nat.log2_eq_iff (Nat.mul_ne_zero hn (Nat.ne_of_gt hpos)), Nat.add_right_comm, Nat.pow_add,
    Nat.pow_add]
  exact ⟨Nat.mul_le_mul_right _ hle, Nat.mul_lt_mul_of_pos_right hlt hpos⟩

theorem ofRank_rank (m : Magnitude) : ofRank m.rank = m := by
  obtain ⟨rank, h⟩ := m
  simp only [ofRank, Nat.min_eq_left h]

/-- The value of a magnitude is a significand that has been doubled, as often as its highest bit
lies beyond the 53rd, and doublings and significand add up to the rank. -/
theorem exists_significand (m : Magnitude) : ∃ significand doublings,
    m.units = significand * 2 ^ doublings ∧ m.units.log2 - 52 = doublings ∧
      doublings * ranksPerDoubling + significand = m.rank := by
  have hpow : ranksPerDoubling = 2 ^ 52 := by decide
  by_cases h : m.rank < ranksPerDoubling
  · refine ⟨m.rank, 0, by simp [units, h], ?_, by simp⟩
    rw [units, if_pos h]
    by_cases hz : m.rank = 0
    · simp [hz]
    · have := (Nat.log2_lt hz).mpr (hpow ▸ h)
      omega
  · have hmod := Nat.mod_lt m.rank (show 0 < ranksPerDoubling by decide)
    have hdiv := Nat.div_add_mod m.rank ranksPerDoubling
    have hunits : m.units = (ranksPerDoubling + m.rank % ranksPerDoubling) *
        2 ^ (m.rank / ranksPerDoubling - 1) := by
      rw [units, if_neg h, Nat.shiftLeft_eq]
    have hpos : 1 ≤ m.rank / ranksPerDoubling := (Nat.le_div_iff_mul_le (by decide)).mpr (by omega)
    refine ⟨_, _, hunits, ?_, ?_⟩
    · rw [hunits, log2_mul_two_pow (k := 52) _ (by omega) (by omega)]
      omega
    · have hle := Nat.le_mul_of_pos_right ranksPerDoubling hpos
      rw [Nat.sub_mul, Nat.mul_comm _ ranksPerDoubling]
      omega

/-- The value of a magnitude is not rounded. -/
theorem nearest_of_units {m : Magnitude} {num den : Nat} (hden : 0 < den)
    (h : num <<< unitHalvings = m.units * den) : nearest num den = m := by
  obtain ⟨significand, doublings, hunits, hlog, hrank⟩ := m.exists_significand
  have hquotient : m.units * den = significand * (den * 2 ^ doublings) := by
    rw [hunits]
    ring
  simp only [nearest, h, Nat.mul_div_cancel _ hden, hlog, Nat.shiftLeft_eq den]
  rw [hquotient, roundQuotient_mul_self _ (Nat.mul_pos hden (Nat.two_pow_pos _)), hrank,
    ofRank_rank]

/-! ## Decimals -/

theorem ofDecimal_zero (exponent : Int) : ofDecimal 0 exponent = zero := if_pos rfl

/-- Within the range of the finite magnitudes a decimal denotes what its quotient rounds to. -/
theorem ofDecimal_eq_nearest {digits : Nat} {exponent : Int} (hdigits : digits ≠ 0)
    (htop : exponent < 309) (hbottom : -324 < (digits.log2 : Int) + 1 + exponent) :
    ofDecimal digits exponent =
      nearest (digits * 10 ^ exponent.toNat) (10 ^ (-exponent).toNat) := by
  unfold ofDecimal
  rw [if_neg hdigits, if_neg (by omega), if_neg (by omega)]
  cases exponent with
  | ofNat e => simp
  | negSucc e => simp [Int.neg_negSucc]

/-- A decimal of a finite magnitude lies in the range of these. -/
theorem range_of_ofDecimal {digits : Nat} {exponent : Int} {m : Magnitude}
    (h : ofDecimal digits exponent = m) (hfinite : m.isFinite = true) (hzero : m.rank ≠ 0) :
    digits ≠ 0 ∧ exponent < 309 ∧ -324 < (digits.log2 : Int) + 1 + exponent := by
  unfold ofDecimal at h
  split at h
  · exact absurd (h ▸ rfl) hzero
  · rename_i hdigits
    split at h
    · subst h
      exact absurd hfinite (by decide)
    · split at h
      · exact absurd (h ▸ rfl) hzero
      · exact ⟨hdigits, by omega, by omega⟩

theorem log2_mul_pow_ge {digits : Nat} (hdigits : digits ≠ 0) (p : Nat) :
    digits.log2 + p ≤ (digits * 10 ^ p).log2 := by
  rw [Nat.le_log2 (Nat.mul_ne_zero hdigits (by positivity)), Nat.pow_add]
  exact Nat.mul_le_mul (Nat.log2_self_le hdigits) (Nat.pow_le_pow_left (by decide) p)

/-- Zeros at the end of a decimal of a finite magnitude, and places less for them, change
nothing. -/
theorem ofDecimal_mul_pow {digits : Nat} {exponent : Int} {m : Magnitude}
    (h : ofDecimal digits exponent = m) (hfinite : m.isFinite = true)
    (hzero : m.rank = 0 → digits = 0) (p : Nat) :
    ofDecimal (digits * 10 ^ p) (exponent - p) = m := by
  by_cases hm : m.rank = 0
  · rw [hzero hm, ofDecimal_zero] at h
    rw [hzero hm, Nat.zero_mul, ofDecimal_zero, h]
  · obtain ⟨hdigits, htop, hbottom⟩ := range_of_ofDecimal h hfinite hm
    have hlog := log2_mul_pow_ge hdigits p
    have hpow : ∀ k : Nat, 0 < 10 ^ k := fun k => Nat.pow_pos (by decide)
    rw [← h, ofDecimal_eq_nearest hdigits htop hbottom, ofDecimal_eq_nearest
      (Nat.mul_ne_zero hdigits (Nat.ne_of_gt (hpow p))) (by omega) (by omega)]
    refine nearest_congr (hpow _) (hpow _) ?_
    have hexponents : p + (exponent - p).toNat + (-exponent).toNat =
        exponent.toNat + (-(exponent - p)).toNat := by omega
    calc digits * 10 ^ p * 10 ^ (exponent - p).toNat * 10 ^ (-exponent).toNat
        = digits * 10 ^ (p + (exponent - p).toNat + (-exponent).toNat) := by ring
      _ = digits * 10 ^ exponent.toNat * 10 ^ (-(exponent - p)).toNat := by
        rw [hexponents]
        ring

/-! ## Highest bits -/

/-- The place of the highest bit of a quotient that is counted in units. -/
def highestBit (num den : Nat) : Nat :=
  (num <<< unitHalvings / den).log2

/-- A significand has its highest bit in the 53rd place, or lower where units are not doubled. -/
theorem significand_bounds (num den : Nat) :
    let significand := num <<< unitHalvings / (den <<< (highestBit num den - 52))
    significand < 2 ^ 53 ∧ (52 ≤ highestBit num den → 2 ^ 52 ≤ significand) ∧
      (highestBit num den < 52 → significand < 2 ^ 52) := by
  unfold highestBit
  generalize hunits : num <<< unitHalvings / den = units
  rw [Nat.shiftLeft_eq den, ← Nat.div_div_eq_div_mul, hunits]
  have hlt : units < 2 ^ (units.log2 + 1) := Nat.lt_log2_self
  have hpow : ∀ k, units.log2 + 1 ≤ units.log2 - 52 + k →
      units / 2 ^ (units.log2 - 52) < 2 ^ k := by
    intro k hk
    rw [Nat.div_lt_iff_lt_mul (Nat.two_pow_pos _), ← Nat.pow_add]
    exact Nat.lt_of_lt_of_le hlt (Nat.pow_le_pow_right (by decide) (by omega))
  refine ⟨hpow 53 (by omega), fun hge => ?_, fun hless => hpow 52 (by omega)⟩
  have hne : units ≠ 0 := by
    rintro rfl
    simp at hge
  rw [Nat.le_div_iff_mul_le (Nat.two_pow_pos _), ← Nat.pow_add, Nat.add_sub_cancel' hge]
  exact Nat.log2_self_le hne

/-- The highest bit decides between which powers of two a quotient is rounded. -/
theorem rank_nearest_bounds (num den : Nat) :
    (nearest num den).rank ≤ (highestBit num den - 51 + 1) * ranksPerDoubling ∧
      min ((highestBit num den - 51) * ranksPerDoubling) infinityRank ≤ (nearest num den).rank := by
  obtain ⟨hhigh, hnormal, hsmall⟩ := significand_bounds num den
  have hge := div_le_roundQuotient (num <<< unitHalvings)
    (den <<< (highestBit num den - 52))
  have hle := roundQuotient_le (num <<< unitHalvings) (den <<< (highestBit num den - 52))
  have hrank : (nearest num den).rank = min ((highestBit num den - 52) * ranksPerDoubling +
    roundQuotient (num <<< unitHalvings) (den <<< (highestBit num den - 52))) infinityRank := rfl
  rw [hrank]
  generalize roundQuotient _ _ = rounded at *
  generalize num <<< unitHalvings / (den <<< (highestBit num den - 52)) = significand at *
  generalize highestBit num den = bit at *
  simp only [ranksPerDoubling]
  by_cases hbit : bit < 52
  · have := hsmall hbit
    omega
  · have := hnormal (by omega)
    omega

/-- A quotient that is greater by some doublings has its highest bit as many places up, or is
among the smallest. -/
theorem highestBit_add_le {num den num' den' doublings : Nat}
    (h : num <<< unitHalvings / den * 2 ^ doublings ≤ num' <<< unitHalvings / den')
    (hbit : doublings ≤ highestBit num' den') :
    highestBit num den + doublings ≤ highestBit num' den' := by
  unfold highestBit at *
  generalize num <<< unitHalvings / den = units at *
  generalize num' <<< unitHalvings / den' = units' at *
  by_cases hzero : units = 0
  · simpa [hzero] using hbit
  · have hpos : 0 < units * 2 ^ doublings :=
      Nat.mul_pos (Nat.pos_of_ne_zero hzero) (Nat.two_pow_pos _)
    rw [Nat.le_log2 (by omega), Nat.pow_add]
    exact Nat.le_trans (Nat.mul_le_mul_right _ (Nat.log2_self_le hzero)) h

/-- Quotients whose highest bits are three places apart are not rounded to the same finite
magnitude, unless both are among the smallest. -/
theorem rank_nearest_lt {num den num' den' : Nat}
    (hbits : highestBit num den + 3 ≤ highestBit num' den') (hlarge : 54 ≤ highestBit num' den')
    (hfinite : (nearest num den).rank < infinityRank) :
    (nearest num den).rank < (nearest num' den').rank := by
  have hupper := (rank_nearest_bounds num den).1
  have hlower := (rank_nearest_bounds num' den').2
  generalize highestBit num den = bit at *
  generalize highestBit num' den' = bit' at *
  simp only [ranksPerDoubling] at hupper hlower
  omega

/-! ## Order -/

theorem highestBit_mono {num num' : Nat} (den : Nat) (h : num ≤ num') :
    highestBit num den ≤ highestBit num' den := by
  have hle : num <<< unitHalvings / den ≤ num' <<< unitHalvings / den := by
    rw [Nat.shiftLeft_eq, Nat.shiftLeft_eq]
    exact Nat.div_le_div_right (Nat.mul_le_mul_right _ h)
  unfold highestBit
  by_cases hzero : num <<< unitHalvings / den = 0
  · rw [hzero, Nat.log2_zero]
    exact Nat.zero_le _
  · rw [Nat.le_log2 (Nat.ne_of_gt ((Nat.pos_of_ne_zero hzero).trans_le hle))]
    exact (Nat.log2_self_le hzero).trans hle

/-- A quotient is not rounded below a lesser one. -/
theorem rank_nearest_mono {num num' : Nat} (den : Nat) (h : num ≤ num') :
    (nearest num den).rank ≤ (nearest num' den).rank := by
  by_cases hdoublings : highestBit num den - 52 = highestBit num' den - 52
  · -- both are rounded at the same bit
    have hrank (n : Nat) : (nearest n den).rank = min ((highestBit n den - 52) * ranksPerDoubling +
      roundQuotient (n <<< unitHalvings) (den <<< (highestBit n den - 52))) infinityRank := rfl
    have hunits : num <<< unitHalvings ≤ num' <<< unitHalvings := by
      rw [Nat.shiftLeft_eq, Nat.shiftLeft_eq]
      exact Nat.mul_le_mul_right _ h
    have hround := roundQuotient_mono (den <<< (highestBit num' den - 52)) hunits
    rw [hrank, hrank, hdoublings]
    omega
  · have hbits := highestBit_mono den h
    have hupper := (rank_nearest_bounds num den).1
    have hlower := (rank_nearest_bounds num' den).2
    have htop := (nearest num den).rank_le
    generalize highestBit num den = bit at *
    generalize highestBit num' den = bit' at *
    simp only [ranksPerDoubling] at hupper hlower
    omega

/-! ## Naturals that are not rounded -/

/-- A significand of 53 bits that is doubled is the value of a magnitude. -/
theorem exists_units {low doublings : Nat} (hlow : low < ranksPerDoubling)
    (hdoublings : doublings ≤ 2045) :
    ∃ m : Magnitude, m.units = (ranksPerDoubling + low) * 2 ^ doublings := by
  have hrank : ranksPerDoubling * (doublings + 1) + low ≤ infinityRank := by
    simp only [ranksPerDoubling, infinityRank] at *
    omega
  have hnormal : ranksPerDoubling ≤ ranksPerDoubling * (doublings + 1) + low :=
    Nat.le_add_right_of_le (Nat.le_mul_of_pos_right _ (Nat.succ_pos _))
  refine ⟨⟨_, hrank⟩, ?_⟩
  rw [units, if_neg (Nat.not_lt.mpr hnormal), Nat.mul_add_mod, Nat.mod_eq_of_lt hlow,
    Nat.mul_add_div (by decide), Nat.div_eq_of_lt hlow, Nat.shiftLeft_eq]
  rfl

theorem exists_units_natCast {n : Nat} (h : n ≤ 2 ^ 53) :
    ∃ m : Magnitude, m.units = n <<< unitHalvings := by
  rw [Nat.shiftLeft_eq]
  by_cases hzero : n = 0
  · exact ⟨zero, by rw [hzero, Nat.zero_mul, zero, units, if_pos (by decide)]⟩
  · rcases Nat.lt_or_eq_of_le h with hlt | rfl
    · -- the significand is the natural, doubled until it has 53 bits
      have hbit : n.log2 < 53 := (Nat.log2_lt hzero).mpr hlt
      obtain ⟨places, hplaces⟩ := Nat.exists_eq_add_of_le (Nat.le_of_lt_succ hbit)
      have hlow : ranksPerDoubling ≤ n * 2 ^ places :=
        calc 2 ^ 52 = 2 ^ n.log2 * 2 ^ places := by rw [← Nat.pow_add, ← hplaces]
          _ ≤ n * 2 ^ places := Nat.mul_le_mul_right _ (Nat.log2_self_le hzero)
      have hhigh : n * 2 ^ places < 2 ^ 53 :=
        calc n * 2 ^ places < 2 ^ (n.log2 + 1) * 2 ^ places :=
            Nat.mul_lt_mul_of_pos_right Nat.lt_log2_self (Nat.two_pow_pos _)
          _ = 2 ^ 53 := by rw [← Nat.pow_add, Nat.add_right_comm, ← hplaces]
      obtain ⟨low, hsignificand⟩ := Nat.exists_eq_add_of_le hlow
      have hbits : low < ranksPerDoubling := by
        simp only [ranksPerDoubling] at *
        omega
      obtain ⟨m, hm⟩ := exists_units hbits (show n.log2 + 1022 ≤ 2045 by omega)
      have hpower : places + (n.log2 + 1022) = unitHalvings := by
        rw [unitHalvings]
        omega
      exact ⟨m, by rw [hm, ← hsignificand, Nat.mul_assoc, ← Nat.pow_add, hpower]⟩
    · obtain ⟨m, hm⟩ := exists_units (show 0 < ranksPerDoubling by decide)
        (show unitHalvings + 1 ≤ 2045 by decide)
      have hpower : 2 * (ranksPerDoubling + 0) = 2 ^ 53 := rfl
      exact ⟨m, by rw [hm, Nat.pow_succ', ← hpower, Nat.mul_left_comm, Nat.mul_assoc]⟩

/-- Up to `2 ^ 53` a natural is not rounded. -/
theorem units_nearest_natCast {n : Nat} (h : n ≤ 2 ^ 53) :
    (nearest n 1).units = n <<< unitHalvings := by
  obtain ⟨m, hm⟩ := exists_units_natCast h
  rw [nearest_of_units Nat.one_pos (m := m) (by rw [hm, Nat.mul_one]), hm]

/-! ## Whole decimals -/

/-- The rank of one. -/
def oneRank : Nat := 1023 * ranksPerDoubling

theorem unitHalvings_le_highestBit {n : Nat} (h : n ≠ 0) : unitHalvings ≤ highestBit n 1 := by
  rw [highestBit, Nat.div_one, Nat.shiftLeft_eq,
    Nat.le_log2 (Nat.mul_ne_zero h (Nat.ne_of_gt (Nat.two_pow_pos _)))]
  exact Nat.le_mul_of_pos_left _ (Nat.pos_of_ne_zero h)

/-- A whole decimal is rounded like the natural that it denotes, up to infinity. -/
theorem ofDecimal_natCast {digits : Nat} (hdigits : digits ≠ 0) (power : Nat) :
    309 ≤ power ∧ ofDecimal digits power = infinity ∨
      power < 309 ∧ ofDecimal digits power = nearest (digits * 10 ^ power) 1 := by
  by_cases hpower : 309 ≤ power
  · refine .inl ⟨hpower, ?_⟩
    unfold ofDecimal
    rw [if_neg hdigits, if_pos (by omega)]
  · refine .inr ⟨by omega, ?_⟩
    rw [ofDecimal_eq_nearest hdigits (by omega) (by omega)]
    simp

/-- A whole decimal other than zero is not rounded below one. -/
theorem oneRank_le_rank_ofDecimal {digits : Nat} (hdigits : digits ≠ 0) (power : Nat) :
    oneRank ≤ (ofDecimal digits power).rank := by
  rcases ofDecimal_natCast hdigits power with ⟨-, h⟩ | ⟨-, h⟩
  · rw [h]
    decide
  · have hbit := unitHalvings_le_highestBit (n := digits * 10 ^ power)
      (Nat.mul_ne_zero hdigits (by positivity))
    have hbound := (rank_nearest_bounds (digits * 10 ^ power) 1).2
    rw [h]
    generalize highestBit (digits * 10 ^ power) 1 = bit at *
    simp only [unitHalvings, oneRank, ranksPerDoubling, infinityRank] at *
    omega

/-- A point further left makes the units at least eight times less. -/
theorem units_mul_le {digits power places left right : Nat} (hplaces : 0 < places)
    (h : left + places = power + right) :
    (digits * 10 ^ left) <<< unitHalvings / 10 ^ right * 2 ^ 3 ≤
      (digits * 10 ^ power) <<< unitHalvings / 1 := by
  have hten : 2 ^ 3 ≤ 10 ^ places :=
    Nat.le_trans (by decide) (Nat.pow_le_pow_right (by decide) hplaces)
  have hpos : 0 < 10 ^ right := by positivity
  rw [Nat.div_one, Nat.shiftLeft_eq, Nat.shiftLeft_eq]
  refine Nat.le_trans (Nat.mul_le_mul_left _ hten) (Nat.le_of_mul_le_mul_right ?_ hpos)
  calc digits * 10 ^ left * 2 ^ unitHalvings / 10 ^ right * 10 ^ places * 10 ^ right
      = digits * 10 ^ left * 2 ^ unitHalvings / 10 ^ right * 10 ^ right * 10 ^ places := by ring
    _ ≤ digits * 10 ^ left * 2 ^ unitHalvings * 10 ^ places :=
      Nat.mul_le_mul_right _ (Nat.div_mul_le_self _ _)
    _ = digits * 10 ^ (left + places) * 2 ^ unitHalvings := by ring
    _ = digits * 10 ^ power * 2 ^ unitHalvings * 10 ^ right := by
      rw [h]
      ring

/-- A point further left makes a whole decimal less, after rounding too. -/
theorem rank_ofDecimal_sub_lt {digits power places : Nat} (hdigits : digits ≠ 0)
    (hplaces : 0 < places) (hfinite : (ofDecimal digits (power - places : Int)).isFinite = true) :
    (ofDecimal digits (power - places : Int)).rank < (ofDecimal digits power).rank := by
  have hone := oneRank_le_rank_ofDecimal hdigits power
  have hless : (ofDecimal digits (power - places : Int)).rank < infinityRank := by
    simpa [isFinite] using hfinite
  rcases ofDecimal_natCast hdigits power with ⟨-, h⟩ | ⟨hpower, h⟩
  · rw [h]
    exact hless
  · by_cases hbottom : -324 < (digits.log2 : Int) + 1 + (power - places)
    · have hplace : (power - places : Int).toNat + places =
          power + (-(power - places : Int)).toNat := by omega
      have hlarge : 54 ≤ highestBit (digits * 10 ^ power) 1 := Nat.le_trans (by decide)
        (unitHalvings_le_highestBit (Nat.mul_ne_zero hdigits (by positivity)))
      have hbits := highestBit_add_le (@units_mul_le digits power places _ _ hplaces hplace)
        (Nat.le_trans (by decide) hlarge)
      rw [ofDecimal_eq_nearest hdigits (by omega) hbottom] at hless ⊢
      rw [h]
      exact rank_nearest_lt hbits hlarge hless
    · have hzero : ofDecimal digits (power - places : Int) = zero := by
        unfold ofDecimal
        rw [if_neg hdigits, if_neg (by omega), if_pos (by omega)]
      rw [hzero]
      exact Nat.lt_of_lt_of_le (by decide) hone

end Magnitude

end Eligibility
