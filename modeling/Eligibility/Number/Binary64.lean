/-!
# Binary64 numbers

A number is NaN or a sign with a magnitude. A magnitude is kept as its *rank*, its place among
all magnitudes in ascending order: zero has rank 0, the smallest positive magnitude rank 1, and
infinity the last rank, `infinityRank`. The rank is at once the bit pattern of the magnitude,
so neighbours differ by one, and a comparison of magnitudes is one of ranks.

`Magnitude.units` is the exact value of a magnitude, counted in units of which every finite
magnitude is a multiple. `Binary64.compare?` is the order of the numbers: NaN is comparable to
nothing, and the two zeros are the same.
-/

namespace Eligibility

/-- The number of ranks from a power of two to the next: a significand has 52 bits after the
first. -/
def ranksPerDoubling : Nat := 0x10000000000000

/-- The rank of infinity: it comes after 2047 times `ranksPerDoubling` others. -/
def infinityRank : Nat := 0x7ff0000000000000

/-- Values are counted in units of one halved so many times. -/
def unitHalvings : Nat := 1074

/-- A number without its sign. -/
structure Magnitude where
  /-- The place among all magnitudes, from zero up. -/
  rank : Nat
  rank_le : rank ≤ infinityRank
  deriving DecidableEq

namespace Magnitude

/-- The least magnitude. -/
def zero : Magnitude := ⟨0, Nat.zero_le _⟩

/-- The greatest magnitude. -/
def infinity : Magnitude := ⟨infinityRank, Nat.le_refl _⟩

/-- The magnitude of a rank; past the last rank there is only infinity. -/
def ofRank (rank : Nat) : Magnitude := ⟨min rank infinityRank, Nat.min_le_right _ _⟩

/-- Every magnitude but infinity. -/
def isFinite (m : Magnitude) : Bool := m.rank < infinityRank

/-- The exact value in units. After the first two runs of `ranksPerDoubling` ranks, where
neighbours are one unit apart, the distance of neighbours doubles with every run. Infinity counts
as the value that its rank would have, the next power of two. -/
def units (m : Magnitude) : Nat :=
  if m.rank < ranksPerDoubling then m.rank
  else (ranksPerDoubling + m.rank % ranksPerDoubling) <<< (m.rank / ranksPerDoubling - 1)

end Magnitude

/-- A binary64 number. -/
inductive Binary64 where
  | nan
  | signed (negative : Bool) (magnitude : Magnitude)
  deriving DecidableEq

namespace Binary64

/-- Neither NaN nor an infinity. -/
def isFinite : Binary64 → Bool
  | nan => false
  | signed _ m => m.isFinite

/-- The place of a number among all numbers, both zeros at 0. NaN has none. -/
def position? : Binary64 → Option Int
  | nan => none
  | signed true m => some (-m.rank)
  | signed false m => some m.rank

/-- The order of two numbers, if neither is NaN. -/
def compare? (x y : Binary64) : Option Ordering :=
  match x.position?, y.position? with
  | some i, some j => some (compare i j)
  | _, _ => none

/-- Numerical equality: the two zeros are the same, and NaN is not the same as anything. -/
def sameAs (x y : Binary64) : Bool := x.compare? y == some .eq

/-- The highest bit of a pattern, which is set in negative numbers. -/
def signBit : Nat := 0x8000000000000000

/-- The number of a bit pattern. -/
def ofBits (bits : UInt64) : Binary64 :=
  if h : bits.toNat % signBit ≤ infinityRank then signed (signBit ≤ bits.toNat) ⟨_, h⟩ else nan

/-- The bit pattern of a number; of the patterns for NaN, the quiet positive one. -/
def toBits : Binary64 → UInt64
  | nan => 0x7ff8000000000000
  | signed negative m => UInt64.ofNat ((if negative then signBit else 0) + m.rank)

theorem ofBits_toBits (x : Binary64) : ofBits x.toBits = x := by
  cases x with
  | nan => rfl
  | signed negative m =>
    obtain ⟨rank, hr⟩ := m
    have hr' : rank ≤ 0x7ff0000000000000 := hr
    have toNat : (toBits (signed negative ⟨rank, hr⟩)).toNat =
        (if negative then signBit else 0) + rank := by
      refine (UInt64.toNat_ofNat').trans (Nat.mod_eq_of_lt ?_)
      cases negative <;> simp [signBit] <;> omega
    have low : ((if negative then signBit else 0) + rank) % signBit = rank := by
      cases negative <;> simp [signBit] <;> omega
    have sign : decide (signBit ≤ (if negative then signBit else 0) + rank) = negative := by
      cases negative
      · simp [signBit]
        omega
      · simp [signBit]
    simp only [ofBits, toNat, low, sign, hr, dif_pos]

end Binary64

end Eligibility
