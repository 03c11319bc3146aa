import Eligibility.Proofs.CanonicalText
import Eligibility.Proofs.Ordering

/-!
# Comparisons of integers

An integer in a record is rounded to the nearest number, and so is one that a rule states in decimal
digits, after it has been cut out of the text and read as a numeral. Both come to the same number
(`Condition.parse_ofInt`). Rounding may make different integers equal, but does not put a greater
one before a lesser one (`Binary64.place_mono`), and keeps integers up to `2 ^ 53` apart
(`Binary64.place_inj`). Main statement :

* `Condition.integers_compared` : what the comparisons of two integers say about them.
-/

namespace Eligibility

/-! ## Places of integers -/

namespace Magnitude

theorem ext {m m' : Magnitude} (h : m.rank = m'.rank) : m = m' := by
  cases m
  cases m'
  cases h
  rfl

theorem nearest_zero : nearest 0 1 = zero := by decide

/-- Naturals up to `2 ^ 53` are not rounded to the same rank. -/
theorem rank_nearest_inj {n n' : Nat} (hn : n ≤ 2 ^ 53) (hn' : n' ≤ 2 ^ 53)
    (h : (nearest n 1).rank = (nearest n' 1).rank) : n = n' := by
  have hunits := congrArg units (ext h)
  rw [units_nearest_natCast hn, units_nearest_natCast hn', Nat.shiftLeft_eq, Nat.shiftLeft_eq]
    at hunits
  exact Nat.eq_of_mul_eq_mul_right (Nat.two_pow_pos _) hunits

end Magnitude

namespace Binary64

/-- The place of the number that is nearest to an integer, among all numbers. -/
def place (n : Int) : Int :=
  if n < 0 then -(Magnitude.nearest n.natAbs 1).rank else (Magnitude.nearest n.natAbs 1).rank

theorem position?_ofInt (n : Int) : (ofInt n).position? = some (place n) := by
  by_cases h : n < 0 <;> simp [ofInt, place, position?, h]

theorem compare?_ofInt (m n : Int) : (ofInt m).compare? (ofInt n) =
    some (compare (place m) (place n)) :=
  compare?_eq_some_iff.mpr ⟨_, _, position?_ofInt m, position?_ofInt n, rfl⟩

/-- No integer is rounded below a lesser one. -/
theorem place_mono {m n : Int} (h : m ≤ n) : place m ≤ place n := by
  unfold place
  split
  · split
    · have hrank := Magnitude.rank_nearest_mono 1 (show n.natAbs ≤ m.natAbs by omega)
      omega
    · omega
  · rw [if_neg (by omega)]
    have hrank := Magnitude.rank_nearest_mono 1 (show m.natAbs ≤ n.natAbs by omega)
    omega

/-- Different integers up to `2 ^ 53` have different places. -/
theorem place_inj {m n : Int} (hm : m.natAbs ≤ 2 ^ 53) (hn : n.natAbs ≤ 2 ^ 53)
    (h : place m = place n) : m = n := by
  have hzero : (Magnitude.nearest 0 1).rank = 0 := congrArg Magnitude.rank Magnitude.nearest_zero
  -- of two places that are equal and have different signs both are zero
  have hopposite {i j : Int} (hi : i.natAbs ≤ 2 ^ 53)
      (heq : -((Magnitude.nearest i.natAbs 1).rank : Int) = (Magnitude.nearest j.natAbs 1).rank) :
      i = 0 := by
    have hi0 := Magnitude.rank_nearest_inj hi (Nat.zero_le _)
      (show (Magnitude.nearest i.natAbs 1).rank = (Magnitude.nearest 0 1).rank by omega)
    omega
  unfold place at h
  split at h <;> split at h
  · have hnatAbs := Magnitude.rank_nearest_inj hm hn (by omega)
    omega
  · have := hopposite hm h
    omega
  · have := hopposite hn h.symm
    omega
  · have hnatAbs := Magnitude.rank_nearest_inj hm hn (by omega)
    omega

end Binary64

/-! ## Integers in rules -/

namespace Numeral

/-- The numeral of an integer. -/
def ofInt (n : Int) : Numeral := ⟨n < 0, Nat.toDigits 10 n.natAbs, [], none⟩

theorem isSpelled_ofInt (n : Int) : (ofInt n).IsSpelled where
  whole := isRun_toDigits _
  fraction := by simp [ofInt]

theorem toText_ofInt (n : Int) : (ofInt n).toText = (toString n).toList := by
  have hspelling : (ofInt n).toText =
      (if n < 0 then ['-'] else []) ++ Nat.toDigits 10 n.natAbs := by
    simp [toText, ofInt, exponentText]
  rw [hspelling]
  cases n with
  | ofNat n => simp [Int.repr, Nat.repr]
  | negSucc n => simp [Int.repr, Nat.repr]

/-- The digits of an integer are rounded as the integer is. -/
theorem value_ofInt (n : Int) : (ofInt n).value = .ofInt n := by
  have hdigits : digitsValue ((ofInt n).whole ++ (ofInt n).fraction) = n.natAbs := by
    rw [ofInt, List.append_nil, digitsValue_toDigits]
  have hmagnitude : Magnitude.ofDecimal n.natAbs 0 = .nearest n.natAbs 1 := by
    by_cases hzero : n.natAbs = 0
    · rw [hzero, Magnitude.ofDecimal_zero, Magnitude.nearest_zero]
    · rw [Magnitude.ofDecimal_eq_nearest hzero (by decide) (by omega)]
      simp
  rw [value, hdigits]
  exact congrArg (Binary64.signed _) hmagnitude

end Numeral

namespace Token

theorem cut_ofInt (n : Int) : cut (toString n).toList = [.number (.ofInt n)] := by
  have hcut := cut_of_cutBefore ((Numeral.isSpelled_ofInt n).cutBefore rfl)
  rw [Numeral.value_ofInt, Numeral.toText_ofInt, List.append_nil, cut_nil] at hcut
  exact hcut

end Token

/-! ## Comparisons -/

namespace Comparator

/-- What a comparator says about two integers. -/
def Relates (comparator : Comparator) (m n : Int) : Prop :=
  match comparator with
  | less => m < n
  | lessEqual => m ≤ n
  | greater => n < m
  | greaterEqual => n ≤ m
  | equal => m = n
  | notEqual => m ≠ n
  | unknown _ => False

/-- A comparator holds between two integers if it does between their places. -/
theorem holds?_ofInt_iff (comparator : Comparator) (m n : Int) :
    comparator.holds? (.ofInt m) (.number (.ofInt n)) = some true ↔
      comparator.Relates (Binary64.place m) (Binary64.place n) := by
  have hcompare : (FieldValue.ofInt m).compare? (.number (.ofInt n)) =
      some (compare (Binary64.place m) (Binary64.place n)) := Binary64.compare?_ofInt m n
  cases comparator <;>
    simp [holds?, Relates, FieldValue.equals_eq, hcompare, Int.compare_eq_lt, Int.compare_eq_gt,
      Int.isLE_compare, Int.isGE_compare]

theorem ofSymbol_symbol {comparator : Comparator}
    (hknown : ∀ symbol, comparator ≠ .unknown symbol) :
    ofSymbol comparator.symbol = comparator := by
  cases comparator with
  | unknown symbol => exact absurd rfl (hknown symbol)
  | _ => rfl

theorem isComparatorSymbol_symbol {comparator : Comparator}
    (hknown : ∀ symbol, comparator ≠ .unknown symbol) :
    Token.isComparatorSymbol comparator.symbol = true := by
  cases comparator with
  | unknown symbol => exact absurd rfl (hknown symbol)
  | _ => decide +kernel

theorem exists_holds? {comparator : Comparator} (hknown : ∀ symbol, comparator ≠ .unknown symbol)
    (value : FieldValue) (literal : Literal) : ∃ b, comparator.holds? value literal = some b := by
  cases comparator with
  | unknown symbol => exact absurd rfl (hknown symbol)
  | _ => exact ⟨_, rfl⟩

end Comparator

namespace Condition

variable {record : Record} {field : String} {comparator : Comparator} {v : Int}

/-- A comparison with an integer in decimal digits is read as a comparison with the number that is
nearest to the integer. -/
theorem parse_ofInt (hfield : Token.isFieldName field = true)
    (hknown : ∀ symbol, comparator ≠ .unknown symbol) (n : Int) :
    parse (field ++ " " ++ comparator.symbol ++ " " ++ toString n) =
      .ok (compare ⟨field, comparator, .number (.ofInt n)⟩) := by
  have hread := parse_comparison hfield (Comparator.isComparatorSymbol_symbol hknown)
    (Token.cut_ofInt n) rfl
  rwa [Comparator.ofSymbol_symbol hknown] at hread

/-- A rule that compares a field with an integer in decimal digits is read and tested. The field
holds an integer too, and both are rounded. Then a lesser integer is `<=` and a greater one `>=`,
what is `<` is less and what is `>` is greater, and an integer is `=` to its own digits. Up to
`2 ^ 53` all six comparators answer as the integers compare. -/
theorem integers_compared (hfield : Token.isFieldName field = true)
    (hvalue : record.get? field = some (.ofInt v)) (t : Int) :
    let text (comparator : Comparator) : String :=
      field ++ " " ++ comparator.symbol ++ " " ++ toString t
    let holds (comparator : Comparator) : Prop :=
      ∃ condition, parse (text comparator) = .ok condition ∧ condition.eval record = .ok true
    (∀ comparator, (∀ symbol, comparator ≠ .unknown symbol) →
      parse (text comparator) = .ok (compare ⟨field, comparator, .number (.ofInt t)⟩) ∧
        ∃ b, (compare ⟨field, comparator, .number (.ofInt t)⟩).eval record = .ok b) ∧
    (v ≤ t → holds .lessEqual) ∧ (t ≤ v → holds .greaterEqual) ∧
    (holds .less → v < t) ∧ (holds .greater → t < v) ∧ (v = t → holds .equal) ∧
    (v.natAbs ≤ 2 ^ 53 → t.natAbs ≤ 2 ^ 53 →
      (holds .less ↔ v < t) ∧ (holds .lessEqual ↔ v ≤ t) ∧
      (holds .greater ↔ t < v) ∧ (holds .greaterEqual ↔ t ≤ v) ∧
      (holds .equal ↔ v = t) ∧ (holds .notEqual ↔ v ≠ t)) := by
  intro text holds
  have hparse (comparator : Comparator) (hknown : ∀ symbol, comparator ≠ .unknown symbol) :
      parse (text comparator) = .ok (compare ⟨field, comparator, .number (.ofInt t)⟩) :=
    parse_ofInt hfield hknown t
  have hholds (comparator : Comparator) (hknown : ∀ symbol, comparator ≠ .unknown symbol) :
      holds comparator ↔ comparator.Relates (Binary64.place v) (Binary64.place t) := by
    rw [← Comparator.holds?_ofInt_iff, ← eval_compare_eq_ok_iff hvalue]
    simp [holds, hparse comparator hknown]
  have hle (h : v ≤ t) := Binary64.place_mono h
  have hge (h : t ≤ v) := Binary64.place_mono h
  refine ⟨fun comparator hknown => ⟨hparse comparator hknown, ?_⟩, ?_⟩
  · obtain ⟨b, hb⟩ := Comparator.exists_holds? hknown (.ofInt v) (.number (.ofInt t))
    exact ⟨b, (eval_compare_eq_ok_iff hvalue).mpr hb⟩
  · have hinj (hv : v.natAbs ≤ 2 ^ 53) (ht : t.natAbs ≤ 2 ^ 53) := Binary64.place_inj hv ht
    rw [hholds .less (by simp), hholds .lessEqual (by simp), hholds .greater (by simp),
      hholds .greaterEqual (by simp), hholds .equal (by simp), hholds .notEqual (by simp)]
    simp only [Comparator.Relates]
    generalize Binary64.place v = place at *
    generalize Binary64.place t = place' at *
    omega

/-- The integer after `2 ^ 53` is rounded to `2 ^ 53`, so that this is `<=` the other and not `<`.
It is `>` the integer before it. -/
theorem integers_compared_rounded :
    let record := Record.ofList [("x", .ofInt 9007199254740992)]
    Token.isFieldName "x" = true ∧ record.get? "x" = some (.ofInt 9007199254740992) ∧
    (∃ condition, parse "x <= 9007199254740993" = .ok condition ∧
      condition.eval record = .ok true) ∧
    (∃ condition, parse "x < 9007199254740993" = .ok condition ∧
      condition.eval record = .ok false) ∧
    (∃ condition, parse "x > 9007199254740991" = .ok condition ∧
      condition.eval record = .ok true) := by
  intro record
  have hfield : Token.isFieldName "x" = true := by decide +kernel
  have hvalue : record.get? "x" = some (.ofInt 9007199254740992) := by decide +kernel
  obtain ⟨hread, hlessEqual, -⟩ := integers_compared hfield hvalue 9007199254740993
  obtain ⟨-, -, -, -, -, -, hexact⟩ := integers_compared hfield hvalue 9007199254740991
  obtain ⟨-, -, hgreater, -⟩ := hexact (by decide) (by decide)
  refine ⟨hfield, hvalue, hlessEqual (by decide), ⟨_, (hread .less (by simp)).1, ?_⟩,
    hgreater.mpr (by decide)⟩
  exact (eval_compare_eq_ok_iff hvalue).mpr (by decide +kernel)

end Condition

end Eligibility
