import Eligibility.Proofs.JsonText
import Eligibility.Proofs.Origin
import Eligibility.Proofs.ReadBack
import Eligibility.Wire.Rule

/-!
# Conditions that read back from JSON

The nested form of a condition has one object for each level, and JSON is read to so many levels
only, fewer than a condition may have. Within them a condition is read with the numbers that the
reader of numbers makes of their spellings (`Condition.respelled?`), and a number that is not finite
has none. Nothing else is lost : names, symbols and texts may hold any characters. Main statements :

* `Condition.ofNestedText?_toJson` : what is read from a nested form, with any reader of numbers;
* `Condition.ofNestedText?_toJson_iff` : which conditions that texts state, and which conditions of
  stored rules, read back from JSON if numbers are read exactly. One that is too deep does not, with
  any reader (`ofNestedText?_toJson_deep`).
-/

namespace Eligibility

/-! ## Literals -/

namespace Literal

/-- The literal is neither an infinity nor NaN. -/
def IsFinite (literal : Literal) : Prop :=
  ∀ x, literal = .number x → x.isFinite = true

variable {literal literal' : Literal}

theorem isFinite_number_iff {x : Binary64} : (number x).IsFinite ↔ x.isFinite = true :=
  ⟨fun h => h x rfl, fun hx _ h => Literal.number.inj h ▸ hx⟩

theorem ofJson?_ofNumber [Json.NumberReader] (x : Binary64) :
    ofJson? (.ofNumber x) = (Json.ofNumber x).number?.map number := by
  rcases Json.ofNumber_cases x with ⟨numeral, heq, -⟩ | ⟨heq, -⟩ <;> rw [heq] <;> rfl

/-- Literals read back but for numbers that are not finite. -/
theorem ofJson?_toJson_eq_some_iff [Json.NumberReader] (hexact : Json.NumberReader.IsExact) :
    ofJson? literal.toJson = some literal' ↔ literal' = literal ∧ literal.IsFinite := by
  cases literal with
  | number x =>
    rw [toJson, isFinite_number_iff, ofJson?_ofNumber, Json.number?_ofNumber hexact]
    by_cases hfinite : x.isFinite = true <;> simp [hfinite, eq_comm]
  | text s =>
    have htext : (text s).IsFinite := nofun
    simp [toJson, Json.ofString, ofJson?, htext, eq_comm]

theorem isSpelled_toJson (literal : Literal) : literal.toJson.IsSpelled := by
  cases literal with
  | number x => exact Json.isSpelled_ofNumber x
  | text s => exact Json.isSpelled_ofString s

/-- What is read is sound. -/
theorem isSound_toJson [Json.NumberReader] (h : ofJson? literal.toJson = some literal')
    (levels : Nat) : literal.toJson.isSound levels = true := by
  cases literal with
  | number x =>
    rw [toJson, ofJson?_ofNumber] at h
    obtain ⟨y, hy, -⟩ := Option.map_eq_some_iff.mp h
    rw [toJson]
    rcases Json.ofNumber_cases x with ⟨numeral, heq, -⟩ | ⟨heq, -⟩
    · rw [heq] at hy ⊢
      rw [Json.isSound]
      exact Option.isSome_iff_exists.mpr ⟨y, hy⟩
    · rw [heq, Json.isSound]
  | text s => rw [toJson, Json.ofString, Json.isSound, Option.isSome_some]

end Literal

/-! ## Nodes -/

namespace Condition

theorem isSpelled_toJson : ∀ condition : Condition, condition.toJson.IsSpelled
  | compare c => by simp [toJson, Literal.isSpelled_toJson]
  | join _ left right => by simp [toJson, isSpelled_toJson left, isSpelled_toJson right]

/-- The type stands first, and the other members after it. -/
theorem tagged?_ofMembers {members : List (String × Json)} (inner : Bool) (tag : Json)
    (h : "type" ∉ members.map Prod.fst) :
    tagged? inner (.ofMembers (("type", tag) :: members)) =
      (Tag.ofJson? inner tag).map (·, .ofMembers members) := by
  have hne : ∀ member ∈ members, member.1 ≠ "type" :=
    fun member hm heq => h (heq ▸ List.mem_map_of_mem hm)
  have htag : (members.map fun member => (some member.1, member.2)).filter
      (fun member => member.1 = some "type") = [] := by
    rw [List.filter_eq_nil_iff, List.forall_mem_map]
    exact fun member hm => by simpa using hne member hm
  have hrest : (members.map fun member => (some member.1, member.2)).filter
      (fun member => member.1 ≠ some "type") =
        members.map fun member => (some member.1, member.2) := by
    rw [List.filter_eq_self, List.forall_mem_map]
    exact fun member hm => by simpa using hne member hm
  rw [Json.ofMembers, tagged?, List.map_cons, List.filter_cons_of_pos (by simp), htag,
    List.filter_cons_of_neg (by simp), hrest]
  rfl

/-- Each comparator is the one of its symbol. -/
def HasKnownComparators (condition : Condition) : Prop :=
  ∀ c ∈ condition.comparisons, Comparator.ofSymbol c.comparator.symbol = c.comparator

theorem IsStated.hasKnownComparators {t : Condition} (h : t.IsStated) : t.HasKnownComparators :=
  fun c hc => (h.isRead.2 c hc).canonical

variable [Json.NumberReader] {t u : Condition} {levels : Nat} {inner : Bool}

/-- The condition with its literals as they are read from their own spellings, if all of them
are. -/
def respelled? : Condition → Option Condition
  | compare c => (Literal.ofJson? c.literal.toJson).map fun literal => compare { c with literal }
  | join connective left right =>
    left.respelled?.bind fun left => right.respelled?.map (join connective left)

/-- What is read, and not too deep, is sound. -/
theorem isSound_toJson (h : t.respelled? = some u) (hdepth : t.depth ≤ levels) :
    t.toJson.isSound levels = true := by
  induction t generalizing u levels with
  | compare c =>
    obtain ⟨levels, rfl⟩ : ∃ n, levels = n + 1 := Nat.exists_eq_add_of_le' hdepth
    obtain ⟨literal, hliteral, -⟩ := Option.map_eq_some_iff.mp h
    simp [toJson, Json.ofMembers, Json.isSound, Json.ofString, Literal.isSound_toJson hliteral]
  | join connective left right ihleft ihright =>
    obtain ⟨levels, rfl⟩ : ∃ n, levels = n + 1 :=
      Nat.exists_eq_add_of_le' (Nat.le_trans (Nat.le_add_right ..) hdepth)
    obtain ⟨left', hleft, h⟩ := Option.bind_eq_some_iff.mp h
    obtain ⟨right', hright, -⟩ := Option.map_eq_some_iff.mp h
    have hlevels : left.depth ≤ levels ∧ right.depth ≤ levels := by
      rw [depth] at hdepth
      omega
    simp [toJson, Json.ofMembers, Json.isSound, Json.ofString, ihleft hleft hlevels.1,
      ihright hright hlevels.2]

/-- A comparison is read with the comparator of its symbol. -/
theorem ofNode?_compare (levels : Nat) (inner : Bool) (c : Comparison) :
    ofNode? (levels + 1) inner (compare c).toJson =
      (Literal.ofJson? c.literal.toJson).map fun literal =>
        compare ⟨c.field, .ofSymbol c.comparator.symbol, literal⟩ := by
  have hfields : (Json.ofMembers [("field", .ofString c.field),
      ("operator", .ofString c.comparator.symbol), ("value", c.literal.toJson)]).fields?
        [["field"], ["operator"], ["value"]] =
      some [some (.ofString c.field), some (.ofString c.comparator.symbol),
        some c.literal.toJson] := Json.fields?_ofMembers (by simp) ["field", "operator", "value"]
  have htag : Tag.ofJson? inner (.ofString "operand") = some .operand := rfl
  rw [ofNode?, toJson, tagged?_ofMembers inner _ (by simp), htag]
  simp [hfields, Option.map_eq_bind]

theorem ofNode?_join (levels : Nat) (inner : Bool) (connective : Connective)
    (left right : Condition) : ofNode? (levels + 1) inner (join connective left right).toJson =
      (ofNode? levels true left.toJson).bind fun left =>
        (ofNode? levels true right.toJson).map (join connective left) := by
  have hfields : (Json.ofMembers [("operator", .ofString connective.keyword),
      ("left", left.toJson), ("right", right.toJson)]).fields?
        [["operator"], ["left"], ["right"]] =
      some [some (.ofString connective.keyword), some left.toJson, some right.toJson] :=
    Json.fields?_ofMembers (by simp) ["operator", "left", "right"]
  have htag : Tag.ofJson? inner (.ofString "operator") = some .operator := rfl
  have hkeyword : Connective.ofJson? (.ofString connective.keyword) = some connective :=
    Connective.ofKeyword?_keyword connective
  rw [ofNode?, toJson, tagged?_ofMembers inner _ (by simp), htag]
  simp [hfields, hkeyword, Option.map_eq_bind]

/-- A node is read exactly if its levels are within those that are given and its literals are
read. -/
theorem ofNode?_toJson (h : t.HasKnownComparators) :
    ofNode? levels inner t.toJson = if t.depth ≤ levels then t.respelled? else none := by
  -- the parts of a join are read to one level less, and may be tagged in another way
  induction t generalizing levels inner with
  | compare c =>
    cases levels with
    | zero => simp [ofNode?, depth]
    | succ levels =>
      have hdepth : (compare c).depth ≤ levels + 1 := Nat.le_add_left ..
      rw [ofNode?_compare, h c (List.mem_singleton_self c), if_pos hdepth]
      rfl
  | join connective left right ihleft ihright =>
    cases levels with
    | zero => simp [ofNode?, depth]
    | succ levels =>
      obtain ⟨hleft, hright⟩ := List.forall_mem_append.mp h
      have hdepth : (join connective left right).depth ≤ levels + 1 ↔
          left.depth ≤ levels ∧ right.depth ≤ levels := by
        rw [depth]
        omega
      rw [ofNode?_join, ihleft hleft, ihright hright]
      by_cases hl : left.depth ≤ levels <;> by_cases hr : right.depth ≤ levels <;>
        simp [hdepth, hl, hr, respelled?]

theorem ofJson?_toJson (h : t.HasKnownComparators) :
    ofJson? levels t.toJson = if t.depth ≤ levels then t.respelled? else none := by
  rw [ofJson?, ofNode?_toJson h]
  by_cases hdepth : t.depth ≤ levels
  · cases hread : t.respelled? with
    | none => simp
    | some u => rw [isSound_toJson hread hdepth, if_pos rfl]
  · simp [hdepth]

/-- With exact numbers the literals are read back, and those that are not finite are not read. -/
theorem respelled?_eq_some_iff (hexact : Json.NumberReader.IsExact) :
    t.respelled? = some u ↔ u = t ∧ t.HasFiniteNumbers := by
  induction t generalizing u with
  | compare c =>
    rw [respelled?, Option.map_eq_some_iff]
    simp only [Literal.ofJson?_toJson_eq_some_iff hexact]
    constructor
    · rintro ⟨literal, ⟨rfl, hfinite⟩, rfl⟩
      exact ⟨rfl, List.forall_mem_singleton.mpr hfinite⟩
    · rintro ⟨rfl, hfinite⟩
      exact ⟨c.literal, ⟨rfl, hfinite c (List.mem_singleton_self c)⟩, rfl⟩
  | join connective left right ihleft ihright =>
    have hjoin : (join connective left right).HasFiniteNumbers ↔
      left.HasFiniteNumbers ∧ right.HasFiniteNumbers := List.forall_mem_append
    rw [respelled?, hjoin]
    simp only [Option.bind_eq_some_iff, Option.map_eq_some_iff, ihleft, ihright]
    constructor
    · rintro ⟨_, ⟨rfl, hfinite⟩, _, ⟨rfl, hfinite'⟩, rfl⟩
      exact ⟨rfl, hfinite, hfinite'⟩
    · rintro ⟨rfl, hfinite, hfinite'⟩
      exact ⟨left, ⟨rfl, hfinite⟩, right, ⟨rfl, hfinite'⟩, rfl⟩

theorem ofJson?_toJson_eq_some_iff (hexact : Json.NumberReader.IsExact)
    (h : t.HasKnownComparators) :
    ofJson? levels t.toJson = some u ↔ u = t ∧ t.depth ≤ levels ∧ t.HasFiniteNumbers := by
  rw [ofJson?_toJson h, Option.ite_none_right_eq_some, respelled?_eq_some_iff hexact]
  exact and_left_comm

/-- Reads a condition from the text of its nested form. -/
def ofNestedText? (text : String) : Option Condition :=
  (Json.parse? text).bind (ofJson? Json.maxNesting)

/-- A condition is read from its own text exactly if it has no more levels than JSON is read to and
its literals are read, and then with what they are read as. -/
theorem ofNestedText?_toJson (h : t.HasKnownComparators) :
    ofNestedText? t.toJson.toText =
      if t.depth ≤ Json.maxNesting then t.respelled? else none := by
  rw [ofNestedText?, Json.parse?_toText t.isSpelled_toJson, Option.bind_some, ofJson?_toJson h]

end Condition

/-! ## Rules -/

namespace Rule

theorem isSpelled_toJson (rule : Rule) : rule.toJson.IsSpelled := by
  simp [toJson, Condition.isSpelled_toJson]

/-- The fields of the object of a rule, by their names. -/
theorem fields?_toJson (rule : Rule) :
    rule.toJson.fields? [["id"], ["name"], ["description"], ["rootNode"], ["isActive"],
        ["version"], ["createdAt"]] =
      some [some (.ofNat rule.id), some (.ofString rule.name), some (.ofString rule.description),
        some rule.condition.toJson, some (.bool rule.isActive), some (.ofNat rule.version.toNat),
        some (.ofString rule.createdAt.toText)] :=
  Json.fields?_ofMembers (by simp) ["id", "name", "description", "rootNode", "isActive", "version",
    "createdAt"]

variable [Json.NumberReader]

/-- Reads the condition of a rule from the object of the rule, whatever else is in it. -/
def rootOfJson? (json : Json) : Option Condition := do
  let [root] ← json.fields? [["rootNode"]] | none
  root.bind (Condition.ofJson? (Json.maxNesting - 1))

theorem rootOfJson?_toJson (rule : Rule) :
    rootOfJson? rule.toJson = Condition.ofJson? (Json.maxNesting - 1) rule.condition.toJson := by
  have hfield : rule.toJson.fields? [["rootNode"]] = some [some rule.condition.toJson] :=
    Json.fields?_ofMembers (by simp) ["rootNode"]
  rw [rootOfJson?, hfield]
  rfl

/-- A rule is read back with its condition, unless its id is too great or its time is not read. -/
theorem ofJson?_toJson_eq_some_iff [InstantReader] {rule rule' : Rule} :
    ofJson? rule.toJson = some rule' ↔ rule.id < idBound ∧ ∃ condition,
      rootOfJson? rule.toJson = some condition ∧ ∃ created,
        InstantReader.read? rule.createdAt.toText = some created ∧
          rule' = { rule with condition := condition, createdAt := created } := by
  have hversion : rule.version.toNat < UInt32.size := rule.version.toNat_lt
  rw [rootOfJson?_toJson, ofJson?, fields?_toJson]
  simp [Option.bind_eq_some_iff, Json.natural?_ofNat, hversion, @eq_comm _ rule']

end Rule

/-! ## Stated conditions -/

namespace Condition

/-- If numbers are read exactly, the nested form of a stated condition is read as the condition, and
as no other, exactly if it has no more levels than JSON is read to and its numbers are finite; so it
makes no difference whether the condition read has to be the same or only equal by value. In the
object of a rule that calls have stored the condition stands one level further in. The rule as a
whole is read exactly if its condition is, its id is below the bound of ids and its time of creation
is read; and it is read as it was if that time is read as it was. -/
theorem ofNestedText?_toJson_iff [Json.NumberReader] [InstantReader]
    (hexact : Json.NumberReader.IsExact) (calls : List RuleBook.Call) :
    (∀ t : Condition, t.IsStated →
      (∀ u, ofNestedText? t.toJson.toText = some u ↔
        u = t ∧ t.depth ≤ Json.maxNesting ∧ t.HasFiniteNumbers) ∧
      ((∃ u, ofNestedText? t.toJson.toText = some u ∧ u.sameAs t = true) ↔
        t.depth ≤ Json.maxNesting ∧ t.HasFiniteNumbers)) ∧
    (∀ rule ∈ (RuleBook.empty.after calls).toList,
      (∀ u, (Json.parse? rule.toJson.toText).bind Rule.rootOfJson? = some u ↔
        u = rule.condition ∧ rule.condition.depth < Json.maxNesting ∧
          rule.condition.HasFiniteNumbers) ∧
      (∀ rule', (Json.parse? rule.toJson.toText).bind Rule.ofJson? = some rule' ↔
        rule.id < idBound ∧ rule.condition.depth < Json.maxNesting ∧
          rule.condition.HasFiniteNumbers ∧ ∃ created,
            InstantReader.read? rule.createdAt.toText = some created ∧
              rule' = { rule with createdAt := created }) ∧
      (InstantReader.Keeps rule.createdAt →
        ∀ rule', (Json.parse? rule.toJson.toText).bind Rule.ofJson? = some rule' ↔
          rule' = rule ∧ rule.id < idBound ∧ rule.condition.depth < Json.maxNesting ∧
            rule.condition.HasFiniteNumbers)) := by
  constructor
  · intro t ht
    have hread (u) : ofNestedText? t.toJson.toText = some u ↔
        u = t ∧ t.depth ≤ Json.maxNesting ∧ t.HasFiniteNumbers := by
      rw [ofNestedText?, Json.parse?_toText t.isSpelled_toJson, Option.bind_some,
        ofJson?_toJson_eq_some_iff hexact ht.hasKnownComparators]
    refine ⟨hread, ?_⟩
    simp only [hread]
    constructor
    · rintro ⟨u, ⟨-, h⟩, -⟩
      exact h
    · exact fun h => ⟨t, ⟨rfl, h⟩, sameAs_self h.2⟩
  · intro rule hrule
    have hknown := (RuleBook.isStated_after_empty calls rule hrule).hasKnownComparators
    have hlevels : rule.condition.depth ≤ Json.maxNesting - 1 ↔
        rule.condition.depth < Json.maxNesting := Nat.le_sub_one_iff_lt (by decide)
    have hroot (u) : Rule.rootOfJson? rule.toJson = some u ↔ u = rule.condition ∧
        rule.condition.depth < Json.maxNesting ∧ rule.condition.HasFiniteNumbers := by
      rw [Rule.rootOfJson?_toJson, ofJson?_toJson_eq_some_iff hexact hknown, hlevels]
    simp only [Json.parse?_toText rule.isSpelled_toJson, Option.bind_some]
    have hwhole (rule') : Rule.ofJson? rule.toJson = some rule' ↔
        rule.id < idBound ∧ rule.condition.depth < Json.maxNesting ∧
          rule.condition.HasFiniteNumbers ∧ ∃ created,
            InstantReader.read? rule.createdAt.toText = some created ∧
              rule' = { rule with createdAt := created } := by
      simp only [Rule.ofJson?_toJson_eq_some_iff, hroot]
      constructor
      · rintro ⟨hid, _, ⟨rfl, hdepth, hfinite⟩, hcreated⟩
        exact ⟨hid, hdepth, hfinite, hcreated⟩
      · rintro ⟨hid, hdepth, hfinite, hcreated⟩
        exact ⟨hid, rule.condition, ⟨rfl, hdepth, hfinite⟩, hcreated⟩
    refine ⟨hroot, hwhole, fun hkept rule' => ?_⟩
    rw [hwhole, hkept]
    constructor
    · rintro ⟨hid, hdepth, hfinite, _, ⟨rfl⟩, rfl⟩
      exact ⟨rfl, hid, hdepth, hfinite⟩
    · rintro ⟨rfl, hid, hdepth, hfinite⟩
      exact ⟨hid, hdepth, hfinite, rule'.createdAt, rfl, rfl⟩

/-- A rule is stored, and then its condition is read from its own form and from that of the rule. -/
theorem ofNestedText?_toJson_iff_stored :
    let t := join .or (compare ⟨"age", .greaterEqual, .number (.ofInt 30)⟩)
      (compare ⟨"name", .notEqual, .text "Ann"⟩)
    let calls := [RuleBook.Call.create ⟨0, 0⟩ ⟨"a", "", "age >= 30 OR name != Ann"⟩]
    parse "age >= 30 OR name != Ann" = .ok t ∧ ofNestedText? t.toJson.toText = some t ∧
      ∃ rule ∈ (RuleBook.empty.after calls).toList, rule.condition = t ∧
        (Json.parse? rule.toJson.toText).bind Rule.ofJson? = some rule := by
  intro t calls
  have hparse : parse "age >= 30 OR name != Ann" = .ok t := by decide +kernel
  have hfinite : t.HasFiniteNumbers := by
    rintro c hc x hx
    have hc : c = ⟨"age", .greaterEqual, .number (.ofInt 30)⟩ ∨
      c = ⟨"name", .notEqual, .text "Ann"⟩ := by simpa [t, comparisons] using hc
    rcases hc with rfl | rfl
    · cases hx
      decide +kernel
    · cases hx
  obtain ⟨hread, hstored⟩ := ofNestedText?_toJson_iff Json.NumberReader.isExact_nearest calls
  have hget : ((RuleBook.empty.after calls).get? 1).map
      (fun rule => (rule.id, rule.condition, rule.createdAt)) = some (1, t, ⟨0, 0⟩) := by
    decide +kernel
  obtain ⟨rule, hrule, hfields⟩ := Option.map_eq_some_iff.mp hget
  obtain ⟨hid, hcondition, hcreated⟩ : rule.id = 1 ∧ rule.condition = t ∧
    rule.createdAt = ⟨0, 0⟩ := by simpa using hfields
  have hmem : rule ∈ (RuleBook.empty.after calls).toList := RuleBook.mem_toList.mpr ⟨1, hrule⟩
  have hkept : InstantReader.Keeps rule.createdAt := by
    rw [hcreated, InstantReader.Keeps]
    decide +kernel
  refine ⟨hparse, ((hread t (.read hparse)).1 t).mpr ⟨rfl, by decide, hfinite⟩, rule, hmem,
    hcondition, ((hstored rule hmem).2.2 hkept rule).mpr ⟨rfl, ?_, ?_, ?_⟩⟩
  · rw [hid]
    decide
  · rw [hcondition]
    decide
  · rwa [hcondition]

/-- One comparison more than JSON is read to, joined from the left. The text is read, and the
nested form is not, however numbers are read. -/
theorem ofNestedText?_toJson_deep :
    let a := compare ⟨"a", .greater, .number (.ofInt 1)⟩
    let t := joinAll a (List.replicate 127 a)
    parse (" OR ".intercalate (List.replicate 128 "a > 1")) = .ok t ∧ t.depth = 128 ∧
      ∀ [Json.NumberReader], ofNestedText? t.toJson.toText = none := by
  intro a t
  have hdepth : t.depth = 128 := by
    rw [depth_joinAll]
    decide +kernel
  have ha : Comparison.IsWritable ⟨"a", .greater, .number (.ofInt 1)⟩ :=
    ⟨by decide +kernel, by decide +kernel, by decide +kernel, by decide +kernel⟩
  have hwritable : ∀ s ∈ a :: List.replicate 127 a, s.IsWritable := by
    intro s hs c hc
    obtain rfl := List.eq_of_mem_replicate (n := 128) hs
    exact List.mem_singleton.mp hc ▸ ha
  have htext : alternatives (a :: List.replicate 127 a) =
      " OR ".intercalate (List.replicate 128 "a > 1") := by
    have htoText : a.toText = "a > 1" := by decide +kernel
    rw [alternatives, ← List.replicate_succ, List.map_replicate, htoText]
  have hparse := parse_alternatives hwritable
  rw [htext, if_pos (hdepth.trans_le (by decide))] at hparse
  refine ⟨hparse, hdepth, ?_⟩
  intro numbers
  rw [ofNestedText?_toJson (IsStated.read hparse).hasKnownComparators, hdepth]
  rfl

end Condition

end Eligibility
