import Eligibility.Proofs.Effect

/-!
# The names of a book

A book keeps its rules under their ids and, apart from them, the ids under the names. Calls change
the two one after the other, and must not let them come apart (`IsIndexed`) : a rule stands under
its own id, the ids are between 1 and the last one that was given, and a name has an id if and only
if the rule with that id has the name. Main statement :

* `isIndexed_after_empty` : any calls leave the names of a book in order. So the rule that is
  found by a name is the one in the list of all rules that has it, and that list is in the order of
  the ids.
-/

namespace Eligibility

namespace RuleBook

variable {book book' : RuleBook} {id id' : Nat} {now : Instant} {name description : String}
  {condition : Condition} {active : Bool} {rule : Rule} {rules : List Rule}

theorem mem_toList : rule ∈ book.toList ↔ ∃ id, book.get? id = some rule := by
  simp [toList, get?, Std.ExtTreeMap.mem_toList_iff_getElem?_eq_some]

theorem length_toList (book : RuleBook) : book.toList.length = book.size := by
  rw [toList, List.length_map, Std.ExtTreeMap.length_toList, size]

/-- The rules stand under their ids, and the names lead to them. -/
structure IsIndexed (book : RuleBook) : Prop where
  id_eq : ∀ {id rule}, book.get? id = some rule → rule.id = id
  id_bounds : ∀ {id rule}, book.get? id = some rule → 1 ≤ id ∧ id ≤ book.lastId
  ids_get?_iff : ∀ name id, book.ids.get? name = some id ↔
    ∃ rule, book.get? id = some rule ∧ rule.name = name

theorem isIndexed_empty : empty.IsIndexed where
  id_eq {id rule} hrule := by simp [get?_empty] at hrule
  id_bounds {id rule} hrule := by simp [get?_empty] at hrule
  ids_get?_iff name id := by
    simp only [get?_empty, reduceCtorEq, false_and, exists_false, iff_false]
    rw [empty, TextMap.get?_empty]
    exact nofun

namespace IsIndexed

theorem get?_of_lastId_lt (h : book.IsIndexed) (hid : book.lastId < id) : book.get? id = none := by
  rw [Option.eq_none_iff_forall_ne_some]
  intro rule hrule
  exact absurd (h.id_bounds hrule).2 (Nat.not_le.mpr hid)

/-! ## One lemma for each effect -/

theorem add (h : book.IsIndexed) (hfree : book.hasName name = false) :
    (book.add now name description condition).2.IsIndexed where
  id_eq {id rule} hrule := by
    rw [get?_add, ite_eq_iff] at hrule
    rcases hrule with ⟨hid, hrule⟩ | ⟨-, hrule⟩
    · rw [← Option.some.inj hrule]
      exact hid
    · exact h.id_eq hrule
  id_bounds {id rule} hrule := by
    rw [get?_add, ite_eq_iff] at hrule
    rcases hrule with ⟨rfl, -⟩ | ⟨-, hrule⟩
    · exact ⟨Nat.succ_pos _, Nat.le_refl _⟩
    · exact (h.id_bounds hrule).imp_right Nat.le_succ_of_le
  ids_get?_iff name' id := by
    rw [ids_get?_add, get?_add]
    by_cases hname : name = name' <;> by_cases hid : book.lastId + 1 = id
    · simp [hname, hid, RuleBook.add]
    · -- no other rule has the name, since it was free
      subst hname
      rw [hasName_eq_false_iff] at hfree
      simpa [hid, hfree] using h.ids_get?_iff name id
    · -- no name leads to the new id, since it is above the last one
      subst hid
      have hnone : book.get? (book.lastId + 1) = none :=
        h.get?_of_lastId_lt (Nat.lt_succ_self _)
      simpa [hname, hnone, RuleBook.add] using h.ids_get?_iff name' (book.lastId + 1)
    · simpa [hname, hid] using h.ids_get?_iff name' id

theorem of_extends (h : book.IsIndexed) (hextends : Extends book rules book') :
    book'.IsIndexed := by
  induction hextends with
  | refl => exact h
  | add hfree hrest ih => exact ih (h.add hfree)

theorem delete (h : book.IsIndexed) (hrule : book.get? id = some rule) :
    (RuleBook.mk (book.rules.erase id) (book.ids.erase rule.name) book.lastId).IsIndexed := by
  have hname : book.ids.get? rule.name = some id := (h.ids_get?_iff _ _).mpr ⟨rule, hrule, rfl⟩
  have hget {id' : Nat} {rule' : Rule} (hrule' : (RuleBook.mk (book.rules.erase id)
      (book.ids.erase rule.name) book.lastId).get? id' = some rule') :
      book.get? id' = some rule' := by
    rw [get?_erase, ite_eq_iff] at hrule'
    exact (hrule'.resolve_left (by simp)).2
  refine ⟨fun h' => h.id_eq (hget h'), fun h' => h.id_bounds (hget h'), fun name' id' => ?_⟩
  rw [TextMap.get?_erase, get?_erase]
  by_cases hname' : rule.name = name' <;> by_cases hid : id = id'
  · simp [hname', hid]
  · -- another rule with the name would have the same id
    subst hname'
    simp only [if_true, if_neg hid, reduceCtorEq, false_iff]
    intro hother
    exact hid (Option.some.inj (hname.symm.trans ((h.ids_get?_iff _ _).mpr hother)))
  · -- the rule under the id has no other name
    subst hid
    simp only [if_neg hname', h.ids_get?_iff, hrule, Option.some.injEq, exists_eq_left', if_true,
      reduceCtorEq, false_and, exists_false]
    exact iff_of_false hname' not_false
  · simpa [hname', hid] using h.ids_get?_iff name' id'

theorem setActive (h : book.IsIndexed) (hrule : book.get? id = some rule) :
    IsIndexed { book with rules := book.rules.insert id { rule with isActive := active } } where
  id_eq {id' rule'} hrule' := by
    have heq : rule.id = id := h.id_eq hrule
    rw [get?_insert, ite_eq_iff] at hrule'
    rcases hrule' with ⟨rfl, hrule'⟩ | ⟨-, hrule'⟩
    · rw [← Option.some.inj hrule']
      exact heq
    · exact h.id_eq hrule'
  id_bounds {id' rule'} hrule' := by
    rw [get?_insert, ite_eq_iff] at hrule'
    rcases hrule' with ⟨rfl, -⟩ | ⟨-, hrule'⟩
    · exact h.id_bounds hrule
    · exact h.id_bounds hrule'
  ids_get?_iff name' id' := by
    rw [h.ids_get?_iff, get?_insert]
    by_cases hid : id = id'
    · simp [← hid, hrule]
    · rw [if_neg hid]

theorem of_effect (h : book.IsIndexed) {c : Call} {answer : Except RuleError Answer}
    (heffect : Effect book c answer book') : book'.IsIndexed := by
  cases heffect with
  | failed => exact h
  | extended hextends => exact h.of_extends hextends
  | deleted hrule => exact h.delete hrule
  | marked hrule => exact h.setActive hrule

theorem after (h : book.IsIndexed) (calls : List Call) : (book.after calls).IsIndexed := by
  induction calls generalizing book with
  | nil => exact h
  | cons c calls ih => exact ih (h.of_effect (effect_call book c))

/-! ## Looking up by names -/

theorem getByName?_eq_some_iff (h : book.IsIndexed) :
    book.getByName? name = some rule ↔ rule ∈ book.toList ∧ rule.name = name := by
  rw [getByName?, Option.bind_eq_some_iff, mem_toList]
  constructor
  · rintro ⟨id, hid, hrule⟩
    obtain ⟨rule', hrule', hname⟩ := (h.ids_get?_iff _ _).mp hid
    obtain rfl := Option.some.inj (hrule.symm.trans hrule')
    exact ⟨⟨id, hrule⟩, hname⟩
  · rintro ⟨⟨id, hrule⟩, hname⟩
    exact ⟨id, (h.ids_get?_iff _ _).mpr ⟨rule, hrule, hname⟩, hrule⟩

theorem getByName?_eq_none_iff (h : book.IsIndexed) :
    book.getByName? name = none ↔ ∀ rule ∈ book.toList, rule.name ≠ name := by
  rw [Option.eq_none_iff_forall_ne_some]
  refine forall_congr' fun rule => ?_
  rw [Ne, h.getByName?_eq_some_iff, not_and]

/-- The names of a book are those of the rules in the list. -/
theorem hasName_iff (h : book.IsIndexed) :
    book.hasName name = true ↔ ∃ rule ∈ book.toList, rule.name = name := by
  rw [hasName, TextMap.contains_eq_isSome_get?, Option.isSome_iff_exists]
  simp only [h.ids_get?_iff, mem_toList]
  constructor
  · rintro ⟨id, rule, hrule, hname⟩
    exact ⟨rule, ⟨id, hrule⟩, hname⟩
  · rintro ⟨rule, ⟨id, hrule⟩, hname⟩
    exact ⟨id, rule, hrule, hname⟩

theorem pairwise_id_lt (h : book.IsIndexed) : book.toList.Pairwise (·.id < ·.id) := by
  rw [toList, List.pairwise_map]
  refine Std.ExtTreeMap.ordered_keys_toList.imp_of_mem ?_
  rintro ⟨id, rule⟩ ⟨id', rule'⟩ hmem hmem' hlt
  have hid : rule.id = id := h.id_eq (Std.ExtTreeMap.mem_toList_iff_getElem?_eq_some.mp hmem)
  have hid' : rule'.id = id' := h.id_eq (Std.ExtTreeMap.mem_toList_iff_getElem?_eq_some.mp hmem')
  rw [hid, hid']
  exact Nat.compare_eq_lt.mp hlt

theorem nodup_names (h : book.IsIndexed) : (book.toList.map Rule.name).Nodup := by
  rw [List.Nodup, List.pairwise_map]
  refine h.pairwise_id_lt.imp_of_mem ?_
  intro rule rule' hmem hmem' hlt hname
  have hrule : book.getByName? rule'.name = some rule :=
    h.getByName?_eq_some_iff.mpr ⟨hmem, hname⟩
  have hrule' : book.getByName? rule'.name = some rule' :=
    h.getByName?_eq_some_iff.mpr ⟨hmem', rfl⟩
  obtain rfl := Option.some.inj (hrule.symm.trans hrule')
  exact absurd hlt (Nat.lt_irrefl _)

end IsIndexed

/-- Whatever calls are made on a new book, its rules stand under their ids, between 1 and the last
one that was given, and a name has an id if and only if the rule with that id has the name. No two
rules share a name; a rule is found by a name if and only if it is in the list and has the name,
none if no rule in the list has it; the list is in ascending order of the ids and has as many
rules as are counted. -/
theorem isIndexed_after_empty (calls : List Call) :
    let book := empty.after calls
    book.IsIndexed ∧ (book.toList.map Rule.name).Nodup ∧
    (∀ name rule, book.getByName? name = some rule ↔ rule ∈ book.toList ∧ rule.name = name) ∧
    (∀ name, book.getByName? name = none ↔ ∀ rule ∈ book.toList, rule.name ≠ name) ∧
    book.toList.Pairwise (·.id < ·.id) ∧ book.toList.length = book.size := by
  have h : (empty.after calls).IsIndexed := isIndexed_empty.after calls
  exact ⟨h, h.nodup_names, fun _ _ => h.getByName?_eq_some_iff, fun _ => h.getByName?_eq_none_iff,
    h.pairwise_id_lt, length_toList _⟩

end RuleBook

end Eligibility
