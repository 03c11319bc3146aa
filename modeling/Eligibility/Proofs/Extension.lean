import Eligibility.Proofs.FreeName
import Mathlib.Data.List.Basic

/-!
# Books with more rules

Rules are added one at a time, each under the next id and a name that is free. `Extends` says of
two books that the second one came from the first in this way, and lists the rules that it has
more. Their ids follow on one another (`Extends.ids_eq`), and what was in the book before is in it
still (`Extends.get?_eq`). Creating a rule, storing a set of them and combining rules all extend
the book, or leave it as it is.
-/

namespace Eligibility

namespace RuleBook

variable {book book' : RuleBook} {id : Nat} {now : Instant} {name name' description : String}
  {condition : Condition} {rule : Rule} {rules : List Rule}

/-! ## Looking up what has been added -/

theorem get?_empty (id : Nat) : empty.get? id = none :=
  Std.ExtTreeMap.getElem?_empty

theorem hasName_eq_isSome (book : RuleBook) (name : String) :
    book.hasName name = (book.ids.get? name).isSome :=
  book.ids.contains_eq_isSome_get? name

theorem hasName_eq_false_iff : book.hasName name = false ↔ book.ids.get? name = none := by
  rw [hasName_eq_isSome, Option.isSome_eq_false_iff, Option.isNone_iff_eq_none]

theorem get?_add (id : Nat) : (book.add now name description condition).2.get? id =
    if book.lastId + 1 = id then some (book.add now name description condition).1
    else book.get? id := by
  simp [add, get?, Std.ExtTreeMap.getElem?_insert]

theorem ids_get?_add : (book.add now name description condition).2.ids.get? name' =
    if name = name' then some (book.lastId + 1) else book.ids.get? name' :=
  TextMap.get?_insert ..

theorem hasName_add_iff : (book.add now name description condition).2.hasName name' = true ↔
    name' = name ∨ book.hasName name' = true := by
  rw [hasName_eq_isSome, ids_get?_add, hasName_eq_isSome]
  by_cases h : name = name'
  · simp [h]
  · simp [h, Ne.symm h]

/-! ## Changing all rules -/

/-- The book with each rule replaced by what a function makes of it. -/
def mapRules (f : Rule → Rule) (book : RuleBook) : RuleBook :=
  { book with rules := book.rules.map fun _ => f }

theorem mapRules_add (f : Rule → Rule) :
    (book.add now name description condition).2.mapRules f =
      ⟨(book.mapRules f).rules.insert (book.lastId + 1)
          (f (book.add now name description condition).1),
        book.ids.insert name (book.lastId + 1), book.lastId + 1⟩ := by
  have hrules (rules : Std.ExtTreeMap Nat Rule compare) (id : Nat) (rule : Rule) :
      (rules.insert id rule).map (fun _ => f) = (rules.map fun _ => f).insert id (f rule) := by
    apply Std.ExtTreeMap.ext_getElem?
    intro id'
    simp only [Std.ExtTreeMap.getElem?_map, Std.ExtTreeMap.getElem?_insert]
    split <;> rfl
  exact congrArg (RuleBook.mk · _ _) (hrules ..)

/-! ## Adding rules one after the other -/

/-- The second book is the first one with further rules, in the order of the list. -/
inductive Extends : RuleBook → List Rule → RuleBook → Prop where
  | refl (book : RuleBook) : Extends book [] book
  | add {book book' : RuleBook} {rules : List Rule} {now : Instant} {name description : String}
      {condition : Condition} (hfree : book.hasName name = false)
      (hrest : Extends (book.add now name description condition).2 rules book') :
      Extends book ((book.add now name description condition).1 :: rules) book'

namespace Extends

theorem single (hfree : book.hasName name = false) :
    Extends book [(book.add now name description condition).1]
      (book.add now name description condition).2 :=
  .add hfree (.refl _)

theorem lastId_eq (h : Extends book rules book') : book'.lastId = book.lastId + rules.length := by
  induction h with
  | refl => rfl
  | @add book book' rules now name description condition hfree hrest ih =>
    have hlast : (book.add now name description condition).2.lastId = book.lastId + 1 := rfl
    rw [ih, hlast, List.length_cons]
    omega

theorem ids_eq (h : Extends book rules book') :
    rules.map Rule.id = List.range' (book.lastId + 1) rules.length := by
  induction h with
  | refl => rfl
  | add hfree hrest ih =>
    rw [List.map_cons, ih, List.length_cons, List.range'_succ]
    rfl

/-- Nothing changes under the ids that have been given before. -/
theorem get?_eq (h : Extends book rules book') (hid : id ≤ book.lastId) :
    book'.get? id = book.get? id := by
  induction h with
  | refl => rfl
  | add hfree hrest ih => rw [ih (Nat.le_succ_of_le hid), get?_add, if_neg (by omega)]

/-- A name that is taken belongs to the same rule from then on. -/
theorem ids_get?_eq (h : Extends book rules book') (hname : book.hasName name = true) :
    book'.ids.get? name = book.ids.get? name := by
  induction h with
  | refl => rfl
  | @add book book' rules now name' description condition hfree hrest ih =>
    have hne : name' ≠ name := by
      rintro rfl
      simp [hfree] at hname
    rw [ih (hasName_add_iff.mpr (.inr hname)), ids_get?_add, if_neg hne]

/-- The rules that have been added are found under their ids and names. -/
theorem find_of_mem (h : Extends book rules book') (hrule : rule ∈ rules) :
    book'.get? rule.id = some rule ∧ book'.getByName? rule.name = some rule := by
  induction h with
  | refl => simp at hrule
  | @add book book' rules now name description condition hfree hrest ih =>
    rcases List.mem_cons.mp hrule with rfl | hrule
    · have hid : book'.get? (book.lastId + 1) =
          some (book.add now name description condition).1 := by
        have hkept := hrest.get?_eq (Nat.le_refl (book.lastId + 1))
        rwa [get?_add, if_pos rfl] at hkept
      have hname : book'.ids.get? name = some (book.lastId + 1) := by
        rw [hrest.ids_get?_eq (hasName_add_iff.mpr (.inl rfl)), ids_get?_add, if_pos rfl]
      exact ⟨hid, (congrArg (Option.bind · book'.get?) hname).trans hid⟩
    · exact ih hrule

end Extends

end RuleBook

end Eligibility
