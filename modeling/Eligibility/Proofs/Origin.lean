import Eligibility.Proofs.Combination
import Eligibility.Proofs.Index

/-!
# Where conditions come from

A condition is stated if it was read from a text or combined from stated conditions. Nothing else
gets into a book : calls store what they read and what they combine, and what is stored they never
change. Main statement :

* `isStated_after_empty` : all stored conditions are stated. So their comparisons are such as texts
  hold (`IsStated.isRead`).
-/

namespace Eligibility

namespace Condition

/-- Read from a text, or combined from conditions that are stated. -/
inductive IsStated : Condition → Prop
  | read {text : String} {condition : Condition} (h : parse text = .ok condition) :
      IsStated condition
  | combined {conditions : List Condition} {condition : Condition}
      (hparts : ∀ part ∈ conditions, IsStated part) (h : combine conditions = .ok condition) :
      IsStated condition

theorem mem_comparisons_joinAll {first : Condition} {others : List Condition} {c : Comparison} :
    c ∈ (joinAll first others).comparisons ↔ ∃ part ∈ first :: others, c ∈ part.comparisons := by
  induction others generalizing first with
  | nil => simp [joinAll]
  | cons other others ih =>
    rw [joinAll, List.foldl_cons, ← joinAll, ih]
    simp [comparisons, or_assoc]

/-- The comparisons of a stated condition are such as texts hold, and its levels are within the
limit. -/
theorem IsStated.isRead {condition : Condition} (h : condition.IsStated) :
    condition.depth ≤ maxDepth ∧ ∀ c ∈ condition.comparisons, c.IsRead := by
  induction h with
  | read h => exact isRead_of_parse h
  | combined hparts h ih =>
    obtain ⟨first, others, rfl, -, rfl, hdepth⟩ := combine_eq_ok_iff.mp h
    refine ⟨hdepth, fun c hc => ?_⟩
    obtain ⟨part, hpart, hc⟩ := mem_comparisons_joinAll.mp hc
    exact (ih part hpart).2 c hc

end Condition

namespace RuleBook

variable {book book' : RuleBook} {clock : Clock} {now : Instant} {name description : String}
  {condition : Condition} {definitions : List RuleDefinition}
  {entries : List (RuleDefinition × Condition)}

/-- All stored conditions are stated. -/
def IsStated (book : RuleBook) : Prop :=
  ∀ {id rule}, book.get? id = some rule → rule.condition.IsStated

theorem isStated_empty : empty.IsStated := by
  intro id rule hrule
  simp [get?_empty] at hrule

namespace IsStated

theorem add (h : book.IsStated) (hcondition : condition.IsStated) :
    (book.add now name description condition).2.IsStated := by
  intro id rule hrule
  rw [get?_add, ite_eq_iff] at hrule
  rcases hrule with ⟨-, hrule⟩ | ⟨-, hrule⟩
  · rw [← Option.some.inj hrule]
    exact hcondition
  · exact h hrule

theorem addAll (h : book.IsStated) (hread : List.Forall₂ IsReadAs definitions entries) :
    (book.addAll clock entries).2.IsStated := by
  induction hread generalizing book clock with
  | nil => exact h
  | cons hentry _ ih => exact ih (h.add (.read hentry.2))

theorem combine (h : book.IsStated) (clock : Clock) (ids : List Nat) :
    (book.combine clock ids).2.IsStated := by
  rcases hcall : book.combine clock ids with ⟨error | rule, book'⟩
  · exact (combine_eq_error_iff.mp hcall).1 ▸ h
  · obtain ⟨sources, condition, hsources, hcombine, hadd⟩ := combine_eq_ok_iff.mp hcall
    obtain ⟨-, rfl⟩ := Prod.ext_iff.mp hadd
    refine h.add (.combined (List.forall_mem_map.mpr fun source hsource => ?_) hcombine)
    obtain ⟨id, -, hid⟩ := (mem_iff_of_mapM hsources).mp hsource
    exact h (find_eq_ok_iff.mp hid)

theorem load (h : book.IsStated) (clock : Clock) (set : RuleSet) :
    (book.load clock set).2.IsStated := by
  rcases hcall : book.load clock set with ⟨error | rules, book'⟩
  · exact (load_eq_error_iff.mp hcall).1 ▸ h
  · obtain ⟨-, entries, hentries, hadd⟩ := load_eq_ok_iff.mp hcall
    obtain ⟨-, rfl⟩ := Prod.ext_iff.mp hadd
    exact h.addAll hentries

/-- A call stores only what it reads or combines. -/
theorem call (h : book.IsStated) (c : Call) : (book.call c).2.IsStated := by
  cases c with
  | create now definition =>
    simp only [RuleBook.call]
    rcases hcall : book.create now definition with ⟨error | rule, book'⟩
    · exact eq_of_create_error hcall ▸ h
    · obtain ⟨condition, hparse, -, hadd⟩ := create_eq_ok_iff.mp hcall
      obtain ⟨-, rfl⟩ := Prod.ext_iff.mp hadd
      exact h.add (.read hparse)
  | load clock set => exact h.load clock set
  | get | getByName | list | count | eval | evalRequest => exact h
  | delete id =>
    simp only [RuleBook.call]
    rcases hcall : book.delete id with ⟨error | rule, book'⟩
    · exact (delete_eq_error_iff.mp hcall).2 ▸ h
    · obtain ⟨-, rfl⟩ := delete_eq_ok_iff.mp hcall
      intro id' rule hrule
      rw [get?_erase, ite_eq_iff] at hrule
      exact h (hrule.resolve_left (by simp)).2
  | setActive id active =>
    simp only [RuleBook.call]
    rcases hcall : book.setActive id active with ⟨error | rule, book'⟩
    · exact (setActive_eq_error_iff.mp hcall).2 ▸ h
    · obtain ⟨former, hformer, rfl, rfl⟩ := setActive_eq_ok_iff.mp hcall
      intro id' rule hrule
      rw [get?_insert, ite_eq_iff] at hrule
      rcases hrule with ⟨-, hrule⟩ | ⟨-, hrule⟩
      · have hstated : former.condition.IsStated := h hformer
        rwa [← Option.some.inj hrule]
      · exact h hrule
  | combine clock ids => exact h.combine clock ids
  | combineRequest clock request => exact h.combine clock (request.ruleIds.map UInt64.toNat)

theorem after (h : book.IsStated) (calls : List Call) : (book.after calls).IsStated := by
  induction calls generalizing book with
  | nil => exact h
  | cons c calls ih => exact ih (h.call c)

end IsStated

/-- Whatever calls have been made on a new book, all stored conditions are stated. -/
theorem isStated_after_empty (calls : List Call) : ∀ rule ∈ (empty.after calls).toList,
    rule.condition.IsStated := by
  intro rule hrule
  obtain ⟨id, hid⟩ := mem_toList.mp hrule
  exact isStated_empty.after calls hid

end RuleBook

end Eligibility
