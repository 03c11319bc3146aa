import Eligibility.Proofs.Index

/-!
# The life of a rule

What a rule says is fixed when it is stored : later calls can mark it or remove it, and nothing
else. Ids are counted up and never given again, so that an id tells for ever which rule is meant,
while the name of a rule that was removed is free for others. A combined rule holds a condition of
its own and does not look at the rules that it came from. Main statement :

* `lifetime_after` : what any calls leave of a book that calls led to.
-/

namespace Eligibility

namespace RuleBook

variable {book book' : RuleBook} {c : Call} {calls : List Call} {answer : Except RuleError Answer}
  {clock : Clock} {ids : List Nat} {id : Nat} {rule : Rule} {rules : List Rule}

/-! ## One call -/

theorem Extends.mem_of_get? (h : Extends book rules book') (hnone : book.get? id = none)
    (hrule : book'.get? id = some rule) : rule ∈ rules := by
  induction h with
  | refl => simp [hnone] at hrule
  | @add book book' rules now name description condition hfree hrest ih =>
    have hadd : (book.add now name description condition).2.get? id = _ := get?_add id
    by_cases hid : book.lastId + 1 = id
    · rw [if_pos hid] at hadd
      rw [hrest.get?_eq hid.ge, hadd, Option.some.injEq] at hrule
      exact List.mem_cons.mpr (.inl hrule.symm)
    · rw [if_neg hid, hnone] at hadd
      exact List.mem_cons_of_mem _ (ih hadd hrule)

namespace Effect

theorem lastId_eq (h : Effect book c answer book') :
    book'.lastId = book.lastId + (addedBy answer).length := by
  cases h with
  | extended h => exact h.lastId_eq
  | failed | deleted | marked => rfl

theorem ids_eq (h : Effect book c answer book') :
    (addedBy answer).map Rule.id = List.range' (book.lastId + 1) (addedBy answer).length := by
  cases h with
  | extended h => exact h.ids_eq
  | failed | deleted | marked => rfl

/-- A call that leaves a rule under an id that was given before has found it there. -/
theorem exists_former (h : Effect book c answer book') (hid : id ≤ book.lastId)
    (hrule : book'.get? id = some rule) :
    ∃ former, book.get? id = some former ∧ rule = { former with isActive := rule.isActive } := by
  cases h with
  | failed => exact ⟨rule, hrule, rfl⟩
  | extended h => exact ⟨rule, (h.get?_eq hid).symm.trans hrule, rfl⟩
  | @deleted id' deleted hdeleted =>
    rw [get?_erase, ite_eq_iff] at hrule
    exact ⟨rule, (hrule.resolve_left (by simp)).2, rfl⟩
  | @marked id' active former hformer =>
    rw [get?_insert, ite_eq_iff] at hrule
    rcases hrule with ⟨rfl, hrule⟩ | ⟨-, hrule⟩
    · exact ⟨former, hformer, by rw [← Option.some.inj hrule]⟩
    · exact ⟨rule, hrule, rfl⟩

/-- Only to delete a rule removes it. -/
theorem exists_isActive (h : Effect book c answer book') (hid : id ≤ book.lastId)
    (hc : Call.delete id ≠ c) (hrule : book.get? id = some rule) :
    ∃ active, book'.get? id = some { rule with isActive := active } := by
  cases h with
  | failed => exact ⟨rule.isActive, hrule⟩
  | extended h => exact ⟨rule.isActive, (h.get?_eq hid).trans hrule⟩
  | @deleted id' deleted hdeleted =>
    have hid' : id' ≠ id := fun heq => hc (heq ▸ rfl)
    exact ⟨rule.isActive, by rwa [get?_erase, if_neg hid']⟩
  | @marked id' active former hformer =>
    by_cases hid' : id' = id
    · subst hid'
      obtain rfl := Option.some.inj (hformer.symm.trans hrule)
      exact ⟨active, by rw [get?_insert, if_pos rfl]⟩
    · exact ⟨rule.isActive, by rwa [get?_insert, if_neg hid']⟩

/-- A rule under a new id is one that the call has added. -/
theorem mem_addedBy (h : Effect book c answer book') (hbook : book.IsIndexed)
    (hid : book.lastId < id) (hrule : book'.get? id = some rule) : rule ∈ addedBy answer := by
  have hnone := hbook.get?_of_lastId_lt hid
  cases h with
  | failed => simp [hnone] at hrule
  | extended h => exact h.mem_of_get? hnone hrule
  | deleted => simp [get?_erase, hnone] at hrule
  | @marked id' active former hformer =>
    have hid' : id' ≠ id := by
      rintro rfl
      simp [hnone] at hformer
    simp [get?_insert, hid', hnone] at hrule

end Effect

/-! ## Any calls -/

theorem lastId_after (book : RuleBook) (calls : List Call) :
    (book.after calls).lastId = book.lastId + (book.added calls).length := by
  induction calls generalizing book with
  | nil => rfl
  | cons c calls ih =>
    rw [after_cons, ih, (effect_call book c).lastId_eq, added_cons, List.length_append,
      Nat.add_assoc]

theorem ids_added (book : RuleBook) (calls : List Call) :
    (book.added calls).map Rule.id =
      List.range' (book.lastId + 1) (book.added calls).length := by
  induction calls generalizing book with
  | nil => rfl
  | cons c calls ih =>
    have heffect := effect_call book c
    rw [added_cons, List.map_append, heffect.ids_eq, ih, heffect.lastId_eq, List.length_append,
      Nat.add_right_comm, List.range'_append_1]

theorem lastId_le_call (book : RuleBook) (c : Call) : book.lastId ≤ (book.call c).2.lastId :=
  (effect_call book c).lastId_eq ▸ Nat.le_add_right ..

theorem exists_former (hid : id ≤ book.lastId) (hrule : (book.after calls).get? id = some rule) :
    ∃ former, book.get? id = some former ∧ rule = { former with isActive := rule.isActive } := by
  induction calls generalizing book with
  | nil => exact ⟨rule, hrule, rfl⟩
  | cons c calls ih =>
    obtain ⟨between, hbetween, heq⟩ := ih (hid.trans (lastId_le_call book c)) hrule
    obtain ⟨former, hformer, heq'⟩ := (effect_call book c).exists_former hid hbetween
    exact ⟨former, hformer, by rw [heq, heq']⟩

theorem exists_isActive (hid : id ≤ book.lastId) (hkept : Call.delete id ∉ calls)
    (hrule : book.get? id = some rule) :
    ∃ active, (book.after calls).get? id = some { rule with isActive := active } := by
  induction calls generalizing book rule with
  | nil => exact ⟨rule.isActive, hrule⟩
  | cons c calls ih =>
    rw [List.mem_cons, not_or] at hkept
    obtain ⟨active, hactive⟩ := (effect_call book c).exists_isActive hid hkept.1 hrule
    obtain ⟨active', hactive'⟩ := ih (hid.trans (lastId_le_call book c)) hkept.2 hactive
    exact ⟨active', hactive'⟩

theorem exists_added (h : book.IsIndexed) (hid : book.lastId < id)
    (hrule : (book.after calls).get? id = some rule) :
    ∃ added ∈ book.added calls, rule = { added with isActive := rule.isActive } := by
  induction calls generalizing book with
  | nil =>
    rw [after_nil, h.get?_of_lastId_lt hid] at hrule
    cases hrule
  | cons c calls ih =>
    have heffect := effect_call book c
    rw [added_cons]
    by_cases hlast : id ≤ (book.call c).2.lastId
    · obtain ⟨added, hadded, heq⟩ := exists_former hlast hrule
      exact ⟨added, List.mem_append_left _ (heffect.mem_addedBy h hid hadded), heq⟩
    · obtain ⟨added, hadded, heq⟩ := ih (h.of_effect heffect) (Nat.not_le.mp hlast) hrule
      exact ⟨added, List.mem_append_right _ hadded, heq⟩

/-! ## Removed rules and combined rules -/

theorem find_after_delete (h : book.IsIndexed) (hdelete : book.delete id = (.ok rule, book')) :
    (book'.after calls).find id = .error (.notFound id) := by
  obtain ⟨hrule, hbook'⟩ := delete_eq_ok_iff.mp hdelete
  have hid : id ≤ book'.lastId := by
    rw [hbook']
    exact (h.id_bounds hrule).2
  have hnone : book'.get? id = none := by simp [hbook', get?_erase]
  refine find_eq_error_iff.mpr ⟨Option.eq_none_iff_forall_ne_some.mpr fun rule hfound => ?_, rfl⟩
  obtain ⟨former, hformer, -⟩ := exists_former hid hfound
  simp [hnone] at hformer

theorem get?_of_combine (h : book.combine clock ids = (.ok rule, book')) :
    book'.get? rule.id = some rule ∧ rule.id ≤ book'.lastId := by
  obtain ⟨sources, condition, -, -, hadd⟩ := combine_eq_ok_iff.mp h
  obtain ⟨rfl, rfl⟩ := Prod.ext_iff.mp hadd
  exact ⟨(get?_add _).trans (if_pos rfl), Nat.le_refl _⟩

theorem eval_of_get? (h : book.get? id = some rule) (record : Record) :
    book.eval id record = (rule.eval record).mapError .eval := by
  rw [eval, find_eq_ok_iff.mpr h]
  rfl

/-- Calls lead from the new book to a book, and more calls to another. A rule of the second one
whose id the first one had given was in the first one and is the same but for its activity. Any
other rule of the second one has an id that was still to be given, and is one that was added in
between, but for its activity. The ids of the rules that were added in between follow on the last
id of the first book and end with the last id of the second one. An id whose rule is deleted leads
to no rule any more. A combined rule that is not deleted itself keeps its condition, and so tests
every record as it did at first, whatever becomes of the rules that it came from. -/
theorem lifetime_after (earlier later : List Call) :
    let book := empty.after earlier
    (∀ id ≤ book.lastId, ∀ rule, (book.after later).get? id = some rule →
      ∃ former, book.get? id = some former ∧ rule = { former with isActive := rule.isActive }) ∧
    (∀ id rule, (book.after later).get? id = some rule → book.get? id = none →
      book.lastId < id ∧
        ∃ added ∈ book.added later, rule = { added with isActive := rule.isActive }) ∧
    (book.after later).lastId = book.lastId + (book.added later).length ∧
    (book.added later).map Rule.id = List.range' (book.lastId + 1) (book.added later).length ∧
    (∀ id rule book', book.delete id = (.ok rule, book') →
      (book'.after later).find id = .error (.notFound id)) ∧
    (∀ clock ids rule book', book.combine clock ids = (.ok rule, book') →
      Call.delete rule.id ∉ later →
        (∃ active, (book'.after later).get? rule.id = some { rule with isActive := active }) ∧
          ∀ record, (book'.after later).eval rule.id record = book'.eval rule.id record) := by
  intro book
  have hbook : book.IsIndexed := isIndexed_empty.after earlier
  refine ⟨fun id hid rule => exists_former hid, fun id rule hrule hnone => ?_,
    lastId_after book later, ids_added book later, fun id rule book' => find_after_delete hbook,
    fun clock ids rule book' hcombine hkept => ?_⟩
  · have hid : book.lastId < id := by
      rw [← Nat.not_le]
      intro hle
      obtain ⟨former, hformer, -⟩ := exists_former hle hrule
      simp [hnone] at hformer
    exact ⟨hid, exists_added hbook hid hrule⟩
  · obtain ⟨hrule, hid⟩ := get?_of_combine hcombine
    obtain ⟨active, hactive⟩ := exists_isActive hid hkept hrule
    refine ⟨⟨active, hactive⟩, fun record => ?_⟩
    rw [eval_of_get? hactive, eval_of_get? hrule]
    rfl

/-- Two rules are combined, then the first one is deleted, another rule takes its name and the
second one is marked. -/
theorem lifetime_after_combine :
    let a : RuleDefinition := ⟨"a", "", "x > 1"⟩
    let b : RuleDefinition := ⟨"b", "", "x < 0"⟩
    let clock : Clock := .stopped ⟨0, 0⟩
    let book := empty.after [.create ⟨0, 0⟩ a, .create ⟨0, 0⟩ b]
    let later : List Call := [.delete 1, .create ⟨0, 0⟩ ⟨"a", "", "x = 5"⟩, .setActive 2 false]
    (book.combine clock [1, 2]).1.map Rule.id = .ok 3 ∧ Call.delete 3 ∉ later ∧
      (∀ record, ((book.combine clock [1, 2]).2.after later).eval 3 record =
        (book.combine clock [1, 2]).2.eval 3 record) ∧
      (book.delete 1).1.map Rule.name = .ok "a" ∧
      ((book.delete 1).2.after later).find 1 = .error (.notFound 1) ∧
      ((book.delete 1).2.after later).ids.get? "a" = some 3 := by
  intro a b clock book later
  have hcombined : (book.combine clock [1, 2]).1.map Rule.id = .ok 3 := by decide +kernel
  have hdeleted : (book.delete 1).1.map Rule.name = .ok "a" := by decide +kernel
  have hname : ((book.delete 1).2.after later).ids.get? "a" = some 3 := by decide +kernel
  have hkept : Call.delete 3 ∉ later := by simp [later]
  obtain ⟨-, -, -, -, hdelete, hcombine⟩ :=
    lifetime_after [.create ⟨0, 0⟩ a, .create ⟨0, 0⟩ b] later
  obtain ⟨rule, hrule, hid⟩ := map_eq_ok_iff.mp hcombined
  obtain ⟨removed, hremoved, -⟩ := map_eq_ok_iff.mp hdeleted
  have hkeeps := hcombine clock [1, 2] rule _ (Prod.ext hrule rfl) (hid ▸ hkept)
  refine ⟨hcombined, hkept, fun record => ?_, hdeleted,
    hdelete 1 removed _ (Prod.ext hremoved rfl), hname⟩
  rw [← hid]
  exact hkeeps.2 record

end RuleBook

end Eligibility
