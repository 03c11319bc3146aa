import Eligibility.RuleBook
import Mathlib.Data.List.Nodup
import Mathlib.Data.Nat.Find
import Std.Data.String.ToNat

/-!
# Free names

A combined rule is stored under a name that is made up : if the name is taken, numbers are appended
to it one after another. `RuleBook.Finds` is that search with no bound on the tries. Numbered names
differ from one another and from the name without a number (`numberedName_injective`,
`numberedName_ne`), so where that is taken fewer numbers than the book has names can be taken, too
(`lt_size_of_taken`) : the search ends (`exists_firstFree`), and the bounded one finds what it
finds (`freeNumbered_of_finds`). The name is therefore free (`hasName_freeName`), whatever names
there are.
-/

namespace Eligibility

namespace RuleBook

variable {book : RuleBook} {base : String}

theorem numberedName_injective (base : String) : Function.Injective (numberedName base) := by
  intro m n h
  have htext := congrArg String.toList h
  simp only [numberedName, String.toList_append, List.append_cancel_left_eq] at htext
  exact Nat.repr_injective (String.toList_inj.mp htext)

theorem numberedName_ne (base : String) (n : Nat) : numberedName base n ≠ base := by
  intro h
  have hlength := congrArg (fun text => text.toList.length) h
  simp only [numberedName, String.toList_append, List.length_append] at hlength
  have hdash : (toString "-").toList.length = 1 := rfl
  have hbase : (toString base).toList.length = base.toList.length := rfl
  omega

/-! ## The search -/

/-- The search for a free number from `n` on ends with a name, after so many tries. There is no
bound on the tries. -/
inductive Finds (book : RuleBook) (base : String) : (n tries : Nat) → (name : String) → Prop
  | free {n : Nat} : book.hasName (numberedName base n) = false →
    Finds book base n 1 (numberedName base n)
  | taken {n tries : Nat} {name : String} : book.hasName (numberedName base n) = true →
    Finds book base (n + 1) tries name → Finds book base n (tries + 1) name

theorem Finds.tries_pos {n tries : Nat} {name : String} (h : Finds book base n tries name) :
    0 < tries := by
  cases h <;> exact Nat.succ_pos _

/-- The search ends in one way only. -/
theorem Finds.unique {n tries tries' : Nat} {name name' : String}
    (h : Finds book base n tries name) (h' : Finds book base n tries' name') :
    tries' = tries ∧ name' = name := by
  induction h generalizing tries' with
  | free hfree =>
    cases h' with
    | free => exact ⟨rfl, rfl⟩
    | taken htaken => simp [hfree] at htaken
  | taken htaken _ ih =>
    cases h' with
    | free hfree => simp [htaken] at hfree
    | taken _ hrest =>
      obtain ⟨rfl, rfl⟩ := ih hrest
      exact ⟨rfl, rfl⟩

/-- The search ends at the first number that is free. -/
theorem finds_of_firstFree {n i : Nat}
    (hbefore : ∀ j < i, book.hasName (numberedName base (n + j)) = true)
    (hfree : book.hasName (numberedName base (n + i)) = false) :
    Finds book base n (i + 1) (numberedName base (n + i)) := by
  induction i generalizing n with
  | zero => exact .free hfree
  | succ i ih =>
    have hnext : ∀ j, n + (j + 1) = n + 1 + j := fun j => by omega
    rw [hnext] at hfree ⊢
    refine .taken (hbefore 0 (Nat.succ_pos i)) (ih (fun j hj => ?_) hfree)
    rw [← hnext]
    exact hbefore (j + 1) (Nat.succ_lt_succ hj)

/-- With as many tries the bounded search finds the same name. The last try need not be made, if
all others have failed. -/
theorem freeNumbered_of_finds {n tries bound : Nat} {name : String}
    (h : Finds book base n tries name) (hbound : tries ≤ bound + 1) :
    book.freeNumbered base bound n = name := by
  induction h generalizing bound with
  | free hfree =>
    cases bound with
    | zero => rfl
    | succ bound => rw [freeNumbered, if_neg (by simp [hfree])]
  | taken htaken hrest ih =>
    have hpos := hrest.tries_pos
    cases bound with
    | zero => omega
    | succ bound => rw [freeNumbered, if_pos htaken, ih (by omega)]

/-! ## Names that are taken -/

/-- If a name is taken, fewer of its numbered names are than there are names in the book. -/
theorem lt_size_of_taken {n count : Nat} (hbase : book.hasName base = true)
    (h : ∀ j < count, book.hasName (numberedName base (n + j)) = true) :
    count < book.ids.size := by
  have hnumbered : ((List.range count).map fun j => numberedName base (n + j)).Nodup :=
    List.Nodup.map (fun i j hij => Nat.add_left_cancel (numberedName_injective base hij))
      List.nodup_range
  have hnodup : (base :: (List.range count).map fun j => numberedName base (n + j)).Nodup := by
    refine List.nodup_cons.mpr ⟨fun hmem => ?_, hnumbered⟩
    obtain ⟨j, -, hj⟩ := List.mem_map.mp hmem
    exact numberedName_ne base _ hj
  have htaken : ∀ key ∈ base :: (List.range count).map fun j => numberedName base (n + j),
      book.ids.contains key = true := by
    refine List.forall_mem_cons.mpr ⟨hbase, List.forall_mem_map.mpr fun j hj => ?_⟩
    exact h j (List.mem_range.mp hj)
  have hle := TextMap.length_le_size hnodup htaken
  rwa [List.length_cons, List.length_map, List.length_range] at hle

/-- From any number on there is a first one that is free, after fewer than there are names. -/
theorem exists_firstFree (hbase : book.hasName base = true) (n : Nat) : ∃ i < book.ids.size,
    (∀ j < i, book.hasName (numberedName base (n + j)) = true) ∧
      book.hasName (numberedName base (n + i)) = false := by
  have hexists : ∃ i, book.hasName (numberedName base (n + i)) = false := by
    by_contra hall
    simp only [not_exists, Bool.not_eq_false] at hall
    exact Nat.lt_irrefl _ (lt_size_of_taken (n := n) hbase fun j _ => hall j)
  have hbefore : ∀ j < Nat.find hexists, book.hasName (numberedName base (n + j)) = true :=
    fun j hj => by simpa using Nat.find_min hexists hj
  exact ⟨_, lt_size_of_taken hbase hbefore, hbefore, Nat.find_spec hexists⟩

/-- The name of a combined rule is one that no rule has. -/
theorem hasName_freeName (book : RuleBook) (base : String) :
    book.hasName (book.freeName base) = false := by
  by_cases htaken : book.hasName base = true
  · obtain ⟨i, hi, hbefore, hfree⟩ := exists_firstFree htaken (book.lastId + 1)
    rwa [freeName, if_pos htaken,
      freeNumbered_of_finds (finds_of_firstFree hbefore hfree) (by omega)]
  · rw [freeName, if_neg htaken]
    simpa using htaken

end RuleBook

end Eligibility
