import Eligibility.Proofs.Origin
import Eligibility.Proofs.Transparency
import Eligibility.Proofs.Unfolding

/-!
# Levels of recursion

A `Walk` goes through a condition by recursion : it says what is done at a comparison, and at a
join with what there is for its two parts. Evaluation, flattening, printing and counting are walks.
The recursion of a walk goes as deep as the condition has levels, and no deeper
(`Walk.runWithin_eq`). Main statement :

* `Condition.depth_le_maxDepth` : all conditions that are read from texts or nodes, combined, kept
  or stored have at most `maxDepth` levels. So every walk over a stored condition comes to its end
  within that many levels of recursion.
-/

namespace Eligibility

/-- What is done at a comparison, and at a join with what there is for its parts. -/
structure Walk (α : Type) where
  compare : Comparison → α
  join : Connective → α → α → α

namespace Walk

variable {α : Type}

/-- The walk through a condition. -/
def run (walk : Walk α) : Condition → α
  | .compare c => walk.compare c
  | .join connective left right => walk.join connective (walk.run left) (walk.run right)

/-- The walk through a condition if the recursion may go through so many levels. It has no result
if it would have to go deeper. -/
def runWithin (walk : Walk α) : (levels : Nat) → Condition → Option α
  | 0, _ => none
  | _ + 1, .compare c => some (walk.compare c)
  | levels + 1, .join connective left right => do
    return walk.join connective (← walk.runWithin levels left) (← walk.runWithin levels right)

/-- A function that does what the walk says is the walk. -/
theorem run_eq {walk : Walk α} {f : Condition → α} (hcompare : ∀ c, f (.compare c) = walk.compare c)
    (hjoin : ∀ connective left right,
      f (.join connective left right) = walk.join connective (f left) (f right)) :
    walk.run = f := by
  funext t
  induction t with
  | compare c => rw [run, hcompare]
  | join connective left right ihl ihr => rw [run, hjoin, ihl, ihr]

/-- The levels of the recursion are those of the condition. -/
theorem runWithin_eq (walk : Walk α) (levels : Nat) (t : Condition) :
    walk.runWithin levels t = if t.depth ≤ levels then some (walk.run t) else none := by
  induction t generalizing levels with
  | compare c => cases levels <;> simp [runWithin, run, Condition.depth]
  | join connective left right ihl ihr =>
    cases levels with
    | zero => simp [runWithin, Condition.depth]
    | succ levels =>
      have hdepth : (Condition.join connective left right).depth ≤ levels + 1 ↔
          left.depth ≤ levels ∧ right.depth ≤ levels := by
        rw [Condition.depth, Nat.add_comm, Nat.add_le_add_iff_right, Nat.max_le]
      simp only [runWithin, ihl, ihr, hdepth]
      by_cases hl : left.depth ≤ levels <;> by_cases hr : right.depth ≤ levels <;>
        simp [hl, hr, run]

/-! ## The walks of the library -/

/-- Evaluation. -/
def eval (record : Record) : Walk (Except EvalError Bool) where
  compare := Comparison.eval record
  join connective left right := do return connective.apply (← left) (← right)

/-- Flattening, from the position of the root on. The right part begins where the left part has
come to its end. -/
def nodes : Walk (Nat → List Node) where
  compare c _ := [.ofComparison c]
  join connective left right start :=
    let part := left (start + 1)
    .ofConnective connective (start + 1) (start + 1 + part.length) ::
      (part ++ right (start + 1 + part.length))

/-- Printing. -/
def text : Walk String where
  compare := Comparison.toText
  join connective left right := "(" ++ left ++ " " ++ connective.keyword ++ " " ++ right ++ ")"

/-- Counting. -/
def size : Walk Nat where
  compare _ := 1
  join _ left right := 1 + left + right

theorem run_eval (record : Record) : (eval record).run = Condition.eval record :=
  run_eq (fun _ => rfl) fun _ _ _ => rfl

theorem run_nodes : nodes.run = fun t start => t.flattenFrom start := by
  refine run_eq (fun _ => rfl) fun connective left right => funext fun start => ?_
  simp only [nodes, Condition.flattenFrom, Condition.length_flattenFrom]

theorem run_text : text.run = Condition.toText :=
  run_eq (fun _ => rfl) fun _ _ _ => rfl

theorem run_size : size.run = Condition.size :=
  run_eq (fun _ => rfl) fun _ _ _ => rfl

end Walk

namespace Condition

/-- The walks of the library come to their results within so many levels of recursion. -/
structure IsWalkedWithin (levels : Nat) (t : Condition) : Prop where
  eval : ∀ record, (Walk.eval record).runWithin levels t = some (t.eval record)
  flatten : (Walk.nodes.runWithin levels t).map (· 0) = some t.flatten
  toText : Walk.text.runWithin levels t = some t.toText
  size : Walk.size.runWithin levels t = some t.size

theorem isWalkedWithin {levels : Nat} {t : Condition} (h : t.depth ≤ levels) :
    t.IsWalkedWithin levels where
  eval record := by rw [Walk.runWithin_eq, if_pos h, Walk.run_eval]
  flatten := by
    rw [Walk.runWithin_eq, if_pos h, Walk.run_nodes]
    rfl
  toText := by rw [Walk.runWithin_eq, if_pos h, Walk.run_text]
  size := by rw [Walk.runWithin_eq, if_pos h, Walk.run_size]

/-- Whatever is read from a text or from nodes, or combined, has at most `maxDepth` levels. So has
every condition that calls keep in a new cache or store in a new book, however often combinations
have been combined; and to evaluate, flatten, print or count a stored one takes at most `maxDepth`
levels of recursion. -/
theorem depth_le_maxDepth :
    (∀ text t, parse text = .ok t → t.depth ≤ maxDepth) ∧
    (∀ nodes root t, ofNodes nodes root = .ok t → t.depth ≤ maxDepth) ∧
    (∀ conditions t, combine conditions = .ok t → t.depth ≤ maxDepth) ∧
    (∀ calls text t, (ConditionCache.empty.after calls).conditions.get? text = some t →
      t.depth ≤ maxDepth) ∧
    (∀ calls, ∀ rule ∈ (RuleBook.empty.after calls).toList,
      rule.condition.depth ≤ maxDepth ∧ rule.condition.IsWalkedWithin maxDepth) := by
  refine ⟨fun text t h => (isRead_of_parse h).1, fun nodes root t h => ?_,
    fun conditions t h => ?_, fun calls text t h => ?_, fun calls rule hrule => ?_⟩
  · obtain ⟨met, -, -, hdepth⟩ := ofNodes_eq_ok_iff_unfolds.mp h
    exact hdepth
  · obtain ⟨first, others, -, -, -, hdepth⟩ := combine_eq_ok_iff.mp h
    exact hdepth
  · have hparse := ((ConditionCache.reflects_empty.after calls text t).mp h).2
    exact (isRead_of_parse hparse).1
  · have hdepth := (RuleBook.isStated_after_empty calls rule hrule).isRead.1
    exact ⟨hdepth, isWalkedWithin hdepth⟩

/-- A combination of combinations has three levels. They are walked through within the limit, and
not within two levels. -/
theorem depth_le_maxDepth_nested :
    let clock : Clock := .stopped ⟨0, 0⟩
    let calls := [RuleBook.Call.create ⟨0, 0⟩ ⟨"a", "", "x > 1"⟩, .combine clock [1, 1],
      .combine clock [2, 2]]
    ∃ rule ∈ (RuleBook.empty.after calls).toList, rule.condition.depth = 3 ∧
      Walk.size.runWithin maxDepth rule.condition = some 7 ∧
      Walk.size.runWithin 2 rule.condition = none := by
  intro clock calls
  have hget : ((RuleBook.empty.after calls).get? 3).map
      (fun rule => (rule.condition.depth, rule.condition.size)) = some (3, 7) := by
    decide +kernel
  obtain ⟨rule, hrule, hfields⟩ := Option.map_eq_some_iff.mp hget
  obtain ⟨hdepth, hsize⟩ : rule.condition.depth = 3 ∧ rule.condition.size = 7 :=
    Prod.ext_iff.mp hfields
  have hmem : rule ∈ (RuleBook.empty.after calls).toList := RuleBook.mem_toList.mpr ⟨3, hrule⟩
  refine ⟨rule, hmem, hdepth, ?_, ?_⟩
  · rw [(depth_le_maxDepth.2.2.2.2 calls rule hmem).2.size, hsize]
  · rw [Walk.runWithin_eq, hdepth, if_neg (by decide)]

end Condition

end Eligibility
