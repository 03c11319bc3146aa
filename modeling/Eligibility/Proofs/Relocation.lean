import Eligibility.Proofs.Flattening

/-!
# Where nodes stand

Nothing depends on the positions of nodes but their references to one another. If each node that
the references from a root lead to stands elsewhere in another list, with its references changed
accordingly (`Node.Relocates`), the condition that unfolds is the same (`Unfolds.relocate`), and so
is the one that is read. The nodes may be put in another order or left out if no reference leads to
them (`Node.IsSelection`), and nodes of whatever kind may be put between them.

The flattened condition is such a selection itself : the nodes at the ends of the paths to its
parts, in the order of `Condition.paths`. Main statement :

* `Condition.ofNodes_relocated` : what may be done to a list of nodes, and what flattening makes of
  it.
-/

namespace Eligibility

namespace Node

variable {nodes nodes' : Array Node} {node : Node} {f : Nat → Nat} {places order : List Nat}
  {part : List Node}

/-! ## Other positions -/

/-- The node with its references changed. -/
def renumber (f : Nat → Nat) (node : Node) : Node :=
  { node with left := node.left.map f, right := node.right.map f }

/-- The nodes at these positions stand in the second list where `f` tells, each at a position of its
own, and refer to what they referred to. A reference out of range becomes whatever `f` tells of it :
it may stay as it is. -/
structure Relocates (f : Nat → Nat) (places : List Nat) (nodes nodes' : Array Node) : Prop where
  injective : ∀ i ∈ places, ∀ j ∈ places, f i = f j → i = j
  node : ∀ i ∈ places, ∀ node, nodes[i]? = some node → nodes'[f i]? = some (node.renumber f)

theorem Relocates.mono (h : Relocates f places nodes nodes') {places' : List Nat}
    (hsub : ∀ i ∈ places', i ∈ places) : Relocates f places' nodes nodes' where
  injective i hi j hj := h.injective i (hsub i hi) j (hsub j hj)
  node i hi := h.node i (hsub i hi)

/-- The nodes at the positions in `order`, one after the other. They refer to one another by their
new positions. -/
def IsSelection (nodes : Array Node) (order : List Nat) (part : List Node) : Prop :=
  part.map some = order.map fun i => nodes[i]?.map (renumber order.idxOf)

theorem IsSelection.relocates (h : IsSelection nodes order part) :
    Relocates order.idxOf order nodes part.toArray where
  injective i hi j _ heq := (List.idxOf_inj hi).mp heq
  node i hi node hnode := by
    have hplace : order[order.idxOf i]? = some i := List.getElem?_idxOf hi
    have hpart := congrArg (·[order.idxOf i]?) h
    simp only [List.getElem?_map, hplace, hnode, Option.map_some] at hpart
    simpa using hpart

/-- Nodes stand where they stood, or further back, if others are put between them. -/
theorem relocates_insert (before extra after : Array Node) :
    let shift (i : Nat) := if i < before.size then i else i + extra.size
    Relocates shift (List.range (before ++ after).size) (before ++ after)
      (before.map (renumber shift) ++ extra ++ after.map (renumber shift)) := by
  intro shift
  refine ⟨fun i _ j _ h => ?_, fun i _ node hnode => ?_⟩
  · simp only [shift] at h
    split at h <;> split at h <;> omega
  · by_cases hi : i < before.size
    · have hshift : shift i = i := if_pos hi
      rw [Array.getElem?_append_left hi] at hnode
      rw [hshift, Array.append_assoc, Array.getElem?_append_left (by simpa using hi),
        Array.getElem?_map, hnode, Option.map_some]
    · have hshift : shift i = i + extra.size := if_neg hi
      rw [Array.getElem?_append_right (Nat.le_of_not_lt hi)] at hnode
      have hplace : i + extra.size - (before.map (renumber shift) ++ extra).size =
          i - before.size := by
        rw [Array.size_append, Array.size_map]
        omega
      rw [hshift, Array.getElem?_append_right (by simp; omega), hplace, Array.getElem?_map, hnode,
        Option.map_some]

/-- What a node stands for does not depend on where its references lead to. -/
theorem StandsFor.renumber_compare {c : Comparison} (h : node.StandsFor (.compare c)) :
    node.renumber f = ofComparison c := by
  cases h with
  | compare => rw [ofComparison, Comparator.symbol_ofSymbol, renumber, Option.map_none]

theorem StandsFor.renumber_join {c : Connective} {left right : Nat}
    (h : node.StandsFor (.join c left right)) :
    node.renumber f = ofConnective c (f left) (f right) := by
  cases h
  rfl

end Node

namespace Condition

variable {nodes nodes' : Array Node} {root index : Nat} {t : Condition} {met : List Nat}
  {f : Nat → Nat}

/-! ## What unfolds elsewhere -/

/-- The same unfolds from nodes that stand elsewhere, and what is met are their new positions. -/
theorem Unfolds.relocate (h : Unfolds nodes index t met)
    (hf : Node.Relocates f met nodes nodes') : Unfolds nodes' (f index) t (met.map f) := by
  induction h with
  | @compare index node c hnode hc =>
    refine .compare (hf.node index (by simp) node hnode) ?_
    cases hc with
    | compare hfield hsymbol hliteral => exact .compare hfield hsymbol hliteral
  | @join index node c left right l r metl metr hnode hc hl hr ihl ihr =>
    have hnode' := hf.node index (by simp) node hnode
    rw [hc.renumber_join] at hnode'
    rw [List.map_cons, List.map_append]
    -- where the whole is relocated, so is what is met on either side
    exact .join hnode' (.join c (f left) (f right)) (ihl (hf.mono fun i hi => by simp [hi]))
      (ihr (hf.mono fun i hi => by simp [hi]))

/-- From nodes that stand elsewhere the same is read. -/
theorem Unfolds.ofNodes_relocate (h : Unfolds nodes root t met) (hnodup : met.Nodup)
    (hdepth : t.depth ≤ maxDepth) (hf : Node.Relocates f met nodes nodes') :
    ofNodes nodes' (f root) = .ok t :=
  ofNodes_eq_ok_iff_unfolds.mpr
    ⟨met.map f, h.relocate hf, hnodup.map_on fun i hi j hj => hf.injective i hi j hj, hdepth⟩

/-! ## Paths to the parts of a condition -/

/-- The paths from a condition to its parts, to itself first, then to the parts on the left and then
to those on the right. -/
def paths : Condition → List (List Side)
  | compare _ => [[]]
  | join _ left right => [] :: (left.paths.map (.left :: ·) ++ right.paths.map (.right :: ·))

/-- The paths from a join lead to itself, and from its children to the parts. -/
theorem map_follow_paths_join {node : Node} {c c' : Connective} {left right : Nat}
    (hnode : nodes[index]? = some node) (hc : node.StandsFor (.join c left right))
    (l r : Condition) : (join c' l r).paths.map (Node.follow nodes index) =
      some index ::
        (l.paths.map (Node.follow nodes left) ++ r.paths.map (Node.follow nodes right)) := by
  have hfollow : ∀ side : Side, Node.follow nodes index ∘ (side :: ·) =
      Node.follow nodes (side.pick left right) :=
    fun side => funext fun path => hc.follow_join hnode side path
  rw [paths, List.map_cons, List.map_append, List.map_map, List.map_map, hfollow, hfollow]
  rfl

/-- What is met are the ends of the paths. -/
theorem Unfolds.map_follow_paths (h : Unfolds nodes index t met) :
    t.paths.map (Node.follow nodes index) = met.map some := by
  induction h with
  | compare => rfl
  | join hnode hc hl hr ihl ihr =>
    rw [map_follow_paths_join hnode hc, ihl, ihr, ← List.map_append, ← List.map_cons]

theorem Unfolds.mem_iff (h : Unfolds nodes root t met) :
    index ∈ met ↔ ∃ path, Node.follow nodes root path = some index := by
  constructor
  · intro hi
    have hsome : some index ∈ t.paths.map (Node.follow nodes root) := by
      rw [h.map_follow_paths]
      exact List.mem_map_of_mem hi
    obtain ⟨path, -, hpath⟩ := List.mem_map.mp hsome
    exact ⟨path, hpath⟩
  · rintro ⟨path, hpath⟩
    exact (h.mem_of_follow hpath).1

/-! ## Flattened conditions -/

theorem Unfolds.length_met (h : Unfolds nodes index t met) : met.length = t.size := by
  induction h with
  | compare => rfl
  | join _ _ _ _ ihl ihr =>
    rw [List.length_cons, List.length_append, ihl, ihr, size]
    omega

theorem Unfolds.getElem?_zero (h : Unfolds nodes index t met) : met[0]? = some index := by
  cases h <;> rfl

/-- The nodes of a condition that begin at `start` are those that it was read from, if the positions
met are numbered from `start` on. -/
theorem Unfolds.map_some_flattenFrom (h : Unfolds nodes index t met) {start : Nat}
    (hf : ∀ k i, met[k]? = some i → f i = start + k) :
    (t.flattenFrom start).map some = met.map fun i => nodes[i]?.map (Node.renumber f) := by
  induction h generalizing start with
  | @compare index node c hnode hc =>
    simp [flattenFrom, hnode, hc.renumber_compare]
  | @join index node c left right l r metl metr hnode hc hl hr ihl ihr =>
    -- what is met on the left is numbered after the root, what is met on the right after that
    have hfl : ∀ k i, metl[k]? = some i → f i = start + 1 + k := by
      intro k i hi
      have hlt := (List.getElem?_eq_some_iff.mp hi).1
      rw [hf (k + 1) i (by simpa [List.getElem?_append_left hlt] using hi)]
      omega
    have hfr : ∀ k i, metr[k]? = some i → f i = start + 1 + l.size + k := by
      intro k i hi
      have hplace : (metl ++ metr)[l.size + k]? = some i := by
        rw [← hl.length_met, List.getElem?_append_right (Nat.le_add_right ..),
          Nat.add_sub_cancel_left, hi]
      rw [hf (l.size + k + 1) i hplace]
      omega
    have hleft := hfl 0 left hl.getElem?_zero
    have hright := hfr 0 right hr.getElem?_zero
    rw [Nat.add_zero] at hleft hright
    rw [flattenFrom, List.map_cons, List.map_append, ihl hfl, ihr hfr, List.map_cons,
      List.map_append, hnode, Option.map_some, hc.renumber_join, hleft, hright]

/-- A condition is flattened to the nodes that it was read from, in the order in which they were
met. -/
theorem Unfolds.isSelection_flatten (h : Unfolds nodes root t met) (hnodup : met.Nodup) :
    Node.IsSelection nodes met t.flatten := by
  refine h.map_some_flattenFrom fun k i hi => ?_
  obtain ⟨hlt, rfl⟩ := List.getElem?_eq_some_iff.mp hi
  rw [hnodup.idxOf_getElem, Nat.zero_add]

/-- What is read from nodes is read from them in every other place : wherever a map that keeps them
apart puts them, in any order of their own, without those that no reference leads to, and with
others between them. It is flattened to the nodes that references lead to from the root, each of
them once, in the order of the paths that lead there, and but for the references as they were. -/
theorem ofNodes_relocated (h : ofNodes nodes root = .ok t) :
    (∀ f nodes', Node.Relocates f (List.range nodes.size) nodes nodes' →
      ofNodes nodes' (f root) = .ok t) ∧
    (∀ order part, (∀ path i, Node.follow nodes root path = some i → i ∈ order) →
      Node.IsSelection nodes order part → ofNodes part.toArray (order.idxOf root) = .ok t) ∧
    (∀ before extra after, before ++ after = nodes →
      let shift (i : Nat) := if i < before.size then i else i + extra.size
      ofNodes (before.map (.renumber shift) ++ extra ++ after.map (.renumber shift)) (shift root) =
        .ok t) ∧
    ∃ met, t.paths.map (Node.follow nodes root) = met.map some ∧ met.Nodup ∧
      (∀ i, i ∈ met ↔ ∃ path, Node.follow nodes root path = some i) ∧
      Node.IsSelection nodes met t.flatten := by
  obtain ⟨met, hunfolds, hnodup, hdepth⟩ := ofNodes_eq_ok_iff_unfolds.mp h
  have hrange : ∀ i ∈ met, i ∈ List.range nodes.size := by
    intro i hi
    obtain ⟨node, hnode⟩ := hunfolds.exists_node hi
    exact List.mem_range.mpr (Array.getElem?_eq_some_iff.mp hnode).1
  refine ⟨fun f nodes' hf => hunfolds.ofNodes_relocate hnodup hdepth (hf.mono hrange),
    fun order part horder hpart => ?_, fun before extra after hnodes => ?_,
    met, hunfolds.map_follow_paths, hnodup, fun i => hunfolds.mem_iff,
    hunfolds.isSelection_flatten hnodup⟩
  · refine hunfolds.ofNodes_relocate hnodup hdepth (hpart.relocates.mono fun i hi => ?_)
    obtain ⟨path, hpath⟩ := hunfolds.mem_iff.mp hi
    exact horder path i hpath
  · subst hnodes
    exact hunfolds.ofNodes_relocate hnodup hdepth
      ((Node.relocates_insert before extra after).mono hrange)

/-- The three nodes of a join stand the other way round, or with a node between them that is none.
-/
theorem ofNodes_relocated_mirrored :
    let young : Comparison := ⟨"age", .less, .number (.ofInt 30)⟩
    let sales : Comparison := ⟨"department", .equal, .text "Sales"⟩
    let t := join .and (compare young) (compare sales)
    let stray : Node := ⟨some "leaf", none, none, none, some 7, none⟩
    t.flatten = [.ofConnective .and 1 2, .ofComparison young, .ofComparison sales] ∧
    ofNodes t.flatten.toArray 0 = .ok t ∧
    ofNodes #[.ofComparison sales, .ofComparison young, .ofConnective .and 1 0] 2 = .ok t ∧
    ofNodes #[.ofConnective .and 2 3, stray, .ofComparison young, .ofComparison sales] 0 =
      .ok t := by
  intro young sales t stray
  have hyoung : young.IsStorable := ⟨by decide +kernel, by decide +kernel, by decide +kernel⟩
  have hsales : sales.IsStorable := ⟨by decide +kernel, by decide +kernel, by decide +kernel⟩
  have hstored : t.IsStorable := isStorable_join.mpr
    ⟨List.forall_mem_singleton.mpr hyoung, List.forall_mem_singleton.mpr hsales⟩
  have hread : ofNodes t.flatten.toArray 0 = .ok t :=
    ofNodes_flatten_iff.mpr ⟨hstored, by decide +kernel, by decide⟩
  have hmirrored : Node.Relocates (2 - ·) (List.range t.flatten.toArray.size) t.flatten.toArray
      #[.ofComparison sales, .ofComparison young, .ofConnective .and 1 0] := by
    refine ⟨by decide, fun i hi node hnode => ?_⟩
    have hlt : i < 3 := List.mem_range.mp hi
    obtain rfl | rfl | rfl : i = 0 ∨ i = 1 ∨ i = 2 := by omega
    all_goals
      obtain rfl := Option.some.inj hnode
      rfl
  obtain ⟨hplaces, -, hinsert, -⟩ := ofNodes_relocated hread
  have hstray := hinsert #[.ofConnective .and 1 2] #[stray]
    #[.ofComparison young, .ofComparison sales] rfl
  exact ⟨rfl, hread, hplaces _ _ hmirrored,
    by simpa [Node.renumber, Node.ofConnective, Node.ofComparison] using hstray⟩

end Condition

end Eligibility
