import Eligibility.Proofs.Relocation

/-!
# The order of flattened nodes

Flattening can be done by appending one node after the other (`Condition.pushTo`) : the node of a
join before its parts, with its references filled in when these have been appended. Nodes that stood
in the list before are left alone, and what is appended are the nodes of `Condition.flattenFrom`
(`Condition.pushTo_eq`).

Paths lead from the root of a condition to its parts (`Condition.part?`). The part at the end of a
path stands at the position to which the references lead on the same path, and fills the positions
from there on (`Condition.exists_occupies_of_part?`). So each position is that of one part, and all
that can be said of a node can be read off its part (`Condition.exists_part_of_lt`).

Main statement :

* `Condition.flatten_isDense` : where the parts of a condition stand, and which positions its nodes
  refer to.
-/

namespace Eligibility

namespace Node

/-- The positions that a node refers to. -/
def references (node : Node) : List Nat :=
  node.left.toList ++ node.right.toList

theorem references_ofConnective (c : Connective) (left right : Nat) :
    (ofConnective c left right).references = [left, right] :=
  rfl

/-- The node of a join before its parts stand anywhere. -/
def placeholder (c : Connective) : Node :=
  ⟨some operatorKind, some c.keyword, none, none, none, none⟩

/-- The node with references to two parts. -/
def refer (left right : Nat) (node : Node) : Node :=
  { node with left := some left, right := some right }

theorem refer_placeholder (c : Connective) (left right : Nat) :
    (placeholder c).refer left right = ofConnective c left right :=
  rfl

end Node

namespace Condition

variable {nodes : Array Node} {start index : Nat} {t u : Condition} {path : List Side}

/-! ## One node after the other -/

/-- Appends the nodes of a condition to others, and tells where its root stands. The node of a join
is appended before its parts, and refers to them when they have been appended too. -/
def pushTo (nodes : Array Node) : Condition → Array Node × Nat
  | compare c => (nodes.push (.ofComparison c), nodes.size)
  | join c left right =>
    let (nodes', l) := left.pushTo (nodes.push (.placeholder c))
    let (nodes'', r) := right.pushTo nodes'
    (nodes''.modify nodes.size (.refer l r), nodes.size)

theorem modify_size_push_append {α : Type} (before after : Array α) (a : α) (f : α → α) :
    (before.push a ++ after).modify before.size f = before.push (f a) ++ after := by
  refine Array.ext_getElem? fun i => ?_
  rw [Array.getElem?_modify]
  grind

/-- What is appended are the nodes of the condition as they stand from there on, and nothing else is
changed. -/
theorem pushTo_eq (t : Condition) (nodes : Array Node) :
    t.pushTo nodes = (nodes ++ (t.flattenFrom nodes.size).toArray, nodes.size) := by
  induction t generalizing nodes with
  | compare c => simp [pushTo, flattenFrom]
  | join c left right ihl ihr =>
    have hr : (nodes.push (Node.placeholder c) ++
        (left.flattenFrom (nodes.size + 1)).toArray).size = nodes.size + 1 + left.size := by
      simp only [Array.size_append, Array.size_push, List.size_toArray, length_flattenFrom]
    simp only [pushTo, ihl, ihr, Array.size_push, hr, Array.append_assoc, modify_size_push_append,
      Node.refer_placeholder, flattenFrom]
    simp

/-! ## Parts -/

/-- The part of a condition at the end of a path. -/
def part? : Condition → List Side → Option Condition
  | t, [] => some t
  | compare _, _ :: _ => none
  | join _ left right, side :: path => (side.pick left right).part? path

theorem mem_paths_iff : path ∈ t.paths ↔ ∃ u, t.part? path = some u := by
  induction t generalizing path with
  | compare c => cases path <;> simp [paths, part?]
  | join c left right ihl ihr =>
    cases path with
    | nil => simp [paths, part?]
    | cons side path => cases side <;> simp [paths, part?, Side.pick, ihl, ihr]

/-- A part has its own stretch within that of the condition, and its path leads to the beginning of
it. -/
theorem exists_occupies_of_part? (h : Node.Occupies nodes start (t.flattenFrom start))
    (hu : t.part? path = some u) :
    ∃ k, Node.follow nodes start path = some k ∧ Node.Occupies nodes k (u.flattenFrom k) ∧
      start ≤ k ∧ k + u.size ≤ start + t.size := by
  induction path generalizing t start with
  | nil =>
    obtain rfl := Option.some.inj hu
    exact ⟨start, rfl, h, Nat.le_refl _, Nat.le_refl _⟩
  | cons side path ih =>
    cases t with
    | compare c => cases hu
    | join c left right =>
      obtain ⟨hnode, hl, hr⟩ := Node.occupies_join.mp h
      rw [(Node.ofConnective_standsFor_iff.mpr rfl).follow_join hnode]
      cases side with
      | left =>
        obtain ⟨k, hk, hoccupies, hle, hend⟩ := ih hl hu
        exact ⟨k, hk, hoccupies, by omega, by rw [size]; omega⟩
      | right =>
        obtain ⟨k, hk, hoccupies, hle, hend⟩ := ih hr hu
        exact ⟨k, hk, hoccupies, by omega, by rw [size]; omega⟩

/-- The paths to the parts lead through the stretch of the condition, from its beginning to its
end. -/
theorem map_follow_paths (h : Node.Occupies nodes start (t.flattenFrom start)) :
    t.paths.map (Node.follow nodes start) = (List.range' start t.size).map some := by
  induction t generalizing start with
  | compare c => rfl
  | join c left right ihl ihr =>
    obtain ⟨hnode, hl, hr⟩ := Node.occupies_join.mp h
    rw [map_follow_paths_join hnode (.join c _ _), ihl hl, ihr hr, range'_size_join, List.map_cons,
      List.map_append]

/-- Every position is that of a part. -/
theorem exists_part_of_lt (h : Node.Occupies nodes start (t.flattenFrom start))
    (hstart : start ≤ index) (hend : index < start + t.size) :
    ∃ path u, t.part? path = some u ∧ Node.follow nodes start path = some index ∧
      Node.Occupies nodes index (u.flattenFrom index) := by
  have hmem : some index ∈ t.paths.map (Node.follow nodes start) := by
    rw [map_follow_paths h]
    exact List.mem_map_of_mem (List.mem_range'_1.mpr ⟨hstart, hend⟩)
  obtain ⟨path, hpath, hfollow⟩ := List.mem_map.mp hmem
  obtain ⟨u, hu⟩ := mem_paths_iff.mp hpath
  obtain ⟨k, hk, hoccupies, -, -⟩ := exists_occupies_of_part? h hu
  obtain rfl := Option.some.inj (hk.symm.trans hfollow)
  exact ⟨path, u, hu, hfollow, hoccupies⟩

/-! ## What nodes refer to -/

/-- The root of a condition and what its nodes refer to are its positions, each of them once. -/
theorem cons_references_perm (t : Condition) (start : Nat) :
    (start :: (t.flattenFrom start).flatMap Node.references).Perm (List.range' start t.size) := by
  induction t generalizing start with
  | compare c => exact .refl _
  | join c left right ihl ihr =>
    rw [range'_size_join, flattenFrom, List.flatMap_cons, List.flatMap_append,
      Node.references_ofConnective]
    have hparts := (ihl (start + 1)).append (ihr (start + 1 + left.size))
    generalize (left.flattenFrom (start + 1)).flatMap Node.references = inLeft at hparts ⊢
    generalize (right.flattenFrom (start + 1 + left.size)).flatMap Node.references = inRight
      at hparts ⊢
    -- the root refers to the beginning of each part, which refers to the rest of its positions
    have hmiddle : ((start + 1 + left.size) :: (inLeft ++ inRight)).Perm
        (inLeft ++ (start + 1 + left.size) :: inRight) := List.perm_middle.symm
    exact .cons start ((hmiddle.cons (start + 1)).trans hparts)

/-- Each position but the first is the end of one reference, and nothing else is. -/
theorem count_references (t : Condition) (j : Nat) :
    (t.flatten.flatMap Node.references).count j = if 0 < j ∧ j < t.size then 1 else 0 := by
  have hcount := (t.cons_references_perm 0).count_eq j
  have hnodup : (List.range' 0 t.size).Nodup := List.nodup_range'
  have hpos := t.size_pos
  simp only [List.count_cons, hnodup.count, List.mem_range'_1, beq_iff_eq] at hcount
  rw [flatten]
  split_ifs at hcount ⊢ <;> omega

/-- A node refers to positions behind its own. -/
theorem lt_of_mem_references {node : Node} (hnode : t.flatten.toArray[index]? = some node) {j : Nat}
    (hj : j ∈ node.references) : index < j := by
  have hlt : index < 0 + t.size := by
    rw [Nat.zero_add, ← t.length_flattenFrom 0]
    exact (Array.getElem?_eq_some_iff.mp hnode).1
  obtain ⟨-, u, -, -, hoccupies⟩ :=
    exists_part_of_lt (Node.occupies_toArray t.flatten) (Nat.zero_le index) hlt
  cases u with
  | compare c =>
    obtain rfl := Option.some.inj (hnode.symm.trans (Node.occupies_cons.mp hoccupies).1)
    cases hj
  | join c left right =>
    obtain rfl := Option.some.inj (hnode.symm.trans (Node.occupies_join.mp hoccupies).1)
    rw [Node.references_ofConnective, List.mem_pair] at hj
    omega

/-! ## The whole list -/

/-- A flattened condition has no gaps : a part fills as many positions as it has comparisons and
joins, its root before its left part and that before its right part, and the root of a join refers
to where the two begin. Every position but the first is referred to once, from before it, and the
first one never is. The same list comes about by appending nodes, whereby those before them stay as
they are. -/
theorem flatten_isDense (t : Condition) :
    let nodes := t.flatten.toArray
    nodes.size = t.size ∧
    (∀ path u, t.part? path = some u → ∃ k, Node.follow nodes 0 path = some k ∧
      k + u.size ≤ t.size ∧
      u.paths.map (Node.follow nodes k) = (List.range' k u.size).map some ∧
      (∀ c, u = compare c → nodes[k]? = some (.ofComparison c)) ∧
      ∀ c left right, u = join c left right →
        nodes[k]? = some (.ofConnective c (k + 1) (k + 1 + left.size))) ∧
    (∀ j, (t.flatten.flatMap Node.references).count j = if 0 < j ∧ j < t.size then 1 else 0) ∧
    (∀ i (node : Node), nodes[i]? = some node → ∀ j ∈ node.references, i < j) ∧
    t.pushTo #[] = (nodes, 0) ∧
    ∀ before, t.pushTo before = (before ++ (t.flattenFrom before.size).toArray, before.size) ∧
      ∀ i < before.size, (t.pushTo before).1[i]? = before[i]? := by
  intro nodes
  refine ⟨t.length_flattenFrom 0, fun path u hu => ?_, t.count_references,
    fun i node hnode j hj => lt_of_mem_references hnode hj, ?_,
    fun before => ⟨t.pushTo_eq before, fun i hi => ?_⟩⟩
  · obtain ⟨k, hk, hoccupies, -, hend⟩ :=
      exists_occupies_of_part? (Node.occupies_toArray t.flatten) hu
    refine ⟨k, hk, by omega, map_follow_paths hoccupies, ?_, ?_⟩
    · rintro c rfl
      exact (Node.occupies_cons.mp hoccupies).1
    · rintro c left right rfl
      exact (Node.occupies_join.mp hoccupies).1
  · rw [pushTo_eq, Array.empty_append]
    rfl
  · rw [pushTo_eq, Array.getElem?_append_left hi]

/-- The left part of this condition fills the positions from 1 to 3, and the right part stands after
it. -/
theorem flatten_isDense_nested :
    let test (field : String) : Condition := compare ⟨field, .equal, .text "x"⟩
    let t := join .or (join .and (test "a") (test "b")) (test "c")
    let nodes := t.flatten.toArray
    t.part? [.left] = some (join .and (test "a") (test "b")) ∧
    nodes[1]? = some (.ofConnective .and 2 3) ∧
    (join .and (test "a") (test "b")).paths.map (Node.follow nodes 1) = [some 1, some 2, some 3] ∧
    (t.flatten.flatMap Node.references).count 4 = 1 ∧
    (t.pushTo #[.placeholder .and]).1[0]? = some (.placeholder .and) := by
  intro test t nodes
  obtain ⟨-, hpart, hcount, -, -, hpush⟩ := flatten_isDense t
  obtain ⟨k, hk, -, hpaths, -, hjoin⟩ := hpart [.left] (join .and (test "a") (test "b")) rfl
  obtain rfl : 1 = k := Option.some.inj hk
  exact ⟨rfl, hjoin .and (test "a") (test "b") rfl, hpaths, hcount 4,
    (hpush #[.placeholder .and]).2 0 Nat.one_pos⟩

end Condition

end Eligibility
