import Eligibility.Node.Unfold
import Eligibility.Proofs.Outcome
import Mathlib.Data.List.Nodup

/-!
# Which nodes store a condition

`Node.StandsFor` lists the two forms of a sound node, and `Node.shape` reads exactly these
(`Node.shape_eq_ok_iff`). `Condition.Unfolds` follows the references of sound nodes without
regard to how deep they lead or where they meet, and collects the positions on the way. Reading
a condition from nodes is this unfolding as long as no position is met twice and the condition
has at most `maxDepth` levels (`Condition.ofNodes_eq_ok_iff`).

The walk carries the set of positions that it has met. `Condition.Visit` is its invariant : what
the part below a position adds to the set is the list of the positions met there, all of them
new. An unfolding without repetition contains the end of every path of references, and no two
paths share their end, so that nothing dangling, shared, circular or too deep is read.
-/

namespace Eligibility

namespace Node

/-! ## Sound nodes -/

/-- The two forms of a sound node, with what they stand for. -/
inductive StandsFor : Node → Shape → Prop where
  /-- An operand compares, in terms that rules can express, and has no children. -/
  | compare {field symbol : String} {literal : Literal} (hfield : Token.isFieldName field = true)
      (hsymbol : Token.isComparatorSymbol symbol = true) (hliteral : literal.isExpressible = true) :
      StandsFor ⟨some operandKind, some symbol, some field, some literal, none, none⟩
        (.compare ⟨field, .ofSymbol symbol, literal⟩)
  /-- An operator joins two children and has no data. -/
  | join (c : Connective) (left right : Nat) :
      StandsFor ⟨some operatorKind, some c.keyword, none, none, some left, some right⟩
        (.join c left right)

variable {node : Node} {index : Nat} {s : Shape}

theorem StandsFor.of_operatorShape (hk : node.kind = some operatorKind)
    (h : node.operatorShape index = .ok s) : node.StandsFor s := by
  obtain ⟨kind, operator, field, literal, left, right⟩ := node
  obtain rfl : kind = some operatorKind := hk
  unfold operatorShape at h
  split at h
  · cases h
  · rename_i hdata
    obtain ⟨rfl, rfl⟩ : field = none ∧ literal = none := by simpa using hdata
    split at h
    · cases h
    · rename_i keyword hop
      obtain rfl : operator = some keyword := hop
      split at h
      · cases h
      · rename_i c l r hc hl hr
        obtain rfl : left = some l := hl
        obtain rfl : right = some r := hr
        rw [Connective.eq_keyword_of_ofKeyword? hc, ← Except.ok.inj h]
        exact .join c l r
      · cases h

theorem StandsFor.of_operandShape (hk : node.kind = some operandKind)
    (h : node.operandShape index = .ok s) : node.StandsFor s := by
  obtain ⟨kind, operator, field, literal, left, right⟩ := node
  obtain rfl : kind = some operandKind := hk
  unfold operandShape at h
  split at h
  · cases h
  · rename_i hchildren
    obtain ⟨rfl, rfl⟩ : left = none ∧ right = none := by simpa using hchildren
    split at h
    · rename_i f sym lit hf hsym hlit
      obtain rfl : field = some f := hf
      obtain rfl : operator = some sym := hsym
      obtain rfl : literal = some lit := hlit
      split at h
      · cases h
      · rename_i hfield
        split at h
        · cases h
        · rename_i hsymbol
          split at h
          · cases h
          · rename_i hliteral
            rw [← Except.ok.inj h]
            exact .compare (by simpa using hfield) (by simpa using hsymbol)
              (by simpa using hliteral)
    · cases h

/-- The shape of a node is what it stands for, and other nodes have none. -/
theorem shape_eq_ok_iff : node.shape index = .ok s ↔ node.StandsFor s := by
  constructor
  · intro h
    unfold shape at h
    split at h
    · cases h
    · rename_i kind hkind
      split at h
      · rename_i hop
        exact .of_operatorShape (hop ▸ hkind) h
      · split at h
        · rename_i hop
          exact .of_operandShape (hop ▸ hkind) h
        · cases h
  · intro h
    cases h with
    | compare hfield hsymbol hliteral =>
      have hne : operandKind ≠ operatorKind := by decide
      simp [shape, hne, operandShape, hfield, hsymbol, hliteral]
    | join c l r => simp [shape, operatorShape, Connective.ofKeyword?_keyword]

end Node

namespace Condition

/-! ## Unfolding -/

/-- `Unfolds nodes index t met` : the sound nodes from `index` on store `t`, and the references
lead through the positions `met`, a node before its left part and that before its right part. -/
inductive Unfolds (nodes : Array Node) : Nat → Condition → List Nat → Prop where
  | compare {index : Nat} {node : Node} {c : Comparison} (hnode : nodes[index]? = some node)
      (hc : node.StandsFor (.compare c)) : Unfolds nodes index (.compare c) [index]
  | join {index : Nat} {node : Node} {c : Connective} {left right : Nat} {l r : Condition}
      {metl metr : List Nat} (hnode : nodes[index]? = some node)
      (hc : node.StandsFor (.join c left right)) (hl : Unfolds nodes left l metl)
      (hr : Unfolds nodes right r metr) :
      Unfolds nodes index (.join c l r) (index :: (metl ++ metr))

variable {nodes : Array Node} {levels index : Nat} {seen seen' : Std.HashSet Nat} {t : Condition}
  {met : List Nat}

/-! ## One step of the walk -/

theorem unfold_compare {node : Node} {c : Comparison} (hnode : nodes[index]? = some node)
    (hc : node.StandsFor (.compare c)) (hseen : index ∉ seen) :
    unfold nodes (levels + 1) index seen = .ok (.compare c, seen.insert index) := by
  have hshape : node.shape index = .ok (.compare c) := Node.shape_eq_ok_iff.mpr hc
  have hnew : seen.contains index = false := by simpa using hseen
  rw [unfold.eq_3 _ _ _ _ _ hnode]
  simp only [hnew, hshape, Bool.false_eq_true, if_false]

theorem unfold_join {node : Node} {c : Connective} {left right : Nat} {l r : Condition}
    {mid : Std.HashSet Nat} (hnode : nodes[index]? = some node)
    (hc : node.StandsFor (.join c left right)) (hseen : index ∉ seen)
    (hl : unfold nodes levels left (seen.insert index) = .ok (l, mid))
    (hr : unfold nodes levels right mid = .ok (r, seen')) :
    unfold nodes (levels + 1) index seen = .ok (.join c l r, seen') := by
  have hshape : node.shape index = .ok (.join c left right) := Node.shape_eq_ok_iff.mpr hc
  have hnew : seen.contains index = false := by simpa using hseen
  rw [unfold.eq_3 _ _ _ _ _ hnode]
  simp only [hnew, hshape, Bool.false_eq_true, if_false]
  exact bind_eq_ok_iff.mpr ⟨_, hl, bind_eq_ok_iff.mpr ⟨_, hr, rfl⟩⟩

/-- Whatever a walk returns, it took one of these two steps. -/
theorem unfold_cases (h : unfold nodes levels index seen = .ok (t, seen')) :
    ∃ below node, levels = below + 1 ∧ nodes[index]? = some node ∧ index ∉ seen ∧
      ((∃ c, node.StandsFor (.compare c) ∧ t = .compare c ∧ seen' = seen.insert index) ∨
        ∃ c left right l r mid, node.StandsFor (.join c left right) ∧ t = .join c l r ∧
          unfold nodes below left (seen.insert index) = .ok (l, mid) ∧
          unfold nodes below right mid = .ok (r, seen')) := by
  rw [unfold.eq_def] at h
  dsimp only at h
  split at h
  · cases h
  · cases h
  · rename_i node below hnode
    split at h
    · cases h
    · rename_i hnew
      refine ⟨below, node, rfl, hnode, by simpa using hnew, ?_⟩
      split at h
      · cases h
      · rename_i c hshape
        cases h
        exact .inl ⟨c, Node.shape_eq_ok_iff.mp hshape, rfl, rfl⟩
      · rename_i c left right hshape
        obtain ⟨⟨l, mid⟩, hl, h⟩ := bind_eq_ok_iff.mp h
        obtain ⟨⟨r, last⟩, hr, h⟩ := bind_eq_ok_iff.mp h
        cases h
        exact .inr ⟨c, left, right, l, r, mid, Node.shape_eq_ok_iff.mp hshape, rfl, hl, hr⟩

/-! ## The whole walk -/

/-- The invariant of the walk : of the condition at `index`, of at most `levels` levels, each
position is met once, for the first time, and is in the set from then on. -/
structure Visit (nodes : Array Node) (levels index : Nat) (seen : Std.HashSet Nat) (t : Condition)
    (met : List Nat) (seen' : Std.HashSet Nat) : Prop where
  unfolds : Unfolds nodes index t met
  nodup : met.Nodup
  fresh : ∀ i ∈ met, i ∉ seen
  depth_le : t.depth ≤ levels
  mem_iff : ∀ i, i ∈ seen' ↔ i ∈ met ∨ i ∈ seen

theorem mem_insert_iff {i : Nat} : i ∈ seen.insert index ↔ i = index ∨ i ∈ seen := by
  rw [Std.HashSet.mem_insert, beq_iff_eq, eq_comm]

theorem Visit.compare {node : Node} {c : Comparison} (hnode : nodes[index]? = some node)
    (hc : node.StandsFor (.compare c)) (hseen : index ∉ seen) :
    Visit nodes (levels + 1) index seen (.compare c) [index] (seen.insert index) where
  unfolds := .compare hnode hc
  nodup := List.nodup_singleton index
  fresh i hi := List.mem_singleton.mp hi ▸ hseen
  depth_le := by
    rw [depth]
    omega
  mem_iff i := by rw [mem_insert_iff, List.mem_singleton]

/-- The walk through the right part starts from the set that the left part leaves, so no
position of the one is met in the other. -/
theorem Visit.join {node : Node} {c : Connective} {left right : Nat} {l r : Condition}
    {metl metr : List Nat} {mid : Std.HashSet Nat} (hnode : nodes[index]? = some node)
    (hc : node.StandsFor (.join c left right)) (hseen : index ∉ seen)
    (hl : Visit nodes levels left (seen.insert index) l metl mid)
    (hr : Visit nodes levels right mid r metr seen') :
    Visit nodes (levels + 1) index seen (.join c l r) (index :: (metl ++ metr)) seen' where
  unfolds := .join hnode hc hl.unfolds hr.unfolds
  nodup := by
    have hindex : index ∉ metl ++ metr := by
      intro h
      rcases List.mem_append.mp h with h | h
      · exact hl.fresh index h (mem_insert_iff.mpr (.inl rfl))
      · exact hr.fresh index h ((hl.mem_iff index).mpr (.inr (mem_insert_iff.mpr (.inl rfl))))
    have hdisjoint : List.Disjoint metl metr := by
      intro i hi hi'
      exact hr.fresh i hi' ((hl.mem_iff i).mpr (.inl hi))
    exact List.nodup_cons.mpr ⟨hindex, hl.nodup.append hr.nodup hdisjoint⟩
  fresh i hi hold := by
    have hmid : i ∈ seen.insert index := mem_insert_iff.mpr (.inr hold)
    rcases List.mem_cons.mp hi with rfl | hi
    · exact hseen hold
    · rcases List.mem_append.mp hi with hi | hi
      · exact hl.fresh i hi hmid
      · exact hr.fresh i hi ((hl.mem_iff i).mpr (.inr hmid))
  depth_le := by
    have := hl.depth_le
    have := hr.depth_le
    rw [depth]
    omega
  mem_iff i := by
    rw [hr.mem_iff, hl.mem_iff, mem_insert_iff, List.mem_cons, List.mem_append]
    tauto

/-- What the walk returns is an unfolding, and each position was met once. -/
theorem visit_of_unfold : ∀ {levels index : Nat} {seen seen' : Std.HashSet Nat} {t : Condition},
    unfold nodes levels index seen = .ok (t, seen') →
      ∃ met, Visit nodes levels index seen t met seen' := by
  intro levels
  induction levels with
  | zero =>
    intro index seen seen' t h
    obtain ⟨below, node, hlevels, -⟩ := unfold_cases h
    cases hlevels
  | succ levels ih =>
    intro index seen seen' t h
    obtain ⟨below, node, hlevels, hnode, hseen, ⟨c, hc, rfl, rfl⟩ |
      ⟨c, left, right, l, r, mid, hc, rfl, hl, hr⟩⟩ := unfold_cases h
    · exact ⟨_, .compare hnode hc hseen⟩
    · obtain rfl := Nat.succ.inj hlevels
      obtain ⟨metl, hl⟩ := ih hl
      obtain ⟨metr, hr⟩ := ih hr
      exact ⟨_, .join hnode hc hseen hl hr⟩

/-- An unfolding that meets each position once, for the first time, is what the walk returns. -/
theorem unfold_of_unfolds (h : Unfolds nodes index t met) :
    ∀ {levels : Nat} {seen : Std.HashSet Nat}, met.Nodup → (∀ i ∈ met, i ∉ seen) →
      t.depth ≤ levels →
      ∃ seen', unfold nodes levels index seen = .ok (t, seen') ∧
        ∀ i, i ∈ seen' ↔ i ∈ met ∨ i ∈ seen := by
  induction h with
  | @compare index node c hnode hc =>
    intro levels seen _ hfresh hdepth
    rw [depth] at hdepth
    obtain ⟨levels, rfl⟩ : ∃ below, levels = below + 1 := ⟨levels - 1, by omega⟩
    have hseen : index ∉ seen := hfresh index (by simp)
    refine ⟨seen.insert index, unfold_compare hnode hc hseen, fun i => ?_⟩
    rw [mem_insert_iff, List.mem_singleton]
  | @join index node c left right l r metl metr hnode hc hl hr ihl ihr =>
    intro levels seen hnodup hfresh hdepth
    rw [depth] at hdepth
    obtain ⟨levels, rfl⟩ : ∃ below, levels = below + 1 := ⟨levels - 1, by omega⟩
    obtain ⟨hindex, hnodup⟩ := List.nodup_cons.mp hnodup
    obtain ⟨hnodupl, hnodupr, hdisjoint⟩ := List.nodup_append'.mp hnodup
    have hseen : index ∉ seen := hfresh index (by simp)
    obtain ⟨mid, hwalkl, hmid⟩ : ∃ mid,
        unfold nodes levels left (seen.insert index) = .ok (l, mid) ∧
          ∀ i, i ∈ mid ↔ i ∈ metl ∨ i ∈ seen.insert index := by
      refine ihl hnodupl ?_ (by omega)
      intro i hi hold
      rcases mem_insert_iff.mp hold with rfl | hold
      · exact hindex (List.mem_append_left metr hi)
      · exact hfresh i (by simp [hi]) hold
    obtain ⟨seen', hwalkr, hseen'⟩ : ∃ seen',
        unfold nodes levels right mid = .ok (r, seen') ∧
          ∀ i, i ∈ seen' ↔ i ∈ metr ∨ i ∈ mid := by
      refine ihr hnodupr ?_ (by omega)
      intro i hi hold
      rcases (hmid i).mp hold with hl | hold
      · exact hdisjoint hl hi
      · rcases mem_insert_iff.mp hold with rfl | hold
        · exact hindex (List.mem_append_right metl hi)
        · exact hfresh i (by simp [hi]) hold
    refine ⟨seen', unfold_join hnode hc hseen hwalkl hwalkr, fun i => ?_⟩
    rw [hseen', hmid, mem_insert_iff, List.mem_cons, List.mem_append]
    tauto

theorem ofNodes_eq_ok_iff_unfolds {root : Nat} :
    ofNodes nodes root = .ok t ↔
      ∃ met, Unfolds nodes root t met ∧ met.Nodup ∧ t.depth ≤ maxDepth := by
  constructor
  · intro h
    cases hwalk : unfold nodes maxDepth root ∅ with
    | error fault => simp [ofNodes, hwalk, Except.map] at h
    | ok result =>
      obtain ⟨t', seen'⟩ := result
      obtain rfl : t' = t := by simpa [ofNodes, hwalk, Except.map] using h
      obtain ⟨met, hvisit⟩ := visit_of_unfold hwalk
      exact ⟨met, hvisit.unfolds, hvisit.nodup, hvisit.depth_le⟩
  · rintro ⟨met, hunfolds, hnodup, hdepth⟩
    obtain ⟨seen', hwalk, -⟩ :=
      unfold_of_unfolds hunfolds hnodup (fun i _ => Std.HashSet.not_mem_empty) hdepth
    simp [ofNodes, hwalk, Except.map]

end Condition

/-! ## Paths of references -/

/-- The two parts of a join. -/
inductive Side where
  | left
  | right
  deriving DecidableEq

/-- The one of two things that stands on a side. -/
def Side.pick {α : Type} : Side → (left right : α) → α
  | left, l, _ => l
  | right, _, r => r

namespace Node

/-- The reference of a node on one side. -/
def child (node : Node) (side : Side) : Option Nat :=
  side.pick node.left node.right

/-- The position that a path of references leads to, if each of them is there. -/
def follow (nodes : Array Node) : Nat → List Side → Option Nat
  | index, [] => some index
  | index, side :: path => do follow nodes (← (← nodes[index]?).child side) path

/-- A path leads to a position without a node. -/
def Dangling (nodes : Array Node) (root : Nat) : Prop :=
  ∃ path index, follow nodes root path = some index ∧ nodes[index]? = none

/-- Two paths lead to one position. -/
def Shared (nodes : Array Node) (root : Nat) : Prop :=
  ∃ path path' index, path ≠ path' ∧ follow nodes root path = some index ∧
    follow nodes root path' = some index

/-- A path leads to a position from which another leads back to it. -/
def Cyclic (nodes : Array Node) (root : Nat) : Prop :=
  ∃ path loop index, loop ≠ [] ∧ follow nodes root path = some index ∧
    follow nodes index loop = some index

/-- A path leads more than `maxDepth` levels down, the root being the first. -/
def OverDeep (nodes : Array Node) (root : Nat) : Prop :=
  ∃ path index, maxDepth < path.length + 1 ∧ follow nodes root path = some index

variable {nodes : Array Node} {index : Nat}

theorem follow_cons {node : Node} (hnode : nodes[index]? = some node) (side : Side)
    (path : List Side) :
    follow nodes index (side :: path) = (node.child side).bind (follow nodes · path) := by
  rw [follow, hnode]
  rfl

theorem follow_append (path path' : List Side) :
    follow nodes index (path ++ path') = (follow nodes index path).bind (follow nodes · path') := by
  induction path generalizing index with
  | nil => rfl
  | cons side path ih =>
    simp only [List.cons_append, follow, bind, Option.bind_assoc, ih]

theorem StandsFor.follow_compare {node : Node} {c : Comparison} (hnode : nodes[index]? = some node)
    (hc : node.StandsFor (.compare c)) (side : Side) (path : List Side) :
    follow nodes index (side :: path) = none := by
  rw [follow_cons hnode]
  cases hc
  cases side <;> rfl

theorem StandsFor.follow_join {node : Node} {c : Connective} {left right : Nat}
    (hnode : nodes[index]? = some node) (hc : node.StandsFor (.join c left right)) (side : Side)
    (path : List Side) :
    follow nodes index (side :: path) = follow nodes (side.pick left right) path := by
  rw [follow_cons hnode]
  cases hc
  cases side <;> rfl

/-- A cycle is one position at the ends of two paths. -/
theorem Cyclic.shared {root : Nat} (h : Cyclic nodes root) : Shared nodes root := by
  obtain ⟨path, loop, index, hloop, hpath, hback⟩ := h
  refine ⟨path, path ++ loop, index, ?_, hpath, ?_⟩
  · intro heq
    exact hloop (List.self_eq_append_right.mp heq)
  · rw [follow_append, hpath]
    exact hback

end Node

namespace Condition

variable {nodes : Array Node} {root index : Nat} {t : Condition} {met : List Nat}

theorem Unfolds.exists_node (h : Unfolds nodes root t met) (hi : index ∈ met) :
    ∃ node, nodes[index]? = some node := by
  induction h with
  | compare hnode hc => exact ⟨_, List.mem_singleton.mp hi ▸ hnode⟩
  | join hnode hc hl hr ihl ihr =>
    rcases List.mem_cons.mp hi with rfl | hi
    · exact ⟨_, hnode⟩
    · rcases List.mem_append.mp hi with hi | hi
      · exact ihl hi
      · exact ihr hi

/-- A path of references stays within an unfolding, and within its levels. -/
theorem Unfolds.mem_of_follow (h : Unfolds nodes root t met) {path : List Side}
    (hpath : Node.follow nodes root path = some index) :
    index ∈ met ∧ path.length + 1 ≤ t.depth := by
  induction h generalizing path with
  | @compare root node c hnode hc =>
    cases path with
    | nil => exact ⟨List.mem_singleton.mpr (Option.some.inj hpath).symm, Nat.le_refl 1⟩
    | cons side path =>
      rw [hc.follow_compare hnode] at hpath
      cases hpath
  | @join root node c left right l r metl metr hnode hc hl hr ihl ihr =>
    rw [depth]
    cases path with
    | nil =>
      obtain rfl := Option.some.inj hpath
      exact ⟨List.mem_cons_self, by simp⟩
    | cons side path =>
      rw [hc.follow_join hnode] at hpath
      rw [List.length_cons]
      cases side with
      | left =>
        obtain ⟨hmem, hlen⟩ := ihl hpath
        exact ⟨List.mem_cons_of_mem _ (List.mem_append_left _ hmem), by omega⟩
      | right =>
        obtain ⟨hmem, hlen⟩ := ihr hpath
        exact ⟨List.mem_cons_of_mem _ (List.mem_append_right _ hmem), by omega⟩

/-- Below a join no path leads back to it, and paths through different sides stay apart. So in an
unfolding without repetition a position is the end of one path. -/
theorem Unfolds.follow_injective (h : Unfolds nodes root t met) (hnodup : met.Nodup)
    {path path' : List Side} (hpath : Node.follow nodes root path = some index)
    (hpath' : Node.follow nodes root path' = some index) : path = path' := by
  induction h generalizing path path' with
  | @compare root node c hnode hc =>
    cases path with
    | cons side path =>
      rw [hc.follow_compare hnode] at hpath
      cases hpath
    | nil =>
      cases path' with
      | cons side path' =>
        rw [hc.follow_compare hnode] at hpath'
        cases hpath'
      | nil => rfl
  | @join root node c left right l r metl metr hnode hc hl hr ihl ihr =>
    obtain ⟨hroot, hnodup⟩ := List.nodup_cons.mp hnodup
    obtain ⟨hnodupl, hnodupr, hdisjoint⟩ := List.nodup_append'.mp hnodup
    have below : ∀ {side path}, Node.follow nodes root (side :: path) = some index →
        side = .left ∧ Node.follow nodes left path = some index ∧ index ∈ metl ∨
          side = .right ∧ Node.follow nodes right path = some index ∧ index ∈ metr := by
      intro side path hpath
      rw [hc.follow_join hnode] at hpath
      cases side with
      | left => exact .inl ⟨rfl, hpath, (hl.mem_of_follow hpath).1⟩
      | right => exact .inr ⟨rfl, hpath, (hr.mem_of_follow hpath).1⟩
    have apart : ∀ {side path}, Node.follow nodes root (side :: path) = some index →
        root ≠ index := by
      rintro side path hpath rfl
      rcases below hpath with ⟨-, -, hmem⟩ | ⟨-, -, hmem⟩
      · exact hroot (List.mem_append_left metr hmem)
      · exact hroot (List.mem_append_right metl hmem)
    cases path with
    | nil =>
      cases path' with
      | nil => rfl
      | cons side' path' => exact absurd (Option.some.inj hpath) (apart hpath')
    | cons side path =>
      cases path' with
      | nil => exact absurd (Option.some.inj hpath') (apart hpath)
      | cons side' path' =>
        rcases below hpath with ⟨rfl, hpath, hmem⟩ | ⟨rfl, hpath, hmem⟩
        · rcases below hpath' with ⟨rfl, hpath', hmem'⟩ | ⟨rfl, hpath', hmem'⟩
          · rw [ihl hnodupl hpath hpath']
          · exact absurd hmem' (hdisjoint hmem)
        · rcases below hpath' with ⟨rfl, hpath', hmem'⟩ | ⟨rfl, hpath', hmem'⟩
          · exact absurd hmem (hdisjoint hmem')
          · rw [ihr hnodupr hpath hpath']

/-- Nodes from which a condition is read are not faulty in any of these ways. -/
theorem sound_of_ofNodes (h : ofNodes nodes root = .ok t) :
    ¬ (Node.Dangling nodes root ∨ Node.Shared nodes root ∨ Node.Cyclic nodes root ∨
      Node.OverDeep nodes root) := by
  obtain ⟨met, hunfolds, hnodup, hdepth⟩ := ofNodes_eq_ok_iff_unfolds.mp h
  have unshared : ¬ Node.Shared nodes root := by
    rintro ⟨path, path', index, hne, hpath, hpath'⟩
    exact hne (hunfolds.follow_injective hnodup hpath hpath')
  rintro (⟨path, index, hpath, habsent⟩ | hshared | hcyclic | ⟨path, index, hlong, hpath⟩)
  · obtain ⟨node, hnode⟩ := hunfolds.exists_node (hunfolds.mem_of_follow hpath).1
    rw [hnode] at habsent
    cases habsent
  · exact unshared hshared
  · exact unshared hcyclic.shared
  · have := (hunfolds.mem_of_follow hpath).2
    omega

/-- A condition is read from nodes exactly if it is their unfolding from the root, no position is
met twice and there are at most `maxDepth` levels. From nodes that dangle, are shared, lead in a
circle or too deep, nothing is read. -/
theorem ofNodes_eq_ok_iff (nodes : Array Node) (root : Nat) :
    (∀ t, ofNodes nodes root = .ok t ↔
      ∃ met, Unfolds nodes root t met ∧ met.Nodup ∧ t.depth ≤ maxDepth) ∧
    (Node.Dangling nodes root ∨ Node.Shared nodes root ∨ Node.Cyclic nodes root ∨
        Node.OverDeep nodes root →
      ∃ fault, ofNodes nodes root = .error fault) := by
  refine ⟨fun t => ofNodes_eq_ok_iff_unfolds, fun hfaulty => ?_⟩
  cases h : ofNodes nodes root with
  | error fault => exact ⟨fault, rfl⟩
  | ok t => exact absurd hfaulty (sound_of_ofNodes h)

/-- The third node is a part of the first and of the second, so nothing is read. -/
theorem ofNodes_eq_ok_iff_diamond :
    let node := Node.ofComparison ⟨"a", .greater, .text "b"⟩
    let nodes := #[.ofConnective .and 1 2, .ofConnective .or 2 3, node, node]
    Node.Shared nodes 0 ∧ ∃ fault, ofNodes nodes 0 = .error fault := by
  intro node nodes
  have hshared : Node.Shared nodes 0 := ⟨[.right], [.left, .left], 2, by decide, rfl, rfl⟩
  exact ⟨hshared, (ofNodes_eq_ok_iff nodes 0).2 (.inr (.inl hshared))⟩

end Condition

end Eligibility
