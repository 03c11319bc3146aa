import Eligibility.Proofs.Flattening
import Eligibility.Proofs.NestedForm
import Eligibility.Wire.Node

/-!
# Nodes that read back from JSON

The object of a node has a member for each part that is present. A number that is not finite is
written as null, and null is read as an absent part. Positions are read below `Node.indexBound`
only, the number of 64-bit words : no position in a list that fits into memory is greater. All else
is read as it was if numbers are read exactly (`Node.ofJson?_toJson_eq_some_iff`). The objects stand
in one array and hold no others, so that no limit on nesting is met. Main statement :

* `Condition.ofFlatText_iff` : which lists of nodes read back from their text, and which conditions
  are read again from the text of their nodes.
-/

namespace Eligibility

instance : DecidablePred Literal.IsFinite
  | .number _ => decidable_of_iff _ Literal.isFinite_number_iff.symm
  | .text _ => isTrue nofun

/-! ## Parts that may be absent -/

namespace Json

theorem optional?_ofString (part : Option String) :
    optional? string? (part.map ofString) = some part := by
  cases part <;> rfl

theorem optional?_ofNat (bound : Nat) (part : Option Nat) :
    optional? (natural? bound) (part.map ofNat) =
      if ∀ n ∈ part, n < bound then some part else none := by
  cases part with
  | none => simp [optional?]
  | some n =>
    have hread : optional? (natural? bound) (some (ofNat n)) =
        (natural? bound (ofNat n)).map some := rfl
    rw [Option.map_some, hread, natural?_ofNat]
    by_cases hn : n < bound <;> simp [hn]

/-- A number that is not finite is read as absent. -/
theorem optional?_literal [NumberReader] (hexact : NumberReader.IsExact) (part : Option Literal) :
    optional? Literal.ofJson? (part.map Literal.toJson) = some (part.filter (·.IsFinite)) := by
  cases part with
  | none => rfl
  | some literal =>
    cases literal with
    | number x =>
      rcases ofNumber_cases x with ⟨numeral, heq, -, -, hfinite⟩ | ⟨heq, hfinite⟩
      · have hread := Literal.ofJson?_ofNumber x
        rw [number?_ofNumber hexact, if_pos hfinite, heq] at hread
        simp [Literal.toJson, heq, optional?, hread, Option.filter_some,
          Literal.isFinite_number_iff, hfinite]
      · simp [Literal.toJson, heq, optional?, Option.filter_some, Literal.isFinite_number_iff,
          hfinite]
    | text s => rfl

end Json

namespace Node

variable {node node' : Node} {nodes nodes' : List Node}

section Member

variable {α : Type} (name : String) (write : α → Json) (part : Option α)

theorem lookup_partMember (other : String) :
    (partMember name write part).lookup other = if other = name then part.map write else none := by
  cases part with
  | none => simp [partMember]
  | some value =>
    by_cases h : other = name <;> simp [partMember, List.lookup_cons, h, beq_eq_false_iff_ne.mpr]

theorem names_partMember : ((partMember name write part).map Prod.fst).Sublist [name] := by
  cases part <;> simp [partMember]

theorem isSpelled_partMember (h : ∀ value, (write value).IsSpelled) :
    ∀ member ∈ partMember name write part, member.2.IsSpelled := by
  cases part <;> simp [partMember, h]

end Member

/-- The fields of the object of a node, by their names. -/
theorem fields?_toJson (node : Node) :
    node.toJson.fields? [["type"], ["operator"], ["field"], ["value"], ["left"], ["right"]] =
      some [node.kind.map .ofString, node.operator.map .ofString, node.field.map .ofString,
        node.literal.map Literal.toJson, node.left.map .ofNat, node.right.map .ofNat] := by
  have hnames : ((partMember "type" Json.ofString node.kind ++
      partMember "operator" .ofString node.operator ++ partMember "field" .ofString node.field ++
      partMember "value" Literal.toJson node.literal ++ partMember "left" .ofNat node.left ++
      partMember "right" .ofNat node.right).map Prod.fst).Sublist
        ["type", "operator", "field", "value", "left", "right"] := by
    simp only [List.map_append]
    exact (((((names_partMember ..).append (names_partMember ..)).append
      (names_partMember ..)).append (names_partMember ..)).append (names_partMember ..)).append
      (names_partMember ..)
  have hfields := Json.fields?_ofMembers (hnames.nodup (by simp))
    ["type", "operator", "field", "value", "left", "right"]
  rw [toJson]
  simpa [List.lookup_append, lookup_partMember] using hfields

theorem isSpelled_toJson (node : Node) : node.toJson.IsSpelled := by
  simp only [toJson, Json.isSpelled_ofMembers, List.forall_mem_append]
  exact ⟨⟨⟨⟨⟨isSpelled_partMember _ _ _ Json.isSpelled_ofString,
    isSpelled_partMember _ _ _ Json.isSpelled_ofString⟩,
    isSpelled_partMember _ _ _ Json.isSpelled_ofString⟩,
    isSpelled_partMember _ _ _ Literal.isSpelled_toJson⟩,
    isSpelled_partMember _ _ _ Json.isSpelled_ofNat⟩,
    isSpelled_partMember _ _ _ Json.isSpelled_ofNat⟩

/-! ## Nodes -/

/-- The positions that the node refers to are in range. -/
def IsAddressed (node : Node) : Prop :=
  (∀ index ∈ node.left, index < indexBound) ∧ ∀ index ∈ node.right, index < indexBound

/-- The node without its literal, if that is a number that is not finite. -/
def spelled (node : Node) : Node :=
  { node with literal := node.literal.filter (·.IsFinite) }

theorem spelled_eq_self_iff : node.spelled = node ↔ ∀ literal ∈ node.literal, literal.IsFinite := by
  obtain ⟨kind, operator, field, literal, left, right⟩ := node
  cases literal <;> simp [spelled, Option.filter_some]

/-- A node is read from its own object if its positions are in range, as what is spelled of it. -/
theorem ofJson?_toJson_eq_some_iff [Json.NumberReader] (hexact : Json.NumberReader.IsExact) :
    ofJson? node.toJson = some node' ↔ node.IsAddressed ∧ node' = node.spelled := by
  rw [ofJson?, fields?_toJson, IsAddressed]
  simp only [Json.optional?_ofString, Json.optional?_ofNat, Json.optional?_literal hexact,
    Option.bind_eq_bind, Option.bind_some, Option.pure_def, Option.bind_eq_some_iff,
    Option.ite_none_right_eq_some, Option.some.injEq]
  constructor
  · rintro ⟨_, ⟨hleft, rfl⟩, _, ⟨hright, rfl⟩, rfl⟩
    exact ⟨⟨hleft, hright⟩, rfl⟩
  · rintro ⟨⟨hleft, hright⟩, rfl⟩
    exact ⟨node.left, ⟨hleft, rfl⟩, node.right, ⟨hright, rfl⟩, rfl⟩

section List

variable [Json.NumberReader]

/-- Reads a list of nodes from the text of its array. -/
def listOfText? (text : String) : Option (List Node) :=
  (Json.parse? text).bind listOfJson?

theorem listOfJson?_listToJson_eq_some_iff (hexact : Json.NumberReader.IsExact) :
    listOfJson? (listToJson nodes) = some nodes' ↔
      (∀ node ∈ nodes, node.IsAddressed) ∧ nodes' = nodes.map spelled := by
  simp only [listOfJson?, listToJson, Json.items?]
  induction nodes generalizing nodes' with
  | nil => simp [eq_comm]
  | cons node nodes ih =>
    simp only [List.map_cons, List.mapM_cons, Option.bind_eq_bind, Option.bind_eq_some_iff, ih,
      ofJson?_toJson_eq_some_iff hexact, List.forall_mem_cons]
    constructor
    · rintro ⟨_, ⟨hnode, rfl⟩, _, ⟨hnodes, rfl⟩, h⟩
      exact ⟨⟨hnode, hnodes⟩, (Option.some.inj h).symm⟩
    · rintro ⟨⟨hnode, hnodes⟩, rfl⟩
      exact ⟨_, ⟨hnode, rfl⟩, _, ⟨hnodes, rfl⟩, rfl⟩

theorem listOfText?_toText_eq_some_iff (hexact : Json.NumberReader.IsExact) :
    listOfText? (listToJson nodes).toText = some nodes' ↔
      (∀ node ∈ nodes, node.IsAddressed) ∧ nodes' = nodes.map spelled := by
  have hspelled : (listToJson nodes).IsSpelled :=
    Json.isSpelled_array.mpr (List.forall_mem_map.mpr fun node _ => node.isSpelled_toJson)
  rw [listOfText?, Json.parse?_toText hspelled, Option.bind_some,
    listOfJson?_listToJson_eq_some_iff hexact]

end List

end Node

/-! ## Nodes of conditions -/

namespace Condition

/-- The last node of a join is referred to, and no position is greater. A single node refers to
nothing, and so may stand anywhere. -/
theorem isAddressed_flattenFrom_iff {t : Condition} {start : Nat} :
    (∀ node ∈ t.flattenFrom start, node.IsAddressed) ↔
      t.size = 1 ∨ start + t.size ≤ Node.indexBound := by
  induction t generalizing start with
  | compare c => simp [flattenFrom, Node.ofComparison, Node.IsAddressed, size]
  | join connective left right ihl ihr =>
    have hl := left.size_pos
    have hr := right.size_pos
    rw [flattenFrom, List.forall_mem_cons, List.forall_mem_append, ihl, ihr]
    simp only [Node.IsAddressed, Node.ofConnective, Option.mem_some_iff, forall_eq', size]
    omega

theorem IsWritable.isFinite {t : Condition} (h : t.IsWritable) {c : Comparison}
    (hc : c ∈ t.comparisons) : c.literal.IsFinite := by
  intro x hx
  have hexpressible := (h c hc).literal
  rwa [hx] at hexpressible

theorem map_spelled_flattenFrom {t : Condition} (h : t.IsWritable) (start : Nat) :
    (t.flattenFrom start).map Node.spelled = t.flattenFrom start := by
  induction t generalizing start with
  | compare c =>
    have hfinite := h.isFinite (List.mem_singleton_self c)
    rw [flattenFrom, List.map_singleton, Node.spelled_eq_self_iff.mpr]
    simpa [Node.ofComparison] using hfinite
  | join connective left right ihl ihr =>
    rw [flattenFrom, List.map_cons, List.map_append, ihl h.left, ihr h.right]
    rfl

/-- If numbers are read exactly, a list of nodes is read back from its text exactly if its numbers
are finite and its positions in range, however many nodes there are and whatever parts they have. A
condition is then read again from the text of its nodes exactly if its levels are within the limit,
all of its comparisons can be written, and its nodes are not more than there are positions, as holds
of every condition in memory. It tests every record as before. -/
theorem ofFlatText_iff [Json.NumberReader] (hexact : Json.NumberReader.IsExact) :
    (∀ nodes, Node.listOfText? (Node.listToJson nodes).toText = some nodes ↔
      ∀ node ∈ nodes, node.IsAddressed ∧ ∀ literal ∈ node.literal, literal.IsFinite) ∧
    (∀ t : Condition,
      (∃ nodes, Node.listOfText? (Node.listToJson t.flatten).toText = some nodes ∧
        ofNodes nodes.toArray 0 = .ok t ∧
        ∀ record, evalNodes nodes.toArray 0 record = t.eval record) ↔
      t.depth ≤ maxDepth ∧ t.IsWritable ∧ t.size ≤ Node.indexBound) := by
  refine ⟨fun nodes => ?_, fun t => ?_⟩
  · have hmap : nodes = nodes.map Node.spelled ↔
        ∀ node ∈ nodes, ∀ literal ∈ node.literal, literal.IsFinite := by
      have hinj := List.map_inj_left (l := nodes) (f := Node.spelled) (g := id)
      rw [List.map_id, eq_comm] at hinj
      simpa only [← Node.spelled_eq_self_iff, id_eq] using hinj
    rw [Node.listOfText?_toText_eq_some_iff hexact, hmap, ← forall₂_and]
  · have haddressed : (∀ node ∈ t.flatten, node.IsAddressed) ↔ t.size ≤ Node.indexBound := by
      have hone : 1 ≤ Node.indexBound := by decide
      rw [flatten, isAddressed_flattenFrom_iff]
      omega
    simp only [Node.listOfText?_toText_eq_some_iff hexact, haddressed]
    constructor
    · rintro ⟨nodes, ⟨hsize, -⟩, hread, -⟩
      obtain ⟨hdepth, hwritable⟩ := exists_ofNodes_iff.mp ⟨_, _, hread⟩
      exact ⟨hdepth, hwritable, hsize⟩
    · rintro ⟨hdepth, hwritable, hsize⟩
      have hread := ofNodes_flatten_of_isWritable hdepth hwritable
      have hspelled := (map_spelled_flattenFrom hwritable 0).symm
      refine ⟨t.flatten, ⟨hsize, hspelled⟩, hread, fun record => ?_⟩
      rw [evalNodes, hread]

/-- Nodes with parts that do not belong together, and a condition with a number, the same as a text
and a quoted text. -/
theorem ofFlatText_iff_mixed :
    let half : Node := ⟨none, some "AND", none, some (.number (.ofBits 0x3fe0000000000000)), none,
      some 7⟩
    let text : Node := ⟨some "operand", none, some "a \"b\"", some (.text "0.5"), some 0, none⟩
    let number := compare ⟨"a", .less, .number (.ofBits 0x3fe0000000000000)⟩
    let t := join .and number (compare ⟨"b", .notEqual, .text "x y"⟩)
    Node.listOfText? (Node.listToJson [half, text]).toText = some [half, text] ∧
      ∃ nodes, Node.listOfText? (Node.listToJson t.flatten).toText = some nodes ∧
        ofNodes nodes.toArray 0 = .ok t ∧
        ∀ record, evalNodes nodes.toArray 0 record = t.eval record := by
  intro half text number t
  obtain ⟨hnodes, hconditions⟩ := ofFlatText_iff Json.NumberReader.isExact_nearest
  have hwritable : t.IsWritable := by
    intro c hc
    have hc : c = ⟨"a", .less, .number (.ofBits 0x3fe0000000000000)⟩ ∨
      c = ⟨"b", .notEqual, .text "x y"⟩ := by simpa [t, number, comparisons] using hc
    rcases hc with rfl | rfl <;>
      exact ⟨by decide +kernel, by decide +kernel, by decide +kernel, by decide +kernel⟩
  refine ⟨(hnodes _).mpr fun node hnode => ?_,
    (hconditions t).mpr ⟨by decide, hwritable, by decide⟩⟩
  have hnode : node = half ∨ node = text := by simpa using hnode
  rcases hnode with rfl | rfl <;>
    exact ⟨⟨by decide, by decide⟩, by decide +kernel⟩

end Condition

end Eligibility
