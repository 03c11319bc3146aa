import Eligibility.Node.Flatten
import Eligibility.Proofs.ReadBack
import Eligibility.Proofs.Unfolding

/-!
# Conditions that are stored and read again

In the nodes of a flattened condition each part has a stretch of its own, as long as the part has
nodes (`Node.Occupies`, `Node.occupies_join`). Unfolding a part from the start of its stretch
meets the positions of the stretch in ascending order, and gives the part as its canonical text
would be read (`Condition.unfolds_iff_of_occupies`). This succeeds if the comparisons can be
stored (`Comparison.IsStorable`), and changes nothing if they can be written.

So a condition is read again from its own nodes exactly if it reads back from its text
(`Condition.ofNodes_flatten_eq_ok_iff`). Of the conditions that are read from nodes, in whatever
order these stand, all do (`Condition.ofNodes_resaved`).
-/

namespace Eligibility

/-! ## Stretches of nodes -/

namespace Node

/-- The nodes of `part` stand in the list next to each other, from `start` on. -/
def Occupies (nodes : Array Node) (start : Nat) (part : List Node) : Prop :=
  ∀ i node, part[i]? = some node → nodes[start + i]? = some node

variable {nodes : Array Node} {start : Nat} {node : Node} {part part' : List Node}

theorem occupies_toArray (part : List Node) : Occupies part.toArray 0 part := by
  intro i node h
  simpa using h

theorem occupies_cons : Occupies nodes start (node :: part) ↔
    nodes[start]? = some node ∧ Occupies nodes (start + 1) part := by
  have shift : ∀ i, start + (i + 1) = start + 1 + i := by omega
  constructor
  · intro h
    refine ⟨h 0 node rfl, fun i found hi => ?_⟩
    rw [← shift]
    exact h (i + 1) found hi
  · rintro ⟨hnode, hpart⟩ i found hi
    cases i with
    | zero => exact hnode.trans hi
    | succ i =>
      rw [shift]
      exact hpart i found hi

theorem occupies_append : Occupies nodes start (part ++ part') ↔
    Occupies nodes start part ∧ Occupies nodes (start + part.length) part' := by
  induction part generalizing start with
  | nil => simp [Occupies]
  | cons node part ih =>
    rw [List.cons_append, occupies_cons, ih, occupies_cons, List.length_cons, and_assoc,
      Nat.add_right_comm, Nat.add_assoc]

/-- The stretch of a join is its own node, the stretch of the left part and that of the right
part. -/
theorem occupies_join {c : Connective} {left right : Condition} :
    Occupies nodes start ((Condition.join c left right).flattenFrom start) ↔
      nodes[start]? = some (ofConnective c (start + 1) (start + 1 + left.size)) ∧
        Occupies nodes (start + 1) (left.flattenFrom (start + 1)) ∧
        Occupies nodes (start + 1 + left.size) (right.flattenFrom (start + 1 + left.size)) := by
  rw [Condition.flattenFrom, occupies_cons, occupies_append, Condition.length_flattenFrom]

end Node

/-! ## Comparisons that can be stored -/

/-- The node of the comparison is sound. -/
structure Comparison.IsStorable (c : Comparison) : Prop where
  field : Token.isFieldName c.field = true
  comparator : Token.isComparatorSymbol c.comparator.symbol = true
  literal : c.literal.isExpressible = true

/-- Every comparison can be stored. -/
def Condition.IsStorable (condition : Condition) : Prop :=
  ∀ c ∈ condition.comparisons, c.IsStorable

namespace Node

variable {s : Shape}

/-- A node stands for one thing at most. -/
theorem StandsFor.unique {node : Node} {s s' : Shape} (h : node.StandsFor s)
    (h' : node.StandsFor s') : s = s' := by
  have hs : node.shape 0 = .ok s := shape_eq_ok_iff.mpr h
  have hs' : node.shape 0 = .ok s' := shape_eq_ok_iff.mpr h'
  exact Except.ok.inj (hs.symm.trans hs')

/-- The node of a comparison keeps no more of the comparator than its symbol. -/
theorem ofComparison_standsFor_iff {c : Comparison} : (ofComparison c).StandsFor s ↔
    c.IsStorable ∧ s = .compare ⟨c.field, .ofSymbol c.comparator.symbol, c.literal⟩ := by
  constructor
  · intro h
    generalize hnode : ofComparison c = node at h
    cases h with
    | compare hfield hsymbol hliteral =>
      cases hnode
      exact ⟨⟨hfield, hsymbol, hliteral⟩, rfl⟩
    | join => simp [ofComparison, operandKind, operatorKind] at hnode
  · rintro ⟨hc, rfl⟩
    exact .compare hc.field hc.comparator hc.literal

theorem ofConnective_standsFor_iff {c : Connective} {left right : Nat} :
    (ofConnective c left right).StandsFor s ↔ s = .join c left right := by
  have hjoin : (ofConnective c left right).StandsFor (.join c left right) := .join c left right
  constructor
  · intro h
    exact h.unique hjoin
  · rintro rfl
    exact hjoin

end Node

/-! ## Unfolding a stretch -/

namespace Condition

theorem isStorable_join {c : Connective} {left right : Condition} :
    (join c left right).IsStorable ↔ left.IsStorable ∧ right.IsStorable :=
  List.forall_mem_append

theorem reread_compare_of_isStorable {c : Comparison} (h : c.IsStorable) :
    (compare c).reread = compare ⟨c.field, .ofSymbol c.comparator.symbol, c.literal⟩ := by
  rw [reread, Literal.reread_of_isExpressible h.literal]

variable {nodes : Array Node} {start : Nat} {u : Condition} {met : List Nat}

/-- From the node of a comparison nothing but this comparison unfolds. -/
theorem unfolds_compare_iff {c : Comparison} (hnode : nodes[start]? = some (.ofComparison c)) :
    Unfolds nodes start u met ↔ c.IsStorable ∧ u = (compare c).reread ∧ met = [start] := by
  constructor
  · intro h
    cases h with
    | compare hfound hc =>
      obtain rfl := Option.some.inj (hnode.symm.trans hfound)
      obtain ⟨hstorable, hshape⟩ := Node.ofComparison_standsFor_iff.mp hc
      cases hshape
      exact ⟨hstorable, (reread_compare_of_isStorable hstorable).symm, rfl⟩
    | join hfound hc =>
      obtain rfl := Option.some.inj (hnode.symm.trans hfound)
      cases (Node.ofComparison_standsFor_iff.mp hc).2
  · rintro ⟨hc, rfl, rfl⟩
    rw [reread_compare_of_isStorable hc]
    exact .compare hnode (Node.ofComparison_standsFor_iff.mpr ⟨hc, rfl⟩)

/-- What unfolds from the node of a join is joined from what unfolds from its children. -/
theorem unfolds_join_iff {c : Connective} {left right : Nat}
    (hnode : nodes[start]? = some (.ofConnective c left right)) :
    Unfolds nodes start u met ↔ ∃ l r metl metr, Unfolds nodes left l metl ∧
      Unfolds nodes right r metr ∧ u = join c l r ∧ met = start :: (metl ++ metr) := by
  constructor
  · intro h
    cases h with
    | compare hfound hc =>
      obtain rfl := Option.some.inj (hnode.symm.trans hfound)
      cases Node.ofConnective_standsFor_iff.mp hc
    | join hfound hc hl hr =>
      obtain rfl := Option.some.inj (hnode.symm.trans hfound)
      cases Node.ofConnective_standsFor_iff.mp hc
      exact ⟨_, _, _, _, hl, hr, rfl, rfl⟩
  · rintro ⟨l, r, metl, metr, hl, hr, rfl, rfl⟩
    exact .join hnode (.join c left right) hl hr

/-- The positions of a join are its own, those of the left part and those of the right part. -/
theorem range'_size_join (start : Nat) (c : Connective) (left right : Condition) :
    List.range' start (join c left right).size = start ::
      (List.range' (start + 1) left.size ++ List.range' (start + 1 + left.size) right.size) := by
  rw [size, Nat.add_assoc, Nat.add_comm 1, List.range'_succ, List.range'_append_1]

/-- A part unfolds from the start of its stretch exactly if it can be stored, as what its text is
read as, and the positions on the way are those of the stretch. -/
theorem unfolds_iff_of_occupies {t : Condition}
    (h : Node.Occupies nodes start (t.flattenFrom start)) :
    Unfolds nodes start u met ↔
      t.IsStorable ∧ u = t.reread ∧ met = List.range' start t.size := by
  induction t generalizing start u met with
  | compare c =>
    have hnode := (Node.occupies_cons.mp h).1
    rw [unfolds_compare_iff hnode, IsStorable, comparisons, List.forall_mem_singleton, size,
      List.range'_one]
  | join c left right ihl ihr =>
    obtain ⟨hnode, hl, hr⟩ := Node.occupies_join.mp h
    simp only [unfolds_join_iff hnode, ihl hl, ihr hr, isStorable_join, reread, range'_size_join]
    constructor
    · rintro ⟨_, _, _, _, ⟨hsl, rfl, rfl⟩, ⟨hsr, rfl, rfl⟩, rfl, rfl⟩
      exact ⟨⟨hsl, hsr⟩, rfl, rfl⟩
    · rintro ⟨⟨hsl, hsr⟩, rfl, rfl⟩
      exact ⟨_, _, _, _, ⟨hsl, rfl, rfl⟩, ⟨hsr, rfl, rfl⟩, rfl, rfl⟩

/-! ## Reading what was stored -/

/-- From its own nodes a condition is read as from its own text, if it can be stored at all. -/
theorem ofNodes_flatten_iff {t u : Condition} : ofNodes t.flatten.toArray 0 = .ok u ↔
    t.IsStorable ∧ u = t.reread ∧ t.depth ≤ maxDepth := by
  simp only [ofNodes_eq_ok_iff_unfolds, unfolds_iff_of_occupies (Node.occupies_toArray t.flatten)]
  constructor
  · rintro ⟨_, ⟨hstorable, rfl, -⟩, -, hdepth⟩
    exact ⟨hstorable, rfl, t.depth_reread ▸ hdepth⟩
  · rintro ⟨hstorable, rfl, hdepth⟩
    exact ⟨_, ⟨hstorable, rfl, rfl⟩, List.nodup_range', t.depth_reread.symm ▸ hdepth⟩

/-- What sound nodes store can be written. -/
theorem isWritable_of_unfolds {t : Condition} (h : Unfolds nodes start t met) : t.IsWritable := by
  induction h with
  | compare hnode hc =>
    refine List.forall_mem_singleton.mpr ?_
    cases hc with
    | compare hfield hsymbol hliteral =>
      have hcanonical := Comparator.symbol_ofSymbol
      exact ⟨hfield, by rwa [hcanonical], by rw [hcanonical], hliteral⟩
  | join hnode hc hl hr ihl ihr => exact List.forall_mem_append.mpr ⟨ihl, ihr⟩

theorem IsWritable.isStorable {t : Condition} (h : t.IsWritable) : t.IsStorable :=
  fun c hc => ⟨(h c hc).field, (h c hc).comparator, (h c hc).literal⟩

theorem ofNodes_flatten_of_isWritable {t : Condition} (hdepth : t.depth ≤ maxDepth)
    (h : t.IsWritable) : ofNodes t.flatten.toArray 0 = .ok t :=
  ofNodes_flatten_iff.mpr ⟨h.isStorable, (reread_of_isWritable h).symm, hdepth⟩

theorem IsStorable.isLegible {t : Condition} (h : t.IsStorable) : t.IsLegible := fun c hc =>
  ⟨(h c hc).field, (h c hc).comparator, Literal.hasNoQuote_of_isExpressible (h c hc).literal⟩

/-- A condition is read again from its own nodes exactly if its levels are within the limit and
all its comparisons can be written, whether the condition read has to be the same or only equal by
value. -/
theorem ofNodes_flatten_eq_ok_iff (t : Condition) :
    ((∃ u, ofNodes t.flatten.toArray 0 = .ok u ∧ u.sameAs t = true) ↔
      t.depth ≤ maxDepth ∧ t.IsWritable) ∧
    (ofNodes t.flatten.toArray 0 = .ok t ↔ t.depth ≤ maxDepth ∧ t.IsWritable) := by
  have back : t.depth ≤ maxDepth ∧ t.IsWritable → ofNodes t.flatten.toArray 0 = .ok t :=
    fun h => ofNodes_flatten_of_isWritable h.1 h.2
  have same : ∀ {u}, ofNodes t.flatten.toArray 0 = .ok u → u.sameAs u = true := by
    intro u h
    obtain ⟨-, rfl, -⟩ := ofNodes_flatten_iff.mp h
    exact t.sameAs_reread
  have forth : ∀ {u}, ofNodes t.flatten.toArray 0 = .ok u → u.sameAs t = true →
      t.depth ≤ maxDepth ∧ t.IsWritable := by
    intro u h hs
    obtain ⟨hstorable, rfl, hdepth⟩ := ofNodes_flatten_iff.mp h
    exact ⟨hdepth, isWritable_of_sameAs hstorable.isLegible hs⟩
  constructor
  · constructor
    · rintro ⟨u, hu, hs⟩
      exact forth hu hs
    · exact fun h => ⟨t, back h, same (back h)⟩
  · exact ⟨fun h => forth h (same h), back⟩

/-! ## Conditions in other forms -/

/-- Nodes store the conditions that can be written, up to the limit on levels. -/
theorem exists_ofNodes_iff {t : Condition} :
    (∃ nodes root, ofNodes nodes root = .ok t) ↔ t.depth ≤ maxDepth ∧ t.IsWritable := by
  constructor
  · rintro ⟨nodes, root, h⟩
    obtain ⟨met, hunfolds, -, hdepth⟩ := ofNodes_eq_ok_iff_unfolds.mp h
    exact ⟨hdepth, isWritable_of_unfolds hunfolds⟩
  · rintro ⟨hdepth, hwritable⟩
    exact ⟨_, _, ofNodes_flatten_of_isWritable hdepth hwritable⟩

/-- The conditions that nodes store are those that read back from their texts. What is read from
nodes, wherever these stand, is read from its text and from its own nodes as well, and tests every
record as the nodes do. -/
theorem ofNodes_resaved :
    (∀ t, (∃ nodes root, ofNodes nodes root = .ok t) ↔ parse t.toText = .ok t) ∧
    ∀ nodes root t, ofNodes nodes root = .ok t →
      parse t.toText = .ok t ∧ ofNodes t.flatten.toArray 0 = .ok t ∧
      ∀ record, (parse t.toText).map (eval record) = .ok (evalNodes nodes root record) ∧
        evalNodes t.flatten.toArray 0 record = evalNodes nodes root record := by
  have toText : ∀ {t}, (∃ nodes root, ofNodes nodes root = .ok t) → parse t.toText = .ok t := by
    intro t hstored
    obtain ⟨hdepth, hwritable⟩ := exists_ofNodes_iff.mp hstored
    exact parse_toText_of_isWritable hdepth hwritable
  refine ⟨fun t => ⟨toText, fun h => ?_⟩, fun nodes root t h => ?_⟩
  · have hself := sameAs_self_of_parse_toText h (isLegible_of_parse h)
    exact exists_ofNodes_iff.mpr (isWritable_of_parse_toText h hself)
  · obtain ⟨hdepth, hwritable⟩ := exists_ofNodes_iff.mp ⟨nodes, root, h⟩
    have hflat := ofNodes_flatten_of_isWritable hdepth hwritable
    have htext := toText ⟨nodes, root, h⟩
    refine ⟨htext, hflat, fun record => ⟨?_, ?_⟩⟩
    · rw [htext, evalNodes, h]
      rfl
    · rw [evalNodes, evalNodes, hflat, h]

/-- The root may stand behind its parts. -/
theorem ofNodes_resaved_rootLast :
    let young : Comparison := ⟨"age", .less, .number (.ofInt 30)⟩
    let sales : Comparison := ⟨"department", .equal, .text "Sales"⟩
    let nodes : Array Node := #[.ofComparison young, .ofComparison sales, .ofConnective .and 0 1]
    let t := join .and (compare young) (compare sales)
    ofNodes nodes 2 = .ok t ∧ parse "(age < 30 AND department = 'Sales')" = .ok t ∧
      t.flatten = [.ofConnective .and 1 2, .ofComparison young, .ofComparison sales] ∧
      ofNodes t.flatten.toArray 0 = .ok t ∧
      evalNodes t.flatten.toArray 0 = evalNodes nodes 2 := by
  intro young sales nodes t
  have hyoung : young.IsStorable := ⟨by decide +kernel, by decide +kernel, by decide +kernel⟩
  have hsales : sales.IsStorable := ⟨by decide +kernel, by decide +kernel, by decide +kernel⟩
  have hunfolds : Unfolds nodes 2 t [2, 0, 1] :=
    (unfolds_join_iff rfl).mpr ⟨_, _, [0], [1],
      (unfolds_compare_iff rfl).mpr ⟨hyoung, by decide +kernel, rfl⟩,
      (unfolds_compare_iff rfl).mpr ⟨hsales, by decide +kernel, rfl⟩, rfl, rfl⟩
  have hread : ofNodes nodes 2 = .ok t :=
    ofNodes_eq_ok_iff_unfolds.mpr ⟨[2, 0, 1], hunfolds, by decide, by decide⟩
  have hwritten : t.toText = "(age < 30 AND department = 'Sales')" := by decide +kernel
  obtain ⟨htext, hflat, hsame⟩ := ofNodes_resaved.2 nodes 2 t hread
  rw [hwritten] at htext
  exact ⟨hread, htext, rfl, hflat, funext fun record => (hsame record).2⟩

end Condition

end Eligibility
