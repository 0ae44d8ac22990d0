import JsonSchema.Proofs.Verdict

/-!
What a builder can come to (`SchemaBuilder.run`). Nodes are only ever added and added to: an operation changes the node
that it names and no other, and a constraint that a node has it keeps. So the node that every graph begins with holds
exactly what was put onto it (`SchemaBuilder.node_empty_run`), and the node of `never` keeps its constraint
(`SchemaBuilder.Sealed`).

The builder lets the empty node be changed like any other. As long as that is not done, it accepts every value and the
node of `never` accepts none. A constraint on the empty node takes both away: what it rejects is rejected there, and
accepted here.
-/

namespace JsonSchema

namespace SchemaBuilder

/-- What can be done with a builder. -/
inductive Operation where
  | allocate
  | add (constraints : List Constraint)
  | never
  | push (id : SchemaId) (c : Constraint)
  | setDefault (id : SchemaId) (value : Value)
  | setTitle (id : SchemaId) (title : String)
  | setDescription (id : SchemaId) (description : String)

namespace Operation

/-- The builder after the operation. -/
def apply (b : SchemaBuilder) : Operation → SchemaBuilder
  | .allocate => b.allocate.2
  | .add constraints => (b.add constraints).2
  | .never => b.never.2
  | .push id c => b.push id c
  | .setDefault id value => b.setDefault id value
  | .setTitle id title => b.setTitle id title
  | .setDescription id description => b.setDescription id description

/-- The node that is changed. -/
def target? : Operation → Option SchemaId
  | .push id _ => some id
  | .setDefault id _ => some id
  | .setTitle id _ => some id
  | .setDescription id _ => some id
  | _ => none

/-- The change to the node that is changed. -/
def change (node : SchemaNode) : Operation → SchemaNode
  | .push _ c => { node with constraints := node.constraints ++ [c] }
  | .setDefault _ value => { node with default? := some value }
  | .setTitle _ title => { node with title := some title }
  | .setDescription _ description => { node with description := some description }
  | _ => node

/-- The change to the node with a number. -/
def changeAt (id : SchemaId) (node : SchemaNode) (op : Operation) : SchemaNode :=
  if op.target? = some id then op.change node else node

/-- The constraints that are put onto the node with a number. -/
def pushed (id : SchemaId) : Operation → List Constraint
  | .push id' c => if id' = id then [c] else []
  | _ => []

end Operation

/-- The builder after operations, one after the other. -/
def run (b : SchemaBuilder) (ops : List Operation) : SchemaBuilder := ops.foldl Operation.apply b

/-- The finished graph. -/
def graph (b : SchemaBuilder) (tag : Nat) : SchemaGraph := ⟨tag, b.nodes⟩

variable {b : SchemaBuilder} {op : Operation} {ops : List Operation} {id : SchemaId} {node : SchemaNode}

theorem build_eq (b : SchemaBuilder) (tag : Nat) (id : SchemaId) : b.build tag id = ⟨b.graph tag, id⟩ := rfl

theorem run_append (b : SchemaBuilder) (before after : List Operation) :
    b.run (before ++ after) = (b.run before).run after :=
  List.foldl_append

/-! ### Nodes -/

theorem getElem?_add (h : b.nodes[id.index]? = some node) (constraints : List Constraint) :
    (b.add constraints).2.nodes[id.index]? = some node := by
  obtain ⟨hi, -⟩ := Array.getElem?_eq_some_iff.mp h
  rw [SchemaBuilder.add, Array.getElem?_push, if_neg (by omega)]
  exact h

theorem getElem?_never (h : b.nodes[id.index]? = some node) : b.never.2.nodes[id.index]? = some node := by
  unfold SchemaBuilder.never
  cases b.never? with
  | some id' => exact h
  | none => exact getElem?_add h _

theorem getElem?_update (h : b.nodes[id.index]? = some node) (id' : SchemaId) (change : SchemaNode → SchemaNode) :
    (b.update id' change).nodes[id.index]? = some (if id' = id then change node else node) := by
  rw [SchemaBuilder.update, Array.getElem?_modify, h]
  by_cases hid : id' = id
  · rw [if_pos (congrArg SchemaId.index hid), if_pos hid]
    rfl
  · have hindex : id'.index ≠ id.index := fun heq => hid (by cases id'; cases id; cases heq; rfl)
    rw [if_neg hindex, if_neg hid]

/-- An operation changes the node that it names, and no other. -/
theorem getElem?_apply (h : b.nodes[id.index]? = some node) (op : Operation) :
    (op.apply b).nodes[id.index]? = some (op.changeAt id node) := by
  cases op with
  | allocate => exact getElem?_add h []
  | add constraints => exact getElem?_add h constraints
  | never => exact getElem?_never h
  | push id' c | setDefault id' value | setTitle id' title | setDescription id' description =>
    refine (getElem?_update h id' _).trans (congrArg some ?_)
    simp only [Operation.changeAt, Operation.target?, Option.some.injEq]
    rfl

theorem getElem?_run (h : b.nodes[id.index]? = some node) (ops : List Operation) :
    (b.run ops).nodes[id.index]? = some (ops.foldl (Operation.changeAt id) node) := by
  induction ops generalizing b node with
  | nil => exact h
  | cons op ops ih => exact ih (getElem?_apply h op)

/-- Constraints are put after those that are there. -/
theorem constraints_changeAt (id : SchemaId) (node : SchemaNode) (op : Operation) :
    (op.changeAt id node).constraints = node.constraints ++ op.pushed id := by
  unfold Operation.changeAt
  cases op with
  | push id' c =>
    simp only [Operation.target?, Operation.pushed, Option.some.injEq]
    split
    · rfl
    · rw [List.append_nil]
  | allocate | add | never => exact (List.append_nil _).symm
  | setDefault | setTitle | setDescription =>
    refine Eq.trans ?_ (List.append_nil _).symm
    split <;> rfl

theorem constraints_foldl (id : SchemaId) (node : SchemaNode) (ops : List Operation) :
    (ops.foldl (Operation.changeAt id) node).constraints = node.constraints ++ ops.flatMap (Operation.pushed id) := by
  induction ops generalizing node with
  | nil => exact (List.append_nil _).symm
  | cons op ops ih => rw [List.foldl_cons, ih, constraints_changeAt, List.append_assoc, List.flatMap_cons]

theorem mem_pushed {c : Constraint} : c ∈ ops.flatMap (Operation.pushed id) ↔ .push id c ∈ ops := by
  rw [List.mem_flatMap]
  constructor
  · rintro ⟨op, hop, hc⟩
    cases op with
    | push id' c' =>
      rw [Operation.pushed] at hc
      split at hc
      · next heq =>
        cases List.mem_singleton.mp hc
        rwa [← heq]
      · cases hc
    | _ => cases hc
  · intro hop
    refine ⟨.push id c, hop, ?_⟩
    rw [Operation.pushed, if_pos rfl]
    exact List.mem_singleton_self c

/-- A node that is changed has something on it. -/
theorem isEmpty_changeAt (id : SchemaId) (node : SchemaNode) (op : Operation) :
    (op.changeAt id node).isEmpty = true ↔ node.isEmpty = true ∧ op.target? ≠ some id := by
  unfold Operation.changeAt
  by_cases h : op.target? = some id
  · rw [if_pos h]
    refine iff_of_false ?_ fun hne => hne.2 h
    cases op with
    | push | setDefault | setTitle | setDescription => simp [Operation.change, SchemaNode.isEmpty]
    | _ => cases h
  · rw [if_neg h]
    exact ⟨fun hnode => ⟨hnode, h⟩, fun hnode => hnode.1⟩

theorem isEmpty_foldl (id : SchemaId) (node : SchemaNode) (ops : List Operation) :
    (ops.foldl (Operation.changeAt id) node).isEmpty = true ↔
      node.isEmpty = true ∧ ∀ op ∈ ops, op.target? ≠ some id := by
  induction ops generalizing node with
  | nil => simp
  | cons op ops ih => rw [List.foldl_cons, ih, isEmpty_changeAt, List.forall_mem_cons, and_assoc]

/-! ### The empty node and the node that accepts nothing -/

/-- The empty node holds what has been put onto it. -/
theorem node_empty_run (ops : List Operation) (tag : Nat) :
    ((start.run ops).graph tag).node .empty = ops.foldl (Operation.changeAt .empty) {} := by
  have hnode : (start.run ops).nodes[SchemaId.empty.index]? = some (ops.foldl (Operation.changeAt .empty) {}) :=
    getElem?_run rfl ops
  rw [SchemaGraph.node, graph, hnode, Option.getD_some]

theorem mem_constraints_empty_run {tag : Nat} {c : Constraint} :
    c ∈ (((start.run ops).graph tag).node .empty).constraints ↔ .push .empty c ∈ ops := by
  rw [node_empty_run, constraints_foldl, ← mem_pushed]
  exact Iff.rfl

/-- The node rejects what the empty node accepts. -/
def Sealed (b : SchemaBuilder) (id : SchemaId) : Prop :=
  ∃ node, b.nodes[id.index]? = some node ∧ .not .empty ∈ node.constraints

theorem Sealed.apply (h : b.Sealed id) (op : Operation) : (op.apply b).Sealed id := by
  obtain ⟨node, hnode, hmem⟩ := h
  refine ⟨_, getElem?_apply hnode op, ?_⟩
  rw [constraints_changeAt]
  exact List.mem_append_left _ hmem

theorem Sealed.run (h : b.Sealed id) (ops : List Operation) : (b.run ops).Sealed id := by
  induction ops generalizing b with
  | nil => exact h
  | cons op ops ih => exact ih (h.apply op)

/-- The node of `never`, if there is one, is sealed. -/
def Inv (b : SchemaBuilder) : Prop := ∀ id ∈ b.never?, b.Sealed id

theorem Inv.sealed_never (h : b.Inv) : b.never.2.Sealed b.never.1 := by
  unfold SchemaBuilder.never
  cases hn : b.never? with
  | some id => exact h id hn
  | none => exact ⟨{ constraints := [.not .empty] }, Array.getElem?_push_size, List.mem_singleton_self _⟩

theorem never?_never (b : SchemaBuilder) : b.never.2.never? = some b.never.1 := by
  unfold SchemaBuilder.never
  cases hn : b.never? with
  | some id => exact hn
  | none => rfl

theorem Inv.apply (h : b.Inv) (op : Operation) : (op.apply b).Inv := by
  intro id hid
  cases op with
  | never =>
    rw [Operation.apply, never?_never] at hid
    cases hid
    exact h.sealed_never
  | allocate | add | push | setDefault | setTitle | setDescription => exact (h id hid).apply _

theorem inv_run (ops : List Operation) : (start.run ops).Inv := by
  have hrun : ∀ {b : SchemaBuilder}, b.Inv → (b.run ops).Inv := by
    intro b hb
    induction ops generalizing b with
    | nil => exact hb
    | cons op ops ih => exact ih (hb.apply op)
  refine hrun fun id hid => ?_
  cases hid

/-- The node that `never` gives is sealed in the end, whatever is done before and after. -/
theorem sealed_run (before after : List Operation) :
    (start.run (before ++ .never :: after)).Sealed (start.run before).never.1 := by
  rw [run_append]
  exact (inv_run before).sealed_never.run after

end SchemaBuilder

/-! ### What the nodes accept -/

section

variable {g : SchemaGraph} {maxDepth : Nat} {id : SchemaId} {v : Value}

/-- What a sealed node accepts is rejected by a constraint of the empty node. -/
theorem exists_invalid_of_sealed (hmem : .not .empty ∈ (g.node id).constraints)
    (hnil : (Schema.mk g id).validate maxDepth v = []) :
    ∃ c ∈ (g.node .empty).constraints, c.verdict (g.verdict maxDepth 2) v = .invalid := by
  have hneg : (g.verdict maxDepth 1 .empty v).neg = .valid := validate_eq_nil_iff.1 hnil _ hmem
  have hinvalid : g.verdict maxDepth 1 .empty v = .invalid := by
    cases h : g.verdict maxDepth 1 .empty v <;> rw [h] at hneg <;> first | rfl | cases hneg
  rw [SchemaGraph.verdict] at hinvalid
  split at hinvalid
  · cases hinvalid
  · exact List.mem_map.mp (Verdict.all_eq_invalid_iff.1 hinvalid)

end

/-- **What becomes of the empty node and of the node that accepts nothing**, whatever is done with a builder. The empty
node has neither constraints nor annotations exactly if no operation names it. At every depth it accepts the values that
meet the constraints put onto it, so every value if there are none. And what the node of `never` accepts at some depth
breaks a constraint put onto the empty node, so it accepts no value if there are none. -/
theorem SchemaBuilder.validate_run (ops : List Operation) (tag : Nat) :
    (((start.run ops).build tag .empty).node.isEmpty = true ↔ ∀ op ∈ ops, op.target? ≠ some .empty) ∧
    (∀ maxDepth v, ((start.run ops).build tag .empty).validate maxDepth v = [] ↔
      ∀ c, .push .empty c ∈ ops → c.verdict (((start.run ops).graph tag).verdict maxDepth 1) v = .valid) ∧
    ∀ before after, ops = before ++ .never :: after → ∀ maxDepth v,
      ((start.run ops).build tag (start.run before).never.1).validate maxDepth v = [] →
        ∃ c, .push .empty c ∈ ops ∧ c.verdict (((start.run ops).graph tag).verdict maxDepth 2) v = .invalid := by
  refine ⟨?_, fun maxDepth v => ?_, ?_⟩
  · rw [build_eq, Schema.node, node_empty_run, isEmpty_foldl]
    exact and_iff_right rfl
  · rw [build_eq, validate_eq_nil_iff]
    exact forall_congr' fun c => imp_congr_left mem_constraints_empty_run
  · rintro before after rfl maxDepth v hnil
    obtain ⟨node, hnode, hmem⟩ := sealed_run before after
    rw [build_eq] at hnil
    obtain ⟨c, hc, hinvalid⟩ := exists_invalid_of_sealed (by rwa [SchemaGraph.node, graph, hnode]) hnil
    exact ⟨c, mem_constraints_empty_run.1 hc, hinvalid⟩

namespace SchemaBuilder

/-- Asks for the node that accepts nothing and puts something onto it and onto another one. -/
def harmless : List Operation :=
  [.allocate, .setTitle ⟨1⟩ "first", .never, .push ⟨1⟩ (.type [.integer]), .push ⟨2⟩ (.maxLength 3), .never]

/-- Nothing is done to the empty node, so it accepts every value and the other one none, at every depth. -/
theorem validate_run_harmless :
    harmless = [.allocate, .setTitle ⟨1⟩ "first"] ++
        .never :: [.push ⟨1⟩ (.type [.integer]), .push ⟨2⟩ (.maxLength 3), .never] ∧
      (start.run [.allocate, .setTitle ⟨1⟩ "first"]).never.1 = ⟨2⟩ ∧
      ((start.run harmless).build firstFreeTag .empty).node.isEmpty = true ∧
      ∀ maxDepth v, ((start.run harmless).build firstFreeTag .empty).validate maxDepth v = [] ∧
        ((start.run harmless).build firstFreeTag ⟨2⟩).validate maxDepth v ≠ [] := by
  obtain ⟨hnode, hempty, hnever⟩ := validate_run harmless firstFreeTag
  have hpush : ∀ c, .push .empty c ∉ harmless := by
    intro c
    simp [harmless, SchemaId.empty]
  refine ⟨rfl, rfl, hnode.mpr ?_, fun maxDepth v => ⟨(hempty maxDepth v).mpr fun c hc => absurd hc (hpush c), ?_⟩⟩
  · decide
  · intro hnil
    obtain ⟨c, hc, -⟩ := hnever [.allocate, .setTitle ⟨1⟩ "first"] _ rfl maxDepth v hnil
    exact hpush c hc

/-- Asks for the node that accepts nothing, and puts a constraint onto the empty node. -/
def unsealing : List Operation := [.never, .push .empty (.type [.string])]

/-- The empty node is no longer empty, and the node that accepts nothing accepts an integer. -/
theorem validate_run_unsealing :
    (start.run []).never.1 = ⟨1⟩ ∧ unsealing = [] ++ .never :: [.push .empty (.type [.string])] ∧
      ((start.run unsealing).build firstFreeTag .empty).node.isEmpty = false ∧
      ((start.run unsealing).build firstFreeTag .empty).validate 9 (.scalar 3 (.integer 1)) ≠ [] ∧
      ((start.run unsealing).build firstFreeTag ⟨1⟩).validate 9 (.scalar 3 (.integer 1)) = [] := by
  refine ⟨rfl, rfl, rfl, ?_, ?_⟩
  · intro hnil
    cases hnil
  · rfl

end SchemaBuilder

end JsonSchema
