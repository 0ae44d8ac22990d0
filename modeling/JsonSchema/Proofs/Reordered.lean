import JsonSchema.Proofs.Equality
import JsonSchema.Proofs.Places
import JsonSchema.Proofs.Verdict

/-!
Values that differ only in the order of members (`Value.Reordered`): their nodes are paired, and paired scalars are the
same. What is read from a value without regard to the order of members is the same for both: its kind and scalar, the
element at an index, the member with a key, what a pointer designates, what it is equal to. So validation says the same
of both (`Value.Reordered.verdict`).
-/

namespace JsonSchema

/-- Both are the same scalar. -/
def Node.SameScalar (n m : Node) : Prop := n.isComposite = false ∧ m = n

namespace Node

variable {n : Node}

theorem items_of_scalar (h : n.isComposite = false) : n.items = [] := by
  cases n <;> first | rfl | cases h

theorem members_of_scalar (h : n.isComposite = false) : n.members = [] := by
  cases n <;> first | rfl | cases h

end Node

/-- Two values whose keys are distinct differ only in the order of members: arrays correspond to arrays, objects to
objects and references to references, one to one. -/
structure Value.Reordered (v w : Value) : Prop where
  left : v.graph.WellFormed
  right : w.graph.WellFormed
  paired : ∃ R, Value.PairedBy Node.SameScalar R v w

namespace Value

variable {u v w : Value}

theorem paired_refl (hv : v.graph.WellFormed) : PairedBy Node.SameScalar (· = ·) v v := by
  refine ⟨rfl, ?_, fun _ hab hab' => hab.symm.trans hab', fun _ hab hab' => hab.trans hab'.symm⟩
  rintro a b rfl
  by_cases hcomposite : (v.graph.node a).isComposite = true
  · exact .inl ((Node.agree_self hcomposite (hv.nodup_keys a)).2 fun _ _ => rfl)
  · exact .inr ⟨Bool.not_eq_true _ ▸ hcomposite, rfl⟩

namespace Reordered

theorem refl (hv : v.graph.WellFormed) : v.Reordered v := ⟨hv, hv, _, paired_refl hv⟩

theorem symm (h : v.Reordered w) : w.Reordered v := by
  obtain ⟨R, hR⟩ := h.paired
  refine ⟨h.right, h.left, flip R, hR.symm h.left ?_⟩
  rintro n m ⟨hn, rfl⟩
  exact ⟨hn, rfl⟩

theorem isComposite_of_sameScalar (n m : Node) (h : n.SameScalar m) : n.isComposite = false ∧ m.isComposite = false :=
  ⟨h.1, by rw [h.2, h.1]⟩

theorem trans (h : u.Reordered v) (h' : v.Reordered w) : u.Reordered w := by
  obtain ⟨R, hR⟩ := h.paired
  obtain ⟨Q, hQ⟩ := h'.paired
  refine ⟨h.left, h'.right, _, hR.comp hQ isComposite_of_sameScalar isComposite_of_sameScalar ?_⟩
  rintro n m k ⟨hn, rfl⟩ ⟨-, rfl⟩
  exact ⟨hn, rfl⟩

/-! ### Equality -/

theorem eq_left (h : v.Reordered w) (u : Value) : v.eq u = w.eq u := by
  have himp : ∀ {v w : Value}, v.Reordered w → v.eq u = true → w.eq u = true := by
    intro v w h heq
    obtain ⟨R, hR⟩ := h.symm.paired
    obtain ⟨Q, hQ⟩ := Value.eq_iff.1 heq
    refine Value.eq_iff.2 ⟨_, hR.comp hQ isComposite_of_sameScalar (fun _ _ => Node.isComposite_of_scalarEq) ?_⟩
    rintro n m k ⟨-, rfl⟩ hscalar
    exact hscalar
  exact Bool.eq_iff_iff.mpr ⟨himp h, himp h.symm⟩

theorem eq_right (h : v.Reordered w) (u : Value) : u.eq v = u.eq w := by
  have himp : ∀ {v w : Value}, v.Reordered w → u.eq v = true → u.eq w = true := by
    intro v w h heq
    obtain ⟨R, hR⟩ := h.paired
    obtain ⟨Q, hQ⟩ := Value.eq_iff.1 heq
    refine Value.eq_iff.2 ⟨_, hQ.comp hR (fun _ _ => Node.isComposite_of_scalarEq) isComposite_of_sameScalar ?_⟩
    rintro n m k hscalar ⟨-, rfl⟩
    exact hscalar
  exact Bool.eq_iff_iff.mpr ⟨himp h, himp h.symm⟩

theorem distinct {vs ws : List Value} (h : List.Forall₂ Reordered vs ws) : distinct vs = distinct ws := by
  induction h with
  | nil => rfl
  | @cons v w vs ws hvw hrest ih =>
    have hall : vs.all (fun u => !v.eq u) = ws.all fun u => !w.eq u := by
      clear ih
      induction hrest with
      | nil => rfl
      | cons hu _ ih => rw [List.all_cons, List.all_cons, ih, hvw.eq_left, hu.eq_right]
    rw [Value.distinct, Value.distinct, hall, ih]

/-! ### Parts -/

/-- The nodes are composite and agree, with parts that differ only in the order of members, or they are the same
scalar. -/
theorem node (h : v.Reordered w) :
    v.node.Agree (fun a b => (v.atNode a).Reordered (w.atNode b)) w.node ∨ v.node.SameScalar w.node := by
  obtain ⟨R, hR⟩ := h.paired
  exact (hR.node hR.root).imp_left fun hn => hn.imp fun a b hab => ⟨h.left, h.right, R, hR.atNode hab⟩

/-- What is read off the node of a value alone, in the same way for all nodes that agree. -/
theorem congr_node {α : Type} (f : Value → α) (hf : ∀ {R n m}, Node.Agree R n m → f (scalar 0 m) = f (scalar 0 n))
    (hnode : ∀ v : Value, f (scalar 0 v.node) = f v) (h : v.Reordered w) : f w = f v := by
  rw [← hnode v, ← hnode w]
  rcases h.node with hn | hn
  · exact hf hn
  · rw [hn.2]

theorem kind (h : v.Reordered w) : w.kind = v.kind :=
  h.congr_node Value.kind (fun h => by cases h <;> rfl) fun _ => rfl

theorem isArray (h : v.Reordered w) : w.isArray = v.isArray :=
  h.congr_node Value.isArray (fun h => by cases h <;> rfl) fun _ => rfl

theorem isObject (h : v.Reordered w) : w.isObject = v.isObject :=
  h.congr_node Value.isObject (fun h => by cases h <;> rfl) fun _ => rfl

theorem asBool? (h : v.Reordered w) : w.asBool? = v.asBool? :=
  h.congr_node Value.asBool? (fun h => by cases h <;> rfl) fun _ => rfl

theorem asDouble? (h : v.Reordered w) : w.asDouble? = v.asDouble? :=
  h.congr_node Value.asDouble? (fun h => by cases h <;> rfl) fun _ => rfl

theorem asString? (h : v.Reordered w) : w.asString? = v.asString? :=
  h.congr_node Value.asString? (fun h => by cases h <;> rfl) fun _ => rfl

theorem length (h : v.Reordered w) : w.length = v.length := by
  refine h.congr_node Value.length (fun h => ?_) fun _ => rfl
  cases h with
  | array h => exact h.length_eq.symm
  | object h => simpa [Value.length, Value.node, scalar, Graph.node, Node.children] using h.1.symm
  | reference h => simpa [Value.length, Value.node, scalar, Graph.node, Node.children] using h.1.symm

theorem elements (h : v.Reordered w) : List.Forall₂ Reordered v.elements w.elements := by
  unfold Value.elements
  rw [List.forall₂_map_left_iff, List.forall₂_map_right_iff]
  rcases h.node with hn | hn
  · cases hv : v.node <;> cases hw : w.node <;> rw [hv, hw] at hn <;> cases hn
    · assumption
    · exact .nil
    · exact .nil
  · rw [hn.2, Node.items_of_scalar hn.1]
    exact .nil

/-- Members under one key differ only in the order of members. -/
theorem get? (h : v.Reordered w) {key : String} {x : Value} (hx : v.get? key = some x) :
    ∃ y, w.get? key = some y ∧ x.Reordered y := by
  obtain ⟨id, hid, rfl⟩ := Option.map_eq_some_iff.mp hx
  have hmembers : ∀ {l r : List (String × Nat)}, Members.Agree (fun a b => (v.atNode a).Reordered (w.atNode b)) l r →
      l.lookup key = some id → ∃ y, (r.lookup key).map w.atNode = some y ∧ (v.atNode id).Reordered y := by
    intro l r hagree hl
    obtain ⟨id', hid', hR⟩ := hagree.2 _ (mem_of_lookup hl)
    exact ⟨_, by rw [hid']; rfl, hR⟩
  unfold Value.get?
  rcases h.node with hn | hn
  · cases hv : v.node <;> cases hw : w.node <;> rw [hv, hw] at hn <;> rw [hv] at hid <;> cases hn
    · cases hid
    · next hagree => exact hmembers hagree hid
    · next hagree => exact hmembers hagree hid
  · rw [Node.members_of_scalar hn.1] at hid
    cases hid

theorem get?_eq_none (h : v.Reordered w) {key : String} (hx : v.get? key = none) : w.get? key = none := by
  cases hy : w.get? key with
  | none => rfl
  | some y =>
    obtain ⟨x, hx', -⟩ := h.symm.get? hy
    cases hx.symm.trans hx'

theorem isSome_get? (h : v.Reordered w) (key : String) : (w.get? key).isSome = (v.get? key).isSome := by
  cases hx : v.get? key with
  | none => rw [h.get?_eq_none hx]
  | some x =>
    obtain ⟨y, hy, -⟩ := h.get? hx
    rw [hy]
    rfl

/-- What is read of the member with a key is the same. -/
theorem bind_get? {α : Type} {f : Value → Option α} (hf : ∀ {x y : Value}, x.Reordered y → f y = f x)
    (h : v.Reordered w) (key : String) : (w.get? key).bind f = (v.get? key).bind f := by
  cases hx : v.get? key with
  | none => rw [h.get?_eq_none hx]
  | some x =>
    obtain ⟨y, hy, hxy⟩ := h.get? hx
    rw [hy]
    exact hf hxy

theorem members (h : v.Reordered w) {m : String × Value} (hm : m ∈ v.members) :
    ∃ y, (m.1, y) ∈ w.members ∧ m.2.Reordered y := by
  obtain ⟨y, hy, hxy⟩ := h.get? (Value.get?_of_mem_members h.left hm)
  exact ⟨y, Value.mem_members_of_get? hy, hxy⟩

theorem reference? (h : v.Reordered w) : w.reference? = v.reference? := by
  have hread : ∀ v : Value, v.reference? =
      if v.kind = .reference then (v.get? referenceKey).bind Value.asString? else none := by
    intro v
    unfold Value.reference? Value.kind Value.get?
    cases v.node with
    | reference members =>
      simp only [Node.kind, if_true, Option.bind_map]
      rfl
    | _ => rfl
  rw [hread, hread, h.kind, h.bind_get? fun hxy => hxy.asString?]

theorem at? (h : v.Reordered w) {index : Nat} {x : Value} (hx : v.at? index = some x) :
    ∃ y, w.at? index = some y ∧ x.Reordered y := by
  have hat : ∀ v : Value, v.at? index = v.elements[index]? := fun v => List.getElem?_map.symm
  rw [hat] at hx ⊢
  obtain ⟨hi, rfl⟩ := List.getElem?_eq_some_iff.mp hx
  have hi' : index < w.elements.length := h.elements.length_eq ▸ hi
  exact ⟨_, List.getElem?_eq_getElem hi', h.elements.get hi hi'⟩

theorem child? (h : v.Reordered w) {atom : String} {x : Value} (hx : v.child? atom = some x) :
    ∃ y, w.child? atom = some y ∧ x.Reordered y := by
  unfold Value.child? at hx ⊢
  rw [h.isArray]
  split at hx
  · next harray =>
    rw [if_pos harray]
    exact h.at? hx
  · next harray =>
    rw [if_neg harray]
    exact h.get? hx

/-- Atoms lead to values that differ only in the order of members. -/
theorem below? (h : v.Reordered w) {atoms : List String} {x : Value} (hx : v.below? atoms = some x) :
    ∃ y, w.below? atoms = some y ∧ x.Reordered y := by
  induction atoms generalizing v w with
  | nil =>
    cases hx
    exact ⟨w, rfl, h⟩
  | cons atom atoms ih =>
    obtain ⟨v', hv', hx⟩ := Option.bind_eq_some_iff.mp hx
    obtain ⟨w', hw', h'⟩ := h.child? hv'
    obtain ⟨y, hy, hxy⟩ := ih h' hx
    exact ⟨y, Option.bind_eq_some_iff.mpr ⟨w', hw', hy⟩, hxy⟩

theorem step (h : v.Reordered w) {atom : String} {x : Value} (hx : v.step atom = .ok x) :
    ∃ y, w.step atom = .ok y ∧ x.Reordered y := by
  rcases step_eq_ok_iff.1 hx with ⟨index, hindex, hx⟩ | hx
  · obtain ⟨y, hy, hxy⟩ := h.at? hx
    exact ⟨y, step_eq_ok_iff.2 (.inl ⟨index, hindex, hy⟩), hxy⟩
  · obtain ⟨y, hy, hxy⟩ := h.get? hx
    exact ⟨y, step_eq_ok_iff.2 (.inr hy), hxy⟩

theorem follow (h : v.Reordered w) {position : Nat} {atoms : List String} {x : Value}
    (hx : v.follow position atoms = .ok x) : ∃ y, w.follow position atoms = .ok y ∧ x.Reordered y := by
  induction atoms generalizing v w position with
  | nil =>
    cases hx
    exact ⟨w, rfl, h⟩
  | cons atom atoms ih =>
    rw [Value.follow] at hx ⊢
    split at hx
    · next v' hv' =>
      obtain ⟨w', hw', h'⟩ := h.step hv'
      rw [hw']
      exact ih h' hx
    · cases hx

/-- Pointers designate values that differ only in the order of members. -/
theorem resolve (h : v.Reordered w) {p : Pointer} {x : Value} (hx : p.resolve v = .ok x) :
    ∃ y, p.resolve w = .ok y ∧ x.Reordered y := by
  obtain ⟨y, hy, hxy⟩ := h.follow (resolve_eq_ok_iff.1 hx)
  exact ⟨y, resolve_eq_ok_iff.2 hy, hxy⟩

end Reordered

end Value

/-! ### The opposite order -/

/-- The members in the opposite order. -/
def Node.reversed : Node → Node
  | .object members => .object members.reverse
  | .reference members => .reference members.reverse
  | node => node

/-- The same value with the members of all its objects in the opposite order. -/
def Value.reversed (v : Value) : Value := ⟨⟨v.graph.tag, v.graph.nodes.map Node.reversed⟩, v.id⟩

theorem Value.node_reversed (v : Value) (id : Nat) : v.reversed.graph.node id = (v.graph.node id).reversed := by
  rw [Graph.node, Graph.node, Value.reversed, Array.getElem?_map]
  cases v.graph.nodes[id]? <;> rfl

theorem Node.members_reversed (n : Node) : n.reversed.members = n.members.reverse := by
  cases n <;> rfl

theorem Members.lookup_reverse {l : List (String × Nat)} (hl : (l.map (·.1)).Nodup) {key : String} {id : Nat}
    (h : l.lookup key = some id) : l.reverse.lookup key = some id := by
  refine lookup_of_mem ?_ (List.mem_reverse.mpr (mem_of_lookup h))
  rw [List.map_reverse]
  exact (List.reverse_perm _).nodup_iff.mpr hl

theorem Value.wellFormed_reversed {v : Value} (hv : v.graph.WellFormed) : v.reversed.graph.WellFormed := by
  refine ⟨fun id => ?_, fun {id members} hn => ?_⟩
  · rw [node_reversed, Node.members_reversed, List.map_reverse]
    exact (List.reverse_perm _).nodup_iff.mpr (hv.nodup_keys id)
  · rw [node_reversed] at hn
    have hkeys := hv.nodup_keys id
    cases hnode : v.graph.node id <;> rw [hnode] at hn hkeys <;> cases hn
    obtain ⟨child, s, hchild, hs⟩ := hv.reference hnode
    exact ⟨child, s, Members.lookup_reverse hkeys hchild, by rw [node_reversed, hs]; rfl⟩

/-- The order of members is all that changes. -/
theorem Value.reordered_reversed {v : Value} (hv : v.graph.WellFormed) : v.Reordered v.reversed := by
  refine ⟨hv, wellFormed_reversed hv, (· = ·), rfl, ?_, fun _ hab hab' => hab.symm.trans hab',
    fun _ hab hab' => hab.trans hab'.symm⟩
  rintro a b rfl
  have hagree : ∀ {members : List (String × Nat)}, (members.map (·.1)).Nodup →
      Members.Agree (· = ·) members members.reverse := fun hkeys =>
    ⟨List.length_reverse.symm, fun m hm => ⟨m.2, Members.lookup_reverse hkeys (lookup_of_mem hkeys hm), rfl⟩⟩
  have hkeys := hv.nodup_keys a
  rw [node_reversed]
  cases hn : v.graph.node a with
  | array ids => exact .inl (.array (List.forall₂_same.mpr fun _ _ => rfl))
  | object members => exact .inl (.object (hagree (by rwa [hn] at hkeys)))
  | reference members => exact .inl (.reference (hagree (by rwa [hn] at hkeys)))
  | _ => exact .inr ⟨rfl, rfl⟩

/-! ### Validation -/

theorem Constraint.holds_congr {v w : Value} (h : v.Reordered w) (c : Constraint) : c.holds w = c.holds v := by
  cases c with
  | type kinds =>
    have haccepts : ∀ t : TypeName, t.accepts w = t.accepts v := by
      intro t
      unfold TypeName.accepts
      rcases h.node with hn | hn
      · cases hv : v.node <;> cases hw : w.node <;> rw [hv, hw] at hn <;> cases hn <;> cases t <;> rfl
      · rw [hn.2]
    simp only [Constraint.holds, haccepts]
  | uniqueItems => simp only [Constraint.holds, h.isArray, Value.Reordered.distinct h.elements]
  | enum values => simp only [Constraint.holds, h.eq_right]
  | required names => simp only [Constraint.holds, h.isObject, h.isSome_get?]
  | _ => simp only [Constraint.holds, h.asDouble?, h.asString?, h.isArray, h.isObject, h.length]

/-- A constraint says the same if the schemas that it refers to do. -/
theorem Constraint.verdict_congr {below : SchemaId → Value → Verdict} {v w : Value} (h : v.Reordered w)
    (hbelow : ∀ id {x y : Value}, x.Reordered y → below id y = below id x) (c : Constraint) :
    c.verdict below w = c.verdict below v := by
  have hparts : ∀ {l m : List (SchemaId × Value)}, List.Forall₂ (fun a b => a.1 = b.1 ∧ a.2.Reordered b.2) l m →
      (m.map fun part => below part.1 part.2) = l.map fun part => below part.1 part.2 := by
    intro l m hlm
    induction hlm with
    | nil => rfl
    | cons hab _ ih => rw [List.map_cons, List.map_cons, ih, hab.1, hbelow _ hab.2]
  have hmap : ∀ (id : SchemaId) {l m : List Value}, List.Forall₂ Value.Reordered l m →
      List.Forall₂ (fun a b : SchemaId × Value => a.1 = b.1 ∧ a.2.Reordered b.2) (l.map (id, ·)) (m.map (id, ·)) := by
    intro id l m hlm
    rw [List.forall₂_map_left_iff, List.forall₂_map_right_iff]
    exact hlm.imp fun _ _ hxy => ⟨rfl, hxy⟩
  have hzip : ∀ (ids : List SchemaId) {l m : List Value}, List.Forall₂ Value.Reordered l m →
      List.Forall₂ (fun a b : SchemaId × Value => a.1 = b.1 ∧ a.2.Reordered b.2) (ids.zip l) (ids.zip m) := by
    intro ids l m hlm
    induction hlm generalizing ids with
    | nil => simp
    | cons hxy _ ih =>
      cases ids with
      | nil => exact .nil
      | cons id ids => exact .cons ⟨rfl, hxy⟩ (ih ids)
  cases c with
  | items schemas additional =>
    refine congrArg Verdict.all (hparts ?_)
    cases schemas with
    | single schema => exact hmap schema h.elements
    | tuple ids =>
      refine List.rel_append (hzip ids h.elements) ?_
      cases additional with
      | none => exact .nil
      | some id => simpa using hmap id (List.forall₂_drop _ h.elements)
  | properties named patterns additional =>
    have hsub : ∀ {v w : Value}, v.Reordered w →
        (((Constraint.properties named patterns additional).parts v).map fun part => below part.1 part.2) ⊆
          ((Constraint.properties named patterns additional).parts w).map fun part => below part.1 part.2 := by
      intro v w h t ht
      simp only [Constraint.parts, List.mem_map, List.mem_flatMap] at ht ⊢
      obtain ⟨part, ⟨m, hm, id, hid, rfl⟩, rfl⟩ := ht
      obtain ⟨y, hy, hxy⟩ := h.members hm
      exact ⟨(id, y), ⟨(m.1, y), hy, id, hid, rfl⟩, hbelow id hxy⟩
    exact Verdict.all_congr (hsub h.symm) (hsub h)
  | allOf ids => exact congrArg Verdict.all (List.map_congr_left fun id _ => hbelow id h)
  | anyOf ids => exact congrArg Verdict.any (List.map_congr_left fun id _ => hbelow id h)
  | oneOf ids => exact congrArg Verdict.one (List.map_congr_left fun id _ => hbelow id h)
  | not id => exact congrArg Verdict.neg (hbelow id h)
  | _ => exact congrArg Verdict.ofBool (Constraint.holds_congr h _)

/-- **A schema says the same of values that differ only in the order of members**, at every depth. -/
theorem Value.Reordered.verdict {v w : Value} (h : v.Reordered w) (g : SchemaGraph) (maxDepth depth : Nat)
    (id : SchemaId) : g.verdict maxDepth depth id w = g.verdict maxDepth depth id v := by
  induction hk : maxDepth + 1 - depth generalizing depth id v w with
  | zero => rw [SchemaGraph.verdict, SchemaGraph.verdict, if_pos (by omega), if_pos (by omega)]
  | succ k ih =>
    rw [SchemaGraph.verdict, SchemaGraph.verdict, if_neg (by omega), if_neg (by omega)]
    refine congrArg Verdict.all (List.map_congr_left fun c _ => ?_)
    exact c.verdict_congr h fun id x y hxy => ih hxy (depth + 1) id (by omega)

end JsonSchema
