import JsonSchema.Proofs.Transform
import Mathlib.Data.Set.Function

/-!
When two values look the same. Scalars have no identity, so only arrays and objects correspond: a one-to-one map takes
those that can be reached in one value to those of the other, with the kinds of nodes, the order of elements and members
and the keys kept, and scalars copied where they stand.
-/

namespace JsonSchema

/-- The node `id'` stands for the node `id`, where `f` gives the counterparts of arrays and objects: a scalar is
copied. -/
def Graph.Counterpart (f : Nat → Nat) (g h : Graph) (id id' : Nat) : Prop :=
  if (g.node id).isComposite then id' = f id else h.node id' = g.node id

namespace Graph.Counterpart

variable {f : Nat → Nat} {g h : Graph} {a b : Nat}

theorem eq_image (hab : Counterpart f g h a b) (ha : (g.node a).isComposite = true) : b = f a := by
  rwa [Counterpart, if_pos ha] at hab

theorem node_eq (hab : Counterpart f g h a b) (ha : ¬(g.node a).isComposite = true) : h.node b = g.node a := by
  rwa [Counterpart, if_neg ha] at hab

theorem isComposite (hab : Counterpart f g h a b) (hb : (h.node b).isComposite = true) :
    (g.node a).isComposite = true := by
  by_contra ha
  rw [hab.node_eq ha] at hb
  exact ha hb

end Graph.Counterpart

/-- Nodes of one kind whose children are related one by one. -/
def Node.Matches (R : Nat → Nat → Prop) : Node → Node → Prop
  | .array ids, .array ids' => List.Forall₂ R ids ids'
  | .object members, .object members' => List.Forall₂ (fun m m' => m.1 = m'.1 ∧ R m.2 m'.2) members members'
  | .reference members, .reference members' => List.Forall₂ (fun m m' => m.1 = m'.1 ∧ R m.2 m'.2) members members'
  | node, node' => node = node'

/-- `f` is an isomorphism of two values: it takes the arrays and objects of one to those of the other. -/
structure Value.IsomorphicBy (f : Nat → Nat) (v w : Value) : Prop where
  root : Graph.Counterpart f v.graph w.graph v.id w.id
  bijective : Set.BijOn f {id | v.graph.Reaches v.id id ∧ (v.graph.node id).isComposite = true}
    {id | w.graph.Reaches w.id id ∧ (w.graph.node id).isComposite = true}
  node : ∀ {id}, v.graph.Reaches v.id id → (v.graph.node id).isComposite = true →
    Node.Matches (Graph.Counterpart f v.graph w.graph) (v.graph.node id) (w.graph.node (f id))

/-- The graphs of two values are isomorphic as far as they can be reached. -/
def Value.Isomorphic (v w : Value) : Prop := ∃ f, IsomorphicBy f v w

end JsonSchema
