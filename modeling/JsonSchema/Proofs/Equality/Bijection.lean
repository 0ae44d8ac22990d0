import JsonSchema.Proofs.Equality
import Mathlib.Data.Set.Function

/-!
Equality of values as isomorphism of graphs. Two values are equal exactly if a one-to-one map takes the arrays, objects
and references that can be reached in one of them to those of the other (`Value.EqualBy`), so that arrays have the same
length and corresponding elements, objects and references the same keys in any order and corresponding members, and
scalars correspond to scalars that stand for the same thing (`Value.eq_iff_isomorphic`). Data that is shared or cyclic on
one side only is told apart, since a node has one partner.
-/

namespace JsonSchema

/-- The arrays, objects and references that can be reached from a value. -/
def Value.composites (v : Value) : Set Nat :=
  {id | v.graph.Reaches v.id id ∧ (v.graph.node id).isComposite = true}

/-- The node `b` is the image of an array, object or reference `a`, or a scalar that stands for the same thing as the
scalar `a`. -/
def Graph.Corresponds (f : Nat → Nat) (g h : Graph) (a b : Nat) : Prop :=
  if (g.node a).isComposite then b = f a else (g.node a).scalarEq (h.node b) = true

/-- The keys are the same, and members with the same key are related. -/
def Members.Correspond (R : Nat → Nat → Prop) (l r : List (String × Nat)) : Prop :=
  (∀ key, key ∈ l.map (·.1) ↔ key ∈ r.map (·.1)) ∧ ∀ key a b, (key, a) ∈ l → (key, b) ∈ r → R a b

/-- Arrays of the same length with related elements, objects or references with the same keys and related members. -/
inductive Node.Correspond (R : Nat → Nat → Prop) : Node → Node → Prop
  | array {ids ids' : List Nat} : List.Forall₂ R ids ids' → Correspond R (.array ids) (.array ids')
  | object {l r : List (String × Nat)} : Members.Correspond R l r → Correspond R (.object l) (.object r)
  | reference {l r : List (String × Nat)} : Members.Correspond R l r → Correspond R (.reference l) (.reference r)

/-- `f` takes the arrays, objects and references of one value to those of the other, one to one and with their parts. -/
structure Value.EqualBy (f : Nat → Nat) (v w : Value) : Prop where
  root : Graph.Corresponds f v.graph w.graph v.id w.id
  bijective : Set.BijOn f v.composites w.composites
  node : ∀ id ∈ v.composites,
    Node.Correspond (Graph.Corresponds f v.graph w.graph) (v.graph.node id) (w.graph.node (f id))

/-! ### Nodes that correspond -/

section

variable {R : Nat → Nat → Prop} {l r : List (String × Nat)} {n m : Node}

/-- Under distinct keys it is enough that there are as many members, and that each of the first has a partner. -/
theorem Members.correspond_iff_agree (hl : (l.map (·.1)).Nodup) (hr : (r.map (·.1)).Nodup) :
    Members.Correspond R l r ↔ Members.Agree R l r := by
  constructor
  · rintro ⟨hkeys, hR⟩
    have hperm : (l.map (·.1)).Perm (r.map (·.1)) := (List.perm_ext_iff_of_nodup hl hr).mpr hkeys
    refine ⟨by simpa using hperm.length_eq, fun m hm => ?_⟩
    obtain ⟨m', hm', hkey⟩ := List.mem_map.mp ((hkeys m.1).mp (List.mem_map_of_mem hm))
    have hm' : (m.1, m'.2) ∈ r := by
      rw [← hkey]
      exact hm'
    exact ⟨m'.2, lookup_of_mem hr hm', hR m.1 m.2 m'.2 hm hm'⟩
  · intro h
    refine ⟨fun key => (h.keys_perm hl).mem_iff, fun key a b ha hb => ?_⟩
    obtain ⟨id, hid, hR⟩ := h.2 (key, a) ha
    cases (lookup_of_mem hr hb).symm.trans hid
    exact hR

theorem Node.correspond_iff_agree (hn : (n.members.map (·.1)).Nodup) (hm : (m.members.map (·.1)).Nodup) :
    n.Correspond R m ↔ n.Agree R m := by
  constructor
  · rintro (h | h | h)
    · exact .array h
    · exact .object ((Members.correspond_iff_agree hn hm).1 h)
    · exact .reference ((Members.correspond_iff_agree hn hm).1 h)
  · rintro (h | h | h)
    · exact .array h
    · exact .object ((Members.correspond_iff_agree hn hm).2 h)
    · exact .reference ((Members.correspond_iff_agree hn hm).2 h)

end

/-! ### From pairs to a map and back -/

namespace Value

variable {f : Nat → Nat} {R : Nat → Nat → Prop} {v w : Value} {a b : Nat}

/-- The partner of a node, if it has one. -/
noncomputable def partner (R : Nat → Nat → Prop) (a : Nat) : Nat := open Classical in
  if h : ∃ b, R a b then h.choose else a

theorem related_partner (h : R a b) : R a (partner R a) := by
  unfold partner
  rw [dif_pos ⟨b, h⟩]
  exact Exists.choose_spec _

theorem not_composite_of_scalarEq (n m : Node) (h : n.scalarEq m = true) : n.isComposite = false :=
  (Node.isComposite_of_scalarEq h).1

namespace PairedBy

/-- What can be reached is paired with something that can be reached, and both have the same shape. -/
theorem exists_agreeing {scalars : Node → Node → Prop} (h : PairedBy scalars R v w)
    (hs : ∀ n m, scalars n m → n.isComposite = false) (ha : a ∈ v.composites) :
    ∃ b ∈ w.composites, R a b ∧ (v.graph.node a).Agree R (w.graph.node b) := by
  obtain ⟨b, hb, hab⟩ := h.exists_partner hs ha.1
  have hagree := h.agree hs hab ha.2
  exact ⟨b, ⟨hb, hagree.isComposite.2⟩, hab, hagree⟩

section

variable {scalars : Node → Node → Prop} (h : PairedBy scalars R v w)

include h

/-- An array or object has one partner. -/
theorem partner_eq (ha : (v.graph.node a).isComposite = true) (hab : R a b) : partner R a = b :=
  h.right_unique ha (related_partner hab) hab

/-- The map to partners takes the arrays, objects and references of one value to those of the other. -/
theorem bijOn_partner (hv : v.graph.WellFormed)
    (hs : ∀ n m, scalars n m → n.isComposite = false ∧ m.isComposite = false) :
    Set.BijOn (partner R) v.composites w.composites := by
  have hsymm : PairedBy (fun n m => scalars m n) (flip R) w v := h.symm hv fun _ _ hnm => hnm
  have hleft : ∀ n m, scalars n m → n.isComposite = false := fun n m hnm => (hs n m hnm).1
  refine ⟨fun a ha => ?_, fun a ha a' ha' heq => ?_, fun b hb => ?_⟩
  · obtain ⟨b, hb, hab, -⟩ := h.exists_agreeing hleft ha
    rw [h.partner_eq ha.2 hab]
    exact hb
  · obtain ⟨b, hb, hab, -⟩ := h.exists_agreeing hleft ha
    obtain ⟨b', -, hab', -⟩ := h.exists_agreeing hleft ha'
    rw [h.partner_eq ha.2 hab, h.partner_eq ha'.2 hab'] at heq
    subst heq
    exact h.left_unique hb.2 hab hab'
  · obtain ⟨a, ha, hab, -⟩ := hsymm.exists_agreeing (fun n m hnm => (hs m n hnm).2) hb
    exact ⟨a, ha, h.partner_eq ha.2 hab⟩

end

variable (h : PairedBy (fun n m => n.scalarEq m = true) R v w)

include h

/-- What is paired corresponds by the map to partners. -/
theorem corresponds (hab : R a b) : Graph.Corresponds (partner R) v.graph w.graph a b := by
  unfold Graph.Corresponds
  split
  · next ha => exact (h.partner_eq ha hab).symm
  · next ha => exact (h.node hab).resolve_left fun hn => ha hn.isComposite.1

/-- The map to partners is an isomorphism. -/
theorem equalBy (hv : v.graph.WellFormed) (hw : w.graph.WellFormed) : EqualBy (partner R) v w := by
  refine ⟨h.corresponds h.root, h.bijOn_partner hv fun _ _ => Node.isComposite_of_scalarEq, fun a ha => ?_⟩
  obtain ⟨b, -, hab, hagree⟩ := h.exists_agreeing not_composite_of_scalarEq ha
  rw [h.partner_eq ha.2 hab]
  refine (Node.correspond_iff_agree (hv.nodup_keys a) (hw.nodup_keys b)).2 ?_
  exact hagree.imp fun c d hcd => h.corresponds hcd

end PairedBy

/-- An isomorphism pairs what can be reached. -/
theorem EqualBy.pairedBy (h : EqualBy f v w) (hv : v.graph.WellFormed) (hw : w.graph.WellFormed) :
    PairedBy (fun n m => n.scalarEq m = true)
      (fun a b => v.graph.Reaches v.id a ∧ Graph.Corresponds f v.graph w.graph a b) v w := by
  have himage : ∀ {a b}, (v.graph.node a).isComposite = true → Graph.Corresponds f v.graph w.graph a b → b = f a := by
    intro a b ha hab
    rwa [Graph.Corresponds, if_pos ha] at hab
  refine ⟨⟨.root, h.root⟩, ?_, fun ha hab hab' => (himage ha hab.2).trans (himage ha hab'.2).symm, ?_⟩
  · rintro a b ⟨hreach, hab⟩
    by_cases ha : (v.graph.node a).isComposite = true
    · obtain rfl := himage ha hab
      have hagree := (Node.correspond_iff_agree (hv.nodup_keys a) (hw.nodup_keys (f a))).1 (h.node a ⟨hreach, ha⟩)
      exact .inl (hagree.imp_of_mem fun c hc d _ hcd => ⟨.child hreach hc, hcd⟩)
    · rw [Graph.Corresponds, if_neg ha] at hab
      exact .inr hab
  · rintro a a' b hb ⟨hreach, hab⟩ ⟨hreach', hab'⟩
    have hcomposite : ∀ {a}, Graph.Corresponds f v.graph w.graph a b → (v.graph.node a).isComposite = true := by
      intro a hab
      by_contra ha
      rw [Graph.Corresponds, if_neg ha] at hab
      simp [(Node.isComposite_of_scalarEq hab).2] at hb
    have ha := hcomposite hab
    have ha' := hcomposite hab'
    exact h.bijective.injOn ⟨hreach, ha⟩ ⟨hreach', ha'⟩ ((himage ha hab).symm.trans (himage ha' hab'))

end Value

/-- **Equality of values is isomorphism of their graphs**, where scalars are compared by what they stand for and the
order of members does not count. More rounds than the comparison is given would not change its answer, so it always comes
to its end. -/
theorem Value.eq_iff_isomorphic {v w : Value} (hv : v.graph.WellFormed) (hw : w.graph.WellFormed) :
    (v.eq w = true ↔ ∃ f, Value.EqualBy f v w) ∧
      ∀ rounds, v.graph.nodes.size + 1 ≤ rounds →
        Pairing.agree v.graph w.graph rounds [] [(v.id, w.id)] = v.eq w := by
  refine ⟨⟨fun h => ?_, fun ⟨f, h⟩ => ?_⟩, fun rounds hrounds => ?_⟩
  · obtain ⟨R, hR⟩ := Value.eq_iff.1 h
    exact ⟨_, hR.equalBy hv hw⟩
  · exact Value.eq_iff.2 ⟨_, h.pairedBy hv hw⟩
  · exact Bool.eq_iff_iff.mpr ((Pairing.agree_iff hrounds).trans Value.eq_iff.symm)

/-- An object that holds itself, a list in which it stands twice, and the integer one. -/
def knot : Value := ⟨⟨0, #[.object [("self", 0), ("list", 1), ("one", 2)], .array [0, 0], .integer 1]⟩, 0⟩

/-- The same with its members and nodes in another order, and one as a floating-point number. -/
def turnedKnot : Value :=
  ⟨⟨1, #[.number (.ofInt 1), .array [2, 2], .object [("one", 0), ("self", 2), ("list", 1)]]⟩, 2⟩

/-- A list in which one empty list stands twice. -/
def sharedPair : Value := ⟨⟨2, #[.array [1, 1], .array []]⟩, 0⟩

/-- A list of two empty lists. -/
def separatePair : Value := ⟨⟨3, #[.array [1, 2], .array [], .array []]⟩, 0⟩

/-- The knots are equal and isomorphic. The pairs are neither, since only one of them is shared. -/
theorem Value.eq_iff_isomorphic_knot :
    knot.graph.WellFormed ∧ turnedKnot.graph.WellFormed ∧ (knot.eq turnedKnot = true ∧ ∃ f, EqualBy f knot turnedKnot) ∧
      sharedPair.graph.WellFormed ∧ separatePair.graph.WellFormed ∧
      sharedPair.eq separatePair = false ∧ ¬∃ f, EqualBy f sharedPair separatePair := by
  have hknot : knot.graph.WellFormed := by decide
  have hturned : turnedKnot.graph.WellFormed := by decide
  have hequal : knot.eq turnedKnot = true := by decide +kernel
  have hshared : sharedPair.graph.WellFormed := by decide
  have hseparate : separatePair.graph.WellFormed := by decide
  have hunequal : sharedPair.eq separatePair = false := by decide
  refine ⟨hknot, hturned, ⟨hequal, (Value.eq_iff_isomorphic hknot hturned).1.mp hequal⟩, hshared, hseparate, hunequal,
    fun h => ?_⟩
  rw [(Value.eq_iff_isomorphic hshared hseparate).1.mpr h] at hunequal
  cases hunequal

end JsonSchema
