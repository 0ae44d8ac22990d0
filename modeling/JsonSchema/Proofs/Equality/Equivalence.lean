import JsonSchema.Proofs.Equality
import JsonSchema.Proofs.Rounding

/-!
How far equality of values is an equivalence. It is symmetric, and values without a NaN are equal to themselves. It is
transitive at a value exactly if no two integers of 64 bits are rounded to a number of that value
(`Value.eq_equivalence`): an integer and a floating-point number are compared after the integer has been rounded, so an
integer that is no floating-point number is equal to the number nearest to it, and through that number to another
integer (`Value.eq_not_transitive`).
-/

namespace JsonSchema

/-- No NaN can be reached from the value. -/
def Value.NaNFree (v : Value) : Prop := ¬v.Holds (.number .nan)

/-- The value with another node in the place of one. -/
def Value.replacing (v : Value) (a : Nat) (n : Node) : Value :=
  ⟨⟨v.graph.tag, v.graph.nodes.setIfInBounds a n⟩, v.id⟩

/-! ### Scalars -/

namespace Node

variable {n m k : Node} {x : Double} {i : Int64}

theorem scalarEq_refl (hn : n.isComposite = false) (hnan : n ≠ .number .nan) : n.scalarEq n = true := by
  cases n with
  | null => rfl
  | boolean | integer | string => exact beq_self_eq_true _
  | number x => exact Double.eq_refl fun hx => hnan (hx ▸ rfl)
  | array | object | reference => cases hn

theorem scalarEq_symm (h : n.scalarEq m = true) : m.scalarEq n = true := by
  cases n <;> cases m <;> first
    | exact h
    | exact Double.eq_symm h
    | exact beq_iff_eq.mpr (beq_iff_eq.mp h).symm

theorem eq_of_scalarEq_integer (h : Node.scalarEq (.integer i) m = true) :
    m = .integer i ∨ ∃ y, m = .number y ∧ (Double.ofInt i.toInt).eq y = true := by
  cases m with
  | integer j => exact .inl (beq_iff_eq.mp h ▸ rfl)
  | number y => exact .inr ⟨y, rfl, h⟩
  | _ => cases h

theorem eq_of_scalarEq_number (h : Node.scalarEq (.number x) m = true) :
    (∃ j : Int64, m = .integer j ∧ (Double.ofInt j.toInt).eq x = true) ∨ ∃ y, m = .number y ∧ x.eq y = true := by
  cases m with
  | integer j => exact .inl ⟨j, rfl, h⟩
  | number y => exact .inr ⟨y, rfl, h⟩
  | _ => cases h

/-- Scalars that stand for the same thing as a third one do so for each other, unless the third is a number that two
integers are rounded to. -/
theorem scalarEq_trans (h : m.scalarEq n = true) (h' : m.scalarEq k = true)
    (hm : ∀ x, m = .number x → x.IsUnambiguous) : n.scalarEq k = true := by
  cases m with
  | integer j =>
    rcases eq_of_scalarEq_integer h with rfl | ⟨x, rfl, hx⟩
    · exact h'
    · rcases eq_of_scalarEq_integer h' with rfl | ⟨y, rfl, hy⟩
      · exact hx
      · exact Double.eq_trans (Double.eq_symm hx) hy
  | number x =>
    rcases eq_of_scalarEq_number h with ⟨i, rfl, hi⟩ | ⟨y, rfl, hy⟩ <;>
      rcases eq_of_scalarEq_number h' with ⟨j, rfl, hj⟩ | ⟨z, rfl, hz⟩
    · exact beq_iff_eq.mpr (hm x rfl i j hi hj)
    · exact Double.eq_trans hi hz
    · exact Double.eq_trans hj hy
    · exact Double.eq_trans (Double.eq_symm hy) hz
  | null => cases n <;> first | exact h' | cases h
  | boolean a => cases n <;> first | exact beq_iff_eq.mp h ▸ h' | cases h
  | string a => cases n <;> first | exact beq_iff_eq.mp h ▸ h' | cases h
  | array | object | reference => cases h

end Node

/-! ### Values -/

namespace Value

variable {u v w : Value} {a : Nat} {n m : Node} {x : Double} {i : Int64}

/-- From a scalar nothing else can be reached. -/
theorem eq_node_of_holds (hv : v.node.isComposite = false) (h : v.Holds n) : n = v.node := by
  obtain ⟨a, ha, rfl⟩ := h
  suffices a = v.id from this ▸ rfl
  induction ha with
  | root => rfl
  | child _ hc ih =>
    have hcomposite := Node.isComposite_of_mem_children hc
    rw [ih] at hcomposite
    exact absurd (hcomposite.symm.trans hv) Bool.noConfusion

/-- Values are equal if they have the same arrays, objects and references, and scalars that stand for the same. -/
theorem eq_of_nodes (hv : v.graph.WellFormed) (hid : v.id = w.id)
    (hnode : ∀ a, v.graph.Reaches v.id a →
      (v.graph.node a).isComposite = true ∧ w.graph.node a = v.graph.node a ∨
        (v.graph.node a).scalarEq (w.graph.node a) = true) : v.eq w = true := by
  refine eq_iff.2 ⟨fun a b => a = b ∧ v.graph.Reaches v.id a, ⟨hid, .root⟩, ?_, fun _ h h' => h.1 ▸ h'.1,
    fun _ h h' => h.1.trans h'.1.symm⟩
  rintro a _ ⟨rfl, ha⟩
  refine (hnode a ha).imp (fun ⟨hcomposite, hsame⟩ => ?_) fun hscalar => hscalar
  rw [hsame]
  exact (Node.agree_self hcomposite (hv.nodup_keys a)).2 fun c hc => ⟨rfl, .child ha hc⟩

theorem eq_self (hv : v.graph.WellFormed) (hnan : v.NaNFree) : v.eq v = true := by
  refine eq_of_nodes hv rfl fun a ha => ?_
  by_cases hcomposite : (v.graph.node a).isComposite = true
  · exact .inl ⟨hcomposite, rfl⟩
  · exact .inr (Node.scalarEq_refl (Bool.not_eq_true _ ▸ hcomposite) fun hn => hnan ⟨a, ha, hn⟩)

theorem eq_symm (hv : v.graph.WellFormed) (h : v.eq w = true) : w.eq v = true := by
  obtain ⟨R, hR⟩ := eq_iff.1 h
  exact eq_iff.2 ⟨_, hR.symm hv fun _ _ => Node.scalarEq_symm⟩

/-- Pairs of nodes of equal values are composed at the nodes of the value in the middle. -/
theorem eq_trans (hv : ∀ x, v.Holds (.number x) → x.IsUnambiguous) (h : u.eq v = true) (h' : v.eq w = true) :
    u.eq w = true := by
  obtain ⟨R, hR⟩ := eq_iff.1 h
  obtain ⟨Q, hQ⟩ := eq_iff.1 h'
  refine eq_iff.2 ⟨_, hR.reaching.comp hQ (fun n m hnm => Node.isComposite_of_scalarEq hnm.1)
    (fun n m => Node.isComposite_of_scalarEq) fun n m k hnm hmk => ?_⟩
  obtain ⟨hnm, -, hm⟩ := hnm
  exact Node.scalarEq_trans (Node.scalarEq_symm hnm) hmk fun x hx => hv x (hx ▸ hm)

/-! ### Another integer in the place of a number -/

theorem node_replacing (ha : v.graph.node a ≠ .null) (b : Nat) :
    (v.replacing a n).graph.node b = if b = a then n else v.graph.node b := by
  have hlt : a < v.graph.nodes.size := by
    by_contra hge
    rw [Graph.node, Array.getElem?_eq_none (Nat.not_lt.mp hge)] at ha
    exact ha rfl
  unfold replacing Graph.node
  rw [Array.getElem?_setIfInBounds, if_pos hlt]
  split
  · next h =>
    rw [if_pos h.symm]
    rfl
  · next h => rw [if_neg (Ne.symm h)]

theorem wellFormed_replacing (hv : v.graph.WellFormed) (hx : v.graph.node a = .number x) :
    (v.replacing a (.integer i)).graph.WellFormed := by
  have hnode := node_replacing (v := v) (a := a) (n := .integer i) (by simp [hx])
  refine ⟨fun b => ?_, fun {b members} hb => ?_⟩
  · rw [hnode]
    split
    · exact List.nodup_nil
    · exact hv.nodup_keys b
  · rw [hnode] at hb
    split at hb
    · cases hb
    · obtain ⟨child, s, hchild, hs⟩ := hv.reference hb
      refine ⟨child, s, hchild, ?_⟩
      rw [hnode, if_neg fun heq => ?_, hs]
      rw [heq, hx] at hs
      cases hs

theorem eq_replacing (hv : v.graph.WellFormed) (hnan : v.NaNFree) (hx : v.graph.node a = .number x)
    (hi : (Double.ofInt i.toInt).eq x = true) : v.eq (v.replacing a (.integer i)) = true := by
  have hnode := node_replacing (v := v) (a := a) (n := .integer i) (by simp [hx])
  refine eq_of_nodes hv rfl fun b hb => ?_
  rw [hnode]
  by_cases heq : b = a
  · rw [if_pos heq, heq, hx]
    exact .inr hi
  · rw [if_neg heq]
    by_cases hcomposite : (v.graph.node b).isComposite = true
    · exact .inl ⟨hcomposite, rfl⟩
    · exact .inr (Node.scalarEq_refl (Bool.not_eq_true _ ▸ hcomposite) fun hn => hnan ⟨b, hb, hn⟩)

/-- What can be reached is paired with itself, so the integers are told apart. -/
theorem eq_of_replacing_eq {j : Int64} (hv : v.graph.WellFormed) (ha : v.graph.Reaches v.id a)
    (hx : v.graph.node a = .number x)
    (h : (v.replacing a (.integer i)).eq (v.replacing a (.integer j)) = true) : i = j := by
  have hnode : ∀ (k : Int64) b, (v.replacing a (.integer k)).graph.node b =
      if b = a then .integer k else v.graph.node b := fun k => node_replacing (by simp [hx])
  obtain ⟨R, hR⟩ := eq_iff.1 h
  have hself : ∀ {b}, v.graph.Reaches v.id b → R b b := by
    intro b hb
    induction hb with
    | root => exact hR.root
    | @child b c _ hc ih =>
      have hcomposite := Node.isComposite_of_mem_children hc
      have hne : b ≠ a := by
        rintro rfl
        rw [hx] at hcomposite
        cases hcomposite
      have hagree := hR.node ih
      rw [hnode, hnode, if_neg hne, if_neg hne] at hagree
      rcases hagree with hagree | hscalar
      · exact (Node.agree_self hcomposite (hv.nodup_keys b)).1 hagree c hc
      · exact absurd hcomposite (by simp [(Node.isComposite_of_scalarEq hscalar).1])
  have hpair := hR.node (hself ha)
  rw [hnode, hnode, if_pos rfl, if_pos rfl] at hpair
  rcases hpair with hagree | hscalar
  · cases hagree
  · exact beq_iff_eq.mp hscalar

end Value

/-- **How far equality of values is an equivalence.** A value without a NaN is equal to itself, and equality is
symmetric. It is transitive at the value exactly if no two integers of 64 bits are rounded to a number that can be
reached from it. An integer that is a floating-point number is equal to that number only, and any other integer only to a
number that no finite one is nearer than. -/
theorem Value.eq_equivalence {v : Value} (hv : v.graph.WellFormed) (hnan : v.NaNFree) :
    v.eq v = true ∧ (∀ w, v.eq w = true → w.eq v = true) ∧
      ((∀ u w : Value, u.graph.WellFormed → w.graph.WellFormed → u.eq v = true → v.eq w = true → u.eq w = true) ↔
        ∀ x, v.Holds (.number x) → x.IsUnambiguous) ∧
      ∀ i w x, v.node = .integer i → w.node = .number x →
        ((∃ y : Double, y.IsInt i.toInt) → (v.eq w = true ↔ x.IsInt i.toInt)) ∧
          (v.eq w = true → ∀ y : Double, y.isFinite = true → x.distance i.toInt ≤ y.distance i.toInt) := by
  refine ⟨eq_self hv hnan, fun w h => eq_symm hv h, ⟨fun htrans => ?_, fun hunambiguous u w _ _ h h' =>
    eq_trans hunambiguous h h'⟩, fun i w x hi hx => ?_⟩
  · rintro x ⟨a, ha, hx⟩ i j hi hj
    have hreplaced : ∀ {i : Int64}, (v.replacing a (.integer i)).graph.WellFormed := wellFormed_replacing hv hx
    refine eq_of_replacing_eq hv ha hx (htrans _ _ hreplaced hreplaced ?_ (eq_replacing hv hnan hx hj))
    exact eq_symm hv (eq_replacing hv hnan hx hi)
  · have hscalar : v.eq w = (Double.ofInt i.toInt).eq x := by
      rw [eq_scalarEq (by rw [hi]; rfl), hi, hx]
      rfl
    rw [hscalar]
    exact ⟨Double.ofInt_eq_iff (Double.natAbs_toInt_lt i), fun h y => Double.nearest_of_eq (Double.natAbs_toInt_lt i) h⟩

/-- An object that holds itself, the integer one, and one as a floating-point number. -/
def ownOnes : Value := ⟨⟨0, #[.object [("self", 0), ("integer", 1), ("number", 2)], .integer 1, .number (.ofInt 1)]⟩, 0⟩

theorem Value.eq_equivalence_ownOnes :
    ownOnes.graph.WellFormed ∧ ownOnes.NaNFree ∧ ownOnes.eq ownOnes = true ∧
      (∀ u w : Value, u.graph.WellFormed → w.graph.WellFormed → u.eq ownOnes = true → ownOnes.eq w = true →
        u.eq w = true) ∧
      (ownOnes.atNode 1).eq (ownOnes.atNode 2) = true := by
  have hwf : ownOnes.graph.WellFormed := by decide
  have hone : (Double.ofInt 1).IsInt 1 := by decide +kernel
  have hnumber : ∀ {x}, (∃ id, ownOnes.graph.node id = .number x) → x = .ofInt 1 := by
    rintro x ⟨id, hid⟩
    match id, hid with
    | 2, hid => cases hid; rfl
  have hnan : ∀ {id}, (ownOnes.atNode id).NaNFree := by
    rintro id ⟨a, -, ha⟩
    cases hnumber ⟨a, ha⟩
  refine ⟨hwf, hnan, (Value.eq_equivalence hwf hnan).1, (Value.eq_equivalence hwf hnan).2.2.1.mpr ?_, ?_⟩
  · rintro x ⟨a, -, ha⟩
    obtain rfl := hnumber ⟨a, ha⟩
    exact Double.isUnambiguous_of_lt (by decide +kernel)
  · exact (((Value.eq_equivalence (v := ownOnes.atNode 1) hwf hnan).2.2.2 1 (ownOnes.atNode 2) _ rfl rfl).1
      ⟨_, hone⟩).mpr hone

/-- The least positive integer that is no floating-point number is equal to the number `2^53`, which it is not, and by
way of that number to the integer before it. -/
theorem Value.eq_not_transitive :
    let above := Value.scalar 0 (.integer 9007199254740993)
    let number := Value.scalar 1 (.number (.ofInt 9007199254740992))
    let below := Value.scalar 2 (.integer 9007199254740992)
    (above.graph.WellFormed ∧ number.graph.WellFormed ∧ below.graph.WellFormed) ∧
      (above.NaNFree ∧ number.NaNFree ∧ below.NaNFree) ∧
      above.eq number = true ∧ number.eq below = true ∧ above.eq below = false ∧
      ¬(Double.ofInt 9007199254740992).IsInt 9007199254740993 := by
  have hfinite : Double.ofInt 9007199254740992 ≠ .nan := by decide +kernel
  refine ⟨by decide, ⟨fun h => ?_, fun h => ?_, fun h => ?_⟩, by decide +kernel⟩
  · cases eq_node_of_holds rfl h
  · exact hfinite (Node.number.inj (eq_node_of_holds rfl h)).symm
  · cases eq_node_of_holds rfl h

end JsonSchema
