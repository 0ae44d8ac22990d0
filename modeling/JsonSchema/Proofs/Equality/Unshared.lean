import JsonSchema.Proofs.JsonGraph
import Mathlib.Data.List.Zip

/-!
Equality of values that share nothing. Where no array or object stands in two places, the nodes of two values are
equal if the nodes at the same places agree: a relation that takes one root to the other and goes on to the children
need not be one to one (`Value.eq_of_unshared`). The reason is that the pairs of nodes at the same places
(`Value.SamePlace`) are one to one then, for each of the nodes has one place only.
-/

namespace JsonSchema

/-! ### The pairs of children -/

namespace Node

variable {n m : Node} {pairs : List (Nat × Nat)} {c d : Nat}

theorem map_fst_pairMembers {l r : List (String × Nat)} (h : pairMembers r l = some pairs) :
    pairs.map (·.1) = l.map (·.2) := by
  induction l generalizing pairs with
  | nil =>
    cases h
    rfl
  | cons m l ih =>
    rw [pairMembers] at h
    cases hid : r.lookup m.1 with
    | none => simp [hid] at h
    | some id =>
      cases hrest : pairMembers r l with
      | none => simp [hid, hrest] at h
      | some rest =>
        simp only [hid, hrest, Option.some.injEq] at h
        subst h
        rw [List.map_cons, List.map_cons, ih hrest]

/-- The children of the first node stand in the pairs in their order. -/
theorem map_fst_pairChildren (h : n.pairChildren m = some pairs) : pairs.map (·.1) = n.children := by
  cases n <;> cases m <;> simp only [pairChildren, reduceCtorEq] at h
  · split at h
    · next hlength =>
      cases h
      exact List.map_fst_zip (Nat.le_of_eq hlength)
    · cases h
  all_goals
    split at h
    · exact map_fst_pairMembers h
    · cases h

theorem mem_children_of_pairChildren (h : n.pairChildren m = some pairs) (hmem : (c, d) ∈ pairs) : c ∈ n.children := by
  rw [← map_fst_pairChildren h]
  exact List.mem_map_of_mem hmem

theorem getElem?_children_of_pairChildren (h : n.pairChildren m = some pairs) {i : Nat} (hi : pairs[i]? = some (c, d)) :
    n.children[i]? = some c := by
  rw [← map_fst_pairChildren h, List.getElem?_map, hi]
  rfl

theorem mem_pairMembers {l r : List (String × Nat)} (h : pairMembers r l = some pairs) :
    (c, d) ∈ pairs ↔ ∃ key, (key, c) ∈ l ∧ r.lookup key = some d := by
  induction l generalizing pairs with
  | nil =>
    cases h
    simp
  | cons m l ih =>
    obtain ⟨key, a⟩ := m
    rw [pairMembers] at h
    cases hid : r.lookup key with
    | none => simp [hid] at h
    | some id =>
      cases hrest : pairMembers r l with
      | none => simp [hid, hrest] at h
      | some rest =>
        simp only [hid, hrest, Option.some.injEq] at h
        subst h
        rw [List.mem_cons, ih hrest]
        constructor
        · rintro (heq | ⟨key', hmem, hlookup⟩)
          · cases heq
            exact ⟨key, List.mem_cons_self, hid⟩
          · exact ⟨key', List.mem_cons_of_mem _ hmem, hlookup⟩
        · rintro ⟨key', hmem, hlookup⟩
          rcases List.mem_cons.mp hmem with heq | hmem
          · cases heq
            rw [hid] at hlookup
            cases hlookup
            exact .inl rfl
          · exact .inr ⟨key', hmem, hlookup⟩

/-- Pairs of members taken from the other side. -/
theorem mem_pairMembers_swap {l r : List (String × Nat)} {pairs' : List (Nat × Nat)} (hl : (l.map (·.1)).Nodup)
    (h : pairMembers r l = some pairs) (h' : pairMembers l r = some pairs') (hmem : (c, d) ∈ pairs) :
    (d, c) ∈ pairs' := by
  obtain ⟨key, hc, hd⟩ := (mem_pairMembers h).mp hmem
  exact (mem_pairMembers h').mpr ⟨key, mem_of_lookup hd, lookup_of_mem hl hc⟩

/-- The pairs of children from the other side. -/
theorem pairChildren_symm (hn : (n.members.map (·.1)).Nodup) (h : n.pairChildren m = some pairs) :
    ∃ pairs', m.pairChildren n = some pairs' ∧ ∀ {c d}, (c, d) ∈ pairs → (d, c) ∈ pairs' := by
  have hagree : n.Agree (fun _ _ => True) m := agree_iff_pairChildren.mpr ⟨pairs, h, fun _ _ => trivial⟩
  obtain ⟨pairs', h', -⟩ := agree_iff_pairChildren.mp (hagree.symm hn)
  refine ⟨pairs', h', fun {c d} hmem => ?_⟩
  cases hagree with
  | array hids =>
    rw [pairChildren, if_pos hids.length_eq] at h
    rw [pairChildren, if_pos hids.length_eq.symm] at h'
    cases h
    cases h'
    rw [← List.zip_swap]
    exact List.mem_map_of_mem hmem
  | object hmembers | reference hmembers =>
    rw [pairChildren, if_pos hmembers.1] at h
    rw [pairChildren, if_pos hmembers.1.symm] at h'
    exact mem_pairMembers_swap hn h h' hmem

end Node

namespace Value

/-! ### Nodes at the same places -/

/-- The nodes stand at the same place of two values: the roots do, and so do the children of such nodes under the same
index or key. -/
inductive SamePlace (v w : Value) : Nat → Nat → Prop
  | root : SamePlace v w v.id w.id
  | child {a b c d : Nat} {pairs : List (Nat × Nat)} : SamePlace v w a b →
      (v.graph.node a).pairChildren (w.graph.node b) = some pairs → (c, d) ∈ pairs → SamePlace v w c d

variable {v w : Value} {R : Nat → Nat → Prop} {a b b' c d : Nat}

theorem SamePlace.reaches (h : SamePlace v w a b) : v.graph.Reaches v.id a := by
  induction h with
  | root => exact .root
  | child _ hpairs hmem ih => exact .child ih (Node.mem_children_of_pairChildren hpairs hmem)

theorem SamePlace.symm (hv : v.graph.WellFormed) (h : SamePlace v w a b) : SamePlace w v b a := by
  induction h with
  | root => exact .root
  | @child a b _ _ _ _ hpairs hmem ih =>
    obtain ⟨pairs', hpairs', hswap⟩ := Node.pairChildren_symm (hv.nodup_keys a) hpairs
    exact .child ih hpairs' (hswap hmem)

/-- An array or object of a value that shares nothing stands at the same place as one node only: it has one parent, of
which this holds already, and one place there. -/
theorem SamePlace.unique (hv : v.Unshared) (h : SamePlace v w a b) (h' : SamePlace v w a b')
    (ha : (v.graph.node a).isComposite = true) : b = b' := by
  induction h generalizing b' with
  | root =>
    cases h' with
    | root => rfl
    | child hparent hpairs hmem =>
      exact absurd (Node.mem_children_of_pairChildren hpairs hmem) (hv.root hparent.reaches ha)
  | @child p q c d pairs hparent hpairs hmem ih =>
    cases h' with
    | root => exact absurd (Node.mem_children_of_pairChildren hpairs hmem) (hv.root hparent.reaches ha)
    | @child p' q' _ _ pairs' hparent' hpairs' hmem' =>
      obtain ⟨i, hi⟩ := List.mem_iff_getElem?.mp hmem
      obtain ⟨j, hj⟩ := List.mem_iff_getElem?.mp hmem'
      have hplace := Node.getElem?_children_of_pairChildren hpairs hi
      have hplace' := Node.getElem?_children_of_pairChildren hpairs' hj
      obtain ⟨rfl, rfl⟩ := hv.child hparent.reaches hparent'.reaches hplace hplace' ha
      obtain rfl := ih hparent' (Node.isComposite_of_mem_children (List.mem_of_getElem? hplace))
      rw [hpairs] at hpairs'
      cases hpairs'
      rw [hi] at hj
      cases hj
      rfl

/-- **Values that share nothing are equal if the nodes at the same places agree.** The relation need not be
one to one. -/
theorem eq_of_unshared (hv : v.Unshared) (hw : w.Unshared) (hwf : v.graph.WellFormed) (hroot : R v.id w.id)
    (hnode : ∀ {a b}, R a b → (v.graph.node a).Agree R (w.graph.node b) ∨
      (v.graph.node a).scalarEq (w.graph.node b) = true) : v.eq w = true := by
  have hsame : ∀ {a b}, SamePlace v w a b → R a b := by
    intro a b h
    induction h with
    | root => exact hroot
    | child _ hpairs hmem ih =>
      rcases hnode ih with hagree | hscalar
      · obtain ⟨pairs, hpairs', hR⟩ := Node.agree_iff_pairChildren.mp hagree
        rw [hpairs] at hpairs'
        cases hpairs'
        exact hR _ hmem
      · have hagree := (Node.agree_iff_pairChildren (R := fun _ _ => True)).mpr ⟨_, hpairs, fun _ _ => trivial⟩
        exact absurd hagree.isComposite.1 (by simp [(Node.isComposite_of_scalarEq hscalar).1])
  refine eq_iff.mpr ⟨SamePlace v w, .root, fun {a b} h => ?_, fun ha h h' => h.unique hv h' ha, fun hb h h' => ?_⟩
  · rcases hnode (hsame h) with hagree | hscalar
    · obtain ⟨pairs, hpairs, -⟩ := Node.agree_iff_pairChildren.mp hagree
      exact .inl (Node.agree_iff_pairChildren.mpr ⟨pairs, hpairs, fun q hq => .child h hpairs hq⟩)
    · exact .inr hscalar
  · exact (h.symm hwf).unique hw (h'.symm hwf) hb

end Value

end JsonSchema
