import JsonSchema.Proofs.Equality.Bijection
import JsonSchema.Proofs.Isomorphism
import JsonSchema.Proofs.Reordered
import JsonSchema.Proofs.SideBySide

/-!
Copies of a value. A value is a copy of another one (`Value.Copied`) if only the numbers of its nodes and the tag of its
graph are others: the nodes are paired one to one, paired scalars are the same, and paired objects have the same keys in
the same order. For values with distinct keys this is isomorphism (`Value.copied_iff_isomorphic`).

Whatever is read from a value is read from a copy in the same order, and what fails there fails here in the same way: the
parts (`Value.Copied.members`), what a pointer designates (`Value.Copied.resolve`), the issues that a schema raises
(`Value.Copied.check`).
-/

namespace JsonSchema

/-- Two values whose keys are distinct differ only in the numbers of their nodes and the tag of their graphs. -/
structure Value.Copied (v w : Value) : Prop where
  left : v.graph.WellFormed
  right : w.graph.WellFormed
  paired : ∃ R, PairedBy Node.SameScalar R v w ∧ ∀ {a b}, R a b → (w.atNode b).keys = (v.atNode a).keys

/-! ### Lists whose members are related -/

section

variable {α β γ : Type} {R : α → β → Prop} {l : List α} {m : List β}

theorem rel_getElem? (h : List.Forall₂ R l m) (index : Nat) : Option.Rel R l[index]? m[index]? := by
  induction h generalizing index with
  | nil => exact .none
  | cons hab _ ih =>
    cases index with
    | zero => exact .some hab
    | succ index => exact ih index

theorem rel_lookup {l : List (String × α)} {m : List (String × β)}
    (h : List.Forall₂ (fun a b => a.1 = b.1 ∧ R a.2 b.2) l m) (key : String) :
    Option.Rel R (l.lookup key) (m.lookup key) := by
  induction h with
  | nil => exact .none
  | @cons a b l m hab _ ih =>
    obtain ⟨k, x⟩ := a
    obtain ⟨k', y⟩ := b
    obtain ⟨rfl, hxy⟩ := hab
    rw [lookup_cons_eq, lookup_cons_eq]
    split
    · exact .some hxy
    · exact ih

theorem rel_zipIdx (h : List.Forall₂ R l m) (start : Nat) :
    List.Forall₂ (fun a b => R a.1 b.1 ∧ a.2 = b.2) (l.zipIdx start) (m.zipIdx start) := by
  induction h generalizing start with
  | nil => exact .nil
  | cons hab _ ih => exact .cons ⟨hab, rfl⟩ (ih (start + 1))

theorem flatMap_congr_of_forall₂ {f : α → List γ} {g : β → List γ} (h : List.Forall₂ R l m)
    (hfg : ∀ a b, R a b → g b = f a) : m.flatMap g = l.flatMap f := by
  induction h with
  | nil => rfl
  | cons hab _ ih => rw [List.flatMap_cons, List.flatMap_cons, hfg _ _ hab, ih]

/-- Members that agree and have the same keys in the same order are related one by one. -/
theorem Members.Agree.forall₂ {R : Nat → Nat → Prop} {l r : List (String × Nat)} (h : Members.Agree R l r)
    (hkeys : r.map (·.1) = l.map (·.1)) (hr : (r.map (·.1)).Nodup) :
    List.Forall₂ (fun a b => a.1 = b.1 ∧ R a.2 b.2) l r := by
  refine List.forall₂_iff_get.mpr ⟨h.1, fun i hl hi => ?_⟩
  have hkey : l[i].1 = r[i].1 := by
    have := congrArg (·[i]?) hkeys
    simpa [List.getElem?_eq_getElem hl, List.getElem?_eq_getElem hi] using this.symm
  obtain ⟨id, hid, hR⟩ := h.2 _ (List.getElem_mem hl)
  have hid' : r.lookup r[i].1 = some r[i].2 := lookup_of_mem hr (List.getElem_mem hi)
  rw [hkey, Option.mem_def, hid'] at hid
  cases hid
  exact ⟨hkey, hR⟩

end

/-! ### Nodes that match -/

namespace Node

variable {R Q : Nat → Nat → Prop} {n m : Node}

theorem matches_cases (h : n.Matches R m) :
    (∃ ids ids', n = .array ids ∧ m = .array ids' ∧ List.Forall₂ R ids ids') ∨
    (∃ l r, n = .object l ∧ m = .object r ∧ List.Forall₂ (fun a b => a.1 = b.1 ∧ R a.2 b.2) l r) ∨
    (∃ l r, n = .reference l ∧ m = .reference r ∧ List.Forall₂ (fun a b => a.1 = b.1 ∧ R a.2 b.2) l r) ∨
    n.SameScalar m := by
  cases n with
  | array ids =>
    cases m with
    | array ids' => exact .inl ⟨ids, ids', rfl, rfl, h⟩
    | _ => cases h
  | object l =>
    cases m with
    | object r => exact .inr (.inl ⟨l, r, rfl, rfl, h⟩)
    | _ => cases h
  | reference l =>
    cases m with
    | reference r => exact .inr (.inr (.inl ⟨l, r, rfl, rfl, h⟩))
    | _ => cases h
  | _ => exact .inr (.inr (.inr ⟨rfl, Eq.symm h⟩))

theorem Matches.of_sameScalar (h : n.SameScalar m) : n.Matches R m := by
  obtain ⟨hn, rfl⟩ := h
  cases m <;> cases hn <;> rfl

theorem Matches.imp (h : n.Matches R m) (hRQ : ∀ a b, R a b → Q a b) : n.Matches Q m := by
  rcases matches_cases h with ⟨ids, ids', rfl, rfl, h⟩ | ⟨l, r, rfl, rfl, h⟩ | ⟨l, r, rfl, rfl, h⟩ | h
  · exact h.imp hRQ
  · exact h.imp fun a b hab => ⟨hab.1, hRQ _ _ hab.2⟩
  · exact h.imp fun a b hab => ⟨hab.1, hRQ _ _ hab.2⟩
  · exact .of_sameScalar h

theorem Matches.items (h : n.Matches R m) : List.Forall₂ R n.items m.items := by
  rcases matches_cases h with ⟨ids, ids', rfl, rfl, h⟩ | ⟨l, r, rfl, rfl, -⟩ | ⟨l, r, rfl, rfl, -⟩ | h
  · exact h
  · exact .nil
  · exact .nil
  · rw [h.2, items_of_scalar h.1]
    exact .nil

theorem Matches.members (h : n.Matches R m) :
    List.Forall₂ (fun a b => a.1 = b.1 ∧ R a.2 b.2) n.members m.members := by
  rcases matches_cases h with ⟨ids, ids', rfl, rfl, -⟩ | ⟨l, r, rfl, rfl, h⟩ | ⟨l, r, rfl, rfl, h⟩ | h
  · exact .nil
  · exact h
  · exact h
  · rw [h.2, members_of_scalar h.1]
    exact .nil

/-- The keys are the same, in the same order. -/
theorem Matches.keys (h : n.Matches R m) : m.members.map (·.1) = n.members.map (·.1) := by
  have hkeys := h.members
  generalize n.members = l at hkeys
  generalize m.members = r at hkeys
  induction hkeys with
  | nil => rfl
  | cons hab _ ih => rw [List.map_cons, List.map_cons, ih, hab.1]

theorem Matches.agree (h : n.Matches R m) (hm : (m.members.map (·.1)).Nodup) : n.Agree R m ∨ n.SameScalar m := by
  have hmembers : Members.Agree R n.members m.members := by
    refine ⟨h.members.length_eq, fun a ha => ?_⟩
    obtain ⟨b, hb, hkey, hR⟩ := exists_right_of_forall₂ h.members ha
    exact ⟨b.2, hkey ▸ lookup_of_mem hm hb, hR⟩
  rcases matches_cases h with ⟨ids, ids', rfl, rfl, h⟩ | ⟨l, r, rfl, rfl, -⟩ | ⟨l, r, rfl, rfl, -⟩ | h
  · exact .inl (.array h)
  · exact .inl (.object hmembers)
  · exact .inl (.reference hmembers)
  · exact .inr h

theorem Matches.of_agree (h : n.Agree R m ∨ n.SameScalar m) (hkeys : m.members.map (·.1) = n.members.map (·.1))
    (hm : (m.members.map (·.1)).Nodup) : n.Matches R m := by
  rcases h with h | h
  · cases h with
    | array h => exact h
    | object h => exact h.forall₂ hkeys hm
    | reference h => exact h.forall₂ hkeys hm
  · exact .of_sameScalar h

end Node

namespace Value

variable {u v w : Value}

/-! ### Isomorphism -/

/-- Counterparts are paired, if what can be reached has one each and these agree. -/
theorem pairedBy_of_counterpart {f : Nat → Nat} (hroot : Graph.Counterpart f v.graph w.graph v.id w.id)
    (hinj : Set.InjOn f v.composites) (hnode : ∀ id ∈ v.composites,
      (v.graph.node id).Agree (Graph.Counterpart f v.graph w.graph) (w.graph.node (f id))) :
    PairedBy Node.SameScalar (fun a b => v.graph.Reaches v.id a ∧ Graph.Counterpart f v.graph w.graph a b) v w := by
  refine ⟨⟨.root, hroot⟩, ?_, fun ha hab hab' => (hab.2.eq_image ha).trans (hab'.2.eq_image ha).symm, ?_⟩
  · rintro a b ⟨hreach, hab⟩
    by_cases ha : (v.graph.node a).isComposite = true
    · obtain rfl := hab.eq_image ha
      exact .inl ((hnode a ⟨hreach, ha⟩).imp_of_mem fun c hc d _ hcd => ⟨.child hreach hc, hcd⟩)
    · exact .inr ⟨by simpa using ha, hab.node_eq ha⟩
  · rintro a a' b hb ⟨hreach, hab⟩ ⟨hreach', hab'⟩
    have ha := hab.isComposite hb
    have ha' := hab'.isComposite hb
    have himage : f a = f a' := (hab.eq_image ha).symm.trans (hab'.eq_image ha')
    exact hinj ⟨hreach, ha⟩ ⟨hreach', ha'⟩ himage

/-- What is paired are counterparts by the map to partners. -/
theorem PairedBy.counterpart {R : Nat → Nat → Prop} (h : PairedBy Node.SameScalar R v w) {a b : Nat} (hab : R a b) :
    Graph.Counterpart (partner R) v.graph w.graph a b := by
  unfold Graph.Counterpart
  split
  · next ha => exact (h.partner_eq ha hab).symm
  · next ha => exact ((h.node hab).resolve_left fun hn => ha hn.isComposite.1).2

theorem copied_of_isomorphic (hv : v.graph.WellFormed) (hw : w.graph.WellFormed) (h : v.Isomorphic w) :
    v.Copied w := by
  obtain ⟨f, hf⟩ := h
  have hagree : ∀ id ∈ v.composites,
      (v.graph.node id).Agree (Graph.Counterpart f v.graph w.graph) (w.graph.node (f id)) := by
    rintro id ⟨hreach, hid⟩
    refine ((hf.node hreach hid).agree (hw.nodup_keys _)).resolve_right fun hscalar => ?_
    rw [hscalar.1] at hid
    cases hid
  refine ⟨hv, hw, _, pairedBy_of_counterpart hf.root hf.bijective.injOn hagree, ?_⟩
  rintro a b ⟨hreach, hab⟩
  by_cases ha : (v.graph.node a).isComposite = true
  · obtain rfl := hab.eq_image ha
    exact (hf.node hreach ha).keys
  · unfold Value.keys Value.node Value.atNode
    rw [hab.node_eq ha]

namespace Copied

theorem reordered (h : v.Copied w) : v.Reordered w := ⟨h.left, h.right, h.paired.imp fun _ hR => hR.1⟩

theorem refl (hv : v.graph.WellFormed) : v.Copied v :=
  ⟨hv, hv, _, paired_refl hv, fun {a b} (hab : a = b) => by rw [hab]⟩

theorem symm (h : v.Copied w) : w.Copied v := by
  obtain ⟨R, hR, hkeys⟩ := h.paired
  refine ⟨h.right, h.left, flip R, hR.symm h.left ?_, fun hab => (hkeys hab).symm⟩
  rintro n m ⟨hn, rfl⟩
  exact ⟨hn, rfl⟩

theorem trans (h : u.Copied v) (h' : v.Copied w) : u.Copied w := by
  obtain ⟨R, hR, hkeys⟩ := h.paired
  obtain ⟨Q, hQ, hkeys'⟩ := h'.paired
  refine ⟨h.left, h'.right, _, hR.comp hQ Reordered.isComposite_of_sameScalar Reordered.isComposite_of_sameScalar ?_, ?_⟩
  · rintro n m k ⟨hn, rfl⟩ ⟨-, rfl⟩
    exact ⟨hn, rfl⟩
  · rintro a c ⟨b, hab, hbc⟩
    exact (hkeys' hbc).trans (hkeys hab)

theorem isomorphic (h : v.Copied w) : v.Isomorphic w := by
  obtain ⟨R, hR, hkeys⟩ := h.paired
  refine ⟨partner R, hR.counterpart hR.root, hR.bijOn_partner h.left Reordered.isComposite_of_sameScalar, ?_⟩
  intro a hreach ha
  obtain ⟨b, -, hab, -⟩ := hR.exists_agreeing (fun _ _ hnm => hnm.1) ⟨hreach, ha⟩
  rw [hR.partner_eq ha hab]
  exact (Node.Matches.of_agree (hR.node hab) (hkeys hab) (h.right.nodup_keys b)).imp fun _ _ => hR.counterpart

end Copied

/-- **Copies are isomorphic values.** -/
theorem copied_iff_isomorphic (hv : v.graph.WellFormed) (hw : w.graph.WellFormed) : v.Copied w ↔ v.Isomorphic w :=
  ⟨Copied.isomorphic, copied_of_isomorphic hv hw⟩

namespace Copied

/-! ### Parts -/

theorem matches_node (h : v.Copied w) : v.node.Matches (fun a b => (v.atNode a).Copied (w.atNode b)) w.node := by
  obtain ⟨R, hR, hkeys⟩ := h.paired
  refine (Node.Matches.of_agree (hR.node hR.root) (hkeys hR.root) (h.right.nodup_keys _)).imp fun a b hab => ?_
  exact ⟨h.left, h.right, R, hR.atNode hab, hkeys⟩

theorem elements (h : v.Copied w) : List.Forall₂ Copied v.elements w.elements := by
  unfold Value.elements
  rw [List.forall₂_map_left_iff, List.forall₂_map_right_iff]
  exact h.matches_node.items

/-- The members are copies one by one, under the same keys. -/
theorem members (h : v.Copied w) :
    List.Forall₂ (fun m m' => m.1 = m'.1 ∧ m.2.Copied m'.2) v.members w.members := by
  unfold Value.members
  rw [List.forall₂_map_left_iff, List.forall₂_map_right_iff]
  exact h.matches_node.members

theorem at? (h : v.Copied w) (index : Nat) : Option.Rel Copied (v.at? index) (w.at? index) := by
  have hat : ∀ v : Value, v.at? index = v.elements[index]? := fun v => List.getElem?_map.symm
  rw [hat, hat]
  exact rel_getElem? h.elements index

theorem get? (h : v.Copied w) (key : String) : Option.Rel Copied (v.get? key) (w.get? key) := by
  have hget : ∀ v : Value, v.get? key = v.members.lookup key := by
    intro v
    unfold Value.get? Value.members
    induction v.node.members with
    | nil => rfl
    | cons m l ih =>
      rw [List.map_cons, lookup_cons_eq, lookup_cons_eq, ← ih]
      split <;> rfl
  rw [hget, hget]
  exact rel_lookup h.members key

theorem step (h : v.Copied w) (atom : String) : SameEnd Copied (v.step atom) (w.step atom) := by
  have hkind := h.reordered.kind
  have hlength := h.reordered.length
  unfold Value.kind at hkind
  unfold Value.length at hlength
  unfold Value.step
  cases hv : v.node <;> cases hw : w.node <;> rw [hv, hw] at hkind hlength <;> cases hkind <;> first
    | exact .error _
    | skip
  next ids ids' =>
    cases Pointer.index? atom with
    | none => exact .error _
    | some index =>
      have hat := h.at? index
      dsimp only
      generalize v.at? index = x at hat ⊢
      generalize w.at? index = y at hat ⊢
      cases hat with
      | some hxy => exact .ok hxy
      | none =>
        rw [show ids'.length = ids.length from hlength]
        exact .error _
  -- An object and a reference are both entered through their keys.
  all_goals
    have hget := h.get? atom
    dsimp only
    generalize v.get? atom = x at hget ⊢
    generalize w.get? atom = y at hget ⊢
    cases hget with
    | some hxy => exact .ok hxy
    | none => exact .error _

/-- What a pointer designates are copies, and where it designates nothing the reason is the same. -/
theorem resolve (h : v.Copied w) (p : Pointer) : SameEnd Copied (p.resolve v) (p.resolve w) := by
  have hfollow : ∀ {v w : Value} (atoms : List String) (position : Nat), v.Copied w →
      SameEnd Copied (v.follow position atoms) (w.follow position atoms) := by
    intro v w atoms position h
    induction atoms generalizing v w position with
    | nil => exact .ok h
    | cons atom atoms ih =>
      have hstep := h.step atom
      rw [Value.follow, Value.follow]
      generalize v.step atom = x at hstep ⊢
      generalize w.step atom = y at hstep ⊢
      cases hstep with
      | ok hxy => exact ih _ hxy
      | error fault => exact .error _
  have hend := hfollow p.atoms 0 h
  unfold Pointer.resolve
  generalize v.follow 0 p.atoms = x at hend ⊢
  generalize w.follow 0 p.atoms = y at hend ⊢
  cases hend with
  | ok hxy => exact .ok hxy
  | error fault => exact .error _

end Copied

end Value

/-! ### Validation -/

/-- A constraint raises the same issues if the schemas that it refers to do. -/
theorem Constraint.issues_congr {check : SchemaId → Value → Pointer → Report} {v w : Value} (h : v.Copied w)
    (hcheck : ∀ id p {x y : Value}, x.Copied y → check id y p = check id x p) (c : Constraint) (p : Pointer) :
    c.issues check w p = c.issues check v p := by
  have hsame : ∀ id, check id w p = check id v p := fun id => hcheck id p h
  cases c with
  | items schemas additional =>
    refine flatMap_congr_of_forall₂ (rel_zipIdx h.elements 0) ?_
    rintro ⟨x, index⟩ ⟨y, _⟩ ⟨hxy, rfl⟩
    dsimp only at hxy ⊢
    cases schemas.schemaAt? additional index with
    | none => rfl
    | some id => exact hcheck id _ hxy
  | properties named patterns additional =>
    refine flatMap_congr_of_forall₂ h.members ?_
    rintro ⟨key, x⟩ ⟨_, y⟩ ⟨rfl, hxy⟩
    exact List.flatMap_congr fun id _ => hcheck id _ hxy
  | allOf ids | anyOf ids | oneOf ids | not id => simp only [Constraint.issues, hsame]
  | _ => simp only [Constraint.issues, Constraint.holds_congr h.reordered]

/-- **A schema raises the same issues, in the same order, for a value and for a copy of it.** -/
theorem Value.Copied.check {v w : Value} (h : v.Copied w) (g : SchemaGraph) (limit remaining : Nat) (id : SchemaId)
    (p : Pointer) : g.check limit remaining id w p = g.check limit remaining id v p := by
  induction remaining generalizing id v w p with
  | zero => rfl
  | succ remaining ih =>
    rw [SchemaGraph.check, SchemaGraph.check]
    exact List.flatMap_congr fun c _ => c.issues_congr h (fun id p _ _ hxy => ih hxy id p) p

theorem Value.Copied.validate {v w : Value} (h : v.Copied w) (s : Schema) (maxDepth : Nat) :
    s.validate maxDepth w = s.validate maxDepth v :=
  h.check _ _ _ _ _

end JsonSchema
