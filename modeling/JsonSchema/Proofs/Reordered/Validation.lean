import JsonSchema.Proofs.Copies
import JsonSchema.Proofs.DepthLimit
import Mathlib.Data.List.Nodup

/-!
The issues of values that differ only in the order of members. Two runs visit the members in different orders, so their
reports list the issues in different orders, and each issue as often (`Value.Reordered.validate_perm`). A combination of
schemas asks of a report only whether it is empty and whether it is cut off, which does not depend on the order
(`Outcome.Same`); what a search through branches collects then is the same up to the order, too.

Values are given by an isomorphism (`Value.PermutedBy`), which is the same as a pairing of their nodes
(`Value.reordered_iff_permutedBy`).
-/

namespace JsonSchema

/-! ### Isomorphisms that may permute members -/

/-- `f` takes the arrays, objects and references of one value to those of the other, one to one and with their parts:
elements in order, members by their keys, scalars as they are. -/
structure Value.PermutedBy (f : Nat → Nat) (v w : Value) : Prop where
  root : Graph.Counterpart f v.graph w.graph v.id w.id
  bijective : Set.BijOn f v.composites w.composites
  node : ∀ id ∈ v.composites,
    Node.Correspond (Graph.Counterpart f v.graph w.graph) (v.graph.node id) (w.graph.node (f id))

namespace Value

variable {f : Nat → Nat} {v w : Value}

theorem PermutedBy.reordered (h : PermutedBy f v w) (hv : v.graph.WellFormed) (hw : w.graph.WellFormed) :
    v.Reordered w := by
  refine ⟨hv, hw, _, pairedBy_of_counterpart h.root h.bijective.injOn fun id hid => ?_⟩
  exact (Node.correspond_iff_agree (hv.nodup_keys id) (hw.nodup_keys (f id))).1 (h.node id hid)

theorem Reordered.exists_permutedBy (h : v.Reordered w) : ∃ f, PermutedBy f v w := by
  obtain ⟨R, hR⟩ := h.paired
  refine ⟨partner R, hR.counterpart hR.root, hR.bijOn_partner h.left Reordered.isComposite_of_sameScalar, ?_⟩
  intro a ha
  obtain ⟨b, -, hab, hagree⟩ := hR.exists_agreeing (fun _ _ hnm => hnm.1) ha
  rw [hR.partner_eq ha.2 hab]
  refine (Node.correspond_iff_agree (h.left.nodup_keys a) (h.right.nodup_keys b)).2 ?_
  exact hagree.imp fun _ _ => hR.counterpart

/-- For values whose keys are distinct the two ways to say it are one. -/
theorem reordered_iff_permutedBy (hv : v.graph.WellFormed) (hw : w.graph.WellFormed) :
    v.Reordered w ↔ ∃ f, PermutedBy f v w :=
  ⟨Reordered.exists_permutedBy, fun ⟨_, h⟩ => h.reordered hv hw⟩

/-! ### Members in another order -/

theorem nodup_keys_members (hv : v.graph.WellFormed) : (v.members.map (·.1)).Nodup := by
  have hkeys : v.members.map (·.1) = v.node.members.map (·.1) := by
    rw [Value.members, List.map_map]
    rfl
  rw [hkeys]
  exact hv.nodup_keys v.id

/-- Members with the same key whose values differ only in the order of members. -/
def SameMember (a b : String × Value) : Prop := a.1 = b.1 ∧ a.2.Reordered b.2

theorem keys_of_sameMember {l m : List (String × Value)} (h : List.Forall₂ SameMember l m) :
    l.map (·.1) = m.map (·.1) := by
  have hkeys : List.Forall₂ (· = ·) (l.map (·.1)) (m.map (·.1)) := by
    rw [List.forall₂_map_left_iff, List.forall₂_map_right_iff]
    exact h.imp fun _ _ hab => hab.1
  rwa [List.forall₂_eq_eq_eq] at hkeys

/-- Every member has a partner in the other value. -/
theorem Reordered.exists_partners (h : v.Reordered w) {l : List (String × Value)} (hl : l ⊆ v.members) :
    ∃ ms, List.Forall₂ SameMember l ms ∧ ms ⊆ w.members := by
  induction l with
  | nil => exact ⟨[], .nil, List.nil_subset _⟩
  | cons m l ih =>
    obtain ⟨hm, hl⟩ := List.cons_subset.mp hl
    obtain ⟨ms, hms, hsub⟩ := ih hl
    obtain ⟨y, hy, hmy⟩ := h.members hm
    exact ⟨(m.1, y) :: ms, .cons ⟨rfl, hmy⟩ hms, List.cons_subset.mpr ⟨hy, hsub⟩⟩

/-- In some order the members of one value are partners of those of the other, one by one. -/
theorem Reordered.exists_members_perm (h : v.Reordered w) :
    ∃ ms, List.Forall₂ SameMember v.members ms ∧ ms.Perm w.members := by
  obtain ⟨ms, hms, hsub⟩ := h.exists_partners (List.Subset.refl _)
  have hkeys : v.members.map (·.1) = ms.map (·.1) := keys_of_sameMember hms
  have hnodup : ms.Nodup := by
    apply List.Nodup.of_map (·.1)
    rw [← hkeys]
    exact nodup_keys_members h.left
  -- no member of the second value is left over, since its key is one of the first value
  have hback : w.members.map (·.1) ⊆ ms.map (·.1) := by
    intro key hkey
    obtain ⟨m, hm, rfl⟩ := List.mem_map.mp hkey
    obtain ⟨x, hx, -⟩ := h.symm.members hm
    rw [← hkeys]
    exact List.mem_map_of_mem (f := (·.1)) hx
  have hlength : w.members.length ≤ ms.length := by
    simpa only [List.length_map] using ((nodup_keys_members h.right).subperm hback).length_le
  exact ⟨ms, hms, (hnodup.subperm hsub).perm_of_length_le hlength⟩

end Value

/-! ### Reports in another order -/

section

variable {α β γ : Type} {R : α → β → Prop} {l : List α} {m : List β}

theorem flatMap_perm_of_forall₂ {f : α → List γ} {g : β → List γ} (h : List.Forall₂ R l m)
    (hfg : ∀ a b, R a b → (f a).Perm (g b)) : (l.flatMap f).Perm (m.flatMap g) := by
  induction h with
  | nil => exact .nil
  | cons hab _ ih =>
    rw [List.flatMap_cons, List.flatMap_cons]
    exact (hfg _ _ hab).append ih

end

theorem Report.isDepthLimited_perm {r s : Report} (h : r.Perm s) : r.isDepthLimited = s.isDepthLimited := by
  rw [Report.isDepthLimited, Report.isDepthLimited, h.isEmpty_eq, h.all_eq]

/-- Two outcomes are the same, up to the order of issues where the question is open. -/
inductive Outcome.Same : Outcome → Outcome → Prop
  | valid : Same .valid .valid
  | invalid : Same .invalid .invalid
  | undecided {r s : Report} : r.Perm s → Same (.undecided r) (.undecided s)

theorem Outcome.same_ofReport {r s : Report} (h : r.Perm s) : (Outcome.ofReport r).Same (Outcome.ofReport s) := by
  rw [Outcome.ofReport, Outcome.ofReport, h.isEmpty_eq, Report.isDepthLimited_perm h]
  split
  · exact .valid
  · split
    · exact .undecided h
    · exact .invalid

section

variable {outcome outcome' : SchemaId → Outcome} (h : ∀ id, (outcome id).Same (outcome' id))

include h

/-- The search for a branch that accepts ends alike. -/
theorem firstValid_perm (ids : List SchemaId) :
    Option.Rel List.Perm (firstValid outcome ids) (firstValid outcome' ids) := by
  induction ids with
  | nil => exact .some .nil
  | cons id ids ih =>
    have hid := h id
    rw [firstValid, firstValid]
    generalize outcome id = o at hid ⊢
    generalize outcome' id = o' at hid ⊢
    cases hid with
    | valid => exact .none
    | invalid => exact ih
    | undecided hrs =>
      dsimp only
      generalize firstValid outcome ids = x at ih ⊢
      generalize firstValid outcome' ids = y at ih ⊢
      cases ih with
      | none => exact .none
      | some hxy => exact .some (hrs.append hxy)

/-- The search for a second branch that accepts ends alike. -/
theorem singleValid_perm (found : Bool) (ids : List SchemaId) :
    Option.Rel (fun a b => a.1 = b.1 ∧ a.2.Perm b.2) (singleValid outcome found ids)
      (singleValid outcome' found ids) := by
  induction ids generalizing found with
  | nil => exact .some ⟨rfl, .nil⟩
  | cons id ids ih =>
    have hid := h id
    rw [singleValid, singleValid]
    generalize outcome id = o at hid ⊢
    generalize outcome' id = o' at hid ⊢
    cases hid with
    | valid =>
      cases found with
      | true => exact .none
      | false => exact ih true
    | invalid => exact ih found
    | undecided hrs =>
      have hrest := ih found
      dsimp only
      generalize singleValid outcome found ids = x at hrest ⊢
      generalize singleValid outcome' found ids = y at hrest ⊢
      cases hrest with
      | none => exact .none
      | some hxy => exact .some ⟨hxy.1, hrs.append hxy.2⟩

end

/-! ### Constraints -/

/-- The report of an `allOf` branch, with an issue in front if the branch rejects. -/
theorem Report.allOf_branch_perm {r s : Report} (h : r.Perm s) (i : Issue) :
    (if r.isEmpty || r.isDepthLimited then r else i :: r).Perm
      (if s.isEmpty || s.isDepthLimited then s else i :: s) := by
  rw [h.isEmpty_eq, Report.isDepthLimited_perm h]
  split
  · exact h
  · exact h.cons i

/-- A constraint raises the same issues, up to their order, if the schemas that it refers to do. -/
theorem Constraint.issues_perm {check : SchemaId → Value → Pointer → Report} {v w : Value} (h : v.Reordered w)
    (hcheck : ∀ id p {x y : Value}, x.Reordered y → (check id x p).Perm (check id y p)) (c : Constraint) (p : Pointer) :
    (c.issues check v p).Perm (c.issues check w p) := by
  have hsame : ∀ id, (Outcome.ofReport (check id v p)).Same (Outcome.ofReport (check id w p)) := fun id =>
    Outcome.same_ofReport (hcheck id p h)
  cases c with
  | items schemas additional =>
    refine flatMap_perm_of_forall₂ (rel_zipIdx h.elements 0) ?_
    rintro ⟨x, index⟩ ⟨y, _⟩ ⟨hxy, rfl⟩
    dsimp only at hxy ⊢
    cases schemas.schemaAt? additional index with
    | none => exact .nil
    | some id => exact hcheck id _ hxy
  | properties named patterns additional =>
    obtain ⟨ms, hms, hperm⟩ := h.exists_members_perm
    refine (flatMap_perm_of_forall₂ hms ?_).trans (hperm.flatMap_right _)
    rintro ⟨key, x⟩ ⟨_, y⟩ ⟨rfl, hxy⟩
    exact .flatMap_left _ fun id _ => hcheck id _ hxy
  | allOf ids => exact .flatMap_left _ fun id _ => Report.allOf_branch_perm (hcheck id p h) _
  | anyOf ids =>
    have hfirst := firstValid_perm hsame ids
    unfold Constraint.issues
    dsimp only
    generalize firstValid (fun id => Outcome.ofReport (check id v p)) ids = x at hfirst ⊢
    generalize firstValid (fun id => Outcome.ofReport (check id w p)) ids = y at hfirst ⊢
    cases hfirst with
    | none => exact .nil
    | some hxy =>
      dsimp only
      rw [hxy.isEmpty_eq]
      split
      · exact .refl _
      · exact hxy
  | oneOf ids =>
    have hsingle := singleValid_perm hsame false ids
    unfold Constraint.issues
    dsimp only
    generalize singleValid (fun id => Outcome.ofReport (check id v p)) false ids = x at hsingle ⊢
    generalize singleValid (fun id => Outcome.ofReport (check id w p)) false ids = y at hsingle ⊢
    cases hsingle with
    | none => exact .refl _
    | @some a b hxy =>
      obtain ⟨one, r⟩ := a
      obtain ⟨_, s⟩ := b
      obtain ⟨rfl, hrs⟩ := hxy
      dsimp only at hrs ⊢
      rw [hrs.isEmpty_eq]
      split
      · exact .refl _
      · exact hrs
  | not id =>
    have hid := hsame id
    unfold Constraint.issues
    dsimp only
    generalize Outcome.ofReport (check id v p) = o at hid ⊢
    generalize Outcome.ofReport (check id w p) = o' at hid ⊢
    cases hid with
    | valid => exact .refl _
    | invalid => exact .nil
    | undecided hrs => exact hrs
  | _ => simp only [Constraint.issues, Constraint.holds_congr h, List.Perm.refl]

/-! ### Schemas -/

/-- A schema raises the same issues, up to their order, at every place and every depth. -/
theorem Value.Reordered.check_perm {v w : Value} (h : v.Reordered w) (g : SchemaGraph) (limit remaining : Nat)
    (id : SchemaId) (p : Pointer) : (g.check limit remaining id v p).Perm (g.check limit remaining id w p) := by
  induction remaining generalizing id v w p with
  | zero => exact .refl _
  | succ remaining ih =>
    rw [SchemaGraph.check, SchemaGraph.check]
    exact .flatMap_left _ fun c _ => c.issues_perm h (fun id p _ _ hxy => ih hxy id p) p

theorem Value.Reordered.validate_perm {v w : Value} (h : v.Reordered w) (s : Schema) (maxDepth : Nat) :
    (s.validate maxDepth v).Perm (s.validate maxDepth w) :=
  h.check_perm _ _ _ _ _

/-- **Validation depends neither on the order of members nor on how a value is laid out.** For values that an
isomorphism takes to each other, which may permute the members of any objects, a schema raises the same issues, each as
often; so one is valid if and only if the other is. -/
theorem validate_perm_of_permutedBy (s : Schema) (maxDepth : Nat) {v w : Value} (hv : v.graph.WellFormed)
    (hw : w.graph.WellFormed) (h : ∃ f, Value.PermutedBy f v w) :
    ((s.validate maxDepth v).map fun i => (i.pointer, i.keyword, i.message)).Perm
        ((s.validate maxDepth w).map fun i => (i.pointer, i.keyword, i.message)) ∧
      (s.validate maxDepth v = [] ↔ s.validate maxDepth w = []) := by
  have hperm := ((Value.reordered_iff_permutedBy hv hw).2 h).validate_perm s maxDepth
  refine ⟨hperm.map _, fun hnil => ?_, fun hnil => ?_⟩
  · rw [hnil] at hperm
    exact hperm.nil_eq.symm
  · rw [hnil] at hperm
    exact hperm.eq_nil

/-- The endless chain with its nodes and members in another order. -/
def turnedChain : Value := ⟨⟨4, #[.boolean true, .object [("last", 0), ("next", 1)]]⟩, 1⟩

theorem reordered_turnedChain : endlessChain.Reordered turnedChain := by
  refine ⟨by decide, by decide, fun a b => a = 0 ∧ b = 1 ∨ a = 1 ∧ b = 0, .inl ⟨rfl, rfl⟩, ?_, ?_, ?_⟩
  · rintro a b (⟨rfl, rfl⟩ | ⟨rfl, rfl⟩)
    · refine .inl (.object ⟨rfl, fun m hm => ?_⟩)
      rcases List.mem_pair.mp hm with rfl | rfl
      · exact ⟨1, rfl, .inl ⟨rfl, rfl⟩⟩
      · exact ⟨0, rfl, .inr ⟨rfl, rfl⟩⟩
    · exact .inr ⟨rfl, rfl⟩
  · omega
  · omega

/-- The end of the endless chain is found wrong first or last. -/
theorem validate_turnedChain_perm :
    endlessChain.graph.WellFormed ∧ turnedChain.graph.WellFormed ∧ (∃ f, Value.PermutedBy f endlessChain turnedChain) ∧
      (chainSchema.validate 1 endlessChain).map Issue.keyword = ["depth", "depth", "type"] ∧
      (chainSchema.validate 1 turnedChain).map Issue.keyword = ["type", "depth", "depth"] ∧
      ((chainSchema.validate 1 endlessChain).map fun i => (i.pointer, i.keyword, i.message)).Perm
        ((chainSchema.validate 1 turnedChain).map fun i => (i.pointer, i.keyword, i.message)) := by
  have hv : endlessChain.graph.WellFormed := by decide
  have hw : turnedChain.graph.WellFormed := by decide
  have h := reordered_turnedChain.exists_permutedBy
  exact ⟨hv, hw, h, by decide, by decide, (validate_perm_of_permutedBy chainSchema 1 hv hw h).1⟩

end JsonSchema
