import JsonSchema.Proofs.DepthLimit
import JsonSchema.Proofs.Places
import Mathlib.Data.List.Perm.Basic

/-!
Which issues a value has, and where they lie. A constraint on parts and an `allOf` pass the issues of the schemas they
refer to on; every other constraint settles on one issue of its own. So the broken constraints that a check reports are
found without looking at a report: walk through items, members and branches of `allOf` for as many steps as the depth
limit allows, and at every visit take the issues of the constraints that are false there. `broken_check` says that this
gives the issues of a check up to their order, each as often as there are walks to it.

Excesses of the depth come from schemas under `anyOf`, `oneOf` and `not` too. Whatever schema an issue comes from, the
pointer is extended along with the value, so it leads from the whole value to the instance that was checked
(`Visits.located`), and every step adds one atom at most.
-/

namespace JsonSchema

/-! ### Visits -/

/-- A schema that a check comes to, with the value it is asked about and where that lies. -/
structure Visit where
  schema : SchemaId
  value : Value
  pointer : Pointer

namespace Constraint

variable (c : Constraint) (v : Value) (p : Pointer)

/-- The visits whose issues a constraint passes on: those of items, of members and of the branches of an `allOf`. -/
def onward : List Visit :=
  match c with
  | .items schemas additional =>
    v.elements.zipIdx.flatMap fun (element, index) =>
      (schemas.schemaAt? additional index).toList.map (⟨·, element, p.childIndex index⟩)
  | .properties named patterns additional =>
    v.members.flatMap fun (key, member) =>
      (coveringSchemas named patterns additional key).map (⟨·, member, p.child key⟩)
  | .allOf schemas => schemas.map (⟨·, v, p⟩)
  | _ => []

/-- All visits that a constraint makes. -/
def visits : List Visit :=
  match c with
  | .anyOf schemas => schemas.map (⟨·, v, p⟩)
  | .oneOf schemas => schemas.map (⟨·, v, p⟩)
  | .not schema => [⟨schema, v, p⟩]
  | _ => c.onward v p

/-- The issues that a constraint makes itself, where `below` gives the verdicts of the schemas it refers to: none if it
is about items or members, one for each false branch of an `allOf`, and else one if it is false. -/
def ownIssues (below : SchemaId → Value → Verdict) : Report :=
  match c with
  | .items .. => []
  | .properties .. => []
  | .allOf schemas => schemas.flatMap fun id => if below id v = .invalid then [.broken p c] else []
  | _ => if c.verdict below v = .invalid then [.broken p c] else []

end Constraint

namespace SchemaGraph

variable (g : SchemaGraph)

/-- The visits one step on from a visit, through items, members and branches of `allOf`. -/
def onward (x : Visit) : List Visit :=
  (g.node x.schema).constraints.flatMap fun c => c.onward x.value x.pointer

/-- The visits that are reached by a number of such steps, each as often as there are ways to it. -/
def walks : Nat → Visit → List Visit
  | 0, x => [x]
  | steps + 1, x => (g.onward x).flatMap (walks steps)

/-- The issues that the constraints of a schema make themselves at a visit. -/
def ownIssues (maxDepth depth : Nat) (x : Visit) : Report :=
  (g.node x.schema).constraints.flatMap fun c =>
    c.ownIssues x.value x.pointer (g.verdict maxDepth (depth + 1))

/-- The visits that a check makes, at any depth. -/
inductive Visits (start : Visit) : Nat → Visit → Prop
  | start : Visits start 0 start
  | step {depth x y c} : Visits start depth x → c ∈ (g.node x.schema).constraints →
    y ∈ c.visits x.value x.pointer → Visits start (depth + 1) y

end SchemaGraph

/-! ### Broken constraints -/

theorem flatMap_comm_perm {α β γ : Type} (l : List α) (m : List β) (f : α → β → List γ) :
    (l.flatMap fun a => m.flatMap (f a)).Perm (m.flatMap fun b => l.flatMap (f · b)) := by
  induction l with
  | nil => simp
  | cons a l ih =>
    simp only [List.flatMap_cons]
    exact (ih.append_left _).trans (List.flatMap_append_perm m (f a) fun b => l.flatMap (f · b))

namespace Report

theorem broken_flatMap {α : Type} (l : List α) (f : α → Report) :
    broken (l.flatMap f) = l.flatMap fun a => (f a).broken := List.filter_flatMap ..

theorem broken_of_settles {t : Verdict} {p : Pointer} {c : Constraint} {r : Report} (h : r.Settles t (.broken p c)) :
    r.broken = if t = .invalid then [.broken p c] else [] := by
  cases t with
  | valid => rw [show r = [] from h]; rfl
  | invalid => rw [show r = [.broken p c] from h]; rfl
  | unknown => exact broken_eq_nil_iff.2 (verdict_eq_unknown_iff.1 h).2

end Report

section Issues

variable {check : SchemaId → Value → Pointer → Report} {below : SchemaId → Value → Verdict}

theorem broken_allOf_branch {t : Verdict} {p : Pointer} {c : Constraint} {r : Report} (h : r.verdict = t) :
    Report.broken (if r.isEmpty || r.isDepthLimited then r else .broken p c :: r) =
      (if t = .invalid then [.broken p c] else []) ++ r.broken := by
  subst h
  unfold Report.verdict
  cases r.isEmpty <;> cases r.isDepthLimited <;> simp [Report.broken, Issue.broken, Issue.of, Violation.isTooDeep]

/-- The broken constraints that a constraint reports are its own and those it passes on. -/
theorem broken_issues (h : ∀ id v p, (check id v p).verdict = below id v) (c : Constraint) (v : Value) (p : Pointer) :
    (c.issues check v p).broken.Perm
      (c.ownIssues v p below ++ (c.onward v p).flatMap fun y => (check y.schema y.value y.pointer).broken) := by
  cases hc : c.isConjunctive with
  | false =>
    have hown : c.ownIssues v p below = if c.verdict below v = .invalid then [.broken p c] else [] := by
      cases c <;> first | rfl | exact absurd hc (by simp [Constraint.isConjunctive])
    have honward : c.onward v p = [] := by
      cases c <;> first | rfl | exact absurd hc (by simp [Constraint.isConjunctive])
    rw [Report.broken_of_settles (settles_issues hc fun id => h id v p), hown, honward]
    simp
  | true =>
    cases c with
    | items schemas additional =>
      refine .of_eq ?_
      simp only [Constraint.issues, Constraint.ownIssues, Constraint.onward, Report.broken_flatMap, List.nil_append,
        List.flatMap_assoc]
      refine List.flatMap_congr fun x _ => ?_
      cases schemas.schemaAt? additional x.2 <;> simp [Report.broken]
    | properties named patterns additional =>
      refine .of_eq ?_
      simp only [Constraint.issues, Constraint.ownIssues, Constraint.onward, Report.broken_flatMap, List.nil_append,
        List.flatMap_assoc, List.flatMap_map, memberSchemas_eq]
    | allOf schemas =>
      simp only [Constraint.issues, Constraint.ownIssues, Constraint.onward, Report.broken_flatMap, List.flatMap_map,
        broken_allOf_branch (h _ v p)]
      exact (List.flatMap_append_perm ..).symm
    | _ => exact absurd hc (by simp [Constraint.isConjunctive])

end Issues

open scoped List in
/-- The broken constraints that a check reports are those that are false at the visits of its walks. -/
theorem broken_check (g : SchemaGraph) (maxDepth remaining depth : Nat) (hd : remaining + depth = maxDepth + 1)
    (x : Visit) :
    (g.check maxDepth remaining x.schema x.value x.pointer).broken.Perm
      ((List.range remaining).flatMap fun steps =>
        (g.walks steps x).flatMap (g.ownIssues maxDepth (depth + steps))) := by
  induction remaining generalizing depth x with
  | zero => exact .refl _
  | succ remaining ih =>
    -- The visits one step on share the walks, so the walks of each length are collected over all of them.
    have hnext : ((g.onward x).flatMap fun y => (g.check maxDepth remaining y.schema y.value y.pointer).broken).Perm
        ((List.range remaining).flatMap fun steps =>
          (g.walks (steps + 1) x).flatMap (g.ownIssues maxDepth (depth + (steps + 1)))) := by
      refine (List.Perm.flatMap_left _ fun y _ => ih (depth + 1) (by omega) y).trans
        ((flatMap_comm_perm ..).trans (.of_eq ?_))
      refine List.flatMap_congr fun steps _ => ?_
      rw [SchemaGraph.walks, List.flatMap_assoc, Nat.add_assoc, Nat.add_comm 1]
    calc (g.check maxDepth (remaining + 1) x.schema x.value x.pointer).broken
      _ = (g.node x.schema).constraints.flatMap fun c =>
          (c.issues (g.check maxDepth remaining) x.value x.pointer).broken := Report.broken_flatMap ..
      _ ~ (g.node x.schema).constraints.flatMap fun c =>
          c.ownIssues x.value x.pointer (g.verdict maxDepth (depth + 1)) ++
            (c.onward x.value x.pointer).flatMap fun y =>
              (g.check maxDepth remaining y.schema y.value y.pointer).broken :=
        List.Perm.flatMap_left _ fun c _ =>
          broken_issues (verdict_check g maxDepth remaining (depth + 1) (by omega)) c _ _
      _ ~ g.ownIssues maxDepth depth x ++ (g.onward x).flatMap fun y =>
            (g.check maxDepth remaining y.schema y.value y.pointer).broken := by
        rw [SchemaGraph.onward, List.flatMap_assoc]
        exact (List.flatMap_append_perm ..).symm
      _ ~ (List.range (remaining + 1)).flatMap fun steps =>
          (g.walks steps x).flatMap (g.ownIssues maxDepth (depth + steps)) := by
        rw [List.range_succ_eq_map, List.flatMap_cons, List.flatMap_map]
        exact (List.Perm.of_eq (by simp [SchemaGraph.walks])).append hnext

/-! ### Where issues lie -/

section Origin

variable {outcome : SchemaId → Outcome} {ids : List SchemaId} {r : Report} {i : Issue}

theorem Outcome.eq_of_ofReport {r s : Report} (h : Outcome.ofReport r = .undecided s) : r = s := by
  unfold Outcome.ofReport at h
  split at h
  · cases h
  · split at h
    · exact Outcome.undecided.inj h
    · cases h

/-- What the search for a branch that accepts leaves over are issues of the branches. -/
theorem mem_firstValid (h : firstValid outcome ids = some r) (hi : i ∈ r) :
    ∃ id ∈ ids, ∃ s, outcome id = .undecided s ∧ i ∈ s := by
  induction ids generalizing r with
  | nil =>
    cases h
    cases hi
  | cons id ids ih =>
    rw [firstValid] at h
    cases ho : outcome id with
    | valid => simp [ho] at h
    | invalid =>
      obtain ⟨id', hid, hs⟩ := ih (by simpa [ho] using h) hi
      exact ⟨id', List.mem_cons_of_mem _ hid, hs⟩
    | undecided s =>
      obtain ⟨rest, hrest, rfl⟩ : ∃ rest, firstValid outcome ids = some rest ∧ s ++ rest = r := by simpa [ho] using h
      rcases List.mem_append.mp hi with hi | hi
      · exact ⟨id, List.mem_cons_self, s, ho, hi⟩
      · obtain ⟨id', hid, hs⟩ := ih hrest hi
        exact ⟨id', List.mem_cons_of_mem _ hid, hs⟩

/-- What the search for a second branch that accepts leaves over are issues of the branches. -/
theorem mem_singleValid {found one : Bool} (h : singleValid outcome found ids = some (one, r)) (hi : i ∈ r) :
    ∃ id ∈ ids, ∃ s, outcome id = .undecided s ∧ i ∈ s := by
  induction ids generalizing r found with
  | nil =>
    cases h
    cases hi
  | cons id ids ih =>
    have hlater : ∀ {found r}, singleValid outcome found ids = some (one, r) → i ∈ r →
        ∃ id' ∈ id :: ids, ∃ s, outcome id' = .undecided s ∧ i ∈ s := fun h hi => by
      obtain ⟨id', hid, hs⟩ := ih h hi
      exact ⟨id', List.mem_cons_of_mem _ hid, hs⟩
    rw [singleValid] at h
    cases ho : outcome id with
    | valid =>
      cases found with
      | true => simp only [ho, if_true, reduceCtorEq] at h
      | false =>
        simp only [ho, Bool.false_eq_true, if_false] at h
        exact hlater h hi
    | invalid => exact hlater (by simpa [ho] using h) hi
    | undecided s =>
      rw [ho] at h
      obtain ⟨⟨_, rest⟩, hrest, heq⟩ := Option.map_eq_some_iff.mp h
      cases heq
      rcases List.mem_append.mp hi with hi | hi
      · exact ⟨id, List.mem_cons_self, s, ho, hi⟩
      · exact hlater hrest hi

/-- An issue of a constraint is its own or one of a visit. -/
theorem mem_issues {check : SchemaId → Value → Pointer → Report} {c : Constraint} {v : Value} {p : Pointer}
    (hi : i ∈ c.issues check v p) :
    i = .broken p c ∨ ∃ y ∈ c.visits v p, i ∈ check y.schema y.value y.pointer := by
  cases c with
  | items schemas additional =>
    obtain ⟨x, hx, hi⟩ := List.mem_flatMap.mp hi
    cases hs : schemas.schemaAt? additional x.2 with
    | none => simp [hs] at hi
    | some id =>
      refine .inr ⟨⟨id, x.1, p.childIndex x.2⟩, List.mem_flatMap.mpr ⟨x, hx, by simp [hs]⟩, ?_⟩
      simpa [hs] using hi
  | properties named patterns additional =>
    obtain ⟨x, hx, hi⟩ := List.mem_flatMap.mp hi
    obtain ⟨id, hid, hi⟩ := List.mem_flatMap.mp hi
    rw [memberSchemas_eq] at hid
    exact .inr ⟨⟨id, x.2, p.child x.1⟩, List.mem_flatMap.mpr ⟨x, hx, List.mem_map.mpr ⟨id, hid, rfl⟩⟩, hi⟩
  | allOf ids =>
    obtain ⟨id, hid, hi⟩ := List.mem_flatMap.mp hi
    have hvisit : (⟨id, v, p⟩ : Visit) ∈ (Constraint.allOf ids).visits v p := List.mem_map.mpr ⟨id, hid, rfl⟩
    dsimp only at hi
    split at hi
    · exact .inr ⟨_, hvisit, hi⟩
    · exact (List.mem_cons.mp hi).imp_right fun hi => ⟨_, hvisit, hi⟩
  | anyOf ids =>
    simp only [Constraint.issues] at hi
    split at hi
    · cases hi
    · next r hr =>
      split at hi
      · exact .inl (List.mem_singleton.mp hi)
      · obtain ⟨id, hid, s, hs, his⟩ := mem_firstValid hr hi
        exact .inr ⟨⟨id, v, p⟩, List.mem_map.mpr ⟨id, hid, rfl⟩, Outcome.eq_of_ofReport hs ▸ his⟩
  | oneOf ids =>
    simp only [Constraint.issues] at hi
    split at hi
    · exact .inl (List.mem_singleton.mp hi)
    · next one r hr =>
      split at hi
      · split at hi
        · cases hi
        · exact .inl (List.mem_singleton.mp hi)
      · obtain ⟨id, hid, s, hs, his⟩ := mem_singleValid hr hi
        exact .inr ⟨⟨id, v, p⟩, List.mem_map.mpr ⟨id, hid, rfl⟩, Outcome.eq_of_ofReport hs ▸ his⟩
  | not id =>
    simp only [Constraint.issues] at hi
    split at hi
    · exact .inl (List.mem_singleton.mp hi)
    · cases hi
    · next s hs =>
      exact .inr ⟨⟨id, v, p⟩, List.mem_singleton_self _, Outcome.eq_of_ofReport hs ▸ hi⟩
  | _ =>
    simp only [Constraint.issues] at hi
    split at hi
    · cases hi
    · exact .inl (List.mem_singleton.mp hi)

end Origin

/-- A constraint that reports a broken constraint is false. -/
theorem verdict_of_broken_mem {check : SchemaId → Value → Pointer → Report} {below : SchemaId → Value → Verdict}
    (h : ∀ id v p, (check id v p).verdict = below id v) {c : Constraint} {v : Value} {p : Pointer}
    (hi : .broken p c ∈ c.issues check v p) : c.verdict below v = .invalid :=
  (verdict_issues h c v p).symm.trans (Report.verdict_eq_invalid_iff.2 ⟨_, hi, rfl⟩)

namespace SchemaGraph

/-- An issue tells what was found at a visit at some depth: a constraint of its schema that is false there, or that it
lies beyond the limit. -/
def Finds (g : SchemaGraph) (maxDepth depth : Nat) (x : Visit) (i : Issue) : Prop :=
  (depth ≤ maxDepth ∧ ∃ c ∈ (g.node x.schema).constraints, i = .broken x.pointer c ∧
    c.verdict (g.verdict maxDepth (depth + 1)) x.value = .invalid) ∨
  (depth = maxDepth + 1 ∧ i = .tooDeep x.pointer maxDepth)

/-- Every issue of a check was found at a visit. -/
theorem exists_finds {g : SchemaGraph} {maxDepth remaining depth : Nat} (hd : remaining + depth = maxDepth + 1)
    {start x : Visit} (hx : g.Visits start depth x) {i : Issue}
    (hi : i ∈ g.check maxDepth remaining x.schema x.value x.pointer) :
    ∃ depth y, g.Visits start depth y ∧ g.Finds maxDepth depth y i := by
  induction remaining generalizing depth x with
  | zero => exact ⟨depth, x, hx, .inr ⟨by omega, List.mem_singleton.mp hi⟩⟩
  | succ remaining ih =>
    obtain ⟨c, hc, hi⟩ := List.mem_flatMap.mp hi
    rcases mem_issues hi with rfl | ⟨y, hy, hiy⟩
    · have hfalse := verdict_of_broken_mem (verdict_check g maxDepth remaining (depth + 1) (by omega)) hi
      exact ⟨depth, x, hx, .inl ⟨by omega, c, hc, rfl, hfalse⟩⟩
    · exact ih (by omega) (hx.step hc hy) hiy

end SchemaGraph

namespace Visit

/-- The pointer of a visit leads from the whole value to the instance that is asked about. -/
def Located (root : Value) (x : Visit) : Prop :=
  x.pointer.resolve root = .ok x.value ∧ x.value.graph = root.graph

end Visit

/-- A constraint visits the value itself, its elements or its members, and extends the pointer along with it. -/
theorem mem_visits {c : Constraint} {v : Value} {p : Pointer} {y : Visit} (hy : y ∈ c.visits v p) :
    (y.value = v ∧ y.pointer = p) ∨
    (∃ index, (y.value, index) ∈ v.elements.zipIdx ∧ y.pointer = p.childIndex index) ∨
    (∃ key, (key, y.value) ∈ v.members ∧ y.pointer = p.child key) := by
  cases c with
  | items schemas additional =>
    obtain ⟨x, hx, hy⟩ := List.mem_flatMap.mp hy
    obtain ⟨id, -, rfl⟩ := List.mem_map.mp hy
    exact .inr (.inl ⟨x.2, hx, rfl⟩)
  | properties named patterns additional =>
    obtain ⟨x, hx, hy⟩ := List.mem_flatMap.mp hy
    obtain ⟨id, -, rfl⟩ := List.mem_map.mp hy
    exact .inr (.inr ⟨x.1, hx, rfl⟩)
  | allOf ids | anyOf ids | oneOf ids =>
    obtain ⟨id, -, rfl⟩ := List.mem_map.mp hy
    exact .inl ⟨rfl, rfl⟩
  | not id =>
    cases List.mem_singleton.mp hy
    exact .inl ⟨rfl, rfl⟩
  | _ => cases hy

section Located

variable {g : SchemaGraph} {root : Value}

theorem Visit.Located.visits (hw : root.graph.WellFormed)
    (hsize : ∀ id, (root.graph.node id).items.length ≤ Pointer.indexLimit) {c : Constraint} {x y : Visit}
    (hx : x.Located root) (hy : y ∈ c.visits x.value x.pointer) :
    y.Located root ∧ y.pointer.length ≤ x.pointer.length + 1 := by
  obtain ⟨hresolve, hgraph⟩ := hx
  rcases mem_visits hy with ⟨hv, hp⟩ | ⟨index, hmem, hp⟩ | ⟨key, hmem, hp⟩
  · exact ⟨⟨by rw [hv, hp, hresolve], by rw [hv, hgraph]⟩, by rw [hp]; omega⟩
  · have hat : x.value.at? index = some y.value := Value.at?_of_mem_zipIdx hmem
    have hindex : index < Pointer.indexLimit := Nat.lt_of_lt_of_le (Value.lt_of_at? hat) (by
      simpa [Value.node, hgraph] using hsize x.value.id)
    refine ⟨⟨?_, (Value.graph_of_at? hat).trans hgraph⟩, ?_⟩
    · rw [hp]
      exact Value.resolve_child hresolve (Value.step_of_at? hat hindex)
    · simp [hp, Pointer.childIndex, Pointer.child, Pointer.length]
  · have hget : x.value.get? key = some y.value := Value.get?_of_mem_members (hgraph ▸ hw) hmem
    refine ⟨⟨?_, (Value.graph_of_get? hget).trans hgraph⟩, ?_⟩
    · rw [hp]
      exact Value.resolve_child hresolve (Value.step_of_get? hget)
    · simp [hp, Pointer.child, Pointer.length]

/-- Every visit is located, and its pointer has at most as many atoms as there were steps to it. -/
theorem SchemaGraph.Visits.located (hw : root.graph.WellFormed)
    (hsize : ∀ id, (root.graph.node id).items.length ≤ Pointer.indexLimit) {schema : SchemaId} {depth : Nat} {x : Visit}
    (h : g.Visits ⟨schema, root, .root⟩ depth x) : x.Located root ∧ x.pointer.length ≤ depth := by
  induction h with
  | start => exact ⟨⟨rfl, rfl⟩, Nat.le_refl _⟩
  | step _ _ hy ih =>
    obtain ⟨hlocated, hlength⟩ := ih.1.visits hw hsize hy
    exact ⟨hlocated, by omega⟩

end Located

/-- **Issues are sound, complete and well located.** The issues that are no excesses of the depth are those that the
constraints make themselves at the visits of all walks within the depth limit, each as often as there are walks to it.
Every issue was found at a visit: its pointer leads to the very instance that was checked there, and has one atom more
than the depth limit at most. -/
theorem validate_located (s : Schema) (maxDepth : Nat) {v : Value} (hw : v.graph.WellFormed)
    (hsize : ∀ id, (v.graph.node id).items.length ≤ Pointer.indexLimit) :
    ((s.validate maxDepth v).filter (·.keyword ≠ "depth")).Perm
      ((List.range (maxDepth + 1)).flatMap fun steps =>
        (s.graph.walks steps ⟨s.id, v, .root⟩).flatMap (s.graph.ownIssues maxDepth steps)) ∧
    ∀ i ∈ s.validate maxDepth v, ∃ depth x, s.graph.Visits ⟨s.id, v, .root⟩ depth x ∧
      s.graph.Finds maxDepth depth x i ∧ i.pointer.resolve v = .ok x.value ∧ i.pointer.length ≤ maxDepth + 1 := by
  have hfilter : (s.validate maxDepth v).filter (·.keyword ≠ "depth") = (s.validate maxDepth v).broken :=
    List.filter_congr fun i _ => by simp [← isTooDeep_iff_keyword]
  refine ⟨?_, fun i hi => ?_⟩
  · have hbroken := broken_check s.graph maxDepth (maxDepth + 1) 0 rfl ⟨s.id, v, .root⟩
    simp only [Nat.zero_add] at hbroken
    exact hfilter ▸ hbroken
  · have hd : maxDepth + 1 + 0 = maxDepth + 1 := rfl
    obtain ⟨depth, x, hx, hfinds⟩ := SchemaGraph.exists_finds (x := ⟨s.id, v, .root⟩) hd .start hi
    obtain ⟨⟨hresolve, -⟩, hlength⟩ := hx.located hw hsize
    refine ⟨depth, x, hx, hfinds, ?_⟩
    rcases hfinds with ⟨hdepth, c, -, rfl, -⟩ | ⟨hdepth, rfl⟩
    · exact ⟨hresolve, Nat.le_trans hlength (by omega)⟩
    · exact ⟨hresolve, Nat.le_trans hlength (by omega)⟩

/-- A schema of arrays whose items have to be strings, twice over. -/
def doubledSchema : Schema :=
  ⟨⟨firstFreeTag, #[{}, { constraints := [.items (.single ⟨2⟩) none] }, { constraints := [.allOf [⟨3⟩, ⟨3⟩]] },
    { constraints := [.type [.string]] }]⟩, ⟨1⟩⟩

/-- An array with a number in it. -/
def numberArray : Value := ⟨⟨3, #[.array [1], .integer 1]⟩, 0⟩

theorem wellFormed_numberArray : numberArray.graph.WellFormed := by decide

/-- Both branches report the number, and each is reported itself; every issue leads to the instance it was found at. -/
theorem validate_numberArray_located :
    numberArray.graph.WellFormed ∧ (∀ id, (numberArray.graph.node id).items.length ≤ Pointer.indexLimit) ∧
    (doubledSchema.validate 2 numberArray).map (fun i => (i.pointer.atoms, i.keyword)) =
      [(["0"], "allOf"), (["0"], "type"), (["0"], "allOf"), (["0"], "type")] ∧
    ∀ i ∈ doubledSchema.validate 2 numberArray, ∃ depth x,
      doubledSchema.graph.Visits ⟨⟨1⟩, numberArray, .root⟩ depth x ∧ doubledSchema.graph.Finds 2 depth x i ∧
        i.pointer.resolve numberArray = .ok x.value ∧ i.pointer.length ≤ 3 := by
  have hsize : ∀ id, (numberArray.graph.node id).items.length ≤ Pointer.indexLimit := fun id => by
    match id with
    | 0 | 1 => decide
    | id + 2 => exact Nat.zero_le _
  exact ⟨wellFormed_numberArray, hsize, by decide, (validate_located doubledSchema 2 wellFormed_numberArray hsize).2⟩

/-- A false constraint on items makes no issue of its own, and one constraint that is false at one place makes as many
issues as there are ways to it. -/
theorem validate_numberArray_repeats :
    (¬ ∀ c ∈ doubledSchema.node.constraints, (∀ ids, c ≠ .allOf ids) →
      c.verdict (doubledSchema.graph.verdict 2 1) numberArray = .invalid →
      .broken .root c ∈ doubledSchema.validate 2 numberArray) ∧
    (doubledSchema.graph.node ⟨3⟩).constraints.length = 1 ∧
    ((doubledSchema.validate 2 numberArray).filter fun i => i.pointer = ⟨["0"]⟩ ∧ i.keyword = "type").length = 2 := by
  refine ⟨fun h => ?_, by decide, by decide⟩
  have hfalse : (Constraint.items (.single ⟨2⟩) none).verdict (doubledSchema.graph.verdict 2 1) numberArray =
      .invalid := by
    rw [← verdict_issues (verdict_check doubledSchema.graph 2 2 1 rfl) _ _ .root]
    decide
  have hmem := h _ (List.mem_singleton_self _) (by simp) hfalse
  have hkeyword : "items" ∈ (doubledSchema.validate 2 numberArray).map Issue.keyword := List.mem_map_of_mem hmem
  revert hkeyword
  decide

end JsonSchema
