import JsonSchema.Proofs.Verdict

/-!
Raising the depth limit never changes an answer. A check that may look further down either repeats a check that
may not, or fills in what that one left open: what is known stays as it is (`Verdict.Refines`), a report without
excess of the depth is repeated issue by issue, and broken constraints are kept in their order
(`Report.Refines`). Both relations hold of the check of a schema by induction on the levels that the shallower
one may still look at (`refines_check`).
-/

namespace JsonSchema

/-! ### Verdicts -/

/-- `t` says what `s` says, or `s` says nothing. -/
def Verdict.Refines (s t : Verdict) : Prop := s = .unknown ∨ s = t

namespace Verdict

theorem Refines.refl (s : Verdict) : s.Refines s := .inr rfl

theorem Refines.or {s s' t t' : Verdict} (hs : s.Refines s') (ht : t.Refines t') :
    (s.or t).Refines (s'.or t') := by
  rcases hs with rfl | rfl
  · rcases ht with rfl | rfl
    · exact .inl rfl
    · cases t with
      | valid => exact .inr (by cases s' <;> rfl)
      | invalid => exact .inl rfl
      | unknown => exact .inl rfl
  · rcases ht with rfl | rfl
    · cases s with
      | valid => exact .inr rfl
      | invalid => exact .inl rfl
      | unknown => exact .inl rfl
    · exact .refl _

theorem Refines.neg {s t : Verdict} (h : s.Refines t) : s.neg.Refines t.neg := by
  rcases h with rfl | rfl
  · exact .inl rfl
  · exact .refl _

theorem Refines.any {l m : List Verdict} (h : List.Forall₂ Verdict.Refines l m) :
    (Verdict.any l).Refines (Verdict.any m) := by
  induction h with
  | nil => exact .refl _
  | cons h _ ih => exact h.or ih

/-- Branches that are all known stay as they are. -/
theorem eq_of_forall₂_refines {l m : List Verdict} (h : List.Forall₂ Verdict.Refines l m)
    (hl : .unknown ∉ l) : m = l := by
  induction h with
  | nil => rfl
  | cons h _ ih =>
    simp only [List.mem_cons, not_or] at hl
    rw [ih hl.2, h.resolve_left (Ne.symm hl.1)]

theorem count_valid_le {l m : List Verdict} (h : List.Forall₂ Verdict.Refines l m) :
    l.count .valid ≤ m.count .valid := by
  induction h with
  | nil => exact Nat.le_refl _
  | @cons s t l m h _ ih =>
    have hst : s = .valid → t = .valid := fun hs => by
      rcases h with h | h
      · exact absurd (hs.symm.trans h) (by decide)
      · exact h ▸ hs
    rw [List.count_cons, List.count_cons]
    by_cases hs : s = .valid
    · simpa [hs, hst hs] using ih
    · simp only [beq_iff_eq, hs, if_false]
      omega

theorem Refines.one {l m : List Verdict} (h : List.Forall₂ Verdict.Refines l m) :
    (Verdict.one l).Refines (Verdict.one m) := by
  by_cases htwo : 2 ≤ l.count .valid
  · have hm : 2 ≤ m.count .valid := Nat.le_trans htwo (count_valid_le h)
    exact .inr (by rw [Verdict.one, Verdict.one, if_pos htwo, if_pos hm])
  · by_cases hopen : .unknown ∈ l
    · exact .inl (by rw [Verdict.one, if_neg htwo, if_pos hopen])
    · rw [eq_of_forall₂_refines h hopen]
      exact .refl _

end Verdict

/-- The verdict of a constraint that is no conjunction stays when those of its branches do. -/
theorem Constraint.refines_verdict {below below' : SchemaId → Value → Verdict} {c : Constraint} {v : Value}
    (hc : c.isConjunctive = false) (h : ∀ id, (below id v).Refines (below' id v)) :
    (c.verdict below v).Refines (c.verdict below' v) := by
  have hmap : ∀ ids : List SchemaId,
      List.Forall₂ Verdict.Refines (ids.map (below · v)) (ids.map (below' · v)) := fun ids => by
    induction ids with
    | nil => exact .nil
    | cons id ids ih => exact .cons (h id) ih
  cases c with
  | items | properties | allOf => exact absurd hc (by simp [Constraint.isConjunctive])
  | anyOf ids => exact .any (hmap ids)
  | oneOf ids => exact .one (hmap ids)
  | not id => exact (h id).neg
  | _ => exact .refl _

/-! ### Reports -/

/-- The issues that are no excesses of the depth. -/
def Report.broken (r : Report) : Report := r.filter fun i => !i.violation.isTooDeep

/-- `s` repeats `r` if that has no excess of the depth, and in any case the broken constraints of `r`, in order. -/
structure Report.Refines (r s : Report) : Prop where
  eq : r.broken = r → s = r
  sublist : r.broken.Sublist s.broken

namespace Report

variable {r r' s s' : Report}

@[simp] theorem broken_append (r s : Report) : Report.broken (r ++ s) = r.broken ++ s.broken :=
  List.filter_append ..

theorem broken_eq_self_iff : r.broken = r ↔ ∀ i ∈ r, i.violation.isTooDeep = false := by
  simp [Report.broken, List.filter_eq_self]

theorem broken_eq_nil_iff : r.broken = [] ↔ ∀ i ∈ r, i.violation.isTooDeep = true := by
  simp [Report.broken, List.filter_eq_nil_iff]

theorem Refines.refl (r : Report) : r.Refines r := ⟨fun _ => rfl, List.Sublist.refl _⟩

/-- A report of excesses of the depth alone asks for nothing. -/
theorem refines_of_unknown (h : r.verdict = .unknown) (s : Report) : r.Refines s := by
  obtain ⟨hne, hdeep⟩ := verdict_eq_unknown_iff.1 h
  have hnil : r.broken = [] := broken_eq_nil_iff.2 hdeep
  exact ⟨fun heq => absurd (heq ▸ hnil) hne, by rw [hnil]; exact List.nil_sublist _⟩

theorem Refines.append (hr : r.Refines r') (hs : s.Refines s') : Report.Refines (r ++ s) (r' ++ s') := by
  refine ⟨fun heq => ?_, by simpa using hr.sublist.append hs.sublist⟩
  have hall := broken_eq_self_iff.1 heq
  rw [hr.eq (broken_eq_self_iff.2 fun i hi => hall i (List.mem_append_left _ hi)),
    hs.eq (broken_eq_self_iff.2 fun i hi => hall i (List.mem_append_right _ hi))]

theorem Refines.flatMap {α : Type} {f g : α → Report} {l : List α} (h : ∀ a ∈ l, (f a).Refines (g a)) :
    Report.Refines (l.flatMap f) (l.flatMap g) := by
  induction l with
  | nil => exact .refl _
  | cons a l ih =>
    exact (h a List.mem_cons_self).append (ih fun b hb => h b (List.mem_cons_of_mem a hb))

/-- What a report tells stays when a report refines it. -/
theorem Refines.verdict (h : r.Refines s) : r.verdict.Refines s.verdict := by
  cases hr : r.verdict with
  | unknown => exact .inl rfl
  | valid =>
    have hnil : r = [] := verdict_eq_valid_iff.1 hr
    rw [h.eq (by rw [hnil]; rfl), hr]
    exact .refl _
  | invalid =>
    obtain ⟨i, hi, hd⟩ := verdict_eq_invalid_iff.1 hr
    have his : i ∈ s.broken := h.sublist.mem (List.mem_filter.mpr ⟨hi, by simp [hd]⟩)
    exact .inr (verdict_eq_invalid_iff.2 ⟨i, (List.mem_filter.mp his).1, hd⟩).symm

/-- Reports that settle a question settle it the same way, or the first leaves it open. -/
theorem refines_of_settles {t t' : Verdict} {i : Issue} (ht : t.Refines t') (hr : r.Settles t i)
    (hs : s.Settles t' i) : r.Refines s := by
  rcases ht with rfl | rfl
  · exact refines_of_unknown hr s
  · cases t with
    | valid => rw [show r = [] from hr, show s = [] from hs]; exact .refl _
    | invalid => rw [show r = [i] from hr, show s = [i] from hs]; exact .refl _
    | unknown => exact refines_of_unknown hr s

end Report

/-! ### Checks -/

section

variable {check check' : SchemaId → Value → Pointer → Report}

/-- The report of an `allOf` branch, with the issue of the constraint in front if the branch rejects. -/
theorem refines_allOf_branch {r s : Report} (h : r.Refines s) (i : Issue) :
    Report.Refines (if r.isEmpty || r.isDepthLimited then r else i :: r)
      (if s.isEmpty || s.isDepthLimited then s else i :: s) := by
  have hread : ∀ r : Report, (if r.isEmpty || r.isDepthLimited then r else i :: r) =
      if r.verdict = .invalid then [i] ++ r else r := fun r => by
    unfold Report.verdict
    cases r.isEmpty <;> cases r.isDepthLimited <;> simp
  rw [hread, hread]
  cases hr : r.verdict with
  | unknown => exact Report.refines_of_unknown hr _
  | valid =>
    rw [h.eq (by rw [Report.verdict_eq_valid_iff.1 hr]; rfl), hr]
    exact .refl _
  | invalid =>
    have hs : s.verdict = .invalid := (h.verdict.resolve_left (by simp [hr])).symm.trans hr
    rw [if_pos rfl, if_pos hs]
    exact (Report.Refines.refl [i]).append h

/-- The issues of a constraint are refined when those of the schemas it refers to are. -/
theorem refines_issues (h : ∀ id v p, (check id v p).Refines (check' id v p)) (c : Constraint) (v : Value)
    (p : Pointer) : (c.issues check v p).Refines (c.issues check' v p) := by
  cases hc : c.isConjunctive with
  | false =>
    have hr := @settles_issues check (fun id v => (check id v p).verdict) c hc v p fun _ => rfl
    have hs := @settles_issues check' (fun id v => (check' id v p).verdict) c hc v p fun _ => rfl
    exact Report.refines_of_settles (Constraint.refines_verdict hc fun id => (h id v p).verdict) hr hs
  | true =>
    cases c with
    | items schemas additional =>
      refine Report.Refines.flatMap fun x _ => ?_
      simp only
      split
      · exact h _ _ _
      · exact .refl _
    | properties named patterns additional =>
      exact Report.Refines.flatMap fun x _ => Report.Refines.flatMap fun id _ => h _ _ _
    | allOf ids => exact Report.Refines.flatMap fun id _ => refines_allOf_branch (h id v p) _
    | _ => exact absurd hc (by simp [Constraint.isConjunctive])

end

/-- A check that may look at more levels refines one that may look at fewer. -/
theorem refines_check (g : SchemaGraph) (limit limit' : Nat) {remaining remaining' : Nat}
    (h : remaining ≤ remaining') (id : SchemaId) (v : Value) (p : Pointer) :
    (g.check limit remaining id v p).Refines (g.check limit' remaining' id v p) := by
  induction remaining generalizing remaining' id v p with
  | zero => exact Report.refines_of_unknown rfl _
  | succ remaining ih =>
    obtain ⟨deeper, rfl⟩ : ∃ deeper, remaining' = deeper + 1 := ⟨remaining' - 1, by omega⟩
    exact Report.Refines.flatMap fun c _ => refines_issues (fun id v p => ih (by omega) id v p) c v p

/-- **Raising the depth limit never changes an answer.** A value that is valid at a limit stays valid at a higher
one; a report without excess of the depth is repeated as it is; and the other issues are kept in any case, in
their order. -/
theorem validate_of_le (s : Schema) (v : Value) {maxDepth maxDepth' : Nat} (h : maxDepth ≤ maxDepth') :
    (s.validate maxDepth v = [] → s.validate maxDepth' v = []) ∧
    ((∀ i ∈ s.validate maxDepth v, i.keyword ≠ "depth") →
      s.validate maxDepth' v = s.validate maxDepth v) ∧
    ((s.validate maxDepth v).filter (·.keyword ≠ "depth")).Sublist
      ((s.validate maxDepth' v).filter (·.keyword ≠ "depth")) := by
  have href : (s.validate maxDepth v).Refines (s.validate maxDepth' v) :=
    refines_check s.graph maxDepth maxDepth' (by omega) s.id v .root
  have hfilter : ∀ r : Report, r.filter (·.keyword ≠ "depth") = r.broken := fun r =>
    List.filter_congr fun i _ => by simp [← isTooDeep_iff_keyword]
  refine ⟨fun hnil => ?_, fun hall => ?_, ?_⟩
  · rw [href.eq (by rw [hnil]; rfl), hnil]
  · refine href.eq (Report.broken_eq_self_iff.mpr fun i hi => ?_)
    simpa [← isTooDeep_iff_keyword] using hall i hi
  · rw [hfilter, hfilter]
    exact href.sublist

/-- A schema of chains: an object whose member `next` is a chain again and whose member `last` is null. -/
def chainSchema : Schema :=
  ⟨⟨firstFreeTag, #[{}, { constraints := [.properties [("next", ⟨1⟩), ("last", ⟨2⟩)] [] none] },
    { constraints := [.type [.null]] }]⟩, ⟨1⟩⟩

/-- A chain that is its own successor and whose end is no null. -/
def endlessChain : Value := ⟨⟨3, #[.object [("next", 0), ("last", 1)], .boolean true]⟩, 0⟩

/-- An endless chain is rejected at every limit, and cut off one step later at a higher one. -/
theorem validate_endlessChain_of_le :
    1 ≤ 2 ∧ (chainSchema.validate 1 endlessChain).map Issue.keyword = ["depth", "depth", "type"] ∧
      (chainSchema.validate 2 endlessChain).map Issue.keyword = ["depth", "depth", "type", "type"] ∧
      ((chainSchema.validate 1 endlessChain).filter (·.keyword ≠ "depth")).Sublist
        ((chainSchema.validate 2 endlessChain).filter (·.keyword ≠ "depth")) :=
  ⟨by decide, by decide, by decide, (validate_of_le chainSchema endlessChain (by decide)).2.2⟩

end JsonSchema
