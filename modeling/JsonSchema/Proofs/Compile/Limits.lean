import JsonSchema.Proofs.Compile.Lockstep
import JsonSchema.Proofs.DepthLimit

/-!
Raising the limits never changes a schema that is made (`compileValue_of_within`). Where the construction answers under
some limits, each of its parts answers the same under higher ones: a schema document that the meta-schema accepts is
accepted (`Compiler.finding_of_le`), a reference leads to the same place (`Resolver.resolve_of_le`), and a regular
expression is read as before (`SchemaSource.regex_of_le`). So the two constructions run in step as long as the first one
does not fail.
-/

namespace JsonSchema

/-- No limit is above its counterpart. -/
structure Limits.Within (l l' : Limits) : Prop where
  depth : l.maxDepth ≤ l'.maxDepth
  chain : l.maxReferenceChain ≤ l'.maxReferenceChain
  regex : l.maxRegexLength ≤ l'.maxRegexLength

/-- The second computation repeats the answers of the first one; every failure is excused. -/
def Lockstep.repeating (σ ε : Type) : Lockstep σ σ ε ε := ⟨(· = ·), fun _ _ => True, fun _ => True⟩

theorem Lockstep.repeating_relates_iff {σ ε α : Type} {y y' : ExceptT ε (StateM σ) α} :
    (repeating σ ε).Relates (· = ·) y y' ↔ ∀ s a s', y s = (.ok a, s') → y' s = (.ok a, s') := by
  refine ⟨fun h s a s' hy => ?_, fun h s s' hs => ?_⟩
  · have hends := h s s rfl
    rw [hy] at hends
    generalize y' s = ending at hends
    cases hends with
    | ok ha hs =>
      cases ha
      cases hs
      rfl
  · cases hs
    cases hy : y s with
    | mk result x =>
      cases result with
      | ok a =>
        rw [h s a x hy]
        exact .ok rfl rfl
      | error e => exact .excused trivial

/-! ### The parts of the construction -/

namespace Resolver

variable {r r' : Resolver} {s s' : Store} {t : Target}

/-- One step along a reference has no limit. -/
theorem resolveTarget_congr (h : r'.loader? = r.loader?) : r'.resolveTarget = r.resolveTarget := by
  unfold resolveTarget reach load
  rw [h]

theorem chase_of_le (h : r'.loader? = r.loader?) {more more' : Nat} (hmore : more ≤ more') {visited : List Location}
    {reference : String} {d : Document} (hrun : r.chase more visited reference d s = (.ok t, s')) :
    r'.chase more' visited reference d s = (.ok t, s') := by
  induction more generalizing more' visited reference d s with
  | zero =>
    rw [chase] at hrun
    obtain ⟨target, s₁, htarget, hrest⟩ := run_bind_eq_ok hrun
    -- the first reference has led to a value that is none
    have hnone : target.value.reference? = none := by
      cases hnext : target.value.reference? with
      | none => rfl
      | some next =>
        simp only [hnext] at hrest
        split at hrest <;> cases hrest
    cases more' <;>
    · rw [chase, resolveTarget_congr h, run_bind_of_ok htarget]
      simp only [hnone] at hrest ⊢
      exact hrest
  | succ more ih =>
    obtain ⟨more', rfl⟩ : ∃ n, more' = n + 1 := ⟨more' - 1, by omega⟩
    rw [chase] at hrun ⊢
    obtain ⟨target, s₁, htarget, hrest⟩ := run_bind_eq_ok hrun
    rw [resolveTarget_congr h, run_bind_of_ok htarget]
    cases hnext : target.value.reference? with
    | none =>
      simp only [hnext] at hrest ⊢
      exact hrest
    | some next =>
      simp only [hnext] at hrest ⊢
      split at hrest
      · cases hrest
      · next hvisited =>
        rw [if_neg hvisited]
        exact ih (Nat.le_of_succ_le_succ hmore) hrest

theorem resolve_of_le (h : r'.loader? = r.loader?) (hl : r.limits.maxReferenceChain ≤ r'.limits.maxReferenceChain)
    {v : Value} {d : Document} (hrun : r.resolve v d s = (.ok t, s')) : r'.resolve v d s = (.ok t, s') := by
  unfold resolve at hrun ⊢
  cases hv : v.reference? with
  | none =>
    simp only [hv] at hrun
    cases hrun
  | some link =>
    simp only [hv] at hrun
    exact chase_of_le h (Nat.sub_le_sub_right hl 1) hrun

end Resolver

/-- What is valid at a depth limit is valid at a higher one. -/
theorem validate_eq_nil_of_le {s : Schema} {v : Value} {maxDepth maxDepth' : Nat} (h : maxDepth ≤ maxDepth')
    (hvalid : s.validate maxDepth v = []) : s.validate maxDepth' v = [] := by
  have hrefines : (s.validate maxDepth v).Refines (s.validate maxDepth' v) :=
    refines_check s.graph maxDepth maxDepth' (Nat.succ_le_succ h) s.id v .root
  rw [hrefines.eq (by rw [hvalid]; rfl), hvalid]

theorem SchemaSource.regex_of_le {s s' : SchemaSource} (h : s.maxRegexLength ≤ s'.maxRegexLength) {text : String}
    {place : Pointer} {regex : Regex} (hs : s.regex text place = .ok regex) : s'.regex text place = .ok regex := by
  have hread := ofText?_of_regex hs
  unfold SchemaSource.regex at hs ⊢
  split at hs
  · cases hs
  · next hshort =>
    rw [if_neg fun hlong => hshort (Nat.lt_of_le_of_lt h hlong), hread]

namespace Compiler

open Compilation

variable {c c' : Compiler}

theorem finding_of_le (h : c.limits.maxDepth ≤ c'.limits.maxDepth) {v : Value} {d : Document} {p : Pointer}
    (hfinding : c.finding v d p = .ok ⟨⟩) : c'.finding v d p = .ok ⟨⟩ :=
  finding_eq_ok_iff.2 (validate_eq_nil_of_le h (finding_eq_ok_iff.1 hfinding))

/-! ### The construction -/

/-- Under higher limits every part of a construction repeats its answers. -/
theorem inStep_of_within (hloader : c'.resolver.loader? = c.resolver.loader?) (hl : c.limits.Within c'.limits)
    (hr : c.resolver.limits.Within c'.resolver.limits) :
    InStep (.repeating Compilation SchemaError) c c' fun _ d d' _ => d' = d where
  known hx hd := by rw [show _ = _ from hx, hd]
  enter hd id := by
    subst hd
    exact Lockstep.repeating_relates_iff.2 fun _ _ _ h => h
  building change := Lockstep.repeating_relates_iff.2 fun _ _ _ h => h
  subschema hd _ _ := hd
  resolve {v d d' p} hd _ := by
    subst hd
    refine (Lockstep.repeating_relates_iff.2 fun x t x' h => ?_).weaken fun t t' ht => ?_
    · rw [resolving_run] at h ⊢
      obtain ⟨ht, rfl⟩ := Prod.mk.inj h
      rw [Resolver.resolve_of_le hloader hr.chain (Prod.ext (mapError_eq_ok ht) rfl)]
      rfl
    · cases ht
      exact ⟨rfl, rfl, rfl⟩
  check {v d d' p} hd := by
    subst hd
    refine Lockstep.repeating_relates_iff.2 fun x _ x' h => ?_
    rw [check_eq] at h ⊢
    split at h
    · next hmem => rw [if_pos hmem, h]
    · next hmem =>
      obtain ⟨hfinding, rfl⟩ := Prod.mk.inj h
      rw [if_neg hmem, finding_of_le hl.depth hfinding]
  regex hd remaining remaining' text place := by
    subst hd
    refine Lockstep.repeating_relates_iff.2 fun x regex x' h => ?_
    obtain ⟨hregex, rfl⟩ := Prod.mk.inj ((run_except _ _).symm.trans h)
    rw [run_except, SchemaSource.regex_of_le hl.regex hregex]
  deep _ := trivial

theorem compile_of_within (hloader : c'.resolver.loader? = c.resolver.loader?) (hl : c.limits.Within c'.limits)
    (hr : c.resolver.limits.Within c'.resolver.limits) {document : Document} {store after : Store} {s : Schema}
    (hrun : c.compile document store = (.ok s, after)) : c'.compile document store = (.ok s, after) := by
  cases hwork : (c.check document.root document .root >>= fun _ =>
      c.node (c.limits.maxDepth + 1) document.root document .root) (start (store.opened document)) with
  | mk result x =>
    rw [compile_run hwork] at hrun
    cases result with
    | error e => cases hrun
    | ok id =>
      have hstep := (inStep_of_within hloader hl hr).relates_work
        (.inr ⟨Nat.succ_le_succ hl.depth, fun _ => trivial⟩) (v := document.root) (d := document) (p := .root) rfl
      rw [compile_run (Lockstep.repeating_relates_iff.1 hstep _ _ _ hwork)]
      exact hrun

/-- **Raising the limits never changes a schema that is made.** Under higher limits the same value becomes the same
schema, with the same graph, and leaves the same documents at hand. -/
theorem compileValue_of_within {c c' : Compiler} (hloader : c'.resolver.loader? = c.resolver.loader?)
    (hl : c.limits.Within c'.limits) (hr : c.resolver.limits.Within c'.resolver.limits) {v : Value}
    {uri? : Option String} {store after : Store} {s : Schema}
    (hrun : c.compileValue v uri? store = (.ok s, after)) : c'.compileValue v uri? store = (.ok s, after) := by
  cases uri? with
  | none => exact compile_of_within hloader hl hr hrun
  | some text =>
    obtain ⟨uri, store', hparse, hcompile⟩ := run_bind_eq_ok hrun
    exact (run_bind_of_ok hparse).trans (compile_of_within hloader hl hr hcompile)

/-- Nothing can be loaded, and the schema of rings just keeps within the limits. -/
def narrowCompiler : Compiler := ⟨⟨none, ⟨4, 1, 0⟩⟩, ⟨4, 1, 0⟩⟩

/-- The schema of rings is the same under the usual limits as under narrow ones. -/
theorem compileValue_ringSchema_of_within :
    narrowCompiler.limits.Within lonelyCompiler.limits ∧
      narrowCompiler.resolver.limits.Within lonelyCompiler.resolver.limits ∧ ∃ s after,
      narrowCompiler.compileValue ringSchema (some "http://ring") (.start 2) = (.ok s, after) ∧
      lonelyCompiler.compileValue ringSchema (some "http://ring") (.start 2) = (.ok s, after) := by
  have hwithin : narrowCompiler.limits.Within lonelyCompiler.limits := ⟨by decide, by decide, by decide⟩
  have hloader : lonelyCompiler.resolver.loader? = narrowCompiler.resolver.loader? := rfl
  obtain ⟨s, after, hrun⟩ : ∃ s after,
      narrowCompiler.compileValue ringSchema (some "http://ring") (.start 2) = (.ok s, after) :=
    run_of_isOk (by decide +kernel)
  exact ⟨hwithin, hwithin, s, after, hrun, compileValue_of_within hloader hwithin hwithin hrun⟩

end Compiler

end JsonSchema
