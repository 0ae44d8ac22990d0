import JsonSchema.Proofs.Compile.Lockstep
import JsonSchema.Proofs.Fragments

/-!
The URI of a document does not influence a self-contained schema (`compileValue_relocated`). With its references inside,
a value becomes the same schema whatever URI it was retrieved from, if any, or fails in the same way at the same place,
and nothing is asked of the loader.

The constructions for two documents with the same root run in step: what is known of places of one document is known of
the same places of the other (`Compilation.Relocated`), although the places go by different names.
-/

namespace JsonSchema

/-! ### Failures apart from names -/

/-- The error without the name of the document that holds the reference. -/
def ReferenceError.unplaced (e : ReferenceError) : ReferenceError := { e with context := "" }

/-- The error without the URI of the document in which it occurred. -/
def SchemaError.unplaced : SchemaError → SchemaError
  | .invalidSpecification _ p report => .invalidSpecification "" p report
  | .invalidPattern _ p pattern fault => .invalidPattern "" p pattern fault
  | .tooDeep _ p limit => .tooDeep "" p limit
  | .unresolved e => .unresolved e.unplaced
  | .badUri e => .badUri e

/-! ### Documents with the same root -/

/-- Documents with a self-contained root, that differ in their URIs alone. -/
structure Document.Relocated (d d' : Document) : Prop where
  root : d'.root = d.root
  isWhole_left : d.IsWhole
  isWhole_right : d'.IsWhole
  selfContained : d.root.SelfContained

/-- The same place in two documents, with a value of the first one. -/
structure Target.Relocated (d d' : Document) (t t' : Target) : Prop where
  document_left : t.document = d
  document_right : t'.document = d'
  pointer : t'.pointer = t.pointer
  value : t'.value = t.value
  owns : d.Owns t.value

/-- The loader was asked for the same documents, and the next graph has the same tag. -/
structure Store.Relocated (requests : List String) (s s' : Store) : Prop where
  requests_left : s.requests = requests
  requests_right : s'.requests = requests
  nextTag : s'.nextTag = s.nextTag

/-- Constructions of the same graph, in which the same is known of the places of two documents. -/
structure Compilation.Relocated (d d' : Document) (requests : List String) (x x' : Compilation) : Prop where
  store : x.store.Relocated requests x'.store
  builder : x'.builder = x.builder
  known : ∀ p, x'.known.lookup (d'.location p) = x.known.lookup (d.location p)
  checked : ∀ p, x'.checked.contains (d'.location p) = x.checked.contains (d.location p)

/-- References are followed in two documents. -/
def Lockstep.following (requests : List String) : Lockstep Store Store ReferenceError ReferenceError :=
  ⟨Store.Relocated requests, fun e e' => e'.unplaced = e.unplaced, fun _ => False⟩

/-- Schemas are made from two documents. -/
def Lockstep.relocating (d d' : Document) (requests : List String) :
    Lockstep Compilation Compilation SchemaError SchemaError :=
  ⟨Compilation.Relocated d d' requests, fun e e' => e'.unplaced = e.unplaced, fun _ => False⟩

section

variable {d d' : Document} {requests : List String}

theorem Document.location_beq (d d' : Document) (p q : Pointer) :
    (d'.location p == d'.location q) = (d.location p == d.location q) := by
  rw [Bool.eq_iff_iff, beq_iff_eq, beq_iff_eq]
  simp [Document.location]

namespace Document.Relocated

variable (h : d.Relocated d')

include h

theorem isFragment {v : Value} {reference : String} (ho : d.Owns v) (hv : v.reference? = some reference) :
    IsFragment reference := by
  refine h.selfContained v.id ho.reaches reference ?_
  rw [Value.atNode, ← ho.graph]
  exact hv

/-! ### Following references -/

theorem relates_resolveTarget (r : Resolver) {reference : String} (hf : IsFragment reference) :
    (Lockstep.following requests).Relates (Target.Relocated d d') (r.resolveTarget reference d)
      (r.resolveTarget reference d') := by
  intro s s' hs
  rw [r.resolveTarget_of_fragment h.isWhole_left hf, r.resolveTarget_of_fragment h.isWhole_right hf]
  unfold Document.inside Document.target
  rw [h.root]
  cases UriReference.parse reference with
  | error e => exact .error rfl hs
  | ok parsed =>
    simp only [Except.mapError, bind, Except.bind]
    cases Pointer.ofFragment ((parsed.fragment.map String.ofList).getD "") with
    | error e => exact .error rfl hs
    | ok p =>
      dsimp only
      cases hresolve : p.resolve d.root with
      | error e => exact .error rfl hs
      | ok v => exact .ok ⟨rfl, rfl, rfl, rfl, Document.owns_of_resolve hresolve⟩ hs

/-- Chains of references are followed in step, where the same places have been visited. -/
theorem relates_chase (r : Resolver) {more : Nat} {visited visited' : List Location} {reference : String}
    (hvisited : ∀ p, visited'.contains (d'.location p) = visited.contains (d.location p))
    (hf : IsFragment reference) :
    (Lockstep.following requests).Relates (Target.Relocated d d') (r.chase more visited reference d)
      (r.chase more visited' reference d') := by
  have hcontains : ∀ {visited visited' : List Location} {t t' : Target}, Target.Relocated d d' t t' →
      (∀ p, visited'.contains (d'.location p) = visited.contains (d.location p)) →
      visited'.contains t'.location = visited.contains t.location := by
    intro visited visited' t t' ht hvisited
    unfold Target.location
    rw [ht.document_left, ht.document_right, ht.pointer]
    exact hvisited _
  induction more generalizing visited visited' reference with
  | zero =>
    rw [Resolver.chase, Resolver.chase]
    refine (h.relates_resolveTarget r hf).bind fun t t' ht => ?_
    rw [ht.value, hcontains ht hvisited]
    cases t.value.reference? with
    | none => exact .pure ht
    | some next =>
      dsimp only
      split <;> exact .throw rfl
  | succ more ih =>
    rw [Resolver.chase, Resolver.chase]
    refine (h.relates_resolveTarget r hf).bind fun t t' ht => ?_
    rw [ht.value, hcontains ht hvisited]
    cases hnext : t.value.reference? with
    | none => exact .pure ht
    | some next =>
      dsimp only
      split
      · exact .throw rfl
      · unfold Target.location
        rw [ht.document_left, ht.document_right, ht.pointer]
        refine ih (fun p => ?_) (h.isFragment ht.owns hnext)
        rw [List.contains_cons, List.contains_cons, hvisited, Document.location_beq d d']

theorem relates_resolve (r : Resolver) {v : Value} (ho : d.Owns v) :
    (Lockstep.following requests).Relates (Target.Relocated d d') (r.resolve v d) (r.resolve v d') := by
  unfold Resolver.resolve
  cases hv : v.reference? with
  | none => exact .throw rfl
  | some link => exact h.relates_chase r (fun _ => rfl) (h.isFragment ho hv)

end Document.Relocated

/-! ### The construction -/

/-- Results that are the same apart from names. -/
theorem Lockstep.ends_relocating {α : Type} {r r' : Except SchemaError α} {x x' : Compilation}
    (hr : r'.mapError SchemaError.unplaced = r.mapError SchemaError.unplaced) (hx : x.Relocated d d' requests x') :
    (relocating d d' requests).Ends (· = ·) (r, x) (r', x') := by
  cases r with
  | ok a =>
    cases mapError_eq_ok hr
    exact .ok rfl hx
  | error e =>
    cases r' with
    | ok a => cases hr
    | error e' => exact .error (Except.error.inj hr) hx

namespace Compiler

/-- What a check finds in a schema document does not depend on the URI. -/
theorem unplaced_finding (c : Compiler) (v : Value) (d d' : Document) (p : Pointer) :
    (c.finding v d' p).mapError SchemaError.unplaced = (c.finding v d p).mapError SchemaError.unplaced := by
  unfold finding
  split
  · rfl
  · split <;> rfl

theorem unplaced_regex (c : Compiler) (v : Value) (d d' : Document) (p : Pointer) (remaining remaining' : Nat)
    (text : String) (place : Pointer) :
    ((c.source remaining' v d' p).regex text place).mapError SchemaError.unplaced =
      ((c.source remaining v d p).regex text place).mapError SchemaError.unplaced := by
  unfold SchemaSource.regex source
  split
  · rfl
  · split <;> rfl

/-- In two documents with the same root every part of a construction ends alike. -/
theorem inStep_relocated (c : Compiler) (h : d.Relocated d') (requests : List String) :
    c.InStep (.relocating d d' requests) c fun v e e' _ => e = d ∧ e' = d' ∧ d.Owns v where
  known hx hp := by
    obtain ⟨rfl, rfl, -⟩ := hp
    exact hx.known _
  enter := by
    rintro v d d' p ⟨rfl, rfl, -⟩ id x x' hx
    refine .ok rfl ⟨hx.store, hx.builder, fun q => ?_, hx.checked⟩
    simp only [List.lookup_cons, Document.location_beq d d', hx.known]
  building change := by
    intro x x' hx
    have hbuilder := hx.builder
    obtain ⟨hs, -, hknown, hchecked⟩ := hx
    refine .ok ?_ ⟨hs, ?_, hknown, hchecked⟩ <;> rw [hbuilder]
  subschema := by
    rintro v e e' p w q ⟨rfl, rfl, ho⟩ - hs
    exact ⟨rfl, rfl, hs.owns ho⟩
  resolve := by
    rintro v e e' p ⟨rfl, rfl, ho⟩ - x x' hx
    have hends := h.relates_resolve c.resolver ho x.store x'.store hx.store
    rw [resolving_run, resolving_run]
    generalize c.resolver.resolve v e x.store = ending at hends ⊢
    generalize c.resolver.resolve v e' x'.store = ending' at hends ⊢
    have hkeep : ∀ {s s'}, Store.Relocated requests s s' →
        Compilation.Relocated e e' requests { x with store := s } { x' with store := s' } := fun hs =>
      ⟨hs, hx.builder, hx.known, hx.checked⟩
    cases hends with
    | ok ht hs => exact .ok ⟨ht.value, ht.pointer, ht.document_left, ht.document_right, ht.owns⟩ (hkeep hs)
    | error he hs => exact .error (congrArg SchemaError.unresolved he) (hkeep hs)
    | excused he => exact he.elim
  check := by
    rintro v e e' p ⟨rfl, rfl, -⟩ x x' hx
    rw [check_eq, check_eq, hx.checked]
    split
    · exact .ok rfl hx
    · refine Lockstep.ends_relocating (c.unplaced_finding v e e' p) ⟨hx.store, hx.builder, hx.known, fun q => ?_⟩
      rw [List.contains_cons, List.contains_cons, hx.checked, Document.location_beq e e']
  regex := by
    rintro v e e' p ⟨rfl, rfl, -⟩ remaining remaining' text place x x' hx
    exact Lockstep.ends_relocating (c.unplaced_regex v e e' p remaining remaining' text place) hx
  deep := by
    rintro v e e' p ⟨rfl, rfl, -⟩
    rfl

/-- A document becomes the same schema as another one with the same root, or fails as it does. -/
theorem compile_relocated (c : Compiler) (h : d.Relocated d') (store : Store) :
    (c.compile d' store).1.mapError SchemaError.unplaced = (c.compile d store).1.mapError SchemaError.unplaced ∧
      (c.compile d store).2.requests = store.requests ∧ (c.compile d' store).2.requests = store.requests := by
  have hstart : Compilation.Relocated d d' store.requests (Compilation.start (store.opened d))
      (Compilation.start (store.opened d')) :=
    ⟨⟨store.requests_opened d, store.requests_opened d', by simp [Compilation.start]⟩, rfl, fun _ => rfl, fun _ => rfl⟩
  have hwork : (Lockstep.relocating d d' store.requests).Relates (· = ·)
      (c.check d.root d .root >>= fun _ => c.node (c.limits.maxDepth + 1) d.root d .root)
      (c.check d'.root d' .root >>= fun _ => c.node (c.limits.maxDepth + 1) d'.root d' .root) := by
    rw [h.root]
    exact (c.inStep_relocated h store.requests).relates_work (.inl rfl) ⟨rfl, rfl, d.owns_root⟩
  have hends := hwork _ _ hstart
  cases hrun : (c.check d.root d .root >>= fun _ => c.node (c.limits.maxDepth + 1) d.root d .root)
      (Compilation.start (store.opened d)) with
  | mk result x =>
    cases hrun' : (c.check d'.root d' .root >>= fun _ => c.node (c.limits.maxDepth + 1) d'.root d' .root)
        (Compilation.start (store.opened d')) with
    | mk result' x' =>
      rw [hrun, hrun'] at hends
      rw [compile_run hrun, compile_run hrun']
      have hrequests : x.Relocated d d' store.requests x' → (x.finish d store result).2.requests = store.requests ∧
          (x'.finish d' store result').2.requests = store.requests := fun hx =>
        ⟨(x.store.requests_closed store d).trans hx.store.requests_left,
          (x'.store.requests_closed store d').trans hx.store.requests_right⟩
      cases hends with
      | ok hid hx =>
        refine ⟨?_, hrequests hx⟩
        cases hid
        unfold Compilation.finish
        rw [Store.nextTag_closed, Store.nextTag_closed, hx.store.nextTag, hx.builder]
      | error he hx => exact ⟨congrArg Except.error he, hrequests hx⟩
      | excused he => exact he.elim

/-- **The URI of a document does not influence a self-contained schema.** The value becomes the same schema whether it
was retrieved from a URI or not, or it fails in the same way at the same place, and the loader is not asked. -/
theorem compileValue_relocated (c : Compiler) {v : Value} (hv : v.SelfContained) {text : String} {uri : Uri}
    (huri : Uri.parse text = .ok uri) (store : Store) :
    (c.compileValue v (some text) store).1.mapError SchemaError.unplaced =
        (c.compileValue v none store).1.mapError SchemaError.unplaced ∧
      (c.compileValue v none store).2.requests = store.requests ∧
      (c.compileValue v (some text) store).2.requests = store.requests := by
  have h : (Document.anonymous v).Relocated (.retrieved uri v) :=
    ⟨rfl, Document.isWhole_anonymous v, Document.isWhole_retrieved uri v, hv⟩
  have hsome : c.compileValue v (some text) store = c.compile (.retrieved uri v) store := by
    rw [compileValue, huri]
    rfl
  rw [hsome]
  exact c.compile_relocated h store

/-- A schema of rings with labels, which refers to itself as the whole of its document. -/
def localRing : Value := ⟨⟨0, #[.object [("title", 1), ("properties", 2), ("additionalProperties", 6)], .string "ring",
  .object [("next", 3), ("label", 5)], .reference [("$ref", 4)], .string "#", .object [("type", 7)],
  .boolean false, .string "string"]⟩, 0⟩

/-- The schema of rings is the same in a document without URI and in one with a URI that has no hierarchy. -/
theorem compileValue_localRing_relocated :
    localRing.SelfContained ∧ ∃ uri s after after', Uri.parse "data:,ring" = .ok uri ∧
      lonelyCompiler.compileValue localRing none (.start 2) = (.ok s, after) ∧
      lonelyCompiler.compileValue localRing (some "data:,ring") (.start 2) = (.ok s, after') ∧
      after.requests = [] ∧ after'.requests = [] := by
  have hself : localRing.SelfContained := by
    intro id _ reference hreference
    match id, hreference with
    | 0, h | 1, h | 2, h | 4, h | 5, h | 6, h | 7, h => cases h
    | 3, h =>
      cases h
      rfl
    | id + 8, h =>
      rw [Value.reference?, Value.node, Value.atNode, Graph.node, Array.getElem?_eq_none (Nat.le_add_left 8 id)] at h
      cases h
  obtain ⟨uri, huri⟩ : ∃ uri, Uri.parse "data:,ring" = .ok uri := exists_of_isOk (by decide +kernel)
  obtain ⟨s, after, hrun⟩ : ∃ s after, lonelyCompiler.compileValue localRing none (.start 2) = (.ok s, after) :=
    run_of_isOk (by decide +kernel)
  have hrelocated := lonelyCompiler.compileValue_relocated hself huri (.start 2)
  cases hrun' : lonelyCompiler.compileValue localRing (some "data:,ring") (.start 2) with
  | mk result after' =>
    rw [hrun, hrun'] at hrelocated
    obtain ⟨hsame, hleft, hright⟩ := hrelocated
    obtain rfl : result = .ok s := mapError_eq_ok hsame
    exact ⟨hself, uri, s, after, after', huri, hrun, rfl, hleft, hright⟩

end Compiler

end

end JsonSchema
