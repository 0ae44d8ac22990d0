import JsonSchema.Proofs.Copies
import JsonSchema.Proofs.Reordered.Environment
import JsonSchema.Proofs.Requests

/-!
The documents at hand do not show how they came to hand. A loader is dependable (`Resolver.Dependable`) if its answers
are a function of the URI and what it serves from elsewhere it also serves there. Among documents with URIs of their own,
whatever is loaded later is a copy of what the loader serves under the URI in question (`Resolver.Supplied`). So a URI
leads to the same document, and a reference to the same place, whatever was loaded before, or both fail in the same way
(`Resolver.relates_resolve`).
-/

namespace JsonSchema

/-! ### Copies of documents -/

/-- Documents with the same URI, one of which is a copy of the other. -/
structure Document.Copied (d e : Document) : Prop where
  uri : e.uri? = d.uri?
  root : d.root.Copied e.root

/-- The same place in a document and a copy of it. -/
structure Target.Copied (t u : Target) : Prop where
  document : t.document.Copied u.document
  pointer : u.pointer = t.pointer
  value : t.value.Copied u.value

namespace Document.Copied

variable {d e d' : Document}

theorem refl (hd : d.root.graph.WellFormed) : d.Copied d := ⟨rfl, .refl hd⟩

theorem symm (h : d.Copied e) : e.Copied d := ⟨h.uri.symm, h.root.symm⟩

theorem trans (h : d.Copied e) (h' : e.Copied d') : d.Copied d' := ⟨h'.uri.trans h.uri, h.root.trans h'.root⟩

theorem reordered (h : d.Copied e) : d.Reordered e := ⟨h.uri, h.root.reordered⟩

theorem name (h : d.Copied e) : e.name = d.name := by rw [Document.name, Document.name, h.reordered.uriText]

/-- A fragment designates the same place. -/
theorem target (h : d.Copied e) (fragment : String) : SameEnd Target.Copied (d.target fragment) (e.target fragment) := by
  unfold Document.target
  cases Pointer.ofFragment fragment with
  | error fault => exact .error _
  | ok p =>
    have hresolve := h.root.resolve p
    simp only [bind, Except.bind]
    generalize p.resolve d.root = x at hresolve ⊢
    generalize p.resolve e.root = y at hresolve ⊢
    cases hresolve with
    | ok hxy => exact .ok ⟨h, rfl, hxy⟩
    | error fault => exact .error _

end Document.Copied

theorem Target.Copied.location {t u : Target} (h : t.Copied u) : u.location = t.location := by
  rw [Target.location, Target.location, h.pointer, h.document.reordered.location]

/-- The tag of a graph does not matter. -/
theorem Value.copied_retagged {v : Value} (hv : v.graph.WellFormed) (tag : Nat) :
    (⟨⟨tag, v.graph.nodes⟩, v.id⟩ : Value).Copied v := by
  have hpaired := Value.paired_refl hv
  refine ⟨⟨hv.nodup_keys, hv.reference⟩, hv, (· = ·),
    ⟨rfl, hpaired.node, hpaired.right_unique, hpaired.left_unique⟩, ?_⟩
  rintro a b rfl
  rfl

/-! ### What the loader serves -/

/-- The loader answers a request with the document, but for the tag of its graph. -/
def Loader.Serves (loader : Loader) (key : String) (d : Document) : Prop :=
  ∃ remote root finalUri, loader.answer key 0 = .ok remote ∧ Value.transform 0 remote.heap remote.root = .ok root ∧
    Uri.parse remote.finalUri = .ok finalUri ∧ d = .retrieved finalUri root

/-- A document that is served under another URI than its own is served under that one, too. -/
def Loader.Consistent (loader : Loader) : Prop :=
  ∀ {key d uri}, loader.Serves key d → d.uri? = some uri → Cache.key uri ≠ key →
    ∃ e, loader.Serves (Cache.key uri) e ∧ e.uri? = d.uri? ∧ d.root.Isomorphic e.root

namespace Resolver

/-- The answers of the loader, if there is one, are a function of the URI and do not contradict each other. -/
structure Dependable (r : Resolver) : Prop where
  isFunction : ∀ loader ∈ r.loader?, loader.IsFunction
  wellFormed : ∀ loader ∈ r.loader?, loader.WellFormed
  consistent : ∀ loader ∈ r.loader?, loader.Consistent

variable {r : Resolver} {loader : Loader} {uri : Uri} {s s' : Store} {d e : Document} {key : String}

theorem Dependable.wellFormed_of_serves (hr : r.Dependable) (hloader : r.loader? = some loader)
    (h : loader.Serves key d) : d.root.graph.WellFormed := by
  obtain ⟨remote, root, finalUri, ha, ht, -, rfl⟩ := h
  exact wellFormed_of_answer hr.wellFormed hloader ha ht

theorem Dependable.serves_of_fetch (hr : r.Dependable) (h : Loader.fetch r.loader? uri s = (.ok d, s')) :
    ∃ loader e, r.loader? = some loader ∧ loader.Serves uri.toText e ∧ e.Copied d := by
  obtain ⟨loader, remote, root, finalUri, hloader, ha, ht, hu, rfl, -⟩ := fetch_eq_ok h
  rw [hr.isFunction loader hloader] at ha
  have ht' : Value.transform 0 remote.heap remote.root = .ok ⟨⟨0, root.graph.nodes⟩, root.id⟩ := by
    rw [transform_tag s.nextTag 0, ht]
    rfl
  exact ⟨loader, _, hloader, ⟨remote, _, finalUri, ha, ht', hu, rfl⟩, rfl,
    Value.copied_retagged (wellFormed_of_answer hr.wellFormed hloader ha ht) 0⟩

theorem Dependable.fetch_of_serves (hr : r.Dependable) (hloader : r.loader? = some loader)
    (h : loader.Serves uri.toText e) (s : Store) :
    ∃ d s', Loader.fetch r.loader? uri s = (.ok d, s') ∧ e.Copied d := by
  have hw := hr.wellFormed_of_serves hloader h
  obtain ⟨remote, root, finalUri, ha, ht, hu, rfl⟩ := h
  have ht' : Value.transform s.nextTag remote.heap remote.root =
      .ok ⟨⟨s.nextTag, root.graph.nodes⟩, root.id⟩ := by
    rw [transform_tag 0 s.nextTag, ht]
    rfl
  have hfetch : (Loader.fetch r.loader? uri s).1 =
      .ok (.retrieved finalUri ⟨⟨s.nextTag, root.graph.nodes⟩, root.id⟩) := by
    rw [hloader, fetch_run, hr.isFunction loader hloader, ha]
    simp only [ht', hu]
  exact ⟨_, _, Prod.ext hfetch rfl, rfl, (Value.copied_retagged hw s.nextTag).symm⟩

/-- The loader gives the same document at any time, or fails in the same way. -/
theorem Dependable.fetch_copied (hr : r.Dependable) (uri : Uri) (s s' : Store) :
    SameEnd Document.Copied (Loader.fetch r.loader? uri s).1 (Loader.fetch r.loader? uri s').1 := by
  cases hf : Loader.fetch r.loader? uri s with
  | mk result s₁ =>
    cases result with
    | ok d =>
      obtain ⟨loader, e, hloader, hserves, hed⟩ := hr.serves_of_fetch hf
      obtain ⟨d', s₁', hf', hed'⟩ := hr.fetch_of_serves hloader hserves s'
      rw [hf']
      exact .ok (hed.symm.trans hed')
    | error fault =>
      rw [fetch_eq_error hr.isFunction hf s']
      exact .error _

end Resolver

/-! ### What is at hand -/

/-- Every document is at hand under its own URI. -/
def Store.Titled (s : Store) : Prop :=
  ∀ {key d}, s.cache.entries.lookup key = some d → d.uri?.map Cache.key = some key

/-- The documents of an earlier store are at hand, and all others are copies of what the loader serves. -/
structure Resolver.Supplied (r : Resolver) (base s : Store) : Prop where
  kept : base.cache.Grows s.cache
  served : ∀ {key d}, base.cache.entries.lookup key = none → s.cache.entries.lookup key = some d →
    ∃ loader e, r.loader? = some loader ∧ loader.Serves key e ∧ e.Copied d

namespace Resolver

variable {r : Resolver} {base s s' : Store} {event : Event} {es : List Event} {uri : Uri} {d e : Document}

theorem Supplied.of_cache_eq (r : Resolver) (h : s.cache = base.cache) : r.Supplied base s := by
  refine ⟨h ▸ .refl _, fun hnone hd => ?_⟩
  rw [h, hnone] at hd
  cases hd

/-- What one event brings to hand, the loader serves. A document that is entered under its own URI was found under
another one, hence is a copy of what is served there. -/
theorem Supplied.step (hr : r.Dependable) (hbase : base.Titled) (h : r.Supplied base s) (hstep : r.Step s event s') :
    r.Supplied base s' := by
  refine ⟨h.kept.trans hstep.grows, fun {key d} hnone hd => ?_⟩
  cases hstep with
  | refused _ _ _ hf =>
    rw [fetch_cache hf] at hd
    exact h.served hnone hd
  | given hwhole _ hf =>
    rw [Cache.lookup_insertAs, fetch_cache hf] at hd
    split at hd
    · next hkey =>
      cases hd
      rw [hkey, Cache.key_of_whole hwhole]
      exact hr.serves_of_fetch hf
    · exact h.served hnone hd
  | @linked uri finalUri d' _ hd' hfinal hforeign hfree =>
    rw [Cache.lookup_insertAs] at hd
    split at hd
    · next hkey =>
      cases hd
      have hne : Cache.key finalUri ≠ Cache.key uri := by
        intro heq
        rw [Cache.get?, heq] at hfree
        cases hd'.symm.trans hfree
      have hloaded : base.cache.get? uri = none := by
        cases hold : base.cache.get? uri with
        | none => rfl
        | some d₀ =>
          have hown := hbase hold
          cases (h.kept.get? hold).symm.trans hd'
          rw [hfinal] at hown
          exact absurd (Option.some.inj hown) hne
      obtain ⟨loader, e, hloader, hserves, hed⟩ := h.served hloaded hd'
      obtain ⟨e', hserves', huri, hiso⟩ := hr.consistent loader hloader hserves (hed.uri.symm.trans hfinal) hne
      have hee' : e.Copied e' := ⟨huri, Value.copied_of_isomorphic (hr.wellFormed_of_serves hloader hserves)
        (hr.wellFormed_of_serves hloader hserves') hiso⟩
      exact ⟨loader, e', hloader, hkey ▸ hserves', hee'.symm.trans hed⟩
    · exact h.served hnone hd

theorem Supplied.run (hr : r.Dependable) (hbase : base.Titled) (h : r.Supplied base s) (hrun : r.Run s es s') :
    r.Supplied base s' :=
  hrun.keeps h fun _ hm hstep => hm.step hr hbase hstep

/-- What a URI leads to: the document in the cache, or else what the loader gives. -/
theorem load_result (r : Resolver) (uri : Uri) (s : Store) : (r.load uri s).1 =
    match s.cache.get? uri with
    | some d => .ok d
    | none => (Loader.fetch r.loader? uri.withoutFragment s).1 := by
  rw [load_run]
  cases s.cache.get? uri with
  | some d => rfl
  | none =>
    dsimp only
    cases Loader.fetch r.loader? uri.withoutFragment s with
    | mk result s' => cases result <;> rfl

/-- A URI leads to the same document as it did before anything was loaded, or fails as it did. -/
theorem Supplied.load (hr : r.Dependable) (hw : ∀ d, base.cache.Has d → d.root.graph.WellFormed)
    (h : r.Supplied base s) (uri : Uri) : SameEnd Document.Copied (r.load uri base).1 (r.load uri s).1 := by
  rw [load_result, load_result]
  cases hbase : base.cache.get? uri with
  | some d =>
    rw [h.kept.get? hbase]
    exact .ok (.refl (hw d ⟨_, hbase⟩))
  | none =>
    cases hs : s.cache.get? uri with
    | some d =>
      obtain ⟨loader, e, hloader, hserves, hed⟩ := h.served hbase hs
      have hserves : loader.Serves uri.withoutFragment.toText e := hserves
      obtain ⟨d', s', hfetch, hed'⟩ := hr.fetch_of_serves hloader hserves base
      dsimp only
      rw [hfetch]
      exact .ok (hed'.symm.trans hed)
    | none => exact hr.fetch_copied _ _ _

/-- Two stores in which, beside the documents of an earlier one, there is only what the loader serves. -/
def Alike (r : Resolver) (base s s' : Store) : Prop := r.Supplied base s ∧ r.Supplied base s'

/-! ### The same resolution -/

open Lockstep

section

variable (hr : r.Dependable) (hbase : base.Titled) (hw : ∀ d, base.cache.Has d → d.root.graph.WellFormed)

include hr hbase hw

theorem relates_load (uri : Uri) :
    (joined (r.Alike base) LoadFault).Relates Document.Copied (r.load uri) (r.load uri) := by
  have hsupplied : ∀ {s}, r.Supplied base s → r.Supplied base (r.load uri s).2 := fun {s} hs => by
    obtain ⟨es, hrun, -⟩ := r.load_runs uri s
    exact hs.run hr hbase hrun
  refine relates_joined_iff.2 fun s s' ⟨hs, hs'⟩ => ⟨?_, hsupplied hs, hsupplied hs'⟩
  exact (hs.load hr hw uri).join (hs'.load hr hw uri) fun hd he => hd.symm.trans he

theorem relates_resolveTarget (hde : d.Copied e) (reference : String) :
    (joined (r.Alike base) ReferenceError).Relates Target.Copied (r.resolveTarget reference d)
      (r.resolveTarget reference e) := by
  unfold resolveTarget
  rw [hde.name, hde.reordered.destination]
  refine Relates.adapt ((Relates.except (.self _)).bind_eq fun destination => ?_) _
  cases destination with
  | here fragment => exact .except ((hde.target fragment).mapError _)
  | elsewhere uri =>
    exact ((relates_load hr hbase hw uri).adapt _).bind fun d e hde => .except ((hde.target _).mapError _)

theorem relates_chase (hde : d.Copied e) (more : Nat) (visited : List Location) (reference : String) :
    (joined (r.Alike base) ReferenceError).Relates Target.Copied (r.chase more visited reference d)
      (r.chase more visited reference e) := by
  induction more generalizing visited reference d e with
  | zero =>
    rw [chase, chase]
    refine (relates_resolveTarget hr hbase hw hde reference).bind fun t u htu => ?_
    rw [htu.value.reordered.reference?, htu.location, hde.name]
    cases t.value.reference? with
    | none => exact .pure htu
    | some next =>
      dsimp only
      split <;> exact .throw rfl
  | succ more ih =>
    rw [chase, chase]
    refine (relates_resolveTarget hr hbase hw hde reference).bind fun t u htu => ?_
    rw [htu.value.reordered.reference?, htu.location, hde.name]
    cases t.value.reference? with
    | none => exact .pure htu
    | some next =>
      dsimp only
      split
      · exact .throw rfl
      · exact ih htu.document _ _

/-- **A reference leads to the same place whatever was loaded before**, or fails in the same way. -/
theorem relates_resolve {v w : Value} (hvw : v.Copied w) (hv : v.kind = .reference) (hde : d.Copied e) :
    (joined (r.Alike base) ReferenceError).Relates Target.Copied (r.resolve v d) (r.resolve w e) := by
  unfold resolve
  rw [hvw.reordered.reference?]
  cases hlink : v.reference? with
  | none => exact absurd hv (Value.kind_of_reference? hvw.left hlink)
  | some link => exact relates_chase hr hbase hw hde _ _ _

end

end Resolver

end JsonSchema
