import JsonSchema.Proofs.Compile.Construction
import JsonSchema.Proofs.Compile.Scoped
import JsonSchema.Proofs.Copies.Environment
import JsonSchema.Proofs.Reordered.Keywords

/-!
The documents that were loaded for earlier schemas do not show in later ones (`Compiler.compileValue_transparent`).
Whatever schemas were made before, and whether that succeeded or failed, beside the documents that were registered in
advance there is only what a dependable loader serves (`Compiler.supplied_history`): the document that is compiled is at
hand under its own URI alone, and no longer when its schema is made.

A construction that starts among these documents and one that starts without them are in step. They meet copies of the
same schema documents at the same places, so the graphs have the same nodes, which differ only in that the values in them
are copies (`Compiler.compile_copied`).
-/

namespace JsonSchema

open Compilation Lockstep

/-! ### Keywords of copies -/

theorem Value.likeness_copied : Value.Likeness Value.Copied where
  kind h := h.reordered.kind
  isArray h := h.reordered.isArray
  isObject h := h.reordered.isObject
  asBool? h := h.reordered.asBool?
  get? h := h.get?
  elements h := h.elements
  members h := h.members
  string? h := h.reordered.string?
  type h := h.reordered.type
  numeric h := h.reordered.numeric
  stringLengths h := h.reordered.stringLengths
  stringForms h := h.reordered.stringForms
  arraySizes h := h.reordered.arraySizes
  objectSizes h := h.reordered.objectSizes
  required h := h.reordered.required

theorem Document.Copied.label {d e : Document} (h : d.Copied e) : e.label = d.label := by
  rw [Document.label, Document.label, h.reordered.uriText]

theorem Document.Copied.regex {d e : Document} (h : d.Copied e) (read? : String → Option Regex) (maxLength : Nat)
    (text : String) (place : Pointer) : e.regex read? maxLength text place = d.regex read? maxLength text place := by
  unfold Document.regex
  rw [h.label]

/-- Nodes that are alike with related values. -/
theorem SchemaNode.Like.imp {V W : Value → Value → Prop} {n m : SchemaNode} (h : n.Like V m)
    (hVW : ∀ v w, V v w → W v w) : n.Like W m := by
  refine ⟨h.constraints.imp fun c c' hc => ?_, ?_, h.title, h.description⟩
  · cases hc with
    | same => exact .same c
    | enum hvalues => exact .enum (hvalues.imp hVW)
  · have hdefault := h.default?
    generalize n.default? = o, m.default? = o' at hdefault
    cases hdefault with
    | none => exact .none
    | some hv => exact .some (hVW _ _ hv)

/-! ### Constructions among copies -/

/-- Constructions that have come to the same nodes of the same places, where values are copies. -/
structure Compilation.Copied (r : Resolver) (base : Store) (x x' : Compilation) : Prop where
  store : r.Alike base x.store x'.store
  nodes : List.Forall₂ (SchemaNode.Like Value.Copied) x.builder.nodes.toList x'.builder.nodes.toList
  never? : x'.builder.never? = x.builder.never?
  known : x'.known = x.known
  checked : x'.checked = x.checked

namespace Compilation.Copied

variable {r : Resolver} {base : Store} {x x' : Compilation} (h : x.Copied r base x')

include h

theorem size : x'.builder.nodes.size = x.builder.nodes.size := h.nodes.length_eq.symm

theorem push {n m : SchemaNode} (hnm : n.Like Value.Copied m) :
    List.Forall₂ (SchemaNode.Like Value.Copied) (x.builder.nodes.push n).toList (x'.builder.nodes.push m).toList := by
  rw [Array.toList_push, Array.toList_push]
  exact List.rel_append h.nodes (.cons hnm .nil)

theorem update (id : SchemaId) {n m : SchemaNode} (hnm : n.Like Value.Copied m) :
    List.Forall₂ (SchemaNode.Like Value.Copied) (x.builder.update id fun _ => n).nodes.toList
      (x'.builder.update id fun _ => m).nodes.toList := by
  have hmodify : ∀ {l l' : List SchemaNode} (i : Nat), List.Forall₂ (SchemaNode.Like Value.Copied) l l' →
      List.Forall₂ (SchemaNode.Like Value.Copied) (l.modify i fun _ => n) (l'.modify i fun _ => m) := by
    intro l l' i hl
    induction hl generalizing i with
    | nil => cases i <;> exact .nil
    | cons ha hl ih =>
      cases i with
      | zero => exact .cons hnm hl
      | succ i => exact .cons ha (ih i)
  unfold SchemaBuilder.update
  rw [Array.toList_modify, Array.toList_modify]
  exact hmodify _ h.nodes

end Compilation.Copied

theorem building_run {α : Type} (change : SchemaBuilder → α × SchemaBuilder) (x : Compilation) :
    building change x = (.ok (change x.builder).1, { x with builder := (change x.builder).2 }) := rfl

/-! ### Schemas -/

/-- Schemas with the same graph, but for the values in it. -/
structure Schema.Like (V : Value → Value → Prop) (s t : Schema) : Prop where
  id : t.id = s.id
  nodes : List.Forall₂ (SchemaNode.Like V) s.graph.nodes.toList t.graph.nodes.toList

namespace Compiler

variable {c : Compiler} {base : Store} {d e : Document}

theorem finding_copied {v w : Value} (hvw : v.Copied w) (hde : d.Copied e) (p : Pointer) :
    c.finding w e p = c.finding v d p := by
  unfold finding
  rw [hvw.validate, hde.label]

/-- Among documents that are copies every part of a construction ends alike. -/
theorem inStep_copied (hr : c.resolver.Dependable) (hbase : base.Titled)
    (hw : ∀ d, base.cache.Has d → d.root.graph.WellFormed) :
    c.construction.InStep (joined (Compilation.Copied c.resolver base) SchemaError) Value.Copied c.construction
      fun v d v' d' _ => v.Copied v' ∧ d.Copied d' where
  likeness := Value.likeness_copied
  value hp := hp.1
  known hx hp := by rw [hx.known, hp.2.reordered.location]
  enter hp id := by
    refine relates_joined_iff.2 fun x x' hx => ⟨.ok rfl, hx.store, hx.nodes, hx.never?, ?_, hx.checked⟩
    exact congrArg₂ List.cons (by rw [hp.2.reordered.location]) hx.known
  allocate := by
    refine relates_joined_iff.2 fun x x' hx => ⟨.ok (congrArg SchemaId.mk hx.size.symm), hx.store, ?_, hx.never?,
      hx.known, hx.checked⟩
    exact hx.push ⟨.nil, .none, rfl, rfl⟩
  never := by
    refine relates_joined_iff.2 fun x x' hx => ?_
    have hnever := hx.never?
    have hforbids : SchemaNode.Like Value.Copied { constraints := [.not .empty] } { constraints := [.not .empty] } :=
      ⟨.cons (.same _) .nil, .none, rfl, rfl⟩
    rw [building_run, building_run]
    unfold SchemaBuilder.never
    rw [hnever]
    cases hn : x.builder.never? with
    | some id => exact ⟨.ok rfl, hx⟩
    | none =>
      have hid := congrArg SchemaId.mk hx.size.symm
      exact ⟨.ok hid, hx.store, hx.push hforbids, congrArg some hid.symm, hx.known, hx.checked⟩
  fill id hnode := by
    refine relates_joined_iff.2 fun x x' hx => ⟨.ok rfl, hx.store, hx.update id hnode, hx.never?, hx.known, hx.checked⟩
  subschema hp _ hV _ _ := ⟨hV, hp.2⟩
  resolve {v d v' d' p} hp hv := by
    refine relates_joined_iff.2 fun x x' hx => ?_
    have hends := relates_joined_iff.1 (Resolver.relates_resolve hr hbase hw hp.1 hv hp.2) _ _ hx.store
    have hkeep : Compilation.Copied c.resolver base { x with store := (c.resolver.resolve v d x.store).2 }
        { x' with store := (c.resolver.resolve v' d' x'.store).2 } :=
      ⟨hends.2, hx.nodes, hx.never?, hx.known, hx.checked⟩
    exact ⟨(hends.1.mapError _).weaken fun t u htu => ⟨htu.pointer, htu.value, htu.document⟩, hkeep⟩
  check {v d v' d' p} hp := by
    refine relates_joined_iff.2 fun x x' hx => ?_
    change SameEnd _ (c.check v d p x).1 (c.check v' d' p x').1 ∧
      Compilation.Copied _ _ (c.check v d p x).2 (c.check v' d' p x').2
    rw [check_eq, check_eq, hx.checked, hp.2.reordered.location]
    split
    · exact ⟨.ok rfl, hx⟩
    · rw [finding_copied hp.1 hp.2]
      exact ⟨.self _, hx.store, hx.nodes, hx.never?, hx.known, rfl⟩
  regex {v d v' d' p text place} hp _ _ := by
    simp only [construction]
    rw [hp.2.regex]
    exact .except (.self _)
  deep hp := congrArg (SchemaError.tooDeep · _ _) hp.2.label.symm

/-- A document becomes a schema among the documents of an earlier store as it does with others that a dependable loader
serves, but for the numbers of the nodes of values. -/
theorem compile_copied (hr : c.resolver.Dependable) (hbase : (base.opened d).Titled)
    (hw : ∀ e, (base.opened d).cache.Has e → e.root.graph.WellFormed) (hd : d.root.graph.WellFormed) {s s' : Store}
    (hs : c.resolver.Alike (base.opened d) (s.opened d) (s'.opened d)) :
    SameEnd (Schema.Like Value.Copied) (c.compile d s).1 (c.compile d s').1 := by
  have hstart : Compilation.Copied c.resolver (base.opened d) (start (s.opened d)) (start (s'.opened d)) :=
    ⟨hs, .cons ⟨.nil, .none, rfl, rfl⟩ .nil, rfl, rfl, rfl⟩
  have hplace : d.root.Copied d.root ∧ d.Copied d := ⟨.refl hd, .refl hd⟩
  have hlevels : c.limits.maxDepth + 1 = c.limits.maxDepth + 1 := rfl
  have hwork := relates_joined_iff.1 ((inStep_copied hr hbase hw).relates_work (.inl hlevels) (p := .root) hplace)
    _ _ hstart
  rw [node_construction] at hwork
  simp only [construction] at hwork
  cases hrun : (c.check d.root d .root >>= fun _ => c.node (c.limits.maxDepth + 1) d.root d .root)
      (start (s.opened d)) with
  | mk result x =>
    cases hrun' : (c.check d.root d .root >>= fun _ => c.node (c.limits.maxDepth + 1) d.root d .root)
        (start (s'.opened d)) with
    | mk result' x' =>
      rw [hrun, hrun'] at hwork
      obtain ⟨hend, hx⟩ := hwork
      rw [compile_run hrun, compile_run hrun']
      cases hend with
      | ok hid => exact .ok ⟨hid.symm, hx.nodes⟩
      | error e => exact .error e

end Compiler

/-! ### What earlier schemas leave behind -/

namespace Store

variable {s base : Store} {d : Document} {key : String}

theorem Titled.opened (h : s.Titled) (d : Document) : (s.opened d).Titled := by
  intro key e he
  by_cases hkey : d.uri?.map Cache.key = some key
  · rw [lookup_opened hkey] at he
    cases he
    exact hkey
  · rw [lookup_opened_of_ne hkey] at he
    exact h he

end Store

namespace Resolver

variable {r : Resolver} {base s s' : Store} {d : Document}

/-- A document that is opened is one of those that were there in the beginning. -/
theorem Supplied.opened (h : r.Supplied base s) (d : Document) : r.Supplied (base.opened d) (s.opened d) := by
  refine ⟨fun key e he => ?_, fun {key e} hnone he => ?_⟩
  · by_cases hkey : d.uri?.map Cache.key = some key
    · rw [Store.lookup_opened hkey] at he ⊢
      exact he
    · rw [Store.lookup_opened_of_ne hkey] at he ⊢
      exact h.kept key e he
  · by_cases hkey : d.uri?.map Cache.key = some key
    · rw [Store.lookup_opened hkey] at hnone
      cases hnone
    · rw [Store.lookup_opened_of_ne hkey] at hnone he
      exact h.served hnone he

/-- When the entry of the document is put back, what is left is what was there before and what was loaded. -/
theorem Supplied.closed (h : r.Supplied base s) (h' : r.Supplied (base.opened d) s') :
    r.Supplied base (s'.closed d s) := by
  refine ⟨fun key e he => ?_, fun {key e} hnone he => ?_⟩
  · by_cases hkey : d.uri?.map Cache.key = some key
    · rw [Store.lookup_closed hkey]
      exact h.kept key e he
    · rw [Store.lookup_closed_of_ne hkey]
      exact h'.kept key e ((Store.lookup_opened_of_ne hkey).trans he)
  · by_cases hkey : d.uri?.map Cache.key = some key
    · rw [Store.lookup_closed hkey] at he
      exact h.served hnone he
    · rw [Store.lookup_closed_of_ne hkey] at he
      exact h'.served ((Store.lookup_opened_of_ne hkey).trans hnone) he

end Resolver

/-- A cache in which documents were registered in advance, each under its own URI. -/
def Store.preregistered (documents : List Document) (tag : Nat) : Store :=
  { Store.start tag with cache := documents.foldl Cache.insert .empty }

theorem Store.lookup_preregistered {documents : List Document} {tag : Nat} {key : String} {d : Document}
    (h : (Store.preregistered documents tag).cache.entries.lookup key = some d) :
    d ∈ documents ∧ d.uri?.map Cache.key = some key := by
  have hfold : ∀ (l : List Document) (c : Cache), (l.foldl Cache.insert c).entries.lookup key = some d →
      d ∈ l ∧ d.uri?.map Cache.key = some key ∨ c.entries.lookup key = some d := by
    intro l
    induction l with
    | nil => exact fun c hd => .inr hd
    | cons e l ih =>
      intro c hd
      rcases ih _ hd with ⟨hmem, hkey⟩ | hd
      · exact .inl ⟨List.mem_cons_of_mem _ hmem, hkey⟩
      · unfold Cache.insert at hd
        cases hu : e.uri? with
        | none =>
          rw [hu] at hd
          exact .inr hd
        | some uri =>
          rw [hu] at hd
          dsimp only at hd
          rw [Cache.lookup_insertAs] at hd
          split at hd
          · next hkey =>
            cases hd
            exact .inl ⟨List.mem_cons_self, by rw [hu, hkey]; rfl⟩
          · exact .inr hd
  exact (hfold _ _ h).resolve_right fun hempty => by cases hempty

namespace Compiler

variable {c : Compiler} {base s : Store}

/-- The documents at hand after values were compiled one after the other, each with its URI, if there is one. -/
def history (c : Compiler) (calls : List (Value × Option String)) (s : Store) : Store :=
  calls.foldl (fun s call => (c.compileValue call.1 call.2 s).2) s

theorem supplied_compileValue (hr : c.resolver.Dependable) (hbase : base.Titled) (hs : c.resolver.Supplied base s)
    (v : Value) (uri? : Option String) : c.resolver.Supplied base (c.compileValue v uri? s).2 := by
  cases hgiven : Document.given v uri? with
  | error e =>
    rw [compileValue_of_not_given c s hgiven]
    exact hs
  | ok document =>
    obtain ⟨s₁, es, hrun, hcompile⟩ := c.compile_runs document s
    rw [(compileValue_eq c s hgiven).2, hcompile]
    have hclosed := hs.closed ((hs.opened document).run hr (hbase.opened document) hrun)
    exact ⟨hclosed.kept, hclosed.served⟩

/-- Whatever schemas were made before, beside the first documents there is only what the loader serves. -/
theorem supplied_history (hr : c.resolver.Dependable) (hbase : base.Titled) (hs : c.resolver.Supplied base s)
    (calls : List (Value × Option String)) : c.resolver.Supplied base (c.history calls s) := by
  unfold history
  induction calls generalizing s with
  | nil => exact hs
  | cons call calls ih => exact ih (supplied_compileValue hr hbase hs call.1 call.2)

/-- **What was loaded for earlier schemas does not show in later ones.** Among documents that were registered in advance,
with a loader whose answers are a function of the URI and do not contradict each other, a value becomes the same schema
after any other values, which became schemas or failed to, as it does when nothing was compiled before, but that the
values in it are isomorphic copies; or it fails in the same way. -/
theorem compileValue_transparent {c : Compiler} (hr : c.resolver.Dependable) {documents : List Document}
    (hdocuments : ∀ d ∈ documents, d.root.graph.WellFormed) (earlier : List (Value × Option String)) {v : Value}
    (hv : v.graph.WellFormed) (uri? : Option String) (tag tag' : Nat) :
    SameEnd (Schema.Like Value.Isomorphic) (c.compileValue v uri? (.preregistered documents tag)).1
      (c.compileValue v uri? (c.history earlier (.preregistered documents tag'))).1 := by
  cases hgiven : Document.given v uri? with
  | error e =>
    rw [compileValue_of_not_given c _ hgiven, compileValue_of_not_given c _ hgiven]
    exact .error e
  | ok document =>
    have hbase : (Store.preregistered documents tag).Titled := fun hd => (Store.lookup_preregistered hd).2
    have hw : ∀ e, ((Store.preregistered documents tag).opened document).cache.Has e → e.root.graph.WellFormed := by
      intro e he
      rcases Store.has_opened he with rfl | ⟨key, he⟩
      · rwa [(compileValue_eq c (.preregistered documents tag) hgiven).1]
      · exact hdocuments e (Store.lookup_preregistered he).1
    have hstart : c.resolver.Supplied (.preregistered documents tag) (.preregistered documents tag') :=
      .of_cache_eq _ rfl
    have hsupplied := supplied_history hr hbase hstart earlier
    obtain ⟨hroot, hcompile⟩ := compileValue_eq c (.preregistered documents tag) hgiven
    rw [hcompile, (compileValue_eq c _ hgiven).2]
    refine (compile_copied hr (hbase.opened document) hw (by rwa [hroot])
      ⟨(Resolver.Supplied.of_cache_eq _ rfl).opened document, hsupplied.opened document⟩).weaken fun s t hst => ?_
    exact ⟨hst.id, hst.nodes.imp fun n m hnm => hnm.imp fun v w => Value.Copied.isomorphic⟩

/-- A document that has moved. -/
def movedRemote : Remote :=
  ⟨⟨#[.object [("enum", .cell 1), ("default", .cell 1)], .array [.cell 2, .string "a"], .array []]⟩, .cell 0, "http://new"⟩

/-- The document is found under its new URI, and under the old one as well. -/
def currentLoader : Loader :=
  .ofSources [⟨"http://old", [], .ok movedRemote⟩, ⟨"http://new", [], .ok movedRemote⟩]

/-- Documents are loaded from where they are now. -/
def lastingCompiler : Compiler := ⟨⟨some currentLoader, .standard⟩, .standard⟩

/-- A document that is registered in advance. -/
def registeredDocument : Document :=
  ⟨some ⟨"http".toList, some "known".toList, [], none, none⟩, ⟨⟨0, #[.object [("type", 1)], .string "null"]⟩, 0⟩⟩

/-- A schema that refers to the registered document and to the one that has moved, by both of its URIs. -/
def threefoldSchema : Value := ⟨⟨1, #[.object [("anyOf", 1)], .array [2, 4, 6], .reference [("$ref", 3)],
  .string "http://new", .reference [("$ref", 5)], .string "http://known", .reference [("$ref", 7)], .string "http://old"]⟩,
  0⟩

theorem dependable_lastingCompiler : lastingCompiler.resolver.Dependable := by
  have hcases : ∀ {key : String} {remote : Remote}, currentLoader.answer key 0 = .ok remote → remote = movedRemote := by
    intro key remote h
    obtain ⟨source, hmem, -, hanswer⟩ := Loader.exists_source h
    simp only [List.mem_cons, List.not_mem_nil, or_false] at hmem
    rcases hmem with rfl | rfl <;> exact Except.ok.inj (List.mem_singleton.mp hanswer)
  have hwf : currentLoader.WellFormed := Loader.wellFormed_ofSources (by decide)
  refine ⟨fun loader hl => ?_, fun loader hl => ?_, fun loader hl => ?_⟩ <;> cases hl
  · intro uri earlier
    by_cases hold : "http://old" = uri <;> by_cases hnew : "http://new" = uri <;>
      simp [currentLoader, Loader.ofSources, hold, hnew]
  · exact hwf
  · rintro key d uri ⟨remote, root, finalUri, ha, ht, hu, rfl⟩ huri -
    cases huri
    cases hcases ha
    have hparse : (Uri.parse movedRemote.finalUri).map Cache.key = .ok "http://new" := by decide +kernel
    rw [hu] at hparse
    have hkey : Cache.key finalUri.withoutFragment = "http://new" := Except.ok.inj hparse
    refine ⟨_, ⟨movedRemote, root, finalUri, hkey ▸ rfl, ht, hu, rfl⟩, rfl, (Value.Copied.refl ?_).isomorphic⟩
    exact Resolver.wellFormed_of_answer (r := lastingCompiler.resolver) (fun loader hl => by cases hl; exact hwf) rfl ha ht

/-- A schema takes the place of the document that has moved, one has a URI that cannot be read, and one takes the place of
the registered document but refers to another one that cannot be loaded. -/
def earlierCalls : List (Value × Option String) :=
  [(forwardSchema, some "http://new"), (threefoldSchema, some "new"), (ringSchema, some "http://known")]

/-- After these calls the schema is the same as before. -/
theorem compileValue_threefoldSchema : lastingCompiler.resolver.Dependable ∧
    (∀ d ∈ [registeredDocument], d.root.graph.WellFormed) ∧ threefoldSchema.graph.WellFormed ∧
    ∃ s t, (lastingCompiler.compileValue threefoldSchema none (.preregistered [registeredDocument] 2)).1 = .ok s ∧
      (lastingCompiler.compileValue threefoldSchema none
        (lastingCompiler.history earlierCalls (.preregistered [registeredDocument] 3))).1 = .ok t ∧
      s.Like Value.Isomorphic t := by
  have hdocuments : ∀ d ∈ [registeredDocument], d.root.graph.WellFormed := by decide
  have hv : threefoldSchema.graph.WellFormed := by decide
  have hok : (lastingCompiler.compileValue threefoldSchema none (.preregistered [registeredDocument] 2)).1.isOk = true := by
    decide +kernel
  have hend := compileValue_transparent dependable_lastingCompiler hdocuments earlierCalls hv none 2 3
  refine ⟨dependable_lastingCompiler, hdocuments, hv, ?_⟩
  generalize (lastingCompiler.compileValue threefoldSchema none (.preregistered [registeredDocument] 2)).1 = result,
    (lastingCompiler.compileValue threefoldSchema none
      (lastingCompiler.history earlierCalls (.preregistered [registeredDocument] 3))).1 = result' at hok hend ⊢
  cases hend with
  | ok hlike => exact ⟨_, _, rfl, rfl, hlike⟩
  | error e => cases hok

end Compiler

end JsonSchema
