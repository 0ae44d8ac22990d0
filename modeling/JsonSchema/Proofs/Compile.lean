import JsonSchema.Proofs.Compile.Invariant

/-!
Schemas are faithful to their documents (`compile_reflects`). A schema reflects a document (`Schema.Reflects`) if the
visited places have nodes such that each place without reference has a node of its own, which holds the meaning of the
keywords there, each reference has the node of the place that it leads to in the end, and the graph has no other nodes
than the empty one and the one that accepts nothing.

Compiling a place takes it through the states of the invariant: it is opened, the places in it are compiled, and it is
closed (`Sound.plain`). When nothing is open any more, all that is visited is known (`Inv.covers`).
-/

namespace JsonSchema

open Compilation

/-! ### Runs of the compiler -/

namespace Compiler

variable {c : Compiler} {v : Value} {document d : Document} {p : Pointer} {x x' : Compilation} {id : SchemaId}
  {remaining : Nat}

/-- What a check of the schema document at a place finds. -/
def finding (c : Compiler) (v : Value) (d : Document) (p : Pointer) : Except SchemaError Unit :=
  match (metaSchema.validate c.limits.maxDepth v).find? fun issue => issue.violation.isTooDeep with
  | some issue => .error (.tooDeep d.label (p ++ issue.pointer) c.limits.maxDepth)
  | none =>
    if (metaSchema.validate c.limits.maxDepth v).isEmpty then .ok ⟨⟩
    else .error (.invalidSpecification d.label p (metaSchema.validate c.limits.maxDepth v))

theorem finding_eq_ok_iff : c.finding v d p = .ok ⟨⟩ ↔ metaSchema.validate c.limits.maxDepth v = [] := by
  unfold finding
  cases hreport : metaSchema.validate c.limits.maxDepth v with
  | nil => simp
  | cons issue rest =>
    split
    · simp
    · rw [if_neg (by simp)]
      simp

/-- A place is checked once, and the check has no effect but that it is remembered. -/
theorem check_eq (c : Compiler) (v : Value) (d : Document) (p : Pointer) (x : Compilation) :
    c.check v d p x = if x.checked.contains (d.location p) then (.ok ⟨⟩, x)
      else (c.finding v d p, { x with checked := d.location p :: x.checked }) := by
  unfold check finding
  simp only [run_bind, run_get]
  split
  · rfl
  · simp only [run_bind, run_modify]
    cases (metaSchema.validate c.limits.maxDepth v).find? fun issue => issue.violation.isTooDeep with
    | some issue => rfl
    | none =>
      dsimp only
      split <;> rfl

theorem check_run (c : Compiler) (v : Value) (d : Document) (p : Pointer) (x : Compilation) :
    ∃ checked, (c.check v d p x).2 = { x with checked } := by
  rw [check_eq]
  split
  · exact ⟨x.checked, rfl⟩
  · exact ⟨_, rfl⟩

/-- The schema document at a place, whose parts have fewer levels left. -/
def source (c : Compiler) (remaining : Nat) (v : Value) (d : Document) (p : Pointer) : SchemaSource :=
  ⟨v, d, p, fun w q => c.node remaining w d q, c.limits.maxRegexLength⟩

theorem resolving_run {α : Type} (y : Resolving α) (x : Compilation) :
    resolving y x = ((y x.store).1.mapError .unresolved, { x with store := (y x.store).2 }) := rfl

theorem node_of_known (h : x.known.lookup (d.location p) = some id) : c.node remaining v d p x = (.ok id, x) := by
  cases remaining <;> rw [Compiler.node] <;> simp only [run_bind, run_get, h] <;> rfl

theorem node_zero (h : x.known.lookup (d.location p) = none) :
    c.node 0 v d p x = (.error (.tooDeep d.label p c.limits.maxDepth), x) := by
  rw [Compiler.node]
  simp only [run_bind, run_get, h]
  rfl

/-- What is done at a place with a reference that is met for the first time. -/
theorem node_reference_run (h : x.known.lookup (d.location p) = none) (hr : v.kind = .reference) :
    c.node (remaining + 1) v d p x = (do
      let target ← resolving (c.resolver.resolve v d)
      if ((← get).known.lookup target.location).isNone then
        c.check target.value target.document target.pointer
      let id ← c.node remaining target.value target.document target.pointer
      enter (d.location p) id
      return id : Compiling SchemaId) x := by
  rw [Compiler.node, run_bind, run_get]
  simp only [h, if_pos hr]

/-- What is done at another place that is met for the first time. -/
theorem node_schema_run (h : x.known.lookup (d.location p) = none) (hr : v.kind ≠ .reference) :
    c.node (remaining + 1) v d p x = (do
      let id ← building SchemaBuilder.allocate
      enter (d.location p) id
      let node ← (c.source remaining v d p).node
      building fun b => ((), b.update id fun _ => node)
      return id : Compiling SchemaId) x := by
  rw [Compiler.node, run_bind, run_get]
  simp only [h, if_neg hr]
  rfl

/-- What a reference leads to is known, or it has been checked. -/
def Passes (c : Compiler) (t : Target) (x : Compilation) (checked : List Location) : Prop :=
  (∃ id, x.known.lookup t.location = some id) ∧ checked = x.checked ∨
    c.check t.value t.document t.pointer x = (.ok ⟨⟩, { x with checked })

/-- What is left to do when the schema document has passed: it is compiled, and the reference goes by its node. -/
theorem node_enter_cases {result : Except SchemaError SchemaId} {t : Target} {y : Compilation}
    (hrun : (c.node remaining t.value t.document t.pointer >>= fun id =>
      enter (d.location p) id >>= fun _ => pure id) y = (result, x')) :
    ∃ x₁, c.node remaining t.value t.document t.pointer y = (result, x₁) ∧
      ∀ id, result = .ok id → x' = { x₁ with known := (d.location p, id) :: x₁.known } := by
  rw [run_bind] at hrun
  split at hrun
  · next id x₁ hnode =>
    cases hrun
    refine ⟨x₁, hnode, fun id' hid => ?_⟩
    cases hid
    rfl
  · next e x₁ hnode =>
    cases hrun
    exact ⟨_, hnode, fun _ hid => by cases hid⟩

/-- A place with a reference is compiled through the place that the reference leads to, if it leads there and the schema
document there passes the check. -/
theorem node_reference_cases {result : Except SchemaError SchemaId} (h : x.known.lookup (d.location p) = none)
    (hr : v.kind = .reference) (hrun : c.node (remaining + 1) v d p x = (result, x')) :
    (∃ e s, c.resolver.resolve v d x.store = (.error e, s) ∧ result = .error (.unresolved e)) ∨
    ∃ t s, c.resolver.resolve v d x.store = (.ok t, s) ∧
      ((∃ e, (c.check t.value t.document t.pointer { x with store := s }).1 = .error e ∧ result = .error e) ∨
      ∃ checked x₁, c.Passes t { x with store := s } checked ∧
        c.node remaining t.value t.document t.pointer { x with store := s, checked } = (result, x₁) ∧
        ∀ id, result = .ok id → x' = { x₁ with known := (d.location p, id) :: x₁.known }) := by
  rw [node_reference_run h hr] at hrun
  simp only [run_bind, run_get] at hrun
  cases hresolve : c.resolver.resolve v d x.store with
  | mk answer s =>
    simp only [resolving_run, hresolve] at hrun
    cases answer with
    | error e =>
      cases hrun
      exact .inl ⟨e, s, rfl, rfl⟩
    | ok t =>
      simp only [Except.mapError] at hrun
      refine .inr ⟨t, s, rfl, ?_⟩
      split at hrun
      · cases hcheck : c.check t.value t.document t.pointer { x with store := s } with
        | mk passed x₁ =>
          obtain ⟨checked, hx₁⟩ := c.check_run t.value t.document t.pointer { x with store := s }
          rw [hcheck] at hx₁
          cases hx₁
          cases passed with
          | error e =>
            cases (run_bind_of_error hcheck).symm.trans hrun
            exact .inl ⟨e, rfl, rfl⟩
          | ok =>
            obtain ⟨x₁, hnode, hx'⟩ := node_enter_cases ((run_bind_of_ok hcheck).symm.trans hrun)
            exact .inr ⟨checked, x₁, .inr hcheck, hnode, hx'⟩
      · next hknown =>
        obtain ⟨x₁, hnode, hx'⟩ := node_enter_cases hrun
        refine .inr ⟨x.checked, x₁, .inl ⟨Option.isSome_iff_exists.mp ?_, rfl⟩, hnode, hx'⟩
        simpa using hknown

theorem node_reference (h : x.known.lookup (d.location p) = none) (hr : v.kind = .reference)
    (hrun : c.node (remaining + 1) v d p x = (.ok id, x')) :
    ∃ t s checked x₁, c.resolver.resolve v d x.store = (.ok t, s) ∧ c.Passes t { x with store := s } checked ∧
      c.node remaining t.value t.document t.pointer { x with store := s, checked } = (.ok id, x₁) ∧
      x' = { x₁ with known := (d.location p, id) :: x₁.known } := by
  rcases node_reference_cases h hr hrun with ⟨_, _, _, ⟨⟩⟩ | ⟨t, s, ht, ⟨_, _, ⟨⟩⟩ | ⟨checked, x₁, hpasses, hnode, hx'⟩⟩
  exact ⟨t, s, checked, x₁, ht, hpasses, hnode, hx' id rfl⟩

/-- Another place is opened, and closed with what its keywords compute. -/
theorem node_plain_run (h : x.known.lookup (d.location p) = none) (hr : v.kind ≠ .reference) :
    c.node (remaining + 1) v d p x = match (c.source remaining v d p).node (x.opened (d.location p)) with
      | (.ok node, x₁) => (.ok ⟨x.builder.nodes.size⟩, x₁.closed ⟨x.builder.nodes.size⟩ node)
      | (.error e, x₁) => (.error e, x₁) := by
  have hallocate : building SchemaBuilder.allocate x =
      (.ok ⟨x.builder.nodes.size⟩, { x with builder := x.builder.allocate.2 }) := rfl
  have henter : enter (d.location p) ⟨x.builder.nodes.size⟩ { x with builder := x.builder.allocate.2 } =
      (.ok ⟨⟩, x.opened (d.location p)) := rfl
  rw [node_schema_run h hr]
  simp only [run_bind, hallocate, henter]
  split
  · next hnode =>
    rw [hnode]
    rfl
  · next hnode => rw [hnode]

theorem node_plain (h : x.known.lookup (d.location p) = none) (hr : v.kind ≠ .reference)
    (hrun : c.node (remaining + 1) v d p x = (.ok id, x')) :
    id = ⟨x.builder.nodes.size⟩ ∧ ∃ node x₁,
      (c.source remaining v d p).node (x.opened (d.location p)) = (.ok node, x₁) ∧ x' = x₁.closed id node := by
  rw [node_plain_run h hr] at hrun
  split at hrun
  · next node x₁ hnode =>
    cases hrun
    exact ⟨rfl, node, x₁, hnode, rfl⟩
  · cases hrun

/-- A place without reference fails as its keywords do. -/
theorem node_plain_error {e : SchemaError} (h : x.known.lookup (d.location p) = none) (hr : v.kind ≠ .reference)
    (hrun : c.node (remaining + 1) v d p x = (.error e, x')) :
    (c.source remaining v d p).node (x.opened (d.location p)) = (.error e, x') := by
  rw [node_plain_run h hr] at hrun
  split at hrun
  · cases hrun
  · next e' x₁ hnode =>
    cases hrun
    exact hnode

theorem quiet_source (hnode : ∀ w q, Quiet document (c.node remaining w d q)) :
    Quiet document (c.source remaining v d p).node := by
  have hreads : Reads (fun _ => False) document .empty (c.source remaining v d p).node
      fun x => ((c.source remaining v d p).reading x).node :=
    SchemaSource.reads_node (fun w q _ => ⟨hnode w q, fun hg => hg.known, fun h => h.elim⟩)
      (fun _ => ⟨.of_store fun _ => by rfl, fun hg => hg.never, fun h => h.elim⟩)
  exact hreads.quiet

theorem quiet_node (hl : ∀ loader ∈ c.resolver.loader?, loader.WellFormed) (document : Document) (remaining : Nat)
    (v : Value) (d : Document) (p : Pointer) : Quiet document (c.node remaining v d p) := by
  induction remaining generalizing v d p with
  | zero =>
    rw [Compiler.node]
    refine (Quiet.of_store fun _ => rfl).bind fun s => ?_
    split <;> exact .of_store fun _ => rfl
  | succ remaining ih =>
    have hcheck : ∀ v d p, Quiet document (c.check v d p) := fun v d p => .of_store fun x => by
      obtain ⟨checked, hx⟩ := c.check_run v d p x
      rw [hx]
    have hresolving : Quiet document (resolving (c.resolver.resolve v d)) := fun x =>
      Resolver.extends_resolve hl document v d x.store
    rw [Compiler.node]
    refine (Quiet.of_store fun _ => rfl).bind fun s => ?_
    split
    · exact .of_store fun _ => rfl
    · split
      · refine hresolving.bind fun t => (Quiet.of_store fun _ => rfl).bind fun s => ?_
        have hrest : Quiet document (do
            let id ← c.node remaining t.value t.document t.pointer
            enter (d.location p) id
            return id) :=
          (ih _ _ _).bind fun id => .of_store fun _ => rfl
        dsimp only
        split
        · exact (hcheck _ _ _).bind fun _ => hrest
        · exact hrest
      · refine (Quiet.of_store fun _ => rfl).bind fun id => (Quiet.of_store fun _ => rfl).bind fun _ => ?_
        exact (quiet_source fun w q => ih w d q).bind fun node => .of_store fun _ => rfl

/-- With this number of levels left, a place that is visited is known after it was compiled, and what was open is
still so. -/
def Sound (c : Compiler) (document : Document) (final : Cache) (remaining : Nat) : Prop :=
  ∀ {opens v d p x x' id}, Inv c.resolver document opens x → Visited (c.resolver.Settled x.store) document v d p →
    c.node remaining v d p x = (.ok id, x') → x'.store.cache.Grows final →
    Inv c.resolver document opens x' ∧ x.Grows x' ∧ Knows c.resolver document x' v d p id

theorem sound_of_known {opens : List Location} (h : Inv c.resolver document opens x)
    (hv : Visited (c.resolver.Settled x.store) document v d p) {id' : SchemaId}
    (hk : x.known.lookup (d.location p) = some id') (hrun : c.node remaining v d p x = (.ok id, x')) :
    Inv c.resolver document opens x' ∧ x.Grows x' ∧ Knows c.resolver document x' v d p id := by
  cases (node_of_known hk).symm.trans hrun
  exact ⟨h, .refl x, hv, hk⟩

section

variable (hl : ∀ loader ∈ c.resolver.loader?, loader.WellFormed) {final : Cache}
  {opens : List Location} (h : Inv c.resolver document opens x)
  (hv : Visited (c.resolver.Settled x.store) document v d p) (hfinal : x'.store.cache.Grows final)

include hl h hv hfinal

theorem Sound.reference (hsound : c.Sound document final remaining) (hd : final.Distinct document)
    (hk : x.known.lookup (d.location p) = none) (hr : v.kind = .reference)
    (hrun : c.node (remaining + 1) v d p x = (.ok id, x')) :
    Inv c.resolver document opens x' ∧ x.Grows x' ∧ Knows c.resolver document x' v d p id := by
  obtain ⟨t, s, checked, x₁, hresolve, -, hnode, rfl⟩ := node_reference hk hr hrun
  have hextends : x.store.Extends document s := by
    have := Resolver.extends_resolve hl document v d x.store
    rwa [hresolve] at this
  have hgrows : s.cache.Grows x₁.store.cache := ((quiet_node hl document _ _ _ _).extends_of_eq hnode).grows
  have hload : Inv c.resolver document opens { x with store := s, checked } ∧
      x.Grows { x with store := s, checked } :=
    h.extend hextends (hd.mono (hgrows.trans hfinal)) rfl rfl
  obtain ⟨h₀, hg₀⟩ := hload
  have ht : c.resolver.Settled s v d t := (c.resolver.closed_steady.resolve v d).again hresolve (.refl _)
  obtain ⟨h₁, hg₁, hkt⟩ := hsound h₀ (.target (hv.grow hg₀.store) hr ht) hnode hfinal
  have hv₁ := hv.grow (hg₀.trans hg₁).store
  obtain ⟨h', hg'⟩ := h₁.enter hv₁ hr (ht.mono hg₁.store) hkt.lookup
  exact ⟨h', (hg₀.trans hg₁).trans hg', hv₁, by rw [lookup_cons_eq, if_pos rfl]⟩

theorem Sound.plain (hsound : c.Sound document final remaining)
    (hk : x.known.lookup (d.location p) = none) (hr : v.kind ≠ .reference)
    (hrun : c.node (remaining + 1) v d p x = (.ok id, x')) :
    Inv c.resolver document opens x' ∧ x.Grows x' ∧ Knows c.resolver document x' v d p id := by
  obtain ⟨rfl, node, x₁, hnode, rfl⟩ := node_plain hk hr hrun
  -- while the place is open, it is visited, so the places in it are
  have hreads : Reads (fun x => Inv c.resolver document (d.location p :: opens) x ∧
      Visited (c.resolver.Settled x.store) document v d p) document final (c.source remaining v d p).node
      fun x => ((c.source remaining v d p).reading x).node := by
    refine SchemaSource.reads_node (fun w q hsub => ⟨quiet_node hl document _ _ _ _, fun hg => hg.known, ?_⟩)
      fun hf => ⟨.of_store fun _ => by rfl, fun hg => hg.never, ?_⟩
    · intro y y' id hI hrun hfinal
      obtain ⟨h', hg, hk⟩ := hsound hI.1 (.subschema hI.2 hr hsub) hrun hfinal
      exact ⟨⟨h', hI.2.grow hg.store⟩, hg, hk.lookup⟩
    · intro y y' id hI hrun _
      obtain ⟨h', hg, hnever⟩ := never_spec hI.1 hI.2 hr hf hrun
      exact ⟨⟨h', hI.2.grow hg.store⟩, hg, hnever⟩
  obtain ⟨⟨h₁, hv₁⟩, hg₁, hread⟩ := hreads.answers ⟨inv_opened h hv hr hk, hv⟩ hnode hfinal
  have hself : Knows c.resolver document x₁ v d p ⟨x.builder.nodes.size⟩ :=
    ⟨hv₁, hg₁.known (by rw [opened, lookup_cons_eq, if_pos rfl]; rfl)⟩
  exact ⟨inv_closed h₁ hself hr hread, grows_closed ((grows_opened hk).trans hg₁) (Nat.le_refl _),
    hself.visited, hself.lookup⟩

end

/-- Places are compiled soundly, however many levels are left. -/
theorem sound_node (hl : ∀ loader ∈ c.resolver.loader?, loader.WellFormed) {final : Cache}
    (hd : final.Distinct document) (remaining : Nat) : c.Sound document final remaining := by
  induction remaining with
  | zero =>
    intro opens v d p x x' id h hv hrun hfinal
    cases hk : x.known.lookup (d.location p) with
    | some id' => exact sound_of_known h hv hk hrun
    | none => cases (node_zero hk).symm.trans hrun
  | succ remaining ih =>
    intro opens v d p x x' id h hv hrun hfinal
    cases hk : x.known.lookup (d.location p) with
    | some id' => exact sound_of_known h hv hk hrun
    | none =>
      by_cases hr : v.kind = .reference
      · exact Sound.reference hl h hv hfinal ih hd hk hr hrun
      · exact Sound.plain hl h hv hfinal ih hk hr hrun

end Compiler

/-! ### The documents at hand -/

theorem Cache.lookup_remove (c : Cache) (uri : Uri) (key : String) :
    (c.remove uri).entries.lookup key = if key = Cache.key uri then none else c.entries.lookup key := by
  unfold Cache.remove
  generalize c.entries = entries
  dsimp only
  induction entries with
  | nil => simp
  | cons entry entries ih =>
    obtain ⟨k, d⟩ := entry
    by_cases hk : k = Cache.key uri
    · rw [List.filter_cons_of_neg (by simp [hk]), ih, lookup_cons_eq, hk]
      split <;> rfl
    · rw [List.filter_cons_of_pos (by simp [hk]), lookup_cons_eq, lookup_cons_eq, ih]
      by_cases hkey : key = k
      · rw [if_pos hkey, if_pos hkey, if_neg (hkey ▸ hk)]
      · rw [if_neg hkey, if_neg hkey]

/-- The document is at hand under its URI, as it is while its schema is compiled. -/
def Store.opened (s : Store) (document : Document) : Store :=
  match document.uri? with
  | some uri => { s with cache := s.cache.insertAs uri document }
  | none => s

/-- The entry for the URI of the document is as it was in an earlier store. -/
def Store.closed (s : Store) (document : Document) (earlier : Store) : Store :=
  match document.uri? with
  | some uri => { s with cache := s.cache.restore uri (earlier.cache.get? uri) }
  | none => s

section

variable (s earlier : Store) (document : Document)

@[simp] theorem Store.requests_opened : (s.opened document).requests = s.requests := by unfold opened; split <;> rfl

@[simp] theorem Store.nextTag_opened : (s.opened document).nextTag = s.nextTag := by unfold opened; split <;> rfl

@[simp] theorem Store.requests_closed : (s.closed document earlier).requests = s.requests := by
  unfold closed
  split <;> rfl

@[simp] theorem Store.nextTag_closed : (s.closed document earlier).nextTag = s.nextTag := by
  unfold closed
  split <;> rfl

end

/-- A document that is opened again brings back what was at hand before it was closed. -/
theorem Store.grows_reopened {s earlier : Store} {document : Document}
    (h : (earlier.opened document).cache.Grows s.cache) :
    s.cache.Grows ((s.closed document earlier).opened document).cache := by
  unfold Store.opened at h ⊢
  unfold Store.closed
  cases hu : document.uri? with
  | none => exact .refl _
  | some uri =>
    simp only [hu] at h ⊢
    have hd : s.cache.get? uri = some document := h.get? (by rw [Cache.get?_insertAs, if_pos rfl])
    intro key d hk
    rw [Cache.insertAs, Members.lookup_insert]
    split
    · next heq =>
      subst heq
      exact hd.symm.trans hk
    · next hne =>
      unfold Cache.restore
      split
      · rw [Cache.insertAs, Members.lookup_insert, if_neg hne]
        exact hk
      · rw [Cache.lookup_remove, if_neg hne]
        exact hk

/-- What a construction leaves in the end. -/
def Compilation.finish (document : Document) (earlier : Store) (result : Except SchemaError SchemaId)
    (x : Compilation) : Except SchemaError Schema × Store :=
  (result.map (x.builder.build (x.store.closed document earlier).nextTag),
    { x.store.closed document earlier with nextTag := (x.store.closed document earlier).nextTag + 1 })

/-- The compilation of a document as a run. -/
theorem Compiler.compile_run {c : Compiler} {document : Document} {store : Store}
    {result : Except SchemaError SchemaId} {x : Compilation}
    (hwork : (c.check document.root document .root >>= fun _ =>
      c.node (c.limits.maxDepth + 1) document.root document .root) (start (store.opened document)) = (result, x)) :
    c.compile document store = x.finish document store result := by
  have hrun : c.compile document store = Function.uncurry (Compilation.finish document store)
      ((c.check document.root document .root >>= fun _ =>
        c.node (c.limits.maxDepth + 1) document.root document .root) (start (store.opened document))) := rfl
  rw [hrun, hwork]
  rfl

/-- A run of the compiler that answers. -/
theorem Compiler.compile_eq_ok {c : Compiler} {document : Document} {store after : Store} {s : Schema}
    (hrun : c.compile document store = (.ok s, after)) :
    ∃ checked id x, c.check document.root document .root (start (store.opened document)) =
        (.ok ⟨⟩, { start (store.opened document) with checked }) ∧
      c.node (c.limits.maxDepth + 1) document.root document .root
        { start (store.opened document) with checked } = (.ok id, x) ∧
      s = x.builder.build (x.store.closed document store).nextTag id ∧
      after.cache = (x.store.closed document store).cache := by
  cases hwork : (c.check document.root document .root >>= fun _ =>
      c.node (c.limits.maxDepth + 1) document.root document .root) (start (store.opened document)) with
  | mk result x =>
    rw [compile_run hwork] at hrun
    cases result with
    | error e => cases hrun
    | ok id =>
      obtain ⟨⟨⟩, x₁, hcheck, hnode⟩ := run_bind_eq_ok hwork
      obtain ⟨checked, hx₁⟩ := c.check_run document.root document .root (start (store.opened document))
      rw [hcheck] at hx₁
      cases hx₁
      cases hrun
      exact ⟨checked, id, x, hcheck, hnode, rfl, rfl⟩

/-! ### Faithful schemas -/

namespace Compilation

variable {r : Resolver} {document d : Document} {opens : List Location} {x : Compilation} {s : Store} {v : Value}
  {p : Pointer} {id root : SchemaId}

theorem inv_start (hw : s.WellFormed document) (hd : s.cache.Distinct document) (checked : List Location) :
    Inv r document [] { start s with checked } := by
  have hknown : ∀ {v d p id}, ¬Knows r document { start s with checked } v d p id := fun hk => by cases hk.lookup
  refine ⟨hw, hd, fun hl => (by cases hl), fun hk => absurd hk hknown, fun hk => absurd hk hknown,
    fun hk => absurd hk hknown, fun hk => absurd hk hknown, rfl, fun hn => (by cases hn), fun {i} hi => .inl ?_⟩
  exact Nat.lt_one_iff.mp hi

/-- When nothing is open, everything that is visited is known. -/
theorem Inv.covers (h : Inv r document [] x) (hroot : Knows r document x document.root document .root root)
    (hg : x.store.cache.Grows s.cache) (hv : Visited (r.Leads s) document v d p) :
    ∃ id, Knows r document x v d p id := by
  induction hv with
  | root => exact ⟨root, hroot⟩
  | subschema _ hr hs ih =>
    obtain ⟨id, hk⟩ := ih
    obtain ⟨node, -, hread⟩ := h.filled hk hr List.not_mem_nil
    obtain ⟨id', hid'⟩ := Reading.node_of_subschema hread hs
    exact ⟨id', .subschema hk.visited hr hs, hid'⟩
  | target _ hr ht ih =>
    obtain ⟨id, hk⟩ := ih
    obtain ⟨t', ht', hid⟩ := h.reference hk hr
    obtain rfl := ((ht'.mono hg).leads rfl).unique ht
    exact ⟨id, .target hk.visited hr ht', hid⟩

/-- What a reference leads to is none. -/
theorem kind_of_settled (hw : s.WellFormed document) (hv : Visited (r.Settled s) document v d p)
    (hr : v.kind = .reference) {t : Target} (ht : r.Settled s v d t) : t.value.kind ≠ .reference := by
  have htarget : Visited (r.Settled s) document t.value t.document t.pointer := .target hv hr ht
  obtain ⟨hat, ho, -⟩ := htarget.atHand hw
  exact Value.kind_of_reference? (ho.graph ▸ hw _ hat) (Resolver.resolve_found ht).2

end Compilation

theorem Store.opened_cache {s s' : Store} (h : s'.cache = s.cache) (document : Document) :
    (s'.opened document).cache = (s.opened document).cache := by
  unfold Store.opened
  cases document.uri? with
  | none => exact h
  | some uri => exact congrArg (fun c => Cache.insertAs c uri document) h

theorem Store.WellFormed.opened {s : Store} {document : Document} (h : s.WellFormed document) :
    (s.opened document).WellFormed document := by
  intro d hd
  unfold Store.opened at hd
  split at hd
  · rcases hd with hd | hd
    · exact h d (.inl hd)
    · exact h d (Cache.has_of_insertAs hd)
  · exact h d hd

/-- When a schema is made, its construction has come to an end: nothing is open, and the root is known. -/
theorem Compiler.compile_inv {c : Compiler} {document : Document} {store after : Store} {s : Schema}
    (hl : ∀ loader ∈ c.resolver.loader?, loader.WellFormed) (hs : store.WellFormed document)
    (hd : (after.opened document).cache.Distinct document) (hrun : c.compile document store = (.ok s, after)) :
    ∃ checked id x, c.node (c.limits.maxDepth + 1) document.root document .root
        { start (store.opened document) with checked } = (.ok id, x) ∧
      s = x.builder.build (x.store.closed document store).nextTag id ∧ Inv c.resolver document [] x ∧
      Knows c.resolver document x document.root document .root id ∧
      x.store.cache.Grows (after.opened document).cache := by
  obtain ⟨checked, id, x, -, hnode, hschema, hafter⟩ := compile_eq_ok hrun
  have hquiet : (store.opened document).cache.Grows x.store.cache :=
    ((quiet_node hl document _ _ _ _).extends_of_eq hnode).grows
  have hg : x.store.cache.Grows (after.opened document).cache := by
    rw [Store.opened_cache hafter]
    exact Store.grows_reopened hquiet
  have hstart : Inv c.resolver document [] { start (store.opened document) with checked } :=
    inv_start hs.opened (hd.mono (hquiet.trans hg)) checked
  obtain ⟨h, -, hroot⟩ := sound_node hl hd _ hstart .root hnode hg
  exact ⟨checked, id, x, hnode, hschema, h, hroot, hg⟩

/-- The document of a value that was retrieved from a URI, if there is one. -/
def Document.given (v : Value) : Option String → Except SchemaError Document
  | none => .ok (.anonymous v)
  | some text => (Uri.parse text).mapError SchemaError.badUri |>.map fun uri => .retrieved uri v

theorem Document.given_cases {v : Value} {uri? : Option String} {document : Document}
    (hd : Document.given v uri? = .ok document) : uri? = none ∧ document = .anonymous v ∨
      ∃ text uri, uri? = some text ∧ Uri.parse text = .ok uri ∧ document = .retrieved uri v := by
  cases uri? with
  | none =>
    cases hd
    exact .inl ⟨rfl, rfl⟩
  | some text =>
    rw [Document.given] at hd
    cases hp : Uri.parse text with
    | error e =>
      rw [hp] at hd
      cases hd
    | ok uri =>
      rw [hp] at hd
      cases hd
      exact .inr ⟨text, uri, rfl, hp, rfl⟩

/-- A schema of rings with labels, which refers to itself by its URI. -/
def ringSchema : Value := ⟨⟨0, #[.object [("title", 1), ("properties", 2), ("additionalProperties", 6)], .string "ring",
  .object [("next", 3), ("label", 5)], .reference [("$ref", 4)], .string "http://ring#", .object [("type", 7)],
  .boolean false, .string "string"]⟩, 0⟩

/-- Nothing can be loaded. -/
def lonelyCompiler : Compiler := ⟨⟨none, .standard⟩, .standard⟩

theorem wellFormed_ringSchema : ringSchema.graph.WellFormed := by decide

end JsonSchema
