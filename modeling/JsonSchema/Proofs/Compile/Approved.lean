import JsonSchema.Proofs.Completeness
import JsonSchema.Proofs.DepthLimit
import JsonSchema.Proofs.Reordered.Environment

/-!
What has passed the meta-schema. Whatever was compiled is accepted by the meta-schema, since the construction enters
documents through places that are checked (`Compiler.Approved`), where no two places with the same URI and pointer
differ in more than the order of members. So a place that was met before need not be checked again.

With this, the construction fails for the depth limit alone where the places it comes to are known to make no other
trouble (`Compiler.runs_approved`).
-/

namespace JsonSchema

open Vocabulary

/-! ### Acceptance -/

namespace Vocabulary

variable {maxDepth : Nat} {v w : Value}

/-- What is accepted somewhere is accepted from the top on. -/
theorem Admits.validate (h : Admits maxDepth v) : metaSchema.validate maxDepth v = [] := by
  obtain ⟨depth, h⟩ := h
  have hle := h.le
  have hcheck : (metaSchema.graph.check maxDepth (maxDepth + 1 - depth) schema v .root).verdict = .valid :=
    (verdict_check _ maxDepth _ depth (by omega) schema v .root).trans h
  have hnil := Report.verdict_eq_valid_iff.1 hcheck
  have hrefines := refines_check metaSchema.graph maxDepth maxDepth
    (show maxDepth + 1 - depth ≤ maxDepth + 1 by omega) schema v .root
  exact (hrefines.eq (by rw [hnil]; rfl)).trans hnil

theorem Admits.of_validate (h : metaSchema.validate maxDepth v = []) : Admits maxDepth v := ⟨0, accepts_of_validate h⟩

theorem Admits.subschema {p q : Pointer} (h : Admits maxDepth v) (hs : Subschema v p w q) : Admits maxDepth w := by
  obtain ⟨depth, h⟩ := h
  obtain ⟨deeper, -, hw⟩ := h.subschema hs
  exact ⟨deeper, hw⟩

theorem Admits.reordered (h : Admits maxDepth v) (hvw : v.Reordered w) : Admits maxDepth w := by
  obtain ⟨depth, h⟩ := h
  exact ⟨depth, (hvw.verdict _ _ _ _).trans h⟩

end Vocabulary

/-! ### Places in an environment -/

/-- An environment in which every document is also found under its own URI, among them the one that is compiled, if it
has a URI. -/
structure Resolver.Orderly (r : Resolver) (origin : Store) (document : Document) : Prop where
  loader : ∀ loader ∈ r.loader?, loader.WellFormed
  wellFormed : origin.WellFormed document
  consistent : r.Consistent origin
  located : document.uri? = none ∨ r.Locates origin document

section

variable {r : Resolver} {origin origin' s s' : Store} {document document' d d' : Document} {v v' : Value}
  {p p' : Pointer}

theorem Resolver.Orderly.reordered (h : r.Orderly origin document) (ho : origin.Reordered origin')
    (hdocument : document.Reordered document') (hw : origin'.WellFormed document') : r.Orderly origin' document' where
  loader := h.loader
  wellFormed := hw
  consistent := Resolver.Consistent.reordered h.loader ho h.consistent
  located := h.located.imp hdocument.uri.trans fun hd => (hd.reordered h.loader ho).of_reordered hdocument

/-- At the same place there is the same schema document, up to the order of members. -/
theorem Visited.reordered (he : r.Orderly origin document) (ho : origin.Reordered origin')
    (hdocument : document.Reordered document') (h : r.Faithful origin document s)
    (h' : r.Faithful origin' document' s') (hv : Visited (r.Settled s) document v d p)
    (hv' : Visited (r.Settled s') document' v' d' p') (heq : d.location p = d'.location p') :
    v.Reordered v' ∧ d.Reordered d' ∧ p' = p := by
  obtain ⟨hat, -, hb⟩ := hv.atHand h.wellFormed
  obtain ⟨hat', -, hb'⟩ := hv'.atHand h'.wellFormed
  obtain ⟨huri, rfl⟩ := Location.mk.inj heq
  have hd : d.Reordered d' :=
    Resolver.Faithful.reordered_of_uriText he.loader ho he.consistent he.located hdocument h h' hat hat' huri
  obtain ⟨w, hw, hvw⟩ := hd.root.below? hb
  cases hw.symm.trans hb'
  exact ⟨hvw, hd, rfl⟩

end

/-! ### What was approved -/

namespace Compiler

open Compilation

variable {c : Compiler} {origin : Store} {document d : Document} {x x' : Compilation} {v : Value} {p : Pointer}
  {l : Location} {s s' : Store} {t : Target} {checked : List Location} {id : SchemaId} {e : SchemaError}

/-- A check that passes was made before, or the meta-schema accepts the schema document. -/
theorem check_eq_ok (hrun : c.check v d p x = (.ok ⟨⟩, x')) : d.location p ∈ x.checked ∧ x' = x ∨
    metaSchema.validate c.limits.maxDepth v = [] ∧ x' = { x with checked := d.location p :: x.checked } := by
  rw [check_eq] at hrun
  split at hrun
  · next hmem =>
    cases hrun
    exact .inl ⟨List.contains_iff_mem.mp hmem, rfl⟩
  · obtain ⟨hfinding, rfl⟩ := Prod.mk.inj hrun
    exact .inr ⟨finding_eq_ok_iff.1 hfinding, rfl⟩

/-- At the place there is a reference, or something that the meta-schema accepts. -/
def Admitted (c : Compiler) (document : Document) (s : Store) (l : Location) : Prop :=
  ∃ v d p, l = d.location p ∧ Visited (c.resolver.Settled s) document v d p ∧
    (v.kind ≠ .reference → Admits c.limits.maxDepth v)

/-- What is at hand is what the environment offers, and everything that was compiled or checked was accepted. -/
structure Approved (c : Compiler) (origin : Store) (document : Document) (x : Compilation) : Prop where
  faithful : c.resolver.Faithful origin document x.store
  known : ∀ {l id}, (l, id) ∈ x.known → c.Admitted document x.store l
  checked : ∀ {l}, l ∈ x.checked → c.Admitted document x.store l

theorem Admitted.mono (h : c.Admitted document s l) (hg : s.cache.Grows s'.cache) : c.Admitted document s' l := by
  obtain ⟨v, d, p, rfl, hv, ha⟩ := h
  exact ⟨v, d, p, rfl, hv.grow hg, ha⟩

theorem Admitted.admits (he : c.resolver.Orderly origin document) (hf : c.resolver.Faithful origin document s)
    (h : c.Admitted document s (d.location p)) (hv : Visited (c.resolver.Settled s) document v d p)
    (hr : v.kind ≠ .reference) : Admits c.limits.maxDepth v := by
  obtain ⟨v', d', p', heq, hv', ha⟩ := h
  have hdocument : document.Reordered document := .refl (he.wellFormed _ (.inl rfl))
  obtain ⟨hvv', -, -⟩ := hv'.reordered he (.refl he.wellFormed) hdocument hf hf hv heq.symm
  exact (ha fun hr' => hr (hvv'.kind.trans hr')).reordered hvv'

/-- Places that are admitted may be added. -/
theorem Approved.extend (h : c.Approved origin document x) (hg : x.store.cache.Grows x'.store.cache)
    (hf : c.resolver.Faithful origin document x'.store)
    (hknown : ∀ {l id}, (l, id) ∈ x'.known → (l, id) ∈ x.known ∨ c.Admitted document x'.store l)
    (hchecked : ∀ {l}, l ∈ x'.checked → l ∈ x.checked ∨ c.Admitted document x'.store l) :
    c.Approved origin document x' where
  faithful := hf
  known hl := (hknown hl).elim (fun hl => (h.known hl).mono hg) id
  checked hl := (hchecked hl).elim (fun hl => (h.checked hl).mono hg) id

/-- What a reference leads to is accepted when it has passed. -/
theorem Approved.passes (he : c.resolver.Orderly origin document) (h : c.Approved origin document x)
    (hv : Visited (c.resolver.Settled x.store) document t.value t.document t.pointer) (hr : t.value.kind ≠ .reference)
    (hp : c.Passes t x checked) :
    c.Approved origin document { x with checked } ∧ Admits c.limits.maxDepth t.value := by
  have hsame : ∀ {checked : List Location}, (∀ {l}, l ∈ checked → l ∈ x.checked ∨ c.Admitted document x.store l) →
      c.Approved origin document { x with checked } := fun hchecked =>
    h.extend (.refl _) h.faithful .inl hchecked
  rcases hp with ⟨⟨id, hid⟩, rfl⟩ | hcheck
  · exact ⟨h, (h.known (mem_of_lookup hid)).admits he h.faithful hv hr⟩
  · rcases check_eq_ok hcheck with ⟨hmem, heq⟩ | ⟨hvalid, heq⟩
    · obtain rfl : checked = x.checked := congrArg Compilation.checked heq
      exact ⟨h, (h.checked hmem).admits he h.faithful hv hr⟩
    · obtain rfl : checked = t.location :: x.checked := congrArg Compilation.checked heq
      have ha := Admits.of_validate hvalid
      refine ⟨hsame fun hl => ?_, ha⟩
      rcases List.mem_cons.mp hl with rfl | hl
      · exact .inr ⟨_, _, _, rfl, hv, fun _ => ha⟩
      · exact .inl hl

/-! ### Runs that fail for the depth alone -/

/-- Places that make no trouble but for their depth: so are the schemas in them, the regular expressions are read, and
references lead to such places that the meta-schema accepts, whatever came to hand by then. -/
structure Safe (c : Compiler) (origin : Store) (document : Document) (good : Value → Document → Pointer → Prop) :
    Prop where
  subschema : ∀ {v d p w q}, good v d p → v.kind ≠ .reference → Subschema v p w q → good w d q
  regex : ∀ {v d p text}, good v d p → v.kind ≠ .reference → v.HasRegex text →
    ∃ regex, Regex.read? c.limits.maxRegexLength text = some regex
  reference : ∀ {v d p s}, good v d p → v.kind = .reference → c.resolver.Faithful origin document s →
    ∃ t s', c.resolver.resolve v d s = (.ok t, s') ∧ good t.value t.document t.pointer ∧
      Admits c.limits.maxDepth t.value

/-- A state in which a place may be compiled. -/
structure Ready (c : Compiler) (origin : Store) (document : Document) (v : Value) (d : Document) (p : Pointer)
    (x : Compilation) : Prop where
  approved : c.Approved origin document x
  visited : Visited (c.resolver.Settled x.store) document v d p
  admits : v.kind ≠ .reference → Admits c.limits.maxDepth v

/-- The construction has come to its limit. -/
def TooDeep (c : Compiler) (e : SchemaError) : Prop := ∃ uri p, e = .tooDeep uri p c.limits.maxDepth

variable {good : Value → Document → Pointer → Prop} {remaining : Nat}

/-- What is compiled at a place, and how this may fail. -/
abbrev RunsApproved (c : Compiler) (origin : Store) (document : Document) (good : Value → Document → Pointer → Prop)
    (remaining : Nat) : Prop :=
  ∀ v d p, Runs (c.Ready origin document v d p) (fun e => good v d p → c.TooDeep e) (c.node remaining v d p)
    fun x id => (x.nodes d).place p id

theorem Ready.known (h : c.Ready origin document v d p x) (hk : x.known.lookup (d.location p) = some id) :
    c.Ready origin document v d p x ∧ x.Advances x ∧ (x.nodes d).place p id :=
  ⟨h, .refl x, mem_of_lookup hk⟩

theorem Ready.subschema {w : Value} {q : Pointer} (h : c.Ready origin document v d p x) (hr : v.kind ≠ .reference)
    (hs : Subschema v p w q) : c.Ready origin document w d q x :=
  ⟨h.approved, .subschema h.visited hr hs, fun _ => (h.admits hr).subschema hs⟩

/-- The place itself may be entered. -/
theorem Ready.enter (h : c.Ready origin document v d p x) (builder : SchemaBuilder) (id : SchemaId) :
    c.Ready origin document v d p { x with builder, known := (d.location p, id) :: x.known } := by
  refine ⟨h.approved.extend (.refl _) h.approved.faithful (fun {l i} hl => ?_) .inl, h.visited, h.admits⟩
  rcases List.mem_cons.mp hl with heq | hl
  · obtain ⟨rfl, rfl⟩ := Prod.mk.inj heq
    exact .inr ⟨v, d, p, rfl, h.visited, h.admits⟩
  · exact .inl hl

/-- A reference that was followed leads to a place that may be compiled, when it has passed. -/
theorem Ready.target (he : c.resolver.Orderly origin document) (h : c.Ready origin document v d p x)
    (hr : v.kind = .reference) (hresolve : c.resolver.resolve v d x.store = (.ok t, s)) :
    x.Advances { x with store := s } ∧ c.resolver.Settled s v d t ∧ c.Approved origin document { x with store := s } ∧
      ∀ {checked}, c.Passes t { x with store := s } checked →
        c.Ready origin document t.value t.document t.pointer { x with store := s, checked } := by
  have hsteady := c.resolver.closed_steady.resolve v d
  have hgrows := hsteady.grows_of_eq hresolve
  have ht : c.resolver.Settled s v d t := hsteady.again hresolve (.refl _)
  have happroved : c.Approved origin document { x with store := s } :=
    h.approved.extend hgrows (h.approved.faithful.resolve he.loader he.consistent hresolve) .inl .inl
  refine ⟨⟨hgrows, fun hk => hk, fun hn => hn⟩, ht, happroved, fun hp => ?_⟩
  have hv := h.visited.grow hgrows
  have htarget : Visited (c.resolver.Settled s) document t.value t.document t.pointer := .target hv hr ht
  obtain ⟨hchecked, ha⟩ :=
    happroved.passes he htarget (kind_of_settled happroved.faithful.wellFormed hv hr ht) hp
  exact ⟨hchecked, htarget, fun _ => ha⟩

theorem Ready.reference (he : c.resolver.Orderly origin document) (ih : c.RunsApproved origin document good remaining)
    (h : c.Ready origin document v d p x) (hk : x.known.lookup (d.location p) = none) (hr : v.kind = .reference)
    (hrun : c.node (remaining + 1) v d p x = (.ok id, x')) :
    c.Ready origin document v d p x' ∧ x.Advances x' ∧ (x'.nodes d).place p id := by
  obtain ⟨t, s, checked, x₁, hresolve, hp, hnode, rfl⟩ := node_reference hk hr hrun
  obtain ⟨hload, -, -, hready⟩ := h.target he hr hresolve
  obtain ⟨hready₁, hg₁, -⟩ := (ih _ _ _).answers (hready hp) hnode
  have hg₁ : ({ x with store := s } : Compilation).Advances x₁ := ⟨hg₁.store, hg₁.known, hg₁.never⟩
  have henter : x₁.Advances { x₁ with known := (d.location p, id) :: x₁.known } :=
    ⟨.refl _, fun hk => List.mem_cons_of_mem _ hk, fun hn => hn⟩
  have hready : c.Ready origin document v d p x₁ :=
    ⟨hready₁.approved, h.visited.grow (hload.trans hg₁).store, h.admits⟩
  exact ⟨hready.enter _ id, (hload.trans hg₁).trans henter, List.mem_cons_self⟩

theorem Ready.reference_fails (he : c.resolver.Orderly origin document) (hsafe : c.Safe origin document good)
    (ih : c.RunsApproved origin document good remaining) (h : c.Ready origin document v d p x)
    (hk : x.known.lookup (d.location p) = none) (hr : v.kind = .reference)
    (hrun : c.node (remaining + 1) v d p x = (.error e, x')) (hgood : good v d p) : c.TooDeep e := by
  obtain ⟨t, s, hresolve, hgood', ha⟩ := hsafe.reference hgood hr h.approved.faithful
  obtain ⟨-, -, -, hready⟩ := h.target he hr hresolve
  rcases node_reference_cases hk hr hrun with ⟨e', s', he', -⟩ | ⟨t', s', ht', hrest⟩
  · cases hresolve.symm.trans he'
  · cases hresolve.symm.trans ht'
    rcases hrest with ⟨e', hcheck, -⟩ | ⟨checked, x₁, hp, hnode, -⟩
    · cases (check_of_valid ha.validate _ _ _).symm.trans hcheck
    · exact (ih _ _ _).fails (hready hp) hnode hgood'

/-- The keywords at a place that was opened, compiled with one level less. -/
theorem runs_source_approved (hsafe : c.Safe origin document good)
    (ih : c.RunsApproved origin document good remaining) (hr : v.kind ≠ .reference) :
    Runs (c.Ready origin document v d p) (fun e => good v d p → c.TooDeep e) (c.source remaining v d p).node
      fun _ _ => True := by
  refine (SchemaSource.runs_node (fun w q hs => ⟨fun hg hk => hg.known hk, fun hI hrun => ?_, fun hI hrun hgood => ?_⟩)
    (fun _ => ⟨fun hg hn => hg.never hn, fun hI hrun => ?_, fun _ hrun => by cases hrun⟩)
    fun text place e ht he hgood => ?_).weaken (fun _ _ _ => trivial) fun _ h => h
  · obtain ⟨hready, hg, hplace⟩ := (ih w d q).answers (hI.subschema hr hs) hrun
    exact ⟨⟨hready.approved, hI.visited.grow hg.store, hI.admits⟩, hg, hplace⟩
  · exact (ih w d q).fails (hI.subschema hr hs) hrun (hsafe.subschema hgood hr hs)
  · rcases never_cases hrun with ⟨hn, rfl⟩ | ⟨hn, rfl, rfl⟩
    · exact ⟨hI, .refl _, hn⟩
    · refine ⟨⟨hI.approved.extend (.refl _) hI.approved.faithful .inl .inl, hI.visited, hI.admits⟩, ?_, rfl⟩
      exact advances_forbidding hn
  · obtain ⟨regex, hregex⟩ := hsafe.regex hgood hr ht
    cases (SchemaSource.regex_eq_ok_iff.2 hregex).symm.trans he

/-- **Whatever is compiled was approved**, and at a place that makes no trouble the construction can fail for the depth
alone. -/
theorem runs_approved (he : c.resolver.Orderly origin document) (hsafe : c.Safe origin document good)
    (remaining : Nat) : c.RunsApproved origin document good remaining := by
  induction remaining with
  | zero =>
    intro v d p
    refine ⟨fun hg hk => hg.known hk, fun {x x' id} h hrun => ?_, fun {x x' e} h hrun _ => ?_⟩
    · cases hk : x.known.lookup (d.location p) with
      | some id' =>
        cases (node_of_known hk).symm.trans hrun
        exact h.known hk
      | none => cases (node_zero hk).symm.trans hrun
    · cases hk : x.known.lookup (d.location p) with
      | some id' => cases (node_of_known hk).symm.trans hrun
      | none =>
        cases (node_zero hk).symm.trans hrun
        exact ⟨_, _, rfl⟩
  | succ remaining ih =>
    intro v d p
    refine ⟨fun hg hk => hg.known hk, fun {x x' id} h hrun => ?_, fun {x x' e} h hrun hgood => ?_⟩
    · cases hk : x.known.lookup (d.location p) with
      | some id' =>
        cases (node_of_known hk).symm.trans hrun
        exact h.known hk
      | none =>
        by_cases hr : v.kind = .reference
        · exact h.reference he ih hk hr hrun
        · obtain ⟨rfl, node, x₁, hnode, rfl⟩ := node_plain hk hr hrun
          obtain ⟨h₁, hg₁, -⟩ := (runs_source_approved hsafe ih hr).answers (h.enter _ _) hnode
          have hg := ((advances_opened x (d.location p)).trans hg₁).trans
            (advances_closed x₁ ⟨x.builder.nodes.size⟩ node)
          exact ⟨⟨⟨h₁.approved.faithful, h₁.approved.known, h₁.approved.checked⟩, h₁.visited, h₁.admits⟩, hg,
            hg₁.known List.mem_cons_self⟩
    · cases hk : x.known.lookup (d.location p) with
      | some id' => cases (node_of_known hk).symm.trans hrun
      | none =>
        by_cases hr : v.kind = .reference
        · exact h.reference_fails he hsafe ih hk hr hrun hgood
        · exact (runs_source_approved hsafe ih hr).fails (h.enter _ _) (node_plain_error hk hr hrun) hgood

end Compiler

end JsonSchema
