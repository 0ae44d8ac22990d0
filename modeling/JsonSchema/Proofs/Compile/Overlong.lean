import JsonSchema.Proofs.Compile.Scoped
import JsonSchema.Proofs.Engine

/-!
Regular expressions that are too long. The compiler is run with another way to read regular expressions
(`Compiler.compileValueBy`), which tells what it depends on. A text of more bytes than the limit is refused unread where
the construction meets it (`Document.regex`); but the meta-schema is asked first, and it wants patterns to be regular
expressions, however long they are. So of an engine that reads longer texts in any way at all nothing can be seen but
which of the patterns in schema documents it accepts (`Compiler.compileBy_cases`).

If these are accepted, a document that would be compiled under a wider limit is refused for a text that is too long as
soon as one stands at a place that is visited (`Compiler.compileValue_overlong`). If one is not accepted, the document is
refused for its shape instead (`Compiler.compileValue_uncheckedPattern`).
-/

namespace JsonSchema

open Compilation

/-! ### The compiler with an engine -/

namespace Compiler

variable (engine : Regex.Engine) (c : Compiler)

/-- What is said of the schema document at a place when the meta-schema finds these issues. -/
def judge (report : Report) (d : Document) (p : Pointer) : Except SchemaError Unit :=
  match report.find? fun issue => issue.violation.isTooDeep with
  | some issue => .error (.tooDeep d.label (p ++ issue.pointer) c.limits.maxDepth)
  | none => if report.isEmpty then .ok ⟨⟩ else .error (.invalidSpecification d.label p report)

/-- Checks the schema at a place against the meta-schema, unless that was done before. -/
def checkBy (v : Value) (d : Document) (p : Pointer) : Compiling Unit := fun x =>
  if x.checked.contains (d.location p) then (.ok ⟨⟩, x)
  else (c.judge (metaSchema.validateBy engine c.limits.maxDepth v) d p,
    { x with checked := d.location p :: x.checked })

/-- The construction, where an engine reads the regular expressions that are not too long. -/
def constructionBy : Construction :=
  ⟨c.resolver.resolve, c.checkBy engine, fun d => d.regex engine c.limits.maxRegexLength, c.limits.maxDepth⟩

/-- The check and the construction of a whole document. -/
def workBy (document : Document) : Compiling SchemaId := do
  c.checkBy engine document.root document .root
  (c.constructionBy engine).node (c.limits.maxDepth + 1) document.root document .root

/-- The schema of a document. -/
def compileBy (document : Document) : Loading SchemaError Schema := fun store =>
  let (result, x) := c.workBy engine document (start (store.opened document))
  x.finish document store result

/-- The schema of a value that was retrieved from a URI, if there is one. -/
def compileValueBy (v : Value) (uri? : Option String) : Loading SchemaError Schema := do
  match uri? with
  | none => c.compileBy engine (.anonymous v)
  | some text => c.compileBy engine (.retrieved (← (Uri.parse text).mapError SchemaError.badUri) v)

/-- The same compiler with another limit for regular expressions. -/
def withMaxRegexLength (limit : Nat) : Compiler := { c with limits := { c.limits with maxRegexLength := limit } }

theorem finding_eq_judge (v : Value) (d : Document) (p : Pointer) :
    c.finding v d p = c.judge (metaSchema.validate c.limits.maxDepth v) d p := rfl

/-- A report with issues is an error, and none about a regular expression. -/
theorem judge_eq_error {report : Report} (h : report ≠ []) (d : Document) (p : Pointer) :
    ∃ e, c.judge report d p = .error e ∧ ∀ uri p text fault, e ≠ .invalidPattern uri p text fault := by
  unfold judge
  split
  · exact ⟨_, rfl, by simp⟩
  · rw [if_neg (by simpa using h)]
    exact ⟨_, rfl, by simp⟩

theorem checkBy_ofText? : c.checkBy Regex.ofText? = c.check := by
  funext v d p x
  rw [checkBy, check_eq, Schema.validateBy_ofText?, finding_eq_judge]

theorem compileBy_ofText? (document : Document) : c.compileBy Regex.ofText? document = c.compile document := by
  have hconstruction : c.constructionBy Regex.ofText? = c.construction := by
    rw [constructionBy, checkBy_ofText?]
    rfl
  have hwork : c.workBy Regex.ofText? document = (c.check document.root document .root >>= fun _ =>
      c.node (c.limits.maxDepth + 1) document.root document .root) := by
    rw [workBy, hconstruction, checkBy_ofText?, node_construction]
  funext store
  unfold compileBy
  rw [hwork, compile_run rfl]
  rfl

/-- The compiler as it is. -/
theorem compileValueBy_ofText? (v : Value) (uri? : Option String) :
    c.compileValueBy Regex.ofText? v uri? = c.compileValue v uri? := by
  cases uri? with
  | none => exact c.compileBy_ofText? _
  | some text =>
    unfold compileValueBy compileValue
    simp only [compileBy_ofText?]

end Compiler

/-! ### The documents that may come to hand -/

/-- The document is at hand, or the loader may give it. -/
def Resolver.Provides (r : Resolver) (s : Store) (document d : Document) : Prop := s.cache.AtHand document d ∨ r.Gives d

section

variable {r : Resolver} {s s' : Store} {document d : Document}

theorem Resolver.Gives.wellFormed (hl : ∀ loader ∈ r.loader?, loader.WellFormed) (h : r.Gives d) :
    d.root.graph.WellFormed := by
  obtain ⟨loader, requested, earlier, remote, tag, root, finalUri, hloader, ha, ht, -, rfl⟩ := h
  exact r.wellFormed_of_answer hl hloader ha ht

theorem Resolver.Provides.wellFormed (hl : ∀ loader ∈ r.loader?, loader.WellFormed) (hs : s.WellFormed document)
    (h : r.Provides s document d) : d.root.graph.WellFormed :=
  h.elim (hs d) (·.wellFormed hl)

/-- What comes to hand is given by the loader. -/
theorem Resolver.closed_provided (r : Resolver) (s : Store) (document : Document) :
    r.Closed (Loading.Keeps fun s' => ∀ d, s'.cache.Has d → r.Provides s document d) := by
  refine closed_keeps fun uri s₁ hs₁ d ⟨key, hd⟩ => ?_
  obtain ⟨es, hrun, -⟩ := r.load_runs uri s₁
  rcases hrun.entry_cases hd with hold | ⟨uri, hgiven, hkey⟩ | ⟨other, hold, -⟩
  · exact hs₁ d ⟨key, hold⟩
  · exact .inr (hrun.obtained hgiven hkey).gives
  · exact hs₁ d ⟨other, hold⟩

end

/-! ### What depends on the engine -/

/-- Two engines read the texts up to a length alike, and they accept the same of the longer ones that these documents hold
as patterns. -/
structure Regex.Engine.Agree (f g : Regex.Engine) (limit : Nat) (docs : Document → Prop) : Prop where
  short : ∀ text, text.utf8ByteSize ≤ limit → f text = g text
  concur : ∀ d, docs d → f.Concur g d

/-- A regular expression in one of these documents is refused for its length. -/
def SchemaError.Overlong (docs : Document → Prop) (limit : Nat) (e : SchemaError) : Prop :=
  ∃ d w p text place, docs d ∧ d.root.below? p.atoms = some w ∧ w.RegexAt p text place ∧ limit < text.utf8ByteSize ∧
    e = .invalidPattern d.label place text (.tooLong limit)

/-- A computation beside itself, while a property of the store is kept and some failures are excused. -/
def Lockstep.excusing (Q : Store → Prop) (excused : SchemaError → Prop) :
    Lockstep Compilation Compilation SchemaError SchemaError :=
  { Lockstep.keeping Compilation SchemaError fun x => Q x.store with excused }

theorem Lockstep.excusing_relates {Q : Store → Prop} {excused : SchemaError → Prop} {α : Type} {y : Compiling α}
    (h : ∀ x, Q x.store → Q (y x).2.store) : (excusing Q excused).Relates (· = ·) y y :=
  (keeping_relates_iff.2 h).excuse fun _ he => he.elim

namespace Compiler

variable {c : Compiler} {f g : Regex.Engine} {docs : Document → Prop} {Q : Store → Prop} {limit : Nat}

/-- Two engines that agree read a regular expression alike, under the limit and under a wider one, or it is too long. -/
theorem relates_regex (hfg : f.Agree g c.limits.maxRegexLength docs) (hlimit : c.limits.maxRegexLength ≤ limit)
    {d : Document} {v : Value} {p place : Pointer} {text : String} (hd : docs d) (hb : d.root.below? p.atoms = some v)
    (ht : v.RegexAt p text place) :
    (Lockstep.excusing Q fun e => c.limits.maxRegexLength < limit ∧ e.Overlong docs c.limits.maxRegexLength).Relates
      (· = ·) (liftM (d.regex f c.limits.maxRegexLength text place)) (liftM (d.regex g limit text place)) := by
  by_cases hlong : c.limits.maxRegexLength < text.utf8ByteSize
  · have hf : d.regex f c.limits.maxRegexLength text place =
        .error (.invalidPattern d.label place text (.tooLong c.limits.maxRegexLength)) := if_pos hlong
    rcases Nat.lt_or_eq_of_le hlimit with hlt | rfl
    · rw [hf]
      exact fun x x' _ => .excused ⟨hlt, d, v, p, text, place, hd, hb, ht, hlong, rfl⟩
    · rw [hf, show d.regex g c.limits.maxRegexLength text place = _ from if_pos hlong]
      exact Lockstep.excusing_relates fun x hx => hx
  · have hsame : d.regex f c.limits.maxRegexLength text place = d.regex g limit text place := by
      unfold Document.regex
      rw [if_neg hlong, if_neg (by omega), hfg.short text (by omega)]
    rw [hsame]
    exact Lockstep.excusing_relates fun x hx => hx

theorem checkBy_congr (hfg : f.Agree g c.limits.maxRegexLength docs) {d : Document} {v : Value}
    (hw : d.root.graph.WellFormed) (hd : docs d) (hv : d.Owns v) (p : Pointer) :
    c.checkBy f v d p = (c.withMaxRegexLength limit).checkBy g v d p := by
  funext x
  unfold checkBy
  rw [(hfg.concur d hd).validateBy_metaSchema hw hv]
  rfl

/-- With two engines that agree, the constructions are in step, until a text is too long for the one and not for the
other. -/
theorem inStep_engine (hfg : f.Agree g c.limits.maxRegexLength docs) (hlimit : c.limits.maxRegexLength ≤ limit)
    (hresolve : ∀ v d, Loading.Keeps Q (c.resolver.resolve v d)) (hQ : ∀ s d, Q s → s.cache.Has d → docs d)
    (hw : ∀ d, docs d → d.root.graph.WellFormed) :
    (c.constructionBy f).InStep
      (.excusing Q fun e => c.limits.maxRegexLength < limit ∧ e.Overlong docs c.limits.maxRegexLength) (· = ·)
      ((c.withMaxRegexLength limit).constructionBy g)
      fun v d v' d' p => v = v' ∧ d = d' ∧ docs d ∧ d.Owns v ∧ d.root.below? p.atoms = some v where
  likeness := Value.likeness_eq
  value hp := hp.1
  known := by
    rintro x _ v d _ _ p ⟨rfl, -⟩ ⟨rfl, rfl, -⟩
    rfl
  enter := by
    rintro v d _ _ p ⟨rfl, rfl, -⟩ id
    exact Lockstep.excusing_relates fun x hx => hx
  allocate := Lockstep.excusing_relates fun x hx => hx
  never := Lockstep.excusing_relates fun x hx => hx
  fill id hnode := by
    cases hnode.eq
    exact Lockstep.excusing_relates fun x hx => hx
  subschema := by
    rintro v d _ _ p w _ q ⟨rfl, rfl, hd, ho, hb⟩ - rfl hs -
    exact ⟨rfl, rfl, hd, hs.owns_below? (hw d hd) ho hb⟩
  resolve := by
    rintro v d _ _ p ⟨rfl, rfl, hd, -⟩ -
    have hrelates : (Lockstep.excusing Q fun e => c.limits.maxRegexLength < limit ∧ e.Overlong docs
        c.limits.maxRegexLength).Relates _ (resolving (c.resolver.resolve v d)) (resolving (c.resolver.resolve v d)) :=
      (relates_resolving (hresolve v d) hQ hd).excuse fun _ he => he.elim
    refine hrelates.weaken ?_
    rintro t _ ⟨rfl, ht, hvalue⟩
    exact ⟨rfl, rfl, rfl, ht, Document.owns_of_resolve hvalue, Value.below?_of_resolve hvalue⟩
  check := by
    rintro v d _ _ p ⟨rfl, rfl, hd, ho, -⟩
    change Lockstep.Relates _ _ (c.checkBy f v d p) ((c.withMaxRegexLength limit).checkBy g v d p)
    rw [← checkBy_congr hfg (hw d hd) hd ho]
    refine Lockstep.excusing_relates fun x hx => ?_
    unfold checkBy
    split <;> exact hx
  regex := by
    rintro v d _ _ p text place ⟨rfl, rfl, hd, -, hb⟩ - ht
    exact relates_regex hfg hlimit hd hb ht
  deep := by
    rintro v d _ _ p ⟨rfl, rfl, -⟩
    rfl

/-- With two engines that agree, a document has the same outcome, or it is refused under the narrower limit for a text
that is too long. -/
theorem compileBy_cases {document : Document} {store : Store} (hl : ∀ loader ∈ c.resolver.loader?, loader.WellFormed)
    (hs : store.WellFormed document)
    (hfg : f.Agree g c.limits.maxRegexLength (c.resolver.Provides store document))
    (hlimit : c.limits.maxRegexLength ≤ limit) :
    c.compileBy f document store = (c.withMaxRegexLength limit).compileBy g document store ∨
      c.limits.maxRegexLength < limit ∧ ∃ e, (c.compileBy f document store).1 = .error e ∧
        e.Overlong (c.resolver.Provides store document) c.limits.maxRegexLength := by
  have hroot : c.resolver.Provides store document document := .inl (.inl rfl)
  have hstart : ∀ d, (store.opened document).cache.Has d → c.resolver.Provides store document d := fun d hd =>
    .inl (Store.has_opened hd)
  have hstep := inStep_engine hfg hlimit (c.resolver.closed_provided store document).resolve (fun s d hs => hs d)
    fun d hd => hd.wellFormed hl hs
  have hrelates : (Lockstep.excusing _ _).Relates (· = ·) (c.workBy f document)
      ((c.withMaxRegexLength limit).workBy g document) :=
    hstep.relates_work (.inl rfl) (p := .root) ⟨rfl, rfl, hroot, document.owns_root, rfl⟩
  have hwork := hrelates (start (store.opened document)) _ ⟨rfl, hstart⟩
  unfold compileBy
  generalize c.workBy f document (start (store.opened document)) = ending at hwork ⊢
  generalize (c.withMaxRegexLength limit).workBy g document (start (store.opened document)) = ending' at hwork ⊢
  cases hwork with
  | ok hid hx =>
    cases hid
    cases hx.1
    exact .inl rfl
  | error he hx =>
    cases he
    cases hx.1
    exact .inl rfl
  | excused he => exact .inr ⟨he.1, _, rfl, he.2⟩

end Compiler

/-! ### What a schema that is made says of its document -/

theorem Value.RegexAt.hasRegex {v : Value} {p place : Pointer} {text : String} (h : v.RegexAt p text place) :
    v.HasRegex text := by
  cases h with
  | pattern ht => exact .pattern ht
  | name hu hw => exact .name (by rwa [membersOf, hu])

theorem Regex.size_le_of_read? {limit : Nat} {text : String} {regex : Regex} (h : Regex.read? limit text = some regex) :
    text.utf8ByteSize ≤ limit := by
  unfold Regex.read? at h
  split at h
  · cases h
  · next hshort => exact Nat.le_of_not_lt hshort

namespace Compiler

variable {c : Compiler}

/-- When a schema is made, no regular expression at a place that is visited was too long. -/
theorem size_le_of_compile {document : Document} {store after : Store} {s : Schema}
    (hl : ∀ loader ∈ c.resolver.loader?, loader.WellFormed) (hs : store.WellFormed document)
    (hd : (after.opened document).cache.Distinct document) (hrun : c.compile document store = (.ok s, after))
    {v : Value} {d : Document} {p place : Pointer} {text : String}
    (hv : Visited (c.resolver.Leads (after.opened document)) document v d p) (hr : v.kind ≠ .reference)
    (ht : v.RegexAt p text place) : text.utf8ByteSize ≤ c.limits.maxRegexLength := by
  -- every place that is visited is known in the end, and the record of it is that of this place
  obtain ⟨checked, root, x, hnode, -, hinv, hroot, hg⟩ := compile_inv hl hs hd hrun
  obtain ⟨⟨hrecorded, -⟩, -, -⟩ := (c.runs_node document _ _ _ _ _).answers (c.at_start document _ checked) hnode
  obtain ⟨id, hknown⟩ := hinv.covers hroot hg hv
  have hentry := hrecorded.entry (mem_of_lookup hknown.lookup)
  generalize hplace : d.location p = l at hentry
  cases hentry with
  | reference hv' hr' =>
    obtain ⟨rfl, -⟩ := hknown.visited.eq_of_location hinv.wellFormed hinv.distinct hv' hplace
    exact absurd hr' hr
  | unfilled _ _ ho => exact ho.elim
  | filled hv' _ _ _ hdenotes =>
    obtain ⟨rfl, -⟩ := hknown.visited.eq_of_location hinv.wellFormed hinv.distinct hv' hplace
    obtain ⟨regex, hregex⟩ := hdenotes.regex ht.hasRegex
    exact Regex.size_le_of_read? hregex

/-- The value becomes no schema, because a regular expression in a document that may come to hand is too long. -/
def RefusesLength (c : Compiler) (v : Value) (uri? : Option String) (store : Store) : Prop :=
  ∃ document e, Document.given v uri? = .ok document ∧ (c.compileValue v uri? store).1 = .error e ∧
    e.Overlong (c.resolver.Provides store document) c.limits.maxRegexLength

section

variable {v : Value} {uri? : Option String} {document : Document} {e : SchemaError}

theorem compileValueBy_eq (engine : Regex.Engine) (c : Compiler) (store : Store)
    (hd : Document.given v uri? = .ok document) :
    c.compileValueBy engine v uri? store = c.compileBy engine document store := by
  rcases Document.given_cases hd with ⟨rfl, rfl⟩ | ⟨text, uri, rfl, hp, rfl⟩
  · rfl
  · rw [compileValueBy, hp]
    rfl

/-- Without a document nothing is compiled. -/
theorem compileValueBy_of_error (engine : Regex.Engine) (c : Compiler) (store : Store)
    (hd : Document.given v uri? = .error e) : c.compileValueBy engine v uri? store = (.error e, store) := by
  cases uri? with
  | none => cases hd
  | some text =>
    rw [Document.given] at hd
    rw [compileValueBy]
    cases hp : Uri.parse text with
    | ok uri =>
      rw [hp] at hd
      cases hd
    | error e =>
      rw [hp] at hd
      cases hd
      rfl

end

/-- **Nothing but the check of patterns against the meta-schema looks at a regular expression that is too long.** Let
another engine read texts up to the limit as the compiler does, and accept the same of the longer ones that documents hold
as patterns; on all others, such as the names under `patternProperties`, it may do as it likes. Then the outcome is the
same with it. Under a wider limit the outcome is the same too, or the value is refused for a text that is too long, at its
place. And it is refused so if it would become a schema under a wider limit, but a regular expression at a place that is
visited is too long. -/
theorem compileValue_overlong {c : Compiler} {v : Value} {uri? : Option String} {store : Store} {engine : Regex.Engine}
    (hl : ∀ loader ∈ c.resolver.loader?, loader.WellFormed) (hs : ∀ d, store.cache.Has d → d.root.graph.WellFormed)
    (hv : v.graph.WellFormed)
    (hengine : ∀ document, Document.given v uri? = .ok document →
      Regex.Engine.Agree Regex.ofText? engine c.limits.maxRegexLength (c.resolver.Provides store document)) :
    c.compileValueBy engine v uri? store = c.compileValue v uri? store ∧
    ∀ limit, c.limits.maxRegexLength ≤ limit →
      (c.compileValue v uri? store = (c.withMaxRegexLength limit).compileValueBy engine v uri? store ∨
        c.RefusesLength v uri? store) ∧
      ∀ document s after, Document.given v uri? = .ok document →
        (c.withMaxRegexLength limit).compileValueBy engine v uri? store = (.ok s, after) →
        (after.opened document).cache.Distinct document →
        ∀ w d p text place, Visited (c.resolver.Leads (after.opened document)) document w d p → w.kind ≠ .reference →
          w.RegexAt p text place → c.limits.maxRegexLength < text.utf8ByteSize → c.RefusesLength v uri? store := by
  rw [← compileValueBy_ofText?]
  cases hgiven : Document.given v uri? with
  | error e =>
    have hfails : ∀ engine c, compileValueBy engine c v uri? store = (.error e, store) := fun engine c =>
      compileValueBy_of_error engine c store hgiven
    exact ⟨(hfails _ _).trans (hfails _ _).symm, fun limit _ => ⟨.inl ((hfails _ _).trans (hfails _ _).symm),
      fun document s after hd => by cases hd⟩⟩
  | ok document =>
    have hwf : store.WellFormed document := by
      obtain ⟨rfl, -⟩ := compileValue_eq c store hgiven
      rintro d (rfl | hd)
      · exact hv
      · exact hs d hd
    have hcases : ∀ limit, c.limits.maxRegexLength ≤ limit →
        c.compileValueBy Regex.ofText? v uri? store = (c.withMaxRegexLength limit).compileValueBy engine v uri? store ∨
          c.limits.maxRegexLength < limit ∧ c.RefusesLength v uri? store := by
      intro limit hlimit
      rw [compileValueBy_eq _ _ _ hgiven, compileValueBy_eq _ _ _ hgiven]
      refine (compileBy_cases hl hwf (hengine document hgiven) hlimit).imp_right fun ⟨hlt, e, he, hlong⟩ => ?_
      rw [compileBy_ofText?, ← (compileValue_eq c store hgiven).2] at he
      exact ⟨hlt, document, e, hgiven, he, hlong⟩
    refine ⟨?_, fun limit hlimit => ⟨(hcases limit hlimit).imp_right And.right, ?_⟩⟩
    · rcases hcases c.limits.maxRegexLength (Nat.le_refl _) with heq | ⟨hlt, -⟩
      · exact heq.symm
      · exact absurd hlt (Nat.lt_irrefl _)
    · rintro _ s after ⟨⟩ hrun hdistinct w d p text place hvisited hr ht hlong
      rcases hcases limit hlimit with heq | ⟨-, hrefuses⟩
      · -- the schema would be made under the narrower limit too
        rw [hrun, compileValueBy_eq _ _ _ hgiven, compileBy_ofText?] at heq
        have hle := size_le_of_compile hl hwf hdistinct heq hvisited hr ht
        omega
      · exact hrefuses

/-- Reads texts up to a limit as they are read, and accepts every longer one. -/
def lenient (limit : Nat) : Regex.Engine := fun text =>
  if limit < text.utf8ByteSize then some ⟨text, .empty⟩ else Regex.ofText? text

theorem lenient_short {limit : Nat} {text : String} (h : text.utf8ByteSize ≤ limit) :
    lenient limit text = Regex.ofText? text := if_neg (Nat.not_lt_of_le h)

/-- Nothing can be loaded, and no regular expression has more than one byte. -/
def terseCompiler : Compiler := ⟨⟨none, .standard⟩, { Limits.standard with maxRegexLength := 1 }⟩

theorem not_gives_terseCompiler {d : Document} : ¬terseCompiler.resolver.Gives d := by
  rintro ⟨loader, _, _, _, _, _, _, hloader, -⟩
  cases hloader

/-- A schema for members whose names match a text that is no regular expression. Their values have to match one that is
one, but has two bytes as well. -/
def overlongName : Value := ⟨⟨0, #[.object [("patternProperties", 1)], .object [("((", 2)], .object [("pattern", 3)],
  .string "ab"]⟩, 0⟩

theorem wellFormed_overlongName : overlongName.graph.WellFormed := by decide

/-- The only pattern in the schema is a regular expression. -/
theorem concur_overlongName : Regex.Engine.Concur Regex.ofText? (lenient 1) (.anonymous overlongName) := by
  intro w hw text ht
  have hnode : ∀ id, Keyword.string? ⟨overlongName.graph, id⟩ "pattern" = none ∨
      Keyword.string? ⟨overlongName.graph, id⟩ "pattern" = some "ab"
    | 0 | 1 | 3 => .inl (by decide)
    | 2 => .inr (by decide)
    | id + 4 => .inl rfl
  have hgraph : w = ⟨overlongName.graph, w.id⟩ := by rw [← show w.graph = overlongName.graph from hw.graph]
  rw [hgraph] at ht
  rcases hnode w.id with hnone | hsome
  · cases hnone.symm.trans ht
  · cases hsome.symm.trans ht
    decide +kernel

/-- The name is refused for its length, though it is no regular expression, and whatever an engine reads in it. -/
theorem compileValue_overlongName : Regex.ofText? "((" = none ∧
    terseCompiler.compileValueBy (lenient 1) overlongName none (.start 2) =
      terseCompiler.compileValue overlongName none (.start 2) ∧
    terseCompiler.RefusesLength overlongName none (.start 2) := by
  have hread : (Regex.ofText? "((").isNone = true := by decide +kernel
  have hempty : ∀ d, ¬(Store.start 2).cache.Has d := by
    rintro d ⟨key, hd⟩
    cases hd
  have hengine : ∀ document, Document.given overlongName none = .ok document →
      Regex.Engine.Agree Regex.ofText? (lenient 1) terseCompiler.limits.maxRegexLength
        (terseCompiler.resolver.Provides (.start 2) document) := by
    rintro _ ⟨⟩
    refine ⟨fun text h => (lenient_short h).symm, ?_⟩
    rintro d ((rfl | hd) | hd)
    · exact concur_overlongName
    · exact absurd hd (hempty d)
    · exact absurd hd not_gives_terseCompiler
  have hoverlong := compileValue_overlong (fun loader hl => by cases hl) (fun d hd => absurd hd (hempty d))
    wellFormed_overlongName hengine
  obtain ⟨s, after, hrun⟩ : ∃ s after,
      (terseCompiler.withMaxRegexLength 2).compileValueBy (lenient 1) overlongName none (.start 2) = (.ok s, after) :=
    run_of_isOk (by decide +kernel)
  have hafter : after.cache.isEmpty = true := by
    have hnil : ((terseCompiler.withMaxRegexLength 2).compileValueBy (lenient 1) overlongName none
      (.start 2)).2.cache.isEmpty = true := by decide +kernel
    rwa [hrun] at hnil
  refine ⟨Option.isNone_iff_eq_none.mp hread, hoverlong.1, ?_⟩
  refine (hoverlong.2 2 (by decide)).2 (.anonymous overlongName) s after rfl hrun ?_ overlongName
    (.anonymous overlongName) .root "((" _ .root (by decide) (.name (u := overlongName.atNode 1) rfl (.head _)) (by decide)
  -- nothing was loaded, so the document is the only one
  have hat : ∀ d, after.cache.AtHand (.anonymous overlongName) d → d = .anonymous overlongName := by
    rintro d (rfl | ⟨key, hd⟩)
    · rfl
    · rw [List.isEmpty_iff.mp hafter] at hd
      cases hd
  intro d d' hd hd' _
  rw [hat d hd, hat d' hd']

/-! ### Patterns that are no regular expressions -/

/-- A schema document whose pattern is no regular expression is refused for that by the check, however long it is. -/
theorem compileValue_uncheckedPattern {c : Compiler} {v : Value} {uri? : Option String} {document : Document}
    {store : Store} {text : String} (hd : Document.given v uri? = .ok document)
    (ht : Keyword.string? v "pattern" = some text) (hread : Regex.ofText? text = none) :
    ∃ e after, c.compileValue v uri? store = (.error e, after) ∧
      ∀ uri p text fault, e ≠ .invalidPattern uri p text fault := by
  obtain ⟨rfl, hcompile⟩ := compileValue_eq c store hd
  -- an accepted schema document has an accepted pattern
  have hrejected : metaSchema.validate c.limits.maxDepth document.root ≠ [] := by
    intro hvalid
    obtain ⟨w, hw, htext⟩ := Option.bind_eq_some_iff.mp ht
    obtain ⟨text', regex, htext', hregex⟩ :=
      ((Vocabulary.accepts_of_validate hvalid).keyword (by simp [Vocabulary.keywords]) hw).regex
    cases htext.symm.trans htext'
    cases hread.symm.trans hregex
  obtain ⟨e, hjudge, he⟩ := c.judge_eq_error hrejected document .root
  have hcheck : c.check document.root document .root (start (store.opened document)) =
      (.error e, { start (store.opened document) with checked := [document.location .root] }) := by
    rw [check_eq, finding_eq_judge, hjudge]
    rfl
  rw [hcompile, compile_run (run_bind_of_error hcheck)]
  exact ⟨e, _, rfl, he⟩

/-- A schema whose pattern is no regular expression. -/
def overlongPattern : Value := ⟨⟨0, #[.object [("pattern", 1)], .string "(("]⟩, 0⟩

theorem wellFormed_overlongPattern : overlongPattern.graph.WellFormed := by decide

/-- The pattern is too long, and this is all that is wrong if longer texts are read leniently; yet the outcome depends on
how they are read, and is another one when they are not. -/
theorem compileValue_overlongPattern :
    (∀ text, text.utf8ByteSize ≤ terseCompiler.limits.maxRegexLength → lenient 1 text = Regex.ofText? text) ∧
    overlongPattern.RegexAt .root "((" (Pointer.root.child "pattern") ∧
    terseCompiler.limits.maxRegexLength < "((".utf8ByteSize ∧
    ((terseCompiler.withMaxRegexLength 2).compileValueBy (lenient 1) overlongPattern none (.start 2)).1.isOk = true ∧
    ¬terseCompiler.RefusesLength overlongPattern none (.start 2) ∧
    terseCompiler.compileValueBy (lenient 1) overlongPattern none (.start 2) ≠
      terseCompiler.compileValue overlongPattern none (.start 2) := by
  have hread : (Regex.ofText? "((").isNone = true := by decide +kernel
  have hgiven : Document.given overlongPattern none = .ok (.anonymous overlongPattern) := rfl
  have htext : Keyword.string? overlongPattern "pattern" = some "((" := rfl
  obtain ⟨e, after, hrun, he⟩ : ∃ e after, terseCompiler.compileValue overlongPattern none (.start 2) = (.error e, after) ∧
      ∀ uri p text fault, e ≠ .invalidPattern uri p text fault :=
    compileValue_uncheckedPattern hgiven htext (Option.isNone_iff_eq_none.mp hread)
  have hwide : ((terseCompiler.withMaxRegexLength 2).compileValueBy (lenient 1) overlongPattern none (.start 2)).1.isOk =
      true := by decide +kernel
  refine ⟨fun text h => lenient_short h, .pattern htext, by decide, hwide, ?_, fun heq => ?_⟩
  · rintro ⟨_, e', -, herror, _, _, _, _, _, -, -, -, -, rfl⟩
    rw [hrun] at herror
    cases herror
    exact he _ _ _ _ rfl
  · -- an engine agrees with itself, so the lenient one makes the compiler refuse the length
    have hself : (lenient 1).Agree (lenient 1) terseCompiler.limits.maxRegexLength
        (terseCompiler.resolver.Provides (.start 2) (.anonymous overlongPattern)) :=
      ⟨fun _ _ => rfl, fun _ _ _ _ _ _ => rfl⟩
    have hwf : (Store.start 2).WellFormed (.anonymous overlongPattern) := by
      rintro d (rfl | ⟨key, hd⟩)
      · exact wellFormed_overlongPattern
      · cases hd
    have hlimit : terseCompiler.limits.maxRegexLength ≤ 2 := by decide
    rw [hrun, compileValueBy_eq _ _ _ hgiven] at heq
    rw [compileValueBy_eq _ _ _ hgiven] at hwide
    rcases compileBy_cases (fun loader hl => by cases hl) hwf hself hlimit with hsame |
      ⟨-, e', herror, _, _, _, _, _, -, -, -, -, rfl⟩
    · rw [← hsame, heq] at hwide
      cases hwide
    · rw [heq] at herror
      cases herror
      exact he _ _ _ _ rfl

end Compiler

end JsonSchema
