import JsonSchema.Proofs.Compile.Lockstep
import JsonSchema.Proofs.Completeness
import JsonSchema.Proofs.Requests

/-!
What is left at hand when a schema was made, or could not be made. While a document is compiled it is at hand under its
URI, and the construction is a run of events (`Compiler.compile_runs`): no document is replaced, and what is new came from
the loader (`Resolver.Run.entry_cases`). When the entry of the document is put back, nothing else has changed
(`Compiler.compileValue_scoped`).
-/

namespace JsonSchema

open Compilation

/-! ### What a construction keeps -/

/-- A computation beside itself, while a property of the state is kept. -/
def Lockstep.keeping (σ ε : Type) (P : σ → Prop) : Lockstep σ σ ε ε := ⟨fun x x' => x = x' ∧ P x, (· = ·), fun _ => False⟩

theorem Lockstep.keeping_relates_iff {σ ε α : Type} {P : σ → Prop} {y : ExceptT ε (StateM σ) α} :
    (keeping σ ε P).Relates (· = ·) y y ↔ ∀ x, P x → P (y x).2 := by
  refine ⟨fun h x hx => ?_, fun h x x' hx => ?_⟩
  · have hends := h x x ⟨rfl, hx⟩
    generalize y x = ending at hends ⊢
    cases hends with
    | ok _ hs => exact hs.2
    | error _ hs => exact hs.2
    | excused he => exact he.elim
  · obtain ⟨rfl, hP⟩ := hx
    have hx := h x hP
    cases hy : y x with
    | mk result x' =>
      rw [hy] at hx
      cases result with
      | ok a => exact .ok rfl ⟨rfl, hx⟩
      | error e => exact .error rfl ⟨rfl, hx⟩

namespace Compiler

variable {c : Compiler} {Q : Store → Prop} {G : Document → Prop} {d : Document}

/-- What the resolution of a reference keeps, is kept within the construction, and it leads to a place in a document that
has come to hand. -/
theorem relates_resolving {v : Value} (hresolve : Loading.Keeps Q (c.resolver.resolve v d))
    (hG : ∀ s d, Q s → s.cache.Has d → G d) (hd : G d) :
    (Lockstep.keeping Compilation SchemaError fun x => Q x.store).Relates
      (fun t t' => t = t' ∧ G t.document ∧ t.pointer.resolve t.document.root = .ok t.value)
      (resolving (c.resolver.resolve v d)) (resolving (c.resolver.resolve v d)) := by
  rintro x _ ⟨rfl, hx⟩
  have hs := hresolve x.store hx
  rw [resolving_run]
  cases hr : c.resolver.resolve v d x.store with
  | mk result s =>
    rw [hr] at hs
    cases result with
    | error e => exact .error rfl ⟨rfl, hs⟩
    | ok t =>
      obtain ⟨hfound, -⟩ := Resolver.resolve_found hr
      exact .ok ⟨rfl, hfound.document.elim (fun heq => heq ▸ hd) (hG s _ hs), hfound.value⟩ ⟨rfl, hs⟩

/-- What the resolution of references keeps in certain documents, a construction keeps, if only such documents come to
hand. -/
theorem inStep_keeping (hresolve : ∀ v d, G d → Loading.Keeps Q (c.resolver.resolve v d))
    (hG : ∀ s d, Q s → s.cache.Has d → G d) :
    c.InStep (.keeping Compilation SchemaError fun x => Q x.store) c fun _ d d' _ => d = d' ∧ G d where
  known hx hp := by
    obtain ⟨rfl, -⟩ := hx
    obtain ⟨rfl, -⟩ := hp
    rfl
  enter hp id := by
    obtain ⟨rfl, -⟩ := hp
    exact Lockstep.keeping_relates_iff.2 fun x hx => hx
  building change := Lockstep.keeping_relates_iff.2 fun x hx => hx
  subschema hp _ _ := hp
  resolve := by
    rintro v d _ p ⟨rfl, hd⟩ -
    refine (relates_resolving (hresolve v d hd) hG hd).weaken ?_
    rintro t _ ⟨rfl, ht, -⟩
    exact ⟨rfl, rfl, rfl, ht⟩
  check {v d d' p} hp := by
    obtain ⟨rfl, -⟩ := hp
    refine Lockstep.keeping_relates_iff.2 fun x hx => ?_
    obtain ⟨checked, hcheck⟩ := c.check_run v d p x
    rw [hcheck]
    exact hx
  regex hp remaining remaining' text place := by
    obtain ⟨rfl, -⟩ := hp
    exact Lockstep.keeping_relates_iff.2 fun x hx => hx
  deep hp := by
    obtain ⟨rfl, -⟩ := hp
    rfl

/-- The check and the construction of a whole document keep what the resolution of references keeps. -/
theorem keeps_work (hresolve : ∀ v d, G d → Loading.Keeps Q (c.resolver.resolve v d))
    (hG : ∀ s d, Q s → s.cache.Has d → G d) (hd : G d) {x : Compilation} (hx : Q x.store) :
    Q ((c.check d.root d .root >>= fun _ => c.node (c.limits.maxDepth + 1) d.root d .root) x).2.store :=
  Lockstep.keeping_relates_iff.1
    ((inStep_keeping hresolve hG).relates_work (v := d.root) (p := .root) (.inl rfl) ⟨rfl, hd⟩) x hx

/-- What is kept from the moment at which a document is at hand under its URI, holds when its entry is put back. -/
theorem compile_keeps (hresolve : ∀ v d, G d → Loading.Keeps Q (c.resolver.resolve v d))
    (hG : ∀ s d, Q s → s.cache.Has d → G d) (hd : G d) {store : Store} (hs : Q (store.opened d)) :
    ∃ s, Q s ∧ (c.compile d store).2 = { s.closed d store with nextTag := s.nextTag + 1 } := by
  have hwork := keeps_work hresolve hG hd (x := start (store.opened d)) hs
  cases hrun : (c.check d.root d .root >>= fun _ => c.node (c.limits.maxDepth + 1) d.root d .root)
      (start (store.opened d)) with
  | mk result x =>
    rw [hrun] at hwork
    refine ⟨x.store, hwork, ?_⟩
    rw [compile_run hrun, finish, Store.nextTag_closed]

/-- The construction of a schema is a run of events. -/
theorem compile_runs (c : Compiler) (document : Document) (store : Store) :
    ∃ s es, c.resolver.Run (store.opened document) es s ∧
      (c.compile document store).2 = { s.closed document store with nextTag := s.nextTag + 1 } := by
  have hresolve : ∀ v d, True → Loading.Keeps (fun s => ∃ es, c.resolver.Run (store.opened document) es s)
      (c.resolver.resolve v d) := fun v d _ s ⟨es, hrun⟩ => by
    obtain ⟨es', hrun'⟩ := c.resolver.resolve_runs v d s
    exact ⟨_, hrun.append hrun'⟩
  obtain ⟨s, ⟨es, hrun⟩, hcompile⟩ := compile_keeps hresolve (fun _ _ _ _ => trivial) trivial ⟨[], .nil⟩
  exact ⟨s, es, hrun, hcompile⟩

end Compiler

/-! ### Where documents come from -/

namespace Resolver

variable {r : Resolver} {s s' : Store} {e : Event} {es : List Event} {uri : Uri} {key : String} {d : Document}

/-- The document is one that the loader answers with. -/
def Gives (r : Resolver) (d : Document) : Prop :=
  ∃ loader requested earlier remote tag root finalUri, r.loader? = some loader ∧
    loader.answer requested earlier = .ok remote ∧ Value.transform tag remote.heap remote.root = .ok root ∧
    Uri.parse remote.finalUri = .ok finalUri ∧ d = .retrieved finalUri root

/-- Between two states the loader was asked for a URI and answered with the document. The text is that URI, or the URI of
the document. -/
def Obtained (r : Resolver) (s s' : Store) (key : String) (d : Document) : Prop :=
  ∃ loader before requested after remote tag root finalUri, r.loader? = some loader ∧
    s'.requests = s.requests ++ before ++ requested :: after ∧
    loader.answer requested ((s.requests ++ before).count requested) = .ok remote ∧
    Value.transform tag remote.heap remote.root = .ok root ∧ Uri.parse remote.finalUri = .ok finalUri ∧
    d = .retrieved finalUri root ∧ (key = requested ∨ key = Cache.key finalUri)

theorem Run.obtained (h : r.Run s es s') (he : .given uri d ∈ es)
    (hkey : key = Cache.key uri ∨ d.uri?.map Cache.key = some key) : r.Obtained s s' key d := by
  obtain ⟨before, after, rfl⟩ := List.append_of_mem he
  obtain ⟨m, m', hbefore, hstep, -⟩ := h.split
  cases hstep with
  | given hwhole _ hf =>
    obtain ⟨loader, remote, root, finalUri, hloader, ha, ht, hu, rfl, -⟩ := fetch_eq_ok hf
    rw [hbefore.requests] at ha
    have hrequests := h.requests
    rw [List.filterMap_append, List.map_append, ← List.append_assoc] at hrequests
    refine ⟨loader, _, uri.toText, _, remote, _, root, finalUri, hloader, hrequests, ha, ht, hu, rfl, ?_⟩
    exact hkey.imp (fun h => h.trans (Cache.key_of_whole hwhole)) fun h => (Option.some.inj h).symm

/-- What came to hand: no document was replaced, and a new one was obtained from the loader, or was there already under
another URI than its own. -/
structure Extends (r : Resolver) (s s' : Store) : Prop where
  grows : s.cache.Grows s'.cache
  new : ∀ {key d}, s.cache.entries.lookup key = none → s'.cache.entries.lookup key = some d →
    r.Obtained s s' key d ∨ ∃ other, s.cache.entries.lookup other = some d ∧ d.uri?.map Cache.key = some key

/-- The documents that are there under other URIs than their own came from the loader. -/
def Sourced (r : Resolver) (s : Store) : Prop :=
  ∀ key d, s.cache.entries.lookup key = some d → d.uri?.map Cache.key ≠ some key → r.Gives d

theorem Obtained.gives (h : r.Obtained s s' key d) : r.Gives d := by
  obtain ⟨loader, before, requested, after, remote, tag, root, finalUri, hl, -, ha, ht, hu, hd, -⟩ := h
  exact ⟨loader, requested, _, remote, tag, root, finalUri, hl, ha, ht, hu, hd⟩

theorem Extends.gives (h : r.Extends s s') (hs : r.Sourced s) (hnone : s.cache.entries.lookup key = none)
    (hd : s'.cache.entries.lookup key = some d) : r.Gives d := by
  rcases h.new hnone hd with hobtained | ⟨other, hold, hkey⟩
  · exact hobtained.gives
  · refine hs other d hold fun hother => ?_
    rw [Option.some.inj (hkey.symm.trans hother), hold] at hnone
    cases hnone

theorem Extends.sourced (h : r.Extends s s') (hs : r.Sourced s) : r.Sourced s' := by
  intro key d hd hforeign
  cases hold : s.cache.entries.lookup key with
  | none => exact h.gives hs hold hd
  | some d' =>
    cases (h.grows key d' hold).symm.trans hd
    exact hs key d hold hforeign

end Resolver

/-! ### Entries -/

namespace Store

variable {s earlier : Store} {document : Document} {uri : Uri} {key : String}

theorem lookup_opened (hkey : document.uri?.map Cache.key = some key) :
    (earlier.opened document).cache.entries.lookup key = some document := by
  obtain ⟨uri, hu, rfl⟩ := Option.map_eq_some_iff.mp hkey
  rw [opened, hu]
  exact (Cache.lookup_insertAs _ _ _ _).trans (if_pos rfl)

theorem lookup_opened_of_ne (hkey : document.uri?.map Cache.key ≠ some key) :
    (earlier.opened document).cache.entries.lookup key = earlier.cache.entries.lookup key := by
  unfold opened
  cases hu : document.uri? with
  | none => rfl
  | some uri =>
    rw [hu] at hkey
    exact (Cache.lookup_insertAs _ _ _ _).trans (if_neg fun heq => hkey (congrArg some heq.symm))

/-- A document at hand is the one that is compiled, or was at hand before. -/
theorem has_opened {d : Document} (h : (earlier.opened document).cache.Has d) : earlier.cache.AtHand document d := by
  obtain ⟨key, hd⟩ := h
  by_cases hkey : document.uri?.map Cache.key = some key
  · rw [lookup_opened hkey] at hd
    exact .inl (Option.some.inj hd).symm
  · rw [lookup_opened_of_ne hkey] at hd
    exact .inr ⟨key, hd⟩

/-- The entry under the URI of the document is put back. -/
theorem lookup_closed (hkey : document.uri?.map Cache.key = some key) :
    (s.closed document earlier).cache.entries.lookup key = earlier.cache.entries.lookup key := by
  obtain ⟨uri, hu, rfl⟩ := Option.map_eq_some_iff.mp hkey
  rw [closed, hu]
  dsimp only
  unfold Cache.restore
  cases hd : earlier.cache.get? uri with
  | some d => exact ((Cache.lookup_insertAs _ _ _ _).trans (if_pos rfl)).trans hd.symm
  | none => exact ((Cache.lookup_remove _ _ _).trans (if_pos rfl)).trans hd.symm

theorem lookup_closed_of_ne (hkey : document.uri?.map Cache.key ≠ some key) :
    (s.closed document earlier).cache.entries.lookup key = s.cache.entries.lookup key := by
  unfold closed
  cases hu : document.uri? with
  | none => rfl
  | some uri =>
    rw [hu] at hkey
    have hne : key ≠ Cache.key uri := fun heq => hkey (congrArg some heq.symm)
    dsimp only
    unfold Cache.restore
    split
    · exact (Cache.lookup_insertAs _ _ _ _).trans (if_neg hne)
    · exact (Cache.lookup_remove _ _ _).trans (if_neg hne)

/-- What was at hand before is at hand again when the entry is put back. -/
theorem grows_closed (h : (earlier.opened document).cache.Grows s.cache) :
    earlier.cache.Grows (s.closed document earlier).cache := by
  intro key d hd
  by_cases hkey : document.uri?.map Cache.key = some key
  · rw [lookup_closed hkey, hd]
  · rw [lookup_closed_of_ne hkey]
    exact h key d ((lookup_opened_of_ne hkey).trans hd)

end Store

/-! ### The effect of one call -/

namespace Compiler

variable {c : Compiler} {store : Store}

/-- The entry under the URI of a document is put back, and otherwise documents came to hand. -/
theorem compile_scoped (c : Compiler) (document : Document) (store : Store) {after : Store}
    (hafter : (c.compile document store).2 = after) :
    (∀ uri, document.uri? = some uri → after.cache.get? uri = store.cache.get? uri) ∧
      c.resolver.Extends store after := by
  obtain ⟨s, es, hrun, hcompile⟩ := c.compile_runs document store
  have hcache : after.cache = (s.closed document store).cache := by rw [← hafter, hcompile]
  have hobtained : ∀ {key d}, c.resolver.Obtained (store.opened document) s key d →
      c.resolver.Obtained store after key d := by
    rintro key d ⟨loader, before, requested, rest, remote, tag, root, finalUri, hl, hrequests, ha, h⟩
    rw [Store.requests_opened] at hrequests ha
    refine ⟨loader, before, requested, rest, remote, tag, root, finalUri, hl, ?_, ha, h⟩
    rw [← hafter, hcompile, ← hrequests]
    exact s.requests_closed store document
  refine ⟨fun uri hu => ?_, hcache ▸ Store.grows_closed hrun.grows, fun {key d} hnone hd => ?_⟩
  · rw [Cache.get?, Cache.get?, hcache, Store.lookup_closed (by rw [hu]; rfl)]
  · rw [hcache] at hd
    by_cases hkey : document.uri?.map Cache.key = some key
    · rw [Store.lookup_closed hkey, hnone] at hd
      cases hd
    · rw [Store.lookup_closed_of_ne hkey] at hd
      rcases hrun.entry_cases hd with hold | ⟨uri, hgiven, hkey'⟩ | ⟨other, hold, hown⟩
      · rw [Store.lookup_opened_of_ne hkey, hnone] at hold
        cases hold
      · exact .inl (hobtained (hrun.obtained hgiven hkey'))
      · -- the document that is compiled is at hand under its own URI alone
        by_cases hother : document.uri?.map Cache.key = some other
        · rw [Store.lookup_opened hother] at hold
          cases hold
          exact absurd hown hkey
        · exact .inr ⟨other, (Store.lookup_opened_of_ne hother).symm.trans hold, hown⟩

/-- A value with a URI that cannot be read is not compiled. -/
theorem compileValue_of_not_given (c : Compiler) (store : Store) {v : Value} {uri? : Option String} {e : SchemaError}
    (hd : Document.given v uri? = .error e) : c.compileValue v uri? store = (.error e, store) := by
  cases uri? with
  | none => cases hd
  | some text =>
    rw [Document.given] at hd
    rw [compileValue]
    cases hp : Uri.parse text with
    | error e' =>
      rw [hp] at hd
      cases hd
      rfl
    | ok uri =>
      rw [hp] at hd
      cases hd

/-- **A value that becomes a schema, or does not, leaves the documents at hand as they were, except for what was loaded.**
The entry under its URI is what it was before, no other entry has changed, and the document of a new one was obtained from
the loader, or it was there already under another URI than its own. If documents that are there under other URIs came from
the loader, then all that are new did, and this stays so. -/
theorem compileValue_scoped {c : Compiler} {store after : Store} {v : Value} {uri? : Option String}
    (hafter : (c.compileValue v uri? store).2 = after) :
    (∀ document uri, Document.given v uri? = .ok document → document.uri? = some uri →
        after.cache.get? uri = store.cache.get? uri) ∧
      (∀ key d, store.cache.entries.lookup key = some d → after.cache.entries.lookup key = some d) ∧
      (∀ key d, store.cache.entries.lookup key = none → after.cache.entries.lookup key = some d →
        c.resolver.Obtained store after key d ∨
          ∃ other, other ≠ key ∧ store.cache.entries.lookup other = some d ∧ d.uri?.map Cache.key = some key) ∧
      (c.resolver.Sourced store → c.resolver.Sourced after ∧
        ∀ key d, store.cache.entries.lookup key = none → after.cache.entries.lookup key = some d →
          c.resolver.Gives d) := by
  have hscoped : (∀ document uri, Document.given v uri? = .ok document → document.uri? = some uri →
      after.cache.get? uri = store.cache.get? uri) ∧ c.resolver.Extends store after := by
    cases hgiven : Document.given v uri? with
    | error e =>
      rw [compileValue_of_not_given c store hgiven] at hafter
      subst hafter
      refine ⟨fun _ _ hd => ?_, .refl _, fun hnone hd => ?_⟩
      · cases hd
      · cases hnone.symm.trans hd
    | ok document =>
      rw [(compileValue_eq c store hgiven).2] at hafter
      obtain ⟨hown, hextends⟩ := c.compile_scoped document store hafter
      refine ⟨fun document' uri hd hu => ?_, hextends⟩
      cases hd
      exact hown uri hu
  obtain ⟨hown, hextends⟩ := hscoped
  refine ⟨hown, hextends.grows, fun key d hnone hd => ?_, fun hsourced => ⟨hextends.sourced hsourced, fun key d => ?_⟩⟩
  · refine (hextends.new hnone hd).imp_right fun ⟨other, hold, hkey⟩ => ⟨other, fun hother => ?_, hold, hkey⟩
    rw [hother, hnone] at hold
    cases hold
  · exact hextends.gives hsourced

/-- A document has moved from one URI to another. -/
def forwardLoader : Loader := .ofSources
  [⟨"http://old", [], .ok ⟨⟨#[.object [("type", .string "string")]]⟩, .cell 0, "http://new"⟩⟩]

/-- Documents are loaded from where they have moved to. -/
def forwardCompiler : Compiler := ⟨⟨some forwardLoader, .standard⟩, .standard⟩

/-- A schema that refers to the document by its old URI. -/
def forwardSchema : Value :=
  ⟨⟨0, #[.object [("not", 1)], .reference [("$ref", 2)], .string "http://old"]⟩, 0⟩

/-- A schema at the new URI is not mistaken for the document that has moved there, and is not at hand afterwards. -/
theorem compileValue_forwardSchema : ∃ after,
    (forwardCompiler.compileValue forwardSchema (some "http://new") (.start 2)).2 = after ∧
      after.cache.entries.map (·.1) = ["http://old"] ∧ forwardCompiler.resolver.Sourced (.start 2) ∧
      ∀ key d, after.cache.entries.lookup key = some d → forwardCompiler.resolver.Gives d := by
  have hsourced : forwardCompiler.resolver.Sourced (.start 2) := fun key d hd => by cases hd
  obtain ⟨-, -, -, hgives⟩ := @compileValue_scoped forwardCompiler (.start 2) _ forwardSchema (some "http://new") rfl
  exact ⟨_, rfl, by decide +kernel, hsourced, fun key d => (hgives hsourced).2 key d rfl⟩

end Compiler

end JsonSchema
