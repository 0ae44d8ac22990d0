import JsonSchema.Proofs.Environment
import JsonSchema.Proofs.Reordered

/-!
References in documents that differ only in the order of members. What a URI leads to is laid down by the documents that
are at hand in the beginning and by the loader (`Resolver.Offers`), and what comes to hand later is among it as long as
loading succeeds (`Resolver.Faithful`). In an environment where every document is also found under its own URI
(`Resolver.Consistent`) it does not matter in which order documents are loaded: a reference that was resolved in one
order is resolved in any other one, and leads to the same place (`Resolver.resolve_reordered`).
-/

namespace JsonSchema

/-! ### Documents -/

/-- Documents with the same URI whose values differ only in the order of members. -/
structure Document.Reordered (d e : Document) : Prop where
  uri : e.uri? = d.uri?
  root : d.root.Reordered e.root

/-- The same place in documents that differ only in the order of members. -/
structure Target.Reordered (t u : Target) : Prop where
  document : t.document.Reordered u.document
  pointer : u.pointer = t.pointer
  value : t.value.Reordered u.value

namespace Document.Reordered

variable {d e d' : Document}

theorem refl (hd : d.root.graph.WellFormed) : d.Reordered d := ⟨rfl, .refl hd⟩

theorem symm (h : d.Reordered e) : e.Reordered d := ⟨h.uri.symm, h.root.symm⟩

theorem trans (h : d.Reordered e) (h' : e.Reordered d') : d.Reordered d' := ⟨h'.uri.trans h.uri, h.root.trans h'.root⟩

theorem uriText (h : d.Reordered e) : e.uriText? = d.uriText? := congrArg (Option.map Uri.toText) h.uri

theorem location (h : d.Reordered e) (p : Pointer) : e.location p = d.location p :=
  congrArg (Location.mk · p) h.uriText

theorem destination (h : d.Reordered e) (reference : String) : e.destination reference = d.destination reference := by
  have hat : ∀ uri, e.isAt uri = d.isAt uri := fun uri => by rw [Document.isAt, Document.isAt, h.uriText]
  have hdestination : ∀ uri, e.destinationOfUri uri = d.destinationOfUri uri := fun uri => by
    rw [destinationOfUri, destinationOfUri, hat]
  simp only [Document.destination, h.uri, hdestination]

/-- A fragment designates the same place. -/
theorem target (h : d.Reordered e) {fragment : String} {t : Target} (ht : d.target fragment = .ok t) :
    ∃ u, e.target fragment = .ok u ∧ t.Reordered u := by
  unfold Document.target at ht ⊢
  cases hp : Pointer.ofFragment fragment with
  | error fault =>
    rw [hp] at ht
    cases ht
  | ok p =>
    simp only [hp, bind, Except.bind] at ht ⊢
    cases hv : p.resolve d.root with
    | error fault =>
      rw [hv] at ht
      cases ht
    | ok v =>
      rw [hv] at ht
      cases ht
      obtain ⟨w, hw, hvw⟩ := h.root.resolve hv
      rw [hw]
      exact ⟨_, rfl, h, rfl, hvw⟩

end Document.Reordered

theorem Target.Reordered.location {t u : Target} (h : t.Reordered u) : u.location = t.location := by
  rw [Target.location, Target.location, h.pointer, h.document.location]

/-! ### The environment -/

/-- What a URI leads to, where these documents are at hand: the document in the cache, or else the one that the loader
answers with. -/
inductive Resolver.Offers (r : Resolver) (s : Store) (key : String) : Document → Prop
  | cached {d : Document} : s.cache.entries.lookup key = some d → Offers r s key d
  | loaded {loader : Loader} {remote : Remote} {root : Value} {finalUri : Uri} {tag : Nat} :
      s.cache.entries.lookup key = none → r.loader? = some loader →
      loader.answer key (s.requests.count key) = .ok remote → Value.transform tag remote.heap remote.root = .ok root →
      Uri.parse remote.finalUri = .ok finalUri → Offers r s key (.retrieved finalUri root)

/-- The document has a URI, which leads to the same document up to the order of members. -/
def Resolver.Locates (r : Resolver) (s : Store) (d : Document) : Prop :=
  ∃ uri e, d.uri? = some uri.withoutFragment ∧ r.Offers s (Cache.key uri) e ∧ e.Reordered d

/-- Whatever URI leads to a document, its own URI leads to the same one. -/
def Resolver.Consistent (r : Resolver) (s : Store) : Prop := ∀ {key d}, r.Offers s key d → r.Locates s d

/-- The same requests were made, and the same documents are at hand up to the order of members. -/
structure Store.Reordered (s t : Store) : Prop where
  requests : t.requests = s.requests
  cached : ∀ {key d}, s.cache.entries.lookup key = some d → ∃ e, t.cache.entries.lookup key = some e ∧ d.Reordered e
  uncached : ∀ {key}, s.cache.entries.lookup key = none → t.cache.entries.lookup key = none

/-- What came to hand since an earlier state is what the environment offered there, and nothing else was asked for. -/
structure Resolver.Faithful (r : Resolver) (origin : Store) (document : Document) (s : Store) : Prop where
  wellFormed : s.WellFormed document
  cached : ∀ {key d}, s.cache.entries.lookup key = some d → ∃ e, r.Offers origin key e ∧ e.Reordered d
  uncached : ∀ {key}, s.cache.entries.lookup key = none →
    origin.cache.entries.lookup key = none ∧ s.requests.count key = origin.requests.count key

namespace Store.Reordered

variable {s t : Store}

theorem refl {document : Document} (hs : s.WellFormed document) : s.Reordered s :=
  ⟨rfl, fun hd => ⟨_, hd, .refl (hs _ (.inr ⟨_, hd⟩))⟩, id⟩

theorem symm (h : s.Reordered t) : t.Reordered s := by
  refine ⟨h.requests.symm, fun {key e} he => ?_, fun {key} hnone => ?_⟩
  · cases hd : s.cache.entries.lookup key with
    | none => cases he.symm.trans (h.uncached hd)
    | some d =>
      obtain ⟨e', he', hde⟩ := h.cached hd
      cases he.symm.trans he'
      exact ⟨d, rfl, hde.symm⟩
  · cases hd : s.cache.entries.lookup key with
    | none => rfl
    | some d =>
      obtain ⟨e, he, -⟩ := h.cached hd
      cases hnone.symm.trans he

end Store.Reordered

namespace Resolver

variable {r : Resolver} {s s' t origin origin' : Store} {key : String} {document document' d e : Document} {uri : Uri}

/-- The same remote document with another tag. -/
theorem reordered_of_transform (hl : ∀ loader ∈ r.loader?, loader.WellFormed) {loader : Loader}
    (hloader : r.loader? = some loader) {earlier tag : Nat} {remote : Remote} {root : Value}
    (ha : loader.answer key earlier = .ok remote) (ht : Value.transform tag remote.heap remote.root = .ok root)
    (tag' : Nat) : ∃ root', Value.transform tag' remote.heap remote.root = .ok root' ∧ root.Reordered root' := by
  have hw := wellFormed_of_answer hl hloader ha ht
  have hpaired := Value.paired_refl hw
  refine ⟨⟨⟨tag', root.graph.nodes⟩, root.id⟩, ?_, hw, ⟨hw.nodup_keys, hw.reference⟩, (· = ·), rfl, hpaired.node,
    hpaired.right_unique, hpaired.left_unique⟩
  rw [transform_tag tag tag', ht]
  rfl

/-- A URI leads to the same document. -/
theorem Offers.reordered (hl : ∀ loader ∈ r.loader?, loader.WellFormed) (hst : s.Reordered t)
    (hd : r.Offers s key d) (he : r.Offers t key e) : d.Reordered e := by
  cases hd with
  | cached hd =>
    obtain ⟨e', he', hde⟩ := hst.cached hd
    cases he with
    | cached he =>
      cases he.symm.trans he'
      exact hde
    | loaded hnone => cases hnone.symm.trans he'
  | loaded hnone hloader ha ht hu =>
    cases he with
    | cached he => cases he.symm.trans (hst.uncached hnone)
    | loaded hnone' hloader' ha' ht' hu' =>
      cases hloader.symm.trans hloader'
      rw [hst.requests] at ha'
      cases ha.symm.trans ha'
      cases hu.symm.trans hu'
      obtain ⟨root', hroot', hreordered⟩ := reordered_of_transform hl hloader ha ht _
      cases ht'.symm.trans hroot'
      exact ⟨rfl, hreordered⟩

theorem Offers.exists (hst : s.Reordered t) (hd : r.Offers s key d) : ∃ e, r.Offers t key e := by
  cases hd with
  | cached hd =>
    obtain ⟨e, he, -⟩ := hst.cached hd
    exact ⟨e, .cached he⟩
  | loaded hnone hloader ha ht hu =>
    rw [← hst.requests] at ha
    exact ⟨_, .loaded (hst.uncached hnone) hloader ha ht hu⟩

/-! ### What comes to hand -/

theorem faithful_start (h : s.WellFormed document) : r.Faithful s document s :=
  ⟨h, fun hd => ⟨_, .cached hd, .refl (h _ (.inr ⟨_, hd⟩))⟩, fun hnone => ⟨hnone, rfl⟩⟩

/-- A document that the environment offers is entered. -/
theorem Faithful.insert (h : r.Faithful origin document s) (hd : ∃ e, r.Offers origin (Cache.key uri) e ∧ e.Reordered d)
    (hcache : s'.cache = s.cache.insertAs uri d)
    (hrequests : ∀ key, key ≠ Cache.key uri → s'.requests.count key = s.requests.count key) :
    r.Faithful origin document s' := by
  have hlookup : ∀ key, s'.cache.entries.lookup key =
      if key = Cache.key uri then some d else s.cache.entries.lookup key := fun key => by
    rw [hcache]
    exact Members.lookup_insert _ _ _ _
  refine ⟨?_, fun {key e} he => ?_, fun {key} hnone => ?_⟩
  · rintro e (he | ⟨key, he⟩)
    · exact h.wellFormed e (.inl he)
    · rw [hlookup] at he
      split at he
      · cases he
        obtain ⟨e', -, hde⟩ := hd
        exact hde.root.right
      · exact h.wellFormed e (.inr ⟨key, he⟩)
  · rw [hlookup] at he
    split at he
    · next hkey =>
      cases he
      exact hkey ▸ hd
    · exact h.cached he
  · rw [hlookup] at hnone
    split at hnone
    · cases hnone
    · next hkey =>
      obtain ⟨horigin, hcount⟩ := h.uncached hnone
      exact ⟨horigin, (hrequests key hkey).trans hcount⟩

/-- A document that is also found under its own URI is entered under that one. -/
theorem Faithful.settle (hc : r.Consistent origin) (h : r.Faithful origin document s)
    (hd : s.cache.get? uri = some d) : r.Faithful origin document (s.settle uri d) := by
  unfold Store.settle
  split
  · exact h
  · next finalUri hfinal =>
    split
    · obtain ⟨e, he, hed⟩ := h.cached hd
      obtain ⟨own, e', hown, he', he'e⟩ := hc he
      rw [← hed.uri, hfinal] at hown
      cases hown
      exact h.insert ⟨e', he', he'e.trans hed⟩ rfl fun _ _ => rfl
    · exact h

/-- A load that answers keeps to the environment. -/
theorem Faithful.load (hl : ∀ loader ∈ r.loader?, loader.WellFormed) (hc : r.Consistent origin)
    (h : r.Faithful origin document s) (hrun : r.load uri s = (.ok d, s')) : r.Faithful origin document s' := by
  rw [load_run] at hrun
  split at hrun
  · next d' hd' =>
    cases hrun
    exact h.settle hc hd'
  · next hnone =>
    split at hrun
    · cases hrun
    · next d' s₁ hfetch =>
      cases hrun
      obtain ⟨loader, remote, root, finalUri, hloader, ha, ht, hu, rfl, rfl⟩ := fetch_eq_ok hfetch
      obtain ⟨horigin, hcount⟩ := h.uncached hnone
      have hoffers : r.Offers origin (Cache.key uri) (.retrieved finalUri root) :=
        .loaded horigin hloader (hcount ▸ ha) ht hu
      refine Faithful.settle hc (h.insert ⟨_, hoffers, .refl ?_⟩ rfl fun key hkey => ?_) ?_
      · exact wellFormed_of_answer hl hloader ha ht
      · have hother : [Cache.key uri].count key = 0 := List.count_eq_zero.mpr (by simpa using hkey)
        exact List.count_append.trans (congrArg (s.requests.count key + ·) hother)
      · rw [Cache.get?_insertAs, if_pos rfl]

/-- Resolution that answers keeps to the environment. -/
theorem Faithful.resolve (hl : ∀ loader ∈ r.loader?, loader.WellFormed) (hc : r.Consistent origin)
    (h : r.Faithful origin document s) {v : Value} {t : Target} (hrun : r.resolve v d s = (.ok t, s')) :
    r.Faithful origin document s' :=
  (closed_answering fun _ _ _ _ h hrun => h.load hl hc hrun).resolve v d h hrun

theorem Locates.of_reordered (h : r.Locates s d) (hde : d.Reordered e) : r.Locates s e := by
  obtain ⟨uri, d', huri, hd', hd'd⟩ := h
  exact ⟨uri, d', hde.uri.trans huri, hd', hd'd.trans hde⟩

theorem Locates.reordered (hl : ∀ loader ∈ r.loader?, loader.WellFormed) (hst : s.Reordered t) (h : r.Locates s d) :
    r.Locates t d := by
  obtain ⟨uri, d', huri, hd', hd'd⟩ := h
  obtain ⟨e', he'⟩ := hd'.exists hst
  exact ⟨uri, e', huri, he', (hd'.reordered hl hst he').symm.trans hd'd⟩

theorem Consistent.reordered (hl : ∀ loader ∈ r.loader?, loader.WellFormed) (hst : s.Reordered t)
    (h : r.Consistent s) : r.Consistent t := fun he =>
  have ⟨_, hd⟩ := he.exists hst.symm
  ((h hd).reordered hl hst).of_reordered (hd.reordered hl hst he)

/-- Documents that are found under the same URI of their own differ only in the order of members. -/
theorem Locates.unique (hl : ∀ loader ∈ r.loader?, loader.WellFormed) (hst : s.Reordered t) (hd : r.Locates s d)
    (he : r.Locates t e) (huri : d.uriText? = e.uriText?) : d.Reordered e := by
  obtain ⟨uri, d', hdu, hd', hd'd⟩ := hd
  obtain ⟨uri', e', heu, he', he'e⟩ := he
  have hkey : Cache.key uri = Cache.key uri' := by
    rw [Document.uriText?, Document.uriText?, hdu, heu] at huri
    exact Option.some.inj huri
  exact (hd'd.symm.trans (hd'.reordered hl hst (hkey ▸ he'))).trans he'e

/-- What is at hand is found under its own URI, or is the anonymous document that was there from the beginning. -/
theorem Faithful.locates (hc : r.Consistent origin) (hmain : document.uri? = none ∨ r.Locates origin document)
    (h : r.Faithful origin document s) (hd : s.cache.AtHand document d) :
    d = document ∧ d.uriText? = none ∨ r.Locates origin d := by
  rcases hd with rfl | ⟨key, hd⟩
  · exact hmain.imp_left fun hnone => ⟨rfl, by rw [Document.uriText?, hnone]; rfl⟩
  · obtain ⟨e, he, hed⟩ := h.cached hd
    exact .inr ((hc he).of_reordered hed)

/-- Documents at hand with the same URI differ only in the order of members. -/
theorem Faithful.reordered_of_uriText (hl : ∀ loader ∈ r.loader?, loader.WellFormed) (ho : origin.Reordered origin')
    (hc : r.Consistent origin) (hmain : document.uri? = none ∨ r.Locates origin document)
    (hdocument : document.Reordered document') (h : r.Faithful origin document s)
    (h' : r.Faithful origin' document' s') (hd : s.cache.AtHand document d) (he : s'.cache.AtHand document' e)
    (huri : d.uriText? = e.uriText?) : d.Reordered e := by
  have hmain' : document'.uri? = none ∨ r.Locates origin' document' :=
    hmain.imp hdocument.uri.trans fun hd => (hd.reordered hl ho).of_reordered hdocument
  have hsome : ∀ {o d}, r.Locates o d → d.uriText? ≠ none := by
    rintro o d ⟨uri, e, huri, -⟩
    rw [Document.uriText?, huri]
    exact Option.some_ne_none _
  rcases h.locates hc hmain hd with ⟨rfl, hnone⟩ | hd <;>
    rcases h'.locates (hc.reordered hl ho) hmain' he with ⟨rfl, hnone'⟩ | he
  · exact hdocument
  · exact absurd (huri.symm.trans hnone) (hsome he)
  · exact absurd (huri.trans hnone') (hsome hd)
  · exact hd.unique hl ho he huri

/-! ### The same resolution -/

section

variable (hl : ∀ loader ∈ r.loader?, loader.WellFormed) (ho : origin.Reordered origin')
  (h : r.Faithful origin document s) (h' : r.Faithful origin' document' s')

include hl ho h h'

theorem load_reordered (hd : s.cache.get? uri = some d) : ∃ e s'', r.load uri s' = (.ok e, s'') ∧ d.Reordered e := by
  obtain ⟨d₀, hd₀, hd₀d⟩ := h.cached hd
  rw [load_run]
  cases he : s'.cache.get? uri with
  | some e =>
    obtain ⟨e₀, he₀, he₀e⟩ := h'.cached he
    exact ⟨e, _, rfl, (hd₀d.symm.trans (hd₀.reordered hl ho he₀)).trans he₀e⟩
  | none =>
    -- nothing was asked under this URI yet, so the loader answers as it would have in the beginning
    obtain ⟨horigin', hcount⟩ := h'.uncached he
    cases hd₀ with
    | cached hd₀ =>
      obtain ⟨e₀, he₀, -⟩ := ho.cached hd₀
      cases he₀.symm.trans horigin'
    | @loaded loader remote root finalUri tag hnone hloader ha ht hu =>
      obtain ⟨root', ht', hroot⟩ := reordered_of_transform hl hloader ha ht s'.nextTag
      rw [← ho.requests, ← hcount] at ha
      have hfetch : Loader.fetch r.loader? uri.withoutFragment s' = (.ok (.retrieved finalUri root'),
          { s' with requests := s'.requests ++ [uri.withoutFragment.toText], nextTag := s'.nextTag + 1 }) := by
        rw [hloader, fetch_run]
        unfold Cache.key at ha
        simp only [ha, ht', hu]
      rw [hfetch]
      exact ⟨_, _, rfl, hd₀d.symm.trans ⟨rfl, hroot⟩⟩

theorem resolveTarget_reordered {reference : String} {t : Target} (hde : d.Reordered e)
    (hrun : r.resolveTarget reference d s = (.ok t, s)) :
    ∃ u s'', r.resolveTarget reference e s' = (.ok u, s'') ∧ t.Reordered u := by
  have htarget : ∀ {d e : Document} {fragment : String}, d.Reordered e →
      (d.target fragment).mapError ReferenceFault.badPointer = .ok t →
      ∃ u, (e.target fragment).mapError ReferenceFault.badPointer = .ok u ∧ t.Reordered u := by
    intro d e fragment hde ht
    obtain ⟨u, hu, htu⟩ := hde.target (mapError_eq_ok ht)
    exact ⟨u, by rw [hu]; rfl, htu⟩
  obtain ⟨destination, s₁, hdestination, hreach⟩ := run_bind_eq_ok (run_adapt_eq_ok hrun)
  obtain ⟨hdestined, rfl⟩ := Prod.mk.inj ((run_except _ _).symm.trans hdestination)
  have hreached : ∃ u s'', r.reach e destination s' = (.ok u, s'') ∧ t.Reordered u := by
    cases destination with
    | here fragment =>
      obtain ⟨u, hu, htu⟩ := htarget hde (Prod.mk.inj hreach).1
      exact ⟨u, s', congrArg (·, s') hu, htu⟩
    | elsewhere uri =>
      obtain ⟨d', s₂, hload, hreach⟩ := run_bind_eq_ok hreach
      obtain ⟨ht, rfl⟩ := Prod.mk.inj hreach
      obtain ⟨e', s'', hload', hde'⟩ := load_reordered hl ho h h' (load_get? (run_adapt_eq_ok hload))
      obtain ⟨u, hu, htu⟩ := htarget hde' ht
      have hadapt : (r.load uri).adapt (ReferenceFault.notLoaded uri.withoutFragment.toText) s' = (.ok e', s'') := by
        rw [run_adapt, hload']
        rfl
      exact ⟨u, s'', (run_bind_of_ok hadapt).trans (congrArg (·, s'') hu), htu⟩
  obtain ⟨u, s'', hu, htu⟩ := hreached
  refine ⟨u, s'', ?_, htu⟩
  have hdestination' : (liftM (e.destination reference) : Loading ReferenceFault Destination) s' =
      (.ok destination, s') := by
    rw [run_except, hde.destination, hdestined]
  rw [resolveTarget, run_adapt, run_bind_of_ok hdestination', hu]
  rfl

theorem chase_reordered (hc : r.Consistent origin') {more : Nat} {visited : List Location} {reference : String}
    {t : Target} (hde : d.Reordered e) (hrun : r.chase more visited reference d s = (.ok t, s)) :
    ∃ u s'', r.chase more visited reference e s' = (.ok u, s'') ∧ t.Reordered u := by
  -- one step, with the documents that are at hand in the end
  have hstep : ∀ {reference : String} {d e : Document} {target : Target} {s₁ s' : Store},
      r.Faithful origin' document' s' → d.Reordered e → r.resolveTarget reference d s = (.ok target, s₁) →
      s₁.cache.Grows s.cache → ∃ u s'', r.resolveTarget reference e s' = (.ok u, s'') ∧ target.Reordered u ∧
        r.Faithful origin' document' s'' := by
    intro reference d e target s₁ s' h' hde hrun hg
    have hagain := (r.closed_steady.resolveTarget reference d).again hrun hg
    obtain ⟨u, s'', hu, htu⟩ := resolveTarget_reordered hl ho h h' hde hagain
    exact ⟨u, s'', hu, htu, (closed_answering fun _ _ _ _ h hrun => h.load hl hc hrun).resolveTarget _ _ h' hu⟩
  induction more generalizing visited reference d e s' with
  | zero =>
    rw [chase] at hrun ⊢
    obtain ⟨target, s₁, htarget, hrun⟩ := run_bind_eq_ok hrun
    cases hr : target.value.reference? with
    | some next =>
      simp only [hr] at hrun
      split at hrun <;> cases hrun
    | none =>
      simp only [hr] at hrun
      cases hrun
      obtain ⟨u, s'', hu, htu, -⟩ := hstep h' hde htarget (.refl _)
      refine ⟨u, s'', ?_, htu⟩
      rw [run_bind_of_ok hu, htu.value.reference?, hr]
      rfl
  | succ more ih =>
    rw [chase] at hrun ⊢
    obtain ⟨target, s₁, htarget, hrun⟩ := run_bind_eq_ok hrun
    cases hr : target.value.reference? with
    | none =>
      simp only [hr] at hrun
      cases hrun
      obtain ⟨u, s'', hu, htu, -⟩ := hstep h' hde htarget (.refl _)
      refine ⟨u, s'', ?_, htu⟩
      rw [run_bind_of_ok hu, htu.value.reference?, hr]
      rfl
    | some next =>
      simp only [hr] at hrun
      split at hrun
      · cases hrun
      · next hnew =>
        have hsteady := r.closed_steady.chase more (target.location :: visited) next target.document
        obtain ⟨u, s'', hu, htu, h''⟩ := hstep h' hde htarget (hsteady.grows_of_eq hrun)
        obtain ⟨u', s₃, hu', htu'⟩ := ih h'' htu.document (hsteady.again hrun (.refl _))
        refine ⟨u', s₃, ?_, htu'⟩
        rw [run_bind_of_ok hu, htu.value.reference?, hr, htu.location]
        simp only [if_neg hnew]
        exact hu'

/-- **A reference that was resolved among some documents is resolved in the same way where they are loaded in another
order.** -/
theorem resolve_reordered (hc : r.Consistent origin') {v w : Value} {t : Target} (hvw : v.Reordered w)
    (hde : d.Reordered e) (hrun : r.Settled s v d t) :
    ∃ u s'', r.resolve w e s' = (.ok u, s'') ∧ t.Reordered u := by
  unfold Settled resolve at hrun
  unfold resolve
  rw [hvw.reference?]
  cases hv : v.reference? with
  | none =>
    simp only [hv] at hrun
    cases hrun
  | some link =>
    simp only [hv] at hrun
    exact chase_reordered hl ho h h' hc hde hrun

end

end Resolver

end JsonSchema
