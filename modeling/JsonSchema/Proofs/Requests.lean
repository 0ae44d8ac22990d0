import JsonSchema.Proofs.Loading
import JsonSchema.Proofs.UriText

/-!
What following references does to the documents at hand, event by event (`Resolver.Step`): the loader refuses a document,
or gives one, which is entered under the URI it was asked for, or a document that is at hand under another URI than its
own is entered under its own one. Loading a document is a run of such events (`Resolver.load_runs`), and so is the
resolution of references (`Resolver.resolve_runs`).

No event replaces a document, and the loader is asked only for a URI without document; so what it gave once it is not
asked for again (`Resolver.Run.not_asked_again`). If the URIs at hand can be read, they stay so, whatever is loaded
(`Resolver.Run.readable`).
-/

namespace JsonSchema

theorem Cache.key_of_whole {uri : Uri} (h : uri.fragment = none) : key uri = uri.toText := by
  obtain ⟨scheme, authority, path, query, fragment⟩ := uri
  cases h
  rfl

theorem Cache.lookup_insertAs (c : Cache) (uri : Uri) (d : Document) (key : String) :
    (c.insertAs uri d).entries.lookup key = if key = Cache.key uri then some d else c.entries.lookup key :=
  Members.lookup_insert _ _ _ _

/-! ### Events -/

/-- An event among the documents at hand. -/
inductive Event where
  | refused (uri : Uri) (fault : LoadFault)
  | given (uri : Uri) (d : Document)
  | linked (uri : Uri) (d : Document)

/-- What the loader is asked for. -/
def Event.request? : Event → Option Uri
  | .refused uri _ => some uri
  | .given uri _ => some uri
  | .linked .. => none

namespace Resolver

/-- What one event does to a store. -/
inductive Step (r : Resolver) : Store → Event → Store → Prop
  | refused {loader : Loader} {uri : Uri} {fault : LoadFault} {s s' : Store} : r.loader? = some loader →
      uri.fragment = none → s.cache.get? uri = none → Loader.fetch r.loader? uri s = (.error fault, s') →
      Step r s (.refused uri fault) s'
  | given {uri : Uri} {d : Document} {s s' : Store} : uri.fragment = none → s.cache.get? uri = none →
      Loader.fetch r.loader? uri s = (.ok d, s') →
      Step r s (.given uri d) { s' with cache := s'.cache.insertAs uri d }
  | linked {uri finalUri : Uri} {d : Document} {s : Store} : s.cache.get? uri = some d → d.uri? = some finalUri →
      d.isAt uri = false → s.cache.get? finalUri = none →
      Step r s (.linked finalUri d) { s with cache := s.cache.insertAs finalUri d }

/-- What a sequence of events does to a store. -/
inductive Run (r : Resolver) : Store → List Event → Store → Prop
  | nil {s : Store} : Run r s [] s
  | cons {s s₁ s' : Store} {e : Event} {es : List Event} : r.Step s e s₁ → Run r s₁ es s' → Run r s (e :: es) s'

variable {r : Resolver} {s s₁ s' s'' : Store} {e : Event} {es es' before after : List Event} {uri : Uri} {d : Document}

theorem fetch_requests {loader : Loader} {result : Except LoadFault Document}
    (h : Loader.fetch (some loader) uri s = (result, s')) : s'.requests = s.requests ++ [uri.toText] := by
  rw [fetch_run] at h
  split at h <;>
  · obtain ⟨-, rfl⟩ := Prod.mk.inj h
    rfl

namespace Step

theorem requests (h : r.Step s e s') : s'.requests = s.requests ++ (e.request?.map Uri.toText).toList := by
  cases h with
  | @refused loader uri fault _ _ hl _ _ hf =>
    rw [hl] at hf
    exact fetch_requests hf
  | given _ _ hf =>
    obtain ⟨_, _, _, _, _, _, _, _, _, rfl⟩ := fetch_eq_ok hf
    rfl
  | linked => exact (List.append_nil _).symm

theorem grows (h : r.Step s e s') : s.cache.Grows s'.cache := by
  cases h with
  | refused _ _ _ hf => exact fetch_cache hf ▸ .refl _
  | given _ hnone hf =>
    rw [← fetch_cache hf] at hnone ⊢
    exact Cache.grows_insertAs hnone
  | linked _ _ _ hnone => exact Cache.grows_insertAs hnone

/-- The loader is asked only for a URI without document. -/
theorem get?_eq_none (h : r.Step s e s') (hu : e.request? = some uri) : uri.fragment = none ∧ s.cache.get? uri = none := by
  cases h with
  | refused _ hwhole hnone | given hwhole hnone =>
    cases hu
    exact ⟨hwhole, hnone⟩
  | linked => cases hu

end Step

namespace Run

theorem single (h : r.Step s e s') : r.Run s [e] s' := .cons h .nil

theorem append (h : r.Run s es s') (h' : r.Run s' es' s'') : r.Run s (es ++ es') s'' := by
  induction h with
  | nil => exact h'
  | cons hstep _ ih => exact .cons hstep (ih h')

/-- A run goes through a state before each event and one after it. -/
theorem split (h : r.Run s (before ++ e :: after) s') :
    ∃ m m', r.Run s before m ∧ r.Step m e m' ∧ r.Run m' after s' := by
  induction before generalizing s with
  | nil =>
    cases h with
    | cons hstep hafter => exact ⟨s, _, .nil, hstep, hafter⟩
  | cons e' before ih =>
    cases h with
    | cons hstep hrest =>
      obtain ⟨m, m', hbefore, he, hafter⟩ := ih hrest
      exact ⟨m, m', .cons hstep hbefore, he, hafter⟩

/-- What every event of a run keeps, the run keeps. -/
theorem keeps {P : Store → Prop} (h : r.Run s es s') (hs : P s)
    (hstep : ∀ {m e m'}, e ∈ es → P m → r.Step m e m' → P m') : P s' := by
  induction h with
  | nil => exact hs
  | cons he _ ih => exact ih (hstep List.mem_cons_self hs he) fun he' => hstep (List.mem_cons_of_mem _ he')

theorem requests (h : r.Run s es s') :
    s'.requests = s.requests ++ (es.filterMap Event.request?).map Uri.toText := by
  induction h with
  | nil => simp
  | @cons s s₁ s' e es hstep _ ih =>
    rw [ih, hstep.requests, List.append_assoc]
    cases hu : e.request? <;> simp [hu]

theorem grows (h : r.Run s es s') : s.cache.Grows s'.cache :=
  h.keeps (P := fun m => s.cache.Grows m.cache) (.refl _) fun _ hg hstep => hg.trans hstep.grows

/-- The loader is not asked for a URI that has a document. -/
theorem get?_eq_none (h : r.Run s es s') (he : e ∈ es) (hu : e.request? = some uri) :
    uri.fragment = none ∧ s.cache.get? uri = none := by
  obtain ⟨before, after, rfl⟩ := List.append_of_mem he
  obtain ⟨m, m', hbefore, hstep, -⟩ := h.split
  obtain ⟨hwhole, hnone⟩ := hstep.get?_eq_none hu
  exact ⟨hwhole, hbefore.grows.lookup_eq_none hnone⟩

/-- What the loader gave once it is not asked for again. -/
theorem not_asked_again (h : r.Run s (before ++ .given uri d :: after) s') :
    s'.cache.get? uri = some d ∧ ∀ e ∈ after, ∀ u ∈ e.request?, Cache.key u ≠ Cache.key uri := by
  obtain ⟨m, m', -, hstep, hafter⟩ := h.split
  have hd : m'.cache.get? uri = some d := by
    cases hstep
    rw [Cache.get?_insertAs, if_pos rfl]
  refine ⟨hafter.grows.get? hd, fun e he u hu heq => ?_⟩
  have hnone := (hafter.get?_eq_none he hu).2
  rw [Cache.get?, heq] at hnone
  cases hd.symm.trans hnone

/-- An entry is old, or the loader gave its document, or its document was there under another URI than its own. -/
theorem entry_cases (h : r.Run s es s') :
    ∀ {key d}, s'.cache.entries.lookup key = some d → s.cache.entries.lookup key = some d ∨
      (∃ uri, .given uri d ∈ es ∧ (key = Cache.key uri ∨ d.uri?.map Cache.key = some key)) ∨
      ∃ other, s.cache.entries.lookup other = some d ∧ d.uri?.map Cache.key = some key := by
  refine h.keeps (P := fun m => ∀ {key d}, m.cache.entries.lookup key = some d → s.cache.entries.lookup key = some d ∨
      (∃ uri, .given uri d ∈ es ∧ (key = Cache.key uri ∨ d.uri?.map Cache.key = some key)) ∨
      ∃ other, s.cache.entries.lookup other = some d ∧ d.uri?.map Cache.key = some key) .inl ?_
  intro m e m' he ih hstep key d hd
  cases hstep with
  | refused _ _ _ hf =>
    rw [fetch_cache hf] at hd
    exact ih hd
  | @given uri d' _ s₁ _ _ hf =>
    rw [Cache.lookup_insertAs, fetch_cache hf] at hd
    split at hd
    · next hkey =>
      cases hd
      exact .inr (.inl ⟨uri, he, .inl hkey⟩)
    · exact ih hd
  | @linked uri finalUri d' _ hd' hfinal _ hnone =>
    rw [Cache.lookup_insertAs] at hd
    split at hd
    · next hkey =>
      cases hd
      have hown : d.uri?.map Cache.key = some key := by rw [hfinal, hkey]; rfl
      rcases ih hd' with hold | ⟨uri', hgiven, -⟩ | ⟨other, hold, -⟩
      · exact .inr (.inr ⟨_, hold, hown⟩)
      · exact .inr (.inl ⟨uri', hgiven, .inr hown⟩)
      · exact .inr (.inr ⟨other, hold, hown⟩)
    · exact ih hd

end Run

/-! ### Loading -/

theorem settle_runs (r : Resolver) (h : s.cache.get? uri = some d) : ∃ es, r.Run s es (s.settle uri d) ∧
    ∀ e ∈ es, e.request? = none := by
  unfold Store.settle
  split
  · exact ⟨[], .nil, by simp⟩
  · next finalUri hfinal =>
    split
    · next hs =>
      simp only [Bool.and_eq_true, Bool.not_eq_true', Option.isNone_iff_eq_none] at hs
      exact ⟨_, .single (.linked h hfinal hs.1 hs.2), by simp [Event.request?]⟩
    · exact ⟨[], .nil, by simp⟩

/-- Loading a document is a run, in which the loader is asked for its URI alone. -/
theorem load_runs (r : Resolver) (uri : Uri) (s : Store) : ∃ es, r.Run s es (r.load uri s).2 ∧
    ∀ e ∈ es, ∀ u ∈ e.request?, u = uri.withoutFragment := by
  rw [load_run]
  cases hc : s.cache.get? uri with
  | some d =>
    obtain ⟨es, hrun, hes⟩ := r.settle_runs hc
    exact ⟨es, hrun, fun e he u hu => by cases (hes e he).symm.trans hu⟩
  | none =>
    dsimp only
    cases hf : Loader.fetch r.loader? uri.withoutFragment s with
    | mk result s₁ =>
      cases result with
      | error fault =>
        dsimp only
        cases hl : r.loader? with
        | none =>
          rw [hl] at hf
          cases hf
          exact ⟨[], .nil, by simp⟩
        | some loader =>
          have hstep : r.Step s (.refused uri.withoutFragment fault) s₁ := .refused hl rfl hc hf
          exact ⟨_, .single hstep, by simp [Event.request?]⟩
      | ok d =>
        have hd : (s₁.cache.insertAs uri d).get? uri = some d := by rw [Cache.get?_insertAs, if_pos rfl]
        obtain ⟨es, hrun, hes⟩ := r.settle_runs (s := { s₁ with cache := s₁.cache.insertAs uri d }) hd
        refine ⟨.given uri.withoutFragment d :: es, .cons (.given rfl hc hf) hrun, fun e he u hu => ?_⟩
        rcases List.mem_cons.mp he with rfl | he
        · cases hu
          rfl
        · cases (hes e he).symm.trans hu

/-- Without a document the loader is asked, however often that was in vain. -/
theorem load_requests {loader : Loader} (hl : r.loader? = some loader) (hnone : s.cache.get? uri = none) :
    (r.load uri s).2.requests = s.requests ++ [uri.withoutFragment.toText] := by
  have hsettle : ∀ (d : Document) (s : Store), (s.settle uri d).requests = s.requests := by
    intro d s
    unfold Store.settle
    split
    · rfl
    · split <;> rfl
  rw [load_run, hnone, hl]
  dsimp only
  split
  · next hf => exact fetch_requests hf
  · next s' hf =>
    have hrequests : s'.requests = s.requests ++ [uri.withoutFragment.toText] := fetch_requests hf
    exact (hsettle _ _).trans hrequests

/-- **The resolution of references is a run of events**, in which no document is replaced. -/
theorem resolve_runs (r : Resolver) (v : Value) (context : Document) (s : Store) :
    ∃ es, r.Run s es (r.resolve v context s).2 := by
  have hkeeps : r.Closed (Loading.Keeps fun s' => ∃ es, r.Run s es s') := closed_keeps fun uri s' ⟨es, hrun⟩ => by
    obtain ⟨es', hrun', -⟩ := r.load_runs uri s'
    exact ⟨_, hrun.append hrun'⟩
  exact hkeeps.resolve v context s ⟨[], .nil⟩

end Resolver

/-! ### URIs that can be read -/

/-- The URI of the document, if it has one, can be read. -/
def Document.Readable (d : Document) : Prop := ∀ uri ∈ d.uri?, uri.Readable

/-- The URIs of the documents in the cache can be read. -/
def Store.Readable (s : Store) : Prop := ∀ d, s.cache.Has d → d.Readable

theorem Document.readable_retrieved {text : String} {uri : Uri} (h : Uri.parse text = .ok uri) (root : Value) :
    (retrieved uri root).Readable := by
  intro u hu
  cases hu
  exact (Uri.readable_of_parse h).withoutFragment

/-- A reference leads to a URI that can be read. -/
theorem Document.readable_of_destination {d : Document} {reference : String} {uri : Uri} (hd : d.Readable)
    (h : d.destination reference = .ok (.elsewhere uri)) : uri.Readable := by
  unfold Document.destination at h
  cases hparse : UriReference.parse reference with
  | error e => simp [hparse, Except.mapError, bind, Except.bind] at h
  | ok parsed =>
    have hparsed := (UriReference.parse_eq_ok hparse).2
    simp only [hparse, Except.mapError, bind, Except.bind] at h
    cases hu : d.uri? with
    | some base =>
      simp only [hu] at h
      cases hresolve : base.resolve parsed with
      | error e => simp [hresolve] at h
      | ok u =>
        simp only [hresolve, pure, Except.pure, Except.ok.injEq, destinationOfUri] at h
        split at h
        · cases h
        · cases h
          exact (hd base hu).resolve hparsed hresolve
    | none =>
      simp only [hu] at h
      split at h
      · cases h
      · split at h
        · cases hread : Uri.parse reference with
          | error e => simp [hread] at h
          | ok u =>
            simp only [hread, pure, Except.pure, Except.ok.injEq, Destination.elsewhere.injEq] at h
            subst h
            exact Uri.readable_of_parse hread
        · cases h

namespace Resolver

open Loading

variable {r : Resolver} {s s' : Store} {e : Event} {es : List Event} {context : Document}

section

variable {P : Document → Prop} (hretrieved : ∀ {text uri}, Uri.parse text = .ok uri → ∀ root, P (.retrieved uri root))

include hretrieved

/-- The loader gives retrieved documents, and no others come to hand. -/
theorem Step.forall_has (h : r.Step s e s') (hs : ∀ d, s.cache.Has d → P d) : ∀ d, s'.cache.Has d → P d := by
  cases h with
  | refused _ _ _ hf =>
    intro d hd
    exact hs d (fetch_cache hf ▸ hd)
  | given _ _ hf =>
    obtain ⟨_, _, _, _, _, _, _, hu, rfl, rfl⟩ := fetch_eq_ok hf
    intro d hd
    rcases Cache.has_of_insertAs hd with rfl | hd
    · exact hretrieved hu _
    · exact hs d hd
  | linked hd =>
    intro d' hd'
    rcases Cache.has_of_insertAs hd' with rfl | hd'
    · exact hs _ ⟨_, hd⟩
    · exact hs d' hd'

theorem Run.forall_has (h : r.Run s es s') (hs : ∀ d, s.cache.Has d → P d) : ∀ d, s'.cache.Has d → P d :=
  h.keeps (P := fun m => ∀ d, m.cache.Has d → P d) hs fun _ hs hstep => hstep.forall_has hretrieved hs

end

theorem Run.readable (h : r.Run s es s') (hs : s.Readable) : s'.Readable :=
  h.forall_has Document.readable_retrieved hs

/-- What loading a document keeps wherever its URI can be read, the resolution of a reference keeps. -/
theorem keeps_resolveTarget {Q : Store → Prop} (hload : ∀ uri, uri.Readable → Keeps Q (r.load uri))
    (hcontext : context.Readable) (reference : String) : Keeps Q (r.resolveTarget reference context) := by
  refine Keeps.adapt (fun s hs => ?_) _
  rw [run_bind, run_except]
  cases hdestination : context.destination reference with
  | error fault => exact hs
  | ok destination =>
    cases destination with
    | here fragment => exact hs
    | elsewhere uri =>
      refine Keeps.bind (Keeps.adapt (hload uri ?_) _) (fun d s hs => hs) s hs
      exact Document.readable_of_destination hcontext hdestination

theorem keeps_chase {Q : Store → Prop} (hload : ∀ uri, uri.Readable → Keeps Q (r.load uri))
    (hread : ∀ s, Q s → s.Readable) (hcontext : context.Readable) (more : Nat) (visited : List Location)
    (reference : String) : Keeps Q (r.chase more visited reference context) := by
  induction more generalizing visited reference context with
  | zero =>
    rw [chase]
    refine (keeps_resolveTarget hload hcontext reference).bind fun t s hs => ?_
    cases t.value.reference? with
    | none => exact hs
    | some next =>
      dsimp only
      split <;> exact hs
  | succ more ih =>
    rw [chase]
    intro s hs
    have hs₁ := keeps_resolveTarget hload hcontext reference s hs
    rw [run_bind]
    split
    · next t s₁ ht =>
      rw [ht] at hs₁
      cases t.value.reference? with
      | none => exact hs₁
      | some next =>
        dsimp only
        split
        · exact hs₁
        · refine ih ?_ _ _ s₁ hs₁
          rcases (resolveTarget_found ht).document with hd | hd
          · exact hd ▸ hcontext
          · exact hread s₁ hs₁ _ hd
    · next hfail =>
      rw [hfail] at hs₁
      exact hs₁

theorem keeps_resolve {Q : Store → Prop} (hload : ∀ uri, uri.Readable → Keeps Q (r.load uri))
    (hread : ∀ s, Q s → s.Readable) (hcontext : context.Readable) (v : Value) : Keeps Q (r.resolve v context) := by
  unfold Resolver.resolve
  cases v.reference? with
  | none => exact .throw _
  | some link => exact keeps_chase hload hread hcontext _ _ _

/-- A run in which the loader is asked for URIs that can be read. -/
def Follows (r : Resolver) (s s' : Store) : Prop :=
  s'.Readable ∧ ∃ es, r.Run s es s' ∧ ∀ e ∈ es, ∀ uri ∈ e.request?, uri.Readable

theorem Follows.refl (hs : s.Readable) : r.Follows s s := ⟨hs, [], .nil, by simp⟩

theorem keeps_follows (r : Resolver) (s : Store) {uri : Uri} (hu : uri.Readable) :
    Keeps (r.Follows s) (r.load uri) := by
  rintro s' ⟨hs', es, hrun, hes⟩
  obtain ⟨es', hrun', hes'⟩ := r.load_runs uri s'
  refine ⟨hrun'.readable hs', _, hrun.append hrun', fun e he u hu' => ?_⟩
  rcases List.mem_append.mp he with he | he
  · exact hes e he u hu'
  · rw [hes' e he u hu']
    exact hu.withoutFragment

end Resolver

end JsonSchema
