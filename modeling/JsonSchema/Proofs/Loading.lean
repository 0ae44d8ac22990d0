import JsonSchema.Proofs.Transform
import JsonSchema.Reference

/-!
Computations that load documents. What such a computation does beyond its answer is to ask the loader and to enter
documents into the cache, and it never replaces an entry. So an answer, once given, is given again by every cache
that has grown since (`Loading.Steady`); and where the answers of the loader do not depend on how often it was
asked, a failure comes again as well (`Loading.Constant`). Both are closed under the ways in which computations are
put together, hence had by the resolution of references as soon as they are had by loading a document
(`Resolver.Closed`).

`Resolver.resolve_found` says what a reference leads to: a place of the document that holds the reference or of one
that is in the cache afterwards, whose value is no reference.
-/

namespace JsonSchema

/-! ### Runs -/

section Runs

variable {ε ε' σ α β : Type}

theorem run_bind (x : ExceptT ε (StateM σ) α) (f : α → ExceptT ε (StateM σ) β) (s : σ) :
    (x >>= f) s = match x s with
      | (.ok a, s') => f a s'
      | (.error e, s') => (.error e, s') := by
  simp only [bind, ExceptT.bind, ExceptT.bindCont, ExceptT.mk, StateT.bind]
  cases h : x s with
  | mk r s' => cases r <;> rfl

theorem run_pure (a : α) (s : σ) : (pure a : ExceptT ε (StateM σ) α) s = (.ok a, s) := rfl

theorem run_get (s : σ) : (get : ExceptT ε (StateM σ) σ) s = (.ok s, s) := rfl

theorem run_modify (f : σ → σ) (s : σ) : (modify f : ExceptT ε (StateM σ) PUnit) s = (.ok ⟨⟩, f s) := rfl

theorem run_adapt (f : ε → ε') (x : ExceptT ε (StateM σ) α) (s : σ) :
    (x.adapt f) s = ((x s).1.mapError f, (x s).2) := rfl

theorem run_except (x : Except ε α) (s : σ) : (liftM x : ExceptT ε (StateM σ) α) s = (x, s) := rfl

theorem run_state (x : StateM σ α) (s : σ) :
    (liftM x : ExceptT ε (StateM σ) α) s = (.ok (x s).1, (x s).2) := rfl

variable {x : ExceptT ε (StateM σ) α} {f : α → ExceptT ε (StateM σ) β} {s s' : σ} {a : α} {b : β} {e : ε}

theorem run_bind_of_ok (h : x s = (.ok a, s')) : (x >>= f) s = f a s' := by rw [run_bind, h]

theorem run_bind_of_error (h : x s = (.error e, s')) : (x >>= f) s = (.error e, s') := by rw [run_bind, h]

/-- A run that answers has run its first part. -/
theorem run_bind_eq_ok (h : (x >>= f) s = (.ok b, s')) : ∃ a s₁, x s = (.ok a, s₁) ∧ f a s₁ = (.ok b, s') := by
  rw [run_bind] at h
  split at h
  · next a s₁ hx => exact ⟨a, s₁, hx, h⟩
  · cases h

/-- A run that fails does so in its first part, or after it. -/
theorem run_bind_eq_error (h : (x >>= f) s = (.error e, s')) :
    x s = (.error e, s') ∨ ∃ a s₁, x s = (.ok a, s₁) ∧ f a s₁ = (.error e, s') := by
  rw [run_bind] at h
  split at h
  · next a s₁ hx => exact .inr ⟨a, s₁, hx, h⟩
  · next e' s₁ hx =>
    cases h
    exact .inl hx

theorem mapError_eq_ok {g : ε → ε'} {r : Except ε α} (h : r.mapError g = .ok a) : r = .ok a := by
  cases r with
  | error e => cases h
  | ok b => simpa [Except.mapError] using h

theorem run_adapt_eq_ok {g : ε → ε'} (h : (x.adapt g) s = (.ok a, s')) : x s = (.ok a, s') := by
  rw [run_adapt] at h
  obtain ⟨ha, rfl⟩ := Prod.mk.inj h
  exact Prod.ext (mapError_eq_ok ha) rfl

theorem mapError_eq_error {g : ε → ε'} {r : Except ε α} {e' : ε'} (h : r.mapError g = .error e') :
    ∃ e, r = .error e ∧ e' = g e := by
  cases r with
  | error e =>
    cases h
    exact ⟨e, rfl, rfl⟩
  | ok a => cases h

theorem run_adapt_eq_error {g : ε → ε'} {e' : ε'} (h : (x.adapt g) s = (.error e', s')) :
    ∃ e, x s = (.error e, s') ∧ e' = g e := by
  rw [run_adapt] at h
  obtain ⟨he, rfl⟩ := Prod.mk.inj h
  obtain ⟨e, hx, rfl⟩ := mapError_eq_error he
  exact ⟨e, Prod.ext hx rfl, rfl⟩

theorem exists_of_isOk {r : Except ε α} (h : r.isOk = true) : ∃ a, r = .ok a := by
  cases r with
  | ok a => exact ⟨a, rfl⟩
  | error e => cases h

theorem run_of_isOk (h : (x s).1.isOk = true) : ∃ a s', x s = (.ok a, s') := by
  obtain ⟨a, ha⟩ := exists_of_isOk h
  exact ⟨a, (x s).2, Prod.ext ha rfl⟩

theorem run_of_not_isOk (h : (x s).1.isOk = false) : ∃ e s', x s = (.error e, s') := by
  cases hx : x s with
  | mk r s' =>
    rw [hx] at h
    cases r with
    | ok a => cases h
    | error e => exact ⟨e, s', rfl⟩

end Runs

/-! ### The cache -/

theorem lookup_cons_eq {κ α : Type} [DecidableEq κ] (key k : κ) (value : α) (l : List (κ × α)) :
    ((key, value) :: l).lookup k = if k = key then some value else l.lookup k := by
  by_cases hk : k = key
  · simp [hk]
  · simp [List.lookup_cons, hk, beq_eq_false_iff_ne.mpr hk]

theorem Members.lookup_insert {α : Type} (key k : String) (value : α) (l : List (String × α)) :
    (Members.insert key value l).lookup k = if k = key then some value else l.lookup k := by
  induction l with
  | nil => exact lookup_cons_eq key k value []
  | cons m l ih =>
    obtain ⟨k', v'⟩ := m
    by_cases hk' : k' = key
    · by_cases hk : k = key <;> simp only [Members.insert, lookup_cons_eq, hk', hk, if_true, if_false]
    · by_cases hk : k = k'
      · simp only [Members.insert, lookup_cons_eq, hk', hk, if_true, if_false]
      · simp only [Members.insert, lookup_cons_eq, hk', hk, if_false, ih]

namespace Cache

variable {c c' c'' : Cache} {uri uri' : Uri} {d : Document}

/-- Every document of a cache is in the other one under the same text. -/
def Grows (c c' : Cache) : Prop :=
  ∀ (key : String) (d : Document), c.entries.lookup key = some d → c'.entries.lookup key = some d

/-- The document is in the cache. -/
def Has (c : Cache) (d : Document) : Prop := ∃ key, c.entries.lookup key = some d

theorem Grows.refl (c : Cache) : c.Grows c := fun _ _ => id

theorem Grows.trans (h : c.Grows c') (h' : c'.Grows c'') : c.Grows c'' := fun key d hd => h' key d (h key d hd)

theorem Grows.has (h : c.Grows c') (hd : c.Has d) : c'.Has d := hd.imp fun key hk => h key d hk

theorem Grows.lookup_eq_none (h : c.Grows c') {key : String} (hnone : c'.entries.lookup key = none) :
    c.entries.lookup key = none := by
  cases hd : c.entries.lookup key with
  | none => rfl
  | some d => cases (h key d hd).symm.trans hnone

theorem Grows.get? (h : c.Grows c') (hd : c.get? uri = some d) : c'.get? uri = some d := h _ d hd

theorem get?_insertAs (c : Cache) (uri uri' : Uri) (d : Document) :
    (c.insertAs uri d).get? uri' = if key uri' = key uri then some d else c.get? uri' :=
  Members.lookup_insert _ _ _ _

theorem grows_insertAs (h : c.get? uri = none) : c.Grows (c.insertAs uri d) := by
  intro key d' hd
  rw [insertAs, Members.lookup_insert, if_neg]
  · exact hd
  · rintro rfl
    exact absurd (h.symm.trans hd) (by simp)

theorem has_of_insertAs {d' : Document} (h : (c.insertAs uri d).Has d') : d' = d ∨ c.Has d' := by
  obtain ⟨key, hk⟩ := h
  rw [insertAs, Members.lookup_insert] at hk
  split at hk
  · exact .inl (Option.some.inj hk).symm
  · exact .inr ⟨key, hk⟩

end Cache

/-! ### Answers that come again -/

namespace Loading

variable {ε ε' α β : Type} {x : Loading ε α} {f : α → Loading ε β}

/-- A computation that only adds to the cache, and gives an answer again when the cache has grown since. -/
structure Steady (x : Loading ε α) : Prop where
  grows : ∀ s : Store, s.cache.Grows (x s).2.cache
  again : ∀ {s s' s'' : Store} {a : α}, x s = (.ok a, s') → s'.cache.Grows s''.cache → x s'' = (.ok a, s'')

/-- A steady computation that also fails again, without another effect, when it has failed. -/
structure Constant (x : Loading ε α) : Prop extends Steady x where
  error_again : ∀ {s s' s'' : Store} {e : ε}, x s = (.error e, s') → s''.cache = s'.cache →
    ∃ s₃, x s'' = (.error e, s₃) ∧ s₃.cache = s'.cache

theorem Steady.grows_of_eq (h : Steady x) {s s' : Store} {r : Except ε α} (hx : x s = (r, s')) :
    s.cache.Grows s'.cache := by
  have := h.grows s
  rwa [hx] at this

theorem Steady.pure (a : α) : Steady (pure a : Loading ε α) := by
  refine ⟨fun s => .refl _, fun h _ => ?_⟩
  cases h
  rfl

theorem Steady.throw (e : ε) : Steady (throw e : Loading ε α) := by
  refine ⟨fun s => .refl _, fun h _ => ?_⟩
  cases h

theorem Steady.bind (hx : Steady x) (hf : ∀ a, Steady (f a)) : Steady (x >>= f) := by
  constructor
  · intro s
    rw [run_bind]
    split
    · next a s' h => exact (hx.grows_of_eq h).trans ((hf a).grows s')
    · next e s' h => exact hx.grows_of_eq h
  · intro s s' s'' b h hg
    obtain ⟨a, s₁, ha, hb⟩ := run_bind_eq_ok h
    rw [run_bind_of_ok (hx.again ha (((hf a).grows_of_eq hb).trans hg))]
    exact (hf a).again hb hg

theorem Steady.adapt (hx : Steady x) (g : ε → ε') : Steady (x.adapt g) := by
  refine ⟨hx.grows, fun {s s' s'' a} h hg => ?_⟩
  rw [run_adapt] at h ⊢
  cases hr : x s with
  | mk r s₁ =>
    rw [hr] at h
    cases r with
    | error e => cases h
    | ok b =>
      cases h
      rw [hx.again hr hg]
      rfl

theorem Constant.pure (a : α) : Constant (pure a : Loading ε α) := ⟨.pure a, fun h _ => by cases h⟩

theorem Constant.throw (e : ε) : Constant (throw e : Loading ε α) := by
  refine ⟨.throw e, fun {s s' s''} _ h hc => ?_⟩
  cases h
  exact ⟨s'', rfl, hc⟩

theorem Constant.bind (hx : Constant x) (hf : ∀ a, Constant (f a)) : Constant (x >>= f) := by
  refine ⟨hx.toSteady.bind fun a => (hf a).toSteady, fun {s s' s'' e} h hc => ?_⟩
  rcases run_bind_eq_error h with he | ⟨a, s₁, ha, hb⟩
  · obtain ⟨s₃, h₃, hc₃⟩ := hx.error_again he hc
    exact ⟨s₃, run_bind_of_error h₃, hc₃⟩
  · -- what follows `x` has only added to the cache, so `x` answers as before
    have hg : s₁.cache.Grows s''.cache := hc ▸ (hf a).toSteady.grows_of_eq hb
    rw [run_bind_of_ok (hx.again ha hg)]
    exact (hf a).error_again hb hc

theorem Constant.adapt (hx : Constant x) (g : ε → ε') : Constant (x.adapt g) := by
  refine ⟨hx.toSteady.adapt g, fun {s s' s'' e} h hc => ?_⟩
  rw [run_adapt] at h
  cases hr : x s with
  | mk r s₁ =>
    rw [hr] at h
    cases r with
    | ok b => cases h
    | error e' =>
      cases h
      obtain ⟨s₃, h₃, hc₃⟩ := hx.error_again hr hc
      exact ⟨s₃, by rw [run_adapt, h₃]; rfl, hc₃⟩

/-- A property of stores that a computation keeps. -/
def Keeps (P : Store → Prop) (x : Loading ε α) : Prop := ∀ s, P s → P (x s).2

variable {P : Store → Prop}

theorem Keeps.pure (a : α) : Keeps P (pure a : Loading ε α) := fun _ hs => hs

theorem Keeps.throw (e : ε) : Keeps P (throw e : Loading ε α) := fun _ hs => hs

theorem Keeps.bind (hx : Keeps P x) (hf : ∀ a, Keeps P (f a)) : Keeps P (x >>= f) := by
  intro s hs
  have h := hx s hs
  rw [run_bind]
  split
  · next a s' hr =>
    rw [hr] at h
    exact hf a s' h
  · next e s' hr =>
    rw [hr] at h
    exact h

theorem Keeps.adapt (hx : Keeps P x) (g : ε → ε') : Keeps P (x.adapt g) := hx

/-- A property of stores that a computation keeps when it answers. -/
def KeepsAnswering (P : Store → Prop) (x : Loading ε α) : Prop := ∀ {s s' a}, P s → x s = (.ok a, s') → P s'

theorem KeepsAnswering.pure (a : α) : KeepsAnswering P (pure a : Loading ε α) := fun hs hrun => by
  cases hrun
  exact hs

theorem KeepsAnswering.throw (e : ε) : KeepsAnswering P (throw e : Loading ε α) := fun _ hrun => by cases hrun

theorem KeepsAnswering.bind (hx : KeepsAnswering P x) (hf : ∀ a, KeepsAnswering P (f a)) :
    KeepsAnswering P (x >>= f) := fun hs hrun =>
  have ⟨a, _, ha, hb⟩ := run_bind_eq_ok hrun
  hf a (hx hs ha) hb

theorem KeepsAnswering.adapt (hx : KeepsAnswering P x) (g : ε → ε') : KeepsAnswering P (x.adapt g) := fun hs hrun =>
  hx hs (run_adapt_eq_ok hrun)

end Loading

/-! ### Loading a document -/

/-- The answers of the loader do not depend on how often it was asked before. -/
def Loader.IsFunction (loader : Loader) : Prop := ∀ uri earlier, loader.answer uri earlier = loader.answer uri 0

theorem newTag_run (s : Store) : Store.newTag s = (s.nextTag, { s with nextTag := s.nextTag + 1 }) := rfl

/-- A request of a document as a run. -/
theorem fetch_run (loader : Loader) (uri : Uri) (s : Store) :
    Loader.fetch (some loader) uri s =
      match loader.answer uri.toText (s.requests.count uri.toText) with
      | .error message => (.error (.refused message), { s with requests := s.requests ++ [uri.toText] })
      | .ok remote =>
        (match Value.transform s.nextTag remote.heap remote.root with
          | .error kind => .error (.unsupported kind)
          | .ok root =>
            match Uri.parse remote.finalUri with
            | .error e => .error (.finalUri e)
            | .ok finalUri => .ok (.retrieved finalUri root),
        { s with requests := s.requests ++ [uri.toText], nextTag := s.nextTag + 1 }) := by
  simp only [Loader.fetch, Loader.request, run_bind, run_get, run_modify]
  cases loader.answer uri.toText (s.requests.count uri.toText) with
  | error message => rfl
  | ok remote =>
    simp only [run_pure, run_state, newTag_run]
    cases Value.transform s.nextTag remote.heap remote.root with
    | error kind => rfl
    | ok root => cases Uri.parse remote.finalUri <;> rfl

theorem fetch_cache {loader? : Option Loader} {uri : Uri} {s s' : Store} {result : Except LoadFault Document}
    (h : Loader.fetch loader? uri s = (result, s')) : s'.cache = s.cache := by
  cases loader? with
  | none =>
    cases h
    rfl
  | some loader =>
    rw [fetch_run] at h
    split at h <;> · cases h; rfl

theorem fetch_nextTag {loader? : Option Loader} {uri : Uri} {s s' : Store} {result : Except LoadFault Document}
    (h : Loader.fetch loader? uri s = (result, s')) : s.nextTag ≤ s'.nextTag := by
  cases loader? with
  | none =>
    cases h
    exact Nat.le_refl _
  | some loader =>
    rw [fetch_run] at h
    split at h <;> · cases h; simp

/-- What a loaded document is. -/
theorem fetch_eq_ok {loader? : Option Loader} {uri : Uri} {s s' : Store} {d : Document}
    (h : Loader.fetch loader? uri s = (.ok d, s')) : ∃ loader remote root finalUri, loader? = some loader ∧
      loader.answer uri.toText (s.requests.count uri.toText) = .ok remote ∧
      Value.transform s.nextTag remote.heap remote.root = .ok root ∧ Uri.parse remote.finalUri = .ok finalUri ∧
      d = .retrieved finalUri root ∧ s' = ⟨s.cache, s.requests ++ [uri.toText], s.nextTag + 1⟩ := by
  cases loader? with
  | none => cases h
  | some loader =>
    rw [fetch_run] at h
    split at h
    · cases h
    · next remote ha =>
      obtain ⟨hr, rfl⟩ := Prod.mk.inj h
      split at hr
      · cases hr
      · next root ht =>
        split at hr
        · cases hr
        · next finalUri hu =>
          cases hr
          exact ⟨loader, remote, root, finalUri, rfl, ha, ht, hu, rfl, rfl⟩

/-- A request that fails does so at any time, if the loader is a function. -/
theorem fetch_eq_error {loader? : Option Loader} (hl : ∀ loader ∈ loader?, loader.IsFunction) {uri : Uri}
    {s s' : Store} {e : LoadFault} (h : Loader.fetch loader? uri s = (.error e, s')) (s'' : Store) :
    (Loader.fetch loader? uri s'').1 = .error e := by
  cases loader? with
  | none =>
    cases h
    rfl
  | some loader =>
    have hfun := hl loader rfl uri.toText
    rw [fetch_run, hfun] at h ⊢
    cases ha : loader.answer uri.toText 0 with
    | error message =>
      simp only [ha] at h ⊢
      cases h
      rfl
    | ok remote =>
      simp only [ha] at h ⊢
      obtain ⟨hr, -⟩ := Prod.mk.inj h
      rw [transform_tag s.nextTag s''.nextTag]
      cases ht : Value.transform s.nextTag remote.heap remote.root with
      | error kind =>
        rw [ht] at hr
        exact hr
      | ok root =>
        cases hu : Uri.parse remote.finalUri with
        | error e' =>
          simp only [ht, hu] at hr
          exact hr
        | ok finalUri =>
          simp only [ht, hu] at hr
          cases hr

/-- The store after the answer for a URI: a document with another URI is there under that one too. -/
def Store.settle (uri : Uri) (d : Document) (s : Store) : Store :=
  match d.uri? with
  | none => s
  | some finalUri =>
    if !d.isAt uri && (s.cache.get? finalUri).isNone then { s with cache := s.cache.insertAs finalUri d } else s

theorem Store.grows_settle (uri : Uri) (d : Document) (s : Store) : s.cache.Grows (s.settle uri d).cache := by
  unfold Store.settle
  split
  · exact .refl _
  · split
    · next finalUri _ hs =>
      simp only [Bool.and_eq_true, Option.isNone_iff_eq_none] at hs
      exact Cache.grows_insertAs hs.2
    · exact .refl _

/-- Once a document is there under its own URI, nothing changes any more. -/
theorem Store.settle_of_grows {uri : Uri} {d : Document} {s s' : Store}
    (h : (s.settle uri d).cache.Grows s'.cache) : s'.settle uri d = s' := by
  cases hu : d.uri? with
  | none => simp only [Store.settle, hu]
  | some finalUri =>
    by_cases hat : d.isAt uri = true
    · simp [Store.settle, hu, hat]
    · have hthere : ∃ d', (s.settle uri d).cache.get? finalUri = some d' := by
        cases hg : s.cache.get? finalUri with
        | none => exact ⟨d, by simp [Store.settle, hu, hat, hg, Cache.get?_insertAs]⟩
        | some d' => exact ⟨d', by simp [Store.settle, hu, hg]⟩
      obtain ⟨d', hd'⟩ := hthere
      simp [Store.settle, hu, h.get? hd']

/-- The document of a URI, from the cache or loaded, as a run. -/
theorem Store.getOrLoad_run {ε : Type} (uri : Uri) (load : Uri → Loading ε Document) (s : Store) :
    Store.getOrLoad uri load s =
      match s.cache.get? uri with
      | some d => (.ok d, s)
      | none =>
        match load uri.withoutFragment s with
        | (.error e, s') => (.error e, s')
        | (.ok d, s') => (.ok d, { s' with cache := s'.cache.insertAs uri d }) := by
  simp only [getOrLoad, run_bind, run_get]
  cases s.cache.get? uri with
  | some d => rfl
  | none =>
    simp only [run_bind]
    cases load uri.withoutFragment s with
    | mk result s' => cases result <;> rfl

namespace Resolver

open Loading

variable {r : Resolver} {uri : Uri} {s s' s'' : Store} {d context : Document}

/-- The loading of a document as a run. -/
theorem load_run (r : Resolver) (uri : Uri) (s : Store) :
    r.load uri s =
      match s.cache.get? uri with
      | some d => (.ok d, s.settle uri d)
      | none =>
        match Loader.fetch r.loader? uri.withoutFragment s with
        | (.error e, s') => (.error e, s')
        | (.ok d, s') => (.ok d, { s' with cache := s'.cache.insertAs uri d }.settle uri d) := by
  have hsettle : ∀ (d : Document) (s : Store),
      (match d.uri? with
        | none => return d
        | some finalUri => do
          if !d.isAt uri && ((← get).cache.get? finalUri).isNone then Store.insert d
          return d : Loading LoadFault Document) s = (.ok d, s.settle uri d) := by
    intro d s
    cases hu : d.uri? with
    | none => simp only [Store.settle, hu]; rfl
    | some finalUri =>
      simp only [Store.settle, hu, run_bind, run_get]
      split
      · simp only [Store.insert, Cache.insert, hu]
        rfl
      · rfl
  unfold load
  rw [run_bind, Store.getOrLoad_run]
  cases s.cache.get? uri with
  | some d => exact hsettle d s
  | none =>
    dsimp only
    cases Loader.fetch r.loader? uri.withoutFragment s with
    | mk result s' =>
      cases result with
      | error e => rfl
      | ok d => exact hsettle d _

theorem load_get? (h : r.load uri s = (.ok d, s')) : s'.cache.get? uri = some d := by
  rw [load_run] at h
  split at h
  · next d' hd =>
    cases h
    exact (Store.grows_settle uri d s).get? hd
  · split at h
    · cases h
    · next d' s₁ _ =>
      cases h
      refine (Store.grows_settle uri d _).get? ?_
      rw [Cache.get?_insertAs, if_pos rfl]

theorem load_grows (r : Resolver) (uri : Uri) (s : Store) : s.cache.Grows (r.load uri s).2.cache := by
  rw [load_run]
  split
  · exact Store.grows_settle _ _ _
  · next hnone =>
    split
    · next e s₁ hf =>
      rw [fetch_cache hf]
      exact .refl _
    · next d s₁ hf =>
      refine .trans ?_ (Store.grows_settle uri d _)
      rw [← fetch_cache hf] at hnone ⊢
      exact Cache.grows_insertAs hnone

/-- A document that was loaded is there ever after. -/
theorem steady_load (r : Resolver) (uri : Uri) : Steady (r.load uri) := by
  refine ⟨r.load_grows uri, fun {s s' s'' d} h hg => ?_⟩
  have hget := hg.get? (load_get? h)
  simp only [load_run, hget]
  suffices hs : ∃ s₀ : Store, s' = s₀.settle uri d by
    obtain ⟨s₀, rfl⟩ := hs
    rw [Store.settle_of_grows hg]
  rw [load_run] at h
  split at h
  · cases h
    exact ⟨_, rfl⟩
  · split at h
    · cases h
    · cases h
      exact ⟨_, rfl⟩

/-- A document that could not be loaded cannot be loaded later. -/
theorem constant_load (hl : ∀ loader ∈ r.loader?, loader.IsFunction) (uri : Uri) : Constant (r.load uri) := by
  refine ⟨r.steady_load uri, fun {s s' s'' e} h hc => ?_⟩
  rw [load_run] at h
  split at h
  · cases h
  · next hnone =>
    split at h
    · next e' s₁ hf =>
      cases h
      have hs' := fetch_cache hf
      have he := fetch_eq_error hl hf s''
      simp only [load_run, hc, hs', hnone]
      cases hf'' : Loader.fetch r.loader? uri.withoutFragment s'' with
      | mk result s₃ =>
        rw [hf''] at he
        cases he
        have hs'' := fetch_cache hf''
        exact ⟨s₃, rfl, hs''.trans (hc.trans hs')⟩
    · cases h

/-! ### Following references -/

/-- A property of computations that loading a document has and that is kept when computations are put together. -/
structure Closed (r : Resolver) (C : {ε α : Type} → Loading ε α → Prop) : Prop where
  pure : ∀ {ε α : Type} (a : α), C (pure a : Loading ε α)
  throw : ∀ {ε α : Type} (e : ε), C (throw e : Loading ε α)
  bind : ∀ {ε α β : Type} {x : Loading ε α} {f : α → Loading ε β}, C x → (∀ a, C (f a)) → C (x >>= f)
  adapt : ∀ {ε ε' α : Type} {x : Loading ε α} (g : ε → ε'), C x → C (x.adapt g)
  load : ∀ uri, C (r.load uri)

namespace Closed

variable {C : {ε α : Type} → Loading ε α → Prop}

theorem except (h : r.Closed C) {ε α : Type} (x : Except ε α) : C (liftM x : Loading ε α) := by
  cases x with
  | error e => exact h.throw e
  | ok a => exact h.pure a

theorem resolveTarget (h : r.Closed C) (reference : String) (context : Document) :
    C (r.resolveTarget reference context) := by
  refine h.adapt _ (h.bind (h.except _) fun destination => ?_)
  cases destination with
  | here fragment => exact h.except _
  | elsewhere uri => exact h.bind (h.adapt _ (h.load uri)) fun d => h.except _

theorem chase (h : r.Closed C) (more : Nat) (visited : List Location) (reference : String) (context : Document) :
    C (r.chase more visited reference context) := by
  induction more generalizing visited reference context with
  | zero =>
    rw [Resolver.chase]
    refine h.bind (h.resolveTarget _ _) fun target => ?_
    cases target.value.reference? with
    | none => exact h.pure _
    | some next =>
      dsimp only
      split <;> exact h.throw _
  | succ more ih =>
    rw [Resolver.chase]
    refine h.bind (h.resolveTarget _ _) fun target => ?_
    cases target.value.reference? with
    | none => exact h.pure _
    | some next =>
      dsimp only
      split
      · exact h.throw _
      · exact ih _ _ _

/-- Such a property holds of the resolution of references. -/
theorem resolve (h : r.Closed C) (v : Value) (context : Document) : C (r.resolve v context) := by
  unfold Resolver.resolve
  cases v.reference? with
  | none => exact h.throw _
  | some link => exact h.chase _ _ _ _

end Closed

theorem closed_steady (r : Resolver) : r.Closed Steady :=
  ⟨.pure, .throw, .bind, fun g h => h.adapt g, r.steady_load⟩

theorem closed_constant (hl : ∀ loader ∈ r.loader?, loader.IsFunction) : r.Closed Constant :=
  ⟨.pure, .throw, .bind, fun g h => h.adapt g, constant_load hl⟩

theorem closed_keeps {P : Store → Prop} (h : ∀ uri, Keeps P (r.load uri)) : r.Closed (Keeps P) :=
  ⟨.pure, .throw, .bind, fun g h => h.adapt g, h⟩

theorem closed_answering {P : Store → Prop} (h : ∀ uri, KeepsAnswering P (r.load uri)) : r.Closed (KeepsAnswering P) :=
  ⟨.pure, .throw, .bind, fun g h => h.adapt g, h⟩

end Resolver

/-- A place of the document that holds a reference, or of one that is in the cache. -/
structure Target.Found (t : Target) (context : Document) (c : Cache) : Prop where
  document : t.document = context ∨ c.Has t.document
  value : t.pointer.resolve t.document.root = .ok t.value

theorem Document.target_found {d : Document} {fragment : String} {t : Target} (h : d.target fragment = .ok t) :
    t.document = d ∧ t.pointer.resolve t.document.root = .ok t.value := by
  unfold Document.target at h
  cases hp : Pointer.ofFragment fragment with
  | error e => simp [hp, bind, Except.bind] at h
  | ok p =>
    simp only [hp, bind, Except.bind] at h
    cases hv : p.resolve d.root with
    | error e => simp [hv] at h
    | ok v =>
      simp only [hv, pure, Except.pure, Except.ok.injEq] at h
      subst h
      exact ⟨rfl, hv⟩

namespace Resolver

open Loading

variable {r : Resolver} {s s' : Store} {t : Target}

theorem resolveTarget_found {reference : String} {context : Document}
    (h : r.resolveTarget reference context s = (.ok t, s')) : t.Found context s'.cache := by
  obtain ⟨destination, s₁, -, h⟩ := run_bind_eq_ok (run_adapt_eq_ok h)
  cases destination with
  | here fragment =>
    obtain ⟨hd, hv⟩ := Document.target_found (mapError_eq_ok (Prod.mk.inj h).1)
    exact ⟨.inl hd, hv⟩
  | elsewhere uri =>
    obtain ⟨d, s₂, hload, h⟩ := run_bind_eq_ok h
    obtain ⟨ht, rfl⟩ := Prod.mk.inj h
    obtain ⟨hd, hv⟩ := Document.target_found (mapError_eq_ok ht)
    exact ⟨.inr ⟨_, hd ▸ load_get? (run_adapt_eq_ok hload)⟩, hv⟩

theorem chase_found {more : Nat} {visited : List Location} {reference : String} {context : Document}
    (h : r.chase more visited reference context s = (.ok t, s')) :
    t.Found context s'.cache ∧ t.value.reference? = none := by
  induction more generalizing visited reference context s with
  | zero =>
    rw [chase] at h
    obtain ⟨target, s₁, htarget, h⟩ := run_bind_eq_ok h
    cases hr : target.value.reference? with
    | none =>
      simp only [hr] at h
      cases h
      exact ⟨resolveTarget_found htarget, hr⟩
    | some next =>
      simp only [hr] at h
      split at h <;> cases h
  | succ more ih =>
    rw [chase] at h
    obtain ⟨target, s₁, htarget, h⟩ := run_bind_eq_ok h
    cases hr : target.value.reference? with
    | none =>
      simp only [hr] at h
      cases h
      exact ⟨resolveTarget_found htarget, hr⟩
    | some next =>
      simp only [hr] at h
      split at h
      · cases h
      · obtain ⟨hfound, hlast⟩ := ih h
        have htarget := resolveTarget_found htarget
        refine ⟨⟨?_, hfound.value⟩, hlast⟩
        -- the next reference is in the document of this target, which is still there at the end
        rcases hfound.document with hd | hd
        · rw [hd]
          exact htarget.document.imp_right ((r.closed_steady.chase _ _ _ _).grows_of_eq h).has
        · exact .inr hd

/-- **What a reference leads to is a place of the document that holds it or of one in the cache, and no
reference.** -/
theorem resolve_found {v : Value} {context : Document} (h : r.resolve v context s = (.ok t, s')) :
    t.Found context s'.cache ∧ t.value.reference? = none := by
  unfold resolve at h
  cases hv : v.reference? with
  | none =>
    simp only [hv] at h
    cases h
  | some link =>
    simp only [hv] at h
    exact chase_found h

end Resolver

/-! ### Where references lead -/

/-- A relation between a reference, the document that holds it, and the place it leads to. -/
abbrev Leads := Value → Document → Target → Prop

namespace Resolver

/-- Where a reference leads. -/
def Leads (r : Resolver) (s : Store) : JsonSchema.Leads := fun v d t => (r.resolve v d s).1 = .ok t

/-- Where a reference leads without a new document. -/
def Settled (r : Resolver) (s : Store) : JsonSchema.Leads := fun v d t => r.resolve v d s = (.ok t, s)

variable {r : Resolver} {s s' : Store} {v : Value} {d : Document} {t : Target}

theorem Settled.mono (h : r.Settled s v d t) (hg : s.cache.Grows s'.cache) : r.Settled s' v d t :=
  (r.closed_steady.resolve v d).again h hg

theorem Settled.unique {t' : Target} (h : r.Settled s v d t) (h' : r.Settled s v d t') : t = t' :=
  Except.ok.inj (Prod.mk.inj (h.symm.trans h')).1

theorem Leads.unique {t' : Target} (h : r.Leads s v d t) (h' : r.Leads s v d t') : t = t' :=
  Except.ok.inj (h.symm.trans h')

theorem Settled.leads (h : r.Settled s v d t) (hc : s'.cache = s.cache) : r.Leads s' v d t := by
  rw [Leads, h.mono (hc ▸ .refl _)]

end Resolver

end JsonSchema
