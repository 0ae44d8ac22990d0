import JsonSchema.Proofs.Dereference
import JsonSchema.Proofs.Dereference.Followed
import JsonSchema.Proofs.Fragments

/-!
References back to the document that is dereferenced. Whether a URI means that document is decided where the reference
stands: the document itself answers for its URI, whatever is in the cache (`Resolver.Returning.within`). In any other
document the URI leads to what is under it in the cache. That is the document again if it was entered there beforehand
(`Returning.registered`), and otherwise never (`Returning.foreign`), because dereferencing does not enter it; so the
loader is asked for it, and its data comes a second time.

The main theorem (`dereference_returning`) adds what this means for the new value: where a reference stood there is a
node that the data of the document has too, exactly if the last of the references behind it led into the document.
-/

namespace JsonSchema

/-! ### Where references back lead -/

namespace Document

variable {d : Document} {link fragment : String} {u uri : Uri}

/-- In the document, the reference designates the place with the fragment in the document of the URI. -/
def Designates (d : Document) (link : String) (u : Uri) (fragment : String) : Prop :=
  ∃ uri, d.destination link = .ok (d.destinationOfUri uri) ∧ Cache.key uri = Cache.key u ∧
    uri.fragmentText.getD "" = fragment

theorem isAt_congr (h : Cache.key uri = Cache.key u) : d.isAt uri = d.isAt u := by
  change (d.uriText? == some (Cache.key uri)) = (d.uriText? == some (Cache.key u))
  rw [h]

/-- A reference never leads elsewhere to the URI of the document that holds it. -/
theorem isAt_of_destination (h : d.destination link = .ok (.elsewhere uri)) : d.isAt uri = false := by
  unfold destination at h
  cases hparse : UriReference.parse link with
  | error e => simp [hparse, Except.mapError, bind, Except.bind] at h
  | ok parsed =>
    simp only [hparse, Except.mapError, bind, Except.bind] at h
    cases hu : d.uri? with
    | none => simp [isAt, uriText?, hu]
    | some base =>
      simp only [hu] at h
      cases hresolve : base.resolve parsed with
      | error e => simp [hresolve] at h
      | ok u =>
        simp only [hresolve, pure, Except.pure, Except.ok.injEq, destinationOfUri] at h
        split at h
        · cases h
        · next hat =>
          cases h
          simpa using hat

theorem Designates.here (h : d.Designates link u fragment) (hat : d.isAt u = true) :
    d.destination link = .ok (.here fragment) := by
  obtain ⟨uri, hd, hkey, rfl⟩ := h
  rw [hd, destinationOfUri, isAt_congr hkey, if_pos hat]

theorem Designates.elsewhere (h : d.Designates link u fragment) (hat : d.isAt u = false) :
    ∃ uri, d.destination link = .ok (.elsewhere uri) ∧ Cache.key uri = Cache.key u ∧
      uri.fragmentText.getD "" = fragment := by
  obtain ⟨uri, hd, hkey, hfragment⟩ := h
  refine ⟨uri, ?_, hkey, hfragment⟩
  rw [hd, destinationOfUri, isAt_congr hkey, hat, if_neg Bool.false_ne_true]

theorem Leaves.designates (h : d.Leaves link (Cache.key u)) :
    d.isAt u = false ∧ ∃ fragment, d.Designates link u fragment := by
  obtain ⟨uri, hd, hkey⟩ := h
  have hat := isAt_of_destination hd
  refine ⟨isAt_congr hkey ▸ hat, _, uri, ?_, hkey, rfl⟩
  rw [hd, destinationOfUri, hat, if_neg Bool.false_ne_true]

end Document

namespace Resolver

open Loading

variable {r : Resolver} {s m m' : Store} {document d b : Document} {t : Target} {link fragment : String} {u uri : Uri}

theorem resolveTarget_of_elsewhere (h : d.destination link = .ok (.elsewhere uri))
    (hload : r.load uri m = (.ok b, m')) : r.resolveTarget link d m =
      ((b.target (uri.fragmentText.getD "")).mapError fun e => ⟨link, d.name, .badPointer e⟩, m') := by
  unfold resolveTarget
  rw [run_adapt, h, run_bind, run_except]
  dsimp only [reach]
  rw [run_bind, run_adapt, hload]
  dsimp only [Except.mapError]
  rw [run_except]
  cases b.target (uri.fragmentText.getD "") <;> rfl

/-- A place elsewhere is in the document that was loaded. -/
theorem load_of_resolveTarget (h : d.destination link = .ok (.elsewhere uri))
    (hrun : r.resolveTarget link d m = (.ok t, m')) :
    m'.cache.get? uri = some t.document ∧ t.document.target (uri.fragmentText.getD "") = .ok t := by
  cases hload : r.load uri m with
  | mk result m₁ =>
    cases result with
    | ok b =>
      obtain ⟨hresult, rfl⟩ := Prod.mk.inj ((resolveTarget_of_elsewhere h hload).symm.trans hrun)
      have htarget := mapError_eq_ok hresult
      obtain ⟨rfl, -⟩ := Document.target_found htarget
      exact ⟨load_get? hload, htarget⟩
    | error fault =>
      unfold resolveTarget at hrun
      rw [run_adapt, h, run_bind, run_except] at hrun
      dsimp only [reach] at hrun
      rw [run_bind, run_adapt, hload] at hrun
      cases hrun

/-- A document that is under its own URI in the cache is found there. -/
theorem load_registered (r : Resolver) (hc : m.cache.get? uri = some d) (hat : d.isAt uri = true) :
    r.load uri m = (.ok d, m) := by
  rw [load_run, hc]
  cases hu : d.uri? <;> simp [Store.settle, hu, hat]

/-- The documents at hand are apart, and the one that is dereferenced is not in the cache. -/
def Apart (document : Document) (m : Store) : Prop := m.Coherent document ∧ ¬m.cache.Has document

/-- What is loaded is new, so it is never the document that is dereferenced. -/
theorem keeps_apart (hl : ∀ loader ∈ r.loader?, loader.WellFormed) (document : Document) (uri : Uri) :
    Keeps (Apart document) (r.load uri) := by
  rintro m ⟨hm, hnot⟩
  refine ⟨keeps_coherent hl document uri m hm, fun hhas => ?_⟩
  rcases r.load_cases uri m with ⟨hcache, -⟩ | ⟨loader, earlier, remote, root, finalUri, -, -, -, ht, hcache, -⟩
  · exact hnot (hcache document hhas)
  · rcases hcache document hhas with rfl | hhas
    · have hlt := hm.tag_lt _ (.inl rfl)
      have htag : root.graph.tag = m.nextTag := (transform_represents ht).1
      exact absurd hlt (Nat.not_lt.mpr (Nat.le_of_eq htag.symm))
    · exact hnot hhas

theorem apart_dereference (hl : ∀ loader ∈ r.loader?, loader.WellFormed) (h : Apart document s) :
    Apart document (r.dereference document s).2 := by
  obtain ⟨m, ⟨hm, hnot⟩, hafter⟩ := keeps_dereference (r := r) (Q := Apart document) (G := fun _ => True)
    (fun v d _ => (closed_keeps (keeps_apart hl document)).resolve v d) (fun _ _ _ _ => trivial) trivial h
  rw [hafter]
  exact ⟨hm.mono (fun _ => id) (Nat.le_succ _), hnot⟩

/-- What becomes of references to places of the URI of a document when the document is dereferenced. -/
structure Returning (r : Resolver) (document : Document) (u : Uri) (s after : Store) : Prop where
  /-- A document with the URI answers them itself, whatever is at hand. -/
  within : ∀ {m d link fragment}, d.Designates link u fragment → d.isAt u = true →
    r.resolveTarget link d m = ((d.target fragment).mapError fun e => ⟨link, d.name, .badPointer e⟩, m)
  /-- In another document they lead into the one that is dereferenced, if that was entered under the URI. -/
  registered : s.cache.get? u = some document → ∀ {m d link fragment}, s.cache.Grows m.cache →
    d.Designates link u fragment → d.isAt u = false →
    r.resolveTarget link d m = ((document.target fragment).mapError fun e => ⟨link, d.name, .badPointer e⟩, m)
  /-- If it was not in the cache they never lead into it, but into what is under the URI by then. -/
  foreign : ¬s.cache.Has document → ∀ {m d link fragment t}, d.Designates link u fragment → d.isAt u = false →
    r.resolveTarget link d after = (.ok t, m) →
    m.cache.get? u = some t.document ∧ t.document.target fragment = .ok t ∧ t.document ≠ document
  /-- The loader is asked for the URI only because of such a reference in another document, and what is under the URI
  was there before, or came so, or came under another URI and has this one as its own. -/
  asked : ∃ asked, after.requests = s.requests ++ asked ∧
    (u.toText ∈ asked → s.cache.get? u = none ∧
      ∃ link d fragment, r.Followed after document link d ∧ d.Designates link u fragment ∧ d.isAt u = false) ∧
    ∀ d, after.cache.get? u = some d →
      s.cache.get? u = some d ∨ u.toText ∈ asked ∨ d.uri?.map Cache.key = some (Cache.key u)

theorem returning_dereference (hl : ∀ loader ∈ r.loader?, loader.WellFormed) (hs : s.Coherent document)
    (hwhole : document.IsWhole) (hu : document.uri? = some u) :
    r.Returning document u s (r.dereference document s).2 := by
  have hkey : Cache.key u = u.toText := Cache.key_of_whole (hwhole u hu)
  refine ⟨fun hd hat => resolveTarget_of_here r (hd.here hat) _, fun hc {m d link fragment} hg hd hat => ?_,
    fun hnot {m d link fragment t} hd hat hrun => ?_, ?_⟩
  · obtain ⟨uri, helse, hsame, rfl⟩ := hd.elsewhere hat
    have hget : m.cache.get? uri = some document := by
      rw [Cache.get?, hsame]
      exact hg _ _ hc
    have hown : document.isAt uri = true := (Document.isAt_congr hsame).trans (hwhole.isAt hu u.fragment)
    exact resolveTarget_of_elsewhere helse (r.load_registered hget hown)
  · obtain ⟨uri, helse, hsame, rfl⟩ := hd.elsewhere hat
    obtain ⟨hget, htarget⟩ := load_of_resolveTarget helse hrun
    have hapart := (closed_keeps (keeps_apart hl document)).resolveTarget link d _ (apart_dereference hl ⟨hs, hnot⟩)
    rw [hrun] at hapart
    refine ⟨?_, htarget, fun heq => hapart.2 ⟨_, heq ▸ hget⟩⟩
    rw [Cache.get?, ← hsame]
    exact hget
  · obtain ⟨asked, hasked, hkeys, hentries⟩ := requests_dereference hl hs.wellFormed
    rw [← hkey]
    refine ⟨asked, hasked, fun hmem => ?_, fun d => hentries⟩
    obtain ⟨hnone, link, d, hd, hleaves⟩ := hkeys _ hmem
    obtain ⟨hat, fragment, hdesignates⟩ := hleaves.designates
    exact ⟨hnone, link, d, fragment, hd, hdesignates, hat⟩

/-! ### What stands in the place of a reference -/

variable {g : Graph} {f : Nat × Nat → Nat} {v : Value} {id : Nat}

/-- A reference and what it leads to have the same image. -/
theorem image_iff_of_leads (hr : v.kind = .reference) (ht : r.Leads s v d t) (hrt : t.value.kind ≠ .reference) :
    r.Image s g f v d id ↔ r.Image s g f t.value t.document id := by
  refine ⟨fun ⟨final, hf, himage⟩ => ⟨final, ?_, himage⟩, fun ⟨final, hf, himage⟩ => ⟨final, ?_, himage⟩⟩
  · rw [Final, if_pos hr] at hf
    obtain ⟨t', ht', rfl⟩ := hf
    rw [ht'.unique ht, Final, if_neg hrt]
  · rw [Final, if_neg hrt] at hf
    rw [Final, if_pos hr]
    exact ⟨t, ht, hf⟩

end Resolver

open Resolver in
/-- **References back to the document that is dereferenced.** They lead where `Resolver.Returning` says. If there is a
new value, every reference that is followed leads to a place, and where a reference stood that is met, there is the
image of the place to which the last reference behind it leads. An array or object there is one that the data of the
document has too, exactly if that place is in the document. -/
theorem dereference_returning {r : Resolver} {document : Document} {u : Uri} {s after : Store}
    {result : Except ReferenceError Value} (hl : ∀ loader ∈ r.loader?, loader.WellFormed) (hs : s.Coherent document)
    (hwhole : document.IsWhole) (hu : document.uri? = some u) (hrun : r.dereference document s = (result, after)) :
    r.Returning document u s after ∧ ∀ w, result = .ok w →
      (∀ link d, r.Followed after document link d → ∃ t, r.resolveTarget link d after = (.ok t, after)) ∧
      ∃ f, r.Dereferenced document after w f ∧ ∀ v d link, Met (r.Leads after) document v d →
        v.reference? = some link → ∃ last e t, r.Chain after link d last e ∧
          r.resolveTarget last e after = (.ok t, after) ∧
          (∀ id, r.Image after w.graph f v d id ↔ r.Image after w.graph f t.value t.document id) ∧
          (t.value.isPlain = true → ((∃ a, Met (r.Leads after) document a document ∧ a.isPlain = true ∧
            f a.identity = f t.value.identity) ↔ t.document = document)) := by
  have hreturning := returning_dereference hl hs hwhole hu
  rw [hrun] at hreturning
  refine ⟨hreturning, ?_⟩
  rintro w rfl
  obtain ⟨x, root, place, h, hnil, hroot, hafter, hrep⟩ := Dereferencing.finished hl hs hrun
  have hleads : ∀ {v d}, Met (r.Settled after) document v d → Met (r.Leads after) document v d := fun hm =>
    hm.mono fun _ _ _ _ ht => ht.leads rfl
  have hkind : ∀ {v : Value} {link}, v.reference? = some link → v.kind = .reference := fun {v link} hlink => by
    by_contra hr
    cases (Value.reference?_eq_none hr).symm.trans hlink
  have hcopy := h.dereferenced hnil hroot hafter hrep
  refine ⟨fun link' d' ⟨v, d, link, hm, hlink, hchain⟩ => ?_, _, hcopy, fun v d link hm hlink => ?_⟩
  · obtain ⟨t, ht, -⟩ := h.exists_settled hnil hroot hafter (hleads hm) (hkind hlink)
    obtain ⟨last, e, hfull, hlast⟩ := ht.exists_last hlink
    exact hfull.settled hlast (resolve_found ht).2 hchain
  · have hr := hkind hlink
    obtain ⟨t, ht, hrt⟩ := h.exists_settled hnil hroot hafter hm hr
    obtain ⟨last, e, hchain, hlast⟩ := ht.exists_last hlink
    have hmt : Met (r.Leads after) document t.value t.document := .target hm hr (ht.leads rfl)
    refine ⟨last, e, t, hchain, hlast, fun id => image_iff_of_leads hr (ht.leads rfl) hrt, fun hp => ?_⟩
    refine ⟨fun ⟨a, ha, hpa, heq⟩ => ?_, fun heq => ⟨t.value, heq ▸ hmt, hp, rfl⟩⟩
    -- the correspondence is one-to-one, so the two are the same value of the same document
    have hid : a.identity = t.value.identity :=
      hcopy.bijective.injOn ⟨a, document, ha, hpa, rfl⟩ ⟨t.value, t.document, hmt, hp, rfl⟩ heq
    exact (eq_of_met h.coherent (h.covers hnil hroot hafter ha).1 (h.covers hnil hroot hafter hmt).1 hid).2.symm

/-- The URI of a document to which another one refers. -/
def homeUri : Uri := ⟨"http".toList, some "a".toList, [], none, none⟩

/-- The document refers to another one. -/
def homeDocument : Document := .retrieved homeUri ⟨⟨0, #[.object [("b", 1), ("x", 3)], .reference [("$ref", 2)],
  .string "http://b", .array []]⟩, 0⟩

/-- The other document refers back. The loader also has the first one. -/
def homeLoader : Loader := .ofSources
  [⟨"http://b", [], .ok ⟨⟨#[.object [("back", .cell 1)], .object [("$ref", .string "http://a#/x")]]⟩, .cell 0,
    "http://b"⟩⟩,
   ⟨"http://a", [], .ok ⟨⟨#[.object [("b", .cell 1), ("x", .cell 2)], .object [("$ref", .string "http://b")],
    .array []]⟩, .cell 0, "http://a"⟩⟩]

/-- References are followed with the loader. -/
def homeResolver : Resolver := ⟨some homeLoader, .standard⟩

theorem coherent_homeDocument : (Store.start 1).Coherent homeDocument := Store.coherent_start (by decide) (by decide)

/-- The reference back is followed in the other document, and leads to a document of the loader. -/
theorem dereference_returning_homeDocument :
    (∀ loader ∈ homeResolver.loader?, loader.WellFormed) ∧ (Store.start 1).Coherent homeDocument ∧
    homeDocument.IsWhole ∧ homeDocument.uri? = some homeUri ∧ ¬(Store.start 1).cache.Has homeDocument ∧
    ∃ w after link d fragment t, homeResolver.dereference homeDocument (.start 1) = (.ok w, after) ∧
      homeResolver.Followed after homeDocument link d ∧ d.Designates link homeUri fragment ∧
      homeResolver.resolveTarget link d after = (.ok t, after) ∧ t.document.target fragment = .ok t ∧
      t.document ≠ homeDocument := by
  have hl : ∀ loader ∈ homeResolver.loader?, loader.WellFormed := fun loader hloader => by
    cases hloader
    exact Loader.wellFormed_ofSources (by decide)
  have hwhole : homeDocument.IsWhole := Document.isWhole_retrieved _ _
  have hnot : ¬(Store.start 1).cache.Has homeDocument := fun ⟨key, hkey⟩ => by cases hkey
  refine ⟨hl, coherent_homeDocument, hwhole, rfl, hnot, ?_⟩
  obtain ⟨w, after, hrun⟩ : ∃ w after, homeResolver.dereference homeDocument (.start 1) = (.ok w, after) :=
    run_of_isOk (by decide +kernel)
  have hmem : homeUri.toText ∈ after.requests := by
    have : homeUri.toText ∈ (homeResolver.dereference homeDocument (.start 1)).2.requests := by decide +kernel
    rwa [hrun] at this
  obtain ⟨hreturning, hvalue⟩ := dereference_returning hl coherent_homeDocument hwhole rfl hrun
  obtain ⟨hfollowed, -⟩ := hvalue w rfl
  obtain ⟨asked, hasked, hfor, -⟩ := hreturning.asked
  rw [hasked] at hmem
  obtain ⟨-, link, d, fragment, hd, hdesignates, hat⟩ := hfor hmem
  obtain ⟨t, ht⟩ := hfollowed link d hd
  obtain ⟨-, htarget, hne⟩ := hreturning.foreign hnot hdesignates hat ht
  exact ⟨w, after, link, d, fragment, t, hrun, hd, hdesignates, ht, htarget, hne⟩

/-- So the array comes twice, and the loader is asked for the document that is dereferenced. -/
theorem dereference_homeDocument :
    homeDocument.uri? = some homeUri ∧ (Store.start 1).cache.get? homeUri = none ∧
    ∃ w after x back, homeResolver.dereference homeDocument (.start 1) = (.ok w, after) ∧
      homeUri.toText ∈ after.requests ∧ w.get? "x" = some x ∧
      (w.get? "b").bind (fun b => b.get? "back") = some back ∧ back.identity ≠ x.identity := by
  have hcheck : (match homeResolver.dereference homeDocument (.start 1) with
      | (.ok w, after) => decide (homeUri.toText ∈ after.requests) && (w.get? "x").any fun x =>
        ((w.get? "b").bind fun b => b.get? "back").any fun back => decide (back.identity ≠ x.identity)
      | (.error _, _) => false) = true := by decide +kernel
  refine ⟨rfl, rfl, ?_⟩
  cases hrun : homeResolver.dereference homeDocument (.start 1) with
  | mk result after =>
    rw [hrun] at hcheck
    cases result with
    | error e => cases hcheck
    | ok w =>
      obtain ⟨hmem, hnodes⟩ := Bool.and_eq_true_iff.mp hcheck
      obtain ⟨x, hx, hnodes⟩ := (Option.any_eq_true _ _).mp hnodes
      obtain ⟨back, hback, hne⟩ := (Option.any_eq_true _ _).mp hnodes
      exact ⟨w, after, x, back, rfl, of_decide_eq_true hmem, hx, hback, of_decide_eq_true hne⟩

end JsonSchema
