import JsonSchema.Proofs.Compile.Scoped
import JsonSchema.Proofs.Dereference.Keeping

/-!
Calls that share a resolver and its documents. Each call is a run of events, between which no document is lost
(`Call.run_spec`, `Call.grows`); the document that is compiled is at hand meanwhile. So a document that was given once, or
was there from the beginning, is never asked for, while a refused one leaves nothing and is asked for again
(`Resolver.session_asks_once`).
-/

namespace JsonSchema

/-! ### Calls -/

/-- A call on a resolver. -/
inductive Call where
  | create (limits : Limits) (v : Value) (uri? : Option String)
  | resolveTarget (reference : String) (context : Document)
  | resolve (v : Value) (context : Document)
  | dereference (document : Document)

namespace Call

/-- What a call does to the documents at hand, whether it succeeds or fails. -/
def run (r : Resolver) : Call → Store → Store
  | .create limits v uri?, s => ((⟨r, limits⟩ : Compiler).compileValue v uri? s).2
  | .resolveTarget reference context, s => (r.resolveTarget reference context s).2
  | .resolve v context, s => (r.resolve v context s).2
  | .dereference document, s => (r.dereference document s).2

/-- The document that is at hand under its URI during the call. -/
def document? : Call → Option Document
  | .create _ v uri? => (Document.given v uri?).toOption
  | _ => none

/-- The document in which references are followed. -/
def context? : Call → Option Document
  | .create .. => none
  | .resolveTarget _ context => some context
  | .resolve _ context => some context
  | .dereference document => some document

/-- The documents at hand when the call begins. -/
def enter (call : Call) (s : Store) : Store := call.document?.elim s s.opened

/-- The documents at hand after the call, which began with those of an earlier store. -/
def leave (call : Call) (earlier s : Store) : Store := call.document?.elim s (s.closed · earlier)

/-- The documents that are given to the call have URIs that can be read. -/
def Readable (call : Call) : Prop := ∀ d ∈ call.context?, d.Readable

variable {r : Resolver} {call : Call} {s m : Store} {key : String} {uri : Uri}

theorem document?_create {limits : Limits} {v : Value} {uri? : Option String} {document : Document}
    (h : Document.given v uri? = .ok document) : (create limits v uri?).document? = some document := by
  rw [document?, h]
  rfl

theorem readable_given {v : Value} {uri? : Option String} {document : Document}
    (h : Document.given v uri? = .ok document) : document.Readable := by
  rcases Document.given_cases h with ⟨-, rfl⟩ | ⟨text, uri, -, hp, rfl⟩
  · intro uri huri
    cases huri
  · exact Document.readable_retrieved hp v

theorem readable_opened {document : Document} (hs : s.Readable) (hd : document.Readable) :
    (s.opened document).Readable := by
  intro d h
  unfold Store.opened at h
  split at h
  · rcases Cache.has_of_insertAs h with rfl | h
    · exact hd
    · exact hs d h
  · exact hs d h

/-- Each call is a run of events, between entering the document that is compiled and putting its entry back. -/
theorem run_spec (hs : s.Readable) (hcall : call.Readable) :
    ∃ m, r.Follows (call.enter s) m ∧ (call.run r s).cache = (call.leave s m).cache ∧
      (call.run r s).requests = m.requests := by
  have hresolve : ∀ s₀ v d, d.Readable → Loading.Keeps (r.Follows s₀) (r.resolve v d) := fun s₀ v d hd =>
    Resolver.keeps_resolve (fun uri hu => r.keeps_follows s₀ hu) (fun _ hs => hs.1) hd v
  cases call with
  | create limits v uri? =>
    cases hgiven : Document.given v uri? with
    | error e =>
      have hnone : (create limits v uri?).document? = none := by
        rw [document?, hgiven]
        rfl
      have hrun : run r (create limits v uri?) s = s := by rw [run, Compiler.compileValue_of_not_given _ s hgiven]
      refine ⟨s, ?_, ?_, congrArg Store.requests hrun⟩
      · rw [enter, hnone]
        exact .refl hs
      · rw [leave, hnone, hrun]
        rfl
    | ok document =>
      have hdocument := readable_given hgiven
      obtain ⟨m, hm, hrun⟩ := Compiler.compile_keeps (c := ⟨r, limits⟩) (hresolve (s.opened document))
        (fun _ d hs hd => hs.1 d hd) hdocument (.refl (readable_opened hs hdocument))
      refine ⟨m, ?_, ?_, ?_⟩
      · rw [enter, document?_create hgiven]
        exact hm
      · rw [leave, document?_create hgiven, run, (Compiler.compileValue_eq _ s hgiven).2, hrun]
        rfl
      · rw [run, (Compiler.compileValue_eq _ s hgiven).2, hrun]
        exact m.requests_closed s document
  | resolveTarget reference context =>
    exact ⟨_, Resolver.keeps_resolveTarget (fun uri hu => r.keeps_follows s hu) (hcall context rfl) reference s
      (.refl hs), rfl, rfl⟩
  | resolve v context => exact ⟨_, hresolve s v context (hcall context rfl) s (.refl hs), rfl, rfl⟩
  | dereference document =>
    obtain ⟨s', hs', hrun⟩ := Resolver.keeps_dereference (hresolve s) (fun s d hs hd => hs.1 d hd)
      (hcall document rfl) (.refl hs)
    refine ⟨s', hs', ?_, ?_⟩
    · rw [run, hrun]
      rfl
    · rw [run, hrun]

theorem lookup_enter_eq_none (h : (call.enter s).cache.entries.lookup key = none) :
    s.cache.entries.lookup key = none ∧ ∀ d ∈ call.document?, d.uri?.map Cache.key ≠ some key := by
  unfold enter at h
  cases hd : call.document? with
  | none =>
    rw [hd] at h
    exact ⟨h, fun d hd => by cases hd⟩
  | some document =>
    rw [hd] at h
    have hne : document.uri?.map Cache.key ≠ some key := fun hkey => by
      cases h.symm.trans (Store.lookup_opened hkey)
    refine ⟨(Store.lookup_opened_of_ne hne).symm.trans h, fun d hd => ?_⟩
    cases hd
    exact hne

theorem lookup_leave (h : ∀ d ∈ call.document?, d.uri?.map Cache.key ≠ some key) :
    (call.leave s m).cache.entries.lookup key = m.cache.entries.lookup key := by
  unfold leave
  cases hd : call.document? with
  | none => rfl
  | some document => exact Store.lookup_closed_of_ne (h document hd)

theorem grows_leave (h : (call.enter s).cache.Grows m.cache) : s.cache.Grows (call.leave s m).cache := by
  unfold enter at h
  unfold leave
  cases hd : call.document? with
  | none =>
    rw [hd] at h
    exact h
  | some document =>
    rw [hd] at h
    exact Store.grows_closed h

theorem requests_enter (call : Call) (s : Store) : (call.enter s).requests = s.requests := by
  unfold enter
  cases call.document? with
  | none => rfl
  | some document => exact s.requests_opened document

theorem readable_leave (hs : s.Readable) (hm : m.Readable) : (call.leave s m).Readable := by
  unfold leave
  cases call.document? with
  | none => exact hm
  | some document =>
    rintro d ⟨key, hd⟩
    dsimp only [Option.elim_some] at hd
    by_cases hkey : document.uri?.map Cache.key = some key
    · rw [Store.lookup_closed hkey] at hd
      exact hs d ⟨key, hd⟩
    · rw [Store.lookup_closed_of_ne hkey] at hd
      exact hm d ⟨key, hd⟩

end Call

/-! ### Sequences of calls -/

/-- What a sequence of calls does to the documents at hand. -/
def Resolver.session (r : Resolver) (calls : List Call) (s : Store) : Store := calls.foldl (fun s call => call.run r s) s

/-- What comes of calls: no document is lost, and the loader is asked only for URIs without document. -/
structure Resolver.Continues (r : Resolver) (s s' : Store) : Prop where
  readable : s'.Readable
  grows : s.cache.Grows s'.cache
  requests : ∃ asked, s'.requests = s.requests ++ asked ∧ ∀ key ∈ asked, s.cache.entries.lookup key = none

namespace Resolver

variable {r : Resolver} {s s' s'' : Store} {call : Call} {calls : List Call}

theorem Continues.trans (h : r.Continues s s') (h' : r.Continues s' s'') : r.Continues s s'' := by
  obtain ⟨asked, hasked, hnone⟩ := h.requests
  obtain ⟨asked', hasked', hnone'⟩ := h'.requests
  refine ⟨h'.readable, h.grows.trans h'.grows, asked ++ asked', ?_, fun key hkey => ?_⟩
  · rw [hasked', hasked, List.append_assoc]
  · rcases List.mem_append.mp hkey with hkey | hkey
    · exact hnone key hkey
    · exact h.grows.lookup_eq_none (hnone' key hkey)

theorem continues_run (hs : s.Readable) (hcall : call.Readable) : r.Continues s (call.run r s) := by
  obtain ⟨m, ⟨hm, es, hrun, -⟩, hcache, hrequests⟩ := Call.run_spec (r := r) hs hcall
  have hreadable : (call.run r s).Readable := fun d hd => Call.readable_leave hs hm d (hcache ▸ hd)
  refine ⟨hreadable, hcache ▸ Call.grows_leave hrun.grows,
    (es.filterMap Event.request?).map Uri.toText, ?_, fun key hkey => ?_⟩
  · rw [hrequests, hrun.requests, call.requests_enter s]
  · obtain ⟨uri, huri, rfl⟩ := List.mem_map.mp hkey
    obtain ⟨e, he, hrequest⟩ := List.mem_filterMap.mp huri
    obtain ⟨hwhole, hnone⟩ := hrun.get?_eq_none he hrequest
    rw [← Cache.key_of_whole hwhole]
    exact (Call.lookup_enter_eq_none hnone).1

/-- Calls lose no document and ask only for URIs without one. -/
theorem continues_session (hs : s.Readable) (hcalls : ∀ call ∈ calls, call.Readable) :
    r.Continues s (r.session calls s) := by
  induction calls generalizing s with
  | nil => exact ⟨hs, .refl _, [], by simp [session], by simp⟩
  | cons call calls ih =>
    obtain ⟨hcall, hcalls⟩ := List.forall_mem_cons.mp hcalls
    have hfirst := continues_run (r := r) hs hcall
    exact hfirst.trans (ih hfirst.readable hcalls)

/-! ### Requests -/

/-- What holds of a request among calls that began with `s`, where an event took `m` to `m'` and `final` was left in the
end. It was for a URI without fragment that had no document, neither at that moment nor in the beginning, and that is not
the URI of the document being compiled. If it was refused, no entry was made, and the loader is asked again whenever the
document is wanted; otherwise it is not asked for it again. -/
structure Request (r : Resolver) (s : Store) (call : Call) (m m' final : Store) (e : Event) (uri : Uri) : Prop where
  whole : uri.fragment = none
  parse : Uri.parse uri.toText = .ok uri
  requests : m'.requests = m.requests ++ [uri.toText]
  uncached : m.cache.get? uri = none
  unregistered : s.cache.get? uri = none
  other : ∀ d ∈ call.document?, d.isAt uri = false
  outcome : (∃ d, e = .given uri d ∧ m'.cache.get? uri = some d ∧
      ∀ asked, final.requests = m'.requests ++ asked → uri.toText ∉ asked) ∨
    ∃ fault, e = .refused uri fault ∧ m'.cache = m.cache ∧
      ∀ s', s'.cache.get? uri = none → (r.load uri s').2.requests = s'.requests ++ [uri.toText]

theorem isAt_document? {d : Document} {uri : Uri} (hd : d ∈ call.document?)
    (hne : d.uri?.map Cache.key ≠ some (Cache.key uri)) : d.isAt uri = false := by
  cases call with
  | create limits v uri? =>
    cases hgiven : Document.given v uri? with
    | error e =>
      rw [Call.document?, hgiven] at hd
      cases hd
    | ok document =>
      rw [Call.document?_create hgiven] at hd
      cases hd
      rcases Document.given_cases hgiven with ⟨-, rfl⟩ | ⟨text, u, -, -, rfl⟩
      · rfl
      · exact beq_eq_false_iff_ne.mpr hne
  | _ => cases hd

/-- **Documents are loaded at most once.** However calls of all kinds follow each other, each one is a run of events
between entering the document that is compiled and putting its entry back, in which every request of the loader is for a
URI that can be read, has no fragment and has no document, and what was given once is not asked for again. -/
theorem session_asks_once (r : Resolver) {s : Store} (hs : s.Readable) {earlier later : List Call} {call : Call}
    (hcalls : ∀ c ∈ earlier ++ call :: later, c.Readable) :
    ∃ m es, r.Run (call.enter (r.session earlier s)) es m ∧
      (r.session (earlier ++ [call]) s).cache = (call.leave (r.session earlier s) m).cache ∧
      (r.session (earlier ++ [call]) s).requests = m.requests ∧
      ∀ before e after, es = before ++ e :: after → ∀ uri ∈ e.request?, ∃ m₁ m₂,
        r.Run (call.enter (r.session earlier s)) before m₁ ∧ r.Step m₁ e m₂ ∧ r.Run m₂ after m ∧
        r.Request s call m₁ m₂ (r.session (earlier ++ call :: later) s) e uri := by
  rw [List.forall_mem_append, List.forall_mem_cons] at hcalls
  obtain ⟨hearlier, hcall, hlater⟩ := hcalls
  have hbefore := continues_session (r := r) hs hearlier
  obtain ⟨m, ⟨hm, es, hrun, hes⟩, hcache, hrequests⟩ := Call.run_spec (r := r) hbefore.readable hcall
  have hsession : r.session (earlier ++ [call]) s = call.run r (r.session earlier s) := by
    simp [session, List.foldl_append]
  have hafter : r.Continues (call.run r (r.session earlier s)) (r.session (earlier ++ call :: later) s) := by
    have hcontinues := continues_session (r := r) (continues_run (r := r) hbefore.readable hcall).readable hlater
    simpa [session, List.foldl_append] using hcontinues
  rw [hsession]
  refine ⟨m, es, hrun, hcache, hrequests, fun before e after hsplit uri hu => ?_⟩
  subst hsplit
  obtain ⟨m₁, m₂, h₁, hstep, h₂⟩ := hrun.split
  have hmem : e ∈ before ++ e :: after := List.mem_append_right _ List.mem_cons_self
  obtain ⟨hwhole, huncached⟩ := hstep.get?_eq_none hu
  obtain ⟨hnone, hother⟩ := Call.lookup_enter_eq_none (hrun.get?_eq_none hmem hu).2
  refine ⟨m₁, m₂, h₁, hstep, h₂, hwhole, hes e hmem uri hu, ?_, huncached, ?_, fun d hd => ?_, ?_⟩
  · rw [hstep.requests, Option.mem_def.mp hu]
    rfl
  · exact hbefore.grows.lookup_eq_none hnone
  · exact isAt_document? hd (hother d hd)
  · cases hstep with
    | linked => cases hu
    | refused hl _ _ hf =>
      cases hu
      refine .inr ⟨_, rfl, fetch_cache hf, fun s' hs' => ?_⟩
      rw [load_requests hl hs', ← Cache.key, Cache.key_of_whole hwhole]
    | @given _ d _ s₁ _ _ hf =>
      cases hu
      obtain ⟨hd, hnot⟩ := hrun.not_asked_again
      refine .inl ⟨d, rfl, by rw [Cache.get?_insertAs, if_pos rfl], fun asked hasked hkey => ?_⟩
      obtain ⟨asked', hasked', hnone'⟩ := hafter.requests
      rw [hasked', hrequests, h₂.requests, List.append_assoc] at hasked
      rw [← List.append_cancel_left hasked] at hkey
      rcases List.mem_append.mp hkey with hkey | hkey
      · obtain ⟨u, hu, heq⟩ := List.mem_map.mp hkey
        obtain ⟨e', he', hrequest⟩ := List.mem_filterMap.mp hu
        have hwhole' := (h₂.get?_eq_none he' hrequest).1
        refine hnot e' he' u hrequest ?_
        rw [Cache.key_of_whole hwhole', Cache.key_of_whole hwhole, heq]
      · have hlost := hnone' _ hkey
        rw [hcache, ← Cache.key_of_whole hwhole, Call.lookup_leave hother] at hlost
        cases hd.symm.trans hlost

/-- A document that is not to be had at the first three requests: the loader refuses it, then it gives bytes, which are
no value, and then a document whose URI cannot be read. -/
def lateResolver : Resolver where
  loader? := some (.ofSources [⟨"http://late",
    [.error "busy", .ok ⟨.empty, .bytes [], "http://late"⟩, .ok ⟨.empty, .null, "late"⟩],
    .ok ⟨⟨#[.object [("type", .string "string")]]⟩, .cell 0, "http://late"⟩⟩])
  limits := .standard

/-- A schema that refers to the document is made. -/
def lateCall : Call := .create .standard
  ⟨⟨0, #[.object [("not", 1)], .reference [("$ref", 2)], .string "http://late"]⟩, 0⟩ none

/-- Of five calls the first three do not get the document, the fourth one loads it, and the fifth one finds it. -/
theorem session_lateCall : (Store.start 2).Readable ∧
    (∀ c ∈ List.replicate 3 lateCall ++ lateCall :: [lateCall], c.Readable) ∧
    (lateResolver.session (List.replicate 5 lateCall) (.start 2)).requests = List.replicate 4 "http://late" ∧
    ∃ m es, lateResolver.Run (lateCall.enter (lateResolver.session (List.replicate 3 lateCall) (.start 2))) es m ∧
      (lateResolver.session (List.replicate 4 lateCall) (.start 2)).requests = m.requests ∧
      ∀ before e after, es = before ++ e :: after → ∀ uri ∈ e.request?, ∃ m₁ m₂,
        lateResolver.Request (.start 2) lateCall m₁ m₂ (lateResolver.session (List.replicate 5 lateCall) (.start 2))
          e uri := by
  have hs : (Store.start 2).Readable := fun d hd => by
    obtain ⟨key, hkey⟩ := hd
    cases hkey
  have hcalls : ∀ c ∈ List.replicate 3 lateCall ++ lateCall :: [lateCall], c.Readable := by
    intro c hc d hd
    obtain rfl : c = lateCall := by simpa using hc
    cases hd
  obtain ⟨m, es, hrun, -, hrequests, hask⟩ := lateResolver.session_asks_once hs hcalls
  refine ⟨hs, hcalls, by decide +kernel, m, es, hrun, hrequests, fun before e after hes uri hu => ?_⟩
  obtain ⟨m₁, m₂, -, -, -, hrequest⟩ := hask before e after hes uri hu
  exact ⟨m₁, m₂, hrequest⟩

end Resolver

end JsonSchema
