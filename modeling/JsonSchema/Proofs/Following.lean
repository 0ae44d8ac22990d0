import JsonSchema.Proofs.Compile.Overlong
import JsonSchema.Proofs.Copies.Environment
import JsonSchema.Proofs.Dereference.Followed

/-!
Following a reference, hop by hop (`Resolver.resolve_hops`). A hop looks a reference up in the document in which the hop
before has landed, and may load documents (`Resolver.Hops`). Following stops at the first value that is no reference, if
there are not too many hops before, and otherwise says why it stops: a hop fails, there are too many, or the hops never
come to an end (`Resolver.StopsWith`).

The last is told from a place that is met twice. Places are told apart by the text of the document's URI, so documents
with the same URI have to be copies of each other (`Resolver.Distinguishes`). Then the hops from the place go the same
way again: no document is loaded any more (`Resolver.Linked`), and a hop in a copy of a document leads to a copy of
where it led (`Resolver.Linked.copied`).
-/

namespace JsonSchema.Resolver

open Loading

variable {r : Resolver} {k j most : Nat} {link next : String} {d e document : Document} {t : Target}
  {base s s' s'' : Store} {result result' : Except ReferenceError Target}

/-! ### Hops -/

/-- So many hops from a reference in a document, each in the document in which the one before has landed. All of them
land on references but the last one, which has this result. -/
inductive Hops (r : Resolver) : Nat → String → Document → Store → Except ReferenceError Target → Store → Prop
  | last {link : String} {d : Document} {s s' : Store} {result : Except ReferenceError Target} :
      r.resolveTarget link d s = (result, s') → Hops r 1 link d s result s'
  | next {k : Nat} {link next : String} {d : Document} {t : Target} {s s' s'' : Store}
      {result : Except ReferenceError Target} : r.resolveTarget link d s = (.ok t, s') →
      t.value.reference? = some next → Hops r k next t.document s' result s'' → Hops r (k + 1) link d s result s''

/-- However many hops are made, the last one lands on a reference. -/
def Endless (r : Resolver) (link : String) (d : Document) (s : Store) : Prop :=
  ∀ k, 1 ≤ k → ∃ t next s', r.Hops k link d s (.ok t) s' ∧ t.value.reference? = some next

/-- There is no further hop after this result. -/
def IsLast : Except ReferenceError Target → Prop
  | .ok t => t.value.reference? = none
  | .error _ => True

theorem Hops.pos (h : r.Hops k link d s result s') : 1 ≤ k := by
  cases h <;> omega

/-- Hops after which there is no further one are the longest ones, and no others are as long. -/
theorem Hops.le_of_isLast (h : r.Hops k link d s result s') (hf : IsLast result) (h' : r.Hops j link d s result' s'') :
    j ≤ k ∧ (j = k → result' = result ∧ s'' = s') := by
  induction h generalizing j with
  | last hrun =>
    cases h' with
    | last hrun' =>
      cases hrun.symm.trans hrun'
      exact ⟨Nat.le_refl _, fun _ => ⟨rfl, rfl⟩⟩
    | next hrun' hnext _ =>
      cases hrun.symm.trans hrun'
      cases (Eq.symm hf).trans hnext
  | next hrun hnext hrest ih =>
    cases h' with
    | last hrun' => exact ⟨Nat.le_add_left .., fun heq => absurd hrest.pos (by omega)⟩
    | next hrun' hnext' hrest' =>
      cases hrun.symm.trans hrun'
      cases hnext.symm.trans hnext'
      obtain ⟨hle, heq⟩ := ih hf hrest'
      exact ⟨Nat.succ_le_succ hle, fun hsucc => heq (Nat.succ.inj hsucc)⟩

/-- Hops after which there is no further one are the same. -/
theorem Hops.unique (h : r.Hops k link d s result s') (hf : IsLast result) (h' : r.Hops j link d s result' s'')
    (hf' : IsLast result') : j = k ∧ result' = result ∧ s'' = s' := by
  obtain ⟨hle, heq⟩ := h.le_of_isLast hf h'
  obtain ⟨hge, -⟩ := h'.le_of_isLast hf' h
  exact ⟨Nat.le_antisymm hle hge, heq (Nat.le_antisymm hle hge)⟩

/-- After endless hops there is always a further one. -/
theorem Endless.not_isLast (h : r.Endless link d s) (hhops : r.Hops k link d s result s') : ¬IsLast result := by
  intro hf
  obtain ⟨t, next, s'', ht, hnext⟩ := h k hhops.pos
  obtain ⟨rfl, -⟩ := (hhops.le_of_isLast hf ht).2 rfl
  cases (Eq.symm hf).trans hnext

theorem Endless.hop (h : r.Endless next t.document s') (hrun : r.resolveTarget link d s = (.ok t, s'))
    (hnext : t.value.reference? = some next) : r.Endless link d s := by
  intro k hk
  match k, hk with
  | 1, _ => exact ⟨t, next, s', .last hrun, hnext⟩
  | k + 2, _ =>
    obtain ⟨u, next', s'', hhops, hnext'⟩ := h (k + 1) (Nat.le_add_left ..)
    exact ⟨u, next', s'', .next hrun hnext hhops, hnext'⟩

/-! A single hop reports no cycle. -/

theorem destination_ne_cycle : d.destination link ≠ .error .cycle := by
  intro h
  unfold Document.destination at h
  cases hparse : UriReference.parse link with
  | error e => simp [hparse, Except.mapError, bind, Except.bind] at h
  | ok parsed =>
    simp only [hparse, Except.mapError, bind, Except.bind] at h
    cases hu : d.uri? with
    | some base =>
      simp only [hu] at h
      cases hresolve : base.resolve parsed <;> simp [hresolve, pure, Except.pure] at h
    | none =>
      simp only [hu] at h
      split at h
      · simp [pure, Except.pure] at h
      · split at h
        · cases huri : Uri.parse link <;> simp [huri, pure, Except.pure] at h
        · cases h

theorem reach_ne_cycle {destination : Destination} : r.reach d destination s ≠ (.error .cycle, s') := by
  have htarget : ∀ (e : Document) (fragment : String),
      (e.target fragment).mapError ReferenceFault.badPointer ≠ .error .cycle := fun e fragment h => by
    obtain ⟨_, -, hfault⟩ := mapError_eq_error h
    cases hfault
  intro h
  cases destination with
  | here fragment => exact htarget _ _ (Prod.mk.inj h).1
  | elsewhere uri =>
    rcases run_bind_eq_error h with h | ⟨e, s₁, -, h⟩
    · obtain ⟨_, -, hfault⟩ := run_adapt_eq_error h
      cases hfault
    · exact htarget _ _ (Prod.mk.inj h).1

theorem fault_of_resolveTarget {error : ReferenceError} (h : r.resolveTarget link d s = (.error error, s')) :
    error.fault ≠ .cycle := by
  obtain ⟨fault, hrun, rfl⟩ := run_adapt_eq_error h
  rintro rfl
  rcases run_bind_eq_error hrun with hdestination | ⟨destination, s₁, -, hreach⟩
  · exact destination_ne_cycle (Prod.mk.inj hdestination).1
  · exact reach_ne_cycle hreach

/-! ### Hops that need no new document -/

/-- A hop leads from one reference to the next one without another document. -/
def Linked (r : Resolver) (s : Store) (x y : String × Document) : Prop :=
  ∃ t, r.resolveTarget x.1 x.2 s = (.ok t, s) ∧ t.value.reference? = some y.1 ∧ t.document = y.2

/-- What was reached once is reached again without another document. -/
theorem Linked.of_hop (hrun : r.resolveTarget link d s = (.ok t, s')) (hnext : t.value.reference? = some next) :
    r.Linked s' (link, d) (next, t.document) :=
  ⟨t, (r.closed_steady.resolveTarget link d).again hrun (.refl _), hnext, rfl⟩

theorem Linked.chain {x y : String × Document} (h : r.Linked s x y) (hrest : r.Chain s y.1 y.2 link d) :
    r.Chain s x.1 x.2 link d := by
  obtain ⟨t, hrun, hnext, hd⟩ := h
  exact .next hrun hnext (hd ▸ hrest)

/-- There are references behind this one, one after the other, up to that one. -/
def Behind (r : Resolver) (s : Store) (x y : String × Document) : Prop :=
  ∃ z, r.Linked s x z ∧ r.Chain s z.1 z.2 y.1 y.2

theorem Behind.chain {x y : String × Document} (h : r.Behind s x y) : r.Chain s x.1 x.2 y.1 y.2 := by
  obtain ⟨z, hlinked, hchain⟩ := h
  exact hlinked.chain hchain

/-- One more reference behind others. -/
theorem behind_of_chain {y : String × Document} (h : r.Chain s link d next e) (hlinked : r.Linked s (next, e) y) :
    r.Behind s (link, d) y := by
  induction h with
  | first => exact ⟨y, hlinked, .first⟩
  | next hrun hnext _ ih => exact ⟨(_, _), ⟨_, hrun, hnext, rfl⟩, (ih hlinked).chain⟩

/-- Hops that can always go on among some references never come to an end. -/
theorem endless_of_closed {X : String × Document → Prop} (hX : ∀ x, X x → ∃ y, r.Linked s x y ∧ X y)
    (h : X (link, d)) : r.Endless link d s := by
  suffices hall : ∀ k x, X x → ∃ t next s', r.Hops (k + 1) x.1 x.2 s (.ok t) s' ∧ t.value.reference? = some next by
    intro k hk
    obtain ⟨k, rfl⟩ := Nat.exists_eq_add_of_le' hk
    exact hall k _ h
  intro k
  induction k with
  | zero =>
    intro x hx
    obtain ⟨y, ⟨t, hrun, hnext, -⟩, -⟩ := hX x hx
    exact ⟨t, y.1, s, .last hrun, hnext⟩
  | succ k ih =>
    intro x hx
    obtain ⟨y, ⟨t, hrun, hnext, hd⟩, hy⟩ := hX x hx
    obtain ⟨u, next, s', hhops, hnext'⟩ := ih y hy
    exact ⟨u, next, s', .next hrun hnext (hd ▸ hhops), hnext'⟩

/-- The same place is designated in a copy of a document. -/
theorem target_copied (hde : d.Copied e) {fragment : String} (h : d.target fragment = .ok t) :
    ∃ u, e.target fragment = .ok u ∧ t.Copied u := by
  have hsame := hde.target fragment
  rw [h] at hsame
  generalize e.target fragment = answer at hsame
  cases hsame with
  | ok htu => exact ⟨_, rfl, htu⟩

theorem reach_copied (hself : ∀ e, s.cache.Has e → e.Copied e) (hde : d.Copied e) {destination : Destination}
    (h : r.reach d destination s = (.ok t, s)) : ∃ u, r.reach e destination s = (.ok u, s) ∧ t.Copied u := by
  cases destination with
  | here fragment =>
    obtain ⟨u, hu, htu⟩ := target_copied hde (mapError_eq_ok (Prod.mk.inj h).1)
    refine ⟨u, ?_, htu⟩
    rw [reach, hu]
    rfl
  | elsewhere uri =>
    -- the document is the same one
    obtain ⟨loaded, s₁, hload, htarget⟩ := run_bind_eq_ok h
    obtain ⟨ht, rfl⟩ := Prod.mk.inj htarget
    have hcopied := hself loaded ⟨_, load_get? (run_adapt_eq_ok hload)⟩
    obtain ⟨u, hu, htu⟩ := target_copied hcopied (mapError_eq_ok ht)
    cases (mapError_eq_ok ht).symm.trans hu
    exact ⟨t, h, htu⟩

/-- A hop in a copy of a document leads to a copy of where it led. -/
theorem Linked.copied (hself : ∀ e, s.cache.Has e → e.Copied e) {x y : String × Document} (h : r.Linked s x y)
    (hde : x.2.Copied e) : ∃ e', r.Linked s (x.1, e) (y.1, e') ∧ y.2.Copied e' := by
  obtain ⟨t, hrun, hnext, hd⟩ := h
  obtain ⟨destination, s₁, hdestination, hreach⟩ := run_bind_eq_ok (run_adapt_eq_ok hrun)
  obtain ⟨-, rfl⟩ := Prod.mk.inj hdestination
  obtain ⟨u, hu, htu⟩ := reach_copied hself hde hreach
  have hsame : (liftM (e.destination x.1) : Loading ReferenceFault Destination) s = (.ok destination, s) := by
    rw [run_except, hde.reordered.destination]
    exact hdestination
  refine ⟨u.document, ⟨u, ?_, ?_, rfl⟩, hd ▸ htu.document⟩
  · rw [resolveTarget, run_adapt, run_bind_of_ok hsame, hu]
    rfl
  · rw [htu.value.reordered.reference?, hnext]

/-! ### A place that is met twice -/

/-- Documents that may come to hand and have the same URI, or none, are copies of each other. -/
def Distinguishes (r : Resolver) (s : Store) (document : Document) : Prop :=
  ∀ d e, r.Provides s document d → r.Provides s document e → d.uriText? = e.uriText? → d.Copied e

/-- The hops so far, which have come to a reference in a document: from every place that they have met, they lead there
without another document. -/
structure Trail (r : Resolver) (base : Store) (document : Document) (visited : List Location) (link : String)
    (d : Document) (s : Store) : Prop where
  here : r.Provides base document d
  cached : ∀ e, s.cache.Has e → r.Provides base document e
  visited : ∀ l ∈ visited, ∃ (t : Target) (next : String), t.location = l ∧ t.value.reference? = some next ∧
    r.Provides base document t.document ∧ t.pointer.resolve t.document.root = .ok t.value ∧
    r.Chain s next t.document link d

namespace Trail

variable {visited : List Location}

theorem start (hs : ∀ e, s.cache.Has e → r.Provides base document e) (hd : r.Provides base document d) :
    r.Trail base document [] link d s :=
  ⟨hd, hs, fun l hl => by cases hl⟩

variable (h : r.Trail base document visited link d s) (hrun : r.resolveTarget link d s = (.ok t, s'))
  (hnext : t.value.reference? = some next)

include h hrun in
/-- Where a hop lands is a place of a document that may come to hand. -/
theorem provides : r.Provides base document t.document ∧ t.pointer.resolve t.document.root = .ok t.value ∧
    ∀ e, s'.cache.Has e → r.Provides base document e := by
  have hfound := resolveTarget_found hrun
  have hcached : ∀ e, s'.cache.Has e → r.Provides base document e := by
    have hkeeps := (r.closed_provided base document).resolveTarget link d s h.cached
    rwa [hrun] at hkeeps
  refine ⟨?_, hfound.value, hcached⟩
  rcases hfound.document with hd | hd
  · exact hd ▸ h.here
  · exact hcached _ hd

include h hrun hnext

/-- A hop leaves a longer trail. -/
theorem hop : r.Trail base document (t.location :: visited) next t.document s' := by
  obtain ⟨hprovides, hvalue, hcached⟩ := h.provides hrun
  have hg : s.cache.Grows s'.cache := (r.closed_steady.resolveTarget link d).grows_of_eq hrun
  refine ⟨hprovides, hcached, fun l hl => ?_⟩
  rcases List.mem_cons.mp hl with rfl | hl
  · exact ⟨t, next, rfl, hnext, hprovides, hvalue, .first⟩
  · obtain ⟨u, next', hlocation, hnext', hu, huvalue, hchain⟩ := h.visited l hl
    exact ⟨u, next', hlocation, hnext', hu, huvalue, (behind_of_chain (hchain.mono hg) (.of_hop hrun hnext)).chain⟩

/-- A hop to a place that was met before is followed by the hops from there, over and over again. -/
theorem endless (hdistinct : r.Distinguishes base document) (hmet : t.location ∈ visited) : r.Endless link d s := by
  obtain ⟨hprovides, hvalue, hcached⟩ := h.provides hrun
  have hself : ∀ e, s'.cache.Has e → e.Copied e := fun e he => hdistinct e e (hcached e he) (hcached e he) rfl
  have hg : s.cache.Grows s'.cache := (r.closed_steady.resolveTarget link d).grows_of_eq hrun
  obtain ⟨u, next', hlocation, hnext', hu, huvalue, hchain⟩ := h.visited _ hmet
  -- the place was met in a copy of the document, so the reference there is the same
  obtain ⟨huri, hpointer⟩ := Location.mk.inj hlocation
  have hcopied : u.document.Copied t.document := hdistinct _ _ hu hprovides huri
  have hsame : next' = next := by
    have hresolve := hcopied.root.resolve u.pointer
    rw [huvalue, hpointer, hvalue] at hresolve
    cases hresolve with
    | ok hcopies => exact Option.some.inj (hnext'.symm.trans (hcopies.reordered.reference?.symm.trans hnext))
  subst hsame
  have hround : r.Behind s' (next', u.document) (next', t.document) :=
    behind_of_chain (hchain.mono hg) (.of_hop hrun hnext)
  -- the references of which a copy is on the way around
  refine Endless.hop (endless_of_closed (X := fun x => ∃ e, e.Copied x.2 ∧
    r.Behind s' (x.1, e) (next', t.document)) ?_ ⟨_, hcopied, hround⟩) hrun hnext
  rintro x ⟨e, hcopy, y, hlinked, hrest⟩
  obtain ⟨e', hlinked', hcopy'⟩ := hlinked.copied hself hcopy
  refine ⟨(y.1, e'), hlinked', ?_⟩
  obtain ⟨reference, f⟩ := y
  cases hrest with
  | first => exact ⟨u.document, hcopied.trans hcopy', hround⟩
  | next hagain hfurther hrest => exact ⟨f, hcopy', (_, _), ⟨_, hagain, hfurther, rfl⟩, hrest⟩

end Trail

/-! ### How following a reference ends -/

/-- What following a reference for so many hops ends with: a value that is no reference, a hop that fails, a reference
after that many hops, or a cycle if the hops never come to an end. -/
inductive StopsWith (r : Resolver) (most : Nat) (link : String) (d : Document) (s s' : Store) :
    Except ReferenceError Target → Prop
  | arrived {k : Nat} {t : Target} : k ≤ most → r.Hops k link d s (.ok t) s' → t.value.reference? = none →
      StopsWith r most link d s s' (.ok t)
  | failed {k : Nat} {error : ReferenceError} : k ≤ most → r.Hops k link d s (.error error) s' →
      error.fault ≠ .cycle → StopsWith r most link d s s' (.error error)
  | tooLong {t : Target} {next reference context : String} : r.Hops most link d s (.ok t) s' →
      t.value.reference? = some next →
      StopsWith r most link d s s' (.error ⟨reference, context, .chainTooLong r.limits.maxReferenceChain⟩)
  | cycle {reference context : String} : r.Endless link d s →
      StopsWith r most link d s s' (.error ⟨reference, context, .cycle⟩)

/-- What follows a hop to a reference, with the hop. -/
theorem StopsWith.hop (hrun : r.resolveTarget link d s = (.ok t, s')) (hnext : t.value.reference? = some next)
    (h : r.StopsWith most next t.document s' s'' result) : r.StopsWith (most + 1) link d s s'' result := by
  cases h with
  | arrived hk hhops hlast => exact .arrived (Nat.succ_le_succ hk) (.next hrun hnext hhops) hlast
  | failed hk hhops hfault => exact .failed (Nat.succ_le_succ hk) (.next hrun hnext hhops) hfault
  | tooLong hhops hnext' => exact .tooLong (.next hrun hnext hhops) hnext'
  | cycle hendless => exact .cycle (hendless.hop hrun hnext)

/-- One hop on a trail, and what is done after it. -/
theorem Trail.followed (hdistinct : r.Distinguishes base document) {visited : List Location}
    (h : r.Trail base document visited link d s) (hmost : 1 ≤ most) (rest : String → Target → Resolving Target)
    (hrest : ∀ t next s₁, r.resolveTarget link d s = (.ok t, s₁) → t.value.reference? = some next →
      rest next t s₁ = (result, s') → r.StopsWith most link d s s' result)
    (hrun : (r.resolveTarget link d >>= fun target =>
      match target.value.reference? with
      | none => pure target
      | some next =>
        if visited.contains target.location then throw ⟨link, d.name, .cycle⟩ else rest next target) s =
        (result, s')) : r.StopsWith most link d s s' result := by
  rw [run_bind] at hrun
  cases hhop : r.resolveTarget link d s with
  | mk answer s₁ =>
    rw [hhop] at hrun
    cases answer with
    | error error =>
      cases hrun
      exact .failed hmost (.last hhop) (fault_of_resolveTarget hhop)
    | ok t =>
      cases hnext : t.value.reference? with
      | none =>
        simp only [hnext] at hrun
        cases hrun
        exact .arrived hmost (.last hhop) hnext
      | some next =>
        simp only [hnext] at hrun
        split at hrun
        · next hmet =>
          cases hrun
          exact .cycle (h.endless hhop hnext hdistinct (List.contains_iff_mem.mp hmet))
        · exact hrest t next s₁ hhop hnext hrun

/-- Following a reference on a trail, by induction on the hops that are left. -/
theorem Trail.followed_chase (hdistinct : r.Distinguishes base document) {more : Nat} {visited : List Location}
    (h : r.Trail base document visited link d s) (hrun : r.chase more visited link d s = (result, s')) :
    r.StopsWith (more + 1) link d s s' result := by
  induction more generalizing visited link d s with
  | zero =>
    rw [chase] at hrun
    refine h.followed hdistinct (Nat.le_refl _)
      (fun _ _ => throw ⟨link, d.name, .chainTooLong r.limits.maxReferenceChain⟩)
      (fun t next s₁ hhop hnext hthrow => ?_) hrun
    cases hthrow
    exact .tooLong (.last hhop) hnext
  | succ more ih =>
    rw [chase] at hrun
    refine h.followed hdistinct (Nat.le_add_left ..) _ (fun t next s₁ hhop hnext hchase => ?_) hrun
    exact (ih (h.hop hhop hnext) hchase).hop hhop hnext

/-- Following stops as soon as it comes to a value that is no reference, and the hops before were not too many. -/
theorem StopsWith.eq_of_arrives (h : r.StopsWith most link d s s'' result) (hk : k ≤ most)
    (hhops : r.Hops k link d s (.ok t) s') (hlast : t.value.reference? = none) : result = .ok t ∧ s'' = s' := by
  have hnone : IsLast (.ok t) := hlast
  cases h with
  | arrived _ hhops' hlast' => exact (hhops.unique hnone hhops' hlast').2
  | failed _ hhops' _ =>
    obtain ⟨-, hresult, -⟩ := hhops.unique hnone hhops' trivial
    cases hresult
  | tooLong hhops' hnext =>
    obtain ⟨hle, heq⟩ := hhops.le_of_isLast hnone hhops'
    obtain ⟨hresult, -⟩ := heq (Nat.le_antisymm hle hk)
    cases hresult
    cases hlast.symm.trans hnext
  | cycle hendless => exact absurd hnone (hendless.not_isLast hhops)

/-- The first hop is made whatever the limit is. -/
theorem followed_resolve {v : Value} (hv : v.reference? = some link) (hdistinct : r.Distinguishes s d)
    (hrun : r.resolve v d s = (result, s')) :
    r.StopsWith (max 1 r.limits.maxReferenceChain) link d s s' result := by
  have hmost : max 1 r.limits.maxReferenceChain = r.limits.maxReferenceChain - 1 + 1 := by omega
  have htrail : r.Trail s d [] link d s := .start (fun e he => .inl (.inr he)) (.inl (.inl rfl))
  rw [resolve, hv] at hrun
  rw [hmost]
  exact htrail.followed_chase hdistinct hrun

/-- **Following a reference is exact.** It ends with a value if and only if so many hops lead there, not more than the
limit or a single one, and the value is no reference. It reports a cycle only if the hops never come to an end. It fails
only if they do not, or one of them fails, or there is still a reference after as many hops as the limit allows. -/
theorem resolve_hops {v : Value} (hv : v.reference? = some link) (hdistinct : r.Distinguishes s d) :
    (∀ t s', r.resolve v d s = (.ok t, s') ↔ ∃ k, 1 ≤ k ∧ k ≤ max 1 r.limits.maxReferenceChain ∧
      r.Hops k link d s (.ok t) s' ∧ t.value.reference? = none) ∧
    ∀ error s', r.resolve v d s = (.error error, s') →
      (error.fault = .cycle → r.Endless link d s) ∧
      (r.Endless link d s ∨ (∃ k, k ≤ max 1 r.limits.maxReferenceChain ∧ r.Hops k link d s (.error error) s') ∨
        ∃ t next, r.Hops (max 1 r.limits.maxReferenceChain) link d s (.ok t) s' ∧ t.value.reference? = some next) := by
  refine ⟨fun t s' => ⟨fun hrun => ?_, fun ⟨k, _, hk, hhops, hlast⟩ => ?_⟩, fun error s' hrun => ?_⟩
  · cases followed_resolve hv hdistinct hrun with
    | arrived hk hhops hlast => exact ⟨_, hhops.pos, hk, hhops, hlast⟩
  · obtain ⟨hresult, hstore⟩ := (followed_resolve hv hdistinct (Prod.mk.eta).symm).eq_of_arrives hk hhops hlast
    exact Prod.ext hresult hstore
  · cases followed_resolve hv hdistinct hrun with
    | failed hk hhops hfault => exact ⟨fun h => absurd h hfault, .inr (.inl ⟨_, hk, hhops⟩)⟩
    | tooLong hhops hnext => exact ⟨fun h => (by cases h), .inr (.inr ⟨_, _, hhops, hnext⟩)⟩
    | cycle hendless => exact ⟨fun _ => hendless, .inl hendless⟩

/-- A reference to a reference to a number, and two references to each other. -/
def chainedDocument : Document := .anonymous ⟨⟨0, #[.object [("a", 1), ("b", 3), ("c", 5), ("d", 6), ("e", 8)],
  .reference [("$ref", 2)], .string "#/b", .reference [("$ref", 4)], .string "#/c", .integer 4,
  .reference [("$ref", 7)], .string "#/e", .reference [("$ref", 9)], .string "#/d"]⟩, 0⟩

/-- Nothing can be loaded, and so many references may be followed. -/
def lonelyResolver (limit : Nat) : Resolver := ⟨none, { maxReferenceChain := limit }⟩

theorem distinguishes_chainedDocument (limit tag : Nat) :
    (lonelyResolver limit).Distinguishes (.start tag) chainedDocument := by
  have hw : chainedDocument.root.graph.WellFormed := by decide
  have honly : ∀ e, (lonelyResolver limit).Provides (.start tag) chainedDocument e → e = chainedDocument := by
    rintro e ((rfl | ⟨key, hk⟩) | ⟨loader, _, _, _, _, _, _, hl, -⟩)
    · rfl
    · cases hk
    · cases hl
  intro d e hd he _
  rw [honly d hd, honly e he]
  exact .refl hw

/-- At a limit of two the number is still found, in at most two hops. The other references never come to an end. -/
theorem resolve_chainedDocument :
    (lonelyResolver 2).Distinguishes (.start 2) chainedDocument ∧
    (chainedDocument.root.atNode 1).reference? = some "#/b" ∧ (chainedDocument.root.atNode 6).reference? = some "#/e" ∧
    (∃ k, 1 ≤ k ∧ k ≤ 2 ∧ (lonelyResolver 2).Hops k "#/b" chainedDocument (.start 2)
      (.ok ⟨chainedDocument, ⟨["c"]⟩, chainedDocument.root.atNode 5⟩) (.start 2)) ∧
    (lonelyResolver 3).Endless "#/e" chainedDocument (.start 2) := by
  have hnumber : (lonelyResolver 2).resolve (chainedDocument.root.atNode 1) chainedDocument (.start 2) =
      (.ok ⟨chainedDocument, ⟨["c"]⟩, chainedDocument.root.atNode 5⟩, .start 2) := by rfl
  have hcycle : (lonelyResolver 3).resolve (chainedDocument.root.atNode 6) chainedDocument (.start 2) =
      (.error ⟨"#/e", "<anonymous>", .cycle⟩, .start 2) := by rfl
  refine ⟨distinguishes_chainedDocument 2 2, rfl, rfl, ?_, ?_⟩
  · obtain ⟨k, hpos, hk, hhops, -⟩ := ((resolve_hops rfl (distinguishes_chainedDocument 2 2)).1 _ _).mp hnumber
    exact ⟨k, hpos, hk, hhops⟩
  · exact ((resolve_hops rfl (distinguishes_chainedDocument 3 2)).2 _ _ hcycle).1 rfl

/-- A hop into a document without URI that is in the cache. -/
theorem resolveTarget_unnamed (r : Resolver) {uri : Uri} (hd : d.destination link = .ok (.elsewhere uri))
    (hcached : s.cache.get? uri = some e) (he : e.uri? = none)
    (ht : e.target (uri.fragmentText.getD "") = .ok t) : r.resolveTarget link d s = (.ok t, s) := by
  have hdestination : (liftM (d.destination link) : Loading ReferenceFault Destination) s =
      (.ok (.elsewhere uri), s) := by
    rw [run_except, hd]
  have hload : (r.load uri).adapt (ReferenceFault.notLoaded uri.withoutFragment.toText) s = (.ok e, s) := by
    rw [run_adapt, load_run, hcached]
    dsimp only
    rw [Store.settle, he]
    rfl
  rw [resolveTarget, run_adapt, run_bind_of_ok hdestination, reach, run_bind_of_ok hload, ht]
  rfl

/-- Three documents without URI, the last two of which are in the cache: a reference to a reference to a reference to a
number. -/
def unnamedDocument : Document := .anonymous ⟨⟨0, #[.object [("r", 1)], .reference [("$ref", 2)],
  .string "http://x#/p"]⟩, 0⟩

def unnamedNext : Document := .anonymous ⟨⟨1, #[.object [("p", 1)], .reference [("$ref", 2)],
  .string "http://y#/p"]⟩, 0⟩

def unnamedLast : Document := .anonymous ⟨⟨2, #[.object [("p", 1), ("q", 3)], .reference [("$ref", 2)],
  .string "#/q", .integer 4]⟩, 0⟩

def unnamedStore : Store := ⟨⟨[("http://x", unnamedNext), ("http://y", unnamedLast)]⟩, [], 3⟩

theorem resolveTarget_unnamedDocument (r : Resolver) :
    r.resolveTarget "http://x#/p" unnamedDocument unnamedStore =
      (.ok ⟨unnamedNext, ⟨["p"]⟩, unnamedNext.root.atNode 1⟩, unnamedStore) := by
  let uri : Uri := ⟨"http".toList, some "x".toList, [], none, some "/p".toList⟩
  have hdestination : unnamedDocument.destination "http://x#/p" = .ok (.elsewhere uri) := by decide +kernel
  have hkey : Cache.key uri = "http://x" := by decide +kernel
  exact r.resolveTarget_unnamed hdestination (by rw [Cache.get?, hkey]; rfl) rfl (by rfl)

theorem resolveTarget_unnamedNext (r : Resolver) :
    r.resolveTarget "http://y#/p" unnamedNext unnamedStore =
      (.ok ⟨unnamedLast, ⟨["p"]⟩, unnamedLast.root.atNode 1⟩, unnamedStore) := by
  let uri : Uri := ⟨"http".toList, some "y".toList, [], none, some "/p".toList⟩
  have hdestination : unnamedNext.destination "http://y#/p" = .ok (.elsewhere uri) := by decide +kernel
  have hkey : Cache.key uri = "http://y" := by decide +kernel
  exact r.resolveTarget_unnamed hdestination (by rw [Cache.get?, hkey]; rfl) rfl (by rfl)

/-- At a limit of zero one hop is made all the same. Places in different documents without URI are taken for one, so a
cycle is reported although three hops lead to a number. -/
theorem resolve_not_exact :
    ((lonelyResolver 0).Distinguishes (.start 2) chainedDocument ∧
      (chainedDocument.root.atNode 3).reference? = some "#/c" ∧
      (lonelyResolver 0).resolve (chainedDocument.root.atNode 3) chainedDocument (.start 2) =
        (.ok ⟨chainedDocument, ⟨["c"]⟩, chainedDocument.root.atNode 5⟩, .start 2) ∧
      ¬∃ k, 1 ≤ k ∧ k ≤ (lonelyResolver 0).limits.maxReferenceChain ∧ (lonelyResolver 0).Hops k "#/c" chainedDocument
        (.start 2) (.ok ⟨chainedDocument, ⟨["c"]⟩, chainedDocument.root.atNode 5⟩) (.start 2)) ∧
    (∀ d, (lonelyResolver 64).Provides unnamedStore unnamedDocument d → d.uri? = none) ∧
    (unnamedDocument.root.atNode 1).reference? = some "http://x#/p" ∧
    (lonelyResolver 64).resolve (unnamedDocument.root.atNode 1) unnamedDocument unnamedStore =
      (.error ⟨"http://y#/p", "<anonymous>", .cycle⟩, unnamedStore) ∧
    (lonelyResolver 64).Hops 3 "http://x#/p" unnamedDocument unnamedStore
      (.ok ⟨unnamedLast, ⟨["q"]⟩, unnamedLast.root.atNode 3⟩) unnamedStore ∧
    (unnamedLast.root.atNode 3).reference? = none := by
  refine ⟨⟨distinguishes_chainedDocument 0 2, rfl, by rfl, ?_⟩, ?_, rfl, ?_, ?_, rfl⟩
  · rintro ⟨k, hpos, hk, -⟩
    exact absurd (Nat.le_trans hpos hk) (by decide)
  · rintro d ((rfl | ⟨key, hk⟩) | ⟨loader, _, _, _, _, _, _, hl, -⟩)
    · rfl
    · rw [unnamedStore, lookup_cons_eq, lookup_cons_eq] at hk
      split at hk
      · cases hk
        rfl
      · split at hk
        · cases hk
          rfl
        · cases hk
    · cases hl
  · have hchase : (lonelyResolver 64).resolve (unnamedDocument.root.atNode 1) unnamedDocument unnamedStore =
        (lonelyResolver 64).chase (61 + 1 + 1) [] "http://x#/p" unnamedDocument unnamedStore := rfl
    rw [hchase, chase, run_bind_of_ok (resolveTarget_unnamedDocument _)]
    change (lonelyResolver 64).chase (61 + 1) [⟨none, ⟨["p"]⟩⟩] "http://y#/p" unnamedNext unnamedStore = _
    rw [chase, run_bind_of_ok (resolveTarget_unnamedNext _)]
    rfl
  · have hlast : (lonelyResolver 64).resolveTarget "#/q" unnamedLast unnamedStore =
        (.ok ⟨unnamedLast, ⟨["q"]⟩, unnamedLast.root.atNode 3⟩, unnamedStore) := by rfl
    exact .next (resolveTarget_unnamedDocument _) rfl (.next (resolveTarget_unnamedNext _) rfl (.last hlast))

end JsonSchema.Resolver
