import JsonSchema.Proofs.Environment

/-!
References that are fragments. Against any base, of whatever kind, such a reference gives the base with its own fragment
(`Uri.resolve_of_isFragmentOnly`), so it leads into the document that holds it and needs no other one
(`Resolver.resolveTarget_of_fragment`). A value is self-contained if all its references are fragments.
-/

namespace JsonSchema

/-- The text is a fragment with its sign. -/
def IsFragment (reference : String) : Prop := reference.toList.head? = some '#'

/-- Every reference in the value is a fragment. -/
def Value.SelfContained (v : Value) : Prop :=
  ∀ id, v.graph.Reaches v.id id → ∀ reference ∈ (v.atNode id).reference?, IsFragment reference

/-- A document goes by a URI without fragment, if it has one. -/
def Document.IsWhole (d : Document) : Prop := ∀ uri ∈ d.uri?, uri.fragment = none

/-! ### Fragments as references -/

theorem UriReference.ofChars_fragment (rest : List Char) :
    ofChars ('#' :: rest) = ⟨none, none, [], none, some rest⟩ := rfl

/-- A fragment is read as a fragment alone, unless it holds a character that no fragment may. -/
theorem UriReference.isFragmentOnly_of_parse {reference : String} {r : UriReference} (h : IsFragment reference)
    (hparse : parse reference = .ok r) : r.isFragmentOnly = true := by
  obtain ⟨rest, hrest⟩ : ∃ rest, reference.toList = '#' :: rest := by
    cases hchars : reference.toList with
    | nil => simp [IsFragment, hchars] at h
    | cons c rest =>
      rw [IsFragment, hchars] at h
      exact ⟨rest, by rw [Option.some.inj h]⟩
  unfold parse at hparse
  rw [hrest, ofChars_fragment] at hparse
  dsimp only at hparse
  split at hparse
  · cases hparse
    rfl
  · cases hparse

/-- A fragment is resolved to the base with that fragment. -/
theorem Uri.resolve_of_isFragmentOnly (base : Uri) {r : UriReference} (h : r.isFragmentOnly = true) :
    base.resolve r = .ok { base with fragment := r.fragment } := by
  obtain ⟨scheme, authority, path, query, fragment⟩ := r
  simp only [UriReference.isFragmentOnly, Bool.and_eq_true, Option.isNone_iff_eq_none, List.isEmpty_iff] at h
  obtain ⟨⟨⟨⟨rfl, rfl⟩, rfl⟩, rfl⟩, hfragment⟩ := h
  unfold Uri.resolve
  dsimp only [UriReference.toUri?, Option.map_none]
  split
  · rw [if_pos (by simp [UriReference.isFragmentOnly, hfragment])]
  · rfl

/-! ### Documents -/

namespace Document

variable {d : Document} {reference : String} {v : Value}

theorem isWhole_anonymous (v : Value) : (anonymous v).IsWhole := fun _ h => by cases h

theorem isWhole_retrieved (uri : Uri) (v : Value) : (retrieved uri v).IsWhole := fun _ h => by
  cases h
  rfl

theorem IsWhole.isAt (h : d.IsWhole) {uri : Uri} (hu : d.uri? = some uri) (fragment : Option (List Char)) :
    d.isAt { uri with fragment } = true := by
  have hwhole : uri.withoutFragment = uri := by
    rw [Uri.withoutFragment, ← h uri hu]
  have hsame : ({ uri with fragment } : Uri).withoutFragment = uri := hwhole
  rw [Document.isAt, Document.uriText?, hu, hsame]
  exact beq_self_eq_true _

/-- A fragment leads into the document, whatever its URI is. -/
theorem destination_of_fragment (hd : d.IsWhole) (h : IsFragment reference) :
    d.destination reference = ((UriReference.parse reference).mapError ReferenceFault.badUri).map fun r =>
      .here ((r.fragment.map String.ofList).getD "") := by
  unfold Document.destination
  cases hparse : UriReference.parse reference with
  | error e => rfl
  | ok r =>
    have hr := UriReference.isFragmentOnly_of_parse h hparse
    cases hu : d.uri? with
    | none =>
      simp only [Except.mapError, Except.map, bind, Except.bind, hr, if_true]
      rfl
    | some base =>
      simp only [Except.mapError, Except.map, bind, Except.bind, base.resolve_of_isFragmentOnly hr,
        Document.destinationOfUri, hd.isAt hu, if_true]
      rfl

/-- The place in the document that a fragment leads to. -/
def inside (d : Document) (reference : String) : Except ReferenceFault Target := do
  let r ← (UriReference.parse reference).mapError .badUri
  (d.target ((r.fragment.map String.ofList).getD "")).mapError .badPointer

end Document

/-- What is followed within the document that holds the reference needs no other document. -/
theorem Resolver.resolveTarget_of_here (r : Resolver) {d : Document} {reference fragment : String}
    (h : d.destination reference = .ok (.here fragment)) (s : Store) : r.resolveTarget reference d s =
      ((d.target fragment).mapError fun e => ⟨reference, d.name, .badPointer e⟩, s) := by
  unfold resolveTarget
  rw [run_adapt, h, run_bind, run_except]
  dsimp only [reach]
  rw [run_except]
  cases d.target fragment <;> rfl

/-- A fragment is followed within the document that holds it. -/
theorem Resolver.resolveTarget_of_fragment (r : Resolver) {d : Document} (hd : d.IsWhole) {reference : String}
    (h : IsFragment reference) (s : Store) :
    r.resolveTarget reference d s = ((d.inside reference).mapError (⟨reference, d.name, ·⟩), s) := by
  unfold resolveTarget
  rw [run_adapt, Document.destination_of_fragment hd h, run_bind, run_except]
  unfold Document.inside
  cases UriReference.parse reference with
  | error e => rfl
  | ok r => rfl

end JsonSchema
