import JsonSchema.Proofs.Fragments
import JsonSchema.Proofs.PointerText
import JsonSchema.Proofs.Requests

/-!
The URI of a place leads back to it (`Resolver.resolveTarget_uri`). It is the URI of the document with the pointer
as its fragment. Whatever the names on the way are, the fragment holds only what fragments may hold, so the URI can
be read, and is read as what it is; it has the URI of the document, so it leads into the document, and its fragment
is read as the pointer.

This needs documents whose URIs were read and have no fragment (`Document.Addressed`). All documents are made so, and
whatever references lead to is in such a document if those at hand are.
-/

namespace JsonSchema

/-! ### URIs with a fragment -/

/-- What is escaped stays so if more characters are allowed. -/
theorem UriChar.escaped_mono {allowed allowed' : Char → Bool} (h : ∀ c, allowed c = true → allowed' c = true)
    {l : List Char} (hl : escaped allowed l = true) : escaped allowed' l = true := by
  fun_induction escaped allowed l with
  | case1 => rfl
  | case2 a b rest ih =>
    simp only [Bool.and_eq_true] at hl
    simp [escaped, hl, ih]
  | case3 c rest _ ih =>
    simp only [Bool.and_eq_true, bne_iff_ne] at hl
    obtain ⟨⟨hc, hpercent⟩, hrest⟩ := hl
    rw [escaped_cons hpercent, h c hc, ih hrest]
    rfl

theorem Pointer.isFragment_toFragment (p : Pointer) :
    UriChar.escaped UriChar.isFragment p.toFragment.toList = true := by
  refine UriChar.escaped_mono (fun c hc => ?_) (escaped_toFragment p)
  rw [UriChar.isAsciiFragment, Bool.and_eq_true] at hc
  exact hc.2

namespace Uri

variable {u : Uri} {fragment : String}

/-- A URI with a well-formed fragment in place of its own can be read. -/
theorem Readable.withFragment (h : u.Readable) (hf : UriChar.escaped UriChar.isFragment fragment.toList = true) :
    (u.withFragment fragment).Readable := by
  obtain ⟨hscheme, hauthority, hpath, hrooted, hunrooted, hquery, -⟩ := readable_iff.1 h
  refine readable_iff.2 ⟨hscheme, hauthority, hpath, hrooted, hunrooted, hquery, fun _ h => ?_⟩
  cases h
  exact hf

theorem fragmentText_withFragment (u : Uri) (fragment : String) :
    (u.withFragment fragment).fragmentText = some fragment := by
  rw [fragmentText, Uri.withFragment, Option.map_some, String.ofList_toList]

/-- A URI is taken as it is, whatever the base. -/
theorem resolve_toReference (base u : Uri) : base.resolve u.toReference = .ok u := rfl

end Uri

/-! ### Documents -/

namespace Document

variable {d : Document} {base : Uri}

/-- The document was made without URI, or with one that was read and without its fragment. -/
def Addressed (d : Document) : Prop :=
  ∀ own ∈ d.uri?, ∃ text uri, Uri.parse text = .ok uri ∧ own = uri.withoutFragment

theorem addressed_anonymous (root : Value) : (anonymous root).Addressed := fun _ h => by cases h

theorem addressed_retrieved {text : String} {uri : Uri} (h : Uri.parse text = .ok uri) (root : Value) :
    (retrieved uri root).Addressed := by
  intro own hown
  cases hown
  exact ⟨text, uri, h, rfl⟩

/-- The URI may also be one to which a reference was resolved. -/
theorem addressed_resolved {uri : Uri} {reference : String} {r : UriReference} (hb : base.Readable)
    (hr : UriReference.parse reference = .ok r) (h : base.resolve r = .ok uri) (root : Value) :
    (retrieved uri root).Addressed :=
  addressed_retrieved (hb.resolve (UriReference.parse_eq_ok hr).2 h) root

theorem Addressed.readable (h : d.Addressed) : d.Readable := by
  intro own hown
  obtain ⟨text, uri, hparse, rfl⟩ := h own hown
  exact (Uri.readable_of_parse hparse).withoutFragment

theorem Addressed.isWhole (h : d.Addressed) : d.IsWhole := by
  intro own hown
  obtain ⟨text, uri, -, rfl⟩ := h own hown
  rfl

/-- The URI of the document with a readable fragment leads to this fragment in the document. -/
theorem destination_withFragment (h : d.IsWhole) (hu : d.uri? = some base) {fragment : String}
    (hr : (base.withFragment fragment).Readable) :
    d.destination (base.withFragment fragment).toText = .ok (.here fragment) := by
  have hparse : UriReference.parse (base.withFragment fragment).toText = .ok (base.withFragment fragment).toReference :=
    Uri.parse_eq_ok_iff.1 hr
  have hat : d.isAt (base.withFragment fragment) = true := h.isAt hu _
  unfold destination
  rw [hparse, hu]
  simp only [Except.mapError, bind, Except.bind, Uri.resolve_toReference, destinationOfUri, hat, if_true,
    Uri.fragmentText_withFragment, Option.getD_some]
  rfl

end Document

/-- The URI of a place in an addressed document can be read and leads back to the place, without a look at other
documents. -/
theorem Target.leads_back {t : Target} {base : Uri} (hd : t.document.Addressed)
    (hv : t.pointer.resolve t.document.root = .ok t.value) (hu : t.document.uri? = some base) :
    (base.withFragment t.pointer.toFragment).Readable ∧ ∀ (r : Resolver) (m : Store),
      r.resolveTarget (base.withFragment t.pointer.toFragment).toText t.document m = (.ok t, m) := by
  have hread : (base.withFragment t.pointer.toFragment).Readable :=
    (hd.readable base hu).withFragment t.pointer.isFragment_toFragment
  refine ⟨hread, fun r m => ?_⟩
  have htarget : t.document.target t.pointer.toFragment = .ok t := by
    rw [Document.target, Pointer.ofFragment_toFragment]
    simp only [bind, Except.bind, hv]
    rfl
  rw [r.resolveTarget_of_here (Document.destination_withFragment hd.isWhole hu hread), htarget]
  rfl

/-! ### Places that references lead to -/

namespace Resolver

open Loading

variable {r : Resolver} {context : Document} {s s' : Store} {t : Target}

/-- What holds of all documents that are retrieved holds of all that come to hand. -/
theorem keeps_documents (r : Resolver) {P : Document → Prop}
    (hretrieved : ∀ {text uri}, Uri.parse text = .ok uri → ∀ root, P (.retrieved uri root)) :
    r.Closed (Keeps fun s => ∀ d, s.cache.Has d → P d) := by
  refine closed_keeps fun uri s hs => ?_
  obtain ⟨es, hrun, -⟩ := r.load_runs uri s
  exact hrun.forall_has hretrieved hs

theorem addressed_of_found (hcontext : context.Addressed) (hs : ∀ d, s'.cache.Has d → d.Addressed)
    (h : t.Found context s'.cache) : t.document.Addressed := by
  rcases h.document with hd | hd
  · rw [hd]
    exact hcontext
  · exact hs _ hd

/-- Whether one reference is followed or all, the place is in an addressed document. -/
theorem found_of_resolved (hcontext : context.Addressed) (hs : ∀ d, s.cache.Has d → d.Addressed)
    (h : (∃ reference, r.resolveTarget reference context s = (.ok t, s')) ∨
      ∃ v, r.resolve v context s = (.ok t, s')) :
    t.document.Addressed ∧ t.pointer.resolve t.document.root = .ok t.value := by
  have hkeeps := r.keeps_documents (P := Document.Addressed) Document.addressed_retrieved
  rcases h with ⟨reference, h⟩ | ⟨v, h⟩
  · have hs' := hkeeps.resolveTarget reference context s hs
    rw [h] at hs'
    have hfound := resolveTarget_found h
    exact ⟨addressed_of_found hcontext hs' hfound, hfound.value⟩
  · have hs' := hkeeps.resolve v context s hs
    rw [h] at hs'
    obtain ⟨hfound, -⟩ := resolve_found h
    exact ⟨addressed_of_found hcontext hs' hfound, hfound.value⟩

/-- **The URI of a place leads back to it.** If the place to which a reference leads is in a document with a URI,
then it has a URI itself, which can be read, alone and as a reference; and followed in the document, whatever is at
hand, it leads to the same place of the same document and to the same value, without a look at other documents. -/
theorem resolveTarget_uri {base : Uri} (hcontext : context.Addressed) (hs : ∀ d, s.cache.Has d → d.Addressed)
    (h : (∃ reference, r.resolveTarget reference context s = (.ok t, s')) ∨
      ∃ v, r.resolve v context s = (.ok t, s')) (hu : t.document.uri? = some base) :
    ∃ uri, t.uri? = some uri ∧ Uri.parse uri.toText = .ok uri ∧
      UriReference.parse uri.toText = .ok uri.toReference ∧
      ∀ (r' : Resolver) (m : Store), r'.resolveTarget uri.toText t.document m = (.ok t, m) := by
  obtain ⟨hd, hv⟩ := found_of_resolved hcontext hs h
  obtain ⟨hread, hback⟩ := Target.leads_back hd hv hu
  refine ⟨base.withFragment t.pointer.toFragment, ?_, hread, Uri.parse_eq_ok_iff.1 hread, hback⟩
  rw [Target.uri?, hu, Option.map_some]

end Resolver

/-- A URI that is not hierarchical. -/
def contentUri : Uri := ⟨"data".toList, none, "application/json,x".toList, none, none⟩

/-- The name of the member has characters that are escaped in pointers or in fragments, the name within is empty. -/
def contentDocument : Document :=
  .retrieved contentUri ⟨⟨0, #[.object [("a/b~ %#é", 1)], .object [("", 2)], .string "x"]⟩, 0⟩

/-- A reference to the string in the document, with more escapes than needed. -/
def contentReference : String := "#/%61~1b~0%20%25%23%C3%A9/"

/-- The place of the string. -/
def contentTarget : Target := ⟨contentDocument, ⟨["a/b~ %#é", ""]⟩, ⟨contentDocument.root.graph, 2⟩⟩

theorem addressed_contentDocument : contentDocument.Addressed := by
  have hparse : Uri.parse "data:application/json,x" = .ok contentUri := rfl
  exact Document.addressed_retrieved hparse _

theorem resolveTarget_contentReference (s : Store) :
    (⟨none, .standard⟩ : Resolver).resolveTarget contentReference contentDocument s = (.ok contentTarget, s) := by
  have hfragment : IsFragment contentReference := by
    unfold IsFragment
    decide +kernel
  have hdestination : contentDocument.destination contentReference = .ok (.here "/%61~1b~0%20%25%23%C3%A9/") := by
    rw [Document.destination_of_fragment addressed_contentDocument.isWhole hfragment]
    rfl
  have hpointer : Pointer.ofFragment "/%61~1b~0%20%25%23%C3%A9/" = .ok contentTarget.pointer := by decide +kernel
  have hvalue : contentTarget.pointer.resolve contentDocument.root = .ok contentTarget.value := rfl
  rw [Resolver.resolveTarget_of_here _ hdestination, Document.target, hpointer]
  simp only [bind, Except.bind, hvalue]
  rfl

/-- The URI of the place is written with the escapes that are needed, and leads to it. -/
theorem resolveTarget_uri_contentTarget :
    contentDocument.Addressed ∧ (∀ d, (Store.start 1).cache.Has d → d.Addressed) ∧
    (⟨none, .standard⟩ : Resolver).resolveTarget contentReference contentDocument (.start 1) =
      (.ok contentTarget, .start 1) ∧
    ∃ uri, contentTarget.uri? = some uri ∧ uri.toText = "data:application/json,x#/a~1b~0%20%25%23%C3%A9/" ∧
      Uri.parse uri.toText = .ok uri ∧ ∀ (r : Resolver) (m : Store),
        r.resolveTarget uri.toText contentDocument m = (.ok contentTarget, m) := by
  have hcached : ∀ d, (Store.start 1).cache.Has d → d.Addressed := fun d ⟨key, hkey⟩ => by cases hkey
  have hrun := resolveTarget_contentReference (.start 1)
  refine ⟨addressed_contentDocument, hcached, hrun, ?_⟩
  obtain ⟨uri, huri, hparse, -, hback⟩ :=
    Resolver.resolveTarget_uri addressed_contentDocument hcached (.inl ⟨contentReference, hrun⟩) rfl
  refine ⟨uri, huri, ?_, hparse, hback⟩
  have htext : contentTarget.uri?.map Uri.toText = some "data:application/json,x#/a~1b~0%20%25%23%C3%A9/" := by
    decide +kernel
  rw [huri] at htext
  exact Option.some.inj htext

end JsonSchema
