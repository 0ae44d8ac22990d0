import JsonSchema.Proofs.Fragments
import JsonSchema.Proofs.UriText

/-!
References against bases of every kind. Whether a base is hierarchical or not, its own fragment plays no part
(`Uri.resolve_withoutFragment`), a fragment alone takes its place, and a reference with a scheme is taken as it is; all
else is refused by a base without hierarchy (`Uri.resolve_of_data`).

A base may have a fragment that no URI can be read with, as any text may be put in the place of a fragment. Every URI
that can be made is readable without its fragment (`Uri.Made.withoutFragment_readable`), so whatever is resolved against
it is readable in full.
-/

namespace JsonSchema

/-! ### References -/

namespace UriReference

variable {r : UriReference} {text : String}

theorem toText_of_parse (h : parse text = .ok r) : r.toText = text := by
  rw [toText, (parse_eq_ok h).1, String.ofList_toList]

/-- A reference is a fragment alone if its text is. -/
theorem isFragment_iff (h : parse text = .ok r) : IsFragment text ↔ r.isFragmentOnly = true := by
  constructor
  · intro hfragment
    exact isFragmentOnly_of_parse hfragment h
  · intro honly
    have hchars := (parse_eq_ok h).1
    obtain ⟨scheme, authority, path, query, fragment⟩ := r
    simp only [isFragmentOnly, Bool.and_eq_true, Option.isNone_iff_eq_none, List.isEmpty_iff,
      Option.isSome_iff_exists] at honly
    obtain ⟨⟨⟨⟨rfl, rfl⟩, rfl⟩, rfl⟩, fragment, rfl⟩ := honly
    rw [IsFragment, ← hchars]
    rfl

theorem parse_fragment {fragment : String} (h : parse ("#" ++ fragment) = .ok r) :
    r = ⟨none, none, [], none, some fragment.toList⟩ := by
  unfold parse at h
  rw [String.toList_append] at h
  dsimp only at h
  split at h
  · cases h
    exact ofChars_fragment fragment.toList
  · cases h

end UriReference

namespace Uri

variable {base u : Uri} {r : UriReference} {text : String}

/-! ### The fragment of the base -/

theorem toText_withFragment (u : Uri) (fragment : String) :
    (u.withFragment fragment).toText = u.withoutFragment.toText ++ "#" ++ fragment := by
  rw [← String.toList_inj]
  simp [toText, UriReference.toText, toReference, UriReference.chars, withFragment, withoutFragment]

/-- The fragment of a base plays no part. -/
theorem resolve_withoutFragment : base.withoutFragment.resolve r = .ok u ↔ base.resolve r = .ok u := by
  unfold resolve
  cases r.toUri? with
  | some own => exact Iff.rfl
  | none =>
    have hkind : base.withoutFragment.kind = base.kind := rfl
    dsimp only
    rw [hkind]
    split
    · split
      · exact Iff.rfl
      · simp
    · exact Iff.rfl

/-! ### References against a base -/

/-- A reference with a scheme is taken as it is. -/
theorem resolve_of_isAbsolute (base : Uri) (hr : UriReference.parse text = .ok r) (h : r.isAbsolute = true) :
    ∃ u, base.resolve r = .ok u ∧ u.toText = text := by
  have htext := UriReference.toText_of_parse hr
  obtain ⟨scheme, authority, path, query, fragment⟩ := r
  obtain ⟨scheme, rfl⟩ := Option.isSome_iff_exists.mp h
  exact ⟨⟨scheme, authority, path, query, fragment⟩, rfl, htext⟩

/-- A fragment alone takes the place of the fragment. -/
theorem resolve_fragment (base : Uri) {fragment : String} (hr : UriReference.parse ("#" ++ fragment) = .ok r) :
    base.resolve r = .ok (base.withFragment fragment) := by
  have honly := UriReference.isFragmentOnly_of_parse (by rw [IsFragment, String.toList_append]; rfl) hr
  rw [base.resolve_of_isFragmentOnly honly, UriReference.parse_fragment hr]
  rfl

/-- Without hierarchy, all else is refused. -/
theorem resolve_of_data (hdata : base.kind = .data) (hrelative : r.isAbsolute = false)
    (h : r.isFragmentOnly = false) : base.resolve r = .error (.notHierarchical r.toText base.toText) := by
  have hnone : r.toUri? = none := by
    obtain ⟨scheme, authority, path, query, fragment⟩ := r
    cases scheme with
    | none => rfl
    | some scheme => cases hrelative
  rw [resolve, hnone]
  dsimp only
  rw [if_pos hdata, h]
  rfl

/-! ### URIs that can be made -/

/-- The URIs that can be made: they are read from a text, come from others by dropping the fragment or by putting any text
in its place, or are what a reference that was read is resolved to. -/
inductive Made : Uri → Prop
  | parsed {text : String} {u : Uri} : parse text = .ok u → Made u
  | withoutFragment {u : Uri} : Made u → Made u.withoutFragment
  | withFragment {u : Uri} (fragment : String) : Made u → Made (u.withFragment fragment)
  | resolved {base u : Uri} {text : String} {r : UriReference} :
      Made base → UriReference.parse text = .ok r → base.resolve r = .ok u → Made u

/-- What a reference gives against a base is readable if the base is so up to its fragment. -/
theorem readable_of_resolve (hb : base.withoutFragment.Readable) (hr : UriReference.parse text = .ok r)
    (h : base.resolve r = .ok u) : u.Readable :=
  hb.resolve (UriReference.parse_eq_ok hr).2 (resolve_withoutFragment.mpr h)

theorem Made.withoutFragment_readable (h : u.Made) : u.withoutFragment.Readable := by
  induction h with
  | parsed hparse => exact (readable_of_parse hparse).withoutFragment
  | withoutFragment _ ih => exact ih
  | withFragment _ _ ih => exact ih
  | resolved _ hr h ih => exact (readable_of_resolve ih hr h).withoutFragment

/-- The fragment begins behind the first number sign of the text. -/
theorem Made.cut_toText (h : u.Made) :
    Text.cut '#' u.toText.toList = (u.withoutFragment.toText.toList, u.fragment) := by
  have hchars : ∀ v : Uri, v.toText.toList = v.toReference.chars := fun v => String.toList_ofList
  have hwhole : UriReference.ofChars u.withoutFragment.toReference.chars = u.withoutFragment.toReference :=
    (readable_iff.mp h.withoutFragment_readable).ofChars_chars rfl
  have hnone : (Text.cut '#' u.withoutFragment.toReference.chars).2 = none := congrArg UriReference.fragment hwhole
  -- read as a whole the text has no fragment, so there is no number sign in it
  have hnot : '#' ∉ u.withoutFragment.toReference.chars := by
    have happend := Text.append_cut '#' u.withoutFragment.toReference.chars
    rw [hnone] at happend
    rw [← happend, Option.elim_none, List.append_nil]
    exact Text.not_mem_cut '#' _
  have hsplit : u.toReference.chars = u.withoutFragment.toReference.chars ++ u.fragment.elim [] ('#' :: ·) := by
    simp [UriReference.chars, toReference, Uri.withoutFragment]
  rw [hchars, hchars, hsplit, Text.cut_append hnot]

/-- A readable URI is read from its text, with any base or without one. -/
theorem Readable.resolveText (h : u.Readable) (base : Option Uri) : resolveText base u.toText = .ok u := by
  cases base with
  | none => exact h
  | some base =>
    rw [Uri.resolveText, parse_eq_ok_iff.mp h]
    rfl

/-- **Fragments are treated alike by bases of every kind.** Against a base with and without its fragment a reference gives
the same URI, or none in both cases; a fragment alone gives the base without its fragment, followed by the reference; a
reference with a scheme gives a URI with its text; and every other reference is refused by a data URI. What a reference
gives has a text that is read as the same URI, and that is resolved to it, whatever the base. -/
theorem resolve_uniform (hb : base.Made) (hr : UriReference.parse text = .ok r) :
    (Text.cut '#' base.toText.toList).1 = base.withoutFragment.toText.toList ∧
    (∀ u, base.resolve r = .ok u ↔ base.withoutFragment.resolve r = .ok u) ∧
    (∀ fragment, text = "#" ++ fragment →
      ∃ u, base.resolve r = .ok u ∧ u.toText = base.withoutFragment.toText ++ "#" ++ fragment) ∧
    (r.isAbsolute = true → ∃ u, base.resolve r = .ok u ∧ u.toText = text) ∧
    (base.kind = .data → r.isAbsolute = false → ¬IsFragment text →
      base.resolve r = .error (.notHierarchical text base.toText)) ∧
    ∀ u, base.resolve r = .ok u → parse u.toText = .ok u ∧ ∀ base', resolveText base' u.toText = .ok u := by
  refine ⟨congrArg Prod.fst hb.cut_toText, fun u => resolve_withoutFragment.symm, ?_, base.resolve_of_isAbsolute hr, ?_, ?_⟩
  · rintro fragment rfl
    exact ⟨_, base.resolve_fragment hr, base.toText_withFragment fragment⟩
  · intro hdata hrelative hfragment
    rw [UriReference.isFragment_iff hr, Bool.not_eq_true] at hfragment
    rw [resolve_of_data hdata hrelative hfragment, UriReference.toText_of_parse hr]
  · intro u hu
    have hread : u.Readable := readable_of_resolve hb.withoutFragment_readable hr hu
    exact ⟨hread, hread.resolveText⟩

/-- A URI without hierarchy. -/
def letterUri : Uri := ⟨"data".toList, none, ",x".toList, none, none⟩

/-- The URI with a fragment that no URI can be read with. -/
def blankUri : Uri := letterUri.withFragment "a b#"

theorem made_blankUri : blankUri.Made := by
  have hparse : parse "data:,x" = .ok letterUri := rfl
  exact .withFragment "a b#" (.parsed hparse)

/-- A fragment takes the place of one that cannot be read, and what comes of it can be read. -/
theorem resolve_blankUri :
    blankUri.Made ∧ UriReference.parse "#/é" = .ok ⟨none, none, [], none, some "/é".toList⟩ ∧
    ∃ u, blankUri.resolve ⟨none, none, [], none, some "/é".toList⟩ = .ok u ∧ u.toText = "data:,x#/é" ∧
      parse u.toText = .ok u := by
  have hparse : UriReference.parse "#/é" = .ok ⟨none, none, [], none, some "/é".toList⟩ := rfl
  obtain ⟨-, -, hfragment, -, -, hread⟩ := resolve_uniform made_blankUri hparse
  obtain ⟨u, hu, htext⟩ := hfragment "/é" rfl
  exact ⟨made_blankUri, hparse, u, hu, htext, (hread u hu).1⟩

end Uri

end JsonSchema
