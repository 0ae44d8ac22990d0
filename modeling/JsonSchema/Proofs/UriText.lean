import JsonSchema.Uri.Resolve

/-!
URIs and their texts. A URI is readable if it is what its text is read as (`Uri.Readable`). A URI that was read from a
text has that text (`Uri.toText_of_parse`) and is readable; it stays so without its fragment, and so is whatever a
reference gives against a readable base (`Uri.Readable.resolve`). So readable URIs with the same text are the same.

The components of a readable URI are such that its text is cut where they were joined (`UriReference.Delimited`): no
component holds the sign that ends it, and a path reads neither as an authority nor as part of one.
-/

namespace JsonSchema

open Text

/-! ### Cutting -/

namespace Text

variable {separator c : Char} {chars : List Char}

theorem append_cut (separator : Char) (chars : List Char) :
    (cut separator chars).1 ++ (cut separator chars).2.elim [] (separator :: ·) = chars := by
  induction chars with
  | nil => rfl
  | cons c rest ih =>
    rw [cut]
    split
    · next heq => rw [heq]; rfl
    · exact congrArg (c :: ·) ih

theorem not_mem_cut (separator : Char) (chars : List Char) : separator ∉ (cut separator chars).1 := by
  induction chars with
  | nil => exact List.not_mem_nil
  | cons c rest ih =>
    rw [cut]
    split
    · exact List.not_mem_nil
    · next hne => exact fun hmem => (List.mem_cons.mp hmem).elim (fun heq => hne heq.symm) ih

/-- What was joined at the first separator is cut there. -/
theorem cut_append (h : separator ∉ chars) (after : Option (List Char)) :
    cut separator (chars ++ after.elim [] (separator :: ·)) = (chars, after) := by
  induction chars with
  | nil => cases after <;> simp [cut]
  | cons c rest ih =>
    obtain ⟨hne, hrest⟩ : separator ≠ c ∧ separator ∉ rest := by simpa using h
    rw [List.cons_append, cut, if_neg (Ne.symm hne), ih hrest]

theorem mem_of_mem_cut (h : c ∈ (cut separator chars).1) : c ∈ chars := by
  rw [← append_cut separator chars]
  exact List.mem_append_left _ h

theorem fields_ne_nil (separator : Char) (chars : List Char) : fields separator chars ≠ [] := by
  cases chars with
  | nil => simp [fields]
  | cons c rest =>
    rw [fields]
    split
    · simp
    · split <;> simp

theorem fields_cons_of_ne (h : c ≠ separator) (chars : List Char) :
    fields separator (c :: chars) = (fields separator chars).modifyHead (c :: ·) := by
  obtain ⟨first, others, hfields⟩ := List.exists_cons_of_ne_nil (fields_ne_nil separator chars)
  rw [fields, if_neg h, hfields]
  rfl

end Text

/-! ### Escapes -/

namespace UriChar

variable {allowed : Char → Bool} {l m : List Char}

theorem escaped_cons {c : Char} (h : c ≠ '%') : escaped allowed (c :: l) = (allowed c && escaped allowed l) := by
  rw [escaped.eq_3 _ _ _ fun a b rest heq _ => h heq, bne_iff_ne.mpr h, Bool.and_true]

theorem not_mem_of_escaped {c : Char} (h : escaped allowed l = true) (hc : allowed c = false) (hpercent : c ≠ '%')
    (hhex : Text.isHexDigit c = false) : c ∉ l := by
  fun_induction escaped allowed l with
  | case1 => exact List.not_mem_nil
  | case2 a b rest ih =>
    simp only [Bool.and_eq_true] at h
    obtain ⟨⟨ha, hb⟩, hrest⟩ := h
    simp only [List.mem_cons, not_or]
    exact ⟨hpercent, fun heq => by simp [heq, ha] at hhex, fun heq => by simp [heq, hb] at hhex, ih hrest⟩
  | case3 d rest _ ih =>
    simp only [Bool.and_eq_true] at h
    obtain ⟨⟨hd, -⟩, hrest⟩ := h
    simp only [List.mem_cons, not_or]
    exact ⟨fun heq => by simp [heq, hd] at hc, ih hrest⟩

theorem escaped_append (hl : escaped allowed l = true) (hm : escaped allowed m = true) :
    escaped allowed (l ++ m) = true := by
  fun_induction escaped allowed l with
  | case1 => exact hm
  | case2 a b rest ih =>
    simp only [Bool.and_eq_true] at hl
    simp [escaped, hl, ih]
  | case3 c rest _ ih =>
    simp only [Bool.and_eq_true, bne_iff_ne] at hl
    obtain ⟨⟨hc, hpercent⟩, hrest⟩ := hl
    rw [List.cons_append, escaped_cons hpercent, hc, ih hrest]
    rfl

/-- The fields of escaped characters are escaped, as no escape holds a separator. -/
theorem escaped_fields {separator : Char} (hpercent : separator ≠ '%') (hhex : Text.isHexDigit separator = false)
    (h : escaped allowed l = true) : ∀ field ∈ Text.fields separator l, escaped allowed field = true := by
  have hne : ∀ {c : Char}, Text.isHexDigit c = true → c ≠ separator := fun hc heq => by simp [heq, hhex] at hc
  fun_induction escaped allowed l with
  | case1 => simp [Text.fields, escaped]
  | case2 a b rest ih =>
    simp only [Bool.and_eq_true] at h
    obtain ⟨⟨ha, hb⟩, hrest⟩ := h
    rw [Text.fields_cons_of_ne hpercent.symm, Text.fields_cons_of_ne (hne ha), Text.fields_cons_of_ne (hne hb)]
    have hall := ih hrest
    obtain ⟨first, others, hfields⟩ := List.exists_cons_of_ne_nil (Text.fields_ne_nil separator rest)
    rw [hfields, List.forall_mem_cons] at hall
    rw [hfields]
    simp only [List.modifyHead_cons, List.forall_mem_cons]
    exact ⟨by simp [escaped, ha, hb, hall.1], hall.2⟩
  | case3 c rest _ ih =>
    simp only [Bool.and_eq_true, bne_iff_ne] at h
    obtain ⟨⟨hc, hc'⟩, hrest⟩ := h
    have hall := ih hrest
    by_cases hsep : c = separator
    · rw [Text.fields, if_pos hsep]
      exact List.forall_mem_cons.mpr ⟨rfl, hall⟩
    · obtain ⟨first, others, hfields⟩ := List.exists_cons_of_ne_nil (Text.fields_ne_nil separator rest)
      rw [hfields, List.forall_mem_cons] at hall
      rw [Text.fields_cons_of_ne hsep, hfields]
      simp only [List.modifyHead_cons, List.forall_mem_cons]
      exact ⟨by rw [escaped_cons hc', hc, hall.1]; rfl, hall.2⟩

end UriChar

/-! ### Components -/

namespace UriReference

variable {r : UriReference} {chars : List Char}

theorem append_cutScheme (chars : List Char) :
    (cutScheme chars).1.elim [] (· ++ [':']) ++ (cutScheme chars).2 = chars := by
  unfold cutScheme
  have happend := Text.append_cut ':' chars
  split
  · next name rest hcut =>
    rw [hcut] at happend
    split
    · simpa using happend
    · rfl
  · rfl

theorem append_cutAuthority (chars : List Char) :
    (cutAuthority chars).1.elim [] (['/', '/'] ++ ·) ++ (cutAuthority chars).2 = chars := by
  unfold cutAuthority
  split
  · simp [List.takeWhile_append_dropWhile]
  · rfl

/-- The components joined are the text they were cut from. -/
theorem chars_ofChars (chars : List Char) : (ofChars chars).chars = chars := by
  unfold ofChars UriReference.chars
  dsimp only
  rw [List.append_assoc (Option.elim _ _ _), append_cutAuthority, append_cutScheme, Text.append_cut, Text.append_cut]

/-- No component holds the sign that ends it, and each is well formed. -/
structure Delimited (r : UriReference) : Prop where
  scheme : ∀ scheme ∈ r.scheme, isScheme scheme = true
  authority : ∀ authority ∈ r.authority,
    isAuthority authority = true ∧ '/' ∉ authority ∧ '?' ∉ authority ∧ '#' ∉ authority
  path : UriChar.escaped UriChar.isPath r.path = true
  rooted : r.authority.isSome = true → r.path = [] ∨ r.path.head? = some '/'
  unrooted : Uri.readsAsAuthority r.authority.isSome r.path = false
  query : ∀ query ∈ r.query, UriChar.escaped UriChar.isQuery query = true
  fragment : ∀ fragment ∈ r.fragment, UriChar.escaped UriChar.isFragment fragment = true

theorem scheme_cutScheme : ∀ scheme ∈ (cutScheme chars).1, isScheme scheme = true := by
  unfold cutScheme
  split
  · split
    · next hscheme => simpa using hscheme
    · simp
  · simp

theorem cutAuthority_of_not_prefix (h : ['/', '/'].isPrefixOf chars = false) : cutAuthority chars = (none, chars) := by
  unfold cutAuthority
  split
  · cases h
  · rfl

theorem cutAuthority_cases (chars : List Char) :
    (∃ rest, chars = '/' :: '/' :: rest ∧
        cutAuthority chars = (some (rest.takeWhile (· != '/')), rest.dropWhile (· != '/'))) ∨
      ['/', '/'].isPrefixOf chars = false ∧ cutAuthority chars = (none, chars) := by
  cases hslashes : ['/', '/'].isPrefixOf chars with
  | false => exact .inr ⟨rfl, cutAuthority_of_not_prefix hslashes⟩
  | true =>
    obtain ⟨rest, rfl⟩ := List.isPrefixOf_iff_prefix.mp hslashes
    exact .inl ⟨rest, rfl, rfl⟩

/-- An authority holds none of the signs that may follow it, and what follows it is empty or begins with a slash. -/
theorem cutAuthority_spec (h : '?' ∉ chars ∧ '#' ∉ chars) :
    (∀ authority ∈ (cutAuthority chars).1, '/' ∉ authority ∧ '?' ∉ authority ∧ '#' ∉ authority) ∧
      ((cutAuthority chars).1.isSome = true → (cutAuthority chars).2 = [] ∨ (cutAuthority chars).2.head? = some '/') ∧
      Uri.readsAsAuthority (cutAuthority chars).1.isSome (cutAuthority chars).2 = false := by
  rcases cutAuthority_cases chars with ⟨rest, rfl, hcut⟩ | ⟨hslashes, hcut⟩
  · rw [hcut]
    refine ⟨fun authority ha => ?_, fun _ => ?_, rfl⟩
    · cases ha
      have hmem : ∀ {c}, c ∈ rest.takeWhile (· != '/') → c ∈ '/' :: '/' :: rest := fun hc =>
        List.mem_cons_of_mem _ (List.mem_cons_of_mem _ ((List.takeWhile_prefix _).mem hc))
      refine ⟨fun hslash => ?_, fun hc => h.1 (hmem hc), fun hc => h.2 (hmem hc)⟩
      simpa using List.all_eq_true.mp List.all_takeWhile _ hslash
    · cases hdrop : rest.dropWhile (· != '/') with
      | nil => exact .inl rfl
      | cons c path =>
        have hhead := List.head_dropWhile_not (· != '/') (l := rest) (by simp [hdrop])
        simp only [hdrop, List.head_cons, bne_eq_false_iff_eq] at hhead
        exact .inr (congrArg some hhead)
  · rw [hcut]
    refine ⟨fun _ ha => ?_, fun ha => ?_, hslashes⟩ <;> cases ha

theorem delimited_ofChars (h : (ofChars chars).isWellFormed = true) : (ofChars chars).Delimited := by
  have hmem : ∀ {c}, c ∈ (cutScheme (Text.cut '?' (Text.cut '#' chars).1).1).2 →
      c ∈ (Text.cut '?' (Text.cut '#' chars).1).1 := by
    intro c hc
    rw [← append_cutScheme (Text.cut '?' (Text.cut '#' chars).1).1]
    exact List.mem_append_right _ hc
  have hsigns : '?' ∉ (cutScheme (Text.cut '?' (Text.cut '#' chars).1).1).2 ∧
      '#' ∉ (cutScheme (Text.cut '?' (Text.cut '#' chars).1).1).2 :=
    ⟨fun hc => Text.not_mem_cut _ _ (hmem hc), fun hc => Text.not_mem_cut _ _ (Text.mem_of_mem_cut (hmem hc))⟩
  obtain ⟨hauthority, hrooted, hunrooted⟩ := cutAuthority_spec hsigns
  simp only [isWellFormed, Bool.and_eq_true, Option.all_eq_true] at h
  obtain ⟨⟨⟨⟨hauthorities, hpath⟩, hquery⟩, hfragment⟩, -⟩ := h
  exact ⟨scheme_cutScheme, fun authority ha => ⟨hauthorities authority ha, hauthority authority ha⟩, hpath, hrooted,
    hunrooted, hquery, hfragment⟩

theorem not_mem_of_isScheme {scheme : List Char} (h : isScheme scheme = true) {c : Char} (halpha : c.isAlpha = false)
    (hc : UriChar.isScheme c = false) : c ∉ scheme := by
  cases scheme with
  | nil => cases h
  | cons first rest =>
    obtain ⟨hfirst, hrest⟩ := Bool.and_eq_true_iff.mp h
    simp only [List.mem_cons, not_or]
    refine ⟨fun heq => by simp [heq, hfirst] at halpha, fun hmem => ?_⟩
    simp [List.all_eq_true.mp hrest _ hmem] at hc

theorem cutScheme_append {scheme : List Char} (h : isScheme scheme = true) (rest : List Char) :
    cutScheme (scheme ++ ':' :: rest) = (some scheme, rest) := by
  have hcut : Text.cut ':' (scheme ++ ':' :: rest) = (scheme, some rest) :=
    Text.cut_append (not_mem_of_isScheme h (by decide) (by decide)) (some rest)
  rw [cutScheme, hcut]
  exact if_pos h

theorem cutAuthority_append {authority path : List Char} (h : '/' ∉ authority)
    (hpath : path = [] ∨ path.head? = some '/') :
    cutAuthority ('/' :: '/' :: (authority ++ path)) = (some authority, path) := by
  have hall : ∀ c ∈ authority, (c != '/') = true := fun c hc => bne_iff_ne.mpr fun heq => h (heq ▸ hc)
  have hhead : path.takeWhile (· != '/') = [] ∧ path.dropWhile (· != '/') = path := by
    rcases hpath with rfl | hhead
    · exact ⟨rfl, rfl⟩
    · obtain ⟨rest, rfl⟩ := List.head?_eq_some_iff.mp hhead
      exact ⟨rfl, rfl⟩
  rw [cutAuthority, List.takeWhile_append_of_pos hall, List.dropWhile_append_of_pos hall, hhead.1, hhead.2,
    List.append_nil]

namespace Delimited

variable (h : r.Delimited)

include h

theorem not_mem_path {c : Char} (hpath : UriChar.isPath c = false) (hpercent : c ≠ '%')
    (hhex : Text.isHexDigit c = false) : c ∉ r.path := UriChar.not_mem_of_escaped h.path hpath hpercent hhex

theorem isWellFormed (hscheme : r.scheme.isSome = true) : r.isWellFormed = true := by
  simp only [UriReference.isWellFormed, Bool.and_eq_true, Option.all_eq_true, hscheme, Bool.true_or]
  exact ⟨⟨⟨⟨fun authority ha => (h.authority authority ha).1, h.path⟩, h.query⟩, h.fragment⟩, trivial⟩

/-- The components of a reference with a scheme are cut where they were joined. -/
theorem ofChars_chars (hscheme : r.scheme.isSome = true) : ofChars r.chars = r := by
  have hquestion := h.not_mem_path (c := '?') (by decide) (by decide) (by decide)
  have hnumber := h.not_mem_path (c := '#') (by decide) (by decide) (by decide)
  have hquery : ∀ query ∈ r.query, '#' ∉ query := fun query hq =>
    UriChar.not_mem_of_escaped (h.query query hq) (by decide) (by decide) (by decide)
  have hscheme' := h.scheme
  have hauthority := fun authority ha => (h.authority authority ha).2
  have hrooted := h.rooted
  have hunrooted := h.unrooted
  obtain ⟨_ | scheme, authority, path, query, fragment⟩ := r
  · cases hscheme
  dsimp only at hquestion hnumber hquery hscheme' hauthority hrooted hunrooted ⊢
  have hs := hscheme' scheme rfl
  have hquestion' := not_mem_of_isScheme hs (c := '?') (by decide) (by decide)
  have hnumber' := not_mem_of_isScheme hs (c := '#') (by decide) (by decide)
  have hhier : ∀ c, (c = '?' ∨ c = '#') →
      c ∉ scheme ++ [':'] ++ authority.elim [] (['/', '/'] ++ ·) ++ path := by
    rintro c (rfl | rfl) <;> cases authority with
    | none => simp [*]
    | some authority => simp [*, hauthority authority rfl]
  have hall : '#' ∉ scheme ++ [':'] ++ authority.elim [] (['/', '/'] ++ ·) ++ path ++ query.elim [] ('?' :: ·) := by
    rw [List.mem_append, not_or]
    refine ⟨hhier '#' (.inr rfl), ?_⟩
    cases query with
    | none => exact List.not_mem_nil
    | some query => simp [hquery query rfl]
  have hcutScheme : cutScheme (scheme ++ [':'] ++ authority.elim [] (['/', '/'] ++ ·) ++ path) =
      (some scheme, authority.elim [] (['/', '/'] ++ ·) ++ path) := by
    rw [List.append_assoc, List.append_assoc]
    exact cutScheme_append hs _
  have hcutAuthority : cutAuthority (authority.elim [] (['/', '/'] ++ ·) ++ path) = (authority, path) := by
    cases authority with
    | none => exact cutAuthority_of_not_prefix (by simpa [Uri.readsAsAuthority] using hunrooted)
    | some authority => exact cutAuthority_append (hauthority authority rfl).1 (hrooted rfl)
  rw [ofChars, UriReference.chars]
  dsimp only [Option.elim_some]
  rw [Text.cut_append hall, Text.cut_append (hhier '?' (.inl rfl))]
  dsimp only
  rw [hcutScheme]
  dsimp only
  rw [hcutAuthority]

end Delimited

/-- A reference that was read has the text it was read from, and its text is cut where its components were joined. -/
theorem parse_eq_ok {text : String} (h : parse text = .ok r) : r.chars = text.toList ∧ r.Delimited := by
  unfold parse at h
  dsimp only at h
  split at h
  · next hwf =>
    cases h
    exact ⟨chars_ofChars _, delimited_ofChars hwf⟩
  · cases h

end UriReference

namespace Uri

variable {base u u' : Uri} {r : UriReference} {text : String}

/-! ### Readable URIs -/

/-- The URI is what its text is read as. -/
def Readable (u : Uri) : Prop := parse u.toText = .ok u

theorem eq_toReference_of_toUri? (h : r.toUri? = some u) : r = u.toReference := by
  obtain ⟨_ | scheme, authority, path, query, fragment⟩ := r
  · cases h
  · cases h
    rfl

theorem parse_eq_ok_iff : parse text = .ok u ↔ UriReference.parse text = .ok u.toReference := by
  unfold parse
  cases UriReference.parse text with
  | error e => simp
  | ok r =>
    dsimp only
    constructor
    · intro h
      split at h
      · next u' hu' =>
        cases h
        rw [eq_toReference_of_toUri? hu']
      · cases h
    · intro h
      cases h
      rfl

theorem readable_iff : u.Readable ↔ u.toReference.Delimited := by
  constructor
  · intro h
    exact (UriReference.parse_eq_ok (parse_eq_ok_iff.1 h)).2
  · intro h
    refine parse_eq_ok_iff.2 ?_
    have hchars : UriReference.ofChars u.toText.toList = u.toReference := by
      rw [toText, UriReference.toText, String.toList_ofList]
      exact h.ofChars_chars rfl
    unfold UriReference.parse
    dsimp only
    rw [hchars, if_pos (h.isWellFormed rfl)]

/-- The text of a URI is the one it was read from. -/
theorem toText_of_parse (h : parse text = .ok u) : u.toText = text := by
  obtain ⟨hchars, -⟩ := UriReference.parse_eq_ok (parse_eq_ok_iff.1 h)
  rw [toText, UriReference.toText, hchars, String.ofList_toList]

theorem readable_of_parse (h : parse text = .ok u) : u.Readable :=
  readable_iff.2 (UriReference.parse_eq_ok (parse_eq_ok_iff.1 h)).2

/-- Readable URIs are told apart by their texts. -/
theorem Readable.eq_of_toText (h : u.Readable) (h' : u'.Readable) (heq : u.toText = u'.toText) : u = u' := by
  have hparse : parse u'.toText = .ok u := heq ▸ h
  exact Except.ok.inj (hparse.symm.trans h')

theorem Readable.withoutFragment (h : u.Readable) : u.withoutFragment.Readable := by
  obtain ⟨hscheme, hauthority, hpath, hrooted, hunrooted, hquery, -⟩ := readable_iff.1 h
  exact readable_iff.2 ⟨hscheme, hauthority, hpath, hrooted, hunrooted, hquery, fun _ hf => by cases hf⟩

/-! ### Paths -/

/-- Every segment is escaped. -/
abbrev Segments (segments : List (List Char)) : Prop :=
  ∀ segment ∈ segments, UriChar.escaped UriChar.isPath segment = true

variable {rooted : Bool} {segments directories : List (List Char)} {path last : List Char}

theorem segments_fields (h : UriChar.escaped UriChar.isPath path = true) : Segments (fields '/' path) :=
  UriChar.escaped_fields (by decide) (by decide) h

theorem escaped_joinPath (hd : Segments directories) (hl : UriChar.escaped UriChar.isPath last = true) :
    UriChar.escaped UriChar.isPath (joinPath directories last) = true := by
  have hall : ∀ l : List (List Char), Segments l →
      UriChar.escaped UriChar.isPath (l.flatMap (· ++ ['/'])) = true := by
    intro l hl
    induction l with
    | nil => rfl
    | cons segment l ih =>
      obtain ⟨hsegment, hl⟩ := List.forall_mem_cons.mp hl
      exact UriChar.escaped_append (UriChar.escaped_append hsegment (by decide)) (ih hl)
  exact UriChar.escaped_append (hall _ fun segment hs => hd segment (List.mem_reverse.mp hs)) hl

/-- A path from the root begins with a slash. -/
theorem head?_joinPath (h : directories.getLast? = some []) (last : List Char) :
    (joinPath directories last).head? = some '/' := by
  obtain ⟨rest, rfl⟩ := List.getLast?_eq_some_iff.mp h
  simp [joinPath]

/-- A step up leaves directories that were there before. -/
theorem climb_subset (rooted : Bool) (directories : List (List Char)) : climb rooted directories ⊆ directories := by
  match directories with
  | [] => exact List.Subset.refl _
  | [outermost] => cases rooted <;> simp [climb]
  | _ :: second :: rest => exact List.subset_cons_self _ _

theorem segments_climb (h : Segments directories) : Segments (climb rooted directories) := fun segment hs =>
  h segment (climb_subset rooted directories hs)

theorem getLast?_climb (h : directories.getLast? = some []) : (climb true directories).getLast? = some [] := by
  match directories, h with
  | [outermost], h => exact h
  | first :: second :: rest, h => simpa [climb] using h

/-- A walk keeps to escaped segments, and under an authority to paths from the root. -/
theorem walk?_spec (hd : Segments directories) (hs : Segments segments)
    (hroot : rooted = true → directories.getLast? = some []) (h : walk? rooted directories segments = some path) :
    UriChar.escaped UriChar.isPath path = true ∧ (rooted = true → path.head? = some '/') := by
  have hjoin : ∀ {directories last}, Segments directories → UriChar.escaped UriChar.isPath last = true →
      (rooted = true → directories.getLast? = some []) → joinPath directories last = path →
      UriChar.escaped UriChar.isPath path = true ∧ (rooted = true → path.head? = some '/') := by
    rintro directories last hd hl hroot rfl
    exact ⟨escaped_joinPath hd hl, fun hr => head?_joinPath (hroot hr) last⟩
  have hclimb : ∀ {directories : List (List Char)}, (rooted = true → directories.getLast? = some []) →
      rooted = true → (climb rooted directories).getLast? = some [] := by
    rintro directories hroot rfl
    exact getLast?_climb (hroot rfl)
  fun_induction walk? rooted directories segments with
  | case1 directories => exact hjoin hd rfl hroot (Option.some.inj h)
  | case2 directories => exact hjoin hd rfl hroot (Option.some.inj h)
  | case3 directories => exact hjoin (segments_climb hd) rfl (hclimb hroot) (Option.some.inj h)
  | case4 directories last => exact hjoin hd (hs last (by simp)) hroot (Option.some.inj h)
  | case5 directories rest hne ih =>
    obtain ⟨directories', henter, h⟩ := Option.bind_eq_some_iff.mp h
    unfold enter? at henter
    split at henter
    · cases henter
    · cases henter
      exact ih _ hd (fun s hs' => hs s (List.mem_cons_of_mem _ hs')) hroot h
  | case6 directories rest hne hdots ih =>
    obtain ⟨directories', henter, h⟩ := Option.bind_eq_some_iff.mp h
    unfold enter? at henter
    split at henter
    · cases henter
    · cases henter
      exact ih _ (segments_climb hd) (fun s hs' => hs s (List.mem_cons_of_mem _ hs')) (hclimb hroot) h
  | case7 directories segment rest hne hdot hdots ih =>
    obtain ⟨hsegment, hs⟩ := List.forall_mem_cons.mp hs
    refine ih (List.forall_mem_cons.mpr ⟨hsegment, hd⟩) hs (fun hr => ?_) h
    rw [List.getLast?_cons, hroot hr]
    rfl

/-- The fields of a path from the root. -/
theorem fields_of_head? (h : path.head? = some '/') :
    ∃ first others, fields '/' path = [] :: first :: others := by
  obtain ⟨rest, rfl⟩ := List.head?_eq_some_iff.mp h
  obtain ⟨first, others, hfields⟩ := List.exists_cons_of_ne_nil (fields_ne_nil '/' rest)
  exact ⟨first, others, by rw [fields, if_pos rfl, hfields]⟩

theorem segments_directories (h : base.toReference.Delimited) : Segments base.directories := by
  unfold Uri.directories
  split
  · simp [Segments, UriChar.escaped]
  · intro segment hs
    exact segments_fields h.path segment (List.dropLast_subset _ (List.mem_reverse.mp hs))

theorem getLast?_directories (h : base.toReference.Delimited) (hroot : base.authority.isSome = true) :
    base.directories.getLast? = some [] := by
  unfold Uri.directories
  split
  · rfl
  · next hpath =>
    have hhead : base.path.head? = some '/' := by
      refine (h.rooted hroot).resolve_left fun hnil => hpath ?_
      have hnil' : base.path = [] := hnil
      simp [hroot, hnil']
    obtain ⟨first, others, hfields⟩ := fields_of_head? hhead
    rw [hfields]
    simp

theorem mergePath?_spec {merged : List Char} (hb : base.toReference.Delimited)
    (hp : UriChar.escaped UriChar.isPath path = true) (h : base.mergePath? path = some merged) :
    UriChar.escaped UriChar.isPath merged = true ∧ (base.authority.isSome = true → merged.head? = some '/') ∧
      readsAsAuthority base.authority.isSome merged = false := by
  obtain ⟨hwalk, hauthority⟩ := Option.filter_eq_some_iff.mp h
  have hauthority : readsAsAuthority base.authority.isSome merged = false := by simpa using hauthority
  have hfields := segments_fields hp
  split at hwalk
  · next hhead =>
    obtain ⟨first, others, heq⟩ := fields_of_head? hhead
    rw [heq] at hwalk hfields
    have hwalk : walk? base.authority.isSome [[]] (first :: others) = some merged := hwalk
    obtain ⟨hescaped, hhead⟩ :=
      walk?_spec (by simp [Segments, UriChar.escaped]) (List.forall_mem_cons.mp hfields).2 (fun _ => rfl) hwalk
    exact ⟨hescaped, hhead, hauthority⟩
  · obtain ⟨hescaped, hhead⟩ := walk?_spec (segments_directories hb) hfields (getLast?_directories hb) hwalk
    exact ⟨hescaped, hhead, hauthority⟩

/-! ### References against a readable base -/

theorem Readable.merge? (hb : base.Readable) (hr : r.Delimited) (h : base.merge? r = some u) : u.Readable := by
  have hb := readable_iff.1 hb
  unfold Uri.merge? at h
  split at h
  · cases h
    exact readable_iff.2 ⟨hb.scheme, hr.authority, hr.path, hr.rooted, hr.unrooted, hr.query, hr.fragment⟩
  · split at h
    · cases h
      refine readable_iff.2 ⟨hb.scheme, hb.authority, hb.path, hb.rooted, hb.unrooted, fun query hq => ?_, hr.fragment⟩
      cases hrq : r.query with
      | some query' =>
        rw [hrq] at hq
        exact hr.query query (hrq.trans hq)
      | none =>
        rw [hrq] at hq
        exact hb.query query hq
    · obtain ⟨path, hpath, rfl⟩ := Option.map_eq_some_iff.mp h
      obtain ⟨hescaped, hrooted, hunrooted⟩ := mergePath?_spec hb hr.path hpath
      exact readable_iff.2 ⟨hb.scheme, hb.authority, hescaped, fun ha => .inr (hrooted ha), hunrooted, hr.query,
        hr.fragment⟩

/-- **A reference that was read gives a readable URI against a readable base.** -/
theorem Readable.resolve (hb : base.Readable) (hr : r.Delimited) (h : base.resolve r = .ok u) : u.Readable := by
  unfold Uri.resolve at h
  split at h
  · next u' hu' =>
    cases h
    rw [eq_toReference_of_toUri? hu'] at hr
    exact readable_iff.2 hr
  · split at h
    · split at h
      · cases h
        obtain ⟨hscheme, hauthority, hpath, hrooted, hunrooted, hquery, -⟩ := readable_iff.1 hb
        exact readable_iff.2 ⟨hscheme, hauthority, hpath, hrooted, hunrooted, hquery, hr.fragment⟩
      · cases h
    · split at h
      · next u' hu' =>
        cases h
        exact hb.merge? hr hu'
      · cases h

end Uri

end JsonSchema
