import JsonSchema.Document
import JsonSchema.Pointer.Fragment
import JsonSchema.Proofs.UriText

/-!
Pointers and their texts. A pointer is what its text is read as, and what is read as a pointer is its text
(`Pointer.parse_eq_ok_iff`): a slash before each atom, and every tilde in an escape (`Pointer.EscapesTilde`). The
fragment of a pointer is ASCII, and reads as the pointer again. So two pointers with one text are the same.

An atom is read in one pass. The two replacements, of all `~1` and then of all `~0`, give the same
(`Pointer.replaceEscapes_of_unescape?`); in the other order `~01` would be read as a slash.
-/

namespace JsonSchema

open Text

/-! ### Fields -/

namespace Text

variable {separator : Char} {field : List Char}

theorem fields_of_not_mem (h : separator ∉ field) : fields separator field = [field] := by
  induction field with
  | nil => rfl
  | cons c rest ih =>
    obtain ⟨hc, hrest⟩ : separator ≠ c ∧ separator ∉ rest := by simpa using h
    rw [fields_cons_of_ne hc.symm, ih hrest]
    rfl

theorem fields_append_cons (h : separator ∉ field) (rest : List Char) :
    fields separator (field ++ separator :: rest) = field :: fields separator rest := by
  induction field with
  | nil => rw [List.nil_append, fields, if_pos rfl]
  | cons c field ih =>
    obtain ⟨hc, hfield⟩ : separator ≠ c ∧ separator ∉ field := by simpa using h
    rw [List.cons_append, fields_cons_of_ne hc.symm, ih hfield]
    rfl

/-- Fields that hold no separator are found again in the list they are joined to. -/
theorem fields_join {others : List (List Char)} (h : ∀ f ∈ field :: others, separator ∉ f) :
    fields separator (field ++ others.flatMap (separator :: ·)) = field :: others := by
  induction others generalizing field with
  | nil => simpa using fields_of_not_mem (h field List.mem_cons_self)
  | cons next others ih =>
    rw [List.forall_mem_cons] at h
    rw [List.flatMap_cons, List.cons_append, fields_append_cons h.1, ih h.2]

/-- The fields with the separators before them are the list again. -/
theorem flatMap_fields (separator : Char) (chars : List Char) :
    (fields separator chars).flatMap (separator :: ·) = separator :: chars := by
  induction chars with
  | nil => rfl
  | cons c rest ih =>
    by_cases hc : c = separator
    · rw [fields, if_pos hc, List.flatMap_cons, ih, hc]
      rfl
    · obtain ⟨first, others, hfields⟩ := List.exists_cons_of_ne_nil (fields_ne_nil separator rest)
      rw [hfields, List.flatMap_cons, List.cons_append, List.cons.injEq] at ih
      rw [fields_cons_of_ne hc, hfields, List.modifyHead_cons, List.flatMap_cons, List.cons_append,
        List.cons_append, ih.2]

theorem not_mem_of_mem_fields {chars : List Char} (h : field ∈ fields separator chars) : separator ∉ field := by
  induction chars generalizing field with
  | nil => simp_all [fields]
  | cons c rest ih =>
    by_cases hc : c = separator
    · rw [fields, if_pos hc, List.mem_cons] at h
      exact h.elim (fun heq => by simp [heq]) ih
    · obtain ⟨first, others, hfields⟩ := List.exists_cons_of_ne_nil (fields_ne_nil separator rest)
      rw [fields_cons_of_ne hc, hfields, List.modifyHead_cons, List.mem_cons] at h
      rw [hfields] at ih
      rcases h with rfl | h
      · simpa [Ne.symm hc] using ih List.mem_cons_self
      · exact ih (List.mem_cons_of_mem _ h)

/-- Cutting is the only way to undo joining. -/
theorem join_eq_iff {all : List (List Char)} {rest : List Char} (h : ∀ f ∈ all, separator ∉ f) :
    all.flatMap (separator :: ·) = separator :: rest ↔ all = fields separator rest := by
  constructor
  · intro heq
    cases all with
    | nil => simp at heq
    | cons first others =>
      rw [List.flatMap_cons, List.cons_append, List.cons.injEq] at heq
      rw [← heq.2, fields_join h]
  · rintro rfl
    exact flatMap_fields separator rest

/-- Replaces two characters in a row by one, from left to right. -/
def replacePair (a b c : Char) : List Char → List Char
  | x :: y :: rest =>
    if x = a ∧ y = b then c :: replacePair a b c rest else x :: replacePair a b c (y :: rest)
  | rest => rest

theorem replacePair_cons_of_ne {a b c x : Char} (h : x ≠ a) (rest : List Char) :
    replacePair a b c (x :: rest) = x :: replacePair a b c rest := by
  cases rest with
  | nil => rfl
  | cons y rest => rw [replacePair, if_neg fun hpair => h hpair.1]

end Text

namespace Pointer

/-! ### Escapes of an atom -/

variable {l m : List Char}

/-- Every tilde is followed by a zero or by a one. -/
def EscapesTilde (chars : List Char) : Prop :=
  ∀ before after, chars = before ++ '~' :: after → after.head? = some '0' ∨ after.head? = some '1'

theorem escapesTilde_nil : EscapesTilde [] := by
  intro before after h
  simp at h

theorem escapesTilde_cons {c : Char} :
    EscapesTilde (c :: l) ↔ (c = '~' → l.head? = some '0' ∨ l.head? = some '1') ∧ EscapesTilde l := by
  constructor
  · intro h
    exact ⟨fun hc => h [] l (by rw [hc]; rfl), fun before after hl => h (c :: before) after (by rw [hl]; rfl)⟩
  · rintro ⟨hc, hl⟩ before after heq
    cases before with
    | nil =>
      obtain ⟨rfl, rfl⟩ := List.cons.inj heq
      exact hc rfl
    | cons d before => exact hl before after (List.cons.inj heq).2

/-- A tilde before a slash stands in no escape, so the parts around a slash are looked at apart. -/
theorem escapesTilde_append_slash :
    EscapesTilde (l ++ '/' :: m) ↔ EscapesTilde l ∧ EscapesTilde m := by
  induction l with
  | nil => simp [escapesTilde_cons, escapesTilde_nil]
  | cons c l ih =>
    rw [List.cons_append, escapesTilde_cons, escapesTilde_cons, ih, and_assoc]
    cases l with
    | nil => simp
    | cons d l => rfl

theorem escapesTilde_join {others : List (List Char)} :
    EscapesTilde (l ++ others.flatMap ('/' :: ·)) ↔ ∀ field ∈ l :: others, EscapesTilde field := by
  induction others generalizing l with
  | nil => simp
  | cons next others ih =>
    rw [List.flatMap_cons, List.cons_append, escapesTilde_append_slash, ih]
    exact List.forall_mem_cons.symm

theorem escapesTilde_fields : (∀ field ∈ fields '/' l, EscapesTilde field) ↔ EscapesTilde l := by
  obtain ⟨first, others, hfields⟩ := List.exists_cons_of_ne_nil (fields_ne_nil '/' l)
  have hjoin := flatMap_fields '/' l
  rw [hfields, List.flatMap_cons, List.cons_append, List.cons.injEq] at hjoin
  rw [hfields, ← hjoin.2, escapesTilde_join]

/-! ### Reading atoms -/

theorem escapeChar_of_ne {c : Char} (htilde : c ≠ '~') (hslash : c ≠ '/') : escapeChar c = [c] := by
  rw [escapeChar, if_neg htilde, if_neg hslash]

theorem escape_cons (c : Char) (atom : List Char) : escape (c :: atom) = escapeChar c ++ escape atom :=
  List.flatMap_cons

theorem slash_not_mem_escape (atom : List Char) : '/' ∉ escape atom := by
  induction atom with
  | nil => exact List.not_mem_nil
  | cons c atom ih =>
    rw [escape_cons, List.mem_append, not_or]
    refine ⟨?_, ih⟩
    by_cases htilde : c = '~'
    · simp [escapeChar, htilde]
    · by_cases hslash : c = '/'
      · simp [escapeChar, hslash]
      · simp [escapeChar_of_ne htilde hslash, Ne.symm hslash]

theorem unescape?_cons_of_ne {c : Char} (h : c ≠ '~') (rest : List Char) :
    unescape? (c :: rest) = (unescape? rest).map (c :: ·) := by
  rw [unescape?.eq_4 _ _ (fun _ heq _ => h heq) (fun _ heq _ => h heq), if_neg h]

theorem unescape?_escape (atom : List Char) : unescape? (escape atom) = some atom := by
  induction atom with
  | nil => rfl
  | cons c atom ih =>
    rw [escape_cons]
    by_cases htilde : c = '~'
    · simp [escapeChar, unescape?, ih, htilde]
    · by_cases hslash : c = '/'
      · simp [escapeChar, unescape?, ih, hslash]
      · rw [escapeChar_of_ne htilde hslash, List.singleton_append, unescape?_cons_of_ne htilde, ih]
        rfl

/-- An atom has one written form. -/
theorem escape_of_unescape? (h : unescape? l = some m) (hslash : '/' ∉ l) : escape m = l := by
  fun_induction unescape? l generalizing m with
  | case1 => simp_all [escape]
  | case2 rest ih =>
    obtain ⟨atom, hatom, rfl⟩ := Option.map_eq_some_iff.mp h
    exact congrArg (['~', '0'] ++ ·) (ih hatom (by simp_all))
  | case3 rest ih =>
    obtain ⟨atom, hatom, rfl⟩ := Option.map_eq_some_iff.mp h
    exact congrArg (['~', '1'] ++ ·) (ih hatom (by simp_all))
  | case4 => cases h
  | case5 c rest _ _ htilde ih =>
    obtain ⟨atom, hatom, rfl⟩ := Option.map_eq_some_iff.mp h
    obtain ⟨hc, hrest⟩ : '/' ≠ c ∧ '/' ∉ rest := by simpa using hslash
    rw [escape_cons, escapeChar_of_ne htilde hc.symm, ih hatom hrest, List.singleton_append]

theorem unescape?_isSome : (unescape? l).isSome ↔ EscapesTilde l := by
  fun_induction unescape? l with
  | case1 => simp [escapesTilde_nil]
  | case2 rest ih => simp [escapesTilde_cons, ih]
  | case3 rest ih => simp [escapesTilde_cons, ih]
  | case4 rest hzero hone =>
    have hhead : ¬ (rest.head? = some '0' ∨ rest.head? = some '1') := by
      cases rest with
      | nil => simp
      | cons d rest =>
        rw [List.head?_cons, Option.some.injEq, Option.some.injEq]
        rintro (rfl | rfl)
        · exact hzero rest rfl rfl
        · exact hone rest rfl rfl
    simp [escapesTilde_cons, hhead]
  | case5 c rest _ _ htilde ih => simp [escapesTilde_cons, htilde, ih]

/-- All `~1` replaced by a slash, then all `~0` by a tilde. -/
def replaceEscapes (chars : List Char) : List Char := replacePair '~' '0' '~' (replacePair '~' '1' '/' chars)

/-- A tilde that stands for `~0` is no part of a pair that the first replacement looks for. -/
theorem replaceEscapes_of_unescape? (h : unescape? l = some m) : replaceEscapes l = m := by
  unfold replaceEscapes
  fun_induction unescape? l generalizing m with
  | case1 => simp_all [replacePair]
  | case2 rest ih =>
    obtain ⟨atom, hatom, rfl⟩ := Option.map_eq_some_iff.mp h
    have hzero : ∀ chars, replacePair '~' '1' '/' ('0' :: chars) = '0' :: replacePair '~' '1' '/' chars :=
      replacePair_cons_of_ne (by decide)
    rw [← ih hatom, replacePair, if_neg (by decide), hzero, replacePair, if_pos ⟨rfl, rfl⟩]
  | case3 rest ih =>
    obtain ⟨atom, hatom, rfl⟩ := Option.map_eq_some_iff.mp h
    rw [← ih hatom, replacePair, if_pos ⟨rfl, rfl⟩, replacePair_cons_of_ne (by decide)]
  | case4 => cases h
  | case5 c rest _ _ htilde ih =>
    obtain ⟨atom, hatom, rfl⟩ := Option.map_eq_some_iff.mp h
    rw [← ih hatom, replacePair_cons_of_ne htilde, replacePair_cons_of_ne htilde]

theorem unescape?_eq_some_iff_replace : unescape? l = some m ↔ EscapesTilde l ∧ replaceEscapes l = m := by
  constructor
  · intro h
    exact ⟨unescape?_isSome.mp (Option.isSome_of_eq_some h), replaceEscapes_of_unescape? h⟩
  · rintro ⟨htilde, rfl⟩
    obtain ⟨atom, hatom⟩ := Option.isSome_iff_exists.mp (unescape?_isSome.mpr htilde)
    rw [hatom, replaceEscapes_of_unescape? hatom]

theorem unescape?_eq_some_iff (hslash : '/' ∉ l) : unescape? l = some m ↔ escape m = l :=
  ⟨fun h => escape_of_unescape? h hslash, fun h => h ▸ unescape?_escape m⟩

variable {written atoms : List (List Char)}

theorem mapM_unescape?_eq_some_iff (h : ∀ field ∈ written, '/' ∉ field) :
    written.mapM unescape? = some atoms ↔ atoms.map escape = written := by
  induction written generalizing atoms with
  | nil => simp [eq_comm]
  | cons field written ih =>
    rw [List.forall_mem_cons] at h
    simp only [List.mapM_cons, Option.bind_eq_bind, Option.bind_eq_some_iff, unescape?_eq_some_iff h.1, ih h.2,
      Option.pure_def, Option.some.injEq, List.map_eq_cons_iff]
    exact ⟨fun ⟨a, ha, as, has, heq⟩ => ⟨a, as, heq.symm, ha, has⟩,
      fun ⟨a, as, heq, ha, has⟩ => ⟨a, ha, as, has, heq.symm⟩⟩

theorem mapM_unescape?_eq_some_iff_replace :
    written.mapM unescape? = some atoms ↔
      (∀ field ∈ written, EscapesTilde field) ∧ written.map replaceEscapes = atoms := by
  induction written generalizing atoms with
  | nil => simp [eq_comm]
  | cons field written ih =>
    simp only [List.mapM_cons, Option.bind_eq_bind, Option.bind_eq_some_iff, unescape?_eq_some_iff_replace, ih,
      Option.pure_def, Option.some.injEq, List.forall_mem_cons, List.map_cons]
    constructor
    · rintro ⟨a, ⟨hfield, rfl⟩, as, ⟨hwritten, rfl⟩, rfl⟩
      exact ⟨⟨hfield, hwritten⟩, rfl⟩
    · rintro ⟨⟨hfield, hwritten⟩, rfl⟩
      exact ⟨_, ⟨hfield, rfl⟩, _, ⟨hwritten, rfl⟩, rfl⟩

/-! ### Texts -/

theorem toText_toList (p : Pointer) :
    p.toText.toList = (p.atoms.map fun atom => escape atom.toList).flatMap ('/' :: ·) := by
  rw [toText, String.toList_ofList, chars, List.flatMap_map]

theorem parse_of_slash {text : String} {rest : List Char} (h : text.toList = '/' :: rest) :
    parse text = ((fields '/' rest).mapM unescape?).elim (.error (.invalid text .tilde))
      fun atoms => .ok ⟨atoms.map String.ofList⟩ := by
  simp only [parse, h]
  cases (fields '/' rest).mapM unescape? <;> rfl

/-- Reading a text gives the one pointer with that text, if there is any. -/
theorem parse_eq_ok_iff {p : Pointer} {text : String} : parse text = .ok p ↔ p.toText = text := by
  have hescaped : ∀ field ∈ p.atoms.map fun atom => escape atom.toList, '/' ∉ field := by
    simp only [List.mem_map]
    rintro field ⟨atom, -, rfl⟩
    exact slash_not_mem_escape atom.toList
  rw [← String.toList_inj, toText_toList]
  obtain ⟨atoms⟩ := p
  cases htext : text.toList with
  | nil => cases atoms <;> simp [parse, htext, root]
  | cons c rest =>
    by_cases hc : c = '/'
    · subst hc
      rw [join_eq_iff hescaped, parse_of_slash htext]
      have hfields : ∀ field ∈ fields '/' rest, '/' ∉ field := fun _ => not_mem_of_mem_fields
      have hread : (fields '/' rest).mapM unescape? = some (atoms.map String.toList) ↔
          (atoms.map fun atom => escape atom.toList) = fields '/' rest := by
        rw [mapM_unescape?_eq_some_iff hfields, List.map_map]
        rfl
      refine Iff.trans ?_ hread
      cases hfields : (fields '/' rest).mapM unescape? with
      | none => simp
      | some read =>
        simp only [Option.elim_some, Except.ok.injEq, Pointer.mk.injEq, Option.some.injEq]
        constructor <;> rintro rfl <;> simp [Function.comp_def]
    · cases atoms <;> simp [parse, htext, hc, Ne.symm hc]

/-- What a text is read as: nothing, or the fields after the first slash with their escapes replaced. -/
theorem parse_eq_ok_iff_replace {p : Pointer} {text : String} :
    parse text = .ok p ↔
      text.toList = [] ∧ p = root ∨
      ∃ rest, text.toList = '/' :: rest ∧ EscapesTilde rest ∧
        p = ⟨(fields '/' rest).map fun atom => String.ofList (replaceEscapes atom)⟩ := by
  cases htext : text.toList with
  | nil => simp [parse, htext, eq_comm]
  | cons c rest =>
    by_cases hc : c = '/'
    · subst hc
      have hread : ∀ read, (fields '/' rest).mapM unescape? = some read ↔
          EscapesTilde rest ∧ (fields '/' rest).map replaceEscapes = read := fun read => by
        rw [mapM_unescape?_eq_some_iff_replace, escapesTilde_fields]
      rw [parse_of_slash htext]
      cases hfields : (fields '/' rest).mapM unescape? with
      | none =>
        have htilde : ¬ EscapesTilde rest := fun h => by simp [(hread _).mpr ⟨h, rfl⟩] at hfields
        simp [htilde]
      | some read =>
        obtain ⟨htilde, rfl⟩ := (hread read).mp hfields
        simp [htilde, eq_comm, Function.comp_def]
    · simp [parse, htext, hc]

/-- A text is read exactly if it is empty, or begins with a slash and has tildes in escapes only. -/
theorem parse_accepts {text : String} :
    (∃ p, parse text = .ok p) ↔
      text.toList = [] ∨ text.toList.head? = some '/' ∧ EscapesTilde text.toList := by
  simp only [parse_eq_ok_iff_replace]
  constructor
  · rintro ⟨p, ⟨hempty, -⟩ | ⟨rest, htext, htilde, -⟩⟩
    · exact .inl hempty
    · rw [htext]
      exact .inr ⟨rfl, escapesTilde_cons.mpr ⟨by simp, htilde⟩⟩
  · rintro (hempty | ⟨hhead, htilde⟩)
    · exact ⟨root, .inl ⟨hempty, rfl⟩⟩
    · obtain ⟨rest, htext⟩ := List.head?_eq_some_iff.mp hhead
      rw [htext, escapesTilde_cons] at htilde
      exact ⟨_, .inr ⟨rest, htext, htilde.2, rfl⟩⟩

end Pointer

/-! ### Fragments -/

namespace UriChar

/-- A character that stands for itself in a fragment of ASCII characters. -/
def isAsciiFragment (c : Char) : Bool := c.toNat < 128 && isFragment c

theorem isFragment_of_isAlphanum {c : Char} (h : c.isAlphanum = true) : isFragment c = true := by
  simp [isFragment, isPath, isName, isUnreserved, isAsciiUnreserved, h]

end UriChar

namespace Pointer

open UriChar

/-! #### Bytes of ASCII characters -/

/-- The byte of an ASCII character. -/
def asciiByte (c : Char) : UInt8 := UInt8.ofNat c.toNat

theorem toNat_charOfByte {b : UInt8} (h : b < 128) : (Char.ofNat b.toNat).toNat = b.toNat := by
  have hlt : b.toNat < 128 := UInt8.lt_iff_toNat_lt.mp h
  have hvalid : b.toNat.isValidChar := .inl (by omega)
  rw [Char.ofNat, dif_pos hvalid]
  rfl

theorem asciiByte_ofNat {b : UInt8} (h : b < 128) : asciiByte (Char.ofNat b.toNat) = b := by
  rw [asciiByte, toNat_charOfByte h, UInt8.ofNat_toNat]

theorem utf8EncodeChar_ascii {c : Char} (h : c.toNat < 128) : String.utf8EncodeChar c = [asciiByte c] := by
  rw [String.utf8EncodeChar, if_pos (Nat.le_of_lt_succ h : c.val.toNat ≤ 127)]
  rfl

theorem bytes_ascii {l : List Char} (h : ∀ c ∈ l, c.toNat < 128) : bytes (String.ofList l) = l.map asciiByte := by
  have hbytes : bytes (String.ofList l) = l.flatMap String.utf8EncodeChar := by simp [bytes, List.utf8Encode]
  rw [hbytes]
  clear hbytes
  induction l with
  | nil => rfl
  | cons c l ih =>
    rw [List.forall_mem_cons] at h
    rw [List.flatMap_cons, utf8EncodeChar_ascii h.1, ih h.2]
    rfl

theorem fromUTF8?_bytes (text : String) : String.fromUTF8? ⟨(bytes text).toArray⟩ = some text := by
  have hbytes : (⟨(bytes text).toArray⟩ : ByteArray) = text.toByteArray := by simp [bytes]
  rw [hbytes, String.fromUTF8?, dif_pos text.isValidUTF8]
  rfl

/-! #### Digits -/

theorem isHexDigit_hexDigit {n : Nat} (h : n < 16) : Text.isHexDigit (hexDigit n) = true := by
  decide +revert

theorem hexDigit_toNat_lt {n : Nat} (h : n < 16) : (hexDigit n).toNat < 128 := by
  decide +revert

theorem hexValue?_hexDigit {n : Nat} (h : n < 16) : hexValue? (asciiByte (hexDigit n)) = some n := by
  decide +revert

theorem asciiByte_hexDigit_ne_plus {n : Nat} (h : n < 16) : asciiByte (hexDigit n) ≠ 43 := by
  decide +revert

theorem percentPair?_hexDigits (b : UInt8) :
    percentPair? (asciiByte (hexDigit (b.toNat / 16))) (asciiByte (hexDigit (b.toNat % 16))) = some b := by
  have hb := b.toNat_lt
  have hhigh : b.toNat / 16 < 16 := by omega
  have hlow : b.toNat % 16 < 16 := by omega
  have hvalue : 16 * (b.toNat / 16) + b.toNat % 16 = b.toNat := by omega
  have hpair : percentPair? (asciiByte (hexDigit (b.toNat / 16))) (asciiByte (hexDigit (b.toNat % 16))) =
      some (UInt8.ofNat (16 * (b.toNat / 16) + b.toNat % 16)) := by
    simp only [percentPair?, hexValue?_hexDigit hhigh, hexValue?_hexDigit hlow,
      if_neg (asciiByte_hexDigit_ne_plus hhigh)]
    rfl
  rw [hpair, hvalue, UInt8.ofNat_toNat]

/-! #### One byte -/

theorem isFragmentByte_lt {b : UInt8} (h : isFragmentByte b = true) : b < 128 := by
  simp only [isFragmentByte, Bool.and_eq_true, decide_eq_true_eq] at h
  exact h.1

theorem not_isFragmentByte_percent : isFragmentByte 37 = false := by decide

theorem toNat_lt_of_mem_percentEncodeByte {b : UInt8} : ∀ c ∈ percentEncodeByte b, c.toNat < 128 := by
  have hb := b.toNat_lt
  unfold percentEncodeByte
  split
  · next hself =>
    have hlt := isFragmentByte_lt hself
    simpa [toNat_charOfByte hlt] using UInt8.lt_iff_toNat_lt.mp hlt
  · simp only [List.forall_mem_cons]
    exact ⟨by decide, hexDigit_toNat_lt (by omega), hexDigit_toNat_lt (by omega), by simp⟩

/-- What a byte is written as is read as this byte, whatever follows. -/
theorem percentDecode?_percentEncodeByte (b : UInt8) (rest : List UInt8) :
    percentDecode? ((percentEncodeByte b).map asciiByte ++ rest) = (percentDecode? rest).map (b :: ·) := by
  unfold percentEncodeByte
  split
  · next hself =>
    have hne : b ≠ 37 := fun heq => by simp [heq, not_isFragmentByte_percent] at hself
    simp only [List.map_cons, List.map_nil, List.cons_append, List.nil_append,
      asciiByte_ofNat (isFragmentByte_lt hself)]
    rw [percentDecode?.eq_def]
    simp only [if_neg hne]
  · have hpercent : asciiByte '%' = 37 := rfl
    simp only [List.map_cons, List.map_nil, List.cons_append, List.nil_append, hpercent]
    rw [percentDecode?, if_pos rfl]
    simp [percentPair?_hexDigits]

theorem percentDecode?_flatMap (l : List UInt8) :
    percentDecode? ((l.flatMap percentEncodeByte).map asciiByte) = some l := by
  induction l with
  | nil => rfl
  | cons b l ih => rw [List.flatMap_cons, List.map_append, percentDecode?_percentEncodeByte, ih]; rfl

theorem bytes_toFragment (p : Pointer) :
    bytes p.toFragment = ((bytes p.toText).flatMap percentEncodeByte).map asciiByte := by
  refine bytes_ascii fun c hc => ?_
  obtain ⟨b, -, hb⟩ := List.mem_flatMap.mp hc
  exact toNat_lt_of_mem_percentEncodeByte c hb

theorem isAsciiFragment_of_isFragmentByte {b : UInt8} (h : isFragmentByte b = true) :
    isAsciiFragment (Char.ofNat b.toNat) = true := by
  have hlt := isFragmentByte_lt h
  have hascii : (Char.ofNat b.toNat).toNat < 128 := by
    rw [toNat_charOfByte hlt]
    exact UInt8.lt_iff_toNat_lt.mp hlt
  have hsigns : ∀ c ∈ "-._~!$&'()*+,;=:@/?".toList, isFragment c = true := List.all_eq_true.mp (by decide)
  simp only [isFragmentByte, Bool.and_eq_true, Bool.or_eq_true, List.contains_iff_mem] at h
  rw [isAsciiFragment, decide_eq_true hascii, Bool.true_and]
  exact h.2.elim isFragment_of_isAlphanum (hsigns _)

theorem escaped_percentEncodeByte (b : UInt8) : escaped isAsciiFragment (percentEncodeByte b) = true := by
  have hb := b.toNat_lt
  have hhigh : b.toNat / 16 < 16 := by omega
  have hlow : b.toNat % 16 < 16 := by omega
  unfold percentEncodeByte
  split
  · next hself =>
    have hne : Char.ofNat b.toNat ≠ '%' := fun heq => by
      have := asciiByte_ofNat (isFragmentByte_lt hself)
      rw [heq] at this
      rw [← this] at hself
      exact absurd hself (by decide)
    rw [escaped_cons hne, isAsciiFragment_of_isFragmentByte hself]
    rfl
  · simp [escaped, isHexDigit_hexDigit hhigh, isHexDigit_hexDigit hlow]

theorem escaped_toFragment (p : Pointer) : escaped isAsciiFragment p.toFragment.toList = true := by
  rw [toFragment, String.toList_ofList]
  induction bytes p.toText with
  | nil => rfl
  | cons b l ih => exact escaped_append (escaped_percentEncodeByte b) ih

theorem ofFragment_toFragment (p : Pointer) : ofFragment p.toFragment = .ok p := by
  rw [ofFragment, bytes_toFragment, percentDecode?_flatMap]
  simp only [fromUTF8?_bytes]
  exact parse_eq_ok_iff.mpr rfl

theorem toText_injective : Function.Injective toText := fun _ _ h =>
  Except.ok.inj ((parse_eq_ok_iff.mpr h).symm.trans (parse_eq_ok_iff.mpr rfl))

theorem toFragment_injective : Function.Injective toFragment := fun p q h =>
  Except.ok.inj ((ofFragment_toFragment p).symm.trans (h ▸ ofFragment_toFragment q))

end Pointer

/-! ### Places -/

/-- The two texts by which a place is told apart from others. -/
def Location.texts (place : Location) : Option String × String := ⟨place.document?, place.pointer.toText⟩

theorem Location.texts_injective : Function.Injective Location.texts := by
  rintro ⟨document?, p⟩ ⟨other?, q⟩ h
  obtain ⟨hdocument, htext⟩ := Prod.mk.inj h
  rw [Location.mk.injEq]
  exact ⟨hdocument, Pointer.toText_injective htext⟩

namespace Pointer

/-- A pointer and its texts determine each other. A text is read as a pointer exactly if it is the text of this
pointer, and so every text that is read is written back; the fragment of a pointer is read as the pointer, and is made
of ASCII characters that a fragment allows and of percent signs with two hexadecimal digits. What is read are the empty
text and the texts that begin with a slash in which a zero or a one follows every tilde. So no two pointers share a
text or a fragment, and no two places share their texts. -/
theorem texts_exact (p : Pointer) (text : String) :
    (parse text = .ok p ↔ p.toText = text) ∧
    ofFragment p.toFragment = .ok p ∧
    UriChar.escaped UriChar.isAsciiFragment p.toFragment.toList = true ∧
    ((∃ q, parse text = .ok q) ↔
      text = "" ∨ text.toList.head? = some '/' ∧ EscapesTilde text.toList) ∧
    Function.Injective toText ∧ Function.Injective toFragment ∧ Function.Injective Location.texts := by
  refine ⟨parse_eq_ok_iff, ofFragment_toFragment p, escaped_toFragment p, ?_, toText_injective,
    toFragment_injective, Location.texts_injective⟩
  rw [parse_accepts, String.toList_eq_nil_iff]

/-- The tilde of `~01` is read before the digits after it, and empty atoms count. -/
example : (parse "/~01//ü").toOption = some ⟨["~1", "", "ü"]⟩ ∧ toFragment ⟨["~1", "", "ü"]⟩ = "/~01//%C3%BC" := by
  decide +kernel

end Pointer

end JsonSchema
