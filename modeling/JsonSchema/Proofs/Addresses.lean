import JsonSchema.Format
import JsonSchema.Proofs.PointerText
import Mathlib.Data.String.Basic

/-!
The formats of host names and of mail addresses against their grammars. A host name is a list of labels with a point
between each two (`IsHostName`), a mail address is a list of atoms, the sign `@` and a host name (`IsMailAddress`). The
grammars are given by their rules (`IsPointed`) and not by cutting strings; sizes are in bytes, which are as many as
characters wherever the rest of the grammar holds.

A host name may have a final point, and as the domain of a mail address is checked as a host name is, this may have one,
too. So of both formats the strings of the grammar are accepted, and those with a point behind them, and nothing else
(`Format.accepts_addresses`).
-/

namespace JsonSchema

open Text

/-! ### Grammars -/

/-- A letter or a digit of ASCII. -/
def IsLetterOrDigit (c : Char) : Prop := 'A' ≤ c ∧ c ≤ 'Z' ∨ 'a' ≤ c ∧ c ≤ 'z' ∨ '0' ≤ c ∧ c ≤ '9'

instance : DecidablePred IsLetterOrDigit := fun _ => inferInstanceAs (Decidable (_ ∨ _))

/-- A label of a host name: up to 63 letters, digits and hyphens, with no hyphen at either end. -/
structure IsHostLabel (label : List Char) : Prop where
  pos : 1 ≤ label.length
  le : label.length ≤ 63
  chars : ∀ c ∈ label, IsLetterOrDigit c ∨ c = '-'
  head : label.head? ≠ some '-'
  last : label.getLast? ≠ some '-'

/-- The signs that need no quotes in a mail address. -/
def atomSigns : List Char := "!#$%&'*+-/=?^_\x60\x7b|\x7d~".toList

/-- An atom of a mail address: letters, digits and signs. -/
structure IsAtom (atom : List Char) : Prop where
  ne_nil : atom ≠ []
  chars : ∀ c ∈ atom, IsLetterOrDigit c ∨ c ∈ atomSigns

/-- One part of a kind or more, with a point between each two. -/
inductive IsPointed (P : List Char → Prop) : List Char → Prop
  | part {part : List Char} : P part → IsPointed P part
  | more {part rest : List Char} : P part → IsPointed P rest → IsPointed P (part ++ '.' :: rest)

/-- A host name: labels between points, in 1 to 253 bytes. -/
structure IsHostName (name : String) : Prop where
  pos : 1 ≤ name.utf8ByteSize
  le : name.utf8ByteSize ≤ 253
  labels : IsPointed IsHostLabel name.toList

/-- A mail address: atoms between points, in up to 64 bytes, and a host name. -/
def IsMailAddress (address : String) : Prop :=
  ∃ name domain : String, address = name ++ "@" ++ domain ∧
    name.utf8ByteSize ≤ 64 ∧ IsPointed IsAtom name.toList ∧ IsHostName domain

/-! ### Cutting at the last sign -/

theorem Text.cutLast_eq_some_iff {separator : Char} {chars before after : List Char} :
    cutLast separator chars = some (before, after) ↔ chars = before ++ separator :: after ∧ separator ∉ after := by
  unfold cutLast
  constructor
  · intro h
    have happend := append_cut separator chars.reverse
    have hnot := not_mem_cut separator chars.reverse
    split at h
    · cases h
    · next last rest hcut =>
      cases h
      rw [hcut] at happend hnot
      refine ⟨?_, fun hmem => hnot (List.mem_reverse.mp hmem)⟩
      rw [← List.reverse_reverse chars, ← happend]
      simp
  · rintro ⟨rfl, hnot⟩
    have hcut : cut separator (before ++ separator :: after).reverse = (after.reverse, some before.reverse) := by
      rw [← cut_append (fun hmem => hnot (List.mem_reverse.mp hmem)) (some before.reverse)]
      simp
    rw [hcut]
    simp

/-! ### Characters -/

theorem isAlphanum_iff {c : Char} : c.isAlphanum = true ↔ IsLetterOrDigit c := by
  have hupper : c.isUpper = true ↔ 'A' ≤ c ∧ c ≤ 'Z' := decide_eq_true_iff
  have hlower : c.isLower = true ↔ 'a' ≤ c ∧ c ≤ 'z' :=
    Bool.and_eq_true_iff.trans (and_congr decide_eq_true_iff decide_eq_true_iff)
  have hdigit : c.isDigit = true ↔ '0' ≤ c ∧ c ≤ '9' :=
    Bool.and_eq_true_iff.trans (and_congr decide_eq_true_iff decide_eq_true_iff)
  have halpha : c.isAlpha = true ↔ c.isUpper = true ∨ c.isLower = true := Bool.or_eq_true_iff
  calc c.isAlphanum = true
    _ ↔ c.isAlpha = true ∨ c.isDigit = true := Bool.or_eq_true_iff
    _ ↔ IsLetterOrDigit c := by rw [halpha, hupper, hlower, hdigit, or_assoc, IsLetterOrDigit]

theorem IsLetterOrDigit.utf8Size_eq {c : Char} (h : IsLetterOrDigit c) : c.utf8Size = 1 := by
  rw [Char.utf8Size_eq_one_iff]
  rcases h with ⟨-, h⟩ | ⟨-, h⟩ | ⟨-, h⟩ <;> exact UInt32.le_trans h (by decide)

theorem Format.byteLength_toList (text : String) : byteLength text.toList = text.utf8ByteSize := by
  rw [← String.utf8Len_toList]
  generalize text.toList = chars
  induction chars with
  | nil => rfl
  | cons c chars ih => rw [String.utf8Len_cons, ← ih, byteLength, List.foldr_cons, Nat.add_comm, byteLength]

/-- Characters of one byte are as many as their bytes. -/
theorem Format.byteLength_eq_length {chars : List Char} (h : ∀ c ∈ chars, c.utf8Size = 1) :
    byteLength chars = chars.length := by
  induction chars with
  | nil => rfl
  | cons c chars ih =>
    obtain ⟨hc, hchars⟩ := List.forall_mem_cons.mp h
    rw [List.length_cons, ← ih hchars, byteLength, List.foldr_cons, hc, Nat.add_comm, byteLength]

/-! ### Parts between points -/

namespace IsPointed

variable {P : List Char → Prop} {chars : List Char}

theorem join {part : List Char} {others : List (List Char)} (h : ∀ f ∈ part :: others, P f) :
    IsPointed P (part ++ others.flatMap ('.' :: ·)) := by
  induction others generalizing part with
  | nil => simpa using IsPointed.part (h part List.mem_cons_self)
  | cons next others ih =>
    obtain ⟨hpart, hothers⟩ := List.forall_mem_cons.mp h
    exact .more hpart (ih hothers)

/-- The parts are the fields. -/
theorem iff_fields (hP : ∀ part, P part → '.' ∉ part) : IsPointed P chars ↔ ∀ field ∈ fields '.' chars, P field := by
  constructor
  · intro h
    induction h with
    | part hpart => simpa [fields_of_not_mem (hP _ hpart)] using hpart
    | more hpart _ ih =>
      rw [fields_append_cons (hP _ hpart)]
      exact List.forall_mem_cons.mpr ⟨hpart, ih⟩
  · intro h
    obtain ⟨first, others, hfields⟩ := List.exists_cons_of_ne_nil (fields_ne_nil '.' chars)
    have hjoin := flatMap_fields '.' chars
    rw [hfields, List.flatMap_cons, List.cons_append, List.cons.injEq] at hjoin
    rw [← hjoin.2]
    exact join (hfields ▸ h)

/-- What holds of the characters of every part and of the point holds of all characters. -/
theorem forall_mem {Q : Char → Prop} (hP : ∀ part, P part → ∀ c ∈ part, Q c) (hpoint : Q '.') (h : IsPointed P chars) :
    ∀ c ∈ chars, Q c := by
  induction h with
  | part hpart => exact hP _ hpart
  | more hpart _ ih =>
    intro c hc
    rcases List.mem_append.mp hc with hc | hc
    · exact hP _ hpart c hc
    · rcases List.mem_cons.mp hc with rfl | hc
      · exact hpoint
      · exact ih c hc

theorem ne_nil (hP : ∀ part, P part → part ≠ []) (h : IsPointed P chars) : chars ≠ [] := by
  cases h with
  | part hpart => exact hP _ hpart
  | more => simp

/-- There is no point at the end. -/
theorem getLast?_ne (hnil : ∀ part, P part → part ≠ []) (hP : ∀ part, P part → '.' ∉ part) (h : IsPointed P chars) :
    chars.getLast? ≠ some '.' := by
  induction h with
  | part hpart => exact fun hlast => hP _ hpart (List.mem_of_getLast? hlast)
  | more _ hrest ih =>
    rw [List.getLast?_append_of_ne_nil _ (by simp), List.getLast?_cons_of_ne_nil (hrest.ne_nil hnil)]
    exact ih

end IsPointed

/-! ### Host names -/

namespace IsHostLabel

variable {label : List Char}

theorem ne_nil (h : IsHostLabel label) : label ≠ [] := fun hnil => by simpa [hnil] using h.pos

/-- What holds of letters, digits and the hyphen holds of every character. -/
theorem forall_mem {Q : Char → Prop} (hQ : ∀ c, IsLetterOrDigit c → Q c) (hhyphen : Q '-') (h : IsHostLabel label) :
    ∀ c ∈ label, Q c := by
  intro c hc
  rcases h.chars c hc with hc | rfl
  · exact hQ c hc
  · exact hhyphen

theorem point_not_mem (h : IsHostLabel label) : '.' ∉ label := fun hmem =>
  (h.chars '.' hmem).elim (by decide) (by decide)

/-- The size may be given in bytes. -/
theorem iff_byteLength : IsHostLabel label ↔ label ≠ [] ∧ Format.byteLength label ≤ 63 ∧
    label.head? ≠ some '-' ∧ label.getLast? ≠ some '-' ∧ ∀ c ∈ label, IsLetterOrDigit c ∨ c = '-' := by
  have hsize : (∀ c ∈ label, IsLetterOrDigit c ∨ c = '-') → Format.byteLength label = label.length := fun hchars =>
    Format.byteLength_eq_length fun c hc => by
      rcases hchars c hc with hc | rfl
      · exact hc.utf8Size_eq
      · rfl
  constructor
  · intro h
    exact ⟨h.ne_nil, (hsize h.chars).le.trans h.le, h.head, h.last, h.chars⟩
  · rintro ⟨hne, hle, hhead, hlast, hchars⟩
    exact ⟨List.length_pos_iff.mpr hne, (hsize hchars).symm.le.trans hle, hchars, hhead, hlast⟩

end IsHostLabel

namespace Format

variable {chars : List Char}

theorem isLabel_iff : isLabel chars = true ↔ IsHostLabel chars := by
  have hchars : (chars.all fun c => c.isAlphanum || c == '-') = true ↔ ∀ c ∈ chars, IsLetterOrDigit c ∨ c = '-' := by
    simp only [List.all_eq_true, Bool.or_eq_true, isAlphanum_iff, beq_iff_eq]
  rw [IsHostLabel.iff_byteLength]
  simp only [isLabel, Bool.and_eq_true, hchars, bne_iff_ne, decide_eq_true_eq, Bool.not_eq_true',
    List.isEmpty_eq_false_iff, and_assoc]

end Format

theorem IsPointed.hostLabels_iff {chars : List Char} :
    IsPointed IsHostLabel chars ↔ (fields '.' chars).all Format.isLabel = true := by
  rw [iff_fields fun _ => IsHostLabel.point_not_mem, List.all_eq_true]
  simp only [Format.isLabel_iff]

namespace IsHostName

variable {name : String}

theorem forall_mem {Q : Char → Prop} (hQ : ∀ c, IsLetterOrDigit c → Q c) (hhyphen : Q '-') (hpoint : Q '.')
    (h : IsPointed IsHostLabel name.toList) : ∀ c ∈ name.toList, Q c :=
  h.forall_mem (fun _ hlabel => hlabel.forall_mem hQ hhyphen) hpoint

theorem getLast?_ne (h : IsHostName name) : name.toList.getLast? ≠ some '.' :=
  h.labels.getLast?_ne (fun _ => IsHostLabel.ne_nil) fun _ => IsHostLabel.point_not_mem

theorem sign_not_mem (h : IsHostName name) : '@' ∉ name.toList := by
  have hne : ∀ c ∈ name.toList, c ≠ '@' :=
    forall_mem (fun c hc heq => absurd (heq ▸ hc) (by decide)) (by decide) (by decide) h.labels
  exact fun hmem => hne '@' hmem rfl

theorem iff_byteLength : IsHostName name ↔
    name.toList ≠ [] ∧ Format.byteLength name.toList ≤ 253 ∧ IsPointed IsHostLabel name.toList := by
  have hpos : 1 ≤ name.utf8ByteSize ↔ name.toList ≠ [] := by
    rw [Nat.one_le_iff_ne_zero, ne_eq, String.utf8ByteSize_eq_zero_iff, ← String.toList_eq_nil_iff]
  rw [Format.byteLength_toList, ← hpos]
  exact ⟨fun h => ⟨h.pos, h.le, h.labels⟩, fun ⟨hpos, hle, hlabels⟩ => ⟨hpos, hle, hlabels⟩⟩

end IsHostName

/-- The string is in the grammar, or it is such a string with a point behind it. -/
def WithFinalPoint (P : String → Prop) (text : String) : Prop := P text ∨ ∃ rest, text = rest ++ "." ∧ P rest

namespace Format

theorem isHostname_iff {text : String} : isHostname text.toList = true ↔ WithFinalPoint IsHostName text := by
  have hname : isHostname text.toList = true ↔ IsHostName (String.ofList (withoutFinalPoint text.toList)) := by
    rw [IsHostName.iff_byteLength, String.toList_ofList, IsPointed.hostLabels_iff]
    simp only [isHostname, Bool.and_eq_true, decide_eq_true_eq, Bool.not_eq_true', List.isEmpty_eq_false_iff, and_assoc]
  rw [hname, withoutFinalPoint]
  split
  · next hlast =>
    obtain ⟨rest, hrest⟩ := List.getLast?_eq_some_iff.mp hlast
    have htext : text = String.ofList rest ++ "." := by
      rw [← String.toList_inj, hrest, String.toList_append, String.toList_ofList]
      rfl
    rw [hrest, List.dropLast_concat]
    constructor
    · intro h
      exact .inr ⟨_, htext, h⟩
    · rintro (h | ⟨rest', heq, h⟩)
      · exact absurd hlast h.getLast?_ne
      · rw [htext, String.append_left_inj] at heq
        exact heq ▸ h
  · next hlast =>
    rw [String.ofList_toList]
    constructor
    · exact .inl
    · rintro (h | ⟨rest, rfl, -⟩)
      · exact h
      · exact absurd (by simp) hlast

end Format

/-! ### Mail addresses -/

namespace IsAtom

variable {atom : List Char}

theorem point_not_mem (h : IsAtom atom) : '.' ∉ atom := fun hmem =>
  (h.chars '.' hmem).elim (by decide) (by decide)

end IsAtom

namespace Format

theorem isLocalChar_iff {c : Char} : isLocalChar c = true ↔ c = '.' ∨ IsLetterOrDigit c ∨ c ∈ atomSigns := by
  have hsigns : "!#$%&'*+-/=?^_\x60\x7b|\x7d~.".toList = atomSigns ++ ['.'] := by decide
  rw [isLocalChar, Bool.or_eq_true, isAlphanum_iff, List.contains_iff_mem, hsigns, List.mem_append,
    List.mem_singleton, ← or_assoc, or_comm]

/-- The first field is empty if there is nothing or a point in front. -/
theorem nil_mem_fields_iff :
    [] ∈ fields '.' chars ↔ chars = [] ∨ chars.head? = some '.' ∨ [] ∈ (fields '.' chars).tail := by
  cases chars with
  | nil => simp [fields]
  | cons c rest =>
    by_cases hc : c = '.'
    · simp [fields, hc]
    · obtain ⟨first, others, hfields⟩ := List.exists_cons_of_ne_nil (fields_ne_nil '.' rest)
      simp [fields_cons_of_ne hc, hfields, hc]

theorem hasPointPair_cons {c : Char} : hasPointPair (c :: chars) = true ↔
    c = '.' ∧ chars.head? = some '.' ∨ hasPointPair chars = true := by
  rw [hasPointPair, Bool.or_eq_true, Bool.and_eq_true, beq_iff_eq, beq_iff_eq]

/-- Another field is empty if a point is last or two of them stand side by side. -/
theorem nil_mem_tail_fields_iff :
    [] ∈ (fields '.' chars).tail ↔ chars.getLast? = some '.' ∨ hasPointPair chars = true := by
  induction chars with
  | nil => simp [fields, hasPointPair]
  | cons c rest ih =>
    have hlast : (c :: rest).getLast? = some '.' ↔ c = '.' ∧ rest = [] ∨ rest.getLast? = some '.' := by
      cases rest with
      | nil => simp
      | cons d rest => simp [List.getLast?_cons_cons]
    rw [hlast, hasPointPair_cons]
    by_cases hc : c = '.'
    · have htail : (fields '.' (c :: rest)).tail = fields '.' rest := by rw [fields, if_pos hc, List.tail_cons]
      rw [htail, nil_mem_fields_iff, ih]
      tauto
    · obtain ⟨first, others, hfields⟩ := List.exists_cons_of_ne_nil (fields_ne_nil '.' rest)
      rw [fields_cons_of_ne hc, hfields, List.modifyHead_cons, List.tail_cons]
      rw [hfields, List.tail_cons] at ih
      rw [ih]
      tauto

theorem forall_mem_fields_iff {Q : Char → Prop} :
    (∀ field ∈ fields '.' chars, ∀ c ∈ field, Q c) ↔ ∀ c ∈ chars, c = '.' ∨ Q c := by
  induction chars with
  | nil => simp [fields]
  | cons c rest ih =>
    rw [List.forall_mem_cons, ← ih]
    by_cases hc : c = '.'
    · simp [fields, hc]
    · obtain ⟨first, others, hfields⟩ := List.exists_cons_of_ne_nil (fields_ne_nil '.' rest)
      simp [fields_cons_of_ne hc, hfields, hc, and_assoc]

/-- Atoms have a point between each two if no point is at either end and no two stand side by side. -/
theorem isPointed_isAtom_iff : IsPointed IsAtom chars ↔ chars ≠ [] ∧ chars.head? ≠ some '.' ∧
    chars.getLast? ≠ some '.' ∧ hasPointPair chars = false ∧ ∀ c ∈ chars, isLocalChar c = true := by
  have hatoms : (∀ field ∈ fields '.' chars, IsAtom field) ↔
      [] ∉ fields '.' chars ∧ ∀ field ∈ fields '.' chars, ∀ c ∈ field, IsLetterOrDigit c ∨ c ∈ atomSigns := by
    constructor
    · intro h
      exact ⟨fun hnil => (h [] hnil).ne_nil rfl, fun field hfield => (h field hfield).chars⟩
    · rintro ⟨hnil, hchars⟩ field hfield
      exact ⟨fun heq => hnil (heq ▸ hfield), hchars field hfield⟩
  rw [IsPointed.iff_fields fun _ => IsAtom.point_not_mem, hatoms, nil_mem_fields_iff, nil_mem_tail_fields_iff,
    forall_mem_fields_iff]
  simp only [← isLocalChar_iff, not_or, and_assoc, ne_eq, Bool.not_eq_true]

theorem isLocalPart_iff {name : String} :
    isLocalPart name.toList = true ↔ name.utf8ByteSize ≤ 64 ∧ IsPointed IsAtom name.toList := by
  simp only [isLocalPart, isPointed_isAtom_iff, byteLength_toList, Bool.and_eq_true, decide_eq_true_eq,
    Bool.not_eq_true', List.isEmpty_eq_false_iff, bne_iff_ne, List.all_eq_true]
  tauto

/-- There is no other sign after the one that the domain begins behind. -/
theorem sign_not_mem_of_isHostname {domain : String} (h : isHostname domain.toList = true) : '@' ∉ domain.toList := by
  rcases isHostname_iff.mp h with hname | ⟨rest, rfl, hname⟩
  · exact hname.sign_not_mem
  · simpa using hname.sign_not_mem

theorem isEmail_iff {text : String} : isEmail text.toList = true ↔
    ∃ name domain : String, text = name ++ "@" ++ domain ∧
      isLocalPart name.toList = true ∧ isHostname domain.toList = true := by
  unfold isEmail
  constructor
  · intro h
    split at h
    · cases h
    · next name domain hcut =>
      obtain ⟨htext, -⟩ := cutLast_eq_some_iff.mp hcut
      obtain ⟨hname, hdomain⟩ := Bool.and_eq_true_iff.mp h
      refine ⟨String.ofList name, String.ofList domain, ?_, ?_, ?_⟩
      · rw [← String.toList_inj, htext]
        simp
      · rwa [String.toList_ofList]
      · rwa [String.toList_ofList]
  · rintro ⟨name, domain, rfl, hname, hdomain⟩
    -- the sign in front of the domain is the last one, as no domain has one
    have hcut : cutLast '@' (name ++ "@" ++ domain).toList = some (name.toList, domain.toList) :=
      cutLast_eq_some_iff.mpr ⟨by simp, sign_not_mem_of_isHostname hdomain⟩
    rw [hcut]
    exact Bool.and_eq_true_iff.mpr ⟨hname, hdomain⟩

end Format

theorem IsMailAddress.getLast?_ne {address : String} (h : IsMailAddress address) :
    address.toList.getLast? ≠ some '.' := by
  obtain ⟨name, domain, rfl, -, -, hdomain⟩ := h
  have hne : domain.toList ≠ [] := (IsHostName.iff_byteLength.mp hdomain).1
  rw [String.toList_append, List.getLast?_append_of_ne_nil _ hne]
  exact hdomain.getLast?_ne

theorem Format.isEmail_iff_withFinalPoint {text : String} :
    isEmail text.toList = true ↔ WithFinalPoint IsMailAddress text := by
  rw [isEmail_iff]
  simp only [isLocalPart_iff, isHostname_iff]
  constructor
  · rintro ⟨name, domain, rfl, ⟨hsize, hname⟩, hdomain | ⟨rest, rfl, hrest⟩⟩
    · exact .inl ⟨name, domain, rfl, hsize, hname, hdomain⟩
    · exact .inr ⟨name ++ "@" ++ rest, String.append_assoc.symm, name, rest, rfl, hsize, hname, hrest⟩
  · rintro (⟨name, domain, rfl, hsize, hname, hdomain⟩ | ⟨_, rfl, name, domain, rfl, hsize, hname, hdomain⟩)
    · exact ⟨name, domain, rfl, ⟨hsize, hname⟩, .inl hdomain⟩
    · exact ⟨name, domain ++ ".", String.append_assoc, ⟨hsize, hname⟩, .inr ⟨domain, rfl, hdomain⟩⟩

/-- **Which host names and mail addresses are accepted.** A string is accepted as a host name if it is one, or one with
a final point; and as a mail address if it is one, or one with a final point, which is none, as no mail address ends with
a point. -/
theorem Format.accepts_addresses (text : String) :
    (hostname.accepts text = true ↔ WithFinalPoint IsHostName text) ∧
    (email.accepts text = true ↔ WithFinalPoint IsMailAddress text) ∧
    (IsMailAddress text → text.toList.getLast? ≠ some '.') :=
  ⟨isHostname_iff, isEmail_iff_withFinalPoint, IsMailAddress.getLast?_ne⟩

/-- A mail address with a final point is accepted. -/
theorem Format.accepts_finalPoint : email.accepts "a@b." = true ∧ ¬IsMailAddress "a@b." :=
  ⟨by decide, fun h => h.getLast?_ne (by decide)⟩

end JsonSchema
