import JsonSchema.Proofs.PointerText

/-!
What is read as the fragment of a pointer. A text is read character by character (`Pointer.percentDecode?_encode`),
though it is decoded byte by byte: no byte of a character outside ASCII is a percent sign or a digit, so an escape
never begins or ends within such a character. The first digit of an escape may be a plus sign, which counts as a zero.
-/

namespace JsonSchema.Pointer

open Text

/-! ### Escapes of a fragment -/

/-- Every percent sign is followed by a character that `first` allows and by a hexadecimal digit. -/
def EscapesPercent (first : Char → Bool) (chars : List Char) : Prop :=
  ∀ before after, chars = before ++ '%' :: after →
    ∃ a b rest, after = a :: b :: rest ∧ first a = true ∧ isHexDigit b = true

/-- A hexadecimal digit, or the plus sign that may stand in its place. -/
def isHexDigitOrPlus (c : Char) : Bool := isHexDigit c || c == '+'

/-- The byte that a percent sign and the two characters stand for. -/
def escapedByte (a b : Char) : UInt8 := UInt8.ofNat (16 * (Text.hexValue? a).getD 0 + (Text.hexValue? b).getD 0)

/-- The bytes of a text with one byte in place of every escape. -/
def unescapedBytes : List Char → List UInt8
  | '%' :: a :: b :: rest => escapedByte a b :: unescapedBytes rest
  | c :: rest => String.utf8EncodeChar c ++ unescapedBytes rest
  | [] => []

section

variable {first : Char → Bool} {c a b : Char} {l : List Char}

theorem escapesPercent_nil : EscapesPercent first [] := by
  intro before after h
  simp at h

theorem escapesPercent_cons :
    EscapesPercent first (c :: l) ↔
      (c = '%' → ∃ a b rest, l = a :: b :: rest ∧ first a = true ∧ isHexDigit b = true) ∧ EscapesPercent first l := by
  constructor
  · intro h
    exact ⟨fun hc => h [] l (by rw [hc]; rfl), fun before after hl => h (c :: before) after (by rw [hl]; rfl)⟩
  · rintro ⟨hc, hl⟩ before after heq
    cases before with
    | nil =>
      obtain ⟨rfl, rfl⟩ := List.cons.inj heq
      exact hc rfl
    | cons d before => exact hl before after (List.cons.inj heq).2

theorem escapesPercent_cons_of_ne (h : c ≠ '%') : EscapesPercent first (c :: l) ↔ EscapesPercent first l := by
  simp [escapesPercent_cons, h]

/-- No percent sign stands within an escape. -/
theorem escapesPercent_escape (hfirst : first '%' = false) :
    EscapesPercent first ('%' :: a :: b :: l) ↔
      (first a = true ∧ isHexDigit b = true) ∧ EscapesPercent first l := by
  have hhead : (∃ a' b' rest, a :: b :: l = a' :: b' :: rest ∧ first a' = true ∧ isHexDigit b' = true) ↔
      first a = true ∧ isHexDigit b = true := by
    constructor
    · rintro ⟨_, _, _, heq, h⟩
      cases heq
      exact h
    · exact fun h => ⟨a, b, l, rfl, h⟩
  rw [escapesPercent_cons, hhead, forall_prop_of_true rfl]
  refine and_congr_right fun ⟨ha, hb⟩ => ?_
  have hne : a ≠ '%' := fun heq => by simp [heq, hfirst] at ha
  have hne' : b ≠ '%' := fun heq => by simp [heq, show isHexDigit '%' = false from rfl] at hb
  rw [escapesPercent_cons_of_ne hne, escapesPercent_cons_of_ne hne']

/-- Without plus signs after percent signs, an escape is made of two digits. -/
theorem escapesPercent_isHexDigit_iff :
    EscapesPercent isHexDigit l ↔
      EscapesPercent isHexDigitOrPlus l ∧ ∀ before after, l = before ++ '%' :: after → after.head? ≠ some '+' := by
  constructor
  · intro h
    refine ⟨fun before after heq => ?_, fun before after heq => ?_⟩
    all_goals obtain ⟨a, b, rest, rfl, ha, hb⟩ := h before after heq
    · exact ⟨a, b, rest, rfl, by simp [isHexDigitOrPlus, ha], hb⟩
    · rw [List.head?_cons, ne_eq, Option.some.injEq]
      rintro rfl
      exact absurd ha (by decide)
  · rintro ⟨h, hplus⟩ before after heq
    obtain ⟨a, b, rest, rfl, ha, hb⟩ := h before after heq
    have hne : a ≠ '+' := fun ha => hplus before _ heq (by rw [ha]; rfl)
    exact ⟨a, b, rest, rfl, by simpa [isHexDigitOrPlus, hne] using ha, hb⟩

end

/-! ### Bytes of characters -/

theorem le_ofNat {n : Nat} (h : 128 ≤ n) (hlt : n < 256) : (128 : UInt8) ≤ UInt8.ofNat n := by
  rw [UInt8.le_iff_toNat_le, UInt8.toNat_ofNat', Nat.mod_eq_of_lt hlt]
  exact h

/-- A character outside ASCII is encoded in bytes outside ASCII. -/
theorem le_of_mem_utf8EncodeChar {c : Char} (h : 128 ≤ c.toNat) : ∀ byte ∈ String.utf8EncodeChar c, 128 ≤ byte := by
  have hlow : ¬ c.val.toNat ≤ 0x7f := by
    have : 128 ≤ c.val.toNat := h
    omega
  have hvalid : c.val.toNat < 0x110000 := by
    have := c.valid
    simp only [UInt32.isValidChar, Nat.isValidChar] at this
    omega
  rw [String.utf8EncodeChar, if_neg hlow]
  split
  · simp only [List.forall_mem_cons]
    exact ⟨le_ofNat (by omega) (by omega), le_ofNat (by omega) (by omega), by simp⟩
  · split
    · simp only [List.forall_mem_cons]
      exact ⟨le_ofNat (by omega) (by omega), le_ofNat (by omega) (by omega), le_ofNat (by omega) (by omega), by simp⟩
    · simp only [List.forall_mem_cons]
      exact ⟨le_ofNat (by omega) (by omega), le_ofNat (by omega) (by omega), le_ofNat (by omega) (by omega),
        le_ofNat (by omega) (by omega), by simp⟩

theorem exists_lt_ofNat {c : Char} (h : c.toNat < 128) : ∃ n < 128, c = Char.ofNat n :=
  ⟨c.toNat, h, (Char.ofNat_toNat c).symm⟩

theorem hexValue?_asciiByte {c : Char} (h : c.toNat < 128) : hexValue? (asciiByte c) = Text.hexValue? c := by
  obtain ⟨n, hn, rfl⟩ := exists_lt_ofNat h
  clear h
  decide +revert +kernel

theorem asciiByte_eq_plus_iff {c : Char} (h : c.toNat < 128) : asciiByte c = 43 ↔ c = '+' := by
  obtain ⟨n, hn, rfl⟩ := exists_lt_ofNat h
  clear h
  decide +revert +kernel

theorem asciiByte_ne_percent {c : Char} (h : c.toNat < 128) (hc : c ≠ '%') : asciiByte c ≠ 37 := by
  obtain ⟨n, hn, rfl⟩ := exists_lt_ofNat h
  clear h
  decide +revert +kernel

theorem percent_not_mem_utf8EncodeChar {c : Char} (hc : c ≠ '%') : 37 ∉ String.utf8EncodeChar c := by
  intro hmem
  by_cases h : c.toNat < 128
  · rw [utf8EncodeChar_ascii h, List.mem_singleton] at hmem
    exact asciiByte_ne_percent h hc hmem.symm
  · exact absurd (le_of_mem_utf8EncodeChar (Nat.not_lt.mp h) 37 hmem) (by decide)

theorem hexValue?_of_le {byte : UInt8} (h : 128 ≤ byte) : hexValue? byte = none := by
  rw [UInt8.le_iff_toNat_le] at h
  simp only [hexValue?, UInt8.le_iff_toNat_le]
  have hbyte : 128 ≤ byte.toNat := h
  rw [if_neg, if_neg, if_neg]
  all_goals
    intro hrange
    have := hrange.2
    simp at this
    omega

theorem toNat_lt_of_isHexDigit {c : Char} (h : isHexDigit c = true) : c.toNat < 128 := by
  have hle : ∀ d : Char, d.toNat < 128 → c ≤ d → c.toNat < 128 := fun d hd hcd =>
    Nat.lt_of_le_of_lt (UInt32.le_iff_toNat_le.mp hcd) hd
  unfold isHexDigit Text.hexValue? at h
  split at h
  · next hdigit =>
    simp only [Char.isDigit, Bool.and_eq_true, decide_eq_true_eq] at hdigit
    exact hle '9' (by decide) hdigit.2
  · split at h
    · next hrange => exact hle 'f' (by decide) hrange.2
    · split at h
      · next hrange => exact hle 'F' (by decide) hrange.2
      · exact absurd h (by decide)

theorem toNat_lt_of_isHexDigitOrPlus {c : Char} (h : isHexDigitOrPlus c = true) : c.toNat < 128 := by
  rw [isHexDigitOrPlus, Bool.or_eq_true, beq_iff_eq] at h
  rcases h with h | rfl
  · exact toNat_lt_of_isHexDigit h
  · decide

/-! ### Decoding -/

theorem percentDecode?_cons_of_ne {byte : UInt8} (h : byte ≠ 37) (rest : List UInt8) :
    percentDecode? (byte :: rest) = (percentDecode? rest).map (byte :: ·) := by
  rw [percentDecode?.eq_def]
  simp only [if_neg h]

theorem percentDecode?_append {read : List UInt8} (h : 37 ∉ read) (rest : List UInt8) :
    percentDecode? (read ++ rest) = (percentDecode? rest).map (read ++ ·) := by
  induction read with
  | nil => simp
  | cons byte read ih =>
    obtain ⟨hne, hread⟩ : 37 ≠ byte ∧ 37 ∉ read := by simpa using h
    rw [List.cons_append, percentDecode?_cons_of_ne hne.symm, ih hread, Option.map_map]
    rfl

/-- A plus sign counts as a zero, since it is no digit. -/
theorem percentPair?_asciiByte {a b : Char} (ha : a.toNat < 128) (hb : b.toNat < 128) :
    percentPair? (asciiByte a) (asciiByte b) =
      if isHexDigitOrPlus a = true ∧ isHexDigit b = true then some (escapedByte a b) else none := by
  simp only [percentPair?, hexValue?_asciiByte ha, hexValue?_asciiByte hb, asciiByte_eq_plus_iff ha]
  cases hlow : Text.hexValue? b with
  | none => simp [isHexDigit, hlow]
  | some low =>
    by_cases hplus : a = '+'
    · have hnone : Text.hexValue? '+' = none := rfl
      simp [isHexDigitOrPlus, isHexDigit, escapedByte, hlow, hplus, hnone]
    · cases hhigh : Text.hexValue? a <;>
        simp [isHexDigitOrPlus, isHexDigit, escapedByte, hlow, hplus, hhigh]

theorem percentPair?_eq_none {x y : UInt8} (h : 128 ≤ x ∨ 128 ≤ y) : percentPair? x y = none := by
  rcases h with hx | hy
  · have hne : x ≠ 43 := by
      rintro rfl
      exact absurd hx (by decide)
    simp [percentPair?, hexValue?_of_le hx, hne]
  · simp [percentPair?, hexValue?_of_le hy]

theorem percentDecode?_eq_none {bytes : List UInt8}
    (h : ∀ x y rest, bytes = x :: y :: rest → percentPair? x y = none) : percentDecode? (37 :: bytes) = none := by
  match bytes with
  | [] => rfl
  | [_] => rfl
  | x :: y :: rest =>
    rw [percentDecode?, if_pos rfl]
    simp [h x y rest rfl]

/-- The first byte of a character, by which the character is known to be in ASCII or not. -/
theorem utf8EncodeChar_cases (c : Char) :
    c.toNat < 128 ∧ String.utf8EncodeChar c = [asciiByte c] ∨
      ∃ byte others, 128 ≤ byte ∧ 128 ≤ c.toNat ∧ String.utf8EncodeChar c = byte :: others := by
  by_cases h : c.toNat < 128
  · exact .inl ⟨h, utf8EncodeChar_ascii h⟩
  · obtain ⟨byte, others, heq⟩ := List.exists_cons_of_ne_nil (String.utf8EncodeChar_ne_nil (c := c))
    have hle := Nat.not_lt.mp h
    exact .inr ⟨byte, others, le_of_mem_utf8EncodeChar hle byte (heq ▸ List.mem_cons_self), hle, heq⟩

/-- An escape is read by its two characters, whatever bytes they are encoded in. -/
theorem percentDecode?_escape (a b : Char) (rest : List UInt8) :
    percentDecode? (37 :: (String.utf8EncodeChar a ++ (String.utf8EncodeChar b ++ rest))) =
      if isHexDigitOrPlus a = true ∧ isHexDigit b = true then (percentDecode? rest).map (escapedByte a b :: ·)
      else none := by
  rcases utf8EncodeChar_cases a with ⟨ha, hbytes⟩ | ⟨x, xs, hx, hle, hbytes⟩
  · rcases utf8EncodeChar_cases b with ⟨hb, hbytes'⟩ | ⟨y, ys, hy, hle, hbytes'⟩
    · rw [hbytes, hbytes', List.singleton_append, List.singleton_append, percentDecode?, if_pos rfl]
      rw [percentPair?_asciiByte ha hb]
      split <;> rfl
    · have hnot : ¬ (isHexDigitOrPlus a = true ∧ isHexDigit b = true) := fun h =>
        absurd (toNat_lt_of_isHexDigit h.2) (Nat.not_lt.mpr hle)
      rw [if_neg hnot, hbytes, hbytes', List.singleton_append]
      refine percentDecode?_eq_none fun x' y' rest' heq => ?_
      cases heq
      exact percentPair?_eq_none (.inr hy)
  · have hnot : ¬ (isHexDigitOrPlus a = true ∧ isHexDigit b = true) := fun h =>
      absurd (toNat_lt_of_isHexDigitOrPlus h.1) (Nat.not_lt.mpr hle)
    rw [if_neg hnot, hbytes]
    refine percentDecode?_eq_none fun x' y' rest' heq => ?_
    obtain ⟨rfl, -⟩ := List.cons.inj heq
    exact percentPair?_eq_none (.inl hx)

/-- A percent sign before the last character begins no escape. -/
theorem percentDecode?_short (c : Char) : percentDecode? (37 :: String.utf8EncodeChar c) = none := by
  rcases utf8EncodeChar_cases c with ⟨-, hbytes⟩ | ⟨x, xs, hx, -, hbytes⟩
  · rw [hbytes]
    rfl
  · refine percentDecode?_eq_none fun x' y' rest' heq => ?_
    obtain ⟨rfl, -⟩ := List.cons.inj (hbytes.symm.trans heq)
    exact percentPair?_eq_none (.inl hx)

/-- Decoding succeeds exactly where every percent sign begins an escape, and replaces each escape by its byte. -/
theorem percentDecode?_encode {chars : List Char} {decoded : List UInt8} :
    percentDecode? (chars.flatMap String.utf8EncodeChar) = some decoded ↔
      EscapesPercent isHexDigitOrPlus chars ∧ unescapedBytes chars = decoded := by
  have hpercent : String.utf8EncodeChar '%' = [37] := rfl
  fun_induction unescapedBytes chars generalizing decoded with
  | case1 a b rest ih =>
    rw [List.flatMap_cons, List.flatMap_cons, List.flatMap_cons, hpercent, List.singleton_append,
      percentDecode?_escape, escapesPercent_escape (by decide)]
    by_cases h : isHexDigitOrPlus a = true ∧ isHexDigit b = true
    · rw [if_pos h, Option.map_eq_some_iff, and_iff_right h]
      simp only [ih]
      exact ⟨fun ⟨out, ⟨hrest, hout⟩, heq⟩ => ⟨hrest, hout ▸ heq⟩, fun ⟨hrest, heq⟩ => ⟨_, ⟨hrest, rfl⟩, heq⟩⟩
    · simp [h]
  | case2 c rest hshort ih =>
    by_cases hc : c = '%'
    · subst hc
      have hnot : ¬ EscapesPercent isHexDigitOrPlus ('%' :: rest) := fun h => by
        obtain ⟨a, b, rest', rfl, -⟩ := (escapesPercent_cons.mp h).1 rfl
        exact hshort a b rest' rfl rfl
      have hnone : percentDecode? (37 :: rest.flatMap String.utf8EncodeChar) = none := by
        match rest with
        | [] => rfl
        | [a] => simpa using percentDecode?_short a
        | a :: b :: rest => exact absurd rfl (hshort a b rest rfl)
      rw [List.flatMap_cons, hpercent, List.singleton_append, hnone]
      simp [hnot]
    · rw [List.flatMap_cons, percentDecode?_append (percent_not_mem_utf8EncodeChar hc),
        escapesPercent_cons_of_ne hc, Option.map_eq_some_iff]
      simp only [ih]
      exact ⟨fun ⟨out, ⟨hrest, hout⟩, heq⟩ => ⟨hrest, hout ▸ heq⟩, fun ⟨hrest, heq⟩ => ⟨_, ⟨hrest, rfl⟩, heq⟩⟩
  | case3 => simp [percentDecode?, escapesPercent_nil]

/-! ### Fragments -/

theorem bytes_eq_flatMap (text : String) : bytes text = text.toList.flatMap String.utf8EncodeChar := by
  obtain ⟨chars, rfl⟩ : ∃ chars, text = String.ofList chars := ⟨text.toList, String.ofList_toList.symm⟩
  simp [bytes, List.utf8Encode]

theorem fromUTF8?_eq_some_iff {decoded : List UInt8} {text : String} :
    String.fromUTF8? ⟨decoded.toArray⟩ = some text ↔ bytes text = decoded := by
  constructor
  · intro h
    rw [String.fromUTF8?] at h
    split at h
    · rw [Option.some.injEq] at h
      rw [← h]
      rfl
    · cases h
  · rintro rfl
    exact fromUTF8?_bytes text

theorem ofFragment_eq_ok_iff {fragment : String} {p : Pointer} :
    ofFragment fragment = .ok p ↔
      EscapesPercent isHexDigitOrPlus fragment.toList ∧
        ∃ text, bytes text = unescapedBytes fragment.toList ∧ parse text = .ok p := by
  rw [ofFragment, bytes_eq_flatMap]
  cases hdecode : percentDecode? (fragment.toList.flatMap String.utf8EncodeChar) with
  | none =>
    have hnot : ¬ EscapesPercent isHexDigitOrPlus fragment.toList := fun h => by
      simp [percentDecode?_encode.mpr ⟨h, rfl⟩] at hdecode
    simp [hnot]
  | some decoded =>
    obtain ⟨hescapes, rfl⟩ := percentDecode?_encode.mp hdecode
    simp only [hescapes, true_and, ← fromUTF8?_eq_some_iff]
    cases String.fromUTF8? ⟨(unescapedBytes fragment.toList).toArray⟩ <;> simp

theorem parse_error {text : String} {e : PointerError} (h : parse text = .error e) :
    ∃ fault, e = .invalid text fault := by
  unfold parse at h
  split at h
  · cases h
  · split at h
    · cases h
    · exact ⟨_, (Except.error.inj h).symm⟩
  · exact ⟨_, (Except.error.inj h).symm⟩

theorem ofFragment_error {fragment : String} {e : PointerError} (h : ofFragment fragment = .error e) :
    ∃ text fault, e = .invalid text fault := by
  unfold ofFragment at h
  split at h
  · exact ⟨_, _, (Except.error.inj h).symm⟩
  · split at h
    · exact ⟨_, _, (Except.error.inj h).symm⟩
    · exact ⟨_, parse_error h⟩

/-- A text is read as the fragment of a pointer exactly if every percent sign in it begins an escape, the bytes with
the escapes replaced, once, are the encoding of a text, and this text is a pointer; it is read as this pointer. Whatever
else is refused as an invalid pointer. An escape is a percent sign before two hexadecimal digits, or before a plus sign
and one such digit; where no plus sign follows a percent sign, only the former is left. -/
theorem ofFragment_exact (fragment : String) :
    (∀ p, ofFragment fragment = .ok p ↔
      EscapesPercent isHexDigitOrPlus fragment.toList ∧
      ∃ text, bytes text = unescapedBytes fragment.toList ∧
        (text = "" ∨ text.toList.head? = some '/' ∧ EscapesTilde text.toList) ∧ parse text = .ok p) ∧
    (∀ e, ofFragment fragment = .error e → ∃ text fault, e = .invalid text fault) ∧
    (EscapesPercent isHexDigit fragment.toList ↔
      EscapesPercent isHexDigitOrPlus fragment.toList ∧
      ∀ before after, fragment.toList = before ++ '%' :: after → after.head? ≠ some '+') := by
  refine ⟨fun p => ?_, fun e => ofFragment_error, escapesPercent_isHexDigit_iff⟩
  rw [ofFragment_eq_ok_iff]
  refine and_congr_right fun _ => exists_congr fun text => and_congr_right fun _ => ?_
  constructor
  · intro hparse
    have haccepts := parse_accepts.mp ⟨p, hparse⟩
    rw [String.toList_eq_nil_iff] at haccepts
    exact ⟨haccepts, hparse⟩
  · exact And.right

/-- `%+f` is read as `%0f`, though no hexadecimal digit follows the percent sign. -/
theorem ofFragment_plus_digit :
    ofFragment "/%+f" = .ok ⟨[String.singleton (Char.ofNat 15)]⟩ ∧ ¬ EscapesPercent isHexDigit "/%+f".toList := by
  refine ⟨by rfl, fun h => ?_⟩
  obtain ⟨a, b, rest, heq, ha, -⟩ := h ['/'] ['+', 'f'] rfl
  cases heq
  exact absurd ha (by decide)

end JsonSchema.Pointer
