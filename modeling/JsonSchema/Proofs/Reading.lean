import JsonSchema.Json.Parse
import JsonSchema.Json.Text
import JsonSchema.Proofs.Places
import JsonSchema.Proofs.Unfolding
import Mathlib.Data.List.DropRight
import Mathlib.Data.List.TakeWhile

/-!
Compact JSON text, read back. The text of data is read the same wherever it stands in a larger one, in front of a comma
or a closing bracket, if the reader allows as many arrays and objects around each other as there are, and it is refused
otherwise (`Json.Reads`). This goes from the texts of the elements and members to the text that has them in brackets
(`Reads.array`, `Reads.object`). A string is read escape by escape, a number part by part (`token?_append`).

What the text of JSON data is read as (`Json.ReadsAs`) differs from the data in two ways: the members of an object
come out in the order of their keys, and a number without a fraction may come out as an integer. That the text of a
number stands for the number (`Double.ReadsBack`) is taken for granted of each number in the data.
-/

namespace JsonSchema

namespace Json

/-- What may stand behind a value in a larger text: a comma or a closing bracket. -/
def Delimits (rest : List Char) : Prop := ∀ c ∈ rest.head?, c = ',' ∨ c = ']' ∨ c = '}'

variable {chars rest : List Char}

/-! ### Strings -/

theorem hexValue?_digitChar : ∀ n < 16, Text.hexValue? (Nat.digitChar n) = some n := by decide

/-- A control character is read from its number. -/
theorem numberedEscape?_hexByte {c : Char} (hc : c.toNat < 32) (rest : List Char) :
    numberedEscape? ('0' :: '0' :: (hexByte c.toNat ++ rest)) = some (c, rest) := by
  have hhigh := hexValue?_digitChar (c.toNat / 16 % 16) (by omega)
  have hlow := hexValue?_digitChar (c.toNat % 16) (by omega)
  have hzero : Text.hexValue? '0' = some 0 := rfl
  have hunit : c.toNat / 16 % 16 * 16 + c.toNat % 16 = c.toNat := by omega
  have hhex : hex4? ('0' :: '0' :: (hexByte c.toNat ++ rest)) = some (c.toNat, rest) := by
    simp [hexByte, hex4?, hzero, hhigh, hlow, hunit]
  have hhalf : ¬(0xD800 ≤ c.toNat ∧ c.toNat < 0xDC00) := by omega
  have hhalf' : ¬(0xDC00 ≤ c.toNat ∧ c.toNat < 0xE000) := by omega
  simp only [numberedEscape?, hhex, Option.bind_eq_bind, Option.bind_some, if_neg hhalf, if_neg hhalf', Char.ofNat_toNat]

/-- One step of a reader takes a character, however it is escaped. -/
theorem string?_escapeChar (c : Char) (acc : List Char) (n : Nat) (rest : List Char) :
    string? acc (n + 1) (escapeChar c ++ rest) = string? (c :: acc) n rest := by
  unfold escapeChar
  split
  · next h => rw [h]; rfl
  split
  · next h => rw [h]; rfl
  split
  · next h => rw [h]; rfl
  split
  · next h => rw [h]; rfl
  split
  · next h => rw [h]; rfl
  split
  · next h => rw [show c = '\x08' from Char.toNat_inj.mp h]; rfl
  split
  · next h => rw [show c = '\x0c' from Char.toNat_inj.mp h]; rfl
  split
  · next h =>
    have hescape := numberedEscape?_hexByte h rest
    simp [string?, escape?, hescape]
  · next hquote hslash _ _ _ _ _ hcontrol => simp [string?, hquote, hslash, hcontrol]

theorem length_escapeChar_pos (c : Char) : 1 ≤ (escapeChar c).length := by
  unfold escapeChar
  repeat' split
  all_goals simp

/-- The rest of a string is read up to its closing quote. -/
theorem string?_flatMap (s acc : List Char) {n : Nat} (hn : s.length < n) (rest : List Char) :
    string? acc n (s.flatMap escapeChar ++ '"' :: rest) = some (String.ofList (acc.reverse ++ s), rest) := by
  induction s generalizing acc n with
  | nil =>
    obtain ⟨n, rfl⟩ := Nat.exists_eq_add_of_lt hn
    simp [string?]
  | cons c s ih =>
    obtain ⟨n, rfl⟩ : ∃ k, n = k + 1 := ⟨n - 1, by omega⟩
    rw [List.flatMap_cons, List.append_assoc, string?_escapeChar, ih (c :: acc) (Nat.lt_of_succ_lt_succ hn)]
    simp

theorem toList_quote (s : String) : (quote s).toList = '"' :: (s.toList.flatMap escapeChar ++ ['"']) := by
  simp [quote]

theorem length_le_quote (s : String) : s.toList.length + 2 ≤ (quote s).length := by
  have hflat : ∀ l : List Char, l.length ≤ (l.flatMap escapeChar).length := by
    intro l
    induction l with
    | nil => exact Nat.le_refl _
    | cons c l ih =>
      have := length_escapeChar_pos c
      rw [List.flatMap_cons, List.length_append, List.length_cons]
      omega
  have := hflat s.toList
  rw [← String.length_toList, toList_quote, List.length_cons, List.length_append, List.length_singleton]
  omega

/-- A quoted string is read after its opening quote. -/
theorem string?_quote (s : String) {n : Nat} (hn : (quote s).length ≤ n) (rest : List Char) :
    string? [] n (s.toList.flatMap escapeChar ++ '"' :: rest) = some (s, rest) := by
  have := length_le_quote s
  rw [string?_flatMap s.toList [] (by omega) rest, List.reverse_nil, List.nil_append, String.ofList_toList]

/-! ### Numbers -/

section

variable {p : Char → Bool}

theorem takeWhile_append_of_head (h : ∀ c ∈ rest.head?, p c = false) :
    (chars ++ rest).takeWhile p = chars.takeWhile p := by
  have hrest : rest.takeWhile p = [] := by
    cases rest with
    | nil => rfl
    | cons c rest => simp [h c rfl]
  rw [List.takeWhile_append, hrest]
  split
  · next hall => rw [List.append_nil, (List.takeWhile_prefix p).eq_of_length hall]
  · rfl

theorem dropWhile_append_of_head (h : ∀ c ∈ rest.head?, p c = false) :
    (chars ++ rest).dropWhile p = chars.dropWhile p ++ rest := by
  have hrest : rest.dropWhile p = rest := by
    cases rest with
    | nil => rfl
    | cons c rest => simp [h c rfl]
  rw [List.dropWhile_append, hrest]
  split
  · next hall => rw [List.isEmpty_iff.mp hall, List.nil_append]
  · rfl

end

namespace Delimits

variable (h : Delimits rest)

include h

theorem isDigit : ∀ c ∈ rest.head?, c.isDigit = false := by
  intro c hc
  rcases h c hc with rfl | rfl | rfl <;> rfl

theorem isSign : ∀ c ∈ rest.head?, (c == '-' || c == '+') = false := by
  intro c hc
  rcases h c hc with rfl | rfl | rfl <;> rfl

/-- No other character becomes the first one. -/
theorem head?_append {c : Char} (hc : c ≠ ',' ∧ c ≠ ']' ∧ c ≠ '\x7d') (hhead : chars.head? ≠ some c) :
    (chars ++ rest).head? ≠ some c := by
  cases chars with
  | nil =>
    intro hrest
    rcases h c hrest with rfl | rfl | rfl <;> simp at hc
  | cons d chars => exact hhead

end Delimits

namespace Token

variable {left : List Char}

theorem sign_of_head (h : chars.head? ≠ some '-') : sign chars = (false, chars) := by
  unfold sign
  split
  · exact absurd rfl h
  · rfl

theorem fraction?_of_head (h : chars.head? ≠ some '.') : fraction? chars = some (none, chars) := by
  unfold fraction?
  split
  · exact absurd rfl h
  · rfl

theorem exponent?_of_head (h : chars.head? ≠ some 'e' ∧ chars.head? ≠ some 'E') :
    exponent? chars = some (none, chars) := by
  unfold exponent?
  split
  · exact absurd rfl h.1
  · exact absurd rfl h.2
  · rfl

theorem exists_of_head {c d : Char} (h : chars.head? = some c ∨ chars.head? = some d) :
    ∃ a more, chars = a :: more ∧ (a = c ∨ a = d) := by
  rcases h with h | h <;>
  · obtain ⟨more, rfl⟩ := List.head?_eq_some_iff.mp h
    exact ⟨_, more, rfl, by simp⟩

theorem exponent?_cons {c : Char} (hc : c = 'e' ∨ c = 'E') (more : List Char) :
    let afterSign := more.dropWhile fun c => c == '-' || c == '+'
    exponent? (c :: more) = (Double.exponentOf? ((more.takeWhile fun c => c == '-' || c == '+') ++
      afterSign.takeWhile Char.isDigit)).map fun e => (some e, afterSign.dropWhile Char.isDigit) := by
  rcases hc with rfl | rfl <;> rfl

/-! What is read in front of more text is the same, and the text comes behind what is left. -/

theorem sign_append (hd : Delimits rest) : sign (chars ++ rest) = ((sign chars).1, (sign chars).2 ++ rest) := by
  by_cases hhead : chars.head? = some '-'
  · obtain ⟨more, rfl⟩ := List.head?_eq_some_iff.mp hhead
    rfl
  · rw [sign_of_head (hd.head?_append (by decide) hhead), sign_of_head hhead]

theorem whole?_append {whole : List Char} (hd : Delimits rest) (h : whole? chars = some (whole, left)) :
    whole? (chars ++ rest) = some (whole, left ++ rest) := by
  unfold whole? at h ⊢
  rw [takeWhile_append_of_head hd.isDigit, dropWhile_append_of_head hd.isDigit]
  dsimp only at h ⊢
  split at h
  · cases h
  · next hwhole =>
    cases h
    rw [if_neg hwhole]

theorem fraction?_append {fraction : Option (List Char)} (hd : Delimits rest)
    (h : fraction? chars = some (fraction, left)) : fraction? (chars ++ rest) = some (fraction, left ++ rest) := by
  by_cases hhead : chars.head? = some '.'
  · obtain ⟨more, rfl⟩ := List.head?_eq_some_iff.mp hhead
    rw [fraction?] at h
    rw [List.cons_append, fraction?, takeWhile_append_of_head hd.isDigit, dropWhile_append_of_head hd.isDigit]
    split at h
    · cases h
    · next hdigits =>
      cases h
      rw [if_neg hdigits]
  · rw [fraction?_of_head hhead] at h
    cases h
    rw [fraction?_of_head (hd.head?_append (by decide) hhead)]

theorem exponent?_append {exponent : Option Int} (hd : Delimits rest)
    (h : exponent? chars = some (exponent, left)) : exponent? (chars ++ rest) = some (exponent, left ++ rest) := by
  by_cases hhead : chars.head? = some 'e' ∨ chars.head? = some 'E'
  · obtain ⟨c, more, rfl, hc⟩ := exists_of_head hhead
    rw [exponent?_cons hc] at h
    obtain ⟨e, he, heq⟩ := Option.map_eq_some_iff.mp h
    cases heq
    rw [List.cons_append, exponent?_cons hc, takeWhile_append_of_head hd.isSign, dropWhile_append_of_head hd.isSign,
      takeWhile_append_of_head hd.isDigit, dropWhile_append_of_head hd.isDigit, he]
    rfl
  · rw [not_or] at hhead
    rw [exponent?_of_head hhead] at h
    cases h
    rw [exponent?_of_head ⟨hd.head?_append (by decide) hhead.1, hd.head?_append (by decide) hhead.2⟩]

end Token

/-- A number is read part by part. -/
theorem token?_eq_some_iff {t : Token} {left : List Char} : token? chars = some (t, left) ↔
    ∃ whole afterWhole fraction afterFraction exponent, Token.whole? (Token.sign chars).2 = some (whole, afterWhole) ∧
      Token.fraction? afterWhole = some (fraction, afterFraction) ∧
      Token.exponent? afterFraction = some (exponent, left) ∧
      t = ⟨(Token.sign chars).1, whole, fraction.getD [], exponent.getD 0, fraction.isNone && exponent.isNone⟩ := by
  simp only [token?, Option.bind_eq_bind, Option.bind_eq_some_iff, Prod.exists, Option.some.injEq, Prod.mk.injEq]
  constructor
  · rintro ⟨whole, afterWhole, hwhole, fraction, afterFraction, hfraction, exponent, left', hexponent, rfl, rfl⟩
    exact ⟨whole, afterWhole, fraction, afterFraction, exponent, hwhole, hfraction, hexponent, rfl⟩
  · rintro ⟨whole, afterWhole, fraction, afterFraction, exponent, hwhole, hfraction, hexponent, rfl⟩
    exact ⟨whole, afterWhole, hwhole, fraction, afterFraction, hfraction, exponent, left, hexponent, rfl, rfl⟩

/-- A number is read the same in front of more text. -/
theorem token?_append {t : Token} {left : List Char} (hd : Delimits rest) (h : token? chars = some (t, left)) :
    token? (chars ++ rest) = some (t, left ++ rest) := by
  obtain ⟨whole, afterWhole, fraction, afterFraction, exponent, hwhole, hfraction, hexponent, rfl⟩ :=
    token?_eq_some_iff.mp h
  rw [token?_eq_some_iff, Token.sign_append hd]
  exact ⟨whole, _, fraction, _, exponent, Token.whole?_append hd hwhole, Token.fraction?_append hd hfraction,
    Token.exponent?_append hd hexponent, rfl⟩

/-- A number begins with a sign or a digit. -/
theorem head_of_token? {t : Token} {left : List Char} (h : token? chars = some (t, left)) :
    ∃ c more, chars = c :: more ∧ (c = '-' ∨ c.isDigit = true) := by
  obtain ⟨whole, afterWhole, _, _, _, hwhole, -⟩ := token?_eq_some_iff.mp h
  by_cases hhead : chars.head? = some '-'
  · obtain ⟨more, rfl⟩ := List.head?_eq_some_iff.mp hhead
    exact ⟨'-', more, rfl, .inl rfl⟩
  · rw [Token.sign_of_head hhead] at hwhole
    cases chars with
    | nil => cases hwhole
    | cons c more =>
      refine ⟨c, more, rfl, .inr ?_⟩
      by_contra hc
      simp [Token.whole?, hc] at hwhole

/-- What stands in a number is no blank. -/
theorem skip_of_head {c : Char} (hc : c.isDigit = true ∨ c = '.' ∨ c = '-') (more : List Char) :
    skip (c :: more) = c :: more := by
  have hblank : (c == ' ' || c == '\n' || c == '\r' || c == '\t') = false := by
    rcases hc with hc | rfl | rfl
    · simp only [Bool.or_eq_false_iff, beq_eq_false_iff_ne]
      refine ⟨⟨⟨?_, ?_⟩, ?_⟩, ?_⟩ <;> (rintro rfl; revert hc; decide)
    · rfl
    · rfl
  rw [skip, List.dropWhile_cons, hblank]
  rfl

/-- What begins like a number is read as a number. -/
theorem value?_of_head {c : Char} (hc : c = '-' ∨ c.isDigit = true) (more : List Char) (levels : Option Nat) (n : Nat) :
    value? levels (n + 1) (c :: more) =
      (token? (c :: more)).bind fun p => p.1.toNumber?.bind fun number => some (.number number, p.2) := by
  have hother : c ≠ 'n' ∧ c ≠ 't' ∧ c ≠ 'f' ∧ c ≠ '"' ∧ c ≠ '[' ∧ c ≠ '\x7b' := by
    rcases hc with rfl | hc
    · decide
    · refine ⟨?_, ?_, ?_, ?_, ?_, ?_⟩ <;> (rintro rfl; revert hc; decide)
  rw [value?, skip_of_head (hc.symm.imp_right .inr)]
  split <;> simp_all

theorem whole?_toDigits (n : Nat) : Token.whole? (Nat.toDigits 10 n) = some (Nat.toDigits 10 n, []) := by
  have hall : ∀ c ∈ Nat.toDigits 10 n, c.isDigit = true := fun c hc =>
    Nat.isDigit_of_mem_toDigits (by decide) (by decide) hc
  have hzero : (decide (1 < (Nat.toDigits 10 n).length) && (Nat.toDigits 10 n).head? == some '0') = false := by
    by_cases hn : n = 0
    · rw [hn]
      rfl
    · simp [Pointer.head?_toDigits_ne_zero hn]
  simp [Token.whole?, List.takeWhile_eq_self_iff.mpr hall, List.dropWhile_eq_nil_iff.mpr hall, Nat.toDigits_ne_nil, hzero]

theorem head?_toDigits_ne_minus (n : Nat) : (Nat.toDigits 10 n).head? ≠ some '-' := by
  intro h
  have hdigit := Nat.isDigit_of_mem_toDigits (by decide) (by decide) (List.mem_of_mem_head? h)
  revert hdigit
  decide

/-- The digits of a number are one token, and so they are behind a sign. -/
theorem token?_toDigits (n : Nat) :
    token? (Nat.toDigits 10 n) = some (⟨false, Nat.toDigits 10 n, [], 0, true⟩, []) := by
  rw [token?_eq_some_iff, Token.sign_of_head (head?_toDigits_ne_minus n)]
  exact ⟨_, _, none, _, none, whole?_toDigits n, rfl, rfl, rfl⟩

theorem token?_minus_toDigits (n : Nat) :
    token? ('-' :: Nat.toDigits 10 n) = some (⟨true, Nat.toDigits 10 n, [], 0, true⟩, []) := by
  rw [token?_eq_some_iff]
  exact ⟨_, _, none, _, none, whole?_toDigits n, rfl, rfl, rfl⟩

theorem digitsValue_toDigits (n : Nat) : Double.digitsValue (Nat.toDigits 10 n) = n :=
  Nat.ofDigitChars_eq_foldl.symm.trans Nat.ofDigitChars_ten_toDigits

namespace Number

theorem ofInt_eq {i : Int} (fits : -Int.pow 2 63 ≤ i ∧ i < Int.pow 2 64) : ofInt i = .integer i fits := dif_pos fits

end Number

/-- A token of digits is an integer if it is not too large. -/
theorem Token.toNumber?_toDigits {n : Nat} (hn : n ≤ significandLimit) :
    (Token.mk false (Nat.toDigits 10 n) [] 0 true).toNumber? = some (.ofInt n) := by
  simp only [Token.toNumber?, digitsValue_toDigits, hn, decide_true, Bool.and_self, if_true]
  rfl

theorem Token.toNumber?_minus_toDigits {n : Nat} (hn : n ≤ significandLimit) (hpos : n ≠ 0) :
    (Token.mk true (Nat.toDigits 10 n) [] 0 true).toNumber? = some (.ofInt (-n)) := by
  simp only [Token.toNumber?, digitsValue_toDigits, hn, decide_true, Bool.and_self, if_true, hpos, if_false]

/-- The text of an integer is a token that stands for it. -/
theorem exists_token_integer {i : Int} (fits : -Int.pow 2 63 ≤ i ∧ i < Int.pow 2 64) :
    ∃ t, token? (toString i).toList = some (t, []) ∧ t.toNumber? = some (.integer i fits) := by
  have hlow : -9223372036854775808 ≤ i := fits.1
  have hhigh : i < 18446744073709551616 := fits.2
  have hlimit : significandLimit = 18446744073709551615 := rfl
  have htext : toString i = i.repr := rfl
  rw [htext, Int.repr_eq_if]
  split
  · next hsign =>
    rw [Nat.repr_eq_ofList_toDigits, String.toList_ofList]
    refine ⟨_, token?_toDigits _, ?_⟩
    rw [Token.toNumber?_toDigits (by omega), Int.toNat_of_nonneg hsign, Number.ofInt_eq fits]
  · next hsign =>
    have hnat : -(((-i).toNat : Nat) : Int) = i := by omega
    rw [Nat.repr_eq_ofList_toDigits, String.toList_append, String.toList_ofList, String.toList_ofList,
      List.singleton_append]
    refine ⟨_, token?_minus_toDigits _, ?_⟩
    rw [Token.toNumber?_minus_toDigits (by omega) (by omega), hnat, Number.ofInt_eq fits]

/-! ### Nesting -/

mutual

/-- The number of arrays and objects around each other. -/
def nesting : Json → Nat
  | .array items => itemsNesting items + 1
  | .object members => membersNesting members + 1
  | _ => 0

/-- The largest nesting among the elements of an array. -/
def itemsNesting : List Json → Nat
  | [] => 0
  | item :: rest => max (nesting item) (itemsNesting rest)

/-- The largest nesting among the members of an object. -/
def membersNesting : List (String × Json) → Nat
  | [] => 0
  | (_, value) :: rest => max (nesting value) (membersNesting rest)

end

/-- A reader with this limit reads what is nested so deep; `none` is no limit. -/
def Allows (levels : Option Nat) (nesting : Nat) : Prop := ∀ n ∈ levels, nesting ≤ n

instance (levels : Option Nat) (nesting : Nat) : Decidable (Allows levels nesting) :=
  inferInstanceAs (Decidable (∀ n ∈ levels, nesting ≤ n))

section

variable {levels : Option Nat} {a b : Nat}

theorem allows_zero : Allows levels 0 := fun n _ => Nat.zero_le n

theorem allows_none : Allows none a := fun n hn => by cases hn

theorem allows_max : Allows levels (max a b) ↔ Allows levels a ∧ Allows levels b := by
  simp only [Allows, Nat.max_le]
  exact forall₂_and

/-- Inside an array or object there is one level less, or nothing is read if there is none. -/
theorem descend?_cases (levels : Option Nat) : (descend? levels = none ∧ ∀ n, ¬Allows levels (n + 1)) ∨
    ∃ inner, descend? levels = some inner ∧ ∀ n, Allows levels (n + 1) ↔ Allows inner n := by
  rcases levels with _ | _ | levels
  · exact .inr ⟨none, rfl, fun n => by simp [Allows]⟩
  · exact .inl ⟨rfl, fun n => by simp [Allows]⟩
  · exact .inr ⟨some levels, rfl, fun n => by simp [Allows]⟩

end

/-! ### Values -/

/-- The text of the first data is read as the second, whatever follows a value, if there is fuel for each of its
characters and the limit allows its nesting; otherwise it is refused. -/
def Reads (source json : Json) : Prop :=
  ∀ (levels : Option Nat) (rest : List Char) (n : Nat), Delimits rest → source.toText.length ≤ n →
    value? levels n (source.toText.toList ++ rest) =
      if Allows levels source.nesting then some (json, rest) else none

theorem Reads.ofText?_toText {source json : Json} (h : Reads source json) (levels : Option Nat) :
    ofText? source.toText levels = if Allows levels source.nesting then some json else none := by
  have hnil : Delimits [] := fun c hc => by cases hc
  have hvalue := h levels _ (2 * source.toText.toList.length + 2) hnil (by rw [String.length_toList]; omega)
  rw [List.append_nil] at hvalue
  unfold Json.ofText?
  dsimp only
  rw [hvalue]
  split <;> rfl

theorem Reads.of_token {source : Json} {t : Token} {number : Number} (hsource : source.nesting = 0)
    (ht : token? source.toText.toList = some (t, [])) (hnumber : t.toNumber? = some number) :
    Reads source (.number number) := by
  intro levels rest n hd hn
  obtain ⟨c, more, hchars, hc⟩ := head_of_token? ht
  have hlength : source.toText.length = more.length + 1 := by rw [← String.length_toList, hchars, List.length_cons]
  obtain ⟨n, rfl⟩ : ∃ k, n = k + 1 := ⟨n - 1, by omega⟩
  have happend := token?_append hd ht
  rw [hchars, List.cons_append, List.nil_append] at happend
  rw [hchars, List.cons_append, value?_of_head hc, happend, hsource, if_pos allows_zero]
  simp [hnumber]

theorem reads_integer {i : Int} (fits : -Int.pow 2 63 ≤ i ∧ i < Int.pow 2 64) :
    Reads (.number (.integer i fits)) (.number (.integer i fits)) := by
  obtain ⟨t, ht, hnumber⟩ := exists_token_integer fits
  exact Reads.of_token rfl ht hnumber

theorem reads_null : Reads .null .null := by
  intro levels rest n _ hn
  obtain ⟨n, rfl⟩ := Nat.exists_eq_add_of_le' (Nat.le_trans (show 1 ≤ "null".length by decide) hn)
  exact (if_pos allows_zero).symm

theorem reads_bool (b : Bool) : Reads (.bool b) (.bool b) := by
  intro levels rest n _ hn
  refine Eq.trans ?_ (if_pos allows_zero).symm
  cases b with
  | false =>
    obtain ⟨n, rfl⟩ := Nat.exists_eq_add_of_le' (Nat.le_trans (show 1 ≤ "false".length by decide) hn)
    rfl
  | true =>
    obtain ⟨n, rfl⟩ := Nat.exists_eq_add_of_le' (Nat.le_trans (show 1 ≤ "true".length by decide) hn)
    rfl

section

variable (levels : Option Nat) (n : Nat) (chars : List Char)

theorem value?_skip : value? levels n (skip chars) = value? levels n chars := by
  cases n with
  | zero => rfl
  | succ n => rw [value?, value?, skip, skip, List.dropWhile_idempotent]

theorem items?_skip : items? levels n (skip chars) = items? levels n chars := by
  cases n with
  | zero => rfl
  | succ n => rw [items?, items?, value?_skip]

theorem members?_skip : members? levels n (skip chars) = members? levels n chars := by
  cases n with
  | zero => rfl
  | succ n => rw [members?, members?, skip, skip, List.dropWhile_idempotent]

/-- No value begins with a closing bracket. -/
theorem value?_close : value? levels n (']' :: chars) = none := by
  cases n <;> rfl

theorem items?_close : items? levels n (']' :: chars) = none := by
  cases n with
  | zero => rfl
  | succ n => rw [items?, value?_close]; rfl

theorem members?_close : members? levels n ('\x7d' :: chars) = none := by
  cases n <;> rfl

end

theorem reads_string (s : String) : Reads (.string s) (.string s) := by
  intro levels rest n _ hn
  refine Eq.trans ?_ (if_pos allows_zero).symm
  rw [toText] at hn ⊢
  have hlength := length_le_quote s
  obtain ⟨n, rfl⟩ : ∃ k, n = k + 1 := ⟨n - 1, by omega⟩
  rw [toList_quote, List.cons_append, List.append_assoc, List.singleton_append]
  have hquote : skip ('"' :: (s.toList.flatMap escapeChar ++ '"' :: rest)) =
      '"' :: (s.toList.flatMap escapeChar ++ '"' :: rest) := rfl
  rw [value?, hquote]
  simp [string?_quote s hn]

/-! ### Arrays and objects -/

/-- The texts of the elements, with commas between them, are read up to the closing bracket. -/
theorem items?_intercalate {sources items : List Json} (h : List.Forall₂ Reads sources items) (hne : sources ≠ [])
    {n : Nat} (hn : (",".intercalate (sources.map toText)).length < n) (levels : Option Nat) (rest : List Char) :
    items? levels n ((",".intercalate (sources.map toText)).toList ++ ']' :: rest) =
      if Allows levels (itemsNesting sources) then some (items, rest) else none := by
  induction h generalizing n with
  | nil => exact absurd rfl hne
  | @cons source item sources items hitem h ih =>
    obtain ⟨n, rfl⟩ : ∃ k, n = k + 1 := ⟨n - 1, by omega⟩
    rw [itemsNesting, if_congr allows_max rfl rfl]
    cases h with
    | nil =>
      rw [List.map_singleton, String.intercalate_singleton] at hn ⊢
      have hclose : Delimits (']' :: rest) := fun c hc => by cases hc; simp
      rw [items?, hitem _ _ _ hclose (by omega)]
      by_cases hallows : Allows levels source.nesting
      · simp [hallows, itemsNesting, allows_zero, skip]
      · simp [hallows]
    | @cons source' item' sources items hitem' h =>
      rw [List.map_cons, List.map_cons, String.intercalate_cons_cons, String.length_append, String.length_append] at hn
      have hcomma : ∀ more, Delimits (',' :: more) := fun more c hc => by cases hc; simp
      have hlength : ",".length = 1 := rfl
      have hchars : ",".toList = [','] := rfl
      have hrest := ih (by simp) (n := n) (by rw [List.map_cons]; omega)
      rw [List.map_cons] at hrest
      rw [List.map_cons, List.map_cons, String.intercalate_cons_cons, String.toList_append, String.toList_append, hchars,
        List.append_assoc, List.append_assoc, List.singleton_append, items?, hitem _ _ _ (hcomma _) (by omega)]
      have hskip : ∀ more, skip (',' :: more) = ',' :: more := fun more => rfl
      by_cases hallows : Allows levels source.nesting
      · simp only [hallows, if_true, true_and, hskip, hrest, Option.bind_eq_bind, Option.bind_some]
        split <;> rfl
      · simp only [hallows, if_false, false_and, Option.bind_eq_bind, Option.bind_none]

theorem toList_bracketed (left right : String) (texts : List String) : (bracketed left right texts).toList =
    left.toList ++ ((",".intercalate texts).toList ++ right.toList) := by
  simp only [bracketed, String.toList_append, List.append_assoc]

theorem length_bracketed (left right : String) (texts : List String) : (bracketed left right texts).length =
    left.length + (",".intercalate texts).length + right.length := by
  simp only [bracketed, String.length_append]

section

variable {levels inner : Option Nat} {more : List Char} (hinner : descend? levels = some inner)

include hinner

/-- Behind an opening bracket there is the closing one, or there are elements. -/
theorem value?_openArray (hmore : ∀ rest, skip more ≠ ']' :: rest) (n : Nat) :
    value? levels (n + 1) ('[' :: more) = (items? inner n (skip more)).bind fun p => some (.array p.1, p.2) := by
  have hskip : skip ('[' :: more) = '[' :: more := rfl
  rw [value?, hskip]
  simp only [hinner]
  rfl

theorem value?_openObject (hmore : ∀ rest, skip more ≠ '\x7d' :: rest) (n : Nat) :
    value? levels (n + 1) ('\x7b' :: more) =
      (members? inner n (skip more)).bind fun p => some (.object (Members.sorted p.1), p.2) := by
  have hskip : skip ('\x7b' :: more) = '\x7b' :: more := rfl
  rw [value?, hskip]
  simp only [hinner]
  rfl

end

/-- Nothing is read in brackets that are one too many. -/
theorem value?_of_descend?_none {levels : Option Nat} (hlevels : descend? levels = none) (n : Nat) (more : List Char) :
    value? levels n ('[' :: more) = none ∧ value? levels n ('\x7b' :: more) = none := by
  cases n with
  | zero => exact ⟨rfl, rfl⟩
  | succ n =>
    have hskip : skip ('[' :: more) = '[' :: more := rfl
    have hskip' : skip ('\x7b' :: more) = '\x7b' :: more := rfl
    rw [value?, value?, hskip, hskip']
    simp only [hlevels]
    exact ⟨rfl, rfl⟩

/-- An array is read if its elements are. -/
theorem Reads.array {sources items : List Json} (h : List.Forall₂ Reads sources items) :
    Reads (.array sources) (.array items) := by
  intro levels rest n _ hn
  have hopen : "[".toList = ['['] := rfl
  have hclose : "]".toList = [']'] := rfl
  have hone : "[".length = 1 ∧ "]".length = 1 := ⟨rfl, rfl⟩
  rw [toText, itemTexts_eq, length_bracketed] at hn
  obtain ⟨n, rfl⟩ : ∃ k, n = k + 1 := ⟨n - 1, by omega⟩
  rw [toText, itemTexts_eq, toList_bracketed, hopen, hclose, List.singleton_append, List.cons_append, List.append_assoc,
    List.singleton_append, nesting]
  obtain ⟨hlevels, hnot⟩ | ⟨inner, hinner, hallows⟩ := descend?_cases levels
  · rw [if_neg (hnot _), (value?_of_descend?_none hlevels _ _).1]
  rw [if_congr (hallows _) rfl rfl]
  by_cases hne : sources = []
  · subst hne
    cases h
    refine Eq.trans ?_ (if_pos allows_zero).symm
    have hskip : ∀ more, skip ('[' :: more) = '[' :: more := fun more => rfl
    have hskip' : skip (']' :: rest) = ']' :: rest := rfl
    rw [List.map_nil, String.intercalate_nil, String.toList_empty, List.nil_append, value?, hskip]
    simp only [hinner, hskip', Option.bind_eq_bind, Option.bind_some]
  have hitems := fun inner => items?_intercalate h hne (n := n) (by omega) inner rest
  have hunlimited := hitems none
  rw [if_pos allows_none, ← items?_skip] at hunlimited
  rw [value?_openArray hinner (fun more heq => ?_), items?_skip, hitems]
  · split <;> rfl
  · rw [heq, items?_close] at hunlimited
    cases hunlimited

/-- The text of a member. -/
def memberText (m : String × Json) : String := quote m.1 ++ ":" ++ m.2.toText

theorem toList_memberText_append (key : String) (source : Json) (rest : List Char) :
    (memberText (key, source)).toList ++ rest =
      '"' :: (key.toList.flatMap escapeChar ++ '"' :: ':' :: (source.toText.toList ++ rest)) := by
  have hcolon : ":".toList = [':'] := rfl
  simp [memberText, toList_quote, hcolon]

theorem length_memberText (key : String) (source : Json) :
    (memberText (key, source)).length = (quote key).length + 1 + source.toText.length := by
  rw [memberText, String.length_append, String.length_append]
  rfl

/-- A member is read up to what is behind it: the closing brace, or a comma and more members. -/
theorem members?_member {key : String} {source json : Json} (h : Reads source json) {n : Nat}
    (hn : (memberText (key, source)).length ≤ n + 1) (levels : Option Nat) (rest : List Char) :
    members? levels (n + 1) ((memberText (key, source)).toList ++ '\x7d' :: rest) =
        (if Allows levels source.nesting then some ([(key, json)], rest) else none) ∧
      members? levels (n + 1) ((memberText (key, source)).toList ++ ',' :: rest) =
        if Allows levels source.nesting then
          (members? levels n rest).bind fun p => some ((key, json) :: p.1, p.2) else none := by
  rw [length_memberText] at hn
  have hquote : ∀ more, skip ('"' :: more) = '"' :: more := fun more => rfl
  have hcolon : ∀ more, skip (':' :: more) = ':' :: more := fun more => rfl
  have hclose : ∀ more, skip ('\x7d' :: more) = '\x7d' :: more := fun more => rfl
  have hcomma : ∀ more, skip (',' :: more) = ',' :: more := fun more => rfl
  have hkey := string?_quote key (n := n + 1) (by omega)
  constructor
  · have hd : Delimits ('\x7d' :: rest) := fun c hc => by cases hc; simp
    have hvalue := h levels _ n hd (by omega)
    rw [toList_memberText_append, members?, hquote]
    by_cases hallows : Allows levels source.nesting <;>
      simp only [hkey, hcolon, hvalue, hclose, hallows, if_true, if_false, Option.bind_eq_bind, Option.bind_some,
        Option.bind_none]
  · have hd : Delimits (',' :: rest) := fun c hc => by cases hc; simp
    have hvalue := h levels _ n hd (by omega)
    rw [toList_memberText_append, members?, hquote]
    by_cases hallows : Allows levels source.nesting <;>
      simp only [hkey, hcolon, hvalue, hcomma, hallows, if_true, if_false, Option.bind_eq_bind, Option.bind_some,
        Option.bind_none]

/-- The texts of the members, with commas between them, are read up to the closing brace. -/
theorem members?_intercalate {sources members : List (String × Json)}
    (h : List.Forall₂ (fun m n => m.1 = n.1 ∧ Reads m.2 n.2) sources members) (hne : sources ≠ []) {n : Nat}
    (hn : (",".intercalate (sources.map memberText)).length < n) (levels : Option Nat) (rest : List Char) :
    members? levels n ((",".intercalate (sources.map memberText)).toList ++ '\x7d' :: rest) =
      if Allows levels (membersNesting sources) then some (members, rest) else none := by
  induction h generalizing n with
  | nil => exact absurd rfl hne
  | @cons source member sources members hmember h ih =>
    obtain ⟨key, source⟩ := source
    obtain ⟨key', json⟩ := member
    obtain ⟨rfl, hvalue⟩ := hmember
    replace hvalue : Reads source json := hvalue
    obtain ⟨n, rfl⟩ : ∃ k, n = k + 1 := ⟨n - 1, by omega⟩
    rw [membersNesting, if_congr allows_max rfl rfl]
    cases h with
    | nil =>
      rw [List.map_singleton, String.intercalate_singleton] at hn ⊢
      rw [(members?_member hvalue (by omega) levels rest).1, membersNesting]
      exact if_congr (and_iff_left allows_zero).symm rfl rfl
    | @cons m m' sources members hm h =>
      rw [List.map_cons, List.map_cons, String.intercalate_cons_cons, String.length_append, String.length_append] at hn
      have hlength : ",".length = 1 := rfl
      have hchars : ",".toList = [','] := rfl
      have hrest := ih (by simp) (n := n) (by rw [List.map_cons]; omega)
      rw [List.map_cons] at hrest
      rw [List.map_cons, List.map_cons, String.intercalate_cons_cons, String.toList_append, String.toList_append, hchars,
        List.append_assoc, List.append_assoc, List.singleton_append, (members?_member hvalue (by omega) levels _).2, hrest]
      by_cases hallows : Allows levels source.nesting
      · simp only [hallows, if_true, true_and]
        split <;> rfl
      · simp only [hallows, if_false, false_and]

/-- An object is read if the values of its members are; the members come out in the order of their keys. -/
theorem Reads.object {sources members : List (String × Json)}
    (h : List.Forall₂ (fun m n => m.1 = n.1 ∧ Reads m.2 n.2) sources members) :
    Reads (.object sources) (.object (Members.sorted members)) := by
  have htext : (Json.object sources).toText = bracketed "\x7b" "\x7d" (sources.map memberText) := by
    rw [toText, memberTexts_eq]
    rfl
  intro levels rest n _ hn
  have hopen : "\x7b".toList = ['\x7b'] := rfl
  have hclose : "\x7d".toList = ['\x7d'] := rfl
  have hone : "\x7b".length = 1 ∧ "\x7d".length = 1 := ⟨rfl, rfl⟩
  rw [htext, length_bracketed] at hn
  obtain ⟨n, rfl⟩ : ∃ k, n = k + 1 := ⟨n - 1, by omega⟩
  rw [htext, toList_bracketed, hopen, hclose, List.singleton_append, List.cons_append, List.append_assoc,
    List.singleton_append, nesting]
  obtain ⟨hlevels, hnot⟩ | ⟨inner, hinner, hallows⟩ := descend?_cases levels
  · rw [if_neg (hnot _), (value?_of_descend?_none hlevels _ _).2]
  rw [if_congr (hallows _) rfl rfl]
  by_cases hne : sources = []
  · subst hne
    cases h
    refine Eq.trans ?_ (if_pos allows_zero).symm
    have hskip : ∀ more, skip ('\x7b' :: more) = '\x7b' :: more := fun more => rfl
    have hskip' : skip ('\x7d' :: rest) = '\x7d' :: rest := rfl
    rw [List.map_nil, String.intercalate_nil, String.toList_empty, List.nil_append, value?, hskip]
    simp only [hinner, hskip', Option.bind_eq_bind, Option.bind_some]
    rfl
  have hmembers := fun inner => members?_intercalate h hne (n := n) (by omega) inner rest
  have hunlimited := hmembers none
  rw [if_pos allows_none, ← members?_skip] at hunlimited
  rw [value?_openObject hinner (fun more heq => ?_), members?_skip, hmembers]
  · split <;> rfl
  · rw [heq, members?_close] at hunlimited
    cases hunlimited

end Json

/-! ### The text of a number -/

namespace Double

variable {x : Double} {c : Char}

/-- Positional notation has digits only, and a point. -/
theorem mem_positional {digits : Nat} {power : Int} (hc : c ∈ (positional digits power).toList) :
    c.isDigit = true ∨ c = '.' := by
  have hdigit : ∀ c ∈ Nat.toDigits 10 digits, c.isDigit = true := fun c hc =>
    Nat.isDigit_of_mem_toDigits (by decide) (by decide) hc
  have hzero : ∀ n, ∀ c ∈ List.replicate n '0', c.isDigit = true := fun n c hc => by
    rw [(List.mem_replicate.mp hc).2]
    rfl
  have hpadded : ∀ n, ∀ c ∈ List.replicate n '0' ++ Nat.toDigits 10 digits, c.isDigit = true := fun n c hc =>
    (List.mem_append.mp hc).elim (hzero n c) (hdigit c)
  unfold positional at hc
  dsimp only at hc
  split at hc
  · rw [String.toList_ofList, List.mem_append] at hc
    exact .inl (hc.elim (hdigit c) (hzero _ c))
  · rw [String.toList_ofList] at hc
    have hfraction : ∀ {l : List Char}, c ∈ (l.reverse.dropWhile (· == '0')).reverse → c ∈ l := fun hc =>
      List.mem_reverse.mp ((List.dropWhile_suffix _).subset (List.mem_reverse.mp hc))
    split at hc
    · exact .inl (hpadded _ c (List.mem_of_mem_take hc))
    · rcases List.mem_append.mp hc with hc | hc
      · exact .inl (hpadded _ c (List.mem_of_mem_take hc))
      · rcases List.mem_cons.mp hc with hc | hc
        · exact .inr hc
        · exact .inl (hpadded _ c (List.mem_of_mem_drop (hfraction hc)))

/-- The text of a finite number has digits only, a point and a sign. -/
theorem mem_toText (hx : x.isFinite = true) (hc : c ∈ x.toText.toList) : c.isDigit = true ∨ c = '.' ∨ c = '-' := by
  cases x with
  | finite negative m e =>
    have hsign : ∀ {text : String}, c ∈ ((if negative then "-" else "") ++ text).toList → c = '-' ∨ c ∈ text.toList := by
      intro text hc
      rw [String.toList_append, List.mem_append] at hc
      refine hc.imp_left fun hc => ?_
      cases negative with
      | false => cases hc
      | true => exact List.mem_singleton.mp hc
    unfold toText at hc
    dsimp only at hc
    split at hc
    · rcases hsign hc with rfl | hc
      · exact .inr (.inr rfl)
      · rw [List.mem_singleton.mp hc]
        exact .inl rfl
    · rcases hsign hc with rfl | hc
      · exact .inr (.inr rfl)
      · exact (mem_positional hc).imp_right .inl
  | _ => cases hx

end Double

namespace Json

variable {chars : List Char}

/-! What is left behind a part of a number is the end of the text. -/

theorem Token.sign_suffix (chars : List Char) : (sign chars).2 <:+ chars := by
  by_cases hhead : chars.head? = some '-'
  · obtain ⟨more, rfl⟩ := List.head?_eq_some_iff.mp hhead
    exact List.suffix_cons _ _
  · simp only [sign_of_head hhead, List.suffix_rfl]

theorem Token.whole?_suffix {whole left : List Char} (h : whole? chars = some (whole, left)) : left <:+ chars := by
  unfold whole? at h
  dsimp only at h
  split at h
  · cases h
  · cases h
    exact List.dropWhile_suffix _

theorem Token.fraction?_suffix {fraction : Option (List Char)} {left : List Char}
    (h : fraction? chars = some (fraction, left)) : left <:+ chars := by
  by_cases hhead : chars.head? = some '.'
  · obtain ⟨more, rfl⟩ := List.head?_eq_some_iff.mp hhead
    rw [fraction?] at h
    split at h
    · cases h
    · cases h
      exact (List.dropWhile_suffix _).trans (List.suffix_cons _ _)
  · rw [fraction?_of_head hhead] at h
    cases h
    exact List.suffix_rfl

theorem Token.exponent?_suffix {exponent : Option Int} {left : List Char}
    (h : exponent? chars = some (exponent, left)) : left <:+ chars := by
  by_cases hhead : chars.head? = some 'e' ∨ chars.head? = some 'E'
  · obtain ⟨c, more, rfl, hc⟩ := exists_of_head hhead
    rw [exponent?_cons hc] at h
    obtain ⟨e, -, heq⟩ := Option.map_eq_some_iff.mp h
    cases heq
    exact (List.dropWhile_suffix _).trans ((List.dropWhile_suffix _).trans (List.suffix_cons _ _))
  · rw [not_or] at hhead
    rw [exponent?_of_head hhead] at h
    cases h
    exact List.suffix_rfl

theorem token?_suffix {t : Token} {left : List Char} (h : token? chars = some (t, left)) : left <:+ chars := by
  obtain ⟨whole, afterWhole, fraction, afterFraction, exponent, hwhole, hfraction, hexponent, -⟩ :=
    token?_eq_some_iff.mp h
  exact (Token.exponent?_suffix hexponent).trans ((Token.fraction?_suffix hfraction).trans
    ((Token.whole?_suffix hwhole).trans (Token.sign_suffix chars)))

/-- The text of a finite number is read wherever it stands, if it is read on its own. -/
theorem reads_number {x : Double} {json : Json} (hx : x.isFinite = true) (h : ofText? x.toText none = some json) :
    Reads (.number (.decimal x)) json := by
  obtain ⟨⟨json', rest⟩, hvalue, hrest⟩ := Option.bind_eq_some_iff.mp h
  have hempty : skip rest = [] ∧ json' = json := by simpa using hrest
  obtain ⟨hskip, rfl⟩ := hempty
  have hmem : ∀ c ∈ x.toText.toList, c.isDigit = true ∨ c = '.' ∨ c = '-' := fun c hc => Double.mem_toText hx hc
  obtain ⟨c, more, hchars, hc⟩ : ∃ c more, x.toText.toList = c :: more ∧ (c = '-' ∨ c.isDigit = true) := by
    cases hchars : x.toText.toList with
    | nil =>
      rw [hchars] at hvalue
      cases hvalue
    | cons c more =>
      rcases hmem c (by rw [hchars]; exact List.mem_cons_self) with hc | rfl | rfl
      · exact ⟨c, more, rfl, .inr hc⟩
      · rw [hchars] at hvalue
        cases hvalue
      · exact ⟨'-', more, rfl, .inl rfl⟩
  rw [hchars, value?_of_head hc] at hvalue
  obtain ⟨⟨t, left⟩, ht, hjson⟩ := Option.bind_eq_some_iff.mp hvalue
  obtain ⟨number, hnumber, heq⟩ := Option.bind_eq_some_iff.mp hjson
  cases heq
  -- nothing is left behind the number, for no blank could be
  have hleft : left = [] := by
    cases left with
    | nil => rfl
    | cons d left =>
      rw [skip_of_head (hmem d (hchars ▸ (token?_suffix ht).subset List.mem_cons_self))] at hskip
      cases hskip
  rw [hleft, ← hchars] at ht
  exact Reads.of_token rfl ht hnumber

/-! ### What the text of data is read as -/

/-- The floating-point number that a JSON number stands for. -/
def asDouble? : Json → Option Double
  | .number n => some n.toDouble
  | _ => none

end Json

/-- The text of a number is read as the same number. It may be an integer then. -/
def Double.ReadsBack (x : Double) : Prop := (Json.ofText? x.toText none).bind Json.asDouble? = some x

instance (x : Double) : Decidable x.ReadsBack := decEq ((Json.ofText? x.toText none).bind Json.asDouble?) (some x)

namespace Json

/-- What the text of JSON data is read as: numbers are what they are read as on their own, and the members of an object
come out in the order of their keys. -/
inductive ReadsAs : Json → Json → Prop
  | null : ReadsAs .null .null
  | bool {b : Bool} : ReadsAs (.bool b) (.bool b)
  | integer {i : Int} {fits : -Int.pow 2 63 ≤ i ∧ i < Int.pow 2 64} :
      ReadsAs (.number (.integer i fits)) (.number (.integer i fits))
  | number {x : Double} {json : Json} : x.isFinite = true → ofText? x.toText none = some json → json.asDouble? = some x →
      ReadsAs (.number (.decimal x)) json
  | string {s : String} : ReadsAs (.string s) (.string s)
  | array {items items' : List Json} : items.length = items'.length →
      (∀ {a b}, (a, b) ∈ items.zip items' → ReadsAs a b) → ReadsAs (.array items) (.array items')
  | object {members members' : List (String × Json)} : members.map (·.1) = members'.map (·.1) →
      (∀ {m n}, (m, n) ∈ members.zip members' → ReadsAs m.2 n.2) →
      ReadsAs (.object members) (.object (Members.sorted members'))

/-- A string is read as this string, and nothing else is. -/
theorem ReadsAs.eq_string_iff {json json' : Json} (h : json.ReadsAs json') {s : String} :
    json' = .string s ↔ json = .string s := by
  cases h with
  | number _ _ hdouble =>
    constructor
    · rintro rfl
      cases hdouble
    · intro heq
      cases heq
  | string => exact Iff.rfl
  | _ => simp

theorem ReadsAs.reads {json json' : Json} (h : json.ReadsAs json') : Reads json json' := by
  induction h with
  | null => exact reads_null
  | @bool b => exact reads_bool b
  | integer => exact reads_integer _
  | number hx hjson => exact reads_number hx hjson
  | @string s => exact reads_string s
  | array hlength _ ih => exact Reads.array (List.forall₂_iff_zip.mpr ⟨hlength, ih⟩)
  | object hkeys _ ih => exact Reads.object (Members.forall₂_of_keys hkeys ih)

end Json

end JsonSchema
