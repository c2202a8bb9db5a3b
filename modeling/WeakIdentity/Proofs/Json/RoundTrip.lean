import WeakIdentity.Json.Parser
import WeakIdentity.Json.Printer

/-! JSON text is read back as the value that it was printed from. An escape ends where its character
does, a quote ends a string because no character of the string is written as one, and a number ends
where no digit, point or exponent follows. -/

namespace WeakIdentity.Json

/-! ### Strings -/

/-- What has been read, with `c` in front of it. -/
def following (c : Char) (read : Option (List Char × List Char)) : Option (List Char × List Char) :=
  read.map fun parts => (c :: parts.1, parts.2)

theorem readString_short {e c : Char} (stands : shortEscape? e = some c) (cs : List Char) :
    readString ('\\' :: e :: cs) = following c (readString cs) := by
  have unit : e ≠ 'u' := by
    rintro rfl
    cases stands
  rw [readString]
  · simp only [stands, Option.bind_eq_bind, Option.bind_some, following]
    cases readString cs <;> rfl
  · rintro a b c d rest rfl
    exact fun _ => unit rfl

theorem readString_unit {a b c d : Char} {n : Nat} (value : hexValue? a b c d = some n)
    (small : n < 0x20) (cs : List Char) :
    readString ('\\' :: 'u' :: a :: b :: c :: d :: cs) = following (.ofNat n) (readString cs) := by
  have single : ¬(0xd800 ≤ n ∧ n < 0xdc00) ∧ ¬(0xdc00 ≤ n ∧ n < 0xe000) := by omega
  simp only [readString, value, Option.bind_eq_bind, Option.bind_some, single.1, single.2, if_false,
    following]
  cases readString cs <;> rfl

theorem readString_plain {c : Char} (quote : c ≠ '"') (escape : c ≠ '\\') (high : 0x20 ≤ c.toNat)
    (cs : List Char) : readString (c :: cs) = following c (readString cs) := by
  have raw : ¬(c.toNat < 0x20 ∨ c = '\\') := by
    rintro (low | rfl)
    · omega
    · exact escape rfl
  rw [readString]
  · simp only [raw, if_false, Option.bind_eq_bind, following]
    cases readString cs <;> rfl
  · exact fun h => quote h
  · exact fun _ _ _ _ _ h => absurd h escape
  · exact fun _ _ h => absurd h escape

/-- Four digits in base sixteen are read back. -/
theorem fourHex_of_control : ∀ n < 0x20,
    ∃ a b c d, fourHex n = [a, b, c, d] ∧ hexValue? a b c d = some n := by
  have read : ∀ n < 0x20,
      (fourHex n).length = 4 ∧
        hexValue? ((fourHex n).getD 0 '0') ((fourHex n).getD 1 '0') ((fourHex n).getD 2 '0')
          ((fourHex n).getD 3 '0') = some n := by
    decide
  intro n small
  obtain ⟨length, value⟩ := read n small
  match digits : fourHex n, length with
  | [a, b, c, d], _ =>
    rw [digits] at value
    exact ⟨a, b, c, d, rfl, value⟩

/-- A character is written by an escape of its own, by its number, or as itself. -/
theorem escapedChar_cases (c : Char) :
    (∃ e, shortEscape? e = some c ∧ escapedChar c = ['\\', e]) ∨
    (c.toNat < 0x20 ∧ escapedChar c = '\\' :: 'u' :: fourHex c.toNat) ∨
    (c ≠ '"' ∧ c ≠ '\\' ∧ 0x20 ≤ c.toNat ∧ escapedChar c = [c]) := by
  unfold escapedChar
  -- The first seven tests are for the characters with escapes of their own.
  iterate 7
    split
    · next same =>
      subst same
      refine Or.inl ⟨_, ?_, rfl⟩
      rfl
  split
  · next low => exact Or.inr (Or.inl ⟨low, rfl⟩)
  · next quote escape _ _ _ _ _ low =>
    exact Or.inr (Or.inr ⟨quote, escape, Nat.not_lt.mp low, rfl⟩)

/-- One character of a string is read back, whatever follows. -/
theorem readString_escapedChar (c : Char) (cs : List Char) :
    readString (escapedChar c ++ cs) = following c (readString cs) := by
  obtain ⟨e, stands, escaped⟩ | ⟨low, escaped⟩ | ⟨quote, escape, high, escaped⟩ :=
    escapedChar_cases c
  · rw [escaped]
    exact readString_short stands cs
  · obtain ⟨x, y, z, w, digits, value⟩ := fourHex_of_control c.toNat low
    have read := readString_unit value low cs
    rw [Char.ofNat_toNat] at read
    rw [escaped, digits]
    exact read
  · rw [escaped]
    exact readString_plain quote escape high cs

/-- A string is read back up to its closing quote. -/
theorem readString_escaped (text cs : List Char) :
    readString (text.flatMap escapedChar ++ '"' :: cs) = some (text, cs) := by
  induction text with
  | nil => rfl
  | cons c rest ih =>
    rw [List.flatMap_cons, List.append_assoc, readString_escapedChar, ih]
    rfl

/-! ### Numbers -/

/-- Whether a number could go on with `c`. -/
def extendsNumeral (c : Char) : Bool := c.isDigit || c == '.' || c == 'e' || c == 'E'

/-- A number in front of `cs` ends there. -/
def EndsNumeral (cs : List Char) : Prop := ∀ c ∈ cs.head?, extendsNumeral c = false

theorem endsNumeral_cons {c : Char} (h : extendsNumeral c = false) (cs : List Char) :
    EndsNumeral (c :: cs) := by
  intro d head
  rw [← Option.some.inj head]
  exact h

/-- Digits that are followed by no digit. -/
def EndsDigits (cs : List Char) : Prop := ∀ c ∈ cs.head?, c.isDigit = false

theorem EndsNumeral.digits {cs : List Char} (ends : EndsNumeral cs) : EndsDigits cs := by
  intro c head
  have stop := ends c head
  simp only [extendsNumeral, Bool.or_eq_false_iff] at stop
  exact stop.1.1.1

theorem digitsValue_toDigits (n : Nat) : digitsValue (Nat.toDigits 10 n) = n :=
  Nat.ofDigitChars_ten_toDigits

/-- Only zero starts with the digit zero. -/
theorem toDigits_eq_cons {n : Nat} (positive : 0 < n) :
    ∃ c cs, Nat.toDigits 10 n = c :: cs ∧ c ≠ '0' := by
  induction n using Nat.strongRecOn with
  | _ n ih =>
    by_cases small : n < 10
    · have digit : ∀ k < 10, 0 < k → Nat.digitChar k ≠ '0' := by decide
      exact ⟨n.digitChar, [], Nat.toDigits_of_lt_base small, digit n small positive⟩
    · obtain ⟨c, cs, digits, first⟩ := ih (n / 10) (by omega) (by omega)
      refine ⟨c, cs ++ [(n % 10).digitChar], ?_, first⟩
      rw [Nat.toDigits_of_base_le (by decide) (by omega), digits, List.cons_append]

theorem isWhole_toDigits (n : Nat) : isWhole (Nat.toDigits 10 n) = true := by
  by_cases zero : n = 0
  · subst zero
    rfl
  · obtain ⟨c, cs, digits, first⟩ := toDigits_eq_cons (Nat.pos_of_ne_zero zero)
    rw [digits]
    cases cs with
    | nil => simp [isWhole, first]
    | cons d rest => simp [isWhole, first]

section Digits

variable {cs : List Char} (ends : EndsDigits cs) (n : Nat)
include ends

theorem takeWhile_toDigits :
    (Nat.toDigits 10 n ++ cs).takeWhile Char.isDigit = Nat.toDigits 10 n := by
  have within : ∀ c ∈ Nat.toDigits 10 n, c.isDigit = true :=
    fun c mem => Nat.isDigit_of_mem_toDigits (by decide) (by decide) mem
  rw [List.takeWhile_append_of_pos within]
  cases cs with
  | nil => simp
  | cons c rest => simp [ends c rfl]

theorem dropWhile_toDigits : (Nat.toDigits 10 n ++ cs).dropWhile Char.isDigit = cs := by
  have within : ∀ c ∈ Nat.toDigits 10 n, c.isDigit = true :=
    fun c mem => Nat.isDigit_of_mem_toDigits (by decide) (by decide) mem
  rw [List.dropWhile_append_of_pos within]
  cases cs with
  | nil => simp
  | cons c rest => simp [ends c rfl]

end Digits

theorem readFraction_of_ne {cs : List Char} (point : ∀ c ∈ cs.head?, c ≠ '.') :
    readFraction cs = some ([], cs) := by
  unfold readFraction
  split
  · exact absurd rfl (point '.' rfl)
  · rfl

theorem readExponent_of_ends {cs : List Char} (ends : EndsNumeral cs) :
    readExponent cs = some (none, cs) := by
  cases cs with
  | nil => rfl
  | cons c rest =>
    have stop := ends c rfl
    simp only [extendsNumeral, Bool.or_eq_false_iff, beq_eq_false_iff_ne] at stop
    simp [readExponent, stop.1.2, stop.2]

theorem readNumeral_integer (negative : Bool) (n : Nat) {cs : List Char} (ends : EndsNumeral cs) :
    readNumeral negative (Nat.toDigits 10 n ++ cs) = some (.integer negative n, cs) := by
  have point : ∀ c ∈ cs.head?, c ≠ '.' := by
    rintro c head rfl
    exact absurd (ends '.' head) (by decide)
  simp [readNumeral, takeWhile_toDigits ends.digits, dropWhile_toDigits ends.digits,
    isWhole_toDigits, readFraction_of_ne point, readExponent_of_ends ends, digitsValue_toDigits]

theorem readExponentDigits_toDigits (negative : Bool) (n : Nat) {cs : List Char}
    (ends : EndsDigits cs) :
    readExponentDigits negative (Nat.toDigits 10 n ++ cs) =
      some (some (if negative then -(n : Int) else n), cs) := by
  simp [readExponentDigits, takeWhile_toDigits ends, dropWhile_toDigits ends,
    Nat.toDigits_ne_nil, digitsValue_toDigits]

/-- The digits of a number start with a digit. -/
theorem toDigits_head (n : Nat) : ∃ c cs, Nat.toDigits 10 n = c :: cs ∧ c.isDigit = true := by
  cases digits : Nat.toDigits 10 n with
  | nil => exact absurd digits Nat.toDigits_ne_nil
  | cons c cs =>
    refine ⟨c, cs, rfl, Nat.isDigit_of_mem_toDigits (n := n) (by decide) (Nat.le_refl 10) ?_⟩
    rw [digits]
    exact List.mem_cons_self

/-- An exponent is read back with its sign. -/
theorem readExponent_text (exponent : Int) {cs : List Char} (ends : EndsDigits cs) :
    readExponent ('e' :: ((Numeral.text.sign (exponent < 0)).toList ++
        (Nat.toDigits 10 exponent.natAbs ++ cs))) =
      some (some exponent, cs) := by
  by_cases negative : exponent < 0
  · have sign : (Numeral.text.sign (exponent < 0)).toList = ['-'] := by
      simp [Numeral.text.sign, negative]
    have value : -(exponent.natAbs : Int) = exponent := by omega
    have read := readExponentDigits_toDigits true exponent.natAbs ends
    rw [if_pos rfl, value] at read
    rw [sign]
    exact read
  · have sign : (Numeral.text.sign (exponent < 0)).toList = [] := by
      simp [Numeral.text.sign, negative]
    have value : (exponent.natAbs : Int) = exponent := by omega
    have read := readExponentDigits_toDigits false exponent.natAbs ends
    obtain ⟨d, ds, digits, digit⟩ := toDigits_head exponent.natAbs
    have plus : d ≠ '+' := by
      rintro rfl
      cases digit
    have minus : d ≠ '-' := by
      rintro rfl
      cases digit
    rw [if_neg Bool.false_ne_true, value, digits] at read
    rw [sign, digits]
    simpa [readExponent, plus, minus] using read

theorem readNumeral_decimal (negative : Bool) (digits : Nat) (exponent : Int) {cs : List Char}
    (ends : EndsDigits cs) :
    readNumeral negative (Nat.toDigits 10 digits ++
        'e' :: ((Numeral.text.sign (exponent < 0)).toList ++
          (Nat.toDigits 10 exponent.natAbs ++ cs))) =
      some (.decimal negative digits exponent, cs) := by
  have letter : ∀ rest, EndsDigits ('e' :: rest) := by
    intro rest c head
    rw [← Option.some.inj head]
    rfl
  have point : ∀ rest, readFraction ('e' :: rest) = some ([], 'e' :: rest) := fun rest => rfl
  simp [readNumeral, takeWhile_toDigits (letter _), dropWhile_toDigits (letter _),
    isWhole_toDigits, point, readExponent_text exponent ends, digitsValue_toDigits]

/-! ### Values -/

/-- What has been read of a number, as a value. -/
def asNumber (read : Option (Numeral × List Char)) : Option (Value × List Char) :=
  read.map fun parts => (.number parts.1, parts.2)

theorem readValue_minus (fuel : Nat) (cs : List Char) :
    readValue (fuel + 1) ('-' :: cs) = asNumber (readNumeral true cs) := by
  cases read : readNumeral true cs <;> simp [readValue, skipBlanks, isBlank, read, asNumber]

theorem readValue_digit {c : Char} (digit : c.isDigit = true) (fuel : Nat) (cs : List Char) :
    readValue (fuel + 1) (c :: cs) = asNumber (readNumeral false (c :: cs)) := by
  have other : ∀ d : Char, d.isDigit = false → c ≠ d := by
    rintro d no rfl
    exact Bool.false_ne_true (no.symm.trans digit)
  have blank : isBlank c = false := by
    simp [isBlank, other]
  cases read : readNumeral false (c :: cs) <;>
    simp [readValue, skipBlanks, blank, read, asNumber, other]

/-- Digits behind a sign are a number. -/
theorem readValue_signed {negative : Bool} {n : Nat} {cs rest : List Char} {numeral : Numeral}
    (read : readNumeral negative (Nat.toDigits 10 n ++ cs) = some (numeral, rest)) (fuel : Nat) :
    readValue (fuel + 1) ((Numeral.text.sign negative).toList ++ (Nat.toDigits 10 n ++ cs)) =
      some (.number numeral, rest) := by
  cases negative with
  | true => exact (readValue_minus fuel _).trans (congrArg asNumber read)
  | false =>
    obtain ⟨d, ds, digits, digit⟩ := toDigits_head n
    rw [digits] at read ⊢
    exact (readValue_digit digit fuel (ds ++ cs)).trans (congrArg asNumber read)

theorem readValue_numeral (numeral : Numeral) (fuel : Nat) {cs : List Char}
    (ends : EndsNumeral cs) :
    readValue (fuel + 1) (numeral.text.toList ++ cs) = some (.number numeral, cs) := by
  cases numeral with
  | integer negative n =>
    simp only [Numeral.text, String.toList_append, Nat.toList_repr, List.append_assoc]
    exact readValue_signed (readNumeral_integer negative n ends) fuel
  | decimal negative n exponent =>
    simp only [Numeral.text, String.toList_append, Nat.toList_repr, List.append_assoc]
    exact readValue_signed (readNumeral_decimal negative n exponent ends.digits) fuel

/-- A value starts with a character that is no blank and closes no array. -/
def Opens (cs : List Char) : Prop := ∃ c rest, cs = c :: rest ∧ isBlank c = false ∧ c ≠ ']'

theorem opens_numeral (numeral : Numeral) : Opens numeral.text.toList := by
  have digit : ∀ n cs, Opens (Nat.toDigits 10 n ++ cs) := by
    intro n cs
    obtain ⟨d, ds, digits, digit⟩ := toDigits_head n
    have other : ∀ c : Char, c.isDigit = false → d ≠ c := by
      rintro c no rfl
      exact Bool.false_ne_true (no.symm.trans digit)
    exact ⟨d, ds ++ cs, by rw [digits, List.cons_append], by simp [isBlank, other], other ']' rfl⟩
  have signed : ∀ negative n cs,
      Opens ((Numeral.text.sign negative).toList ++ (Nat.toDigits 10 n ++ cs)) := by
    intro negative n cs
    cases negative with
    | true => exact ⟨'-', _, rfl, rfl, by decide⟩
    | false => exact digit n cs
  cases numeral with
  | integer negative n =>
    have opens := signed negative n []
    simpa [Numeral.text] using opens
  | decimal negative n exponent =>
    simp only [Numeral.text, String.toList_append, Nat.toList_repr, List.append_assoc]
    exact signed negative n _

section Texts

open Value

theorem toList_stringText (text : String) :
    (stringText text).toList = '"' :: (text.toList.flatMap escapedChar ++ ['"']) := by
  simp [stringText]

theorem toList_text_array (items : List Value) :
    (Value.array items).text.toList = '[' :: ((itemsText items).toList ++ [']']) := by
  simp [Value.text]

theorem toList_text_object (entries : List (String × Value)) :
    (Value.object entries).text.toList =
      '\x7b' :: ((entriesText entries).toList ++ ['\x7d']) := by
  simp [Value.text]

theorem toList_itemsText (item next : Value) (rest : List Value) :
    (itemsText (item :: next :: rest)).toList =
      item.text.toList ++ ',' :: (itemsText (next :: rest)).toList := by
  simp [itemsText]

/-- The text of an entry. -/
def entryText (entry : String × Value) : List Char :=
  (stringText entry.1).toList ++ ':' :: entry.2.text.toList

theorem toList_entriesText_singleton (entry : String × Value) :
    (entriesText [entry]).toList = entryText entry := by
  simp [entriesText, entryText]

theorem toList_entriesText (entry next : String × Value) (rest : List (String × Value)) :
    (entriesText (entry :: next :: rest)).toList =
      entryText entry ++ ',' :: (entriesText (next :: rest)).toList := by
  simp [entriesText, entryText]

end Texts

theorem opens_text (v : Value) : Opens v.text.toList := by
  cases v with
  | null => exact ⟨'n', _, rfl, rfl, by decide⟩
  | boolean value =>
    cases value with
    | true => exact ⟨'t', _, rfl, rfl, by decide⟩
    | false => exact ⟨'f', _, rfl, rfl, by decide⟩
  | number numeral => exact opens_numeral numeral
  | string text => exact ⟨'"', _, toList_stringText text, rfl, by decide⟩
  | array items => exact ⟨'[', _, toList_text_array items, rfl, by decide⟩
  | object entries => exact ⟨'\x7b', _, toList_text_object entries, rfl, by decide⟩

theorem Opens.append {cs : List Char} (opens : Opens cs) (rest : List Char) :
    Opens (cs ++ rest) := by
  obtain ⟨c, more, rfl, blank, bracket⟩ := opens
  exact ⟨c, more ++ rest, rfl, blank, bracket⟩

theorem skipBlanks_cons {c : Char} (blank : isBlank c = false) (cs : List Char) :
    skipBlanks (c :: cs) = c :: cs := by
  simp [skipBlanks, blank]

theorem readValue_string (fuel : Nat) (text : String) (cs : List Char) :
    readValue (fuel + 1) ((stringText text).toList ++ cs) = some (.string text, cs) := by
  rw [toList_stringText, List.cons_append, List.append_assoc]
  simp [readValue, skipBlanks, isBlank, readString_escaped]

/-- An array is what stands between its brackets. -/
theorem readValue_array {items : List Value} {cs rest : List Char} {fuel : Nat} (opens : Opens cs)
    (read : readItems fuel cs = some (items, rest)) :
    readValue (fuel + 1) ('[' :: cs) = some (.array items, rest) := by
  obtain ⟨c, more, rfl, blank, bracket⟩ := opens
  simp [readValue, skipBlanks_cons (show isBlank '[' = false from rfl), skipBlanks_cons blank,
    bracket, read]

/-- An object is what stands between its braces. -/
theorem readValue_object {entries : List (String × Value)} {cs rest : List Char} {fuel : Nat}
    (read : readEntries fuel ('"' :: cs) = some (entries, rest)) :
    readValue (fuel + 1) ('\x7b' :: '"' :: cs) = some (.object entries, rest) := by
  simp [readValue, skipBlanks, isBlank, read]

/-- An item is followed by the bracket, or by a comma and more items. -/
theorem readItems_last {item : Value} {cs rest : List Char} {fuel : Nat}
    (read : readValue fuel cs = some (item, ']' :: rest)) :
    readItems (fuel + 1) cs = some ([item], rest) := by
  simp [readItems, skipBlanks, isBlank, read]

theorem readItems_more {item : Value} {items : List Value} {cs next rest : List Char} {fuel : Nat}
    (read : readValue fuel cs = some (item, ',' :: next))
    (more : readItems fuel next = some (items, rest)) :
    readItems (fuel + 1) cs = some (item :: items, rest) := by
  simp [readItems, skipBlanks, isBlank, read, more]

theorem readEntries_last {key : String} {value : Value} {cs rest : List Char} {fuel : Nat}
    (read : readValue fuel cs = some (value, '\x7d' :: rest)) :
    readEntries (fuel + 1) ((stringText key).toList ++ ':' :: cs) =
      some ([(key, value)], rest) := by
  rw [toList_stringText, List.cons_append, List.append_assoc]
  simp [readEntries, skipBlanks, isBlank, readString_escaped, read]

theorem readEntries_more {key : String} {value : Value} {entries : List (String × Value)}
    {cs next rest : List Char} {fuel : Nat}
    (read : readValue fuel cs = some (value, ',' :: next))
    (more : readEntries fuel next = some (entries, rest)) :
    readEntries (fuel + 1) ((stringText key).toList ++ ':' :: cs) =
      some ((key, value) :: entries, rest) := by
  rw [toList_stringText, List.cons_append, List.append_assoc]
  simp [readEntries, skipBlanks, isBlank, readString_escaped, read, more]

theorem opens_itemsText (item : Value) (rest : List Value) :
    Opens (Value.itemsText (item :: rest)).toList := by
  cases rest with
  | nil => exact opens_text item
  | cons next rest =>
    rw [toList_itemsText]
    exact (opens_text item).append _

theorem entriesText_eq_cons (entry : String × Value) (rest : List (String × Value)) :
    ∃ cs, (Value.entriesText (entry :: rest)).toList = '"' :: cs := by
  cases rest with
  | nil =>
    rw [toList_entriesText_singleton, entryText, toList_stringText]
    exact ⟨_, rfl⟩
  | cons next rest =>
    rw [toList_entriesText, entryText, toList_stringText]
    exact ⟨_, rfl⟩

/-- So many steps are enough to read back short texts: two for each character. -/
structure Reads (fuel : Nat) : Prop where
  values : ∀ (v : Value) (cs : List Char), 2 * v.text.toList.length ≤ fuel → EndsNumeral cs →
    readValue fuel (v.text.toList ++ cs) = some (v, cs)
  items : ∀ (item : Value) (rest : List Value) (cs : List Char),
    2 * (Value.itemsText (item :: rest)).toList.length + 1 ≤ fuel →
    readItems fuel ((Value.itemsText (item :: rest)).toList ++ ']' :: cs) = some (item :: rest, cs)
  entries : ∀ (entry : String × Value) (rest : List (String × Value)) (cs : List Char),
    2 * (Value.entriesText (entry :: rest)).toList.length + 1 ≤ fuel →
    readEntries fuel ((Value.entriesText (entry :: rest)).toList ++ '\x7d' :: cs) =
      some (entry :: rest, cs)

section Step

variable {fuel : Nat} (reads : Reads fuel)
include reads

theorem Reads.readValue (v : Value) (cs : List Char)
    (enough : 2 * v.text.toList.length ≤ fuel + 1) (ends : EndsNumeral cs) :
    readValue (fuel + 1) (v.text.toList ++ cs) = some (v, cs) := by
  cases v with
  | null => rfl
  | boolean value => cases value <;> rfl
  | number numeral => exact readValue_numeral numeral fuel ends
  | string text => exact readValue_string fuel text cs
  | array items =>
    cases items with
    | nil => rfl
    | cons item rest =>
      rw [toList_text_array, List.length_cons, List.length_append, List.length_singleton] at enough
      rw [toList_text_array, List.cons_append, List.append_assoc]
      exact readValue_array ((opens_itemsText item rest).append _)
        (reads.items item rest cs (by omega))
  | object entries =>
    cases entries with
    | nil => rfl
    | cons entry rest =>
      rw [toList_text_object, List.length_cons, List.length_append, List.length_singleton] at enough
      have read := reads.entries entry rest cs (by omega)
      obtain ⟨more, text⟩ := entriesText_eq_cons entry rest
      rw [text] at read
      rw [toList_text_object, List.cons_append, List.append_assoc, text]
      exact readValue_object read

theorem Reads.readItems (item : Value) (rest : List Value) (cs : List Char)
    (enough : 2 * (Value.itemsText (item :: rest)).toList.length + 1 ≤ fuel + 1) :
    readItems (fuel + 1) ((Value.itemsText (item :: rest)).toList ++ ']' :: cs) =
      some (item :: rest, cs) := by
  cases rest with
  | nil =>
    have ends : EndsNumeral (']' :: cs) := endsNumeral_cons rfl cs
    exact readItems_last (reads.values item (']' :: cs) (Nat.le_of_succ_le_succ enough) ends)
  | cons next rest =>
    rw [toList_itemsText, List.length_append, List.length_cons] at enough
    have read := reads.values item (',' :: ((Value.itemsText (next :: rest)).toList ++ ']' :: cs))
      (by omega) (endsNumeral_cons rfl _)
    rw [toList_itemsText, List.append_assoc]
    exact readItems_more read (reads.items next rest cs (by omega))

theorem Reads.readEntries (entry : String × Value) (rest : List (String × Value)) (cs : List Char)
    (enough : 2 * (Value.entriesText (entry :: rest)).toList.length + 1 ≤ fuel + 1) :
    readEntries (fuel + 1) ((Value.entriesText (entry :: rest)).toList ++ '\x7d' :: cs) =
      some (entry :: rest, cs) := by
  obtain ⟨key, value⟩ := entry
  cases rest with
  | nil =>
    rw [toList_entriesText_singleton, entryText, List.length_append, List.length_cons] at enough
    have read := reads.values value ('\x7d' :: cs) (by dsimp only at enough; omega)
      (endsNumeral_cons rfl cs)
    rw [toList_entriesText_singleton, entryText, List.append_assoc]
    exact readEntries_last read
  | cons next rest =>
    rw [toList_entriesText, entryText, List.length_append, List.length_append, List.length_cons,
      List.length_cons] at enough
    dsimp only at enough
    have read := reads.values value
      (',' :: ((Value.entriesText (next :: rest)).toList ++ '\x7d' :: cs)) (by omega)
      (endsNumeral_cons rfl _)
    rw [toList_entriesText, entryText, List.append_assoc, List.append_assoc]
    exact readEntries_more read (reads.entries next rest cs (by omega))

end Step

theorem reads (fuel : Nat) : Reads fuel := by
  induction fuel with
  | zero =>
    refine ⟨fun v cs enough => ?_, fun item rest cs enough => ?_, fun entry rest cs enough => ?_⟩
    · obtain ⟨c, more, text, -⟩ := opens_text v
      rw [text, List.length_cons] at enough
      omega
    · omega
    · omega
  | succ fuel ih => exact ⟨ih.readValue, ih.readItems, ih.readEntries⟩

/-- Every value is read back from its text. -/
theorem parse?_text (v : Value) : parse? v.text = some v := by
  have ends : EndsNumeral [] := by
    intro c head
    cases head
  have read := (reads (2 * v.text.toList.length + 2)).values v [] (by omega) ends
  rw [List.append_nil] at read
  simp [parse?, read, skipBlanks]

/-! ### Lines -/

/-- Nothing in a text is below the space, so that it stands on one line. -/
def Printable (cs : List Char) : Prop := ∀ c ∈ cs, 0x20 ≤ c.toNat

instance (cs : List Char) : Decidable (Printable cs) :=
  List.decidableBAll (fun c : Char => 0x20 ≤ c.toNat) cs

theorem printable_nil : Printable [] := by
  intro c mem
  cases mem

theorem Printable.append {first second : List Char} (h : Printable first) (h' : Printable second) :
    Printable (first ++ second) := by
  intro c mem
  exact (List.mem_append.mp mem).elim (h c) (h' c)

theorem Printable.cons {c : Char} {cs : List Char} (h : 0x20 ≤ c.toNat) (h' : Printable cs) :
    Printable (c :: cs) :=
  List.forall_mem_cons.mpr ⟨h, h'⟩

theorem printable_toDigits (n : Nat) : Printable (Nat.toDigits 10 n) := by
  intro c mem
  have digit := Nat.isDigit_of_mem_toDigits (by decide) (Nat.le_refl 10) mem
  simp only [Char.isDigit, Bool.and_eq_true, decide_eq_true_eq, ge_iff_le] at digit
  exact Nat.le_trans (by decide : 0x20 ≤ '0'.toNat) digit.1

theorem printable_escapedChar (c : Char) : Printable (escapedChar c) := by
  obtain ⟨e, stands, escaped⟩ | ⟨low, escaped⟩ | ⟨-, -, high, escaped⟩ := escapedChar_cases c
  · have letter : 0x20 ≤ e.toNat := by
      refine Nat.not_lt.mp fun low => ?_
      have other : ∀ d : Char, 0x20 ≤ d.toNat → e ≠ d := by
        rintro d high rfl
        omega
      simp [shortEscape?, other] at stands
    rw [escaped]
    exact .cons (by decide) (.cons letter printable_nil)
  · have digits : ∀ n < 0x20, Printable (fourHex n) := by decide
    rw [escaped]
    exact .cons (by decide) (.cons (by decide) (digits c.toNat low))
  · rw [escaped]
    exact .cons high printable_nil

theorem printable_stringText (text : String) : Printable (stringText text).toList := by
  rw [toList_stringText]
  refine .cons (by decide) (.append ?_ (.cons (by decide) printable_nil))
  intro d mem
  obtain ⟨c, -, written⟩ := List.mem_flatMap.mp mem
  exact printable_escapedChar c d written

theorem printable_numeral (numeral : Numeral) : Printable numeral.text.toList := by
  have sign : ∀ negative, Printable (Numeral.text.sign negative).toList := by decide
  cases numeral with
  | integer negative n =>
    rw [Numeral.text, String.toList_append, Nat.toList_repr]
    exact .append (sign negative) (printable_toDigits n)
  | decimal negative n exponent =>
    simp only [Numeral.text, String.toList_append, Nat.toList_repr]
    exact .append (.append (.append (.append (sign negative) (printable_toDigits n)) (by decide))
      (sign _)) (printable_toDigits _)

mutual

theorem printable_text : ∀ v : Value, Printable v.text.toList
  | .null => by decide
  | .boolean true => by decide
  | .boolean false => by decide
  | .number numeral => printable_numeral numeral
  | .string text => printable_stringText text
  | .array items => by
    rw [toList_text_array]
    exact .cons (by decide) (.append (printable_itemsText items) (by decide))
  | .object entries => by
    rw [toList_text_object]
    exact .cons (by decide) (.append (printable_entriesText entries) (by decide))

theorem printable_itemsText : ∀ items : List Value, Printable (Value.itemsText items).toList
  | [] => printable_nil
  | [item] => printable_text item
  | item :: next :: rest => by
    rw [toList_itemsText]
    exact .append (printable_text item) (.cons (by decide) (printable_itemsText (next :: rest)))

theorem printable_entriesText :
    ∀ entries : List (String × Value), Printable (Value.entriesText entries).toList
  | [] => printable_nil
  | [(key, value)] => by
    rw [toList_entriesText_singleton]
    exact .append (printable_stringText key) (.cons (by decide) (printable_text value))
  | (key, value) :: next :: rest => by
    rw [toList_entriesText]
    exact .append (.append (printable_stringText key) (.cons (by decide) (printable_text value)))
      (.cons (by decide) (printable_entriesText (next :: rest)))

end

end WeakIdentity.Json
