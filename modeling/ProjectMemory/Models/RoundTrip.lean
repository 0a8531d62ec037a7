import ProjectMemory.Models.Loads

/-!
# What is written is read back

`json.loads` gives back a value from every text that writes it, in particular
from the one `json.dumps` makes.
-/

namespace ProjectMemory.Json

open Foundation

/-! ## Reading back strings -/

theorem readHex_fixedDigits {code : Nat} (small : code < 0x10000)
    (rest : List Char) :
    readHex (fixedDigits 16 4 code ++ rest) = some (code, rest) := by
  have digit (number : Nat) : Uuid.digitValue (Nat.digitChar (number % 16)) =
      some (number % 16) :=
    Uuid.digitValue_digitChar (Nat.mod_lt number (by decide))
  have value : ((code / 16 / 16 / 16 % 16 * 16 + code / 16 / 16 % 16) * 16 +
      code / 16 % 16) * 16 + code % 16 = code := by omega
  simp only [fixedDigits, List.nil_append, List.cons_append, readHex, digit,
    Option.bind_eq_bind, Option.bind_some]
  rw [value]
  rfl

theorem readEscape_unicode {code : Nat} (small : code < 0x10000)
    (notSurrogate : code < 0xd800 ∨ 0xe000 ≤ code) (rest : List Char) :
    readEscape ('u' :: fixedDigits 16 4 code ++ rest) =
      some (Char.ofNat code, rest) := by
  have notHigh : ¬(0xd800 ≤ code ∧ code < 0xdc00) := by omega
  have notLow : ¬(0xdc00 ≤ code ∧ code < 0xe000) := by omega
  rw [List.cons_append, readEscape, if_pos rfl, readHex_fixedDigits small]
  simp only [Option.bind_eq_bind, Option.bind_some]
  rw [if_neg notHigh, if_neg notLow]

theorem readEscape_surrogates {high low : Nat}
    (isHigh : 0xd800 ≤ high ∧ high < 0xdc00)
    (isLow : 0xdc00 ≤ low ∧ low < 0xe000) (rest : List Char) :
    readEscape ('u' :: fixedDigits 16 4 high ++ unicodeEscape low ++ rest) =
      some (Char.ofNat
        (0x10000 + (high - 0xd800) * 1024 + (low - 0xdc00)), rest) := by
  rw [List.append_assoc, List.cons_append, readEscape, if_pos rfl,
    readHex_fixedDigits (by omega)]
  simp only [Option.bind_eq_bind, Option.bind_some]
  rw [if_pos isHigh, unicodeEscape, List.cons_append, List.cons_append, readLow,
    readHex_fixedDigits (by omega)]
  simp only [Option.bind_eq_bind, Option.bind_some]
  rw [if_pos isLow]

theorem readString_backslash {fuel : Nat} {text rest : List Char}
    {char : Char} (read : readEscape text = some (char, rest)) :
    readString (fuel + 1) ('\\' :: text) =
      (readString fuel rest).map fun (chars, after) =>
        (char :: chars, after) := by
  rw [readString, if_neg (by decide), if_pos rfl, read]
  simp only [Option.bind_eq_bind, Option.bind_some]
  cases readString fuel rest <;> rfl

theorem readString_plain {fuel : Nat} {rest : List Char} {char : Char}
    (notQuote : char ≠ '"') (notBackslash : char ≠ '\\')
    (notControl : 32 ≤ char.toNat) :
    readString (fuel + 1) (char :: rest) =
      (readString fuel rest).map fun (chars, after) =>
        (char :: chars, after) := by
  rw [readString, if_neg notQuote, if_neg notBackslash, if_neg (by omega)]
  cases readString fuel rest <;> rfl

/-- The codes of characters leave out the surrogates. -/
theorem scalar_toNat (char : Char) :
    char.toNat < 0xd800 ∨ 0xe000 ≤ char.toNat ∧ char.toNat < 0x110000 := by
  rcases char.valid with low | high
  · exact Or.inl low
  · exact Or.inr ⟨high.1, high.2⟩

theorem readString_escapeChar (fuel : Nat) (char : Char) (rest : List Char) :
    readString (fuel + 1) (escapeChar char ++ rest) =
      (readString fuel rest).map fun (chars, after) =>
        (char :: chars, after) := by
  unfold escapeChar
  simp only
  by_cases quote : char = '"'
  · rw [if_pos quote, quote]
    exact readString_backslash rfl
  rw [if_neg quote]
  by_cases backslash : char = '\\'
  · rw [if_pos backslash, backslash]
    exact readString_backslash rfl
  rw [if_neg backslash]
  by_cases newline : char = '\n'
  · rw [if_pos newline, newline]
    exact readString_backslash rfl
  rw [if_neg newline]
  by_cases carriageReturn : char = '\r'
  · rw [if_pos carriageReturn, carriageReturn]
    exact readString_backslash rfl
  rw [if_neg carriageReturn]
  by_cases tabulator : char = '\t'
  · rw [if_pos tabulator, tabulator]
    exact readString_backslash rfl
  rw [if_neg tabulator]
  have same : Char.ofNat char.toNat = char := Char.ofNat_toNat char
  by_cases backspace : char.toNat = 8
  · rw [backspace] at same
    rw [if_pos backspace, ← same]
    exact readString_backslash rfl
  rw [if_neg backspace]
  by_cases formFeed : char.toNat = 12
  · rw [formFeed] at same
    rw [if_pos formFeed, ← same]
    exact readString_backslash rfl
  rw [if_neg formFeed]
  by_cases printable : 32 ≤ char.toNat ∧ char.toNat ≤ 126
  · rw [if_pos printable]
    exact readString_plain quote backslash printable.1
  rw [if_neg printable]
  have scalar := scalar_toNat char
  by_cases basic : char.toNat < 0x10000
  · rw [if_pos basic]
    have read := readEscape_unicode basic (by omega) rest
    rw [same] at read
    exact readString_backslash read
  · rw [if_neg basic]
    have isHigh : 0xd800 ≤ 0xd800 + (char.toNat - 0x10000) / 1024 ∧
        0xd800 + (char.toNat - 0x10000) / 1024 < 0xdc00 := by omega
    have isLow : 0xdc00 ≤ 0xdc00 + (char.toNat - 0x10000) % 1024 ∧
        0xdc00 + (char.toNat - 0x10000) % 1024 < 0xe000 := by omega
    have read := readEscape_surrogates isHigh isLow rest
    have value : 0x10000 +
        (0xd800 + (char.toNat - 0x10000) / 1024 - 0xd800) * 1024 +
        (0xdc00 + (char.toNat - 0x10000) % 1024 - 0xdc00) = char.toNat := by
      omega
    rw [value, same] at read
    exact readString_backslash read

theorem readString_writesChar {char : Char} {written : List Char}
    (writes : WritesChar char written) (fuel : Nat) (rest : List Char) :
    readString (fuel + 1) (written ++ rest) =
      (readString fuel rest).map fun (chars, after) =>
        (char :: chars, after) := by
  cases writes with
  | escaped char => exact readString_escapeChar fuel char rest
  | slash => exact readString_backslash rfl

theorem readString_writesText {chars text : List Char}
    (writes : WritesText chars text) (rest : List Char) :
    ∀ {fuel : Nat}, chars.length < fuel →
      readString fuel (text ++ '"' :: rest) = some (chars, rest) := by
  induction writes with
  | nil =>
      intro fuel enough
      cases fuel with
      | zero => cases enough
      | succ fuel => rfl
  | cons char _ inductionHypothesis =>
      intro fuel enough
      cases fuel with
      | zero => cases enough
      | succ fuel =>
          rw [List.append_assoc, readString_writesChar char,
            inductionHypothesis (Nat.lt_of_succ_lt_succ enough)]
          rfl

/-- Every character is written with at least one. -/
theorem WritesChar.ne_nil {char : Char} {written : List Char}
    (writes : WritesChar char written) : written ≠ [] := by
  cases writes with
  | slash => exact List.cons_ne_nil _ _
  | escaped char =>
      intro empty
      have read := readString_escapeChar 1 char ['"']
      rw [empty, List.nil_append, readString, if_pos rfl] at read
      cases read

theorem WritesText.length_le {chars text : List Char}
    (writes : WritesText chars text) : chars.length ≤ text.length := by
  induction writes with
  | nil => exact Nat.le_refl 0
  | cons char _ inductionHypothesis =>
      have some := List.length_pos_iff.mpr char.ne_nil
      rw [List.length_cons, List.length_append]
      omega

/-! ## Reading back numbers -/

/-- What may follow a number. -/
def EndsNumber (rest : List Char) : Prop :=
  ∀ char ∈ rest.head?, char.isDigit = false ∧ char ≠ '.' ∧ char ≠ 'e' ∧
    char ≠ 'E'

theorem span_digits {digits : List Char}
    (areDigits : ∀ char ∈ digits, char.isDigit = true) {rest : List Char}
    (ends : ∀ char ∈ rest.head?, char.isDigit = false) :
    (digits ++ rest).span Char.isDigit = (digits, rest) := by
  rw [List.span_eq_takeWhile_dropWhile,
    List.takeWhile_append_of_pos areDigits,
    List.dropWhile_append_of_pos areDigits]
  cases rest with
  | nil => rw [List.takeWhile_nil, List.append_nil, List.dropWhile_nil]
  | cons char rest =>
      have stops := ends char rfl
      rw [List.takeWhile_cons_of_neg (by simp [stops]), List.append_nil,
        List.dropWhile_cons_of_neg (by simp [stops])]

theorem head_toDigits {number : Nat} (positive : 1 ≤ number) :
    ∀ char ∈ (Nat.toDigits 10 number).head?, char ≠ '0' := by
  induction number using Nat.strongRecOn with
  | ind number inductionHypothesis =>
      rw [Nat.toDigits_eq_if (by decide)]
      by_cases small : number < 10
      · rw [if_pos small]
        intro char member
        cases member
        intro zero
        have none : number = 0 :=
          digitChar_injective (by omega) (by decide) zero
        omega
      · have later := inductionHypothesis (number / 10) (by omega) (by omega)
        rw [if_neg small,
          List.head?_append_of_ne_nil _ Nat.toDigits_ne_nil]
        exact later

theorem readWhole_toDigits (number : Nat) {rest : List Char}
    (ends : ∀ char ∈ rest.head?, char.isDigit = false) :
    readWhole (Nat.toDigits 10 number ++ rest) =
      (Nat.toDigits 10 number, rest) := by
  by_cases zero : number = 0
  · rw [zero, Nat.toDigits_zero]
    rfl
  · have head := head_toDigits (Nat.pos_of_ne_zero zero)
    have areDigits : ∀ char ∈ Nat.toDigits 10 number, char.isDigit = true :=
      fun char member => Nat.isDigit_of_mem_toDigits (by decide) (by decide)
        member
    cases isDigits : Nat.toDigits 10 number with
    | nil => exact absurd isDigits Nat.toDigits_ne_nil
    | cons first digits =>
        rw [isDigits] at head areDigits
        have notZero := head first rfl
        have spanned := span_digits areDigits ends
        rw [List.cons_append] at spanned ⊢
        rw [readWhole]
        · exact spanned
        · intro other isOther
          rw [List.cons.injEq] at isOther
          exact notZero isOther.1

theorem ofDigitChars_fixedDigits (width number init : Nat) :
    Nat.ofDigitChars 10 (fixedDigits 10 width number) init =
      10 ^ width * init + number % 10 ^ width := by
  induction width generalizing number with
  | zero =>
      rw [fixedDigits, Nat.ofDigitChars_nil, Nat.pow_zero, Nat.mod_one,
        Nat.one_mul, Nat.add_zero]
  | succ width inductionHypothesis =>
      have digit : number % 10 < 10 := Nat.mod_lt number (by decide)
      rw [fixedDigits, Nat.ofDigitChars_append, inductionHypothesis,
        Nat.ofDigitChars_cons_digitChar_of_lt_ten digit,
        Nat.ofDigitChars_nil, Nat.pow_succ', Nat.mod_mul]
      rw [Nat.mul_add, Nat.mul_assoc, Nat.add_assoc]
      omega

theorem isDigit_of_mem_fixedDigits {width number : Nat} {char : Char}
    (member : char ∈ fixedDigits 10 width number) : char.isDigit = true := by
  obtain ⟨digit, small, isDigit⟩ := mem_fixedDigits (by decide) member
  have table : ∀ digit < 10, (Nat.digitChar digit).isDigit = true := by decide
  rw [isDigit]
  exact table digit small

theorem readExponent_none {rest : List Char} (ends : EndsNumber rest) :
    readExponent rest = (none, rest) := by
  cases rest with
  | nil => rfl
  | cons char rest =>
      have stops := ends char rfl
      have noExponent : ¬(char = 'e' ∨ char = 'E') :=
        fun some => some.elim stops.2.2.1 stops.2.2.2
      rw [readExponent, if_neg noExponent]

theorem readFraction_none {rest : List Char} (ends : EndsNumber rest) :
    readFraction rest = ([], rest) := by
  cases rest with
  | nil => rfl
  | cons char rest =>
      have stops := ends char rfl
      rw [readFraction]
      intro other isOther
      rw [List.cons.injEq] at isOther
      exact stops.2.1 isOther.1

theorem readFraction_point {digits rest : List Char} (some : digits ≠ [])
    (areDigits : ∀ char ∈ digits, char.isDigit = true)
    (ends : EndsNumber rest) :
    readFraction ('.' :: digits ++ rest) = (digits, rest) := by
  have spanned := span_digits areDigits fun char member => (ends char member).1
  have taken : (digits ++ rest).takeWhile Char.isDigit = digits := by
    rw [List.span_eq_takeWhile_dropWhile] at spanned
    exact congrArg Prod.fst spanned
  have notEmpty : digits.isEmpty = false := by
    cases digits with
    | nil => exact absurd rfl some
    | cons first digits => rfl
  rw [List.cons_append, readFraction, taken, notEmpty, spanned]
  rfl

/-- The digits of a number with some of them after its point. -/
def unsignedDigits (number places : Nat) : List Char :=
  Nat.toDigits 10 (number / 10 ^ places) ++
    if places = 0 then [] else '.' :: fixedDigits 10 places (number % 10 ^ places)

theorem readUnsigned_unsignedDigits (number places : Nat) {rest : List Char}
    (ends : EndsNumber rest) :
    readUnsigned (unsignedDigits number places ++ rest) =
      some ((number, places, none), rest) := by
  have noDigit : ∀ char ∈ rest.head?, char.isDigit = false :=
    fun char member => (ends char member).1
  have notEmpty (number : Nat) : (Nat.toDigits 10 number).isEmpty = false := by
    cases isDigits : Nat.toDigits 10 number with
    | nil => exact absurd isDigits Nat.toDigits_ne_nil
    | cons first digits => rfl
  unfold readUnsigned unsignedDigits
  by_cases whole : places = 0
  · rw [if_pos whole, List.append_nil, readWhole_toDigits _ noDigit]
    simp only [notEmpty, readFraction_none ends, readExponent_none ends,
      List.append_nil, Nat.ofDigitChars_ten_toDigits, whole, Nat.pow_zero,
      Nat.div_one, List.length_nil]
    rfl
  · have point : ∀ char ∈ ('.' :: fixedDigits 10 places
        (number % 10 ^ places) ++ rest).head?, char.isDigit = false := by
      intro char member
      cases member
      rfl
    have some : fixedDigits 10 places (number % 10 ^ places) ≠ [] := by
      apply List.ne_nil_of_length_pos
      rw [length_fixedDigits]
      omega
    have fraction := readFraction_point some
      (fun char member => isDigit_of_mem_fixedDigits member) ends
    rw [if_neg whole, List.append_assoc, readWhole_toDigits _ point]
    simp only [notEmpty, fraction, readExponent_none ends,
      Nat.ofDigitChars_append, Nat.ofDigitChars_ten_toDigits,
      ofDigitChars_fixedDigits, Nat.mod_mod, Nat.div_add_mod,
      length_fixedDigits]
    rfl

theorem dumpsNumber_eq (mantissa : Int) (exponent : Nat) :
    dumpsNumber mantissa exponent =
      (if mantissa < 0 then ['-'] else []) ++
        unsignedDigits mantissa.natAbs exponent := by
  have digits (number : Nat) :
      (toString number).toList = Nat.toDigits 10 number := Nat.toList_repr
  unfold dumpsNumber unsignedDigits
  by_cases whole : exponent = 0
  · simp only [if_pos whole, digits, List.append_nil]
  · simp only [if_neg whole, digits, List.append_assoc]

theorem head_unsignedDigits (number places : Nat) :
    ∃ first rest, unsignedDigits number places = first :: rest ∧
      first.isDigit = true := by
  unfold unsignedDigits
  cases isDigits : Nat.toDigits 10 (number / 10 ^ places) with
  | nil => exact absurd isDigits Nat.toDigits_ne_nil
  | cons first digits =>
      refine ⟨first, _, rfl, ?_⟩
      have member : first ∈ Nat.toDigits 10 (number / 10 ^ places) := by
        rw [isDigits]
        exact List.mem_cons_self
      exact Nat.isDigit_of_mem_toDigits (by decide) (by decide) member

theorem readNumber_dumpsNumber (mantissa : Int) (exponent : Nat)
    {rest : List Char} (ends : EndsNumber rest) :
    readNumber (dumpsNumber mantissa exponent ++ rest) =
      some (.num mantissa exponent, rest) := by
  have read := readUnsigned_unsignedDigits mantissa.natAbs exponent ends
  rw [dumpsNumber_eq]
  by_cases negative : mantissa < 0
  · have size : -(mantissa.natAbs : Int) = mantissa := by omega
    rw [if_pos negative, List.singleton_append, List.cons_append, readNumber,
      read, Option.map_some]
    simp only
    rw [size, scaled]
  · have size : (mantissa.natAbs : Int) = mantissa := by omega
    obtain ⟨first, digits, isDigits, isDigit⟩ :=
      head_unsignedDigits mantissa.natAbs exponent
    rw [if_neg negative, List.nil_append, readNumber, read, Option.map_some]
    · simp only
      rw [size, scaled]
    · intro other isOther
      rw [isDigits, List.cons_append, List.cons.injEq] at isOther
      rw [isOther.1] at isDigit
      cases isDigit

/-! ## Reading back values -/

theorem head_dumpsNumber (mantissa : Int) (exponent : Nat) :
    ∃ first rest, dumpsNumber mantissa exponent = first :: rest ∧
      (first = '-' ∨ first.isDigit = true) := by
  rw [dumpsNumber_eq]
  by_cases negative : mantissa < 0
  · rw [if_pos negative]
    exact ⟨'-', _, rfl, Or.inl rfl⟩
  · obtain ⟨first, rest, isDigits, isDigit⟩ :=
      head_unsignedDigits mantissa.natAbs exponent
    rw [if_neg negative, List.nil_append]
    exact ⟨first, rest, isDigits, Or.inr isDigit⟩

/-- What may follow a value inside another one, or at the end. -/
def EndsValue (rest : List Char) : Prop :=
  ∀ char ∈ rest.head?, char = ',' ∨ char = ']' ∨ char = '\x7d'

theorem EndsValue.endsNumber {rest : List Char} (ends : EndsValue rest) :
    EndsNumber rest := by
  intro char member
  rcases ends char member with comma | bracket | brace
  · rw [comma]
    decide
  · rw [bracket]
    decide
  · rw [brace]
    decide

/-- What a value can start with. -/
def startsValue (char : Char) : Bool :=
  char = '"' || char = '[' || char = '\x7b' || char = 'n' || char = 't' ||
    char = 'f' || char = '-' || char.isDigit

theorem Writes.head {value : Json} {text : List Char}
    (writes : Writes value text) :
    ∃ first rest, text = first :: rest ∧ startsValue first = true := by
  cases writes with
  | null => exact ⟨_, _, rfl, rfl⟩
  | bool value =>
      cases value with
      | true => exact ⟨'t', "rue".toList, rfl, rfl⟩
      | false => exact ⟨'f', "alse".toList, rfl, rfl⟩
  | num mantissa exponent =>
      obtain ⟨first, rest, isText, number⟩ :=
        head_dumpsNumber mantissa exponent
      refine ⟨first, rest, isText, ?_⟩
      rcases number with sign | digit
      · rw [sign]
        rfl
      · rw [startsValue, digit, Bool.or_true]
  | str _ => exact ⟨'"', _, rfl, rfl⟩
  | emptyArr => exact ⟨'[', _, rfl, rfl⟩
  | arr _ => exact ⟨'[', _, rfl, rfl⟩
  | emptyObj => exact ⟨'\x7b', _, rfl, rfl⟩
  | obj _ => exact ⟨'\x7b', _, rfl, rfl⟩

theorem skipBlanks_cons {char : Char} (solid : isBlank char = false)
    (rest : List Char) : skipBlanks (char :: rest) = char :: rest :=
  List.dropWhile_cons_of_neg (by simp [solid])

theorem ne_of_startsValue {char other : Char}
    (starts : startsValue char = true) (never : startsValue other = false) :
    char ≠ other := by
  intro same
  rw [same, never] at starts
  cases starts

theorem not_isBlank_of_startsValue {char : Char}
    (starts : startsValue char = true) : isBlank char = false := by
  have blank := ne_of_startsValue starts (by decide : startsValue ' ' = false)
  have tabulator :=
    ne_of_startsValue starts (by decide : startsValue '\t' = false)
  have newline :=
    ne_of_startsValue starts (by decide : startsValue '\n' = false)
  have carriageReturn :=
    ne_of_startsValue starts (by decide : startsValue '\r' = false)
  simp [isBlank, blank, tabulator, newline, carriageReturn]

/-- A value is not taken for white space. -/
theorem Writes.skipBlanks {value : Json} {text : List Char}
    (writes : Writes value text) (rest : List Char) :
    skipBlanks (text ++ rest) = text ++ rest := by
  obtain ⟨first, others, isText, starts⟩ := writes.head
  rw [isText]
  exact skipBlanks_cons (not_isBlank_of_startsValue starts) _

theorem readLiteral_append (literal : List Char) (value : Json)
    (rest : List Char) :
    readLiteral literal value (literal ++ rest) = some (value, rest) := by
  have isPrefix : literal.isPrefixOf (literal ++ rest) = true :=
    List.isPrefixOf_iff_prefix.mpr (List.prefix_append literal rest)
  rw [readLiteral, if_pos isPrefix, List.drop_left]

theorem readValue_string {fuel : Nat} {text rest chars : List Char}
    (read : readString fuel text = some (chars, rest)) :
    readValue (fuel + 1) ('"' :: text) =
      some (.str (String.ofList chars), rest) := by
  rw [readValue, if_pos rfl, read]
  rfl

theorem readValue_array {fuel : Nat} {text rest : List Char}
    {items : List Json} {first : Char}
    (starts : text.head? = some first) (isStart : startsValue first = true)
    (read : readItems fuel text = some (items, rest)) :
    readValue (fuel + 1) ('[' :: text) = some (.arr items, rest) := by
  cases text with
  | nil => cases starts
  | cons char text =>
      cases starts
      rw [readValue, if_neg (by decide), if_pos rfl,
        skipBlanks_cons (not_isBlank_of_startsValue isStart)]
      have notBracket :=
        ne_of_startsValue isStart (by decide : startsValue ']' = false)
      split
      · rename_i same
        rw [List.cons.injEq] at same
        exact absurd same.1 notBracket
      · rw [read]
        rfl

theorem readValue_object {fuel : Nat} {text rest : List Char}
    {members : List (String × Json)}
    (read : readMembers fuel ('"' :: text) = some (members, rest)) :
    readValue (fuel + 1) ('\x7b' :: '"' :: text) =
      some (.obj members, rest) := by
  rw [readValue, if_neg (by decide), if_neg (by decide), if_pos rfl,
    skipBlanks_cons (by decide)]
  split
  · rename_i same
    rw [List.cons.injEq] at same
    exact absurd same.1 (by decide)
  · rw [read]
    rfl

theorem readValue_number {fuel : Nat} {first : Char} {text : List Char}
    (number : first = '-' ∨ first.isDigit = true) :
    readValue (fuel + 1) (first :: text) = readNumber (first :: text) := by
  have other {char : Char} (isOther : char ≠ '-' ∧ char.isDigit = false) :
      first ≠ char := by
    intro same
    rw [same] at number
    rcases number with sign | digit
    · exact isOther.1 sign
    · rw [isOther.2] at digit
      cases digit
  rw [readValue, if_neg (other (by decide)), if_neg (other (by decide)),
    if_neg (other (by decide)), if_neg (other (by decide)),
    if_neg (other (by decide)), if_neg (other (by decide))]

theorem readItems_last {fuel : Nat} {text rest : List Char} {item : Json}
    (read : readValue fuel text = some (item, ']' :: rest)) :
    readItems (fuel + 1) text = some ([item], rest) := by
  rw [readItems, read]
  simp only [Option.bind_eq_bind, Option.bind_some]
  rw [skipBlanks_cons (by decide)]
  rfl

theorem readItems_cons {fuel : Nat} {text more rest : List Char}
    {item : Json} {items : List Json}
    (read : readValue fuel text = some (item, ',' :: more))
    (readRest : readItems fuel (skipBlanks more) = some (items, rest)) :
    readItems (fuel + 1) text = some (item :: items, rest) := by
  rw [readItems, read]
  simp only [Option.bind_eq_bind, Option.bind_some]
  rw [skipBlanks_cons (by decide)]
  simp only [readRest]
  rfl

theorem readMembers_last {fuel : Nat} {text more rest chars : List Char}
    {value : Json}
    (readKey : readString fuel text = some (chars, ':' :: more))
    (read : readValue fuel (skipBlanks more) = some (value, '\x7d' :: rest)) :
    readMembers (fuel + 1) ('"' :: text) =
      some ([(String.ofList chars, value)], rest) := by
  rw [readMembers, readKey]
  simp only [Option.bind_eq_bind, Option.bind_some]
  rw [skipBlanks_cons (by decide)]
  simp only [read, Option.bind_some]
  rw [skipBlanks_cons (by decide)]
  rfl

theorem readMembers_cons {fuel : Nat} {text more later rest chars : List Char}
    {value : Json} {members : List (String × Json)}
    (readKey : readString fuel text = some (chars, ':' :: more))
    (read : readValue fuel (skipBlanks more) = some (value, ',' :: later))
    (readRest : readMembers fuel (skipBlanks later) = some (members, rest)) :
    readMembers (fuel + 1) ('"' :: text) =
      some ((String.ofList chars, value) :: members, rest) := by
  rw [readMembers, readKey]
  simp only [Option.bind_eq_bind, Option.bind_some]
  rw [skipBlanks_cons (by decide)]
  simp only [read, Option.bind_some]
  rw [skipBlanks_cons (by decide)]
  simp only [readRest]
  rfl

theorem WritesItems.head {items : List Json} {text : List Char}
    (writes : WritesItems items text) :
    ∃ first rest, text = first :: rest ∧ startsValue first = true := by
  cases writes with
  | last item => exact item.head
  | cons item _ =>
      obtain ⟨first, rest, isText, starts⟩ := item.head
      exact ⟨first, _, by rw [isText, List.cons_append], starts⟩

theorem WritesMembers.head {members : List (String × Json)}
    {text : List Char} (writes : WritesMembers members text) :
    ∃ rest, text = '"' :: rest := by
  cases writes with
  | last _ _ => exact ⟨_, rfl⟩
  | cons _ _ _ => exact ⟨_, rfl⟩

theorem WritesItems.skipBlanks {items : List Json} {text : List Char}
    (writes : WritesItems items text) (rest : List Char) :
    Json.skipBlanks (text ++ rest) = text ++ rest := by
  obtain ⟨first, others, isText, starts⟩ := writes.head
  rw [isText]
  exact skipBlanks_cons (not_isBlank_of_startsValue starts) _

theorem WritesMembers.skipBlanks {members : List (String × Json)}
    {text : List Char} (writes : WritesMembers members text)
    (rest : List Char) : Json.skipBlanks (text ++ rest) = text ++ rest := by
  obtain ⟨others, isText⟩ := writes.head
  rw [isText]
  exact skipBlanks_cons (by decide) _

mutual

/-- A value is read from a text that writes it, whatever may follow. -/
theorem Writes.read {value : Json} {text : List Char} :
    Writes value text → ∀ {rest : List Char}, EndsValue rest →
      ∀ {fuel : Nat}, text.length ≤ fuel →
        readValue fuel (text ++ rest) = some (value, rest)
  | writes, _, _, 0, enough => by
      obtain ⟨first, others, isText, _⟩ := writes.head
      rw [isText] at enough
      cases enough
  | .null, rest, _, fuel + 1, _ => readLiteral_append "ull".toList .null rest
  | .bool true, rest, _, fuel + 1, _ =>
      readLiteral_append "rue".toList (.bool true) rest
  | .bool false, rest, _, fuel + 1, _ =>
      readLiteral_append "alse".toList (.bool false) rest
  | .num mantissa exponent, rest, ends, fuel + 1, _ => by
      have read := readNumber_dumpsNumber mantissa exponent ends.endsNumber
      obtain ⟨first, others, isText, number⟩ :=
        head_dumpsNumber mantissa exponent
      rw [isText] at read ⊢
      rw [← read]
      exact readValue_number number
  | @Writes.str value text writes, rest, _, fuel + 1, enough => by
      have short := writes.length_le
      rw [List.cons_append, List.length_cons, List.length_append,
        List.length_singleton] at enough
      rw [List.cons_append, List.cons_append, List.append_assoc,
        List.singleton_append,
        readValue_string (readString_writesText writes rest (by omega)),
        String.ofList_toList]
  | .emptyArr, rest, _, fuel + 1, _ => rfl
  | @Writes.arr items text writes, rest, _, fuel + 1, enough => by
      obtain ⟨first, others, isText, starts⟩ := writes.head
      rw [List.cons_append, List.length_cons, List.length_append,
        List.length_singleton] at enough
      have read := writes.read rest (by omega : text.length + 1 ≤ fuel)
      rw [List.cons_append, List.cons_append, List.append_assoc,
        List.singleton_append]
      refine readValue_array ?_ starts read
      rw [isText]
      rfl
  | .emptyObj, rest, _, fuel + 1, _ => rfl
  | @Writes.obj members text writes, rest, _, fuel + 1, enough => by
      obtain ⟨others, isText⟩ := writes.head
      rw [List.cons_append, List.length_cons, List.length_append,
        List.length_singleton] at enough
      have read := writes.read rest (by omega : text.length + 1 ≤ fuel)
      rw [List.cons_append, List.cons_append, List.append_assoc,
        List.singleton_append]
      rw [isText] at read ⊢
      exact readValue_object read

theorem WritesItems.read {items : List Json} {text : List Char} :
    WritesItems items text → ∀ (rest : List Char) {fuel : Nat},
      text.length + 1 ≤ fuel →
        readItems fuel (text ++ ']' :: rest) = some (items, rest)
  | .last writes, rest, fuel + 1, enough => by
      have ends : EndsValue (']' :: rest) := by
        intro char member
        cases member
        exact Or.inr (Or.inl rfl)
      exact readItems_last (writes.read ends (by omega))
  | @WritesItems.cons item items text later writes more, rest, fuel + 1,
      enough => by
      have ends : EndsValue (',' :: (later ++ ']' :: rest)) := by
        intro char member
        cases member
        exact Or.inl rfl
      rw [List.length_append, List.length_cons] at enough
      have readRest := more.read rest (by omega : later.length + 1 ≤ fuel)
      rw [List.append_assoc, List.cons_append]
      refine readItems_cons (writes.read ends (by omega)) ?_
      rw [more.skipBlanks]
      exact readRest

theorem WritesMembers.read {members : List (String × Json)}
    {text : List Char} :
    WritesMembers members text → ∀ (rest : List Char) {fuel : Nat},
      text.length + 1 ≤ fuel →
        readMembers fuel (text ++ '\x7d' :: rest) = some (members, rest)
  | @WritesMembers.last key value name text named writes, rest, fuel + 1,
      enough => by
      have ends : EndsValue ('\x7d' :: rest) := by
        intro char member
        cases member
        exact Or.inr (Or.inr rfl)
      have short := named.length_le
      simp only [List.length_cons, List.length_append] at enough
      have readKey := readString_writesText named
        (':' :: (text ++ '\x7d' :: rest)) (by omega : key.toList.length < fuel)
      have read := writes.read ends (by omega : text.length ≤ fuel)
      rw [← writes.skipBlanks] at read
      simp only [List.cons_append, List.append_assoc]
      have both := readMembers_last readKey read
      rw [String.ofList_toList] at both
      exact both
  | @WritesMembers.cons key value members name text later named writes more,
      rest, fuel + 1, enough => by
      have ends : EndsValue (',' :: (later ++ '\x7d' :: rest)) := by
        intro char member
        cases member
        exact Or.inl rfl
      have short := named.length_le
      simp only [List.length_cons, List.length_append] at enough
      have readKey := readString_writesText named
        (':' :: (text ++ ',' :: (later ++ '\x7d' :: rest)))
        (by omega : key.toList.length < fuel)
      have read := writes.read ends (by omega : text.length ≤ fuel)
      have readRest := more.read rest (by omega : later.length + 1 ≤ fuel)
      rw [← writes.skipBlanks] at read
      rw [← more.skipBlanks] at readRest
      simp only [List.cons_append, List.append_assoc]
      have both := readMembers_cons readKey read readRest
      rw [String.ofList_toList] at both
      exact both

end

theorem loads_of_writes {value : Json} {text : List Char}
    (writes : Writes value text) : loads text = some value := by
  have atEnd : EndsValue [] := by
    intro char member
    cases member
  have read := writes.read atEnd (Nat.le_succ text.length)
  rw [← writes.skipBlanks, List.append_nil] at read
  rw [loads, read]
  rfl

theorem writesText_escaped (chars : List Char) :
    WritesText chars (chars.flatMap escapeChar) := by
  induction chars with
  | nil => exact .nil
  | cons char chars inductionHypothesis =>
      rw [List.flatMap_cons]
      exact .cons (.escaped char) inductionHypothesis

mutual

theorem writes_dumps : ∀ value : Json, Writes value value.dumps
  | .null => .null
  | .bool value => .bool value
  | .num mantissa exponent => .num mantissa exponent
  | .str text => .str (writesText_escaped text.toList)
  | .arr items => by
      by_cases empty : items = []
      · rw [empty]
        exact .emptyArr
      · exact .arr (writesItems_dumps items empty)
  | .obj members => by
      by_cases empty : members = []
      · rw [empty]
        exact .emptyObj
      · exact .obj (writesMembers_dumps members empty)

theorem writesItems_dumps : ∀ items : List Json, items ≠ [] →
    WritesItems items (List.intercalate [','] (dumpsItems items))
  | [], nonempty => absurd rfl nonempty
  | [item], _ => by
      rw [dumpsItems, dumpsItems, List.intercalate_singleton]
      exact .last (writes_dumps item)
  | item :: second :: items, _ => by
      have later := writesItems_dumps (second :: items) (List.cons_ne_nil _ _)
      rw [dumpsItems, dumpsItems, List.intercalate_cons_cons,
        List.append_assoc, List.singleton_append, ← dumpsItems]
      exact .cons (writes_dumps item) later

theorem writesMembers_dumps : ∀ members : List (String × Json), members ≠ [] →
    WritesMembers members (List.intercalate [','] (dumpsMembers members))
  | [], nonempty => absurd rfl nonempty
  | [(key, value)], _ => by
      have written := WritesMembers.last (writesText_escaped key.toList)
        (writes_dumps value)
      rw [dumpsMembers, dumpsMembers, List.intercalate_singleton, dumpsString]
      simpa using written
  | (key, value) :: (secondKey, second) :: members, _ => by
      have later := writesMembers_dumps ((secondKey, second) :: members)
        (List.cons_ne_nil _ _)
      have written := WritesMembers.cons (writesText_escaped key.toList)
        (writes_dumps value) later
      rw [dumpsMembers, dumpsMembers, List.intercalate_cons_cons,
        ← dumpsMembers, dumpsString]
      simpa using written

end

/-- Nothing is lost between `json.dumps` and `json.loads`. -/
theorem loads_dumps (value : Json) : loads value.dumps = some value :=
  loads_of_writes (writes_dumps value)

end ProjectMemory.Json
