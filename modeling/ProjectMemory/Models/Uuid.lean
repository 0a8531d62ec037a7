import ProjectMemory.Foundation.Digits
import ProjectMemory.Foundation.Markers

/-!
# Identifiers

A UUID is a 128-bit value.  Its text form has the groups 8-4-4-4-12 of
lower-case hexadecimal digits and is the form every key and name in the
program is built from.
-/

namespace ProjectMemory

open Foundation

abbrev Uuid := BitVec 128

instance : LawfulBEq Uuid := instLawfulBEq

namespace Uuid

def hex (id : Uuid) : List Char :=
  fixedDigits 16 32 id.toNat

/-- Put the separators between the groups 8-4-4-4-12. -/
def hyphenate (digits : List Char) : List Char :=
  digits.take 8 ++ '-' :: ((digits.drop 8).take 4 ++
    '-' :: ((digits.drop 12).take 4 ++
      '-' :: ((digits.drop 16).take 4 ++ '-' :: digits.drop 20)))

def chars (id : Uuid) : List Char :=
  hyphenate id.hex

def str (id : Uuid) : String :=
  String.ofList id.chars

def digitValue (char : Char) : Option Nat :=
  if '0' ≤ char ∧ char ≤ '9' then some (char.toNat - 48)
  else if 'a' ≤ char ∧ char ≤ 'f' then some (char.toNat - 87)
  else if 'A' ≤ char ∧ char ≤ 'F' then some (char.toNat - 55)
  else none

/-- The number some hexadecimal digits stand for. -/
def readHex (digits : List Char) : Option Nat :=
  digits.foldlM
    (fun number char =>
      (digitValue char).map fun digit => 16 * number + digit) 0

/-- `UUID(text)`: the prefixes `urn:` and `uuid:`, braces at the ends and
hyphens are dropped, and thirty-two digits must remain. -/
def parse (text : String) : Option Uuid :=
  let bare := replaceAll "uuid:".toList []
    (replaceAll "urn:".toList [] text.toList)
  let isBrace (char : Char) : Bool := char = '\x7b' || char = '\x7d'
  let digits := ((bare.dropWhile isBrace).rdropWhile isBrace).filter
    fun char => char ≠ '-'
  if digits.length = 32 then (readHex digits).map (BitVec.ofNat 128)
  else none

/-- The digits of a text in groups of given sizes with a hyphen after each but
the last. -/
def ungroup : List Nat → List Char → Option (List Char)
  | [], _ => none
  | [size], text => if text.length = size then some text else none
  | size :: sizes, text =>
      match text.drop size with
      | '-' :: rest => (ungroup sizes rest).map (text.take size ++ ·)
      | _ => none

/-- The text forms that validation accepts: thirty-two digits, or the groups
8-4-4-4-12, alone, in braces or after `urn:uuid:`. -/
def parseStr (text : String) : Option Uuid :=
  let chars := text.toList
  let digits :=
    if chars.length = 32 then some chars
    else if chars.length = 36 then ungroup [8, 4, 4, 4, 12] chars
    else if chars.length = 38 ∧ chars.head? = some '\x7b' ∧
        chars.getLast? = some '\x7d' then
      ungroup [8, 4, 4, 4, 12] (chars.drop 1).dropLast
    else if chars.length = 45 ∧ chars.take 9 = "urn:uuid:".toList then
      ungroup [8, 4, 4, 4, 12] (chars.drop 9)
    else none
  (digits.bind readHex).map (BitVec.ofNat 128)

@[simp]
theorem length_hex (id : Uuid) : id.hex.length = 32 :=
  length_fixedDigits 16 32 id.toNat

@[simp]
theorem length_chars (id : Uuid) : id.chars.length = 36 := by
  simp [chars, hyphenate]

theorem mem_hyphenate {digits : List Char} {char : Char}
    (member : char ∈ hyphenate digits) : char = '-' ∨ char ∈ digits := by
  simp only [hyphenate, List.mem_append, List.mem_cons] at member
  rcases member with first | isHyphen | second | isHyphen | third |
    isHyphen | fourth | isHyphen | fifth
  · exact Or.inr (List.mem_of_mem_take first)
  · exact Or.inl isHyphen
  · exact Or.inr (List.mem_of_mem_drop (List.mem_of_mem_take second))
  · exact Or.inl isHyphen
  · exact Or.inr (List.mem_of_mem_drop (List.mem_of_mem_take third))
  · exact Or.inl isHyphen
  · exact Or.inr (List.mem_of_mem_drop (List.mem_of_mem_take fourth))
  · exact Or.inl isHyphen
  · exact Or.inr (List.mem_of_mem_drop fifth)

theorem mem_chars {id : Uuid} {char : Char} (member : char ∈ id.chars) :
    char = '-' ∨ ∃ digit < 16, char = Nat.digitChar digit :=
  (mem_hyphenate member).imp_right fun inHex =>
    mem_fixedDigits (by decide) inHex

theorem hex_injective {left right : Uuid} (same : left.hex = right.hex) :
    left = right := by
  apply BitVec.toNat_inj.mp
  have leftBound : left.toNat < 16 ^ 32 := by simpa using left.isLt
  have rightBound : right.toNat < 16 ^ 32 := by simpa using right.isLt
  exact fixedDigits_injective (by decide) (by decide) leftBound rightBound
    same

private theorem length_take_drop {digits : List Char} {cut : Nat}
    (length : digits.length = 32) (bound : cut + 4 ≤ 32) :
    ((digits.drop cut).take 4).length = 4 := by
  rw [List.length_take, List.length_drop, length]
  omega

private theorem drop_eq_of_group_eq {left right : List Char} {cut : Nat}
    (sameGroup : (left.drop cut).take 4 = (right.drop cut).take 4)
    (sameRest : left.drop (cut + 4) = right.drop (cut + 4)) :
    left.drop cut = right.drop cut := by
  rw [← List.take_append_drop 4 (left.drop cut),
    ← List.take_append_drop 4 (right.drop cut),
    List.drop_drop, List.drop_drop, sameGroup, sameRest]

/-- The separators stand at fixed places, so the digits can be read back. -/
theorem hyphenate_injective {left right : List Char}
    (leftLength : left.length = 32) (rightLength : right.length = 32)
    (same : hyphenate left = hyphenate right) : left = right := by
  unfold hyphenate at same
  have first := List.append_inj same (by
    rw [List.length_take, List.length_take, leftLength, rightLength])
  have second := List.append_inj (List.cons.inj first.2).2 (by
    rw [length_take_drop leftLength (by decide),
      length_take_drop rightLength (by decide)])
  have third := List.append_inj (List.cons.inj second.2).2 (by
    rw [length_take_drop leftLength (by decide),
      length_take_drop rightLength (by decide)])
  have fourth := List.append_inj (List.cons.inj third.2).2 (by
    rw [length_take_drop leftLength (by decide),
      length_take_drop rightLength (by decide)])
  have last := (List.cons.inj fourth.2).2
  rw [← List.take_append_drop 8 left, ← List.take_append_drop 8 right,
    first.1]
  exact congrArg (right.take 8 ++ ·)
    (drop_eq_of_group_eq second.1
      (drop_eq_of_group_eq third.1
        (drop_eq_of_group_eq fourth.1 last)))

theorem chars_injective {left right : Uuid}
    (same : left.chars = right.chars) : left = right :=
  hex_injective
    (hyphenate_injective (length_hex left) (length_hex right) same)

theorem str_injective {left right : Uuid} (same : left.str = right.str) :
    left = right :=
  chars_injective (String.ofList_inj.mp same)

@[simp]
theorem toList_str (id : Uuid) : id.str.toList = id.chars :=
  String.toList_ofList

theorem digitValue_digitChar {digit : Nat} (bound : digit < 16) :
    digitValue (Nat.digitChar digit) = some digit := by
  have table : ∀ digit < 16,
      digitValue (Nat.digitChar digit) = some digit := by
    decide
  exact table digit bound

theorem readHex_fixedDigits {width number : Nat}
    (bound : number < 16 ^ width) :
    readHex (fixedDigits 16 width number) = some number := by
  induction width generalizing number with
  | zero =>
      rw [Nat.pow_zero, Nat.lt_one_iff] at bound
      rw [bound]
      rfl
  | succ width inductionHypothesis =>
      have quotient : number / 16 < 16 ^ width :=
        Nat.div_lt_of_lt_mul (by rwa [← Nat.pow_succ'])
      have front := inductionHypothesis quotient
      have last : number % 16 < 16 := Nat.mod_lt number (by decide)
      unfold readHex at front ⊢
      rw [fixedDigits, List.foldlM_append, front]
      simp only [List.foldlM_cons, List.foldlM_nil, Option.bind_eq_bind,
        Option.bind_some, digitValue_digitChar last, Option.map_some,
        Option.pure_def, Option.some.injEq]
      exact Nat.div_add_mod number 16

theorem ungroup_cons {size next : Nat} {sizes : List Nat}
    {group rest : List Char} (length : group.length = size) :
    ungroup (size :: next :: sizes) (group ++ '-' :: rest) =
      (ungroup (next :: sizes) rest).map (group ++ ·) := by
  rw [ungroup, List.drop_left' length, List.take_left' length]
  · rfl
  · rintro ⟨⟩

/-- Taking the hyphens out again gives back the digits. -/
theorem ungroup_hyphenate {digits : List Char}
    (length : digits.length = 32) :
    ungroup [8, 4, 4, 4, 12] (hyphenate digits) = some digits := by
  have first : (digits.take 8).length = 8 := by
    rw [List.length_take, length]
    rfl
  have last : (digits.drop 20).length = 12 := by
    rw [List.length_drop, length]
  rw [hyphenate, ungroup_cons first,
    ungroup_cons (length_take_drop length (by decide)),
    ungroup_cons (length_take_drop length (by decide)),
    ungroup_cons (length_take_drop length (by decide)), ungroup,
    if_pos last]
  have regroup (cut : Nat) :
      (digits.drop cut).take 4 ++ digits.drop (cut + 4) =
        digits.drop cut := by
    rw [← List.drop_drop, List.take_append_drop]
  simp only [Option.map_some, regroup, List.take_append_drop]

/-- The printed form of an identifier is validated as that identifier. -/
theorem parseStr_str (id : Uuid) : parseStr id.str = some id := by
  have bound : id.toNat < 16 ^ 32 := by simpa using id.isLt
  have long : id.chars.length ≠ 32 := by
    rw [length_chars]
    decide
  have digits : ungroup [8, 4, 4, 4, 12] id.chars = some id.hex :=
    ungroup_hyphenate (length_hex id)
  have number : readHex id.hex = some id.toNat := readHex_fixedDigits bound
  simp only [parseStr, toList_str, if_neg long, if_pos (length_chars id),
    digits, Option.bind_some, number, Option.map_some, BitVec.ofNat_toNat,
    BitVec.setWidth_eq]

theorem filter_hyphenate {digits : List Char} (bare : '-' ∉ digits) :
    (hyphenate digits).filter (fun char => char ≠ '-') = digits := by
  have kept {part : List Char} (isPart : ∀ char ∈ part, char ∈ digits) :
      part.filter (fun char => char ≠ '-') = part := by
    refine List.filter_eq_self.mpr fun char member => ?_
    refine decide_eq_true fun isHyphen => bare ?_
    rw [← isHyphen]
    exact isPart char member
  have regroup (cut : Nat) :
      (digits.drop cut).take 4 ++ digits.drop (cut + 4) =
        digits.drop cut := by
    rw [← List.drop_drop, List.take_append_drop]
  have hyphen : ∀ rest : List Char,
      ('-' :: rest).filter (fun char => char ≠ '-') =
        rest.filter fun char => char ≠ '-' := fun _ => rfl
  have group (cut : Nat) : ∀ char ∈ (digits.drop cut).take 4, char ∈ digits :=
    fun char member => List.mem_of_mem_drop (List.mem_of_mem_take member)
  rw [hyphenate, List.filter_append, hyphen, List.filter_append, hyphen,
    List.filter_append, hyphen, List.filter_append, hyphen,
    kept fun char member => List.mem_of_mem_take member, kept (group 8),
    kept (group 12), kept (group 16),
    kept fun char member => List.mem_of_mem_drop member, regroup, regroup,
    regroup, List.take_append_drop]

/-- The constructor reads the printed form back. -/
theorem parse_str (id : Uuid) : parse id.str = some id := by
  have notChar {other : Char} (isOther : other ≠ '-' ∧
      ∀ digit < 16, other ≠ Nat.digitChar digit) : other ∉ id.chars := by
    intro member
    rcases mem_chars member with isHyphen | ⟨digit, bound, isDigit⟩
    · exact isOther.1 isHyphen
    · exact isOther.2 digit bound isDigit
  have noUrn : replaceAll "urn:".toList [] id.chars = id.chars :=
    replaceAll_of_not_isInfix
      (not_isInfix_of_notMem (notChar (by decide)))
  have noUuid : replaceAll "uuid:".toList [] id.chars = id.chars :=
    replaceAll_of_not_isInfix
      (not_isInfix_of_notMem (notChar (by decide)))
  have noBrace : ∀ char ∈ id.chars,
      ¬ (decide (char = '\x7b') || decide (char = '\x7d')) = true := by
    intro char member isBrace
    rw [Bool.or_eq_true, decide_eq_true_eq, decide_eq_true_eq] at isBrace
    rcases isBrace with isOpening | isClosing
    · rw [isOpening] at member
      exact notChar (by decide) member
    · rw [isClosing] at member
      exact notChar (by decide) member
  have bareStart : id.chars.dropWhile (fun char =>
      decide (char = '\x7b') || decide (char = '\x7d')) = id.chars :=
    List.dropWhile_eq_self_iff.mpr fun _ => noBrace _ (List.get_mem _ _)
  have bareEnd : id.chars.rdropWhile (fun char =>
      decide (char = '\x7b') || decide (char = '\x7d')) = id.chars :=
    List.rdropWhile_eq_self_iff.mpr fun nonempty =>
      noBrace _ (List.getLast_mem nonempty)
  have noHyphen : '-' ∉ id.hex := by
    intro member
    obtain ⟨digit, bound, isDigit⟩ := mem_fixedDigits (by decide) member
    have table : ∀ digit < 16, '-' ≠ Nat.digitChar digit := by decide
    exact table digit bound isDigit
  have digits : id.chars.filter (fun char => char ≠ '-') = id.hex :=
    filter_hyphenate noHyphen
  have bound : id.toNat < 16 ^ 32 := by simpa using id.isLt
  have number : readHex id.hex = some id.toNat := readHex_fixedDigits bound
  simp only [parse, toList_str, noUrn, noUuid, bareStart, bareEnd, digits,
    length_hex, if_true, number, Option.map_some, BitVec.ofNat_toNat,
    BitVec.setWidth_eq]

example : parse "\x7b00000000-0000-0000-0000-00000000002A\x7d" = some 42 := by
  decide

end Uuid

end ProjectMemory
