import ProjectMemory.Foundation.Digits

/-!
# JSON values

The values the program stores in `JSONB` columns and writes into prompts.  A
number is kept as a decimal: `num mantissa exponent` is
`mantissa * 10 ^ (-exponent)`.
-/

namespace ProjectMemory

open Foundation

inductive Json where
  | null
  | bool (value : Bool)
  | num (mantissa : Int) (exponent : Nat)
  | str (text : String)
  | arr (items : List Json)
  | obj (members : List (String × Json))
  deriving Repr

/-- Postgres stores every text without a NUL character. -/
def storable (text : String) : Bool :=
  !text.toList.contains (Char.ofNat 0)

namespace Json

/-- `\uXXXX`. -/
def unicodeEscape (code : Nat) : List Char :=
  '\\' :: 'u' :: fixedDigits 16 4 code

/-- A character of a string under `ensure_ascii`: a code above the basic plane
becomes two surrogates. -/
def escapeChar (char : Char) : List Char :=
  let code := char.toNat
  if char = '"' then ['\\', '"']
  else if char = '\\' then ['\\', '\\']
  else if char = '\n' then ['\\', 'n']
  else if char = '\r' then ['\\', 'r']
  else if char = '\t' then ['\\', 't']
  else if code = 8 then ['\\', 'b']
  else if code = 12 then ['\\', 'f']
  else if 32 ≤ code ∧ code ≤ 126 then [char]
  else if code < 0x10000 then unicodeEscape code
  else
    unicodeEscape (0xd800 + (code - 0x10000) / 1024) ++
      unicodeEscape (0xdc00 + (code - 0x10000) % 1024)

def dumpsString (text : String) : List Char :=
  '"' :: text.toList.flatMap escapeChar ++ ['"']

/-- A number with `exponent` digits after its point. -/
def dumpsNumber (mantissa : Int) (exponent : Nat) : List Char :=
  let sign := if mantissa < 0 then ['-'] else []
  let whole := (toString (mantissa.natAbs / 10 ^ exponent)).toList
  if exponent = 0 then sign ++ whole
  else
    sign ++ whole ++
      '.' :: fixedDigits 10 exponent (mantissa.natAbs % 10 ^ exponent)

mutual

/-- `json.dumps(value, separators=(",", ":"))`. -/
def dumps : Json → List Char
  | .null => "null".toList
  | .bool true => "true".toList
  | .bool false => "false".toList
  | .num mantissa exponent => dumpsNumber mantissa exponent
  | .str text => dumpsString text
  | .arr items => '[' :: List.intercalate [','] (dumpsItems items) ++ [']']
  | .obj members =>
      '\x7b' :: List.intercalate [','] (dumpsMembers members) ++ ['\x7d']

def dumpsItems : List Json → List (List Char)
  | [] => []
  | item :: items => dumps item :: dumpsItems items

def dumpsMembers : List (String × Json) → List (List Char)
  | [] => []
  | (key, value) :: members =>
      (dumpsString key ++ ':' :: dumps value) :: dumpsMembers members

end

/-- The start of a line at some depth under `indent=2`. -/
def lineBreak (depth : Nat) : List Char :=
  '\n' :: List.replicate (2 * depth) ' '

mutual

/-- `json.dumps(value, indent=2)` for a value at some depth. -/
def dumpsIndent (depth : Nat) : Json → List Char
  | .arr items =>
      if items.isEmpty then "[]".toList
      else
        '[' :: lineBreak (depth + 1) ++
          List.intercalate (',' :: lineBreak (depth + 1))
            (dumpsIndentItems (depth + 1) items) ++
          lineBreak depth ++ [']']
  | .obj members =>
      if members.isEmpty then "\x7b\x7d".toList
      else
        '\x7b' :: lineBreak (depth + 1) ++
          List.intercalate (',' :: lineBreak (depth + 1))
            (dumpsIndentMembers (depth + 1) members) ++
          lineBreak depth ++ ['\x7d']
  | value => value.dumps

def dumpsIndentItems (depth : Nat) : List Json → List (List Char)
  | [] => []
  | item :: items => dumpsIndent depth item :: dumpsIndentItems depth items

def dumpsIndentMembers (depth : Nat) :
    List (String × Json) → List (List Char)
  | [] => []
  | (key, value) :: members =>
      (dumpsString key ++ ": ".toList ++ dumpsIndent depth value) ::
        dumpsIndentMembers depth members

end

mutual

/-- What a `JSONB` column takes: no NUL character in a text or a key. -/
def storable : Json → Bool
  | .str text => ProjectMemory.storable text
  | .arr items => itemsStorable items
  | .obj members => membersStorable members
  | _ => true

def itemsStorable : List Json → Bool
  | [] => true
  | item :: items => storable item && itemsStorable items

def membersStorable : List (String × Json) → Bool
  | [] => true
  | (key, value) :: members =>
      ProjectMemory.storable key && storable value && membersStorable members

end

/-- The value under a key; of several members with one key the last counts. -/
def member (members : List (String × Json)) (key : String) : Option Json :=
  members.reverse.lookup key

end Json

end ProjectMemory
