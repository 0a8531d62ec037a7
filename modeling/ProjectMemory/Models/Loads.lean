import Mathlib.Algebra.Group.Int.Defs
import Mathlib.Data.List.TakeDrop
import ProjectMemory.Models.Json
import ProjectMemory.Models.Uuid

/-!
# Reading JSON

`json.loads`, and the texts it reads as a value: those that write every
character as `json.dumps` does, or a slash with a backslash in front of it.

Strings are texts of characters: a lone surrogate is refused, as are `NaN` and
`Infinity`, and numbers are read exactly, as decimals.
-/

namespace ProjectMemory.Json

open Foundation

/-! ## Strings -/

/-- The four digits after `\u`. -/
def readHex : List Char → Option (Nat × List Char)
  | first :: second :: third :: fourth :: rest => do
      let first ← Uuid.digitValue first
      let second ← Uuid.digitValue second
      let third ← Uuid.digitValue third
      let fourth ← Uuid.digitValue fourth
      return (((first * 16 + second) * 16 + third) * 16 + fourth, rest)
  | _ => none

def simpleEscape (char : Char) : Option Char :=
  if char = '"' ∨ char = '\\' ∨ char = '/' then some char
  else if char = 'n' then some '\n'
  else if char = 'r' then some '\r'
  else if char = 't' then some '\t'
  else if char = 'b' then some (Char.ofNat 8)
  else if char = 'f' then some (Char.ofNat 12)
  else none

/-- What follows a high surrogate must be a low one. -/
def readLow (high : Nat) : List Char → Option (Char × List Char)
  | '\\' :: 'u' :: rest => do
      let (low, rest) ← readHex rest
      if 0xdc00 ≤ low ∧ low < 0xe000 then
        some (Char.ofNat
          (0x10000 + (high - 0xd800) * 1024 + (low - 0xdc00)), rest)
      else none
  | _ => none

/-- The character written by an escape, after its backslash. -/
def readEscape : List Char → Option (Char × List Char)
  | [] => none
  | char :: rest =>
      if char = 'u' then do
        let (code, rest) ← readHex rest
        if 0xd800 ≤ code ∧ code < 0xdc00 then readLow code rest
        else if 0xdc00 ≤ code ∧ code < 0xe000 then none
        else some (Char.ofNat code, rest)
      else (simpleEscape char).map fun escaped => (escaped, rest)

/-- The characters of a string up to its closing quotation mark. -/
def readString : Nat → List Char → Option (List Char × List Char)
  | 0, _ => none
  | _ + 1, [] => none
  | fuel + 1, char :: rest =>
      if char = '"' then some ([], rest)
      else if char = '\\' then do
        let (escaped, rest) ← readEscape rest
        let (chars, after) ← readString fuel rest
        return (escaped :: chars, after)
      else if char.toNat < 32 then none
      else do
        let (chars, after) ← readString fuel rest
        return (char :: chars, after)

/-! ## Numbers -/

def readWhole : List Char → List Char × List Char
  | '0' :: rest => (['0'], rest)
  | text => text.span Char.isDigit

/-- The digits after a point; the point belongs to the number only if there
are some. -/
def readFraction (text : List Char) : List Char × List Char :=
  match text with
  | '.' :: rest =>
      if (rest.takeWhile Char.isDigit).isEmpty then ([], text)
      else rest.span Char.isDigit
  | _ => ([], text)

def readSign : List Char → Bool × List Char
  | '-' :: rest => (true, rest)
  | '+' :: rest => (false, rest)
  | text => (false, text)

def readExponent (text : List Char) : Option Int × List Char :=
  match text with
  | char :: rest =>
      if char = 'e' ∨ char = 'E' then
        let (negative, body) := readSign rest
        let (digits, after) := body.span Char.isDigit
        if digits.isEmpty then (none, text)
        else
          let size : Int := Nat.ofDigitChars 10 digits 0
          (some (if negative then -size else size), after)
      else (none, text)
  | [] => (none, text)

/-- `mantissa * 10 ^ (exponent - places)`; with an exponent it is a `float`
and keeps a digit after its point. -/
def scaled (mantissa : Int) (places : Nat) : Option Int → Json
  | none => .num mantissa places
  | some exponent =>
      if exponent < places then .num mantissa (places - exponent).toNat
      else .num (mantissa * 10 ^ (exponent - places + 1).toNat) 1

/-- The digits, how many of them follow the point, and the exponent. -/
def readUnsigned (text : List Char) :
    Option ((Nat × Nat × Option Int) × List Char) :=
  let (whole, afterWhole) := readWhole text
  if whole.isEmpty then none
  else
    let (fraction, afterFraction) := readFraction afterWhole
    let (exponent, rest) := readExponent afterFraction
    some ((Nat.ofDigitChars 10 (whole ++ fraction) 0, fraction.length,
      exponent), rest)

def readNumber : List Char → Option (Json × List Char)
  | '-' :: text =>
      (readUnsigned text).map fun ((size, places, exponent), rest) =>
        (scaled (-size) places exponent, rest)
  | text =>
      (readUnsigned text).map fun ((size, places, exponent), rest) =>
        (scaled size places exponent, rest)

/-! ## Values -/

def isBlank (char : Char) : Bool :=
  char = ' ' || char = '\t' || char = '\n' || char = '\r'

def skipBlanks (text : List Char) : List Char :=
  text.dropWhile isBlank

def readLiteral (literal : List Char) (value : Json) (text : List Char) :
    Option (Json × List Char) :=
  if literal.isPrefixOf text then some (value, text.drop literal.length)
  else none

mutual

/-- A value at the front of a text; the fuel bounds the number of calls. -/
def readValue : Nat → List Char → Option (Json × List Char)
  | 0, _ => none
  | _ + 1, [] => none
  | fuel + 1, char :: rest =>
      if char = '"' then do
        let (chars, rest) ← readString fuel rest
        return (.str (String.ofList chars), rest)
      else if char = '[' then
        match skipBlanks rest with
        | ']' :: rest => some (.arr [], rest)
        | rest => do
            let (items, rest) ← readItems fuel rest
            return (.arr items, rest)
      else if char = '\x7b' then
        match skipBlanks rest with
        | '\x7d' :: rest => some (.obj [], rest)
        | rest => do
            let (members, rest) ← readMembers fuel rest
            return (.obj members, rest)
      else if char = 'n' then readLiteral "ull".toList .null rest
      else if char = 't' then readLiteral "rue".toList (.bool true) rest
      else if char = 'f' then readLiteral "alse".toList (.bool false) rest
      else readNumber (char :: rest)

/-- The items of an array, with its closing bracket. -/
def readItems : Nat → List Char → Option (List Json × List Char)
  | 0, _ => none
  | fuel + 1, text => do
      let (item, rest) ← readValue fuel text
      match skipBlanks rest with
      | ']' :: rest => return ([item], rest)
      | ',' :: rest =>
          let (items, rest) ← readItems fuel (skipBlanks rest)
          return (item :: items, rest)
      | _ => none

/-- The members of an object, with its closing brace. -/
def readMembers :
    Nat → List Char → Option (List (String × Json) × List Char)
  | fuel + 1, '"' :: rest => do
      let (chars, rest) ← readString fuel rest
      match skipBlanks rest with
      | ':' :: rest =>
          let (value, rest) ← readValue fuel (skipBlanks rest)
          match skipBlanks rest with
          | '\x7d' :: rest => return ([(String.ofList chars, value)], rest)
          | ',' :: rest =>
              let (members, rest) ← readMembers fuel (skipBlanks rest)
              return ((String.ofList chars, value) :: members, rest)
          | _ => none
      | _ => none
  | _, _ => none

end

/-- `json.loads`; `none` where it raises.  Of several members with one key all
are kept, and the last is the one that counts. -/
def loads (text : List Char) : Option Json := do
  let (value, rest) ← readValue (text.length + 1) (skipBlanks text)
  if (skipBlanks rest).isEmpty then some value else none

/-! ## The texts that are read as a value -/

/-- A character as `json.dumps` writes it, or a slash after a backslash. -/
inductive WritesChar : Char → List Char → Prop
  | escaped (char : Char) : WritesChar char (escapeChar char)
  | slash : WritesChar '/' ['\\', '/']

inductive WritesText : List Char → List Char → Prop
  | nil : WritesText [] []
  | cons {char : Char} {chars written text : List Char} :
      WritesChar char written → WritesText chars text →
      WritesText (char :: chars) (written ++ text)

mutual

inductive Writes : Json → List Char → Prop
  | null : Writes .null "null".toList
  | bool (value : Bool) : Writes (.bool value) (dumps (.bool value))
  | num (mantissa : Int) (exponent : Nat) :
      Writes (.num mantissa exponent) (dumpsNumber mantissa exponent)
  | str {value : String} {text : List Char} :
      WritesText value.toList text →
      Writes (.str value) ('"' :: text ++ ['"'])
  | emptyArr : Writes (.arr []) ['[', ']']
  | arr {items : List Json} {text : List Char} :
      WritesItems items text → Writes (.arr items) ('[' :: text ++ [']'])
  | emptyObj : Writes (.obj []) ['\x7b', '\x7d']
  | obj {members : List (String × Json)} {text : List Char} :
      WritesMembers members text →
      Writes (.obj members) ('\x7b' :: text ++ ['\x7d'])

inductive WritesItems : List Json → List Char → Prop
  | last {item : Json} {text : List Char} :
      Writes item text → WritesItems [item] text
  | cons {item : Json} {items : List Json} {text rest : List Char} :
      Writes item text → WritesItems items rest →
      WritesItems (item :: items) (text ++ ',' :: rest)

inductive WritesMembers : List (String × Json) → List Char → Prop
  | last {key : String} {value : Json} {name text : List Char} :
      WritesText key.toList name → Writes value text →
      WritesMembers [(key, value)] ('"' :: name ++ '"' :: ':' :: text)
  | cons {key : String} {value : Json} {members : List (String × Json)}
      {name text rest : List Char} :
      WritesText key.toList name → Writes value text →
      WritesMembers members rest →
      WritesMembers ((key, value) :: members)
        ('"' :: name ++ '"' :: ':' :: text ++ ',' :: rest)

end

end ProjectMemory.Json
