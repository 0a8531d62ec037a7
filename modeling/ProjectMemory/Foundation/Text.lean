import Mathlib.Data.List.DropRight

/-!
# Strings and slices as Python computes them

Texts are lists of characters.  White space is what `str.isspace` accepts, and
slices count negative positions from the end.
-/

namespace Foundation

universe u

/-- The characters that `str.split` and `str.strip` treat as white space. -/
def isSpace (char : Char) : Bool :=
  let code := char.toNat
  (9 ≤ code && code ≤ 13) || (28 ≤ code && code ≤ 32) || code == 0x85 ||
    code == 0xa0 || code == 0x1680 || (0x2000 ≤ code && code ≤ 0x200a) ||
    code == 0x2028 || code == 0x2029 || code == 0x202f || code == 0x205f ||
    code == 0x3000

/-- The zeros of the scripts that have decimal digits; each is followed by the
digits from one to nine. -/
def decimalZeros : List Nat :=
  [0x30, 0x660, 0x6f0, 0x7c0, 0x966, 0x9e6, 0xa66, 0xae6, 0xb66, 0xbe6,
    0xc66, 0xce6, 0xd66, 0xde6, 0xe50, 0xed0, 0xf20, 0x1040, 0x1090, 0x17e0,
    0x1810, 0x1946, 0x19d0, 0x1a80, 0x1a90, 0x1b50, 0x1bb0, 0x1c40, 0x1c50,
    0xa620, 0xa8d0, 0xa900, 0xa9d0, 0xa9f0, 0xaa50, 0xabf0, 0xff10, 0x104a0,
    0x10d30, 0x11066, 0x110f0, 0x11136, 0x111d0, 0x112f0, 0x11450, 0x114d0,
    0x11650, 0x116c0, 0x11730, 0x118e0, 0x11950, 0x11c50, 0x11d50, 0x11da0,
    0x11f50, 0x16a60, 0x16ac0, 0x16b50, 0x1d7ce, 0x1d7d8, 0x1d7e2, 0x1d7ec,
    0x1d7f6, 0x1e140, 0x1e2f0, 0x1e4f0, 0x1e950, 0x1fbf0]

/-- The characters that `\d` matches. -/
def isDecimal (char : Char) : Bool :=
  decimalZeros.any fun start =>
    start ≤ char.toNat && char.toNat < start + 10

/-- `text.strip()`. -/
def strip (text : List Char) : List Char :=
  (text.dropWhile isSpace).rdropWhile isSpace

/-- The words of a text that goes on after the start of a word. -/
def splitWordsFrom (word : List Char) : List Char → List (List Char)
  | [] => if word = [] then [] else [word]
  | char :: rest =>
      if isSpace char then
        if word = [] then splitWordsFrom [] rest
        else word :: splitWordsFrom [] rest
      else splitWordsFrom (word ++ [char]) rest

/-- `text.split()`: the maximal runs of characters that are not white
space. -/
def splitWords (text : List Char) : List (List Char) :=
  splitWordsFrom [] text

/-- Replace every run of three or more newlines by two. -/
def collapseNewlines (seen : Nat) : List Char → List Char
  | [] => []
  | char :: rest =>
      if char = '\n' then
        if seen < 2 then char :: collapseNewlines (seen + 1) rest
        else collapseNewlines seen rest
      else char :: collapseNewlines 0 rest

/-- Drop what is left of an occurrence, then replace the occurrences that
follow. -/
def replaceFrom (pattern replacement : List Char) :
    Nat → List Char → List Char
  | _, [] => []
  | skip + 1, _ :: rest => replaceFrom pattern replacement skip rest
  | 0, char :: rest =>
      if pattern.isPrefixOf (char :: rest) then
        replacement ++
          replaceFrom pattern replacement (pattern.length - 1) rest
      else char :: replaceFrom pattern replacement 0 rest

/-- `text.replace(pattern, replacement)` for a pattern that is not empty. -/
def replaceAll (pattern replacement text : List Char) : List Char :=
  replaceFrom pattern replacement 0 text

section Slices

variable {Item : Type u}

/-- A slice bound as a position: negative bounds count from the end, and both
are clamped to the list. -/
def sliceBound (length : Nat) (bound : Int) : Nat :=
  if bound < 0 then (bound + length).toNat else min bound.toNat length

/-- `items[start:stop]`. -/
def slice (items : List Item) (start stop : Int) : List Item :=
  (items.take (sliceBound items.length stop)).drop
    (sliceBound items.length start)

end Slices

example : splitWords " a  bc\n".toList = [['a'], ['b', 'c']] := by decide

end Foundation
