/-!
# Comparing names

Names are compared either ordinally or with ASCII letters folded to lower case. A `Casing` says
which, and equality, prefixes and suffixes are taken on the folded characters. Folding changes
ASCII letters only, so it keeps the number of bytes of a text and never cuts a character.
-/

namespace TagHelpers

/-- How two names are compared. -/
inductive Casing where
  /-- Character by character. -/
  | ordinal
  /-- Upper and lower case of an ASCII letter are the same. -/
  | folded
  deriving DecidableEq, Repr, Inhabited

namespace Casing

/-- Ordinal comparison where case matters. -/
def ofSensitive (sensitive : Bool) : Casing :=
  if sensitive then ordinal else folded

/-- The representative of a character: characters are the same when their folds are. -/
def fold : Casing → Char → Char
  | ordinal, c => c
  | folded, c => c.toLower

/-- The folded characters of a text. -/
def key (k : Casing) (s : String) : List Char :=
  s.toList.map k.fold

/-- Whether two texts are equal under the casing. -/
def same (k : Casing) (a b : String) : Bool :=
  k.key a == k.key b

/-- Whether `s` starts with `p` under the casing. -/
def startsWith (k : Casing) (s p : String) : Bool :=
  (k.key p).isPrefixOf (k.key s)

/-- Whether `s` ends with `p` under the casing. -/
def endsWith (k : Casing) (s p : String) : Bool :=
  (k.key p).isSuffixOf (k.key s)

end Casing

end TagHelpers
