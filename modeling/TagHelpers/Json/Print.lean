import TagHelpers.Json.Scan

/-!
# Writing JSON text

A value is written in one line, or with every item and member on a line of its own. A `Spacing` says
which; it consists of white space, so it makes no difference to a reader. Inside a string the quote,
the backslash and the control characters are escaped and all else stands for itself. What is broken
in a value is left out, so that only values without a fault are written in full.
-/

namespace TagHelpers.Json

/-- A number below 65536 as four hexadecimal digits. -/
def printUnit (n : Nat) : List Char :=
  [n / 4096 % 16, n / 256 % 16, n / 16 % 16, n % 16].map Nat.digitChar

/-- How a character is written inside a string. -/
def printChar (c : Char) : List Char :=
  if c = '"' then ['\\', '"']
  else if c = '\\' then ['\\', '\\']
  else if c = '\x08' then ['\\', 'b']
  else if c = '\x0c' then ['\\', 'f']
  else if c = '\n' then ['\\', 'n']
  else if c = '\r' then ['\\', 'r']
  else if c = '\t' then ['\\', 't']
  else if c.toNat < 0x20 then ['\\', 'u'] ++ printUnit c.toNat
  else [c]

/-- How a part of a string is written. -/
def Piece.print : Piece → List Char
  | .char c => printChar c
  | .half unit => ['\\', 'u'] ++ printUnit unit

/-- A string with its quotes. -/
def Quotation.print (q : Quotation) : List Char :=
  '"' :: q.pieces.flatMap Piece.print ++ ['"']

/-- A number with its sign, fraction and exponent. -/
def Numeral.print (n : Numeral) : List Char :=
  (if n.negative then ['-'] else []) ++ n.whole ++
    (if n.fraction.isEmpty then [] else '.' :: n.fraction) ++
    (if n.exponent = 0 then [] else 'e' :: (toString n.exponent).toList)

/-- The white space between the parts of a value. -/
structure Spacing where
  /-- What stands before an item, a member or a closing bracket at a depth. -/
  line : Nat → List Char
  /-- What stands between a colon and the value of a member. -/
  gap : List Char
  line_blank : ∀ depth, ∀ c ∈ line depth, isSpace c = true
  gap_blank : ∀ c ∈ gap, isSpace c = true

namespace Spacing

/-- No white space. -/
def compact : Spacing where
  line _ := []
  gap := []
  line_blank _ _ h := nomatch h
  gap_blank _ h := nomatch h

/-- A line for each item and member, indented by two spaces for each level. -/
def indented : Spacing where
  line depth := '\n' :: List.replicate (2 * depth) ' '
  gap := [' ']
  line_blank depth c h := by
    rcases List.mem_cons.1 h with rfl | h
    · rfl
    · rw [(List.mem_replicate.1 h).2]
      rfl
  gap_blank c h := by
    rw [List.mem_singleton.1 h]
    rfl

end Spacing

mutual

/-- A value as JSON text, starting at a depth. -/
def Value.print (w : Spacing) (depth : Nat) : Value → List Char
  | .null => ['n', 'u', 'l', 'l']
  | .bool true => ['t', 'r', 'u', 'e']
  | .bool false => ['f', 'a', 'l', 's', 'e']
  | .number n => n.print
  | .string q => q.print
  | .array items => '[' :: items.print w depth true ++ [']']
  | .object members => '\x7b' :: members.print w depth true ++ ['\x7d']
  | .missing | .unfinished _ | .broken _ => []

/-- The items of an array at a depth, with commas between them, `first` saying that none came
before. -/
def Items.print (w : Spacing) (depth : Nat) (first : Bool) : Items → List Char
  | .done | .cut _ => if first then [] else w.line depth
  | .cons item rest =>
    (if first then [] else [',']) ++ w.line (depth + 1) ++ item.print w (depth + 1) ++
      rest.print w depth false

/-- The members of an object at a depth, with commas between them, `first` saying that none came
before. -/
def Members.print (w : Spacing) (depth : Nat) (first : Bool) : Members → List Char
  | .done | .cut _ => if first then [] else w.line depth
  | .cons key value rest =>
    (if first then [] else [',']) ++ w.line (depth + 1) ++ key.print ++ ':' :: w.gap ++
      value.print w (depth + 1) ++ rest.print w depth false

end

/-- The JSON text of a value in one line. -/
def Value.toText (v : Value) : String :=
  String.ofList (v.print .compact 0)

/-- The JSON text of a value in several lines. -/
def Value.toLines (v : Value) : String :=
  String.ofList (v.print .indented 0)

end TagHelpers.Json
