/-!
# Text

White space is the Unicode property `White_Space`: the characters that trimming takes off and that
make a text blank. Trimming is one operation, `stripEnds`, used with two classes of characters:
white space (`trim`) and the double quote (`trimQuotes`).

`fields` cuts a text at every occurrence of a separator, so that `n` separators give `n + 1` fields,
some of them possibly empty. `cut` cuts at the first occurrence only.

Offsets into a text count the bytes of its UTF-8 form. `dropBytes?` is the part of a text after an
offset, which exists when the offset falls between two characters.
-/

namespace TagHelpers.Text

/-! ### Blank text -/

/-- The characters with the Unicode property `White_Space`. -/
def isBlank (c : Char) : Bool :=
  let n := c.toNat
  (0x9 ≤ n && n ≤ 0xD) || n == 0x20 || n == 0x85 || n == 0xA0 || n == 0x1680 ||
    (0x2000 ≤ n && n ≤ 0x200A) || n == 0x2028 || n == 0x2029 || n == 0x202F || n == 0x205F ||
    n == 0x3000

/-- Drops the longest run of `p` at the end of a list. -/
def stripEnd (p : Char → Bool) (cs : List Char) : List Char :=
  (cs.reverse.dropWhile p).reverse

/-- Drops the longest runs of `p` at both ends of a list. -/
def stripEnds (p : Char → Bool) (cs : List Char) : List Char :=
  stripEnd p (cs.dropWhile p)

/-- The text without white space at its ends. -/
def trim (s : String) : String :=
  String.ofList (stripEnds isBlank s.toList)

/-- The text without double quotes at its ends, however many there are. -/
def trimQuotes (s : String) : String :=
  String.ofList (stripEnds (· == '"') s.toList)

/-- A text is blank when it holds nothing but white space. -/
def blank (s : String) : Bool :=
  s.toList.all isBlank

/-! ### Cutting at a character -/

/-- The parts of a list between the occurrences of a separator. -/
def fields (sep : Char) : List Char → List (List Char)
  | [] => [[]]
  | c :: cs =>
    if c = sep then [] :: fields sep cs
    else
      match fields sep cs with
      | [] => [[c]]
      | part :: parts => (c :: part) :: parts

/-- What stands before and after the first separator, if there is one. -/
def cut (sep : Char) : List Char → Option (List Char × List Char)
  | [] => none
  | c :: cs =>
    if c = sep then some ([], cs)
    else (cut sep cs).map fun (before, after) => (c :: before, after)

/-- The parts of a text between the occurrences of a separator. -/
def splitAll (sep : Char) (s : String) : List String :=
  (fields sep s.toList).map String.ofList

/-- A text before and after its first separator. -/
def splitFirst (sep : Char) (s : String) : Option (String × String) :=
  (cut sep s.toList).map fun (before, after) => (String.ofList before, String.ofList after)

/-! ### Byte offsets -/

/-- The characters after the first `n` bytes, unless that cuts a character or there are fewer. -/
def dropBytes? : Nat → List Char → Option (List Char)
  | 0, cs => some cs
  | _ + 1, [] => none
  | n + 1, c :: cs => if c.utf8Size ≤ n + 1 then dropBytes? (n + 1 - c.utf8Size) cs else none

end TagHelpers.Text
