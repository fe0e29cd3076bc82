import TagHelpers.Json.Scan
import TagHelpers.Text.Basic

/-!
# Flags of bound attributes

What kind of value an attribute or a parameter takes is a set of flags in one byte. The set is
written as the names of its flags with bars between them; bits that have no name are kept and
written in hexadecimal.
-/

namespace TagHelpers

/-- A set of flags, one bit each. -/
structure Flags where
  bits : UInt8
  deriving DecidableEq, Repr, Inhabited

namespace Flags

/-- No flag. -/
def empty : Flags := ⟨0⟩

/-- The value is one of an enumeration. -/
def isEnum : Flags := ⟨1⟩

/-- The value is a text. -/
def isString : Flags := ⟨2⟩

/-- The value is a truth value. -/
def isBoolean : Flags := ⟨4⟩

/-- The value under a key is a text. -/
def isIndexerString : Flags := ⟨8⟩

/-- The value under a key is a truth value. -/
def isIndexerBoolean : Flags := ⟨16⟩

/-- The flags that have a name, in the order in which they are written. -/
def named : List (String × Flags) :=
  [("IS_ENUM", isEnum), ("IS_STRING", isString), ("IS_BOOLEAN", isBoolean),
    ("IS_INDEXER_STRING", isIndexerString), ("IS_INDEXER_BOOLEAN", isIndexerBoolean)]

/-- Whether all flags of `g` are in `f`. -/
def contains (f g : Flags) : Bool :=
  f.bits &&& g.bits == g.bits

/-- The flags of both sets. -/
def union (f g : Flags) : Flags :=
  ⟨f.bits ||| g.bits⟩

/-- The flags of `f` that are not in `g`. -/
def without (f g : Flags) : Flags :=
  ⟨f.bits &&& ~~~g.bits⟩

/-- The flags that a type name stands for. -/
def ofTypeName (type : String) : Flags :=
  if type = "System.String" ∨ type = "string" then isString
  else if type = "System.Boolean" ∨ type = "bool" then isBoolean
  else empty

/-- The number of one byte that hexadecimal digits stand for. A plus sign may come first. -/
def parseHex (cs : List Char) : Option UInt8 := do
  let digits ← (if cs.head? = some '+' then cs.tail else cs).mapM Json.hexDigit
  let n := digits.foldl (fun n d => n * 16 + d) 0
  if digits.isEmpty ∨ 255 < n then none else some n.toUInt8

/-- The flag or the bits that one part of the text stands for. -/
def parseOne (part : String) : Except String Flags :=
  if part = "" then .error "encountered empty flag"
  else
    match part.toList with
    | '0' :: 'x' :: digits =>
      match parseHex digits with
      | some bits => .ok ⟨bits⟩
      | none => .error "invalid hex flag"
    | _ =>
      match named.lookup part with
      | some flag => .ok flag
      | none => .error "unrecognized named flag"

/-- The set that a text stands for, or why it stands for none. -/
def parse (s : String) : Except String Flags :=
  if Text.blank s then .ok empty
  else
    (Text.splitAll '|' s).foldlM (fun f part => f.union <$> parseOne (Text.trim part)) empty

/-- The text of a set. -/
def print (f : Flags) : String :=
  let names := (named.filter fun (_, flag) => f.contains flag).map Prod.fst
  let rest := named.foldl (fun f (_, flag) => f.without flag) f
  let leftover :=
    if rest.bits = 0 then []
    else [String.ofList ('0' :: 'x' :: Nat.toDigits 16 rest.bits.toNat)]
  String.intercalate " | " (names ++ leftover)

end Flags

end TagHelpers
