/-!
# JSON text as far as it can be read

A JSON text is read from left to right, and a reader of typed data stops at the first thing that is
wrong, be it the text or the data. So a `Value` is a value *as far as the text goes*: a list of
items or members either ends with its closing bracket or breaks off with a `Fault`. Whoever walks
over the value in text order meets data and faults in the order in which they stand in the text.
-/

namespace TagHelpers.Json

/-- Why a text cannot be read any further. -/
inductive Fault where
  /-- The text ends too early. -/
  | early
  /-- The text goes on with something that is not JSON. -/
  | malformed
  deriving DecidableEq, Repr, Inhabited

/-- A part of a string: a character, or one half of a surrogate pair. -/
inductive Piece where
  | char (c : Char)
  | half (unit : Nat)
  deriving DecidableEq, Repr

/-- A string as far as it can be read. Halves of surrogate pairs are not yet joined. -/
structure Quotation where
  pieces : List Piece
  /-- What stands in place of the closing quote, if it is missing. -/
  fault : Option Fault := none
  deriving DecidableEq, Repr

/-- A number as it is written. -/
structure Numeral where
  negative : Bool := false
  whole : List Char
  fraction : List Char := []
  /-- Whether a fraction or an exponent is written. -/
  integral : Bool := true
  exponent : Int := 0
  deriving DecidableEq, Repr

mutual

/-- A value as far as the text goes. -/
inductive Value where
  | null
  | bool (b : Bool)
  | number (n : Numeral)
  | string (q : Quotation)
  | array (items : Items)
  | object (members : Members)
  /-- The text ends where a value should start. -/
  | missing
  /-- A number starts and is not finished. -/
  | unfinished (fault : Fault)
  /-- A word starts and is not finished, or no value starts. -/
  | broken (fault : Fault)

/-- The items of an array as far as the text goes. -/
inductive Items where
  | done
  | cut (fault : Fault)
  | cons (item : Value) (rest : Items)

/-- The members of an object as far as the text goes. -/
inductive Members where
  | done
  | cut (fault : Fault)
  | cons (key : Quotation) (value : Value) (rest : Members)

end

mutual

/-- The first fault inside a value, which a reader that skips the value runs into. Skipping does
not ask whether surrogates are paired or numbers are in range, and takes a number that the text
breaks off for a malformed one. -/
def Value.fault : Value → Option Fault
  | .null | .bool _ | .number _ => none
  | .string q => q.fault
  | .array items => items.fault
  | .object members => members.fault
  | .missing => some .early
  | .unfinished _ => some .malformed
  | .broken f => some f

/-- The first fault inside a list of items. -/
def Items.fault : Items → Option Fault
  | .done => none
  | .cut f => some f
  | .cons item rest => item.fault <|> rest.fault

/-- The first fault inside a list of members. -/
def Members.fault : Members → Option Fault
  | .done => none
  | .cut f => some f
  | .cons key value rest => key.fault <|> value.fault <|> rest.fault

end

/-- Whether a number is the first half of a surrogate pair. -/
def isHigh (unit : Nat) : Bool := 0xD800 ≤ unit && unit ≤ 0xDBFF

/-- Whether a number is the second half of a surrogate pair. -/
def isLow (unit : Nat) : Bool := 0xDC00 ≤ unit && unit ≤ 0xDFFF

/-- The character of a surrogate pair. -/
def joinHalves (high low : Nat) : Char :=
  Char.ofNat (0x10000 + (high - 0xD800) * 0x400 + (low - 0xDC00))

/-- Joins the halves of surrogate pairs. A half that stands alone is malformed, unless the string
breaks off right after a first half. -/
def joinPieces (fault : Option Fault) : List Piece → Except Fault (List Char)
  | [] =>
    match fault with
    | none => .ok []
    | some f => .error f
  | .char c :: rest => (c :: ·) <$> joinPieces fault rest
  | [.half high] => .error (if isHigh high then fault.getD .malformed else .malformed)
  | .half high :: .half low :: rest =>
    if isHigh high && isLow low then (joinHalves high low :: ·) <$> joinPieces fault rest
    else .error .malformed
  | .half _ :: .char _ :: _ => .error .malformed

/-- The text of a string. -/
def Quotation.text (q : Quotation) : Except Fault String :=
  String.ofList <$> joinPieces q.fault q.pieces

/-- The string of a text. -/
def Quotation.ofText (s : String) : Quotation :=
  ⟨s.toList.map .char, none⟩

/-- An array of given items. -/
def Items.ofList : List Value → Items
  | [] => .done
  | v :: vs => .cons v (ofList vs)

/-- An object of given members. -/
def Members.ofList : List (String × Value) → Members
  | [] => .done
  | (key, v) :: rest => .cons (.ofText key) v (ofList rest)

namespace Value

/-- The value of a text. -/
def ofText (s : String) : Value :=
  .string (.ofText s)

/-- The value of a text that may be absent. -/
def ofText? : Option String → Value
  | none => .null
  | some s => ofText s

/-- The value of a natural number. -/
def ofNat (n : Nat) : Value :=
  .number { whole := Nat.toDigits 10 n }

/-- The array of a list. -/
def ofList {α : Type} (f : α → Value) (xs : List α) : Value :=
  .array (.ofList (xs.map f))

/-- The object with given members. -/
def record (members : List (String × Value)) : Value :=
  .object (.ofList members)

end Value

end TagHelpers.Json
