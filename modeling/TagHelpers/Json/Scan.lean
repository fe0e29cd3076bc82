import TagHelpers.Json.Value

/-!
# Reading JSON text

`scan` reads a text into a value as far as the text goes, together with whether anything but white
space follows it. Each reader returns what it has read and the rest of the text, or no rest when
the text cannot be read on. The readers of nested values take a fuel argument, which `scan`
computes from the length of the text: every two steps consume a character.
-/

namespace TagHelpers.Json

/-- The white space of JSON. -/
def isSpace (c : Char) : Bool :=
  c == ' ' || c == '\n' || c == '\t' || c == '\r'

/-- The text without leading white space. -/
def skipSpace (cs : List Char) : List Char :=
  cs.dropWhile isSpace

/-- The value of a hexadecimal digit. -/
def hexDigit (c : Char) : Option Nat :=
  if '0' ≤ c ∧ c ≤ '9' then some (c.toNat - '0'.toNat)
  else if 'a' ≤ c ∧ c ≤ 'f' then some (c.toNat - 'a'.toNat + 10)
  else if 'A' ≤ c ∧ c ≤ 'F' then some (c.toNat - 'A'.toNat + 10)
  else none

/-- The number written by four hexadecimal digits. -/
def hexUnit (a b c d : Char) : Option Nat := do
  let a ← hexDigit a
  let b ← hexDigit b
  let c ← hexDigit c
  let d ← hexDigit d
  return ((a * 16 + b) * 16 + c) * 16 + d

/-- The part of a string that a number written as an escape stands for. -/
def pieceOfUnit (unit : Nat) : Piece :=
  if isHigh unit || isLow unit then .half unit else .char (Char.ofNat unit)

/-- What a character after a backslash stands for, the hexadecimal escape apart. -/
def simpleEscape (c : Char) : Option Char :=
  if c = '"' ∨ c = '\\' ∨ c = '/' then some c
  else if c = 'b' then some '\x08'
  else if c = 'f' then some '\x0c'
  else if c = 'n' then some '\n'
  else if c = 'r' then some '\r'
  else if c = 't' then some '\t'
  else none

/-- Puts a piece in front of a string. -/
def Quotation.push (p : Piece) (read : Quotation × Option (List Char)) :
    Quotation × Option (List Char) :=
  (⟨p :: read.1.pieces, read.1.fault⟩, read.2)

/-- Reads a string after its opening quote. -/
def readQuotation : List Char → Quotation × Option (List Char)
  | [] => (⟨[], some .early⟩, none)
  | '"' :: rest => (⟨[], none⟩, some rest)
  | ['\\'] => (⟨[], some .early⟩, none)
  | '\\' :: 'u' :: a :: b :: c :: d :: rest =>
    match hexUnit a b c d with
    | some unit => Quotation.push (pieceOfUnit unit) (readQuotation rest)
    | none => (⟨[], some .malformed⟩, none)
  | '\\' :: 'u' :: rest =>
    (⟨[], some (if (String.ofList rest).utf8ByteSize < 4 then .early else .malformed)⟩, none)
  | '\\' :: e :: rest =>
    match simpleEscape e with
    | some c => Quotation.push (.char c) (readQuotation rest)
    | none => (⟨[], some .malformed⟩, none)
  | c :: rest =>
    if c.toNat < 0x20 then (⟨[], some .malformed⟩, none)
    else Quotation.push (.char c) (readQuotation rest)

/-- Reads the rest of one of the words of JSON. -/
def readWord : List Char → List Char → Except Fault (List Char)
  | [], rest => .ok rest
  | _ :: _, [] => .error .early
  | w :: word, c :: rest => if c = w then readWord word rest else .error .malformed

/-- The fault where a digit is missing. -/
def noDigit : List Char → Fault
  | [] => .early
  | _ :: _ => .malformed

/-- Reads a run of digits, of which there must be one. -/
def readDigits (cs : List Char) : Except Fault (List Char × List Char) :=
  match cs.span Char.isDigit with
  | ([], rest) => .error (noDigit rest)
  | (digits, rest) => .ok (digits, rest)

/-- Reads the digits before the point, which start with a zero only if it stands alone. -/
def readWhole (cs : List Char) : Except Fault (List Char × List Char) := do
  let (digits, rest) ← readDigits cs
  if digits.head? = some '0' ∧ 1 < digits.length then throw .malformed
  return (digits, rest)

/-- Reads the point and the digits after it, if there is a point. -/
def readFraction : List Char → Except Fault (Option (List Char) × List Char)
  | '.' :: rest => do
    let (digits, rest) ← readDigits rest
    return (some digits, rest)
  | rest => .ok (none, rest)

/-- The number that a run of digits stands for. -/
def ofDigits (digits : List Char) : Nat :=
  digits.foldl (fun n c => n * 10 + (c.toNat - '0'.toNat)) 0

/-- Reads an exponent, if there is one. -/
def readExponent : List Char → Except Fault (Option Int × List Char)
  | [] => .ok (none, [])
  | c :: rest =>
    if c = 'e' ∨ c = 'E' then do
      let (negative, rest) :=
        match rest with
        | '-' :: rest => (true, rest)
        | '+' :: rest => (false, rest)
        | rest => (false, rest)
      let (digits, rest) ← readDigits rest
      let n : Int := ofDigits digits
      return (some (if negative then -n else n), rest)
    else .ok (none, c :: rest)

/-- Reads a number after its sign. -/
def readNumeral (negative : Bool) (cs : List Char) : Except Fault (Numeral × List Char) := do
  let (whole, rest) ← readWhole cs
  let (fraction, rest) ← readFraction rest
  let (exponent, rest) ← readExponent rest
  return (⟨negative, whole, fraction.getD [], fraction.isNone && exponent.isNone,
    exponent.getD 0⟩, rest)

/-- A value and the rest of the text after its word, or where the word breaks off. -/
def finishWord (value : Value) : Except Fault (List Char) → Value × Option (List Char)
  | .ok rest => (value, some rest)
  | .error f => (.broken f, none)

/-- A number and the rest of the text, or where the number breaks off. -/
def finishNumber : Except Fault (Numeral × List Char) → Value × Option (List Char)
  | .ok (n, rest) => (.number n, some rest)
  | .error f => (.unfinished f, none)

/-- Reads a value that is neither a string nor an array nor an object. -/
def readScalar : List Char → Value × Option (List Char)
  | [] => (.missing, none)
  | 'n' :: rest => finishWord .null (readWord ['u', 'l', 'l'] rest)
  | 't' :: rest => finishWord (.bool true) (readWord ['r', 'u', 'e'] rest)
  | 'f' :: rest => finishWord (.bool false) (readWord ['a', 'l', 's', 'e'] rest)
  | '-' :: rest => finishNumber (readNumeral true rest)
  | c :: rest =>
    if c.isDigit then finishNumber (readNumeral false (c :: rest))
    else (.broken .malformed, none)

/-- The place where the next item of an array starts, `first` saying that none came before. When
there is no next item, the array ends there. -/
def nextItem (first : Bool) (cs : List Char) : Except (Items × Option (List Char)) (List Char) :=
  match skipSpace cs with
  | [] => .error (.cut .early, none)
  | ']' :: rest => .error (.done, some rest)
  | c :: rest =>
    if first then .ok (c :: rest)
    else if c = ',' then
      match skipSpace rest with
      | ']' :: _ => .error (.cut .malformed, none)
      | rest => .ok rest
    else .error (.cut .malformed, none)

/-- The place after the quote that opens the next key of an object. When there is no next key, the
object ends there. A text that ends after a comma ends inside a key. -/
def nextKey (first : Bool) (cs : List Char) :
    Except (Members × Option (List Char)) (List Char) :=
  match skipSpace cs with
  | [] => .error (.cut .early, none)
  | '\x7d' :: rest => .error (.done, some rest)
  | c :: rest =>
    if first then
      if c = '"' then .ok rest else .error (.cut .malformed, none)
    else if c = ',' then
      match skipSpace rest with
      | [] => .error (.cons ⟨[], some .early⟩ .missing (.cut .early), none)
      | '"' :: rest => .ok rest
      | _ => .error (.cut .malformed, none)
    else .error (.cut .malformed, none)

/-- The place after the colon between a key and its value, or what stands for the value. -/
def afterColon (cs : List Char) : Except Value (List Char) :=
  match skipSpace cs with
  | [] => .error .missing
  | ':' :: rest => .ok rest
  | _ => .error (.broken .malformed)

mutual

/-- Reads a value. -/
def readValue : Nat → List Char → Value × Option (List Char)
  | 0, _ => (.missing, none)
  | fuel + 1, cs =>
    match skipSpace cs with
    | '"' :: rest =>
      let (q, rest) := readQuotation rest
      (.string q, rest)
    | '[' :: rest =>
      let (items, rest) := readItems fuel true rest
      (.array items, rest)
    | '\x7b' :: rest =>
      let (members, rest) := readMembers fuel true rest
      (.object members, rest)
    | rest => readScalar rest

/-- Reads the items of an array and its closing bracket. -/
def readItems : Nat → Bool → List Char → Items × Option (List Char)
  | 0, _, _ => (.cut .early, none)
  | fuel + 1, first, cs =>
    match nextItem first cs with
    | .error ended => ended
    | .ok rest =>
      match readValue fuel rest with
      | (item, none) => (.cons item (.cut .early), none)
      | (item, some rest) =>
        let (items, rest) := readItems fuel false rest
        (.cons item items, rest)

/-- Reads the members of an object and its closing brace. -/
def readMembers : Nat → Bool → List Char → Members × Option (List Char)
  | 0, _, _ => (.cut .early, none)
  | fuel + 1, first, cs =>
    match nextKey first cs with
    | .error ended => ended
    | .ok rest =>
      match readQuotation rest with
      | (key, none) => (.cons key .missing (.cut .early), none)
      | (key, some rest) =>
        match afterColon rest with
        | .error value => (.cons key value (.cut .early), none)
        | .ok rest =>
          match readValue fuel rest with
          | (value, none) => (.cons key value (.cut .early), none)
          | (value, some rest) =>
            let (members, rest) := readMembers fuel false rest
            (.cons key value members, rest)

end

/-- A text read as a value, and whether something other than white space follows. -/
def scan (text : String) : Value × Bool :=
  let cs := text.toList
  match readValue (2 * cs.length + 2) cs with
  | (value, none) => (value, false)
  | (value, some rest) => (value, !(skipSpace rest).isEmpty)

end TagHelpers.Json
