import TagHelpers.Json.Number
import TagHelpers.Text.Quoted

/-!
# Reading typed data from JSON

A reader turns a value into data or says why it cannot. Faults of the text and mismatches of the
data are met in text order, and the first one wins. Records are read from objects, or from arrays
that list their fields in order; a field is known by its key, and what a record does not know is
skipped. Choices among names are read from a string, or from an object with the name as its only
key and `null` under it.
-/

namespace TagHelpers.Json

/-- What stands where something else is expected. -/
inductive Found where
  | null
  | boolean (b : Bool)
  | number (n : Number)
  | text (s : String)
  | sequence
  | map
  deriving DecidableEq, Repr

/-- A value of the wrong shape. -/
inductive Mismatch where
  /-- A value of another type. -/
  | wrongType (found : Found) (expected : String)
  /-- An integer outside the range. -/
  | outOfRange (n : Int) (expected : String)
  /-- A required field is absent. -/
  | missingField (key : String)
  /-- A field is given twice. -/
  | duplicateField (key : String)
  /-- A name that is none of the choices. -/
  | unknownChoice (given : String) (choices : List String)
  /-- An array that ends before a required field of the record it stands for. -/
  | wrongLength (length : Nat) (record : String) (fields : Nat)
  /-- A text that does not say what it should, for a reason given in words. -/
  | refused (reason : String)
  deriving DecidableEq, Repr

/-- Why data cannot be read. -/
inductive LoadError where
  /-- The text is not JSON. -/
  | text (fault : Fault)
  /-- The text is JSON so far and holds something else. -/
  | data (mismatch : Mismatch)
  deriving DecidableEq, Repr

/-- What stands in place of the expected value, in words. -/
def Found.describe : Found → String
  | null => "null"
  | boolean b => s!"boolean `{b}`"
  | number (.integer n) => s!"integer `{n}`"
  | number n => "floating point `" ++ n.display ++ "`"
  | text s => "string " ++ Text.quoted s
  | sequence => "sequence"
  | map => "map"

/-- A list of choices in words. -/
def describeChoices (choices : List String) : String :=
  let ticked := choices.map fun c => "`" ++ c ++ "`"
  match ticked with
  | [] => "there are no variants"
  | [a] => "expected " ++ a
  | [a, b] => "expected " ++ a ++ " or " ++ b
  | _ => "expected one of " ++ String.intercalate ", " ticked

/-- The wording of a mismatch. -/
def Mismatch.message : Mismatch → String
  | wrongType found expected => "invalid type: " ++ found.describe ++ ", expected " ++ expected
  | outOfRange n expected => s!"invalid value: integer `{n}`, expected {expected}"
  | missingField key => s!"missing field `{key}`"
  | duplicateField key => s!"duplicate field `{key}`"
  | unknownChoice given choices => s!"unknown variant `{given}`, " ++ describeChoices choices
  | wrongLength length record fields =>
    s!"invalid length {length}, expected struct {record} with {fields} elements"
  | refused reason => reason

/-- A reader of values of a type. -/
abbrev Reader (α : Type) : Type := Value → Except LoadError α

/-- The error of a fault. -/
def failText {α : Type} (f : Fault) : Except LoadError α :=
  .error (.text f)

/-- The error of a mismatch. -/
def failData {α : Type} (m : Mismatch) : Except LoadError α :=
  .error (.data m)

/-- The text of a string, its fault being the reader's. -/
def Quotation.read (q : Quotation) : Except LoadError String :=
  q.text.mapError .text

/-- The error of a value that stands where something else is expected. A scalar is read to its end
first, so that what is wrong with its text comes before its being the wrong thing. -/
def Value.mismatch {α : Type} (v : Value) (expected : String) : Except LoadError α :=
  let wrong (found : Found) : Except LoadError α := failData (.wrongType found expected)
  match v with
  | .null => wrong .null
  | .bool b => wrong (.boolean b)
  | .number n =>
    match n.value with
    | some x => wrong (.number x)
    | none => failText .malformed
  | .string q => q.read >>= fun s => wrong (.text s)
  | .array _ => wrong .sequence
  | .object _ => wrong .map
  | .missing => failText .early
  | .unfinished f | .broken f => failText f

namespace Reader

/-- Reads a text. -/
def text : Reader String
  | .string q => q.read
  | v => v.mismatch "a string"

/-- Reads a text that has a grammar of its own, which `expected` describes. -/
def parsed {α : Type} (expected : String) (parse : String → Except String α) : Reader α
  | .string q => q.read >>= fun s => (parse s).mapError fun reason => .data (.refused reason)
  | v => v.mismatch expected

/-- Reads a text that may be absent. -/
def text? : Reader (Option String)
  | .null => .ok none
  | v => some <$> text v

/-- Reads a truth value. -/
def bool : Reader Bool
  | .bool b => .ok b
  | v => v.mismatch "a boolean"

/-- Reads an offset. -/
def offset : Reader UInt32
  | .number n =>
    match n.value with
    | some (.integer k) =>
      if 0 ≤ k ∧ k.toNat < UInt32.size then .ok k.toNat.toUInt32 else failData (.outOfRange k "u32")
    | some x => failData (.wrongType (.number x) "u32")
    | none => failText .malformed
  | v => v.mismatch "u32"

/-- Reads the items of an array. -/
def items {α : Type} (reader : Reader α) : Items → Except LoadError (List α)
  | .done => .ok []
  | .cut f => failText f
  | .cons item rest => do
    let a ← reader item
    let as ← items reader rest
    return a :: as

/-- Reads an array. -/
def list {α : Type} (reader : Reader α) : Reader (List α)
  | .array xs => items reader xs
  | v => v.mismatch "a sequence"

/-- Takes the members of an object with any keys into an accumulator, in order. -/
def members {α σ : Type} (reader : Reader α) (insert : σ → String → α → σ) :
    σ → Members → Except LoadError σ
  | s, .done => .ok s
  | _, .cut f => failText f
  | s, .cons key value rest => do
    let k ← key.read
    let a ← reader value
    members reader insert (insert s k a) rest

/-- Reads an object with any keys. -/
def map {α σ : Type} (reader : Reader α) (empty : σ) (insert : σ → String → α → σ) : Reader σ
  | .object ms => members reader insert empty ms
  | v => v.mismatch "a map"

/-- Looks a name up among choices. -/
def choose {α : Type} (name : α → String) (choices : List α) (given : String) :
    Except LoadError α :=
  match choices.find? (name · == given) with
  | some a => .ok a
  | none => failData (.unknownChoice given (choices.map name))

/-- Reads one of several choices. -/
def choice {α : Type} (name : α → String) (choices : List α) : Reader α
  | .string q => q.read >>= choose name choices
  | .object (.cons key value rest) => do
    let a ← choose name choices (← key.read)
    match value with
    | .null => pure ()
    | v => v.mismatch "unit"
    match rest with
    | .done => return a
    | .cut f => failText f
    | .cons .. => failText .malformed
  | .object (.cut f) => failText f
  | .missing => failText .early
  | _ => failText .malformed

end Reader

/-- A field of a record that is being read into `σ`. -/
structure Field (σ : Type) where
  key : String
  /-- Whether the record cannot be read without the field. -/
  required : Bool
  /-- Reads the value of the field and stores it. -/
  store : Value → σ → Except LoadError σ

namespace Field

/-- A field that must be given. -/
def mandatory {α σ : Type} (key : String) (reader : Reader α) (set : α → σ → σ) : Field σ :=
  ⟨key, true, fun v s => (set · s) <$> reader v⟩

/-- A field that may be left out. -/
def optional {α σ : Type} (key : String) (reader : Reader α) (set : α → σ → σ) : Field σ :=
  ⟨key, false, fun v s => (set · s) <$> reader v⟩

end Field

namespace Reader

/-- Stores the members of an object. Returns the keys that were given, the last one first. -/
def fillByKey {σ : Type} (fields : List (Field σ)) :
    List String → σ → Members → Except LoadError (List String × σ)
  | seen, s, .done => .ok (seen, s)
  | _, _, .cut f => failText f
  | seen, s, .cons key value rest => do
    let k ← key.read
    match fields.find? (·.key == k) with
    | none =>
      match value.fault with
      | some f => failText f
      | none => fillByKey fields seen s rest
    | some field =>
      if seen.contains k then failData (.duplicateField k)
      else fillByKey fields (k :: seen) (← field.store value s) rest

/-- Stores the items of an array as the fields of a record called `name` with `total` fields, of
which `fields` are still to come. -/
def fillInOrder {σ : Type} (name : String) (total : Nat) :
    List (Field σ) → σ → Items → Except LoadError σ
  | [], s, .done => .ok s
  | [], _, .cons .. => failText .malformed
  | _, _, .cut f => failText f
  | field :: fields, s, .done =>
    if field.required then
      failData (.wrongLength (total - (fields.length + 1)) name total)
    else fillInOrder name total fields s .done
  | field :: fields, s, .cons item rest => do
    fillInOrder name total fields (← field.store item s) rest

/-- Reads a record called `name`, starting from `blank`, which holds the values of the fields that
are left out. -/
def record {σ : Type} (name : String) (fields : List (Field σ)) (blank : σ) : Reader σ
  | .object ms => do
    let (seen, s) ← fillByKey fields [] blank ms
    match fields.find? fun f => f.required && !seen.contains f.key with
    | some f => failData (.missingField f.key)
    | none => return s
  | .array xs => fillInOrder name fields.length fields blank xs
  | v => v.mismatch ("struct " ++ name)

/-- Reads a whole text. -/
def run {α : Type} (reader : Reader α) (text : String) : Except LoadError α := do
  let (value, trailing) := scan text
  let a ← reader value
  if trailing then failText .malformed
  return a

end Reader

end TagHelpers.Json
