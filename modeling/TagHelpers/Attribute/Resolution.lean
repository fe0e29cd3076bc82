import TagHelpers.Descriptor.Basic
import TagHelpers.Text.Basic

/-!
# Resolving attribute names

The name of an attribute resolves to a bound attribute in one of three ways: it is the declared
name, it starts as the names with a key do, or it is such a name followed by a colon and the name
of a declared parameter. A descriptor resolves a name to the first of its bound attributes that
accepts it.
-/

namespace TagHelpers

namespace AttributeName

/-- A name before and after the colon that starts a parameter. -/
def split? (name : String) : Option (String × String) :=
  Text.splitFirst ':' name

/-- A name without its parameter. -/
def base (name : String) : String :=
  match split? name with
  | some (before, _) => before
  | none => name

end AttributeName

/-- How a name resolves to a bound attribute. -/
structure Resolution where
  boundAttribute : BoundAttribute
  parameter : Option Parameter := none
  /-- Whether the name, apart from its parameter, carries a key. -/
  isIndexer : Bool := false
  deriving DecidableEq

namespace Resolution

/-- Whether the name names a parameter. -/
def isParameter (r : Resolution) : Bool :=
  r.parameter.isSome

/-- Whether the value is a text. -/
def expectsString (r : Resolution) : Bool :=
  match r.parameter with
  | some p => p.isString
  | none => if r.isIndexer then r.boundAttribute.isIndexerString else r.boundAttribute.isString

/-- Whether the value is a truth value. -/
def expectsBoolean (r : Resolution) : Bool :=
  match r.parameter with
  | some p => p.isBoolean
  | none => if r.isIndexer then r.boundAttribute.isIndexerBoolean else r.boundAttribute.isBoolean

/-- The type of the value. -/
def typeName (r : Resolution) : String :=
  match r.parameter with
  | some p => p.typeName
  | none =>
    if r.isIndexer then r.boundAttribute.indexerTypeName.getD r.boundAttribute.typeName
    else r.boundAttribute.typeName

end Resolution

namespace BoundAttribute

/-- Whether a name is the declared one. -/
def isNamed (a : BoundAttribute) (k : Casing) (name : String) : Bool :=
  k.same name a.name

/-- Whether a name starts as the names with a key do and is not the declared name. The key may be
empty. Where parameters are declared a colon starts a parameter and is not part of a key. -/
def isIndexed (a : BoundAttribute) (k : Casing) (name : String) : Bool :=
  match a.indexerPrefix with
  | none => false
  | some start =>
    !(!a.parameters.isEmpty && name.toList.contains ':') && !a.isNamed k name &&
      k.startsWith name start

/-- The parameter that a name names. -/
def parameter? (a : BoundAttribute) (k : Casing) (name : String) : Option Parameter :=
  match AttributeName.split? name with
  | none => none
  | some (base, parameter) =>
    if a.isNamed k base || a.isIndexed k base then
      a.parameters.find? fun p => k.same p.name parameter
    else none

/-- Whether a name resolves to the attribute in any way. -/
def accepts (a : BoundAttribute) (k : Casing) (name : String) : Bool :=
  a.isNamed k name || a.isIndexed k name || (a.parameter? k name).isSome

/-- How a name resolves to the attribute. -/
def resolve? (a : BoundAttribute) (k : Casing) (name : String) : Option Resolution :=
  if a.isNamed k name then some { boundAttribute := a }
  else if a.isIndexed k name then some { boundAttribute := a, isIndexer := true }
  else
    (a.parameter? k name).map fun p =>
      ⟨a, some p, a.isIndexed k (AttributeName.base name)⟩

end BoundAttribute

/-- How a name resolves to the first bound attribute that accepts it. -/
def Descriptor.resolve? (d : Descriptor) (name : String) : Option Resolution :=
  d.boundAttributes.findSome? (·.resolve? d.casing name)

end TagHelpers
