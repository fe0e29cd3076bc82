import TagHelpers.Attribute.Resolution
import TagHelpers.Catalog

/-!
# Classifying attributes

On a bound tag an attribute is classified by how the tag helpers of the tag resolve its name. The
classification is a list of these resolutions, and each of its traits holds when it holds of one
of them.
-/

namespace TagHelpers

/-- What an attribute of a bound tag is bound to. -/
inductive BoundKind where
  | unbound
  | string
  | nonString
  | boolean
  /-- The name ends where its key should start. -/
  | missingKey
  deriving DecidableEq, Repr, Inhabited

namespace BoundKind

/-- All kinds. -/
def all : List BoundKind := [unbound, string, nonString, boolean, missingKey]

/-- The name of a kind. -/
def name : BoundKind → String
  | unbound => "Unbound"
  | string => "BoundString"
  | nonString => "BoundNonString"
  | boolean => "BoundBoolean"
  | missingKey => "MissingIndexerKey"

/-- Whether some tag helper binds the attribute. -/
def isBound (k : BoundKind) : Bool :=
  k != unbound

end BoundKind

/-- Whether a resolution of a name is by a key that is empty. -/
def Resolution.lacksKey (r : Resolution) (name : String) : Bool :=
  r.isIndexer && !r.isParameter &&
    name.utf8ByteSize == (r.boundAttribute.indexerPrefix.getD "").utf8ByteSize

/-- The resolutions of a name, one for each tag helper that resolves it. -/
structure Classification where
  name : String
  resolutions : List (TagHelper × Resolution)
  deriving DecidableEq

namespace Classification

/-- Classifies a name by the tag helpers of its tag. -/
def ofName (name : String) (helpers : List TagHelper) : Classification :=
  ⟨name, helpers.filterMap fun h => (h.descriptor.resolve? name).map (h, ·)⟩

/-- Whether some tag helper resolves the name. -/
def isBound (c : Classification) : Bool :=
  !c.resolutions.isEmpty

/-- Whether some tag helper takes a value other than text. -/
def nonString (c : Classification) : Bool :=
  c.resolutions.any fun (_, r) => !r.expectsString

/-- Whether some tag helper takes a truth value. -/
def boolean (c : Classification) : Bool :=
  c.resolutions.any fun (_, r) => r.expectsBoolean

/-- Whether some tag helper takes a key that is not there. -/
def missingKey (c : Classification) : Bool :=
  c.resolutions.any fun (_, r) => r.lacksKey c.name

/-- Whether the attribute is a directive attribute for some tag helper. -/
def directive (c : Classification) : Bool :=
  c.resolutions.any fun (_, r) => r.boundAttribute.isDirective

/-- What the attribute is bound to. -/
def kind (c : Classification) : BoundKind :=
  if !c.isBound then .unbound
  else if c.missingKey then .missingKey
  else if c.boolean then .boolean
  else if c.nonString then .nonString
  else .string

/-- The type that the first tag helper takes. -/
def typeName? (c : Classification) : Option String :=
  c.resolutions.head?.map fun (_, r) => r.typeName

end Classification

end TagHelpers
