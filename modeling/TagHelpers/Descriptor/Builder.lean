import TagHelpers.Descriptor.Basic

/-!
# Building descriptors

Descriptors are built step by step from their names. Flags are inferred from type names here, and
only here: a descriptor that is read from a text has the flags written there.
-/

namespace TagHelpers

namespace RequiredAttribute

/-- A required attribute whose name starts with the given one and is longer. -/
def startingWith (name : String) : RequiredAttribute :=
  { name, nameComparison := .leading }

/-- Asks for a value as well. -/
def withValue (a : RequiredAttribute) (value : String) (comparison : ValueComparison) :
    RequiredAttribute :=
  { a with value := some value, valueComparison := comparison }

end RequiredAttribute

namespace MatchingRule

/-- Asks for a parent. -/
def withParent (r : MatchingRule) (parent : String) : MatchingRule :=
  { r with parentTag := some parent }

/-- Asks for one more attribute. -/
def withAttribute (r : MatchingRule) (a : RequiredAttribute) : MatchingRule :=
  { r with attributes := r.attributes ++ [a] }

/-- Expects a structure. -/
def withStructure (r : MatchingRule) (s : TagStructure) : MatchingRule :=
  { r with tagStructure := s }

end MatchingRule

/-- A parameter with the flags of its type. -/
def Parameter.ofType (name type : String) : Parameter :=
  { name, typeName := type, flags := .ofTypeName type }

namespace BoundAttribute

/-- A bound attribute with the flags of its type, for the property of its name. -/
def ofType (name type : String) : BoundAttribute :=
  { name, typeName := type, propertyName := some name, flags := .ofTypeName type }

/-- Binds another property. -/
def withProperty (a : BoundAttribute) (property : String) : BoundAttribute :=
  { a with propertyName := some property }

/-- Binds attributes with a key as well: their names start with `start`, and `type` is the type of
their values. -/
def withIndexer (a : BoundAttribute) (start type : String) : BoundAttribute :=
  let ofValue := Flags.ofTypeName type
  let flags := if ofValue.contains .isString then a.flags.union .isIndexerString else a.flags
  let flags := if ofValue.contains .isBoolean then flags.union .isIndexerBoolean else flags
  { a with flags, indexerPrefix := some start, indexerTypeName := some type }

/-- Takes one more parameter. -/
def withParameter (a : BoundAttribute) (p : Parameter) : BoundAttribute :=
  { a with parameters := a.parameters ++ [p] }

/-- Has more flags. -/
def withFlags (a : BoundAttribute) (f : Flags) : BoundAttribute :=
  { a with flags := a.flags.union f }

/-- Has a text under a metadata key. -/
def withMetadata (a : BoundAttribute) (key value : String) : BoundAttribute :=
  { a with metadata := a.metadata.insert key value }

end BoundAttribute

namespace Descriptor

/-- A descriptor without rules and attributes. Only those of legacy documents ignore case. -/
def ofKind (kind : HelperKind) (name assemblyName : String) : Descriptor :=
  { kind, name, assemblyName, caseSensitive := kind.forComponents }

/-- Matches in one more way. -/
def withRule (d : Descriptor) (r : MatchingRule) : Descriptor :=
  { d with rules := d.rules ++ [r] }

/-- Binds one more attribute. -/
def withBoundAttribute (d : Descriptor) (a : BoundAttribute) : Descriptor :=
  { d with boundAttributes := d.boundAttributes ++ [a] }

/-- Allows one more child tag. -/
def withAllowedChild (d : Descriptor) (tag : String) : Descriptor :=
  { d with allowedChildTags := d.allowedChildTags ++ [tag] }

/-- Has a text under a metadata key. -/
def withMetadata (d : Descriptor) (key value : String) : Descriptor :=
  { d with metadata := d.metadata.insert key value }

/-- Has a type behind it. -/
def withTypeName (d : Descriptor) (type : String) : Descriptor :=
  d.withMetadata "Common.TypeName" type

end Descriptor

end TagHelpers
