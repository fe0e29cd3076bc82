import TagHelpers.Descriptor.Basic

/-!
# Matching rules

A rule is satisfied by a tag with the right name, the right parent and all required attributes.
Names are compared with the casing of the descriptor, values always ordinally.
-/

namespace TagHelpers

/-- The attributes of a tag as names with the source of their values. -/
abbrev AttributePairs : Type := List (String × String)

namespace RequiredAttribute

/-- Whether a name is one that is asked for. -/
def acceptsName (a : RequiredAttribute) (k : Casing) (name : String) : Bool :=
  match a.nameComparison with
  | .full => k.same name a.name
  | .leading => a.name.utf8ByteSize < name.utf8ByteSize && k.startsWith name a.name

/-- Whether a value is one that is asked for. -/
def acceptsValue (a : RequiredAttribute) (value : String) : Bool :=
  match a.value with
  | none => true
  | some expected =>
    match a.valueComparison with
    | .any => true
    | .full => value == expected
    | .leading => Casing.ordinal.startsWith value expected
    | .trailing => Casing.ordinal.endsWith value expected

/-- Whether an attribute is the required one. -/
def accepts (a : RequiredAttribute) (k : Casing) (name value : String) : Bool :=
  a.acceptsName k name && a.acceptsValue value

end RequiredAttribute

namespace MatchingRule

/-- Whether a tag has the name that is asked for. -/
def acceptsTag (r : MatchingRule) (k : Casing) (tag : String) : Bool :=
  r.isCatchAll || k.same tag r.tagName

/-- Whether a tag has the parent that is asked for. -/
def acceptsParent (r : MatchingRule) (k : Casing) (parent : Option String) : Bool :=
  match r.parentTag with
  | none => true
  | some required => parent.any fun p => k.same p required

/-- Whether a tag has all attributes that are asked for. -/
def acceptsAttributes (r : MatchingRule) (k : Casing) (attributes : AttributePairs) : Bool :=
  r.attributes.all fun a => attributes.any fun (name, value) => a.accepts k name value

/-- Whether a tag satisfies a rule. -/
def accepts (r : MatchingRule) (k : Casing) (tag : String) (parent : Option String)
    (attributes : AttributePairs) : Bool :=
  r.acceptsTag k tag && r.acceptsParent k parent && r.acceptsAttributes k attributes

end MatchingRule

/-- The rules of a descriptor that a tag satisfies. -/
def Descriptor.matchingRules (d : Descriptor) (tag : String) (parent : Option String)
    (attributes : AttributePairs) : List MatchingRule :=
  d.rules.filter fun r => r.accepts d.casing tag parent attributes

/-- The places of these rules among the rules of the descriptor. -/
def Descriptor.matchingPlaces (d : Descriptor) (tag : String) (parent : Option String)
    (attributes : AttributePairs) : List Nat :=
  (d.rules.zipIdx.filter fun (r, _) => r.accepts d.casing tag parent attributes).map Prod.snd

end TagHelpers
