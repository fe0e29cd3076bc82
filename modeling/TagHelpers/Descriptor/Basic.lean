import TagHelpers.Descriptor.Flags
import TagHelpers.Descriptor.Metadata
import TagHelpers.Diagnostic
import TagHelpers.Text.Casing
import TagHelpers.Text.TypeName

/-!
# Tag helper descriptors

A descriptor says which tags a tag helper applies to (its matching rules) and which attributes of
those tags it binds (its bound attributes). What else is known of it stands in its metadata and is
read by the predicates below.
-/

namespace TagHelpers

/-- The family of a tag helper. -/
inductive HelperKind where
  /-- A tag helper of legacy documents. -/
  | classic
  | component
  | childContent
  | bind
  | eventHandler
  | key
  | ref
  | splat
  deriving DecidableEq, Repr, Inhabited

namespace HelperKind

/-- All kinds. -/
def all : List HelperKind :=
  [classic, component, childContent, bind, eventHandler, key, ref, splat]

/-- The name under which a kind is stored. -/
def name : HelperKind → String
  | classic => "ITagHelper"
  | component => "Components.Component"
  | childContent => "Components.ChildContent"
  | bind => "Components.Bind"
  | eventHandler => "Components.EventHandler"
  | key => "Components.Key"
  | ref => "Components.Ref"
  | splat => "Components.Splat"

/-- Whether tag helpers of the kind apply to component documents and not to legacy ones. -/
def forComponents (k : HelperKind) : Bool :=
  k != classic

end HelperKind

/-- The structure that a matched tag is expected to have. -/
inductive TagStructure where
  | unspecified
  | normalOrSelfClosing
  | withoutEndTag
  deriving DecidableEq, Repr, Inhabited

namespace TagStructure

/-- All structures. -/
def all : List TagStructure := [unspecified, normalOrSelfClosing, withoutEndTag]

/-- The name under which a structure is stored. -/
def name : TagStructure → String
  | unspecified => "Unspecified"
  | normalOrSelfClosing => "NormalOrSelfClosing"
  | withoutEndTag => "WithoutEndTag"

end TagStructure

/-- How the name of a required attribute is compared. -/
inductive NameComparison where
  | full
  | leading
  deriving DecidableEq, Repr, Inhabited

namespace NameComparison

/-- All comparisons. -/
def all : List NameComparison := [full, leading]

/-- The name under which a comparison is stored. -/
def name : NameComparison → String
  | full => "FullMatch"
  | leading => "PrefixMatch"

end NameComparison

/-- How the value of a required attribute is compared. -/
inductive ValueComparison where
  | any
  | full
  | leading
  | trailing
  deriving DecidableEq, Repr, Inhabited

namespace ValueComparison

/-- All comparisons. -/
def all : List ValueComparison := [any, full, leading, trailing]

/-- The name under which a comparison is stored. -/
def name : ValueComparison → String
  | any => "None"
  | full => "FullMatch"
  | leading => "PrefixMatch"
  | trailing => "SuffixMatch"

end ValueComparison

/-- An attribute that a tag must have for a rule to match. -/
structure RequiredAttribute where
  name : String
  nameComparison : NameComparison := .full
  value : Option String := none
  valueComparison : ValueComparison := .any
  deriving DecidableEq, Repr, Inhabited

/-- One way in which a descriptor matches a start tag. -/
structure MatchingRule where
  /-- The name of the tag, or a star for any tag. -/
  tagName : String
  parentTag : Option String := none
  attributes : List RequiredAttribute := []
  tagStructure : TagStructure := .unspecified
  deriving DecidableEq, Repr, Inhabited

/-- Whether a rule matches tags of any name. -/
def MatchingRule.isCatchAll (r : MatchingRule) : Bool :=
  r.tagName == "*"

/-- A parameter of a bound attribute, written after a colon. -/
structure Parameter where
  name : String
  typeName : String
  flags : Flags := .empty
  documentation : Option String := none
  metadata : Metadata := .empty
  deriving DecidableEq, Inhabited

/-- A property of a tag helper that is set by an attribute of the tag. -/
structure BoundAttribute where
  name : String
  typeName : String
  propertyName : Option String := none
  /-- What the names of attributes that carry a key start with. -/
  indexerPrefix : Option String := none
  indexerTypeName : Option String := none
  documentation : Option String := none
  flags : Flags := .empty
  parameters : List Parameter := []
  metadata : Metadata := .empty
  deriving DecidableEq, Inhabited

/-- Which tags a tag helper applies to and which attributes it binds. -/
structure Descriptor where
  kind : HelperKind
  name : String
  assemblyName : String
  /-- Whether names of tags and attributes are compared ordinally. -/
  caseSensitive : Bool := false
  rules : List MatchingRule := []
  boundAttributes : List BoundAttribute := []
  allowedChildTags : List String := []
  documentation : Option String := none
  metadata : Metadata := .empty
  diagnostics : List Diagnostic := []
  deriving DecidableEq, Inhabited

/-- Whether the text under a key is `true`, in any case. -/
def Metadata.holds (m : Metadata) (key : String) : Bool :=
  match m.get? key with
  | some value => Casing.folded.same value "true"
  | none => false

namespace Parameter

def isString (p : Parameter) : Bool := p.flags.contains .isString

def isBoolean (p : Parameter) : Bool := p.flags.contains .isBoolean

end Parameter

namespace BoundAttribute

def hasIndexer (a : BoundAttribute) : Bool := a.indexerPrefix.isSome

def isString (a : BoundAttribute) : Bool := a.flags.contains .isString

def isBoolean (a : BoundAttribute) : Bool := a.flags.contains .isBoolean

def isIndexerString (a : BoundAttribute) : Bool := a.flags.contains .isIndexerString

def isIndexerBoolean (a : BoundAttribute) : Bool := a.flags.contains .isIndexerBoolean

def isEnum (a : BoundAttribute) : Bool := a.flags.contains .isEnum

/-- Whether the property is a plain delegate. -/
def isDelegate (a : BoundAttribute) : Bool := a.metadata.holds "Components.DelegateSignature"

/-- Whether the property is an event callback. -/
def isEventCallback (a : BoundAttribute) : Bool := a.metadata.holds "Components.EventCallback"

/-- Whether the attribute is a directive attribute. -/
def isDirective (a : BoundAttribute) : Bool := a.metadata.holds "Common.DirectiveAttribute"

end BoundAttribute

namespace Descriptor

/-- How names are compared with those of the descriptor. -/
def casing (d : Descriptor) : Casing :=
  .ofSensitive d.caseSensitive

/-- The qualified name of the type behind the descriptor, which is the descriptor's own name
unless the metadata says otherwise. -/
def typeName (d : Descriptor) : String :=
  (d.metadata.get? "Common.TypeName").getD d.name

/-- The namespace of the type behind the descriptor. Child content is a member of its component and
belongs to the namespace of the component. -/
def typeNamespace (d : Descriptor) : String :=
  let space := (TypeName.split d.typeName).1
  if d.kind = .childContent then (TypeName.split space).1 else space

/-- Whether tags name the type with its namespace. -/
def isFullyQualified (d : Descriptor) : Bool :=
  d.metadata.get? "Components.NameMatch" == some "Components.FullyQualifiedNameMatch"

def isComponent (d : Descriptor) : Bool := d.kind == .component

def isBind (d : Descriptor) : Bool := d.kind == .bind

/-- Whether a bind tag helper gives way to more specific ones. -/
def isFallbackBind (d : Descriptor) : Bool :=
  d.isBind && d.metadata.holds "Components.Bind.Fallback"

/-- The only rule of a bind tag helper for `input` elements. -/
def inputRule? (d : Descriptor) : Option MatchingRule :=
  match d.rules with
  | [rule] => if d.isBind && Casing.folded.same rule.tagName "input" then some rule else none
  | _ => none

/-- Whether a bind tag helper is one for `input` elements. -/
def isInputBind (d : Descriptor) : Bool :=
  d.inputRule?.isSome

/-- Whether a bind tag helper for `input` elements asks for no `type` attribute. -/
def isInputFallbackBind (d : Descriptor) : Bool :=
  match d.inputRule? with
  | some rule => !rule.attributes.any fun a => Casing.folded.same a.name "type"
  | none => false

/-- The attribute that receives the bound value. -/
def bindValue? (d : Descriptor) : Option String := d.metadata.get? "Components.Bind.ValueAttribute"

/-- The attribute that receives the change handler. -/
def bindChange? (d : Descriptor) : Option String :=
  d.metadata.get? "Components.Bind.ChangeAttribute"

/-- The attribute that receives the bound expression. -/
def bindExpression? (d : Descriptor) : Option String :=
  d.metadata.get? "Components.Bind.ExpressionAttribute"

/-- The bound attribute declared with a name. -/
def boundAttribute? (d : Descriptor) (name : String) : Option BoundAttribute :=
  d.boundAttributes.find? fun a => d.casing.same a.name name

end Descriptor

end TagHelpers
