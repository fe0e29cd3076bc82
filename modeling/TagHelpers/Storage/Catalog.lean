import TagHelpers.Catalog
import TagHelpers.Json.Print
import TagHelpers.Storage.Options

/-!
# Stored catalogs

A catalog is stored as a JSON array of descriptors. The fields of an object may come in any order,
and those that may be left out have the value of a bare descriptor. `Catalog.ofText` reads the
stored form and `Catalog.toText` writes it, with every field present and on a line of its own.
-/

namespace TagHelpers

open Json (Reader Field Value)

/-- Reads flags. -/
def Flags.read : Reader Flags :=
  Reader.parsed "a string value of `|` separated flags" Flags.parse

/-- The stored form of flags. -/
def Flags.toJson (f : Flags) : Value :=
  .ofText f.print

/-- Reads metadata. Of two texts under one key the last counts. -/
def Metadata.read : Reader Metadata :=
  Reader.map Reader.text .empty Metadata.insert

/-- The stored form of metadata. -/
def Metadata.toJson (m : Metadata) : Value :=
  .record (m.entries.map fun (key, value) => (key, .ofText value))

/-- Reads a required attribute. -/
def RequiredAttribute.read : Reader RequiredAttribute :=
  Reader.record "RequiredAttributeDescriptor"
    [.mandatory "name" Reader.text fun s a => { a with name := s },
      .optional "nameComparison" (Reader.choice NameComparison.name NameComparison.all) fun c a =>
        { a with nameComparison := c },
      .optional "value" Reader.text? fun s a => { a with value := s },
      .optional "valueComparison" (Reader.choice ValueComparison.name ValueComparison.all)
        fun c a => { a with valueComparison := c }]
    { name := "" }

/-- The stored form of a required attribute. -/
def RequiredAttribute.toJson (a : RequiredAttribute) : Value :=
  .record [("name", .ofText a.name), ("nameComparison", .ofText a.nameComparison.name),
    ("value", .ofText? a.value), ("valueComparison", .ofText a.valueComparison.name)]

/-- Reads a matching rule. -/
def MatchingRule.read : Reader MatchingRule :=
  Reader.record "TagMatchingRule"
    [.mandatory "tagName" Reader.text fun s r => { r with tagName := s },
      .optional "parentTag" Reader.text? fun s r => { r with parentTag := s },
      .optional "attributes" (Reader.list RequiredAttribute.read) fun as r =>
        { r with attributes := as },
      .optional "tagStructure" (Reader.choice TagStructure.name TagStructure.all) fun t r =>
        { r with tagStructure := t }]
    { tagName := "" }

/-- The stored form of a matching rule. -/
def MatchingRule.toJson (r : MatchingRule) : Value :=
  .record [("tagName", .ofText r.tagName), ("parentTag", .ofText? r.parentTag),
    ("attributes", .ofList RequiredAttribute.toJson r.attributes),
    ("tagStructure", .ofText r.tagStructure.name)]

/-- Reads a parameter. -/
def Parameter.read : Reader Parameter :=
  Reader.record "BoundAttributeParameterDescriptor"
    [.mandatory "name" Reader.text fun s p => { p with name := s },
      .mandatory "typeName" Reader.text fun s p => { p with typeName := s },
      .optional "flags" Flags.read fun f p => { p with flags := f },
      .optional "documentation" Reader.text? fun s p => { p with documentation := s },
      .optional "metadata" Metadata.read fun m p => { p with metadata := m }]
    { name := "", typeName := "" }

/-- The stored form of a parameter. -/
def Parameter.toJson (p : Parameter) : Value :=
  .record [("name", .ofText p.name), ("typeName", .ofText p.typeName), ("flags", p.flags.toJson),
    ("documentation", .ofText? p.documentation), ("metadata", p.metadata.toJson)]

/-- Reads a bound attribute. -/
def BoundAttribute.read : Reader BoundAttribute :=
  Reader.record "BoundAttributeDescriptor"
    [.mandatory "name" Reader.text fun s a => { a with name := s },
      .mandatory "typeName" Reader.text fun s a => { a with typeName := s },
      .optional "propertyName" Reader.text? fun s a => { a with propertyName := s },
      .optional "indexerNamePrefix" Reader.text? fun s a => { a with indexerPrefix := s },
      .optional "indexerTypeName" Reader.text? fun s a => { a with indexerTypeName := s },
      .optional "documentation" Reader.text? fun s a => { a with documentation := s },
      .optional "flags" Flags.read fun f a => { a with flags := f },
      .optional "parameters" (Reader.list Parameter.read) fun ps a => { a with parameters := ps },
      .optional "metadata" Metadata.read fun m a => { a with metadata := m }]
    { name := "", typeName := "" }

/-- The stored form of a bound attribute. -/
def BoundAttribute.toJson (a : BoundAttribute) : Value :=
  .record [("name", .ofText a.name), ("typeName", .ofText a.typeName),
    ("propertyName", .ofText? a.propertyName), ("indexerNamePrefix", .ofText? a.indexerPrefix),
    ("indexerTypeName", .ofText? a.indexerTypeName),
    ("documentation", .ofText? a.documentation), ("flags", a.flags.toJson),
    ("parameters", .ofList Parameter.toJson a.parameters), ("metadata", a.metadata.toJson)]

/-- Reads a descriptor. -/
def Descriptor.read : Reader Descriptor :=
  Reader.record "TagHelperDescriptor"
    [.mandatory "kind" (Reader.choice HelperKind.name HelperKind.all) fun k d =>
        { d with kind := k },
      .mandatory "name" Reader.text fun s d => { d with name := s },
      .mandatory "assemblyName" Reader.text fun s d => { d with assemblyName := s },
      .optional "caseSensitive" Reader.bool fun b d => { d with caseSensitive := b },
      .optional "tagMatchingRules" (Reader.list MatchingRule.read) fun rs d =>
        { d with rules := rs },
      .optional "boundAttributes" (Reader.list BoundAttribute.read) fun as d =>
        { d with boundAttributes := as },
      .optional "allowedChildTags" (Reader.list Reader.text) fun ts d =>
        { d with allowedChildTags := ts },
      .optional "documentation" Reader.text? fun s d => { d with documentation := s },
      .optional "metadata" Metadata.read fun m d => { d with metadata := m },
      .optional "diagnostics" (Reader.list Diagnostic.read) fun ds d =>
        { d with diagnostics := ds }]
    { kind := .classic, name := "", assemblyName := "" }

/-- The stored form of a descriptor. -/
def Descriptor.toJson (d : Descriptor) : Value :=
  .record [("kind", .ofText d.kind.name), ("name", .ofText d.name),
    ("assemblyName", .ofText d.assemblyName), ("caseSensitive", .bool d.caseSensitive),
    ("tagMatchingRules", .ofList MatchingRule.toJson d.rules),
    ("boundAttributes", .ofList BoundAttribute.toJson d.boundAttributes),
    ("allowedChildTags", .ofList Value.ofText d.allowedChildTags),
    ("documentation", .ofText? d.documentation), ("metadata", d.metadata.toJson),
    ("diagnostics", .ofList Diagnostic.toJson d.diagnostics)]

namespace Catalog

/-- Reads a catalog. -/
def read : Reader Catalog := fun v =>
  Catalog.mk <$> Reader.list Descriptor.read v

/-- The stored form of a catalog. -/
def toJson (c : Catalog) : Value :=
  .ofList Descriptor.toJson c.descriptors

/-- Reads a catalog from its text. -/
def ofText (text : String) : Except Json.LoadError Catalog :=
  Reader.run read text

/-- The text of a catalog. -/
def toText (c : Catalog) : String :=
  c.toJson.toLines

end Catalog

end TagHelpers
