import TagHelpers.Catalog
import TagHelpers.Selection.Basic

/-!
# Selection by namespaces

In a component document the tag helpers apply whose namespace is in scope, and those that are named
with their namespace. A directive that uses a namespace brings in the tag helpers of exactly that
namespace.
-/

namespace TagHelpers.Selection

/-- The namespace that a directive uses. Static and alias directives use none. -/
def usedNamespace? (d : Directive) : Option String :=
  let value := Text.trim (String.ofList (Text.stripEnd (· == ';') d.valueText.toList))
  if value = "" || Casing.ordinal.startsWith value "static " || value.toList.contains '=' then none
  else some value

/-- Whether a tag helper applies to every document of a namespace. -/
def inScope (current : String) (h : TagHelper) : Bool :=
  h.descriptor.isFullyQualified || TypeName.inScope h.descriptor.typeNamespace current

/-- The tag helpers that apply and those that do not yet. -/
structure Scope where
  selected : List TagHelper
  pending : List TagHelper
  diagnostics : List Diagnostic := []

namespace Scope

/-- The scope of a document before its directives are visited. -/
def ofCatalog (c : Catalog) (current : String) : Scope :=
  let (selected, pending) :=
    (c.helpers.filter (·.descriptor.kind.forComponents)).partition (Selection.inScope current)
  { selected, pending }

/-- Brings in the tag helpers of a namespace. -/
def use (s : Scope) (space : String) : Scope :=
  let (used, pending) := s.pending.partition (·.descriptor.typeNamespace == space)
  { s with selected := s.selected ++ used, pending }

/-- Visits a directive. Those of legacy documents are reported, unless they stand in an import. -/
def visit (s : Scope) (p : PlacedDirective) : Scope :=
  let d := p.directive
  match d.kind with
  | .usingNamespace =>
    match usedNamespace? d with
    | some space => s.use space
    | none => s
  | .addTagHelper | .removeTagHelper | .tagHelperPrefix =>
    if p.inImport then s
    else
      let diagnostic := (Problem.unsupportedDirective d.keyword.text).report d.span
      { s with diagnostics := s.diagnostics ++ [diagnostic] }
  | .other => s

end Scope

/-- The tag helpers of a component document. -/
def component (c : Catalog) (current : String) (directives : List PlacedDirective) : Selection :=
  let s := directives.foldl Scope.visit (Scope.ofCatalog c current)
  { helpers := s.selected, diagnostics := s.diagnostics }

end TagHelpers.Selection
