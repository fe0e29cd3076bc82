import TagHelpers.Descriptor.Basic
import TagHelpers.Markup.Source
import TagHelpers.Text.Basic

/-!
# Selections

A selection is the tag helpers that apply to a document. It is made by visiting the directives of
the imports and then those of the document.

The directives of legacy documents name tag helpers by a lookup text: a pattern for the type and an
assembly, with a comma between them, possibly in quotes. The pattern is a name, the start of a name
followed by a star, or a star alone.
-/

namespace TagHelpers

/-- The tag helpers that apply to a document. -/
structure Selection where
  helpers : List TagHelper := []
  /-- What the names of bound tags start with. -/
  tagPrefix : Option String := none
  diagnostics : List Diagnostic := []
  deriving DecidableEq

/-- A directive with whether it stands in an import. -/
structure PlacedDirective where
  directive : Directive
  inImport : Bool
  deriving DecidableEq

/-- The directives of imports and of a document, in the order in which they are visited. -/
def placedDirectives (imports : List Node) (tree : Node) : List PlacedDirective :=
  (imports.flatMap Node.directives).map (⟨·, true⟩) ++ tree.directives.map (⟨·, false⟩)

/-- Which tag helpers a directive names. -/
structure Lookup where
  pattern : String
  assembly : String
  deriving DecidableEq, Repr

namespace Lookup

/-- Reads a lookup text. -/
def parse? (text : String) : Option Lookup :=
  match Text.splitAll ',' (Text.trimQuotes (Text.trim text)) with
  | [pattern, assembly] =>
    let pattern := Text.trim pattern
    let assembly := Text.trim assembly
    if pattern = "" ∨ assembly = "" then none else some ⟨pattern, assembly⟩
  | _ => none

/-- Whether a name fits a pattern. -/
def fits (pattern name : String) : Bool :=
  let cs := pattern.toList
  if cs.getLast? = some '*' then cs.dropLast.isPrefixOf name.toList else name == pattern

/-- Whether a tag helper is named. -/
def accepts (l : Lookup) (d : Descriptor) : Bool :=
  d.assemblyName == l.assembly && fits l.pattern d.name

end Lookup

end TagHelpers
