import TagHelpers.Options
import TagHelpers.RenderTree.Basic
import TagHelpers.Selection.Classic
import TagHelpers.Selection.Component

/-!
# Documents

A document is what the passes of the pipeline work on: its markup and imports, and what the passes
have found out so far.
-/

namespace TagHelpers

/-- A document on its way through the pipeline. -/
structure Document where
  catalog : Catalog
  path : String
  kind : DocumentKind
  /-- The namespace that the document belongs to. -/
  space : Option String := none
  imports : List Node := []
  markup : Node
  selection : Option Selection := none
  tree : Option RenderTree := none
  /-- The diagnostics that belong to no node of the render tree. -/
  diagnostics : List Diagnostic := []

namespace Document

/-- The tag helpers that apply to a document. -/
def select (d : Document) : Selection :=
  let directives := placedDirectives d.imports d.markup
  if d.kind.isComponent then Selection.component d.catalog (d.space.getD "") directives
  else Selection.classic d.catalog (directives.map (·.directive))

/-- The diagnostics of a document and then those of its render tree. -/
def allDiagnostics (d : Document) : List Diagnostic :=
  d.diagnostics ++ (d.tree.map RenderTree.allDiagnostics).getD []

end Document

end TagHelpers
