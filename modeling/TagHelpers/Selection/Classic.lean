import TagHelpers.Catalog
import TagHelpers.Selection.Basic

/-!
# Selection by directives

In a legacy document nothing applies until a directive adds it, and directives take effect in
order: one that adds puts the tag helpers it names, in the order of the catalog, after those that
are there; one that removes takes the tag helpers it names out.
-/

namespace TagHelpers.Selection

/-- The tag helpers that legacy documents can add. -/
def classicCandidates (c : Catalog) : List TagHelper :=
  c.helpers.filter fun h => !h.descriptor.kind.forComponents

/-- The tag helpers that a directive names, or what is wrong with it. -/
def lookup (candidates : List TagHelper) (d : Directive) : Except Problem Lookup :=
  match Lookup.parse? d.valueText with
  | none => .error (.invalidLookupText d.valueText)
  | some l =>
    if candidates.any (·.descriptor.assemblyName == l.assembly) then .ok l
    else .error (.unresolvedAssembly l.assembly)

/-- Adds the tag helpers that are named and not there. -/
def add (candidates : List TagHelper) (l : Lookup) (helpers : List TagHelper) : List TagHelper :=
  helpers ++ candidates.filter fun h => l.accepts h.descriptor && !helpers.contains h

/-- Takes out the tag helpers that are named. -/
def remove (l : Lookup) (helpers : List TagHelper) : List TagHelper :=
  helpers.filter fun h => !l.accepts h.descriptor

/-- Changes the tag helpers as a directive says, or reports what is wrong with it. -/
def update (s : Selection) (candidates : List TagHelper) (d : Directive)
    (change : Lookup → List TagHelper → List TagHelper) : Selection :=
  match lookup candidates d with
  | .ok l => { s with helpers := change l s.helpers }
  | .error p => { s with diagnostics := s.diagnostics ++ [p.report d.value.span] }

/-- The prefix that a directive sets, unless it is empty. -/
def prefixOf? (d : Directive) : Option String :=
  let p := Text.trim (Text.trimQuotes d.valueText)
  if p = "" then none else some p

/-- Visits a directive of a legacy document or one of its imports. -/
def visitClassic (candidates : List TagHelper) (s : Selection) (d : Directive) : Selection :=
  match d.kind with
  | .addTagHelper => s.update candidates d (add candidates)
  | .removeTagHelper => s.update candidates d remove
  | .tagHelperPrefix => { s with tagPrefix := prefixOf? d <|> s.tagPrefix }
  | .usingNamespace | .other => s

/-- The tag helpers of a legacy document. -/
def classic (c : Catalog) (directives : List Directive) : Selection :=
  directives.foldl (visitClassic (classicCandidates c)) {}

end TagHelpers.Selection
