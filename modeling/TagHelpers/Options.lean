/-!
# Options and kinds of documents
-/

namespace TagHelpers

/-- How a document takes its tag helpers. -/
inductive DocumentKind where
  /-- By directives that add and remove them. -/
  | legacy
  /-- By the namespaces in scope. -/
  | component
  /-- As a component document that others import. -/
  | componentImport
  deriving DecidableEq, Repr, Inhabited

namespace DocumentKind

/-- All kinds. -/
def all : List DocumentKind := [legacy, component, componentImport]

/-- The name under which a kind is stored. -/
def name : DocumentKind → String
  | legacy => "legacy"
  | component => "component"
  | componentImport => "componentImport"

/-- Whether namespaces in scope decide, and not directives. -/
def isComponent : DocumentKind → Bool
  | legacy => false
  | component | componentImport => true

end DocumentKind

/-- What the binding of a document permits and checks. -/
structure Options where
  /-- A bound Boolean attribute may stand without a value. -/
  allowMinimizedBoolean : Bool := true
  /-- Children that a bound element does not allow are reported. -/
  validateChildren : Bool := true
  deriving DecidableEq, Repr, Inhabited

end TagHelpers
