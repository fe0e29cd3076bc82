import TagHelpers.Markup.CodeValue
import TagHelpers.RenderTree.Basic

/-!
# The render tree of a document

Elements become elements or, where a component is bound, components. An attribute that is not bound
becomes an attribute of the markup; one that is bound becomes one property for each tag helper of
the element that binds it. Text and expressions become content.
-/

namespace TagHelpers

namespace RenderTree

/-- Adds a node of a kind with one token. -/
def addContent (t : RenderTree) (parent : NodeId) (kind : RenderKind) (tokenKind : TokenKind)
    (content : String) : RenderTree :=
  let (t, id) := t.addChild parent kind
  (t.addToken id tokenKind content).1

/-- Adds an attribute of the markup. -/
def addHtmlAttribute (t : RenderTree) (parent : NodeId) (name : String) (value : List Node) :
    RenderTree :=
  t.addContent parent (.htmlAttribute ⟨name, " " ++ name ++ "=\"", "\""⟩) .html (sourceOf value)

/-- Adds the value of a property: text as it is, anything else as code. -/
def addValue (t : RenderTree) (parent : NodeId) (value : List Node) : RenderTree :=
  if value.isEmpty then t
  else if allText value then t.addContent parent .htmlContent .html (sourceOf value)
  else t.addContent parent .codeExpression .code (codeText value)

/-- Adds a property for a tag helper, if it binds the attribute. -/
def addProperty (t : RenderTree) (parent : NodeId) (name : String) (quoting : Quoting)
    (value : List Node) (span : Span) (helper : TagHelper) : RenderTree :=
  match Property.of? name quoting helper with
  | none => t
  | some p =>
    let (t, id) := t.append parent { kind := .property p, span := some span }
    t.addValue id value

/-- Adds an attribute of an element that is not bound. -/
def addPlainAttribute (parent : NodeId) (t : RenderTree) (a : Attribute) : RenderTree :=
  match a.nameLiteral? with
  | some name => t.addHtmlAttribute parent name.text a.value
  | none => t

/-- Adds an attribute of a bound element. Entries that were not bound are left out. -/
def addBoundAttribute (parent : NodeId) (helpers : List TagHelper) (t : RenderTree)
    (a : Attribute) : RenderTree :=
  let add (name : String) (binding : AttributeBinding) (value : List Node) (span : Span) :=
    if binding.kind.isBound then
      helpers.foldl (fun t h => t.addProperty parent name binding.quoting value span h) t
    else t.addHtmlAttribute parent name value
  match a with
  | .valued head _ value (some binding) span => add head.name.text binding value span
  | .minimized head (some binding) span => add head.name.text binding [] span
  | _ => t

/-- What a bound element becomes. -/
def boundKind (tagName : String) (helpers : List TagHelper) : RenderKind :=
  match helpers.find? (·.descriptor.isComponent) with
  | some c => .component tagName c
  | none => .element tagName

mutual

/-- Adds a markup tree below a node. -/
def addMarkup (parent : NodeId) : Node → RenderTree → RenderTree
  | .text l, t => if Text.blank l.text then t else t.addContent parent .htmlContent .html l.text
  | .block children _, t => addAllMarkup parent children t
  | .element tag attributes children _ none _, t =>
    let (t, id) := t.addChild parent (.element tag.name.text)
    addAllMarkup id children (attributes.foldl (addPlainAttribute id) t)
  | .element tag attributes children _ (some binding) _, t =>
    let (t, id) := t.addChild parent (boundKind tag.name.text binding.helpers)
    addAllMarkup id children (attributes.foldl (addBoundAttribute id binding.helpers) t)
  | .implicit transition body span, t =>
    t.addContent parent .codeExpression .code (Node.implicit transition body span).source
  | .explicit d body span, t =>
    t.addContent parent .codeExpression .code (Node.explicit d body span).source
  | .transition _, t | .code _, t | .statement .., t | .directive _, t => t

/-- Adds markup trees below a node. -/
def addAllMarkup (parent : NodeId) : List Node → RenderTree → RenderTree
  | [], t => t
  | node :: nodes, t => addAllMarkup parent nodes (addMarkup parent node t)

end

/-- The render tree of a document. -/
def ofMarkup (node : Node) : RenderTree :=
  addMarkup root node empty

end RenderTree

end TagHelpers
