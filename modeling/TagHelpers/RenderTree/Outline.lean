import TagHelpers.Markup.Outline
import TagHelpers.RenderTree.Basic

/-!
# Outlines of render trees

An outline has one line for each attached node, with the identifiers of its diagnostics.
-/

namespace TagHelpers

/-- The name of a kind of token. -/
def TokenKind.name : TokenKind → String
  | html => "Html"
  | code => "CSharp"

/-- The line of a node without its diagnostics. -/
def RenderKind.title : RenderKind → String
  | document => "Document"
  | element tagName => "MarkupElement <" ++ tagName ++ ">"
  | component tagName c => "Component <" ++ tagName ++ "> " ++ c.descriptor.name
  | property p =>
    "TagHelperProperty " ++ p.attributeName ++ " (" ++ p.helper.descriptor.name ++ ")"
  | componentAttribute a =>
    "ComponentAttribute " ++ a.attributeName ++
      (match a.typeName with
        | some type => " : " ++ type
        | none => "")
  | htmlAttribute a =>
    "HtmlAttribute " ++ a.attributeName ++ " " ++ Text.quoted a.opening ++ " " ++
      Text.quoted a.closing
  | htmlValue _ => "HtmlAttributeValue"
  | codeValue _ => "CSharpExpressionAttributeValue"
  | htmlContent => "HtmlContent"
  | codeExpression => "CSharpExpression"
  | token kind content => kind.name ++ " " ++ Text.quoted content

/-- The line of a node. -/
def RenderNode.title (n : RenderNode) : String :=
  n.kind.title ++ String.join (n.diagnostics.map fun d => " !" ++ d.code.id)

namespace RenderTree

/-- The lines at and below a node, down to a depth, indented from a level on. -/
def outline (t : RenderTree) : Nat → Nat → NodeId → List String
  | 0, _, _ => []
  | depth + 1, level, id =>
    outlineLine level (t.node id).title ::
      (t.children id).flatMap (t.outline depth (level + 1))

/-- The outline of a tree. -/
def render (t : RenderTree) : String :=
  outlineText (t.outline t.size 0 root)

end RenderTree

end TagHelpers
