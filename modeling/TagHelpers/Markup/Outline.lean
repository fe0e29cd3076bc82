import TagHelpers.Markup.Source
import TagHelpers.Text.Quoted

/-!
# Outlines of markup trees

An outline has one line for each node and attribute, indented by two spaces for each level.
-/

namespace TagHelpers

/-- A line of an outline at a depth. -/
def outlineLine (depth : Nat) (text : String) : String :=
  String.ofList (List.replicate (2 * depth) ' ') ++ text

/-- The lines of an outline as one text. -/
def outlineText (lines : List String) : String :=
  String.ofList (Text.stripEnd (· == '\n') (String.intercalate "\n" lines).toList)

/-- The line of an element. -/
def elementTitle (tag : StartTag) : Option ElementBinding → String
  | none => "Element <" ++ tag.name.text ++ ">"
  | some b =>
    "TagHelperElement <" ++ tag.name.text ++ "> " ++ b.mode.name ++ " [" ++
      String.intercalate ", " (b.helpers.map (·.descriptor.name)) ++ "]"

/-- The line of an expression that ends by itself. -/
def implicitTitle : Option Literal → String
  | some _ => "ImplicitExpression"
  | none => "ImplicitExpression (no transition)"

/-- The line of an attribute with a value. -/
def valuedTitle (head : AttributeHead) : Option AttributeBinding → String
  | none => "MarkupAttribute " ++ head.name.text
  | some b => "TagHelperAttribute " ++ head.name.text ++ " " ++ b.quoting.name ++ " " ++ b.kind.name

/-- The line of an attribute without a value. -/
def minimizedTitle (head : AttributeHead) : Option AttributeBinding → String
  | none => "MinimizedAttribute " ++ head.name.text
  | some b => "MinimizedTagHelperAttribute " ++ head.name.text ++ " " ++ b.kind.name

mutual

/-- The lines of a node. -/
def Node.outline (depth : Nat) : Node → List String
  | .text l => [outlineLine depth ("MarkupText " ++ Text.quoted l.text)]
  | .transition l => [outlineLine depth ("Transition " ++ Text.quoted l.text)]
  | .code l => [outlineLine depth ("CodeLiteral " ++ Text.quoted l.text)]
  | .directive d =>
    [outlineLine depth ("Directive " ++ d.keyword.text ++ " " ++ Text.quoted d.valueText)]
  | .block children _ => outlineLine depth "Block" :: outlineAll (depth + 1) children
  | .implicit transition body _ =>
    outlineLine depth (implicitTitle transition) :: outlineAll (depth + 1) body
  | .explicit _ body _ => outlineLine depth "ExplicitExpression" :: outlineAll (depth + 1) body
  | .statement _ body _ => outlineLine depth "Statement" :: outlineAll (depth + 1) body
  | .element tag attributes children _ binding _ =>
    outlineLine depth (elementTitle tag binding) ::
      (outlineAttributes (depth + 1) attributes ++ outlineAll (depth + 1) children)

/-- The lines of a list of nodes. -/
def outlineAll (depth : Nat) : List Node → List String
  | [] => []
  | node :: nodes => node.outline depth ++ outlineAll depth nodes

/-- The lines of an attribute. -/
def Attribute.outline (depth : Nat) : Attribute → List String
  | .valued head _ value binding _ =>
    outlineLine depth (valuedTitle head binding) :: outlineAll (depth + 1) value
  | .minimized head binding _ => [outlineLine depth (minimizedTitle head binding)]
  | .misc children _ => outlineLine depth "MiscAttributeContent" :: outlineAll (depth + 1) children

/-- The lines of a list of attributes. -/
def outlineAttributes (depth : Nat) : List Attribute → List String
  | [] => []
  | a :: as => a.outline depth ++ outlineAttributes depth as

end

/-- The outline of a tree. -/
def Node.render (node : Node) : String :=
  outlineText (node.outline 0)

end TagHelpers
