import TagHelpers.Attribute.Classification
import TagHelpers.Tag.Binding
import TagHelpers.Text.Basic

/-!
# Markup trees

A document is a tree of text, code, directives and elements. Every literal keeps its text and its
span, so that the tree holds the whole source. An element and an attribute carry what they are bound
to once that is known; until then they are plain markup.
-/

namespace TagHelpers

/-- A piece of source text. -/
structure Literal where
  text : String
  span : Span
  deriving DecidableEq, Repr, Inhabited

/-- What a directive does. -/
inductive DirectiveKind where
  | addTagHelper
  | removeTagHelper
  | tagHelperPrefix
  | usingNamespace
  | other
  deriving DecidableEq, Repr

namespace DirectiveKind

/-- The directive of a keyword. -/
def ofKeyword (keyword : String) : DirectiveKind :=
  if keyword = "addTagHelper" then addTagHelper
  else if keyword = "removeTagHelper" then removeTagHelper
  else if keyword = "tagHelperPrefix" then tagHelperPrefix
  else if keyword = "using" then usingNamespace
  else other

/-- The name of a kind of directive. -/
def name : DirectiveKind → String
  | addTagHelper => "AddTagHelper"
  | removeTagHelper => "RemoveTagHelper"
  | tagHelperPrefix => "TagHelperPrefix"
  | usingNamespace => "Using"
  | other => "Other"

/-- Whether only legacy documents take the directive. -/
def isClassic : DirectiveKind → Bool
  | addTagHelper | removeTagHelper | tagHelperPrefix => true
  | usingNamespace | other => false

end DirectiveKind

/-- A directive: a transition to code, a keyword and the rest of the line. -/
structure Directive where
  transition : Literal
  keyword : Literal
  value : Literal
  span : Span
  deriving DecidableEq, Repr

namespace Directive

/-- What the directive does. -/
def kind (d : Directive) : DirectiveKind :=
  .ofKeyword d.keyword.text

/-- The value without white space around it. -/
def valueText (d : Directive) : String :=
  Text.trim d.value.text

end Directive

/-- The literals of a start tag around its attributes. -/
structure StartTag where
  opening : Literal
  name : Literal
  closing : Literal
  span : Span
  deriving DecidableEq, Repr

/-- Whether a start tag closes its element. -/
def StartTag.isSelfClosing (t : StartTag) : Bool :=
  Casing.ordinal.endsWith t.closing.text "/>"

/-- An end tag. -/
structure EndTag where
  opening : Literal
  name : Literal
  closing : Literal
  span : Span
  deriving DecidableEq, Repr

/-- The literals around a piece of code: the transition to code and the brackets. -/
structure Delimiters where
  transition : Literal
  opening : Literal
  closing : Literal
  deriving DecidableEq, Repr

/-- What an element is bound to. -/
structure ElementBinding where
  mode : TagMode
  helpers : List TagHelper
  deriving DecidableEq

/-- How the value of an attribute is quoted. -/
inductive Quoting where
  | double
  | single
  | none
  /-- There is no value. -/
  | minimized
  deriving DecidableEq, Repr, Inhabited

namespace Quoting

/-- All ways of quoting. -/
def all : List Quoting := [double, single, none, minimized]

/-- The name of a way of quoting. -/
def name : Quoting → String
  | double => "DoubleQuotes"
  | single => "SingleQuotes"
  | none => "NoQuotes"
  | minimized => "Minimized"

end Quoting

/-- What an attribute of a bound element is bound to. -/
structure AttributeBinding where
  quoting : Quoting
  kind : BoundKind
  isDirective : Bool
  deriving DecidableEq, Repr

/-- The name of an attribute and what stands before it. -/
structure AttributeHead where
  lead : Option Literal
  name : Literal
  deriving DecidableEq, Repr

/-- The literals around the value of an attribute. -/
structure ValueFrame where
  equals : Literal
  opening : Option Literal
  closing : Option Literal
  deriving DecidableEq, Repr

mutual

/-- A node of a markup tree. -/
inductive Node where
  | text (literal : Literal)
  /-- The character that switches from markup to code. -/
  | transition (literal : Literal)
  | code (literal : Literal)
  | directive (directive : Directive)
  | block (children : List Node) (span : Span)
  /-- An expression that ends by itself. -/
  | implicit (transition : Option Literal) (body : List Node) (span : Span)
  /-- An expression in parentheses. -/
  | explicit (delimiters : Delimiters) (body : List Node) (span : Span)
  /-- Statements in braces. -/
  | statement (delimiters : Delimiters) (body : List Node) (span : Span)
  /-- An element, with what it is bound to. -/
  | element (tag : StartTag) (attributes : List Attribute) (children : List Node)
      (endTag : Option EndTag) (binding : Option ElementBinding) (span : Span)

/-- An entry of the attribute list of a start tag. -/
inductive Attribute where
  /-- A name with a value. -/
  | valued (head : AttributeHead) (frame : ValueFrame) (value : List Node)
      (binding : Option AttributeBinding) (span : Span)
  /-- A name alone. -/
  | minimized (head : AttributeHead) (binding : Option AttributeBinding) (span : Span)
  /-- Anything else between attributes. -/
  | misc (children : List Node) (span : Span)

end

/-- The span of a node. -/
def Node.span : Node → Span
  | text l | transition l | code l => l.span
  | directive d => d.span
  | block _ s | implicit _ _ s | explicit _ _ s | statement _ _ s | element _ _ _ _ _ s => s

/-- The name of what a node is. -/
def Node.kindName : Node → String
  | text _ => "text"
  | transition _ => "transition"
  | code _ => "code"
  | directive _ => "directive"
  | block .. => "block"
  | implicit .. => "implicit"
  | explicit .. => "explicit"
  | statement .. => "statement"
  | element _ _ _ _ none _ => "element"
  | element _ _ _ _ (some _) _ => "tagHelper"

/-- Whether nodes are all text. -/
def allText (nodes : List Node) : Bool :=
  nodes.all fun
    | .text _ => true
    | _ => false

namespace Attribute

/-- The span of an attribute. -/
def span : Attribute → Span
  | valued _ _ _ _ s | minimized _ _ s | misc _ s => s

/-- The literal of the name. -/
def nameLiteral? : Attribute → Option Literal
  | valued head _ _ _ _ | minimized head _ _ => some head.name
  | misc _ _ => none

/-- The nodes inside an attribute. -/
def value : Attribute → List Node
  | valued _ _ nodes _ _ | misc nodes _ => nodes
  | minimized _ _ _ => []

end Attribute

end TagHelpers
