import TagHelpers.Markup.Node

/-!
# Building markup trees

Trees are built from texts. A builder places each literal right after the one placed before it, in
the order in which literals are made, and gives every node a span that covers its parts. So the span
of an element whose children were built first starts with the children.
-/

namespace TagHelpers

/-- A step of building a tree: it moves the offset of the next literal. -/
abbrev Builder (α : Type) : Type := StateM UInt32 α

/-- The spans of nodes merged into a span, from left to right. -/
def Span.mergeNodes (s : Span) (nodes : List Node) : Span :=
  (nodes.map Node.span).foldl Span.merge s

namespace Builder

/-- Places a literal. -/
def literal (text : String) : Builder Literal := do
  let start ← get
  let stop := start + text.utf8ByteSize.toUInt32
  set stop
  return ⟨text, ⟨start, stop⟩⟩

/-- Places a literal that may be absent. -/
def literal? : Option String → Builder (Option Literal)
  | none => pure none
  | some text => some <$> literal text

/-- Markup text. -/
def text (s : String) : Builder Node :=
  .text <$> literal s

/-- Code. -/
def code (s : String) : Builder Node :=
  .code <$> literal s

/-- The transition to code. -/
def transition : Builder Node :=
  .transition <$> literal "@"

/-- An expression that ends by itself. -/
def implicit (s : String) : Builder Node := do
  let transition ← literal "@"
  let body := [← code s]
  return .implicit (some transition) body (transition.span.mergeNodes body)

/-- An expression in parentheses. -/
def explicit (s : String) : Builder Node := do
  let transition ← literal "@"
  let opening ← literal "("
  let body := [← code s]
  let closing ← literal ")"
  return .explicit ⟨transition, opening, closing⟩ body (transition.span.merge closing.span)

/-- Statements in braces. -/
def statement (s : String) : Builder Node := do
  let transition ← literal "@"
  let opening ← literal "\x7b"
  let body := [← code s]
  let closing ← literal "\x7d"
  return .statement ⟨transition, opening, closing⟩ body (transition.span.merge closing.span)

/-- Statements in braces around nodes that were built before. -/
def codeBlock (body : List Node) : Builder Node := do
  let transition ← literal "@"
  let opening ← literal "\x7b"
  let closing ← literal "\x7d"
  return .statement ⟨transition, opening, closing⟩ body (transition.span.merge closing.span)

/-- A directive, with a space between its keyword and its value. -/
def directive (keyword value : String) : Builder Node := do
  let transition ← literal "@"
  let keyword ← literal keyword
  let value ← literal (" " ++ value)
  return .directive ⟨transition, keyword, value, transition.span.merge value.span⟩

/-- Nodes side by side. -/
def block (children : List Node) : Builder Node :=
  pure (.block children (.cover (children.map Node.span)))

/-- An attribute with a value that was built before, quoted or not. -/
def valued (name : String) (quote : Option String) (value : List Node) : Builder Attribute := do
  let lead ← literal " "
  let name ← literal name
  let equals ← literal "="
  let opening ← literal? quote
  let closing ← literal? quote
  let span := (lead.span.merge equals.span).mergeNodes value
  let span :=
    match closing with
    | some l => span.merge l.span
    | none => span
  return .valued ⟨some lead, name⟩ ⟨equals, opening, closing⟩ value none span

/-- An attribute without a value. -/
def minimized (name : String) : Builder Attribute := do
  let lead ← literal " "
  let name ← literal name
  return .minimized ⟨some lead, name⟩ none (lead.span.merge name.span)

/-- Something else among attributes. -/
def misc (children : List Node) : Builder Attribute :=
  pure (.misc children (.cover (children.map Node.span)))

/-- A start tag around attributes that were built before. -/
def startTag (name : String) (attributes : List Attribute) (selfClosing : Bool) :
    Builder StartTag := do
  let opening ← literal "<"
  let name ← literal name
  let closing ← literal (if selfClosing then " />" else ">")
  let span := (attributes.map Attribute.span).foldl Span.merge (opening.span.merge closing.span)
  return ⟨opening, name, closing, span⟩

/-- An end tag. -/
def endTag (name : String) : Builder EndTag := do
  let opening ← literal "</"
  let name ← literal name
  let closing ← literal ">"
  return ⟨opening, name, closing, opening.span.merge closing.span⟩

/-- An element made of its parts. -/
def assemble (tag : StartTag) (attributes : List Attribute) (children : List Node)
    (endTag : Option EndTag) : Builder Node :=
  let span := tag.span.mergeNodes children
  let span :=
    match endTag with
    | some t => span.merge t.span
    | none => span
  pure (.element tag attributes children endTag none span)

/-- An element with a start tag and an end tag. -/
def element (name : String) (attributes : List Attribute) (children : List Node) :
    Builder Node := do
  let start ← startTag name attributes false
  let stop ← endTag name
  assemble start attributes children (some stop)

/-- An element that closes itself. -/
def selfClosing (name : String) (attributes : List Attribute) : Builder Node := do
  assemble (← startTag name attributes true) attributes [] none

/-- An element without an end tag. -/
def startOnly (name : String) (attributes : List Attribute) : Builder Node := do
  assemble (← startTag name attributes false) attributes [] none

end Builder

end TagHelpers
