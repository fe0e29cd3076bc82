import TagHelpers.Span

/-!
# Diagnostics

What is wrong with a document is said in three steps. A `Problem` is the cause with what it is
about, its `code` is the kind of problem under a stable number, and a `Diagnostic` is the code, the
place and the wording together. Diagnostics never stop the work on a document.
-/

namespace TagHelpers

/-- The family that a kind of problem belongs to. -/
inductive Category where
  /-- Which tag helpers a document uses. -/
  | selection
  /-- The shape of tags, attribute lists and elements. -/
  | structural
  /-- Bind attributes. -/
  | binding
  /-- What an attribute or an expression holds. -/
  | content
  deriving DecidableEq, Repr

/-- The name of a category. -/
def Category.name : Category → String
  | selection => "Selection"
  | structural => "Structural"
  | binding => "Binding"
  | content => "Content"

/-- The kinds of problems. -/
inductive Code where
  | invalidLookupText
  | unresolvedAssembly
  | unsupportedDirective
  | malformedAttributeList
  | codeInTag
  | missingIndexerKey
  | endTagNotAllowed
  | malformedTagHelper
  | nestedTagNotAllowed
  | contentNotAllowed
  | duplicateBind
  | parameterWithoutBind
  | unsupportedBindFormat
  | invalidBindName
  | emptyBoundAttribute
  | emptyBindExpression
  deriving DecidableEq, Repr, Inhabited

namespace Code

/-- All kinds, in the order of their numbers. -/
def all : List Code :=
  [invalidLookupText, unresolvedAssembly, unsupportedDirective, malformedAttributeList, codeInTag,
    missingIndexerKey, endTagNotAllowed, malformedTagHelper, nestedTagNotAllowed,
    contentNotAllowed, duplicateBind, parameterWithoutBind, unsupportedBindFormat,
    invalidBindName, emptyBoundAttribute, emptyBindExpression]

/-- The stable number. Its thousands are the category. -/
def number : Code → Nat
  | invalidLookupText => 1000
  | unresolvedAssembly => 1001
  | unsupportedDirective => 1002
  | malformedAttributeList => 2000
  | codeInTag => 2001
  | missingIndexerKey => 2002
  | endTagNotAllowed => 2003
  | malformedTagHelper => 2004
  | nestedTagNotAllowed => 2005
  | contentNotAllowed => 2006
  | duplicateBind => 3000
  | parameterWithoutBind => 3001
  | unsupportedBindFormat => 3002
  | invalidBindName => 3003
  | emptyBoundAttribute => 4000
  | emptyBindExpression => 4001

/-- The identifier shown to users. -/
def id (c : Code) : String :=
  "QR" ++ toString c.number

/-- The family, read off the number. -/
def category (c : Code) : Category :=
  match c.number / 1000 with
  | 1 => .selection
  | 2 => .structural
  | 3 => .binding
  | _ => .content

/-- The name under which a code is stored. -/
def name : Code → String
  | invalidLookupText => "InvalidTagHelperLookupText"
  | unresolvedAssembly => "UnresolvedTagHelperAssembly"
  | unsupportedDirective => "UnsupportedTagHelperDirective"
  | malformedAttributeList => "MalformedAttributeList"
  | codeInTag => "CodeInTagDeclaration"
  | missingIndexerKey => "IndexerAttributeMissingKey"
  | endTagNotAllowed => "TagHelperMustNotHaveEndTag"
  | malformedTagHelper => "MalformedTagHelper"
  | nestedTagNotAllowed => "InvalidNestedTag"
  | contentNotAllowed => "CannotHaveNonTagContent"
  | duplicateBind => "DuplicateBindAttribute"
  | parameterWithoutBind => "BindParameterMissingBind"
  | unsupportedBindFormat => "BindAttributeUnsupportedFormat"
  | invalidBindName => "BindAttributeInvalidSyntax"
  | emptyBoundAttribute => "EmptyBoundAttribute"
  | emptyBindExpression => "EmptyBindExpression"

end Code

/-- A diagnostic: the kind of problem, its place and its wording. -/
structure Diagnostic where
  code : Code
  span : Span
  message : String
  deriving DecidableEq, Repr, Inhabited

/-- The identifier followed by the wording. -/
def Diagnostic.display (d : Diagnostic) : String :=
  d.code.id ++ ": " ++ d.message

/-- A cause of a diagnostic, with what it is about. -/
inductive Problem where
  /-- The text of a directive does not name a type pattern and an assembly. -/
  | invalidLookupText (text : String)
  /-- A directive names an assembly that declares no tag helper. -/
  | unresolvedAssembly (assembly : String)
  /-- A component document does not take this directive. -/
  | unsupportedDirective (keyword : String)
  /-- Markup stands among the attributes of a bound tag. -/
  | malformedAttributeList
  /-- Code stands among the attributes of a bound tag. -/
  | codeInTag (tag : String)
  /-- An indexed attribute ends where its key should start. -/
  | missingIndexerKey (attr tag : String)
  /-- A bound element that takes no end tag has one. -/
  | endTagNotAllowed (tag : String)
  /-- A bound element that needs an end tag has none. -/
  | malformedTagHelper (tag : String)
  /-- An element stands inside a bound element that does not allow it. -/
  | nestedTagNotAllowed (child parent allowed : String)
  /-- Text stands inside a bound element that allows some elements only. -/
  | contentNotAllowed (parent allowed : String)
  /-- Several bind tag helpers bind one attribute. -/
  | duplicateBind (attr helpers : String)
  /-- A parameter stands without the bind attribute it belongs to. -/
  | parameterWithoutBind (attr base : String)
  /-- The name of a bind attribute has a third segment. -/
  | unsupportedBindFormat (attr : String)
  /-- The name of a bind attribute does not say what is bound. -/
  | invalidBindName (attr : String)
  /-- A bound attribute that needs a value has none. -/
  | emptyBoundAttribute (attr tag type : String)
  /-- A bind attribute binds to nothing. -/
  | emptyBindExpression (attr : String)
  deriving DecidableEq, Repr

namespace Problem

/-- The kind of a problem. -/
def code : Problem → Code
  | invalidLookupText _ => .invalidLookupText
  | unresolvedAssembly _ => .unresolvedAssembly
  | unsupportedDirective _ => .unsupportedDirective
  | malformedAttributeList => .malformedAttributeList
  | codeInTag _ => .codeInTag
  | missingIndexerKey _ _ => .missingIndexerKey
  | endTagNotAllowed _ => .endTagNotAllowed
  | malformedTagHelper _ => .malformedTagHelper
  | nestedTagNotAllowed _ _ _ => .nestedTagNotAllowed
  | contentNotAllowed _ _ => .contentNotAllowed
  | duplicateBind _ _ => .duplicateBind
  | parameterWithoutBind _ _ => .parameterWithoutBind
  | unsupportedBindFormat _ => .unsupportedBindFormat
  | invalidBindName _ => .invalidBindName
  | emptyBoundAttribute _ _ _ => .emptyBoundAttribute
  | emptyBindExpression _ => .emptyBindExpression

/-- The wording of a problem. -/
def message : Problem → String
  | invalidLookupText text =>
    s!"Invalid tag helper directive look up text '{text}'. The correct look up text format is: \"name, assemblyName\"."
  | unresolvedAssembly assembly =>
    s!"No tag helpers are registered for assembly '{assembly}'."
  | unsupportedDirective keyword =>
    s!"The '@{keyword}' directive is not valid in a component document. Use '@using <namespace>' instead."
  | malformedAttributeList => "Tag helper attributes must be well-formed."
  | codeInTag tag =>
    s!"The tag helper '{tag}' must not have code in the element's attribute declaration area."
  | missingIndexerKey attr tag =>
    s!"The tag helper attribute '{attr}' in element '{tag}' is missing a key. The syntax is '<{tag} {attr}\x7b key \x7d=\"value\">'."
  | endTagNotAllowed tag =>
    s!"Found an end tag (</{tag}>) for tag helper '{tag}' which must not have an end tag."
  | malformedTagHelper tag =>
    s!"Found a malformed '{tag}' tag helper. Tag helpers must have a start and end tag or be self closing."
  | nestedTagNotAllowed child parent allowed =>
    s!"The <{child}> tag is not allowed by parent <{parent}> tag helper. Only child tags with name(s) '{allowed}' are allowed."
  | contentNotAllowed parent allowed =>
    s!"The parent <{parent}> tag helper does not allow non-tag content. Only child tag helper(s) targeting tag name(s) '{allowed}' are allowed."
  | duplicateBind attr helpers =>
    s!"The attribute '{attr}' was matched by multiple bind attributes. Duplicates: {helpers}"
  | parameterWithoutBind attr base =>
    s!"The attribute '{attr}' can only be used with a corresponding bind attribute '{base}'."
  | unsupportedBindFormat attr =>
    s!"The attribute '{attr}' uses an unsupported format. Use 'bind-value' with a 'bind-value:format' attribute to specify the format."
  | invalidBindName attr =>
    s!"The attribute names could not be inferred from bind attribute '{attr}'. Bind attributes should be of the form 'bind' or 'bind-value' along with their corresponding optional parameters like 'bind-value:event' and 'bind-value:format'."
  | emptyBoundAttribute attr tag type =>
    s!"Attribute '{attr}' on tag helper element '{tag}' requires a value. Tag helper bound attributes of type '{type}' cannot be empty or contain only whitespace."
  | emptyBindExpression attr =>
    s!"The bind attribute '{attr}' requires a non-empty expression."

/-- The diagnostic of a problem at a place. -/
def report (p : Problem) (span : Span) : Diagnostic :=
  ⟨p.code, span, p.message⟩

end Problem

end TagHelpers
