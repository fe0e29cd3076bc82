import TagHelpers.Markup.CodeValue
import TagHelpers.Options

/-!
# Attributes of bound elements

Each attribute of a bound element is classified by the tag helpers of the element, and a value that
is not text is turned into code. This goes from left to right up to the first entry that does not
belong into an attribute list; that entry is reported and everything from it on stays as written.
-/

namespace TagHelpers

/-- Whether a node is code. -/
def Node.isCode : Node → Bool
  | .transition _ | .code _ | .implicit .. | .explicit .. | .statement .. | .directive _ => true
  | .text _ | .block .. | .element .. => false

mutual

/-- Whether a node is markup that does not belong into an attribute list. -/
def Node.isStray : Node → Bool
  | .text l => !Text.blank l.text
  | .block children _ => anyStray children
  | .element .. => true
  | .transition _ | .code _ | .implicit .. | .explicit .. | .statement .. | .directive _ => false

/-- Whether one of several nodes is. -/
def anyStray : List Node → Bool
  | [] => false
  | node :: nodes => node.isStray || anyStray nodes

end

/-- How a value is quoted. Without quotes, a value that is not plain text counts as quoted. -/
def ValueFrame.quoting (frame : ValueFrame) (value : List Node) : Quoting :=
  match frame.opening with
  | some l => if l.text = "'" then .single else .double
  | none => if allText value then .none else .double

namespace Attribute

/-- What is wrong with an entry that does not belong into the attribute list of a tag. -/
def rejection? (tag : String) : Attribute → Option Problem
  | misc children _ =>
    if children.any Node.isCode then some (.codeInTag tag)
    else if anyStray children then some .malformedAttributeList
    else none
  | valued .. | minimized .. => none

/-- Whether a value is turned into code. -/
def takesCode (c : Classification) : Bool :=
  c.kind != .missingKey && c.isBound && c.nonString

/-- An attribute with what the tag helpers of its tag bind it to. -/
def bind (helpers : List TagHelper) : Attribute → Attribute
  | valued head frame value none span =>
    let c := Classification.ofName head.name.text helpers
    valued head frame (if takesCode c then codeValue value else value)
      (some ⟨frame.quoting value, c.kind, c.directive⟩) span
  | minimized head none span =>
    let c := Classification.ofName head.name.text helpers
    minimized head (some ⟨.minimized, c.kind, c.directive⟩) span
  | bound => bound

/-- What is wrong with an attribute of a bound tag. -/
def problem? (tag : String) (helpers : List TagHelper) (options : Options) :
    Attribute → Option Diagnostic
  | valued head _ value none _ =>
    let c := Classification.ofName head.name.text helpers
    if c.kind = .missingKey then
      some ((Problem.missingIndexerKey head.name.text tag).report head.name.span)
    else if takesCode c && Text.blank (sourceOf value) then
      some ((Problem.emptyBoundAttribute head.name.text tag (c.typeName?.getD "")).report
        head.name.span)
    else none
  | minimized head none _ =>
    let c := Classification.ofName head.name.text helpers
    if c.kind = .missingKey then
      some ((Problem.missingIndexerKey head.name.text tag).report head.name.span)
    else if c.isBound && !(c.boolean && options.allowMinimizedBoolean) then
      some ((Problem.emptyBoundAttribute head.name.text tag (c.typeName?.getD "")).report
        head.name.span)
    else none
  | _ => none

/-- The attributes of a bound tag with what they are bound to. -/
def bindAll (tag : String) (helpers : List TagHelper) : List Attribute → List Attribute
  | [] => []
  | a :: as =>
    match a.rejection? tag with
    | some _ => a :: as
    | none => a.bind helpers :: bindAll tag helpers as

/-- What is wrong with the attributes of a bound tag. -/
def problems (tag : String) (helpers : List TagHelper) (options : Options) :
    List Attribute → List Diagnostic
  | [] => []
  | a :: as =>
    match a.rejection? tag with
    | some p => [p.report a.span]
    | none => (a.problem? tag helpers options).toList ++ problems tag helpers options as

end Attribute

end TagHelpers
