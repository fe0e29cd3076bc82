import TagHelpers.Markup.BoundAttributes
import TagHelpers.Tag.Binder

/-!
# Bound trees

Every element of a document is bound by its own tag, its attributes and the element around it. A
visitor goes through the nodes of the document in their order. It keeps the elements that are open
on a stack and collects what is wrong. It does not look into elements that are bound already, nor
into the values of attributes.

A tag helper that is itself faulty is reported with the first element that it binds. The visitor
keeps the tag helpers that it reported.
-/

namespace TagHelpers

/-- The element around a node. -/
structure Enclosing where
  tagName : String
  isBound : Bool
  /-- The child tags that it allows, if it restricts them. -/
  allowed : Option (List String)

/-- The name of an attribute with the source of its value. -/
def Attribute.pair? : Attribute → Option (String × String)
  | .valued head _ value _ _ => some (head.name.text, sourceOf value)
  | .minimized head _ _ => some (head.name.text, "")
  | .misc _ _ => none

/-- What an element is bound to. -/
def StartTag.binding? (tag : StartTag) (attributes : List Attribute) (binder : Binder)
    (outer : Option Enclosing) : Option Binding :=
  binder.bind? tag.name.text (attributes.filterMap Attribute.pair?) (outer.map (·.tagName))
    (outer.any (·.isBound))

/-- The child tags that the element around a node allows, with its name, where that is checked. -/
def restriction? (options : Options) (outer : Option Enclosing) : Option (String × List String) :=
  if options.validateChildren then
    outer.bind fun e => e.allowed.map (e.tagName, ·)
  else none

/-- Text that the element around it does not allow. -/
def Literal.contentProblem? (l : Literal) (options : Options) (outer : Option Enclosing) :
    Option Diagnostic :=
  match restriction? options outer with
  | none => none
  | some (parent, allowed) =>
    if Text.blank l.text then none
    else some ((Problem.contentNotAllowed parent (String.intercalate ", " allowed)).report l.span)

/-- An element that the element around it does not allow. -/
def StartTag.nestingProblem? (tag : StartTag) (binder : Binder) (options : Options)
    (outer : Option Enclosing) : Option Diagnostic :=
  match restriction? options outer with
  | none => none
  | some (parent, allowed) =>
    let name := (binder.strip? tag.name.text).getD tag.name.text
    if allowed.any (Casing.folded.same · name) then none
    else
      some ((Problem.nestedTagNotAllowed tag.name.text parent
        (String.intercalate ", " allowed)).report tag.name.span)

/-- A bound element that is not closed as its tag helpers ask for. -/
def StartTag.closingProblem? (tag : StartTag) (endTag : Option EndTag) (b : Binding) :
    Option Diagnostic :=
  match b.mode tag.isSelfClosing, endTag with
  | .startOnly, some t => some ((Problem.endTagNotAllowed tag.name.text).report t.span)
  | .startAndEnd, none => some ((Problem.malformedTagHelper tag.name.text).report tag.span)
  | _, _ => none

/-- The diagnostics of a tag helper at a place. -/
def TagHelper.diagnosticsAt (h : TagHelper) (span : Span) : List Diagnostic :=
  h.descriptor.diagnostics.map fun d => { d with span }

/-- The state of the visitor. -/
structure Visitor where
  /-- The elements that are open, the innermost first. -/
  stack : List Enclosing := []
  /-- The tag helpers whose own diagnostics were given. -/
  reported : List TagHelper := []
  /-- What was found so far. -/
  diagnostics : List Diagnostic := []

namespace Visitor

/-- Opens an element. -/
def push (e : Enclosing) : StateM Visitor Unit :=
  modify fun s => { s with stack := e :: s.stack }

/-- Closes the innermost element. -/
def pop : StateM Visitor Unit :=
  modify fun s => { s with stack := s.stack.tail }

/-- The innermost element that is open. -/
def enclosing? : StateM Visitor (Option Enclosing) :=
  return (← get).stack.head?

/-- Adds diagnostics. -/
def add (ds : List Diagnostic) : StateM Visitor Unit :=
  modify fun s => { s with diagnostics := s.diagnostics ++ ds }

/-- Adds the diagnostics of a tag helper itself, unless they were added before. A tag helper
without any is not remembered. -/
def introduce (span : Span) (h : TagHelper) : StateM Visitor Unit :=
  modify fun s =>
    if h.descriptor.diagnostics.isEmpty || s.reported.contains h then s
    else
      { s with
        reported := h :: s.reported
        diagnostics := s.diagnostics ++ h.diagnosticsAt span }

/-- Binds the attributes of a bound tag, up to the first that does not belong there. -/
def bindAttributes (tag : String) (helpers : List TagHelper) (options : Options) :
    List Attribute → StateM Visitor (List Attribute)
  | [] => return []
  | a :: as =>
    match a.rejection? tag with
    | some p => do
      add [p.report a.span]
      return a :: as
    | none => do
      add (a.problem? tag helpers options).toList
      return a.bind helpers :: (← bindAttributes tag helpers options as)

/-- Binds an element, `visitChildren` being the visit of its children. -/
def bindElement (binder : Binder) (options : Options) (tag : StartTag)
    (attributes : List Attribute) (endTag : Option EndTag) (span : Span)
    (visitChildren : StateM Visitor (List Node)) : StateM Visitor Node := do
  let outer ← enclosing?
  add (tag.nestingProblem? binder options outer).toList
  match tag.binding? attributes binder outer with
  | none =>
    push ⟨tag.name.text, false, none⟩
    let children ← visitChildren
    pop
    return .element tag attributes children endTag none span
  | some b =>
    add (tag.closingProblem? endTag b).toList
    b.helpers.forM (introduce tag.name.span)
    let attributes ← bindAttributes tag.name.text b.helpers options attributes
    push ⟨tag.name.text, true, b.allowedChildren?⟩
    let children ← visitChildren
    pop
    return .element tag attributes children endTag (some ⟨b.mode tag.isSelfClosing, b.helpers⟩)
      span

end Visitor

mutual

/-- Visits a node. -/
def Node.visit (binder : Binder) (options : Options) : Node → StateM Visitor Node
  | .block children span => return .block (← visitAll binder options children) span
  | .implicit transition body span =>
    return .implicit transition (← visitAll binder options body) span
  | .explicit d body span => return .explicit d (← visitAll binder options body) span
  | .statement d body span => return .statement d (← visitAll binder options body) span
  | .text l => do
    Visitor.add (l.contentProblem? options (← Visitor.enclosing?)).toList
    return .text l
  | .element tag attributes children endTag none span =>
    Visitor.bindElement binder options tag attributes endTag span
      (visitAll binder options children)
  | node => return node

/-- Visits several nodes one after another. -/
def visitAll (binder : Binder) (options : Options) : List Node → StateM Visitor (List Node)
  | [] => return []
  | node :: nodes => return (← node.visit binder options) :: (← visitAll binder options nodes)

end

/-- Binds the elements of a tree: the tree with its bindings, and what is wrong with it. -/
def Node.bindElements (tree : Node) (binder : Binder) (options : Options) :
    Node × List Diagnostic :=
  let (bound, s) := (tree.visit binder options).run {}
  (bound, s.diagnostics)

end TagHelpers
