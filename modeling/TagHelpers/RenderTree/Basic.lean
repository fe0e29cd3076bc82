import TagHelpers.Markup.Node

/-!
# Render trees

A render tree is what code is generated from. Its nodes are kept in one array and named by their
place in it; a node lists its children by their names. Taking a node off a list of children leaves
it in the array, where nothing reaches it any more: the tree is what is attached below the root,
node zero. Each node carries its own diagnostics.

Nothing here makes a node its own descendant. A walk down from a node therefore passes at most as
many nodes as there are, which is the fuel that walks are given.
-/

namespace TagHelpers

/-- The name of a node: its place in the array. -/
abbrev NodeId : Type := Nat

/-- What a token is written in. -/
inductive TokenKind where
  | html
  | code
  deriving DecidableEq, Repr

/-- A use of an attribute that a tag helper binds. -/
structure Property where
  attributeName : String
  quoting : Quoting
  helper : TagHelper
  resolution : Resolution
  resolves : helper.descriptor.resolve? attributeName = some resolution
  deriving DecidableEq

namespace Property

/-- The use of an attribute, provided that the tag helper binds it. -/
def of? (name : String) (quoting : Quoting) (helper : TagHelper) : Option Property :=
  match h : helper.descriptor.resolve? name with
  | some r => some ⟨name, quoting, helper, r, h⟩
  | none => none

/-- The name of the attribute without its parameter. -/
def baseName (p : Property) : String :=
  AttributeName.base p.attributeName

end Property

/-- An attribute of a component. -/
structure ComponentAttribute where
  attributeName : String
  quoting : Quoting
  boundAttribute : Option BoundAttribute := none
  propertyName : Option String := none
  typeName : Option String := none
  helper : Option TagHelper := none
  deriving DecidableEq

/-- An attribute of a markup element, with what is written before and after its value. -/
structure HtmlAttribute where
  attributeName : String
  opening : String
  closing : String
  deriving DecidableEq, Repr

/-- What a node of a render tree is. -/
inductive RenderKind where
  | document
  | element (tagName : String)
  | component (tagName : String) (component : TagHelper)
  | property (p : Property)
  | componentAttribute (a : ComponentAttribute)
  | htmlAttribute (a : HtmlAttribute)
  | htmlValue (lead : String)
  | codeValue (lead : String)
  | htmlContent
  | codeExpression
  | token (kind : TokenKind) (content : String)
  deriving DecidableEq

/-- The name of what a node is. -/
def RenderKind.name : RenderKind → String
  | document => "document"
  | element _ => "element"
  | component .. => "component"
  | property _ => "property"
  | componentAttribute _ => "componentAttribute"
  | htmlAttribute _ => "htmlAttribute"
  | htmlValue _ => "htmlValue"
  | codeValue _ => "csharpValue"
  | htmlContent => "html"
  | codeExpression => "csharp"
  | token .. => "token"

/-- A node of a render tree. -/
structure RenderNode where
  kind : RenderKind
  span : Option Span := none
  children : List NodeId := []
  diagnostics : List Diagnostic := []
  deriving DecidableEq

instance : Inhabited RenderNode := ⟨{ kind := .document }⟩

namespace RenderNode

/-- The use of an attribute that a node is. -/
def property? (n : RenderNode) : Option Property :=
  match n.kind with
  | .property p => some p
  | _ => none

/-- Whether a node is the use of a bind attribute. -/
def isBind (n : RenderNode) : Bool :=
  n.property?.any (·.helper.descriptor.isBind)

/-- The span of a node, or the stub. -/
def spanOrStub (n : RenderNode) : Span :=
  n.span.getD .stub

end RenderNode

/-- A tree of nodes in one array. -/
structure RenderTree where
  nodes : Array RenderNode
  deriving DecidableEq

namespace RenderTree

/-- The tree of a document node alone. -/
def empty : RenderTree := ⟨#[{ kind := .document }]⟩

instance : Inhabited RenderTree := ⟨empty⟩

/-- The name of the root. -/
def root : NodeId := 0

/-- The number of nodes, attached or not. -/
def size (t : RenderTree) : Nat := t.nodes.size

/-- The node of a name. -/
def node (t : RenderTree) (id : NodeId) : RenderNode := t.nodes.getD id default

/-- What a node is. -/
def kind (t : RenderTree) (id : NodeId) : RenderKind := (t.node id).kind

/-- The children of a node. -/
def children (t : RenderTree) (id : NodeId) : List NodeId := (t.node id).children

/-- Changes a node. -/
def update (t : RenderTree) (id : NodeId) (f : RenderNode → RenderNode) : RenderTree :=
  ⟨t.nodes.modify id f⟩

/-- Adds a node that is not attached. -/
def alloc (t : RenderTree) (n : RenderNode) : RenderTree × NodeId :=
  (⟨t.nodes.push n⟩, t.size)

/-- Adds a node as the last child of another. -/
def append (t : RenderTree) (parent : NodeId) (n : RenderNode) : RenderTree × NodeId :=
  let (t, id) := t.alloc n
  (t.update parent fun p => { p with children := p.children ++ [id] }, id)

/-- Adds a node of a kind as the last child of another. -/
def addChild (t : RenderTree) (parent : NodeId) (kind : RenderKind) : RenderTree × NodeId :=
  t.append parent { kind }

/-- Adds a token as the last child of a node. -/
def addToken (t : RenderTree) (parent : NodeId) (kind : TokenKind) (content : String) :
    RenderTree × NodeId :=
  t.addChild parent (.token kind content)

/-- Adds a diagnostic to a node. -/
def addDiagnostic (t : RenderTree) (id : NodeId) (d : Diagnostic) : RenderTree :=
  t.update id fun n => { n with diagnostics := n.diagnostics ++ [d] }

/-- The nodes at and below a node, each before its children, down to a depth. -/
def below (t : RenderTree) : Nat → NodeId → List NodeId
  | 0, _ => []
  | depth + 1, id => id :: (t.children id).flatMap (t.below depth)

/-- The nodes at and below a node, each before its children. -/
def subtree (t : RenderTree) (id : NodeId) : List NodeId :=
  t.below t.size id

/-- The attached nodes, each before its children. -/
def preorder (t : RenderTree) : List NodeId :=
  t.subtree root

/-- The diagnostics of the attached nodes. -/
def allDiagnostics (t : RenderTree) : List Diagnostic :=
  t.preorder.flatMap fun id => (t.node id).diagnostics

/-- The content of the tokens below a node. -/
def content (t : RenderTree) (id : NodeId) : String :=
  String.join ((t.subtree id).map fun i =>
    match t.kind i with
    | .token _ s => s
    | _ => "")

/-- Takes the diagnostics off a node and all nodes below it. -/
def takeDiagnostics (t : RenderTree) (id : NodeId) : RenderTree × List Diagnostic :=
  let ids := unique (· == ·) (t.subtree id)
  (ids.foldl (fun t i => t.update i fun n => { n with diagnostics := [] }) t,
    ids.flatMap fun i => (t.node i).diagnostics)

/-- Takes a node off the children of another, at the first place where it stands. Returns that
place, if there is one. -/
def removeChild (t : RenderTree) (parent id : NodeId) : RenderTree × Option Nat :=
  match (t.children parent).idxOf? id with
  | none => (t, none)
  | some place =>
    (t.update parent fun p => { p with children := p.children.eraseIdx place }, some place)

/-- Takes a node off the children of another, and moves the diagnostics at and below it there. -/
def detachChild (t : RenderTree) (parent id : NodeId) : RenderTree × Option Nat :=
  match t.removeChild parent id with
  | (t, none) => (t, none)
  | (t, some place) =>
    let (t, taken) := t.takeDiagnostics id
    (t.update parent fun p => { p with diagnostics := p.diagnostics ++ taken }, some place)

/-- Puts nodes in the place of a child, at the first place where it stands. Says whether there is
one. -/
def replaceChild (t : RenderTree) (parent id : NodeId) (ids : List NodeId) : RenderTree × Bool :=
  match (t.children parent).idxOf? id with
  | none => (t, false)
  | some place =>
    (t.update parent fun p =>
      { p with children := p.children.take place ++ ids ++ p.children.drop (place + 1) }, true)

end RenderTree

end TagHelpers
