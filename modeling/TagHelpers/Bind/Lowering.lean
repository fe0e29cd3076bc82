import TagHelpers.Bind.Duplicates
import TagHelpers.Bind.Expression
import TagHelpers.RenderTree.References

/-!
# Lowering bind attributes

A bind attribute is called `bind`, or `bind-` followed by what is bound. A third segment is accepted
and ignored.

A bind attribute stands for several attributes: one that receives the value, one that receives the
change handler and, on a component that declares it, one that receives the bound expression. The
parameters `event` and `format` are folded into the attribute that they belong to. A bind attribute
that cannot be lowered stays and says why.
-/

namespace TagHelpers

/-- What the name of a bind attribute says. -/
structure BindName where
  /-- What is bound, if the name says it. -/
  value : Option String := none
  hasExtraSegment : Bool := false
  deriving DecidableEq, Repr

/-- Reads the name of a bind attribute. -/
def BindName.parse? (name : String) : Option BindName :=
  match Text.splitAll '-' name with
  | ["bind"] => some {}
  | ["bind", value] => if value = "" then none else some { value := some value }
  | ["bind", value, extra] =>
    if value = "" ∨ extra = "" then none
    else some { value := some value, hasExtraSegment := true }
  | _ => none

/-- A bind attribute with the parameters that belong to it. -/
structure BindEntry where
  parent : NodeId
  node : NodeId
  /-- The name of the attribute. -/
  name : String
  event : Option NodeId := none
  format : Option NodeId := none
  deriving DecidableEq, Repr

/-- An attribute that a bind attribute stands for, with the kind of its value and its code. -/
structure LoweredAttribute where
  kind : RenderKind
  valueKind : RenderKind
  code : String
  deriving DecidableEq

namespace LoweredAttribute

/-- An attribute of a component. -/
def ofComponent (component : TagHelper) (name : String) (quoting : Quoting)
    (declared : Option BoundAttribute) (code : String) : LoweredAttribute where
  kind := .componentAttribute
    { attributeName := name
      quoting
      boundAttribute := declared
      propertyName := declared.bind (·.propertyName)
      typeName := declared.map (·.typeName)
      helper := some component }
  valueKind := .codeExpression
  code

/-- An attribute of a markup element. -/
def ofElement (name code : String) : LoweredAttribute where
  kind := .htmlAttribute ⟨name, name ++ "=\"", "\""⟩
  valueKind := .codeValue ""
  code

end LoweredAttribute

/-- The code of a bind attribute and of its parameters. -/
structure BindSource where
  expression : String
  format : Option String
  /-- The event that a parameter names, unless it names none. -/
  event : Option String
  deriving DecidableEq, Repr

/-- The function that makes the change handler of a markup element, which the event handlers of the
catalog decide. -/
def Catalog.changeCall (c : Catalog) (changeName : String) : RuntimeCall :=
  let handlers := c.descriptors.filter (·.kind == .eventHandler)
  match handlers.findSome? (·.boundAttribute? changeName) with
  | some a => if a.isDelegate && !a.isEventCallback then .setValueHandler else .createBinder
  | none => .createBinder

namespace BindSource

/-- The attributes of a component that a bind attribute stands for. -/
def onComponent (s : BindSource) (p : Property) (component : TagHelper) (valueName : String) :
    List LoweredAttribute :=
  let binder := p.helper.descriptor
  let declared := component.descriptor.boundAttribute?
  let changeName := (s.event <|> binder.bindChange?).getD (valueName ++ "Changed")
  let expressionName := binder.bindExpression?.getD (valueName ++ "Expression")
  let call :=
    if (declared changeName).any (·.isEventCallback) then some RuntimeCall.createBinder else none
  let value := LoweredAttribute.ofComponent component valueName p.quoting (declared valueName)
    (valueExpression s.expression s.format)
  let change := LoweredAttribute.ofComponent component changeName p.quoting (declared changeName)
    (changeExpression call s.expression s.format)
  let expression := (declared expressionName).toList.map fun a =>
    LoweredAttribute.ofComponent component a.name p.quoting (some a) (expressionLambda s.expression)
  value :: change :: expression

/-- The attributes of a markup element that a bind attribute stands for, provided that a change
attribute is known. -/
def onElement (s : BindSource) (p : Property) (c : Catalog) (valueName : String) :
    Option (List LoweredAttribute) :=
  (s.event <|> p.helper.descriptor.bindChange?).map fun changeName =>
    [.ofElement valueName (valueExpression s.expression s.format),
      .ofElement changeName
        (changeExpression (some (c.changeCall changeName)) s.expression s.format)]

/-- The attributes that a bind attribute below a node of some kind stands for, if there are any. -/
def attributesOn (s : BindSource) (p : Property) (c : Catalog) (valueName : String) :
    RenderKind → Option (List LoweredAttribute)
  | .component _ component => some (s.onComponent p component valueName)
  | _ => s.onElement p c valueName

end BindSource

namespace RenderTree

/-- The code of a bind attribute and its parameters. -/
def bindSource (t : RenderTree) (e : BindEntry) : BindSource where
  expression := t.attributeCode e.node
  format := e.format.map t.attributeCode
  event := (e.event.map fun id => Text.trim (Text.trimQuotes (t.attributeCode id))).filter (· ≠ "")

/-- Adds the nodes of an attribute, not attached. -/
def allocAttribute (span : Span) (t : RenderTree) (a : LoweredAttribute) : RenderTree × NodeId :=
  let (t, id) := t.alloc { kind := a.kind, span := some span }
  let (t, value) := t.addChild id a.valueKind
  ((t.addToken value .code a.code).1, id)

/-- Hands the diagnostics at and below a node over to the first of several nodes. -/
def handOver (t : RenderTree) (id : NodeId) (ids : List NodeId) : RenderTree :=
  let (t, taken) := t.takeDiagnostics id
  match ids with
  | [] => t
  | first :: _ => t.update first fun n => { n with diagnostics := n.diagnostics ++ taken }

/-- A step on a tree that may fail with a diagnostic. What it did to the tree before it failed
stays. -/
abbrev Attempt (α : Type) :=
  ExceptT Diagnostic (StateM RenderTree) α

/-- Makes the nodes of the attributes that a bind attribute with a certain name stands for, not
attached. The diagnostics at and below the bind attribute go to the first of them. -/
def expand (c : Catalog) (e : BindEntry) (p : Property) (name : BindName) (span : Span) :
    Attempt (List NodeId) := do
  let t ← get
  let s := t.bindSource e
  if Text.blank s.expression then
    throw ((Problem.emptyBindExpression p.attributeName).report span)
  let some valueName := p.helper.descriptor.bindValue? <|> name.value
    | throw ((Problem.invalidBindName p.attributeName).report span)
  let some attributes := s.attributesOn p c valueName (t.kind e.parent)
    | throw ((Problem.invalidBindName p.attributeName).report span)
  let ids ← attributes.mapM fun a => modifyGet fun t => (t.allocAttribute span a).swap
  modify (·.handOver e.node ids)
  return ids

/-- Makes the nodes that are to take the place of a bind attribute, or says why it stays. A third
segment of its name is reported either way. -/
def replacements (c : Catalog) (e : BindEntry) : Attempt (List NodeId) := do
  let node := (← get).node e.node
  let span := node.spanOrStub
  let some p := node.property? | return [e.node]
  let some name := BindName.parse? p.attributeName
    | throw ((Problem.invalidBindName p.attributeName).report span)
  if name.hasExtraSegment then
    modify (·.addDiagnostic e.node ((Problem.unsupportedBindFormat p.attributeName).report span))
  expand c e p name span

/-- Lowers a bind attribute: puts others in its place, or lets it say why it stays. -/
def lowerEntry (c : Catalog) (t : RenderTree) (e : BindEntry) : RenderTree :=
  match (replacements c e).run.run t with
  | (.ok ids, t) => (t.replaceChild e.parent e.node ids).1
  | (.error d, t) => t.addDiagnostic e.node d

/-- The entries of bind attributes, one for each name below a parent. -/
def entries (t : RenderTree) (refs : List Reference) : List BindEntry :=
  refs.foldl (fun entries r =>
    match (t.node r.node).property? with
    | none => entries
    | some p =>
      if p.resolution.isParameter ||
          entries.any fun e => e.parent == r.parent && e.name == p.attributeName then entries
      else entries ++ [{ parent := r.parent, node := r.node, name := p.attributeName }]) []

/-- Notes a parameter in an entry. -/
def noteParameter (e : BindEntry) (parameter : String) (id : NodeId) : BindEntry :=
  if parameter = "event" then { e with event := some id }
  else if parameter = "format" then { e with format := some id }
  else e

/-- Folds a parameter into the entry that it belongs to, or reports on the parent that there is
none. The parameter is detached. -/
def foldParameter (state : RenderTree × List BindEntry) (r : Reference) :
    RenderTree × List BindEntry :=
  let (t, entries) := state
  match (t.node r.node).property? with
  | none => state
  | some p =>
    match p.resolution.parameter with
    | none => state
    | some parameter =>
      let belongs (e : BindEntry) : Bool := e.parent == r.parent && e.name == p.baseName
      let t :=
        if entries.any belongs then t
        else
          t.addDiagnostic r.parent
            ((Problem.parameterWithoutBind p.attributeName p.baseName).report
              (t.node r.node).spanOrStub)
      ((t.detachChild r.parent r.node).1,
        entries.map fun e => if belongs e then noteParameter e parameter.name r.node else e)

/-- Lowers all bind attributes of a tree. -/
def lowerBinds (t : RenderTree) (c : Catalog) : RenderTree :=
  let parents := unique (· == ·) ((t.references RenderNode.isBind).map (·.parent))
  let t := parents.foldl resolveDuplicates t
  let refs := t.references RenderNode.isBind
  let (t, entries) := refs.foldl foldParameter (t, t.entries refs)
  entries.foldl (lowerEntry c) t

end RenderTree

end TagHelpers
