import TagHelpers.Markup.Node

/-!
# The source of a tree

The source is the literals of a tree in the order in which they stand in the text. `walk` lists the
nodes themselves, each before what is inside it and attributes before children.
-/

namespace TagHelpers

/-- The literals of an end tag. -/
def EndTag.literals (t : EndTag) : List Literal :=
  [t.opening, t.name, t.closing]

/-- The literals of a directive. -/
def Directive.literals (d : Directive) : List Literal :=
  [d.transition, d.keyword, d.value]

/-- The literals of an attribute before its value, apart from the equals sign. -/
def AttributeHead.literals (h : AttributeHead) : List Literal :=
  h.lead.toList ++ [h.name]

mutual

/-- The literals of a node. -/
def Node.literals : Node → List Literal
  | .text l | .transition l | .code l => [l]
  | .directive d => d.literals
  | .block children _ => literalsOf children
  | .implicit transition body _ => transition.toList ++ literalsOf body
  | .explicit d body _ | .statement d body _ =>
    d.transition :: d.opening :: literalsOf body ++ [d.closing]
  | .element tag attributes children endTag _ _ =>
    tag.opening :: tag.name :: attributeLiteralsOf attributes ++ tag.closing ::
      literalsOf children ++ (endTag.map EndTag.literals).getD []

/-- The literals of a list of nodes. -/
def literalsOf : List Node → List Literal
  | [] => []
  | node :: nodes => node.literals ++ literalsOf nodes

/-- The literals of an attribute. -/
def Attribute.literals : Attribute → List Literal
  | .valued head frame value _ _ =>
    head.literals ++ frame.equals :: frame.opening.toList ++ literalsOf value ++
      frame.closing.toList
  | .minimized head _ _ => head.literals
  | .misc children _ => literalsOf children

/-- The literals of a list of attributes. -/
def attributeLiteralsOf : List Attribute → List Literal
  | [] => []
  | a :: as => a.literals ++ attributeLiteralsOf as

end

/-- The text of a list of literals. -/
def textOf (literals : List Literal) : String :=
  String.join (literals.map (·.text))

/-- The source of a node. -/
def Node.source (node : Node) : String :=
  textOf node.literals

/-- The source of a list of nodes. -/
def sourceOf (nodes : List Node) : String :=
  textOf (literalsOf nodes)

mutual

/-- The nodes of a tree, each before what is inside it. -/
def Node.walk (node : Node) : List Node :=
  node ::
    match node with
    | .text _ | .transition _ | .code _ | .directive _ => []
    | .block nodes _ | .implicit _ nodes _ | .explicit _ nodes _ | .statement _ nodes _ =>
      walkAll nodes
    | .element _ attributes children _ _ _ => walkAttributes attributes ++ walkAll children

/-- The nodes of a list of trees. -/
def walkAll : List Node → List Node
  | [] => []
  | node :: nodes => node.walk ++ walkAll nodes

/-- The nodes inside an attribute. -/
def Attribute.walk : Attribute → List Node
  | .valued _ _ nodes _ _ | .misc nodes _ => walkAll nodes
  | .minimized _ _ _ => []

/-- The nodes inside a list of attributes. -/
def walkAttributes : List Attribute → List Node
  | [] => []
  | a :: as => a.walk ++ walkAttributes as

end

/-- The directives of a tree in the order of `walk`. -/
def Node.directives (node : Node) : List Directive :=
  node.walk.filterMap fun
    | .directive d => some d
    | _ => none

end TagHelpers
