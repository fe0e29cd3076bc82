import TagHelpers.Markup.Node
import Mathlib.Data.List.Basic

/-!
# Places in a tree

A place in a tree is given by a path: at each step it says which of the nodes inside the last one
comes next. Paths lead into blocks, expressions, statements and the children of elements, but not
into attributes.

`Node.Reaches` is about the places that do not lie inside a bound element. `Node.induction_inner`
goes from the nodes inside a node to the node, so that what holds of lists of nodes need not be
stated beside what holds of nodes; `Node.induction_open` does the same where bound elements stay
closed and elements that are not bound count apart from other nodes.
-/

namespace TagHelpers

/-- What is seen of an element from inside it. -/
structure Frame where
  tagName : String
  isBound : Bool
  deriving DecidableEq

namespace Node

/-- The nodes inside a node, apart from those in its attributes. -/
def inner : Node → List Node
  | block nodes _ | implicit _ nodes _ | explicit _ nodes _ | statement _ nodes _ => nodes
  | element _ _ children _ _ _ => children
  | text _ | transition _ | code _ | directive _ => []

/-- A node with each of the nodes inside it changed. -/
def mapInner (f : Node → Node) : Node → Node
  | block nodes span => block (nodes.map f) span
  | implicit start nodes span => implicit start (nodes.map f) span
  | explicit d nodes span => explicit d (nodes.map f) span
  | statement d nodes span => statement d (nodes.map f) span
  | element tag attributes children endTag binding span =>
    element tag attributes (children.map f) endTag binding span
  | node => node

/-- What an element is to the nodes inside it. -/
def frame? : Node → Option Frame
  | element tag _ _ _ binding _ => some ⟨tag.name.text, binding.isSome⟩
  | _ => none

/-- Whether a node is an element that is bound. -/
def isBound (node : Node) : Bool :=
  node.frame?.any (·.isBound)

/-- The node at a place. -/
def at? : Node → List Nat → Option Node
  | node, [] => some node
  | node, i :: path => node.inner[i]?.bind fun child => child.at? path

/-- The nodes around a place, from the nearest on. -/
def around : Node → List Nat → List Node
  | _, [] => []
  | node, i :: path => (node.inner[i]?.elim [] fun child => child.around path) ++ [node]

/-- The element nearest around a place. -/
def enclosing? (tree : Node) (path : List Nat) : Option Frame :=
  (tree.around path).findSome? frame?

/-- That a node stands at a place which is not inside a bound element. -/
inductive Reaches : Node → List Nat → Node → Prop
  | here (node : Node) : Reaches node [] node
  | step {tree child node : Node} {i : Nat} {path : List Nat} (hopen : tree.isBound = false)
      (hchild : tree.inner[i]? = some child) (hreach : Reaches child path node) :
      Reaches tree (i :: path) node

/-! ### Nodes inside nodes -/

variable {tree child node : Node} {i : Nat} {path : List Nat} {f g : Node → Node}

@[simp] theorem inner_mapInner (f : Node → Node) (node : Node) :
    (node.mapInner f).inner = node.inner.map f := by
  cases node <;> rfl

@[simp] theorem frame?_mapInner (f : Node → Node) (node : Node) :
    (node.mapInner f).frame? = node.frame? := by
  cases node <;> rfl

theorem mapInner_congr (h : ∀ child ∈ node.inner, f child = g child) :
    node.mapInner f = node.mapInner g := by
  have hmap := List.map_congr_left h
  cases node <;> simp_all only [inner, mapInner]

theorem mapInner_eq_self (node : Node) (h : ∀ child ∈ node.inner, f child = child) :
    node.mapInner f = node := by
  rw [mapInner_congr h]
  cases node <;> simp only [mapInner, List.map_id_fun', id]

/-- The nodes inside a node from an index on, without the first of them. -/
theorem getElem?_inner_tail {nodes : List Node}
    (h : ∀ j, tree.inner[i + j]? = (node :: nodes)[j]?) (j : Nat) :
    tree.inner[i + 1 + j]? = nodes[j]? := by
  have hj := h (j + 1)
  rwa [← Nat.add_assoc, Nat.add_right_comm, List.getElem?_cons_succ] at hj

theorem sizeOf_lt_of_mem_inner (h : child ∈ node.inner) : sizeOf child < sizeOf node := by
  cases node with
  | text l => cases h
  | transition l => cases h
  | code l => cases h
  | directive d => cases h
  | _ =>
    have := List.sizeOf_lt_of_mem h
    simp only [inner] at this
    simp only [block.sizeOf_spec, implicit.sizeOf_spec, explicit.sizeOf_spec,
      statement.sizeOf_spec, element.sizeOf_spec]
    omega

/-- Induction from the nodes inside a node to the node. -/
@[elab_as_elim]
theorem induction_inner {P : Node → Prop}
    (step : ∀ node, (∀ child ∈ node.inner, P child) → P node) (node : Node) : P node :=
  step node fun child hchild =>
    have := sizeOf_lt_of_mem_inner hchild
    induction_inner step child
termination_by sizeOf node

theorem exists_of_isBound (h : node.isBound = true) :
    ∃ tag attributes children endTag b span,
      node = element tag attributes children endTag (some b) span := by
  cases node with
  | element tag attributes children endTag binding span =>
    cases binding with
    | some b => exact ⟨tag, attributes, children, endTag, b, span, rfl⟩
    | none => cases h
  | _ => cases h

theorem cases_open (hopen : node.isBound = false) :
    node.frame? = none ∨ ∃ tag attributes children endTag span,
      node = element tag attributes children endTag none span := by
  cases node with
  | element tag attributes children endTag binding span =>
    cases binding with
    | some b => cases hopen
    | none => exact Or.inr ⟨tag, attributes, children, endTag, span, rfl⟩
  | _ => exact Or.inl rfl

/-- Induction over what is not inside a bound element. -/
@[elab_as_elim]
theorem induction_open {P : Node → Prop} (bound : ∀ node, node.isBound = true → P node)
    (other : ∀ node, node.frame? = none → (∀ child ∈ node.inner, P child) → P node)
    (element : ∀ tag attributes children endTag span, (∀ child ∈ children, P child) →
      P (element tag attributes children endTag none span)) (node : Node) : P node := by
  induction node using induction_inner with
  | step node ih =>
    cases hopen : node.isBound with
    | true => exact bound node hopen
    | false =>
      obtain hframe | ⟨tag, attributes, children, endTag, span, rfl⟩ := cases_open hopen
      · exact other node hframe ih
      · exact element tag attributes children endTag span ih

/-! ### One step of a path -/

theorem at?_cons (hchild : tree.inner[i]? = some child) :
    tree.at? (i :: path) = child.at? path := by
  rw [at?, hchild, Option.bind_some]

theorem findSome?_around_cons {α : Type} (f : Node → Option α)
    (hchild : tree.inner[i]? = some child) :
    (tree.around (i :: path)).findSome? f = ((child.around path).findSome? f).or (f tree) := by
  rw [around, hchild, Option.elim_some, List.findSome?_append, List.findSome?_singleton]

theorem enclosing?_cons (hchild : tree.inner[i]? = some child) :
    tree.enclosing? (i :: path) = (child.enclosing? path).or tree.frame? :=
  findSome?_around_cons frame? hchild

end Node

end TagHelpers
