import TagHelpers.Proofs.Markup.Context
import TagHelpers.Proofs.Markup.Directives

/-!
# The elements of a document

The elements that a document shows are those that are reached through blocks and elements only: what
stands in expressions, statements and attributes is code. Binding leaves them at their places.

* `Node.map_at?_elementPlaces`: the places of the elements, and what stands there.
* `Node.IsPlain.at?_bindTags`: in a tree in which nothing is bound yet, there stands at each of
  these places an element, and after binding the same element with what it is bound to.
-/

namespace TagHelpers

/-- What an attribute is bound to. -/
def Attribute.binding? : Attribute → Option AttributeBinding
  | .valued _ _ _ binding _ | .minimized _ binding _ => binding
  | .misc _ _ => none

namespace Node

variable {tree node : Node} {path : List Nat} {binder : Binder} {outer : Option Enclosing}

/-! ### The elements and their places -/

mutual

/-- The elements that a tree shows, each before those inside it. -/
def elements : Node → List Node
  | block children _ => elementsAll children
  | element tag attributes children endTag binding span =>
    element tag attributes children endTag binding span :: elementsAll children
  | text _ | transition _ | code _ | directive _ | implicit .. | explicit .. | statement .. => []

/-- The elements that trees show. -/
def elementsAll : List Node → List Node
  | [] => []
  | node :: nodes => node.elements ++ elementsAll nodes

end

mutual

/-- The places of the elements that a tree shows. -/
def elementPlaces : Node → List (List Nat)
  | block children _ => elementPlacesFrom 0 children
  | element _ _ children _ _ _ => [] :: elementPlacesFrom 0 children
  | text _ | transition _ | code _ | directive _ | implicit .. | explicit .. | statement .. => []

/-- The places of the elements that trees show, which stand inside a node from an index on. -/
def elementPlacesFrom (i : Nat) : List Node → List (List Nat)
  | [] => []
  | node :: nodes => node.elementPlaces.map (i :: ·) ++ elementPlacesFrom (i + 1) nodes

end

theorem elementsAll_eq_flatMap (nodes : List Node) :
    elementsAll nodes = nodes.flatMap elements := by
  induction nodes with
  | nil => rfl
  | cons node nodes ih => rw [elementsAll, ih, List.flatMap_cons]

/-- The elements that stand inside a node from an index on. -/
theorem map_at?_elementPlacesFrom {nodes : List Node}
    (ih : ∀ child ∈ nodes, child.elementPlaces.map child.at? = child.elements.map some) {i : Nat}
    (hinner : ∀ j, tree.inner[i + j]? = nodes[j]?) :
    (elementPlacesFrom i nodes).map tree.at? = (elementsAll nodes).map some := by
  induction nodes generalizing i with
  | nil => rfl
  | cons node nodes ihn =>
    have hnode : tree.inner[i]? = some node := hinner 0
    have hat : tree.at? ∘ (i :: ·) = node.at? := funext fun path => at?_cons hnode
    rw [elementPlacesFrom, elementsAll, List.map_append, List.map_append, List.map_map, hat,
      ih node List.mem_cons_self,
      ihn (fun child hc => ih child (List.mem_cons_of_mem node hc)) (getElem?_inner_tail hinner)]

/-- **The elements of a tree stand at their places.** -/
theorem map_at?_elementPlaces (node : Node) :
    node.elementPlaces.map node.at? = node.elements.map some := by
  induction node using induction_inner with
  | step node ih =>
    cases node with
    | block children span =>
      rw [elementPlaces, elements]
      exact map_at?_elementPlacesFrom ih fun j => by rw [Nat.zero_add, inner]
    | element tag attributes children endTag binding span =>
      rw [elementPlaces, elements, List.map_cons, List.map_cons]
      refine congrArg₂ List.cons rfl (map_at?_elementPlacesFrom ih fun j => ?_)
      rw [Nat.zero_add, inner]
    | _ => rfl

theorem exists_element_of_mem_elements {e : Node} (h : e ∈ node.elements) :
    ∃ tag attributes children endTag binding span,
      e = element tag attributes children endTag binding span := by
  induction node using induction_inner with
  | step node ih =>
    cases node with
    | block children span =>
      rw [elements, elementsAll_eq_flatMap] at h
      obtain ⟨child, hchild, h⟩ := List.mem_flatMap.1 h
      exact ih child hchild h
    | element tag attributes children endTag binding span =>
      rw [elements, elementsAll_eq_flatMap, List.mem_cons] at h
      rcases h with rfl | h
      · exact ⟨tag, attributes, children, endTag, binding, span, rfl⟩
      · obtain ⟨child, hchild, h⟩ := List.mem_flatMap.1 h
        exact ih child hchild h
    | _ => cases h

/-- At the place of an element there stands one. -/
theorem exists_element_at? (h : path ∈ node.elementPlaces) :
    ∃ tag attributes children endTag binding span,
      node.at? path = some (element tag attributes children endTag binding span) := by
  have hmem : node.at? path ∈ node.elements.map some := by
    rw [← map_at?_elementPlaces]
    exact List.mem_map_of_mem h
  obtain ⟨e, he, hat⟩ := List.mem_map.1 hmem
  obtain ⟨tag, attributes, children, endTag, binding, span, rfl⟩ :=
    exists_element_of_mem_elements he
  exact ⟨tag, attributes, children, endTag, binding, span, hat.symm⟩

/-! ### Binding keeps the places -/

theorem elementPlacesFrom_map {f : Node → Node} {nodes : List Node}
    (h : ∀ child ∈ nodes, (f child).elementPlaces = child.elementPlaces) (i : Nat) :
    elementPlacesFrom i (nodes.map f) = elementPlacesFrom i nodes := by
  induction nodes generalizing i with
  | nil => rfl
  | cons node nodes ih =>
    rw [List.map_cons, elementPlacesFrom, h node List.mem_cons_self,
      ih fun child hc => h child (List.mem_cons_of_mem node hc), elementPlacesFrom]

/-- **Binding leaves the elements at their places.** -/
theorem elementPlaces_bindTags (binder : Binder) (outer : Option Enclosing) (node : Node) :
    (node.bindTags binder outer).elementPlaces = node.elementPlaces := by
  induction node using induction_open generalizing outer with
  | bound node hbound => rw [bindTags_of_isBound hbound]
  | other node hframe ih =>
    rw [bindTags_of_frame?_eq_none hframe]
    cases node with
    | block children span => exact elementPlacesFrom_map (fun child hc => ih child hc outer) 0
    | element tag attributes children endTag binding span => cases hframe
    | _ => rfl
  | element tag attributes children endTag span ih =>
    rw [bindTags_element rfl, elementPlaces, elementPlaces,
      elementPlacesFrom_map fun child hc => ih child hc _]

/-! ### Trees in which nothing is bound -/

/-- That nothing in a tree is bound, neither an element nor an attribute. -/
def IsPlain (tree : Node) : Prop :=
  ∀ node ∈ tree.walk, node.isBound = false ∧ ∀ a ∈ node.attributes, a.binding? = none

instance (tree : Node) : Decidable tree.IsPlain :=
  inferInstanceAs (Decidable (∀ node ∈ tree.walk,
    node.isBound = false ∧ ∀ a ∈ node.attributes, a.binding? = none))

theorem IsPlain.not_bound (h : tree.IsPlain) :
    tree.isBound = false ∧ ∀ a ∈ tree.attributes, a.binding? = none :=
  h tree (by rw [walk_eq]; exact List.mem_cons_self)

theorem IsPlain.of_mem_inner (h : tree.IsPlain) (hnode : node ∈ tree.inner) : node.IsPlain := by
  intro n hn
  refine h n ?_
  rw [walk_eq]
  exact List.mem_append_right _ (List.mem_flatMap.2 ⟨node, hnode, hn⟩)

/-- In such a tree no place lies inside a bound element. -/
theorem IsPlain.reaches (h : tree.IsPlain) (hat : tree.at? path = some node) :
    tree.Reaches path node ∧ node.IsPlain := by
  induction path generalizing tree with
  | nil =>
    obtain rfl := Option.some.inj hat
    exact ⟨.here _, h⟩
  | cons i path ih =>
    obtain ⟨child, hchild, hat⟩ := Option.bind_eq_some_iff.1 hat
    obtain ⟨hreach, hplain⟩ := ih (h.of_mem_inner (List.mem_of_getElem? hchild)) hat
    exact ⟨.step h.not_bound.1 hchild hreach, hplain⟩

/-- **An element before and after binding.** At the place of an element of a tree in which nothing
is bound there stands one that is not bound, and after binding the same one with what it is bound
to. -/
theorem IsPlain.at?_bindTags (h : tree.IsPlain) (hpath : path ∈ tree.elementPlaces)
    (binder : Binder) (outer : Option Enclosing) :
    ∃ tag attributes children endTag span,
      tree.at? path = some (element tag attributes children endTag none span) ∧
      (∀ a ∈ attributes, a.binding? = none) ∧
      ∃ (binding : Option Binding) (children' : List Node),
        (tree.bindTags binder outer).at? path = some (element tag
          (binding.elim attributes fun b => Attribute.bindAll tag.name.text b.helpers attributes)
          children' endTag (binding.map fun b => ⟨b.mode tag.isSelfClosing, b.helpers⟩) span) := by
  obtain ⟨tag, attributes, children, endTag, binding, span, hat⟩ := exists_element_at? hpath
  obtain ⟨hreach, hplain⟩ := h.reaches hat
  obtain ⟨hbound, hattributes⟩ := hplain.not_bound
  cases binding with
  | some b => cases hbound
  | none =>
    exact ⟨tag, attributes, children, endTag, span, hat, hattributes, _, _,
      (hreach.at?_bindTags binder outer).trans (congrArg some (bindTags_element rfl _ _ _))⟩

end Node

end TagHelpers
