import TagHelpers.Pipeline.Document
import TagHelpers.Proofs.Markup.Context

/-!
# Binding keeps the directives

The directives of a tree are found wherever nodes are, in the values of attributes too. Binding an
element rebuilds its attributes and may turn their values into code, but no directive is lost, moved
or changed. A selection is made from directives alone, so it does not matter for it whether a
document is bound before or after.

* `Node.directives_eq`: the directives of a node are its own, those in its attributes and those in
  the nodes inside it.
* `directives_codeValue`: turning a value into code keeps its directives.
* `select_bindElements`: binding keeps the directives of a tree and the selection of a document.
-/

namespace TagHelpers

/-- The attributes of an element. -/
def Node.attributes : Node → List Attribute
  | .element _ attributes _ _ _ _ => attributes
  | _ => []

/-- The directive that a node is. -/
def Node.directive? : Node → Option Directive
  | .directive d => some d
  | _ => none

/-- The directives in an attribute. -/
def Attribute.directives (a : Attribute) : List Directive :=
  a.value.flatMap Node.directives

theorem walkAll_eq_flatMap (nodes : List Node) : walkAll nodes = nodes.flatMap Node.walk := by
  induction nodes with
  | nil => rfl
  | cons node nodes ih => rw [walkAll, ih, List.flatMap_cons]

theorem walkAttributes_eq_flatMap (as : List Attribute) :
    walkAttributes as = as.flatMap fun a => a.value.flatMap Node.walk := by
  induction as with
  | nil => rfl
  | cons a as ih =>
    rw [walkAttributes, ih, List.flatMap_cons]
    cases a <;> simp only [Attribute.walk, Attribute.value, walkAll_eq_flatMap, List.flatMap_nil]

theorem Node.walk_eq (node : Node) :
    node.walk = node :: (node.attributes.flatMap fun a => a.value.flatMap Node.walk) ++
      node.inner.flatMap Node.walk := by
  cases node <;>
    simp [Node.walk, Node.attributes, Node.inner, walkAll_eq_flatMap, walkAttributes_eq_flatMap]

theorem Node.directives_eq_filterMap (node : Node) :
    node.directives = node.walk.filterMap Node.directive? := rfl

theorem directives_flatMap_walk (nodes : List Node) :
    (nodes.flatMap Node.walk).filterMap Node.directive? = nodes.flatMap Node.directives := by
  rw [List.filterMap_flatMap]
  exact List.flatMap_congr fun node _ => node.directives_eq_filterMap.symm

/-- The directives of a node: its own, those in its attributes and those in what is inside it. -/
theorem Node.directives_eq (node : Node) :
    node.directives = node.directive?.toList ++ node.attributes.flatMap Attribute.directives ++
      node.inner.flatMap Node.directives := by
  rw [Node.directives_eq_filterMap, Node.walk_eq, List.filterMap_append, directives_flatMap_walk,
    List.filterMap_cons, List.filterMap_flatMap]
  simp only [directives_flatMap_walk]
  cases node.directive? <;> rfl

/-! ### Values as code -/

mutual

theorem Node.directives_asCode (started : Bool) : ∀ node : Node,
    (node.asCode started).1.directives = node.directives
  | .text l => rfl
  | .code l => rfl
  | .transition l => by cases started <;> rfl
  | .directive d => rfl
  | .block children span => by
    have h := directives_asCodeAll started children
    rw [Node.asCode, Node.directives_eq, Node.directives_eq]
    exact h
  | .implicit transition body span => by
    have h := directives_asCodeAll (started || transition.isSome) body
    rw [Node.asCode, Node.directives_eq, Node.directives_eq]
    exact h
  | .explicit d body span => by
    -- the brackets become code around the body, and code has no directives
    have h := directives_asCodeAll true body
    have hcode : ∀ l : Literal, (Node.code l).directives = [] := fun l => rfl
    rw [Node.asCode, Node.directives_eq, Node.directives_eq]
    simp only [Node.inner, List.cons_append, List.flatMap_cons, List.flatMap_append,
      List.flatMap_nil, hcode, h, List.nil_append, List.append_nil]
    rfl
  | .statement d body span => rfl
  | .element tag attributes children endTag binding span => rfl

theorem directives_asCodeAll (started : Bool) : ∀ nodes : List Node,
    (asCodeAll started nodes).1.flatMap Node.directives = nodes.flatMap Node.directives
  | [] => rfl
  | node :: nodes => by
    rw [asCodeAll]
    simp only [List.flatMap_cons]
    rw [Node.directives_asCode started node, directives_asCodeAll _ nodes]

end

theorem directives_codeValue (value : List Node) :
    (codeValue value).flatMap Node.directives = value.flatMap Node.directives :=
  directives_asCodeAll false value

/-! ### Bound trees -/

theorem Attribute.directives_bind (helpers : List TagHelper) (a : Attribute) :
    (a.bind helpers).directives = a.directives := by
  cases a with
  | valued head frame value binding span =>
    cases binding with
    | some b => rfl
    | none =>
      rw [Attribute.bind]
      simp only [Attribute.directives, Attribute.value]
      split
      · exact directives_codeValue value
      · rfl
  | minimized head binding span => cases binding <;> rfl
  | misc children span => rfl

theorem Attribute.directives_bindAll (tag : String) (helpers : List TagHelper)
    (as : List Attribute) :
    (Attribute.bindAll tag helpers as).flatMap Attribute.directives =
      as.flatMap Attribute.directives := by
  induction as with
  | nil => rfl
  | cons a as ih =>
    rw [Attribute.bindAll]
    split
    · rfl
    · rw [List.flatMap_cons, List.flatMap_cons, Attribute.directives_bind, ih]

namespace Node

variable {f : Node → Node} {node : Node}

theorem directives_map {nodes : List Node}
    (h : ∀ node ∈ nodes, (f node).directives = node.directives) :
    (nodes.map f).flatMap directives = nodes.flatMap directives := by
  rw [List.flatMap_map]
  exact List.flatMap_congr h

theorem directives_mapInner (h : ∀ child ∈ node.inner, (f child).directives = child.directives) :
    (node.mapInner f).directives = node.directives := by
  rw [directives_eq, directives_eq node, inner_mapInner, directives_map h]
  cases node <;> rfl

/-- **Binding keeps the directives.** -/
theorem directives_bindTags (binder : Binder) (outer : Option Enclosing) (node : Node) :
    (node.bindTags binder outer).directives = node.directives := by
  induction node using induction_open generalizing outer with
  | bound node hbound => rw [bindTags_of_isBound hbound]
  | other node hframe ih =>
    rw [bindTags_of_frame?_eq_none hframe]
    exact directives_mapInner fun child hchild => ih child hchild outer
  | element tag attributes children endTag span ih =>
    have hchildren := directives_map fun child hchild =>
      ih child hchild (some (tag.enclosing (tag.binding? attributes binder outer)))
    have hattributes : ((tag.binding? attributes binder outer).elim attributes fun b =>
        Attribute.bindAll tag.name.text b.helpers attributes).flatMap Attribute.directives =
          attributes.flatMap Attribute.directives := by
      cases tag.binding? attributes binder outer with
      | none => rfl
      | some b => exact Attribute.directives_bindAll tag.name.text b.helpers attributes
    rw [bindTags_element rfl, directives_eq, directives_eq (element _ _ _ _ none _)]
    exact congrArg₂ (· ++ ·) hattributes hchildren

end Node

/-- **Binding does not disturb selection.** The directives of a tree are the same after binding and
stand in the same order, so a document takes the same tag helpers and the same prefix and has the
same problems whether its markup is bound or not. -/
theorem select_bindElements (tree : Node) (binder : Binder) (options : Options) :
    (tree.bindElements binder options).1.directives = tree.directives ∧
    ∀ d : Document, { d with markup := (tree.bindElements binder options).1 }.select =
      { d with markup := tree }.select := by
  have h : (tree.bindElements binder options).1.directives = tree.directives := by
    rw [Node.bindElements_eq]
    exact tree.directives_bindTags binder none
  refine ⟨h, fun d => ?_⟩
  simp only [Document.select, placedDirectives, h]

end TagHelpers
