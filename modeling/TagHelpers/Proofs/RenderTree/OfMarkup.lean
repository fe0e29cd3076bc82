import TagHelpers.Proofs.Markup.Places
import TagHelpers.Proofs.RenderTree.Growth
import TagHelpers.RenderTree.OfMarkup

/-!
# What grows from markup

`Node.sprouts` says what a markup tree adds to a render tree, and `shows_ofMarkup` that the render
tree of a document consists of exactly that. Elements become elements or components, and only below
these there are attributes.
-/

namespace TagHelpers

/-! ### The parts -/

namespace Sprout

/-- A node of a kind with one token. -/
def content (kind : RenderKind) (tokenKind : TokenKind) (text : String) : Sprout :=
  node kind none [node (.token tokenKind text) none []]

/-- An attribute of the markup. -/
def htmlAttribute (name : String) (value : List Node) : Sprout :=
  content (.htmlAttribute ⟨name, " " ++ name ++ "=\"", "\""⟩) .html (sourceOf value)

/-- The value of a property. -/
def ofValue (value : List Node) : List Sprout :=
  if value.isEmpty then []
  else if allText value then [content .htmlContent .html (sourceOf value)]
  else [content .codeExpression .code (codeText value)]

/-- The property for a tag helper, if it binds the attribute. -/
def property (name : String) (quoting : Quoting) (value : List Node) (span : Span)
    (helper : TagHelper) : List Sprout :=
  match Property.of? name quoting helper with
  | none => []
  | some p => [node (.property p) (some span) (ofValue value)]

/-- What an attribute of a bound element adds to it. -/
def bound (helpers : List TagHelper) (name : String) (binding : AttributeBinding)
    (value : List Node) (span : Span) : List Sprout :=
  if binding.kind.isBound then
    helpers.flatMap fun h => property name binding.quoting value span h
  else [htmlAttribute name value]

end Sprout

/-- What an element is shown as. -/
def shownKind (tagName : String) : Option ElementBinding → RenderKind
  | none => .element tagName
  | some b => RenderTree.boundKind tagName b.helpers

/-- What an attribute of an element adds to it. -/
def Attribute.sprouts : Option ElementBinding → Attribute → List Sprout
  | none, .valued head _ value _ _ => [.htmlAttribute head.name.text value]
  | none, .minimized head _ _ => [.htmlAttribute head.name.text []]
  | some b, .valued head _ value (some binding) span =>
    Sprout.bound b.helpers head.name.text binding value span
  | some b, .minimized head (some binding) span =>
    Sprout.bound b.helpers head.name.text binding [] span
  | _, _ => []

mutual

/-- What a markup tree adds to a render tree. -/
def Node.sprouts : Node → List Sprout
  | .text l => if Text.blank l.text then [] else [.content .htmlContent .html l.text]
  | .block children _ => sproutsAll children
  | .element tag attributes children _ binding _ =>
    [.node (shownKind tag.name.text binding) none
      (attributes.flatMap (Attribute.sprouts binding) ++ sproutsAll children)]
  | .implicit transition body span =>
    [.content .codeExpression .code (Node.implicit transition body span).source]
  | .explicit d body span =>
    [.content .codeExpression .code (Node.explicit d body span).source]
  | .transition _ | .code _ | .statement .. | .directive _ => []

/-- What markup trees add to a render tree. -/
def sproutsAll : List Node → List Sprout
  | [] => []
  | node :: nodes => node.sprouts ++ sproutsAll nodes

end

theorem sproutsAll_eq_flatMap (nodes : List Node) :
    sproutsAll nodes = nodes.flatMap Node.sprouts := by
  induction nodes with
  | nil => rfl
  | cons node nodes ih => rw [sproutsAll, ih, List.flatMap_cons]

namespace RenderTree

variable {t : RenderTree} {parent : NodeId}

theorem grows_addContent (h : parent < t.size) (kind : RenderKind) (tokenKind : TokenKind)
    (text : String) :
    Grows t (t.addContent parent kind tokenKind text) parent [.content kind tokenKind text] :=
  Grows.nest h (Grows.nest (lt_size_append t parent _) (Grows.refl (lt_size_append _ _ _)))

theorem grows_addValue (h : parent < t.size) (value : List Node) :
    Grows t (t.addValue parent value) parent (Sprout.ofValue value) := by
  unfold addValue Sprout.ofValue
  split_ifs
  · exact Grows.refl h
  · exact grows_addContent h _ _ _
  · exact grows_addContent h _ _ _

theorem grows_addProperty (h : parent < t.size) (name : String) (quoting : Quoting)
    (value : List Node) (span : Span) (helper : TagHelper) :
    Grows t (t.addProperty parent name quoting value span helper) parent
      (Sprout.property name quoting value span helper) := by
  cases hp : Property.of? name quoting helper with
  | none =>
    simp only [addProperty, Sprout.property, hp]
    exact Grows.refl h
  | some p =>
    simp only [addProperty, Sprout.property, hp]
    exact Grows.nest h (grows_addValue (lt_size_append t parent _) value)

theorem grows_addPlainAttribute (h : parent < t.size) (a : Attribute) :
    Grows t (addPlainAttribute parent t a) parent (a.sprouts none) := by
  cases a with
  | valued head frame value binding span => exact grows_addContent h _ _ _
  | minimized head binding span => exact grows_addContent h _ _ _
  | misc children span => exact Grows.refl h

theorem grows_bound (h : parent < t.size) (helpers : List TagHelper) (name : String)
    (binding : AttributeBinding) (value : List Node) (span : Span) :
    Grows t (if binding.kind.isBound then
        helpers.foldl (fun t h => t.addProperty parent name binding.quoting value span h) t
      else t.addHtmlAttribute parent name value) parent
      (Sprout.bound helpers name binding value span) := by
  unfold Sprout.bound
  split_ifs
  · exact Grows.foldl (fun t helper ht => grows_addProperty ht _ _ _ _ helper) _ h
  · exact grows_addContent h _ _ _

theorem grows_addBoundAttribute (h : parent < t.size) (b : ElementBinding) (a : Attribute) :
    Grows t (addBoundAttribute parent b.helpers t a) parent (a.sprouts (some b)) := by
  cases a with
  | valued head frame value binding span =>
    cases binding with
    | none => exact Grows.refl h
    | some binding => exact grows_bound h _ _ _ _ _
  | minimized head binding span =>
    cases binding with
    | none => exact Grows.refl h
    | some binding => exact grows_bound h _ _ _ _ _
  | misc children span => exact Grows.refl h

theorem grows_addAllMarkup {nodes : List Node}
    (hnodes : ∀ node ∈ nodes, ∀ (t : RenderTree) (parent : NodeId), parent < t.size →
      Grows t (addMarkup parent node t) parent node.sprouts) (h : parent < t.size) :
    Grows t (addAllMarkup parent nodes t) parent (sproutsAll nodes) := by
  induction nodes generalizing t with
  | nil => exact Grows.refl h
  | cons node nodes ih =>
    have hnode := hnodes node List.mem_cons_self t parent h
    have hlt : parent < (addMarkup parent node t).size := by
      rw [hnode.size_eq]
      exact Nat.lt_add_right _ h
    rw [addAllMarkup, sproutsAll]
    exact hnode.append (ih (fun n hn => hnodes n (List.mem_cons_of_mem node hn)) hlt)

/-- An element with its attributes and children. -/
theorem grows_element {nodes : List Node} {add : RenderTree → Attribute → RenderTree}
    {binding : Option ElementBinding} (kind : RenderKind) (attributes : List Attribute)
    (hnodes : ∀ node ∈ nodes, ∀ (t : RenderTree) (parent : NodeId), parent < t.size →
      Grows t (addMarkup parent node t) parent node.sprouts)
    (hadd : ∀ t' a, t.size < t'.size → Grows t' (add t' a) t.size (a.sprouts binding))
    (h : parent < t.size) :
    Grows t (addAllMarkup t.size nodes (attributes.foldl add (t.addChild parent kind).1)) parent
      [.node kind none (attributes.flatMap (Attribute.sprouts binding) ++ sproutsAll nodes)] := by
  have hlt := lt_size_append t parent { kind }
  have hattributes := Grows.foldl hadd attributes hlt
  refine Grows.nest h (hattributes.append (grows_addAllMarkup hnodes ?_))
  rw [hattributes.size_eq]
  exact Nat.lt_add_right _ hlt

/-- **What a markup tree adds below a node.** -/
theorem grows_addMarkup (node : Node) (t : RenderTree) (parent : NodeId) (h : parent < t.size) :
    Grows t (addMarkup parent node t) parent node.sprouts := by
  induction node using Node.induction_inner generalizing t parent with
  | step node ih =>
    cases node with
    | text l =>
      rw [addMarkup, Node.sprouts]
      split_ifs
      · exact Grows.refl h
      · exact grows_addContent h _ _ _
    | block children span =>
      rw [addMarkup, Node.sprouts]
      exact grows_addAllMarkup ih h
    | element tag attributes children endTag binding span =>
      cases binding with
      | none =>
        exact grows_element _ attributes ih (fun t' a ht' => grows_addPlainAttribute ht' a) h
      | some b =>
        exact grows_element _ attributes ih (fun t' a ht' => grows_addBoundAttribute ht' b a) h
    | implicit transition body span => exact grows_addContent h _ _ _
    | explicit d body span => exact grows_addContent h _ _ _
    | transition l => exact Grows.refl h
    | code l => exact Grows.refl h
    | statement d body span => exact Grows.refl h
    | directive d => exact Grows.refl h

/-- **The render tree of a document shows what grows from its markup.** -/
theorem shows_ofMarkup (node : Node) : Shows (ofMarkup node) (.node .document none node.sprouts) :=
  (grows_addMarkup node empty root (by decide)).shows

end RenderTree

end TagHelpers
