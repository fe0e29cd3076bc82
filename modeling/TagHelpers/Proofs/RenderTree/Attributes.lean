import TagHelpers.Proofs.Attribute.Classification
import TagHelpers.Proofs.Markup.Elements
import TagHelpers.Proofs.RenderTree.OfMarkup

/-!
# The attributes of elements in a render tree

An attribute of a bound element is classified once, by all tag helpers of the element together. The
render tree asks each tag helper again. Both agree: an attribute is shown as one of the markup if no
tag helper of its element resolves its name, and otherwise as one property for each that does.

* `Attribute.shown`: what the attributes of an element are to be shown as.
* `Attribute.uses_bindAll`: what they are shown as once they are bound.
* `Node.forall₂_elements`: what grows from markup has its elements, in order.
* `RenderTree.forall₂_elementIds`: each element of a document with its node in the render tree.
* `RenderTree.forall₂_uses_bindElements`: what each element of a document is shown with.
-/

namespace TagHelpers

/-! ### Uses of attributes -/

/-- The use of an attribute: its name and, if a tag helper binds it, that one with the resolution of
the name. -/
structure AttributeUse where
  name : String
  binding : Option (TagHelper × Resolution)
  deriving DecidableEq

/-- What a name is to be shown as on an element with tag helpers: as one use without a binding if
none of them resolves it, and otherwise as one use for each that does. -/
def AttributeUse.ofName (helpers : List TagHelper) (name : String) : List AttributeUse :=
  if helpers.all fun h => (h.descriptor.resolve? name).isNone then [⟨name, none⟩]
  else helpers.filterMap fun h => (h.descriptor.resolve? name).map fun r => ⟨name, some (h, r)⟩

namespace RenderKind

/-- The use of an attribute that a node of a kind is. -/
def use? : RenderKind → Option AttributeUse
  | htmlAttribute a => some ⟨a.attributeName, none⟩
  | property p => some ⟨p.attributeName, some (p.helper, p.resolution)⟩
  | _ => none

/-- Whether a node of a kind is an element or a component. -/
def isElement : RenderKind → Bool
  | element _ | component .. => true
  | _ => false

end RenderKind

namespace RenderTree

/-- The uses of attributes among the children of a node. -/
def uses (t : RenderTree) (id : NodeId) : List AttributeUse :=
  (t.children id).filterMap fun child => (t.kind child).use?

/-- The attached elements and components. -/
def elementIds (t : RenderTree) : List NodeId :=
  t.preorder.filter fun id => (t.kind id).isElement

end RenderTree

namespace Attribute

/-- The name of an attribute. -/
def name? (a : Attribute) : Option String :=
  a.nameLiteral?.map (·.text)

/-- The attributes of a tag up to the first entry that is rejected. -/
def accepted (tag : String) (attributes : List Attribute) : List Attribute :=
  attributes.takeWhile fun a => (a.rejection? tag).isNone

/-- What the attributes of a tag are to be shown as. Entries are rejected on bound elements only. -/
def shown (tag : String) (attributes : List Attribute) : Option ElementBinding → List AttributeUse
  | none => (attributes.filterMap name?).map (⟨·, none⟩)
  | some b => ((accepted tag attributes).filterMap name?).flatMap (AttributeUse.ofName b.helpers)

end Attribute

namespace Sprout

/-- The uses of attributes among sprouts. -/
def uses (ss : List Sprout) : List AttributeUse :=
  ss.filterMap (·.kind.use?)

@[simp] theorem uses_nil : uses [] = [] := rfl

@[simp] theorem uses_append (ss ss' : List Sprout) : uses (ss ++ ss') = uses ss ++ uses ss' :=
  List.filterMap_append

theorem uses_flatMap {α : Type} (f : α → List Sprout) (as : List α) :
    uses (as.flatMap f) = as.flatMap fun a => uses (f a) := by
  induction as with
  | nil => rfl
  | cons a as ih => rw [List.flatMap_cons, uses_append, ih, List.flatMap_cons]

end Sprout

/-! ### Classifying once and asking each tag helper -/

namespace Property

variable {name : String} {helper : TagHelper} {r : Resolution}

theorem of?_of_some (h : helper.descriptor.resolve? name = some r) (quoting : Quoting) :
    of? name quoting helper = some ⟨name, quoting, helper, r, h⟩ := by
  unfold of?
  split
  · next r' h' =>
    obtain rfl := Option.some.inj (h.symm.trans h')
    rfl
  · next h' => cases h.symm.trans h'

theorem of?_of_none (h : helper.descriptor.resolve? name = none) (quoting : Quoting) :
    of? name quoting helper = none := by
  unfold of?
  split
  · next r' h' => cases h.symm.trans h'
  · rfl

end Property

namespace Sprout

theorem uses_property (name : String) (quoting : Quoting) (value : List Node) (span : Span)
    (helper : TagHelper) :
    uses (property name quoting value span helper) =
      ((helper.descriptor.resolve? name).map fun r => ⟨name, some (helper, r)⟩).toList := by
  unfold property
  cases h : helper.descriptor.resolve? name with
  | none =>
    rw [Property.of?_of_none h]
    rfl
  | some r =>
    rw [Property.of?_of_some h]
    rfl

/-- **What an attribute of a bound element is shown as** is what each of the tag helpers says, if
the attribute was classified by all of them. -/
theorem uses_bound {helpers : List TagHelper} {name : String} {binding : AttributeBinding}
    (h : binding.kind = (Classification.ofName name helpers).kind) (value : List Node)
    (span : Span) :
    uses (bound helpers name binding value span) = AttributeUse.ofName helpers name := by
  unfold bound AttributeUse.ofName
  rw [h, Classification.isBound_kind, Classification.isBound_ofName]
  cases helpers.all fun h => (h.descriptor.resolve? name).isNone with
  | true => rfl
  | false =>
    rw [Bool.not_false, if_pos rfl, if_neg Bool.false_ne_true, uses_flatMap,
      List.filterMap_eq_flatMap_toList]
    simp only [uses_property]

end Sprout

/-! ### The attributes of an element -/

namespace Attribute

open Sprout

theorem uses_sprouts_bind {a : Attribute} (h : a.binding? = none) (b : ElementBinding) :
    uses ((a.bind b.helpers).sprouts (some b)) =
      a.name?.toList.flatMap (AttributeUse.ofName b.helpers) := by
  cases a with
  | valued head frame value binding span =>
    obtain rfl : binding = none := h
    exact (uses_bound rfl _ _).trans (List.flatMap_singleton _ _).symm
  | minimized head binding span =>
    obtain rfl : binding = none := h
    exact (uses_bound rfl _ _).trans (List.flatMap_singleton _ _).symm
  | misc children span => rfl

theorem sprouts_eq_nil {a : Attribute} (h : a.binding? = none) (b : ElementBinding) :
    a.sprouts (some b) = [] := by
  cases a with
  | valued head frame value binding span =>
    obtain rfl : binding = none := h
    rfl
  | minimized head binding span =>
    obtain rfl : binding = none := h
    rfl
  | misc children span => rfl

/-- **What the attributes of a bound element are shown as.** From the first entry that is rejected
on nothing is bound, and so nothing is shown. -/
theorem uses_bindAll {attributes : List Attribute} (h : ∀ a ∈ attributes, a.binding? = none)
    (tag : String) (b : ElementBinding) :
    uses ((bindAll tag b.helpers attributes).flatMap (sprouts (some b))) =
      shown tag attributes (some b) := by
  induction attributes with
  | nil => rfl
  | cons a as ih =>
    have has : ∀ a' ∈ as, a'.binding? = none := fun a' ha' => h a' (List.mem_cons_of_mem a ha')
    cases hrejection : a.rejection? tag with
    | some p =>
      have hnil : (a :: as).flatMap (sprouts (some b)) = [] :=
        List.flatMap_eq_nil_iff.2 fun a' ha' => sprouts_eq_nil (h a' ha') b
      simp [bindAll, shown, accepted, hrejection, hnil]
    | none =>
      have haccepted : accepted tag (a :: as) = a :: accepted tag as := by
        simp [accepted, hrejection]
      have hname : (a :: accepted tag as).filterMap name? =
          a.name?.toList ++ (accepted tag as).filterMap name? := by
        cases hn : a.name? <;> simp [hn]
      simp only [bindAll, hrejection, List.flatMap_cons, uses_append, ih has,
        uses_sprouts_bind (h a List.mem_cons_self), shown, haccepted, hname, List.flatMap_append]

/-- What the attributes of an element that is not bound are shown as. -/
theorem uses_plain (tag : String) (attributes : List Attribute) :
    uses (attributes.flatMap (sprouts none)) = shown tag attributes none := by
  induction attributes with
  | nil => rfl
  | cons a as ih =>
    rw [List.flatMap_cons, uses_append, ih]
    cases a <;> rfl

end Attribute

/-! ### The elements among what grows -/

namespace Sprout

variable {s : Sprout} {ss : List Sprout} {kind : RenderKind}

/-- The elements among sprouts and all that is below them. -/
def elements (ss : List Sprout) : List Sprout :=
  (walkAll ss).filter (·.kind.isElement)

theorem elements_node_of_isElement (h : kind.isElement = true) (span : Option Span)
    (ss : List Sprout) : elements [node kind span ss] = node kind span ss :: elements ss := by
  unfold elements
  rw [walkAll_singleton]
  exact List.filter_cons_of_pos h

theorem elements_append (ss ss' : List Sprout) :
    elements (ss ++ ss') = elements ss ++ elements ss' := by
  unfold elements
  rw [walkAll_append, List.filter_append]

/-- A node that is not an element and has no attribute anywhere below it. -/
def Bare (s : Sprout) : Prop :=
  s.kind.isElement = false ∧ ∀ s' ∈ walkAll s.inner, s'.kind.use? = none

theorem Bare.uses_inner (h : s.Bare) : uses s.inner = [] :=
  List.filterMap_eq_nil_iff.2 fun s' hs' => h.2 s' (mem_walkAll hs')

theorem elements_eq_nil (h : ∀ s ∈ walkAll ss, s.Bare) : elements ss = [] :=
  List.filter_eq_nil_iff.2 fun s hs => Bool.not_eq_true _ ▸ (h s hs).1

theorem mem_walkAll_content {tokenKind : TokenKind} {text : String} :
    s ∈ walkAll [content kind tokenKind text] ↔
      s = content kind tokenKind text ∨ s = node (.token tokenKind text) none [] := by
  rw [content, walkAll_singleton, walkAll_singleton, List.mem_cons, walkAll, List.mem_singleton]

theorem bare_of_mem_content (hkind : kind.isElement = false) {tokenKind : TokenKind} {text : String}
    (hs : s ∈ walkAll [content kind tokenKind text]) : s.Bare := by
  rcases mem_walkAll_content.1 hs with rfl | rfl
  · refine ⟨hkind, fun s' hs' => ?_⟩
    obtain rfl := List.mem_singleton.1 hs'
    rfl
  · exact ⟨rfl, fun s' hs' => by cases hs'⟩

/-- The value of a property is content. -/
theorem mem_walkAll_ofValue {value : List Node} (hs : s ∈ walkAll (ofValue value)) :
    s.Bare ∧ s.kind.use? = none := by
  have hcontent : ∀ {kind tokenKind text}, kind.isElement = false → kind.use? = none →
      s ∈ walkAll [content kind tokenKind text] → s.Bare ∧ s.kind.use? = none := by
    intro kind tokenKind text hkind huse hs
    refine ⟨bare_of_mem_content hkind hs, ?_⟩
    rcases mem_walkAll_content.1 hs with rfl | rfl
    · exact huse
    · rfl
  unfold ofValue at hs
  split_ifs at hs
  · cases hs
  · exact hcontent rfl rfl hs
  · exact hcontent rfl rfl hs

theorem bare_of_mem_property {name : String} {quoting : Quoting} {value : List Node} {span : Span}
    {helper : TagHelper} (hs : s ∈ walkAll (property name quoting value span helper)) : s.Bare := by
  unfold property at hs
  split at hs
  · cases hs
  · rw [walkAll_singleton, List.mem_cons] at hs
    rcases hs with rfl | hs
    · exact ⟨rfl, fun s' hs' => (mem_walkAll_ofValue hs').2⟩
    · exact (mem_walkAll_ofValue hs).1

theorem bare_of_mem_bound {helpers : List TagHelper} {name : String} {binding : AttributeBinding}
    {value : List Node} {span : Span}
    (hs : s ∈ walkAll (bound helpers name binding value span)) : s.Bare := by
  unfold bound at hs
  split_ifs at hs
  · rw [walkAll_flatMap] at hs
    obtain ⟨helper, -, hs⟩ := List.mem_flatMap.1 hs
    exact bare_of_mem_property hs
  · exact bare_of_mem_content rfl hs

end Sprout

theorem Attribute.bare_of_mem_sprouts {binding : Option ElementBinding} {a : Attribute} {s : Sprout}
    (hs : s ∈ Sprout.walkAll (a.sprouts binding)) : s.Bare := by
  cases binding with
  | none =>
    cases a with
    | misc children span => cases hs
    | _ => exact Sprout.bare_of_mem_content rfl hs
  | some b =>
    cases a with
    | valued head frame value binding span =>
      cases binding with
      | none => cases hs
      | some binding => exact Sprout.bare_of_mem_bound hs
    | minimized head binding span =>
      cases binding with
      | none => cases hs
      | some binding => exact Sprout.bare_of_mem_bound hs
    | misc children span => cases hs

theorem Attribute.bare_of_mem_flatMap {binding : Option ElementBinding}
    {attributes : List Attribute} {s : Sprout}
    (hs : s ∈ Sprout.walkAll (attributes.flatMap (Attribute.sprouts binding))) : s.Bare := by
  rw [Sprout.walkAll_flatMap] at hs
  obtain ⟨a, -, hs⟩ := List.mem_flatMap.1 hs
  exact bare_of_mem_sprouts hs

theorem isElement_shownKind (tagName : String) (binding : Option ElementBinding) :
    (shownKind tagName binding).isElement = true := by
  cases binding with
  | none => rfl
  | some b =>
    rw [shownKind, RenderTree.boundKind]
    split <;> rfl

theorem RenderKind.use?_eq_none_of_isElement {kind : RenderKind} (h : kind.isElement = true) :
    kind.use? = none := by
  cases kind <;> first | rfl | cases h

namespace Node

variable {nodes : List Node}

/-- No attribute grows from a node but below an element. -/
theorem uses_sprouts (node : Node) : Sprout.uses node.sprouts = [] := by
  induction node using induction_inner with
  | step node ih =>
    cases node with
    | text l =>
      rw [sprouts]
      split_ifs <;> rfl
    | block children span =>
      rw [sprouts, sproutsAll_eq_flatMap, Sprout.uses_flatMap]
      exact List.flatMap_eq_nil_iff.2 ih
    | element tag attributes children endTag binding span =>
      rw [sprouts, Sprout.uses, List.filterMap_cons_none, List.filterMap_nil]
      exact RenderKind.use?_eq_none_of_isElement (isElement_shownKind tag.name.text binding)
    | _ => rfl

theorem uses_sproutsAll (nodes : List Node) : Sprout.uses (sproutsAll nodes) = [] := by
  rw [sproutsAll_eq_flatMap, Sprout.uses_flatMap]
  exact List.flatMap_eq_nil_iff.2 fun node _ => node.uses_sprouts

theorem forall₂_elementsAll
    (h : ∀ node ∈ nodes, List.Forall₂ (fun e s => e.sprouts = [s]) node.elements
      (Sprout.elements node.sprouts)) :
    List.Forall₂ (fun e s => e.sprouts = [s]) (elementsAll nodes)
      (Sprout.elements (sproutsAll nodes)) := by
  induction nodes with
  | nil => exact .nil
  | cons node nodes ih =>
    rw [elementsAll, sproutsAll, Sprout.elements_append]
    exact List.rel_append (h node List.mem_cons_self)
      (ih fun n hn => h n (List.mem_cons_of_mem node hn))

/-- All that grows from markup is an element or has no attributes below it. -/
theorem isElement_or_bare {node : Node} {s : Sprout} (hs : s ∈ Sprout.walkAll node.sprouts) :
    s.kind.isElement = true ∨ s.Bare := by
  induction node using induction_inner with
  | step node ih =>
    have hall : s ∈ Sprout.walkAll (sproutsAll node.inner) → s.kind.isElement = true ∨ s.Bare := by
      intro hs
      rw [sproutsAll_eq_flatMap, Sprout.walkAll_flatMap] at hs
      obtain ⟨child, hchild, hs⟩ := List.mem_flatMap.1 hs
      exact ih child hchild hs
    cases node with
    | text l =>
      rw [sprouts] at hs
      split_ifs at hs
      · cases hs
      · exact .inr (Sprout.bare_of_mem_content rfl hs)
    | block children span => exact hall hs
    | element tag attributes children endTag binding span =>
      rw [sprouts, Sprout.walkAll_singleton, Sprout.walkAll_append, List.mem_cons,
        List.mem_append] at hs
      rcases hs with rfl | hs | hs
      · exact .inl (isElement_shownKind tag.name.text binding)
      · exact .inr (Attribute.bare_of_mem_flatMap hs)
      · exact hall hs
    | implicit transition body span => exact .inr (Sprout.bare_of_mem_content rfl hs)
    | explicit d body span => exact .inr (Sprout.bare_of_mem_content rfl hs)
    | _ => cases hs

/-- **What grows from markup has its elements, in order**: each is what grows from one of them. -/
theorem forall₂_elements (node : Node) :
    List.Forall₂ (fun e s => e.sprouts = [s]) node.elements (Sprout.elements node.sprouts) := by
  induction node using induction_inner with
  | step node ih =>
    cases node with
    | text l =>
      rw [sprouts]
      split_ifs <;> exact .nil
    | block children span => exact forall₂_elementsAll ih
    | element tag attributes children endTag binding span =>
      have hattributes : Sprout.elements (attributes.flatMap (Attribute.sprouts binding)) = [] :=
        Sprout.elements_eq_nil fun s hs => Attribute.bare_of_mem_flatMap hs
      have helements :
          Sprout.elements (element tag attributes children endTag binding span).sprouts =
          .node (shownKind tag.name.text binding) none
            (attributes.flatMap (Attribute.sprouts binding) ++ sproutsAll children) ::
          Sprout.elements (sproutsAll children) := by
        rw [sprouts, Sprout.elements_node_of_isElement (isElement_shownKind _ _),
          Sprout.elements_append, hattributes, List.nil_append]
      rw [helements, elements]
      exact .cons rfl (forall₂_elementsAll ih)
    | _ => exact .nil

end Node

/-! ### Elements and their nodes -/

namespace RenderTree

variable {t : RenderTree} {id : NodeId} {kind : RenderKind} {span : Option Span}
  {ss : List Sprout} {s : Sprout} {n : NodeId}

theorem Laid.kind_eq (h : Laid t n s) : t.kind n = s.kind := by
  cases s with
  | node kind span ss => rw [RenderTree.kind, h.node_eq, Sprout.kind]

theorem Laid.uses_eq (h : Laid t n (.node kind span ss)) : t.uses n = Sprout.uses ss := by
  have hkinds : (t.children n).map t.kind = ss.map Sprout.kind := by
    rw [children, h.node_eq]
    refine List.forall₂_eq_eq_eq ▸ ?_
    rw [List.forall₂_map_left_iff, List.forall₂_map_right_iff]
    exact h.laidAll.forall₂_heads.imp fun m s hm => hm.kind_eq
  have huses := congrArg (List.filterMap RenderKind.use?) hkinds
  rw [List.filterMap_map, List.filterMap_map] at huses
  exact huses

/-- Each attached node but the root is laid out from something that grows from the markup. -/
theorem exists_laid {node : Node} (h : id ∈ (ofMarkup node).preorder) :
    id = root ∨ ∃ s ∈ Sprout.walkAll node.sprouts, Laid (ofMarkup node) id s := by
  have hwalk := (shows_ofMarkup node).forall₂_preorder
  rw [Sprout.walk, List.forall₂_cons_right_iff] at hwalk
  obtain ⟨a, ids, -, hids, hpreorder⟩ := hwalk
  have ha : root = a := by
    have hhead := congrArg List.head? hpreorder
    rw [(shows_ofMarkup node).preorder_eq, Sprout.size, List.range'_succ] at hhead
    exact Option.some.inj hhead
  rw [hpreorder, List.mem_cons, ← ha] at h
  exact h.imp_right (exists_of_mem_forall₂ hids)

/-- **Only elements have attributes.** -/
theorem uses_eq_nil {node : Node} (h : id ∈ (ofMarkup node).preorder)
    (hid : id ∉ (ofMarkup node).elementIds) : (ofMarkup node).uses id = [] := by
  rcases exists_laid h with rfl | ⟨s, hs, hlaid⟩
  · rw [(shows_ofMarkup node).laid.uses_eq, node.uses_sprouts]
  · rcases Node.isElement_or_bare hs with helement | hbare
    · refine (hid (List.mem_filter.2 ⟨h, ?_⟩)).elim
      rw [hlaid.kind_eq, helement]
    · cases s with
      | node kind span ss => rw [hlaid.uses_eq, hbare.uses_inner.symm, Sprout.inner]

/-- The elements of the render tree of a document are those that grow from its markup. -/
theorem forall₂_laid_elementIds (node : Node) :
    List.Forall₂ (fun s id => Laid (ofMarkup node) id s) (Sprout.elements node.sprouts)
      (ofMarkup node).elementIds := by
  have hkinds : ∀ id s, Laid (ofMarkup node) id s →
      (((ofMarkup node).kind id).isElement = true ↔ s.kind.isElement = true) := by
    intro id s h
    rw [h.kind_eq]
  exact (List.rel_filter (fun id s => hkinds id s) (shows_ofMarkup node).forall₂_preorder).flip

/-- **Each element of a document has its node in the render tree**, in order, with what its binding
shows and with the uses of its attributes. -/
theorem forall₂_elementIds (node : Node) :
    List.Forall₂ (fun path id => ∀ tag attributes children endTag binding span,
        node.at? path = some (.element tag attributes children endTag binding span) →
        (ofMarkup node).kind id = shownKind tag.name.text binding ∧
        (ofMarkup node).uses id = Sprout.uses (attributes.flatMap (Attribute.sprouts binding)))
      node.elementPlaces (ofMarkup node).elementIds := by
  have hplaces : List.Forall₂ (fun path e => node.at? path = some e) node.elementPlaces
      node.elements := by
    have hmap := node.map_at?_elementPlaces
    rw [← List.forall₂_eq_eq_eq, List.forall₂_map_left_iff, List.forall₂_map_right_iff] at hmap
    exact hmap
  refine (forall₂_comp hplaces
    (forall₂_comp node.forall₂_elements (forall₂_laid_elementIds node))).imp ?_
  rintro path id ⟨e, hat, s, hs, hlaid⟩ tag attributes children endTag binding span hat'
  obtain rfl := Option.some.inj (hat.symm.trans hat')
  obtain rfl : Sprout.node _ _ _ = s := List.head_eq_of_cons_eq hs
  refine ⟨hlaid.kind_eq, ?_⟩
  rw [hlaid.uses_eq, Sprout.uses_append, Node.uses_sproutsAll, List.append_nil]

/-- That a node of the render tree of a bound document shows the element at a place: the element is
not bound in the document `tree`, it stands at the same place of the bound one, and the node has the
kind and the uses of attributes that its binding asks for. -/
def ShowsElement (tree bound : Node) (path : List Nat) (id : NodeId) : Prop :=
  ∃ tag attributes children endTag span attributes' children' binding,
    tree.at? path = some (.element tag attributes children endTag none span) ∧
    bound.at? path = some (.element tag attributes' children' endTag binding span) ∧
    (ofMarkup bound).kind id = shownKind tag.name.text binding ∧
    (ofMarkup bound).uses id = Attribute.shown tag.name.text attributes binding

/-- Each element of a document in which nothing is bound is shown with what binding it comes to. -/
theorem forall₂_showsElement {tree : Node} (h : tree.IsPlain) (binder : Binder) :
    List.Forall₂ (ShowsElement tree (tree.bindTags binder none)) tree.elementPlaces
      (ofMarkup (tree.bindTags binder none)).elementIds := by
  have hids := forall₂_elementIds (tree.bindTags binder none)
  rw [Node.elementPlaces_bindTags] at hids
  refine ((List.forall₂_and_left _ _).2 ⟨fun path hpath => hpath, hids⟩).imp ?_
  rintro path id ⟨hpath, hshown⟩
  obtain ⟨tag, attributes, children, endTag, span, hat, hattributes, binding, children', hat'⟩ :=
    h.at?_bindTags hpath binder none
  obtain ⟨hkind, huses⟩ := hshown _ _ _ _ _ _ hat'
  refine ⟨tag, attributes, children, endTag, span, _, children', _, hat, hat', hkind,
    huses.trans ?_⟩
  cases binding with
  | none => exact Attribute.uses_plain tag.name.text attributes
  | some b => exact Attribute.uses_bindAll hattributes tag.name.text ⟨_, b.helpers⟩

/-- **Each attribute of an element is shown once for each tag helper that binds it.** In the render
tree of a document in which nothing was bound before, the elements are those of the document, in
order. The attributes of each are shown in order, on a bound element those before the first entry
that is rejected: a name that no tag helper of the element resolves as one attribute of the markup,
any other as one property for each tag helper that resolves it, in the order of the tag helpers. No
attribute is shown anywhere else. -/
theorem forall₂_uses_bindElements {tree : Node} (h : tree.IsPlain) (binder : Binder)
    (options : Options) :
    List.Forall₂ (ShowsElement tree (tree.bindElements binder options).1) tree.elementPlaces
      (ofMarkup (tree.bindElements binder options).1).elementIds ∧
    ∀ id ∈ (ofMarkup (tree.bindElements binder options).1).preorder,
      id ∉ (ofMarkup (tree.bindElements binder options).1).elementIds →
      (ofMarkup (tree.bindElements binder options).1).uses id = [] := by
  rw [Node.bindElements_eq]
  exact ⟨forall₂_showsElement h binder, fun _ => uses_eq_nil⟩

end RenderTree

namespace Sample

/-- A tag helper for `input` that binds `value` in any case, and all that starts with `data-`. -/
def lenient : TagHelper where
  place := 0
  descriptor :=
    { kind := .classic, name := "Lenient", assemblyName := "Library"
      rules := [{ tagName := "input" }]
      boundAttributes :=
        [{ name := "value", typeName := "int", indexerPrefix := some "data-" }] }

/-- A tag helper for any tag that binds `value` with a format. -/
def strict : TagHelper where
  place := 1
  descriptor :=
    { kind := .bind, name := "Strict", assemblyName := "Library", caseSensitive := true
      rules := [{ tagName := "*", attributes := [{ name := "value" }] }]
      boundAttributes :=
        [{ name := "value", typeName := "int"
           parameters := [{ name := "format", typeName := "string" }] }] }

/-- An attribute without a value. -/
def flag (name : String) : Attribute :=
  .minimized ⟨some ⟨" ", .stub⟩, ⟨name, .stub⟩⟩ none .stub

/-- The element `<p class><input value VALUE value:format class ! data-x/></p>`. -/
def paragraph : Node :=
  .element (startTag "p" ">") [flag "class"]
    [.block [.element (startTag "input" "/>")
      [flag "value", flag "VALUE", flag "value:format", flag "class",
        .misc [.text ⟨"!", .stub⟩] .stub, flag "data-x"] [] none none .stub] .stub]
    none none .stub

end Sample

namespace RenderTree

/-- The attribute `value` is bound by both tag helpers, `VALUE` and `value:format` by one each and
`class` by none. What follows the stray text is not shown. -/
theorem uses_bindElements_paragraph :
    Sample.paragraph.IsPlain ∧
    (ofMarkup (Sample.paragraph.bindElements
      (.ofHelpers none [Sample.lenient, Sample.strict]) {}).1).elementIds = [1, 4] ∧
    (ofMarkup (Sample.paragraph.bindElements
      (.ofHelpers none [Sample.lenient, Sample.strict]) {}).1).uses 4 =
      ["value", "VALUE", "value:format", "class"].flatMap
        (AttributeUse.ofName [Sample.lenient, Sample.strict]) := by
  have hplain : Sample.paragraph.IsPlain := by decide
  have hids : (ofMarkup (Sample.paragraph.bindElements
      (.ofHelpers none [Sample.lenient, Sample.strict]) {}).1).elementIds = [1, 4] := by
    decide +kernel
  have hplaces : Sample.paragraph.elementPlaces = [[], [0, 0]] := by decide
  have hshown := (forall₂_uses_bindElements hplain
    (.ofHelpers none [Sample.lenient, Sample.strict]) {}).1
  rw [hids, hplaces] at hshown
  cases hshown with
  | cons _ hrest =>
    cases hrest with
    | cons hinput _ =>
      obtain ⟨tag, attributes, children, endTag, span, attributes', children', binding, hat, hat',
        -, huses⟩ := hinput
      cases hat
      have hbinding : binding = some ⟨.selfClosing, [Sample.lenient, Sample.strict]⟩ := by
        cases hat'
        decide +kernel
      rw [huses, hbinding]
      exact ⟨hplain, hids, by decide +kernel⟩

end RenderTree

end TagHelpers
