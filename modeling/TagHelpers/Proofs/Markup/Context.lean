import TagHelpers.Proofs.Markup.BoundTree
import TagHelpers.Proofs.Markup.Places

/-!
# Elements in their context

An element is bound in the context that it stands in. All that counts of the context is the name of
the nearest element around it and whether that one is bound too.

* `Node.Reaches.at?_bindTags`: at a place that is not inside a bound element, there stands after
  binding the node that stood there before, bound in the context that `Node.contextAt` gives.
* `Node.Reaches.frame_contextAt`: that context is the nearest element around the place, as it is
  after binding.
* `Node.bindTags_congr`: nothing else of the context matters.
* `at?_bindElements`: hence what a node becomes is decided by itself and by that element, whatever
  the visitor went through before.
-/

namespace TagHelpers

def Enclosing.frame (e : Enclosing) : Frame := ⟨e.tagName, e.isBound⟩

theorem bindTagsAll_eq_map (binder : Binder) (outer : Option Enclosing) (nodes : List Node) :
    bindTagsAll binder outer nodes = nodes.map (Node.bindTags binder outer) := by
  induction nodes with
  | nil => rfl
  | cons node nodes ih => rw [bindTagsAll, ih, List.map_cons]

/-- What an element is bound to depends on the frame around it. -/
theorem StartTag.binding?_eq (tag : StartTag) (attributes : List Attribute) (binder : Binder)
    (outer : Option Enclosing) :
    tag.binding? attributes binder outer =
      binder.bind? tag.name.text (attributes.filterMap Attribute.pair?)
        ((outer.map Enclosing.frame).map (·.tagName))
        ((outer.map Enclosing.frame).any (·.isBound)) := by
  cases outer <;> rfl

namespace Node

variable {binder : Binder} {outer outer' : Option Enclosing} {tree child node : Node} {i : Nat}
  {path : List Nat}

/-- What the nodes inside a node have around them. -/
def inside (binder : Binder) (outer : Option Enclosing) : Node → Option Enclosing
  | element tag attributes _ _ none _ =>
    some (tag.enclosing (tag.binding? attributes binder outer))
  | _ => outer

/-- What the node at a place has around it. -/
def contextAt (binder : Binder) : Option Enclosing → Node → List Nat → Option Enclosing
  | outer, _, [] => outer
  | outer, node, i :: path =>
    node.inner[i]?.elim outer fun child => contextAt binder (node.inside binder outer) child path

theorem contextAt_cons (hchild : tree.inner[i]? = some child) :
    contextAt binder outer tree (i :: path) =
      contextAt binder (tree.inside binder outer) child path := by
  rw [contextAt, hchild, Option.elim_some]

theorem bindTags_of_isBound (h : node.isBound = true) : node.bindTags binder outer = node := by
  obtain ⟨tag, attributes, children, endTag, b, span, rfl⟩ := exists_of_isBound h
  rfl

theorem bindTags_of_frame?_eq_none (h : node.frame? = none) :
    node.bindTags binder outer = node.mapInner (bindTags binder outer) := by
  cases node with
  | element tag attributes children endTag binding span => cases h
  | _ => simp only [bindTags, mapInner, bindTagsAll_eq_map]

theorem inside_of_frame?_eq_none (h : node.frame? = none) : node.inside binder outer = outer := by
  cases node with
  | element tag attributes children endTag binding span => cases h
  | _ => rfl

/-- What binding makes of an element that is not bound yet. -/
theorem bindTags_element {tag : StartTag} {attributes : List Attribute} {binding : Option Binding}
    (hbinding : tag.binding? attributes binder outer = binding) (children : List Node)
    (endTag : Option EndTag) (span : Span) :
    (element tag attributes children endTag none span).bindTags binder outer =
      element tag
        (binding.elim attributes fun b => Attribute.bindAll tag.name.text b.helpers attributes)
        (children.map (bindTags binder (some (tag.enclosing binding)))) endTag
        (binding.map fun b => ⟨b.mode tag.isSelfClosing, b.helpers⟩) span := by
  rw [bindTags, hbinding]
  cases binding <;> simp only [bindTagsAll_eq_map] <;> rfl

/-- What is inside a node that is not bound yet is bound in the context of that node. -/
theorem inner_bindTags (hopen : tree.isBound = false) :
    (tree.bindTags binder outer).inner =
      tree.inner.map (bindTags binder (tree.inside binder outer)) := by
  obtain h | ⟨tag, attributes, children, endTag, span, rfl⟩ := cases_open hopen
  · rw [bindTags_of_frame?_eq_none h, inner_mapInner, inside_of_frame?_eq_none h]
  · rw [bindTags_element rfl]
    rfl

theorem getElem?_inner_bindTags (hopen : tree.isBound = false)
    (hchild : tree.inner[i]? = some child) :
    (tree.bindTags binder outer).inner[i]? =
      some (child.bindTags binder (tree.inside binder outer)) := by
  rw [inner_bindTags hopen, List.getElem?_map, hchild, Option.map_some]

/-- **After binding, there stands at a place the node that stood there, bound in its context.** -/
theorem Reaches.at?_bindTags (h : tree.Reaches path node) (binder : Binder)
    (outer : Option Enclosing) :
    (tree.bindTags binder outer).at? path =
      some (node.bindTags binder (contextAt binder outer tree path)) := by
  induction h generalizing outer with
  | here node => rfl
  | step hopen hchild _ ih =>
    rw [at?_cons (getElem?_inner_bindTags hopen hchild), ih, contextAt_cons hchild]

theorem frame_inside (hopen : tree.isBound = false) :
    (tree.inside binder outer).map Enclosing.frame =
      (tree.bindTags binder outer).frame?.or (outer.map Enclosing.frame) := by
  obtain h | ⟨tag, attributes, children, endTag, span, rfl⟩ := cases_open hopen
  · rw [bindTags_of_frame?_eq_none h, frame?_mapInner, inside_of_frame?_eq_none h, h,
      Option.none_or]
  · rw [bindTags_element rfl, inside]
    cases tag.binding? attributes binder outer <;> rfl

/-- The context of a place is the nearest element around it, as that is after binding. -/
theorem Reaches.frame_contextAt (h : tree.Reaches path node) (binder : Binder)
    (outer : Option Enclosing) :
    (contextAt binder outer tree path).map Enclosing.frame =
      ((tree.bindTags binder outer).enclosing? path).or (outer.map Enclosing.frame) := by
  induction h generalizing outer with
  | here node => rfl
  | step hopen hchild _ ih =>
    rw [contextAt_cons hchild, ih, frame_inside hopen,
      enclosing?_cons (getElem?_inner_bindTags hopen hchild), Option.or_assoc]

theorem tagName_bindTags (hopen : tree.isBound = false) :
    (tree.bindTags binder outer).frame?.map (·.tagName) = tree.frame?.map (·.tagName) := by
  obtain h | ⟨tag, attributes, children, endTag, span, rfl⟩ := cases_open hopen
  · rw [bindTags_of_frame?_eq_none h, frame?_mapInner]
  · rw [bindTags_element rfl]
    rfl

/-- Binding keeps the name of the nearest element around a place. -/
theorem Reaches.tagName_enclosing (h : tree.Reaches path node) (binder : Binder)
    (outer : Option Enclosing) :
    ((tree.bindTags binder outer).enclosing? path).map (·.tagName) =
      (tree.enclosing? path).map (·.tagName) := by
  induction h generalizing outer with
  | here node => rfl
  | step hopen hchild _ ih =>
    rw [enclosing?_cons (getElem?_inner_bindTags hopen hchild), enclosing?_cons hchild,
      Option.map_or, Option.map_or, ih, tagName_bindTags hopen]

/-- Of what is around a node, binding sees the frame only. -/
theorem bindTags_congr (h : outer.map Enclosing.frame = outer'.map Enclosing.frame) (node : Node) :
    node.bindTags binder outer = node.bindTags binder outer' := by
  induction node using induction_open with
  | bound node hbound => rw [bindTags_of_isBound hbound, bindTags_of_isBound hbound]
  | other node hframe ih =>
    rw [bindTags_of_frame?_eq_none hframe, bindTags_of_frame?_eq_none hframe]
    exact mapInner_congr ih
  | element tag attributes children endTag span ih =>
    -- the children have the element itself around them, which is the same on both sides
    have hbinding :
        tag.binding? attributes binder outer = tag.binding? attributes binder outer' := by
      rw [StartTag.binding?_eq, StartTag.binding?_eq, h]
    rw [bindTags_element hbinding, bindTags_element rfl]

end Node

/-- The pairs of a name and a value that the attributes of a tag give: the source of the value, which
is empty where there is none. What stands between attributes gives no pair. -/
inductive Attribute.Pairs : List Attribute → List (String × String) → Prop
  | nil : Pairs [] []
  | valued {head : AttributeHead} {frame : ValueFrame} {value : List Node}
      {binding : Option AttributeBinding} {span : Span} {as : List Attribute}
      {pairs : List (String × String)} (h : Pairs as pairs) :
      Pairs (.valued head frame value binding span :: as)
        ((head.name.text, String.join ((literalsOf value).map (·.text))) :: pairs)
  | minimized {head : AttributeHead} {binding : Option AttributeBinding} {span : Span}
      {as : List Attribute} {pairs : List (String × String)} (h : Pairs as pairs) :
      Pairs (.minimized head binding span :: as) ((head.name.text, "") :: pairs)
  | misc {children : List Node} {span : Span} {as : List Attribute}
      {pairs : List (String × String)} (h : Pairs as pairs) :
      Pairs (.misc children span :: as) pairs

theorem Attribute.pairs_filterMap (as : List Attribute) : Pairs as (as.filterMap pair?) := by
  induction as with
  | nil => exact .nil
  | cons a as ih =>
    cases a with
    | valued head frame value binding span => exact .valued ih
    | minimized head binding span => exact .minimized ih
    | misc children span => exact .misc ih

/-- **What a node becomes is decided by itself and by the nearest element around it.** An element
that binding comes to is bound to what the binder gives for its tag, the pairs of its attributes, the
name of the nearest element around it and whether that one is bound. Where the binder gives nothing,
the element stays one that is not bound. One node at two places, in one tree or in two, becomes the
same wherever the nearest elements have the same name and are both bound or both not. What the
visitor went through before does not matter: whatever its state, the node becomes what that element
makes of it, and that one is the innermost again afterwards. -/
theorem at?_bindElements {tree node : Node} {path : List Nat} (binder : Binder) (options : Options)
    (h : tree.Reaches path node) :
    (∀ tag attributes children endTag span,
      node = .element tag attributes children endTag none span →
      ∃ pairs, Attribute.Pairs attributes pairs ∧ ∀ binding,
        binder.bind? tag.name.text pairs ((tree.enclosing? path).map (·.tagName))
          (((tree.bindElements binder options).1.enclosing? path).any (·.isBound)) = binding →
        ∃ children', (tree.bindElements binder options).1.at? path =
          some (.element tag
            (binding.elim attributes fun b => Attribute.bindAll tag.name.text b.helpers attributes)
            children' endTag (binding.map fun b => ⟨b.mode tag.isSelfClosing, b.helpers⟩) span)) ∧
    (∀ (tree' : Node) (path' : List Nat) (options' : Options), tree'.Reaches path' node →
      (tree'.bindElements binder options').1.enclosing? path' =
        (tree.bindElements binder options).1.enclosing? path →
      ∃ node', (tree.bindElements binder options).1.at? path = some node' ∧
        (tree'.bindElements binder options').1.at? path' = some node') ∧
    ∀ s : Visitor, s.stack.head?.map Enclosing.frame =
        (tree.bindElements binder options).1.enclosing? path →
      (tree.bindElements binder options).1.at? path =
        some ((node.visit binder options).run s).1 ∧
      ((node.visit binder options).run s).2.stack = s.stack := by
  simp only [Node.bindElements_eq]
  have hat := h.at?_bindTags binder none
  have hframe := h.frame_contextAt binder none
  have hname := h.tagName_enclosing binder none
  rw [Option.map_none, Option.or_none] at hframe
  refine ⟨fun tag attributes children endTag span hnode => ?_,
    fun tree' path' options' h' heq => ?_, fun s hs => ?_⟩
  · subst hnode
    refine ⟨_, Attribute.pairs_filterMap attributes, fun binding hbinding => ?_⟩
    rw [← hname, ← hframe, ← StartTag.binding?_eq] at hbinding
    exact ⟨_, hat.trans (congrArg some (Node.bindTags_element hbinding _ _ _))⟩
  · have hat' := h'.at?_bindTags binder none
    have hframe' := h'.frame_contextAt binder none
    rw [Option.map_none, Option.or_none] at hframe'
    have hsame := hframe.trans (heq.symm.trans hframe'.symm)
    exact ⟨_, hat, hat'.trans (congrArg some (Node.bindTags_congr hsame node).symm)⟩
  · obtain ⟨hvisit, hfinds⟩ := node.gives_visit binder options s
    have hsame : node.bindTags binder (Node.contextAt binder none tree path) =
        node.bindTags binder s.stack.head? := Node.bindTags_congr (hframe.trans hs.symm) node
    exact ⟨hat.trans (congrArg some (hsame.trans hvisit.symm)), hfinds.stack_eq⟩

namespace Sample

/-- A tag helper for `ul`. -/
def list : TagHelper where
  place := 0
  descriptor :=
    { kind := .classic, name := "List", assemblyName := "Library", rules := [{ tagName := "ul" }] }

/-- A tag helper for `li` inside `ul` whose `kind` is `x@y`. -/
def item : TagHelper where
  place := 1
  descriptor :=
    { kind := .classic, name := "Item", assemblyName := "Library"
      rules :=
        [{ tagName := "li", parentTag := some "ul"
           attributes := [{ name := "kind", value := some "x@y", valueComparison := .full }] }] }

def startTag (name closing : String) : StartTag :=
  ⟨⟨"<", .stub⟩, ⟨name, .stub⟩, ⟨closing, .stub⟩, .stub⟩

/-- The attribute `kind=x@y`. -/
def kindAttribute : Attribute :=
  .valued ⟨some ⟨" ", .stub⟩, ⟨"kind", .stub⟩⟩ ⟨⟨"=", .stub⟩, none, none⟩
    [.text ⟨"x", .stub⟩, .implicit (some ⟨"@", .stub⟩) [.code ⟨"y", .stub⟩] .stub] none .stub

/-- The element `<li kind=x@y/>`. -/
def entry : Node := .element (startTag "li" "/>") [kindAttribute] [] none none .stub

/-- An element `ul` with an entry, and another one in a block. -/
def entries : Node := .element (startTag "ul" ">") [] [entry, .block [entry] .stub] none none .stub

end Sample

/-- Both entries of a list are bound, since the list is, and in the same way. The visitor makes the
same of an entry wherever the innermost element is a bound `ul`. -/
theorem at?_bindElements_entries :
    Sample.entries.Reaches [0] Sample.entry ∧ Sample.entries.Reaches [1, 0] Sample.entry ∧
    ∃ children,
      (Sample.entries.bindElements (.ofHelpers none [Sample.list, Sample.item]) {}).1.at? [1, 0] =
        some (.element (Sample.startTag "li" "/>")
          (Attribute.bindAll "li" [Sample.item] [Sample.kindAttribute]) children none
          (some ⟨.selfClosing, [Sample.item]⟩) .stub) ∧
      ((Sample.entry.visit (.ofHelpers none [Sample.list, Sample.item]) {}).run
          ⟨[⟨"ul", true, none⟩, ⟨"p", false, none⟩], [Sample.item], []⟩).1 =
        .element (Sample.startTag "li" "/>")
          (Attribute.bindAll "li" [Sample.item] [Sample.kindAttribute]) children none
          (some ⟨.selfClosing, [Sample.item]⟩) .stub := by
  have h : Sample.entries.Reaches [0] Sample.entry := .step rfl rfl (.here _)
  have h' : Sample.entries.Reaches [1, 0] Sample.entry := .step rfl rfl (.step rfl rfl (.here _))
  obtain ⟨hbound, hsame, hvisit⟩ :=
    at?_bindElements (.ofHelpers none [Sample.list, Sample.item]) {} h
  obtain ⟨pairs, hpairs, hbinding⟩ := hbound _ _ _ _ _ rfl
  obtain rfl : pairs = [("kind", "x@y")] := by
    cases hpairs with
    | valued hrest =>
      cases hrest
      decide
  obtain ⟨children, hat⟩ := hbinding
    (some ⟨"li", some "ul", none, [⟨Sample.item, Sample.item.descriptor.rules⟩]⟩) (by decide)
  obtain ⟨node, hnode, hnode'⟩ := hsame Sample.entries [1, 0] {} h' (by decide)
  have hrun := hvisit ⟨[⟨"ul", true, none⟩, ⟨"p", false, none⟩], [Sample.item], []⟩ (by decide)
  exact ⟨h, h', children, hnode'.trans (hnode.symm.trans hat),
    Option.some.inj (hrun.1.symm.trans hat)⟩

end TagHelpers
