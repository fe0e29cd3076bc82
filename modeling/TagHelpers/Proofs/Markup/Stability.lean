import TagHelpers.Proofs.Markup.Context

/-!
# Binding once is enough

A tree is settled when the binder gives nothing for any element that binding comes to. The elements
around such an element are not bound either, so each of them is to what is inside it a name and
nothing more (`plain`).

* `Node.settled_bindTags`: a tree is settled after binding.
* `Node.Settled.bindTags_eq`, `Node.Settled.findings_eq`: a settled tree is left as it is, and
  nothing is found in it.
* `bindElements_bindElements`: so a second binding changes nothing and reports nothing, and settled
  trees are the only ones of which this holds the first time.
-/

namespace TagHelpers

/-- What a node has around it when the nearest element is not bound. -/
def plain (name : Option String) : Option Enclosing :=
  name.map (⟨·, false, none⟩)

/-- That nothing in a tree is left to bind, `outer` being the name of the element around it. -/
def Node.Settled (binder : Binder) (outer : Option String) (tree : Node) : Prop :=
  ∀ path tag attributes children endTag span,
    tree.Reaches path (.element tag attributes children endTag none span) →
      binder.bind? tag.name.text (attributes.filterMap Attribute.pair?)
        (((tree.enclosing? path).map (·.tagName)).or outer) false = none

theorem StartTag.binding?_plain (tag : StartTag) (attributes : List Attribute) (binder : Binder)
    (outer : Option String) :
    tag.binding? attributes binder (plain outer) =
      binder.bind? tag.name.text (attributes.filterMap Attribute.pair?) outer false := by
  cases outer <;> rfl

theorem restriction?_plain (options : Options) (outer : Option String) :
    restriction? options (plain outer) = none := by
  unfold restriction?
  cases outer <;> simp [plain]

theorem findingsAll_eq_flatMap (binder : Binder) (options : Options) (outer : Option Enclosing)
    (nodes : List Node) :
    findingsAll binder options outer nodes =
      nodes.flatMap (Node.findings binder options outer) := by
  induction nodes with
  | nil => rfl
  | cons node nodes ih => rw [findingsAll, ih, List.flatMap_cons]

namespace Node

variable {binder : Binder} {options : Options} {outer : Option String} {tree child node : Node}

/-! ### Settled trees -/

theorem Settled.of_mem_inner (h : tree.Settled binder outer) (hopen : tree.isBound = false)
    (hchild : child ∈ tree.inner) :
    child.Settled binder ((tree.frame?.map (·.tagName)).or outer) := by
  intro path tag attributes children endTag span hreach
  obtain ⟨i, hi⟩ := List.mem_iff_getElem?.1 hchild
  have hbind := h (i :: path) tag attributes children endTag span (.step hopen hi hreach)
  rwa [enclosing?_cons hi, Option.map_or, Option.or_assoc] at hbind

theorem Settled.of_other (h : tree.Settled binder outer) (hframe : tree.frame? = none)
    (hchild : child ∈ tree.inner) : child.Settled binder outer := by
  have hinner := h.of_mem_inner (by rw [isBound, hframe]; rfl) hchild
  rwa [hframe] at hinner

theorem Settled.binding?_eq_none {tag : StartTag} {attributes : List Attribute}
    {children : List Node} {endTag : Option EndTag} {span : Span}
    (h : (element tag attributes children endTag none span).Settled binder outer) :
    tag.binding? attributes binder (plain outer) = none := by
  rw [StartTag.binding?_plain]
  exact h [] tag attributes children endTag span (.here _)

theorem Settled.bindTags_eq (h : node.Settled binder outer) :
    node.bindTags binder (plain outer) = node := by
  induction node using induction_open generalizing outer with
  | bound node hbound => exact bindTags_of_isBound hbound
  | other node hframe ih =>
    rw [bindTags_of_frame?_eq_none hframe]
    exact mapInner_eq_self node fun child hchild => ih child hchild (h.of_other hframe hchild)
  | element tag attributes children endTag span ih =>
    rw [bindTags_element h.binding?_eq_none]
    exact mapInner_eq_self (element tag attributes children endTag none span) fun child hchild =>
      ih child hchild (h.of_mem_inner rfl hchild)

theorem findings_of_isBound {outer : Option Enclosing} (h : node.isBound = true) :
    node.findings binder options outer = [] := by
  obtain ⟨tag, attributes, children, endTag, b, span, rfl⟩ := exists_of_isBound h
  rfl

theorem findings_of_frame?_eq_none (h : node.frame? = none) :
    node.findings binder options (plain outer) =
      node.inner.flatMap (findings binder options (plain outer)) := by
  cases node with
  | element tag attributes children endTag binding span => cases h
  | text l => simp [findings, inner, Literal.contentProblem?, restriction?_plain]
  | _ => simp [findings, inner, findingsAll_eq_flatMap]

theorem Settled.findings_eq (h : node.Settled binder outer) :
    node.findings binder options (plain outer) = [] := by
  induction node using induction_open generalizing outer with
  | bound node hbound => exact findings_of_isBound hbound
  | other node hframe ih =>
    rw [findings_of_frame?_eq_none hframe, List.flatMap_eq_nil_iff]
    exact fun child hchild => ih child hchild (h.of_other hframe hchild)
  | element tag attributes children endTag span ih =>
    rw [findings, h.binding?_eq_none, findingsAll_eq_flatMap]
    simp only [StartTag.nestingProblem?, restriction?_plain]
    exact List.flatMap_eq_nil_iff.2 fun child hchild =>
      ih child hchild (h.of_mem_inner rfl hchild)

/-! ### Bound trees -/

/-- An element that comes out of binding without being bound is one that the binder gives nothing
for. -/
theorem binding?_of_bindTags_eq {outer : Option Enclosing} {tag : StartTag}
    {attributes : List Attribute} {children : List Node} {endTag : Option EndTag} {span : Span}
    (h : tree.bindTags binder outer = element tag attributes children endTag none span) :
    tag.binding? attributes binder outer = none := by
  cases hopen : tree.isBound with
  | true =>
    rw [bindTags_of_isBound hopen] at h
    rw [h] at hopen
    cases hopen
  | false =>
    obtain hframe | ⟨tag', attributes', children', endTag', span', rfl⟩ := cases_open hopen
    · rw [bindTags_of_frame?_eq_none hframe] at h
      have := congrArg frame? h
      rw [frame?_mapInner, hframe] at this
      cases this
    · rw [bindTags_element rfl] at h
      injection h with htag hattributes _ _ hbinding _
      rw [Option.map_eq_none_iff] at hbinding
      rw [hbinding] at hattributes
      rw [← htag, ← hattributes]
      exact hbinding

theorem inside_plain (hopen : (tree.bindTags binder (plain outer)).isBound = false) :
    tree.isBound = false ∧
      tree.inside binder (plain outer) = plain ((tree.frame?.map (·.tagName)).or outer) := by
  cases hopen' : tree.isBound with
  | true => rw [bindTags_of_isBound hopen', hopen'] at hopen; cases hopen
  | false =>
    refine ⟨rfl, ?_⟩
    obtain hframe | ⟨tag, attributes, children, endTag, span, rfl⟩ := cases_open hopen'
    · rw [inside_of_frame?_eq_none hframe, hframe]
      rfl
    · rw [bindTags_element rfl] at hopen
      cases hbinding : tag.binding? attributes binder (plain outer) with
      | some b => rw [hbinding] at hopen; cases hopen
      | none => rw [inside, hbinding]; rfl

/-- **A tree is settled after binding.** -/
theorem settled_bindTags (tree : Node) (binder : Binder) (outer : Option String) :
    (tree.bindTags binder (plain outer)).Settled binder outer := by
  intro path
  induction path generalizing tree outer with
  | nil =>
    intro tag attributes children endTag span hreach
    generalize htree : tree.bindTags binder (plain outer) = bound at hreach
    cases hreach
    rw [← StartTag.binding?_plain]
    exact binding?_of_bindTags_eq htree
  | cons i path ih =>
    intro tag attributes children endTag span hreach
    cases hreach with
    | step hopen hchild hreach =>
      obtain ⟨hopen', hinside⟩ := inside_plain hopen
      have hmap := hchild
      rw [inner_bindTags hopen', List.getElem?_map, Option.map_eq_some_iff, hinside] at hmap
      obtain ⟨child, -, rfl⟩ := hmap
      have hbind := ih child _ tag attributes children endTag span hreach
      rwa [enclosing?_cons hchild, Option.map_or, Option.or_assoc, tagName_bindTags hopen']

theorem Settled.bindElements_eq (h : tree.Settled binder none) (options : Options) :
    tree.bindElements binder options = (tree, []) := by
  have htags : tree.bindTags binder none = tree := h.bindTags_eq
  have hfindings : tree.findings binder options none = [] := h.findings_eq
  rw [Node.bindElements_eq, htags, hfindings, report]

end Node

/-- **Binding a tree again changes nothing and reports nothing.** The trees of which this holds the
first time are those in which nothing is left to bind. -/
theorem bindElements_bindElements (tree : Node) (binder : Binder) (options : Options) :
    (tree.bindElements binder options).1.bindElements binder options =
      ((tree.bindElements binder options).1, []) ∧
    (tree.bindElements binder options = (tree, []) ↔ tree.Settled binder none) := by
  have hsettled : (tree.bindElements binder options).1.Settled binder none := by
    rw [Node.bindElements_eq]
    exact tree.settled_bindTags binder none
  refine ⟨hsettled.bindElements_eq options, fun h => ?_, fun h => h.bindElements_eq options⟩
  rwa [h] at hsettled

end TagHelpers
