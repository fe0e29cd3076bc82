import TagHelpers.Proofs.Markup.Stability

/-!
# The visits of a walk

Binding walks through a tree: it visits a node before what is inside it and the nodes inside a node
in their order, and it does not go into elements that are bound already. A visit is a place with the
node that stands there. Visits come in the lexicographic order of their places.

What is found in a tree is found visit by visit, in the context of each place: first what the element
around it says about the node (`Node.childProblem?`), then what there is about its own tag
(`Node.tagFindings`).

* `Node.mem_visits`, `Node.pairwise_visits`: which visits there are, and their order.
* `Node.findings_eq_flatMap_visits`: what is found in a tree.
* `Node.binds_iff`: what the element of a visit gets bound to.
-/

namespace TagHelpers

theorem StartTag.helper_mem_findings {tag : StartTag} {attributes : List Attribute}
    {endTag : Option EndTag} {options : Options} {b : Binding} {h : TagHelper} {span : Span} :
    .helper h span ∈ tag.findings attributes endTag options b ↔
      h ∈ b.helpers ∧ span = tag.name.span := by
  simp [StartTag.findings, eq_comm]

namespace Node

variable {binder : Binder} {options : Options} {outer : Option Enclosing} {tree node : Node}
  {path : List ℕ}

/-! ### Visits -/

mutual

/-- The visits of a walk through a tree. -/
def visits (node : Node) : List (List ℕ × Node) :=
  ([], node) ::
    match node with
    | block nodes _ | implicit _ nodes _ | explicit _ nodes _ | statement _ nodes _ =>
      visitsFrom 0 nodes
    | element _ _ children _ none _ => visitsFrom 0 children
    | element _ _ _ _ (some _) _ | text _ | transition _ | code _ | directive _ => []

/-- The visits of a walk through trees, which stand inside a node from an index on. -/
def visitsFrom (i : ℕ) : List Node → List (List ℕ × Node)
  | [] => []
  | node :: nodes => node.visits.map (fun v => (i :: v.1, v.2)) ++ visitsFrom (i + 1) nodes

end

theorem visits_of_isBound (h : node.isBound = true) : node.visits = [([], node)] := by
  obtain ⟨tag, attributes, children, endTag, b, span, rfl⟩ := exists_of_isBound h
  rfl

theorem visits_of_not_isBound (h : node.isBound = false) :
    node.visits = ([], node) :: visitsFrom 0 node.inner := by
  cases node with
  | element tag attributes children endTag binding span =>
    cases binding with
    | some b => cases h
    | none => rfl
  | _ => rfl

theorem mem_visitsFrom {nodes : List Node} {i : ℕ} {v : List ℕ × Node} :
    v ∈ visitsFrom i nodes ↔
      ∃ j child path, nodes[j]? = some child ∧ (path, v.2) ∈ child.visits ∧
        v.1 = (i + j) :: path := by
  induction nodes generalizing i with
  | nil => simp [visitsFrom]
  | cons node nodes ih =>
    rw [visitsFrom, List.mem_append, ih, List.mem_map]
    constructor
    · rintro (⟨w, hw, rfl⟩ | ⟨j, child, path, hchild, hmem, hpath⟩)
      · exact ⟨0, node, w.1, rfl, hw, rfl⟩
      · refine ⟨j + 1, child, path, hchild, hmem, ?_⟩
        rw [hpath, Nat.add_right_comm, Nat.add_assoc]
    · rintro ⟨j, child, path, hchild, hmem, hpath⟩
      cases j with
      | zero =>
        obtain rfl := Option.some.inj hchild
        exact .inl ⟨(path, v.2), hmem, Prod.ext hpath.symm rfl⟩
      | succ j =>
        refine .inr ⟨j, child, path, hchild, hmem, ?_⟩
        rw [hpath, Nat.add_right_comm, Nat.add_assoc]

/-- **A walk visits the places that do not lie inside a bound element.** -/
theorem mem_visits (tree : Node) (path : List ℕ) (node : Node) :
    (path, node) ∈ tree.visits ↔ tree.Reaches path node := by
  induction tree using induction_inner generalizing path with
  | step tree ih =>
    cases hopen : tree.isBound with
    | true =>
      rw [visits_of_isBound hopen, List.mem_singleton]
      constructor
      · intro h
        obtain ⟨rfl, rfl⟩ := Prod.mk.inj h
        exact .here _
      · intro h
        cases h with
        | here => rfl
        | step hopen' _ _ => rw [hopen] at hopen'; cases hopen'
    | false =>
      rw [visits_of_not_isBound hopen, List.mem_cons, mem_visitsFrom]
      constructor
      · rintro (h | ⟨j, child, path', hchild, hmem, hpath⟩)
        · obtain ⟨rfl, rfl⟩ := Prod.mk.inj h
          exact .here _
        · rw [Nat.zero_add] at hpath
          obtain rfl : path = j :: path' := hpath
          exact .step hopen hchild ((ih child (List.mem_of_getElem? hchild) path').1 hmem)
      · intro h
        cases h with
        | here => exact .inl rfl
        | @step _ child _ i path' _ hchild hreach =>
          refine .inr ⟨i, child, path', hchild, ?_, by rw [Nat.zero_add]⟩
          exact (ih child (List.mem_of_getElem? hchild) path').2 hreach

theorem pairwise_visitsFrom {nodes : List Node}
    (ih : ∀ child ∈ nodes, child.visits.Pairwise fun v w => List.Lex (· < ·) v.1 w.1) (i : ℕ) :
    (visitsFrom i nodes).Pairwise fun v w => List.Lex (· < ·) v.1 w.1 := by
  induction nodes generalizing i with
  | nil => exact .nil
  | cons node nodes ihn =>
    rw [visitsFrom, List.pairwise_append]
    refine ⟨?_, ihn (fun child hc => ih child (List.mem_cons_of_mem node hc)) (i + 1), ?_⟩
    · rw [List.pairwise_map]
      exact (ih node List.mem_cons_self).imp fun h => .cons h
    · -- later places start with a larger index
      intro v hv w hw
      obtain ⟨v', -, rfl⟩ := List.mem_map.1 hv
      obtain ⟨j, -, path, -, -, hpath⟩ := mem_visitsFrom.1 hw
      rw [hpath]
      exact .rel (by omega)

/-- **Visits come in the order of their places.** -/
theorem pairwise_visits (tree : Node) :
    tree.visits.Pairwise fun v w => List.Lex (· < ·) v.1 w.1 := by
  induction tree using induction_inner with
  | step tree ih =>
    cases hopen : tree.isBound with
    | true =>
      rw [visits_of_isBound hopen]
      exact List.pairwise_singleton _ _
    | false =>
      rw [visits_of_not_isBound hopen, List.pairwise_cons]
      refine ⟨fun v hv => ?_, pairwise_visitsFrom ih 0⟩
      -- the place of the tree itself is empty, and no other is
      obtain ⟨j, -, path, -, -, hpath⟩ := mem_visitsFrom.1 hv
      rw [hpath]
      exact .nil

/-! ### What is found on a visit -/

/-- What the element around a node has to say about it. -/
def childProblem? (binder : Binder) (options : Options) (outer : Option Enclosing) :
    Node → Option Diagnostic
  | text l => l.contentProblem? options outer
  | element tag _ _ _ none _ => tag.nestingProblem? binder options outer
  | _ => none

/-- What is found about the tag of an element. -/
def tagFindings (binder : Binder) (options : Options) (outer : Option Enclosing) :
    Node → List Finding
  | element tag attributes _ endTag none _ =>
    (tag.binding? attributes binder outer).elim [] (tag.findings attributes endTag options)
  | _ => []

theorem findings_of_not_isBound (h : node.isBound = false) :
    node.findings binder options outer =
      (node.childProblem? binder options outer).toList.map .problem ++
        node.tagFindings binder options outer ++
          node.inner.flatMap (findings binder options (node.inside binder outer)) := by
  cases node with
  | element tag attributes children endTag binding span =>
    cases binding with
    | some b => cases h
    | none =>
      rw [findings, findingsAll_eq_flatMap, childProblem?, tagFindings, inside, inner]
      cases tag.binding? attributes binder outer <;> rfl
  | text l => simp [findings, childProblem?, tagFindings, inner]
  | _ => simp [findings, childProblem?, tagFindings, inner, inside, findingsAll_eq_flatMap]

theorem childProblem?_of_isBound (h : node.isBound = true) :
    node.childProblem? binder options outer = none := by
  obtain ⟨tag, attributes, children, endTag, b, span, rfl⟩ := exists_of_isBound h
  rfl

theorem tagFindings_of_isBound (h : node.isBound = true) :
    node.tagFindings binder options outer = [] := by
  obtain ⟨tag, attributes, children, endTag, b, span, rfl⟩ := exists_of_isBound h
  rfl

/-- What is said on the visits of what is inside a node, from an index on. -/
theorem flatMap_visitsFrom {α : Type} {f : Option Enclosing → Node → List α} {g : Node → List α}
    {nodes : List Node} {i : ℕ} (hinner : ∀ j, tree.inner[i + j]? = nodes[j]?)
    (ih : ∀ child ∈ nodes, g child = child.visits.flatMap fun v =>
      f (contextAt binder (tree.inside binder outer) child v.1) v.2) :
    (visitsFrom i nodes).flatMap (fun v => f (contextAt binder outer tree v.1) v.2) =
      nodes.flatMap g := by
  induction nodes generalizing i with
  | nil => rfl
  | cons node nodes ihn =>
    have hnode : tree.inner[i]? = some node := hinner 0
    rw [visitsFrom, List.flatMap_append, List.flatMap_map, List.flatMap_cons,
      ihn (getElem?_inner_tail hinner) fun child hc => ih child (List.mem_cons_of_mem node hc),
      ih node List.mem_cons_self]
    simp only [contextAt_cons hnode]

/-- **What is found in a tree is found visit by visit.** -/
theorem findings_eq_flatMap_visits (binder : Binder) (options : Options) (outer : Option Enclosing)
    (tree : Node) :
    tree.findings binder options outer = tree.visits.flatMap fun v =>
      (v.2.childProblem? binder options (contextAt binder outer tree v.1)).toList.map .problem ++
        v.2.tagFindings binder options (contextAt binder outer tree v.1) := by
  induction tree using induction_inner generalizing outer with
  | step tree ih =>
    cases hopen : tree.isBound with
    | true =>
      rw [findings_of_isBound hopen, visits_of_isBound hopen, List.flatMap_singleton,
        childProblem?_of_isBound hopen, tagFindings_of_isBound hopen]
      rfl
    | false =>
      rw [findings_of_not_isBound hopen, visits_of_not_isBound hopen, List.flatMap_cons, contextAt]
      refine congrArg _ (Eq.symm ?_)
      exact flatMap_visitsFrom (f := fun ctx n => (n.childProblem? binder options ctx).toList.map
        .problem ++ n.tagFindings binder options ctx) (fun j => by rw [Nat.zero_add])
        fun child hchild => ih child hchild _

/-! ### What the elements of visits are bound to -/

/-- That the element with a tag at a place is visited and gets bound to a tag helper, `bound` being
the tree after binding. -/
def Binds (tree bound : Node) (path : List ℕ) (tag : StartTag) (h : TagHelper) : Prop :=
  (∃ attributes children endTag span,
    tree.Reaches path (element tag attributes children endTag none span)) ∧
  ∃ attributes children endTag b span,
    bound.at? path = some (element tag attributes children endTag (some b) span) ∧ h ∈ b.helpers

theorem Reaches.at?_eq (h : tree.Reaches path node) : tree.at? path = some node := by
  induction h with
  | here node => rfl
  | step hopen hchild _ ih => rw [at?_cons hchild, ih]

theorem binds_iff {tag : StartTag} {h : TagHelper} :
    tree.Binds (tree.bindTags binder outer) path tag h ↔
      ∃ attributes children endTag span b,
        tree.Reaches path (element tag attributes children endTag none span) ∧
        tag.binding? attributes binder (contextAt binder outer tree path) = some b ∧
        h ∈ b.helpers := by
  constructor
  · rintro ⟨⟨attributes, children, endTag, span, hreach⟩, attributes', children', endTag', b, span',
      hat, hmem⟩
    rw [hreach.at?_bindTags binder outer, bindTags_element rfl] at hat
    injection hat with hat
    injection hat with _ _ _ _ hbinding _
    obtain ⟨b', hb', rfl⟩ := Option.map_eq_some_iff.1 hbinding
    exact ⟨attributes, children, endTag, span, b', hreach, hb', hmem⟩
  · rintro ⟨attributes, children, endTag, span, b, hreach, hbinding, hmem⟩
    have hat := hreach.at?_bindTags binder outer
    rw [bindTags_element hbinding] at hat
    exact ⟨⟨attributes, children, endTag, span, hreach⟩, _, _, _, _, _, hat, hmem⟩

/-- What is found about the tag of an element is about its binding. -/
theorem mem_tagFindings {f : Finding} :
    f ∈ node.tagFindings binder options outer ↔
      ∃ tag attributes children endTag span b,
        node = element tag attributes children endTag none span ∧
        tag.binding? attributes binder outer = some b ∧
        f ∈ tag.findings attributes endTag options b := by
  constructor
  · intro hf
    cases node with
    | element tag attributes children endTag binding span =>
      cases binding with
      | some b => cases hf
      | none =>
        rw [tagFindings] at hf
        cases hbinding : tag.binding? attributes binder outer with
        | none => rw [hbinding] at hf; cases hf
        | some b =>
          rw [hbinding] at hf
          exact ⟨tag, attributes, children, endTag, span, b, rfl, hbinding, hf⟩
    | _ => cases hf
  · rintro ⟨tag, attributes, children, endTag, span, b, rfl, hbinding, hf⟩
    rw [tagFindings, hbinding]
    exact hf

/-- A tag helper is found on a visit if and only if the element there gets bound to it. -/
theorem helper_mem_tagFindings {v : List ℕ × Node} (hv : v ∈ tree.visits) {h : TagHelper}
    {span : Span} :
    .helper h span ∈ v.2.tagFindings binder options (contextAt binder outer tree v.1) ↔
      ∃ tag, tree.Binds (tree.bindTags binder outer) v.1 tag h ∧ span = tag.name.span := by
  have hreach : tree.Reaches v.1 v.2 := (tree.mem_visits v.1 v.2).1 hv
  rw [mem_tagFindings]
  constructor
  · rintro ⟨tag, attributes, children, endTag, s, b, hnode, hbinding, hf⟩
    obtain ⟨hmem, hspan⟩ := StartTag.helper_mem_findings.1 hf
    rw [hnode] at hreach
    exact ⟨tag, binds_iff.2 ⟨attributes, children, endTag, s, b, hreach, hbinding, hmem⟩, hspan⟩
  · rintro ⟨tag, hbinds, hspan⟩
    obtain ⟨attributes, children, endTag, s, b, hreach', hbinding, hmem⟩ := binds_iff.1 hbinds
    have hnode := Option.some.inj (hreach.at?_eq.symm.trans hreach'.at?_eq)
    exact ⟨tag, attributes, children, endTag, s, b, hnode, hbinding,
      StartTag.helper_mem_findings.2 ⟨hmem, hspan⟩⟩

theorem Binds.exists_mem_visits {bound : Node} {tag : StartTag} {h : TagHelper}
    (hbinds : tree.Binds bound path tag h) : ∃ node, (path, node) ∈ tree.visits := by
  obtain ⟨⟨attributes, children, endTag, span, hreach⟩, -⟩ := hbinds
  exact ⟨_, (tree.mem_visits path _).2 hreach⟩

end Node

end TagHelpers
