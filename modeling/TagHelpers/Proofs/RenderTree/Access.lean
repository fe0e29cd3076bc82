import TagHelpers.RenderTree.References
import TagHelpers.Proofs.Listing
import Mathlib.Order.Lattice

/-!
# Nodes after a change

Each operation on a render tree in terms of the nodes that it leaves behind.

* `node_update`, `node_alloc`: the two primitive changes.
* `isBind_congr`, `property?_congr`: what a node is depends on its kind.
* `SameShape`: the trees differ in their diagnostics only, as after `addDiagnostic` and
  `takeDiagnostics`.
* `Rechild`: the trees differ in one list of children only, as after `removeChild`.
-/

namespace TagHelpers.RenderTree

variable {t t' t'' : RenderTree} {id x y parent child : NodeId} {q : Property}

/-! ### The primitive changes -/

@[simp] theorem size_update (t : RenderTree) (id : NodeId) (f : RenderNode → RenderNode) :
    (t.update id f).size = t.size := by
  simp [size, update]

theorem node_update (t : RenderTree) (i j : NodeId) (f : RenderNode → RenderNode) :
    (t.update i f).node j = if i = j ∧ j < t.size then f (t.node j) else t.node j := by
  unfold node update size
  simp only [Array.getD_eq_getD_getElem?, Array.getElem?_modify]
  by_cases h : i = j
  · subst h
    by_cases hi : i < t.nodes.size <;> simp [hi]
  · simp [h]

@[simp] theorem size_alloc (t : RenderTree) (n : RenderNode) : (t.alloc n).1.size = t.size + 1 := by
  simp [size, alloc]

@[simp] theorem alloc_snd (t : RenderTree) (n : RenderNode) : (t.alloc n).2 = t.size := rfl

theorem node_alloc (t : RenderTree) (n : RenderNode) (j : NodeId) :
    (t.alloc n).1.node j = if j = t.size then n else t.node j := by
  unfold node alloc size
  simp only [Array.getD_eq_getD_getElem?, Array.getElem?_push]
  split <;> rfl

theorem node_of_size_le (h : t.size ≤ id) : t.node id = default := by
  unfold node
  rw [Array.getD_eq_getD_getElem?, Array.getElem?_eq_none h]
  rfl

theorem children_of_size_le (h : t.size ≤ id) : t.children id = [] := by
  unfold children
  rw [node_of_size_le h]
  rfl

/-- Only nodes of the array have children. -/
theorem lt_size_of_mem_children (h : child ∈ t.children parent) : parent < t.size := by
  by_contra hc
  rw [children_of_size_le (not_lt.1 hc)] at h
  exact List.not_mem_nil h

/-! ### What a node is -/

theorem property?_congr (h : t'.kind x = t.kind x) :
    (t'.node x).property? = (t.node x).property? := by
  unfold kind at h
  unfold RenderNode.property?
  rw [h]

/-- Whether a node is the use of a bind attribute is decided by its kind. -/
theorem isBind_congr (h : t'.kind x = t.kind x) : (t'.node x).isBind = (t.node x).isBind := by
  unfold RenderNode.isBind
  rw [property?_congr h]

theorem spanOrStub_congr (h : (t'.node x).span = (t.node x).span) :
    (t'.node x).spanOrStub = (t.node x).spanOrStub := by
  unfold RenderNode.spanOrStub
  rw [h]

theorem isBind_of_ne_property (h : ∀ q, t.kind x ≠ .property q) : (t.node x).isBind = false := by
  unfold RenderNode.isBind RenderNode.property?
  split
  · rename_i q hq
    exact absurd hq (h q)
  · rfl

theorem isBind_of_size_le (h : t.size ≤ x) : (t.node x).isBind = false := by
  rw [node_of_size_le h]
  rfl

theorem exists_property (h : (t.node x).isBind = true) : ∃ q, (t.node x).property? = some q := by
  unfold RenderNode.isBind at h
  cases hq : (t.node x).property? with
  | none => rw [hq] at h; cases h
  | some q => exact ⟨q, rfl⟩

theorem kind_of_property? (hq : (t.node x).property? = some q) : t.kind x = .property q := by
  unfold RenderNode.property? at hq
  unfold kind
  split at hq
  · next p hp => rw [hp, Option.some.inj hq]
  · cases hq

theorem property?_of_kind (h : t.kind x = .property q) : (t.node x).property? = some q := by
  unfold kind at h
  unfold RenderNode.property?
  rw [h]

theorem isBind_of_kind (h : t.kind x = .property q) (hq : q.helper.descriptor.isBind = true) :
    (t.node x).isBind = true ∧ (t.node x).property? = some q := by
  have hp := property?_of_kind h
  refine ⟨?_, hp⟩
  unfold RenderNode.isBind
  rw [hp]
  exact hq

theorem ne_of_isBind (h : (t.node x).isBind = false) (h' : (t.node y).isBind = true) : x ≠ y := by
  rintro rfl
  exact Bool.false_ne_true (h.symm.trans h')

/-! ### Trees that differ in their diagnostics -/

/-- Two trees that differ in their diagnostics only. -/
structure SameShape (t t' : RenderTree) : Prop where
  size_eq : t'.size = t.size
  kind_eq : ∀ id, t'.kind id = t.kind id
  span_eq : ∀ id, (t'.node id).span = (t.node id).span
  children_eq : ∀ id, t'.children id = t.children id

theorem SameShape.refl (t : RenderTree) : SameShape t t :=
  ⟨rfl, fun _ => rfl, fun _ => rfl, fun _ => rfl⟩

theorem SameShape.trans (h : SameShape t t') (h' : SameShape t' t'') : SameShape t t'' :=
  ⟨h'.size_eq.trans h.size_eq, fun id => (h'.kind_eq id).trans (h.kind_eq id),
    fun id => (h'.span_eq id).trans (h.span_eq id),
    fun id => (h'.children_eq id).trans (h.children_eq id)⟩

theorem SameShape.below_eq (h : SameShape t t') (n : Nat) (id : NodeId) :
    t'.below n id = t.below n id := by
  induction n generalizing id with
  | zero => rfl
  | succ n ih =>
    rw [below, below, h.children_eq, funext ih]

theorem SameShape.subtree_eq (h : SameShape t t') (id : NodeId) : t'.subtree id = t.subtree id := by
  unfold subtree
  rw [h.size_eq, h.below_eq]

/-- A change of the diagnostics of a node. -/
theorem sameShape_update (t : RenderTree) (id : NodeId) (g : RenderNode → List Diagnostic) :
    SameShape t (t.update id fun n => { n with diagnostics := g n }) := by
  refine ⟨size_update _ _ _, fun j => ?_, fun j => ?_, fun j => ?_⟩
  · unfold kind; rw [node_update]; split <;> rfl
  · rw [node_update]; split <;> rfl
  · unfold children; rw [node_update]; split <;> rfl

theorem sameShape_addDiagnostic (t : RenderTree) (id : NodeId) (d : Diagnostic) :
    SameShape t (t.addDiagnostic id d) :=
  sameShape_update t id fun n => n.diagnostics ++ [d]

theorem diagnostics_update (t : RenderTree) (i j : NodeId) (g : RenderNode → List Diagnostic) :
    ((t.update i fun n => { n with diagnostics := g n }).node j).diagnostics =
      if i = j ∧ j < t.size then g (t.node j) else (t.node j).diagnostics := by
  rw [node_update]
  split <;> rfl

/-! ### Taking diagnostics -/

/-- Clearing the diagnostics of several nodes. -/
theorem clear_nodes (ids : List NodeId) : ∀ t : RenderTree,
    SameShape t (ids.foldl (fun t i => t.update i fun n => { n with diagnostics := [] }) t) ∧
      ∀ j, ((ids.foldl (fun t i => t.update i fun n => { n with diagnostics := [] }) t).node
          j).diagnostics = if j ∈ ids then [] else (t.node j).diagnostics := by
  induction ids with
  | nil => intro t; exact ⟨SameShape.refl t, fun j => by simp⟩
  | cons i ids ih =>
    intro t
    obtain ⟨h1, h2⟩ := ih (t.update i fun n => { n with diagnostics := [] })
    refine ⟨(sameShape_update t i fun _ => []).trans h1, fun j => ?_⟩
    rw [List.foldl_cons, h2 j, diagnostics_update]
    by_cases hij : i = j
    · subst hij
      by_cases hi : i < t.size
      · simp [hi]
      · -- a name that no node bears has no diagnostics to lose
        have hd : (t.node i).diagnostics = [] := by rw [node_of_size_le (not_lt.1 hi)]; rfl
        simp [hi, hd]
    · simp [hij, Ne.symm hij]

theorem sameShape_takeDiagnostics (t : RenderTree) (id : NodeId) :
    SameShape t (t.takeDiagnostics id).1 :=
  (clear_nodes (unique (· == ·) (t.subtree id)) t).1

theorem diagnostics_takeDiagnostics (t : RenderTree) (id j : NodeId) :
    ((t.takeDiagnostics id).1.node j).diagnostics =
      if j ∈ t.subtree id then [] else (t.node j).diagnostics := by
  have h := (clear_nodes (unique (· == ·) (t.subtree id)) t).2 j
  rw [if_congr mem_unique rfl rfl] at h
  exact h

theorem takeDiagnostics_snd (h : (t.subtree id).Nodup) :
    (t.takeDiagnostics id).2 = (t.subtree id).flatMap fun i => (t.node i).diagnostics := by
  unfold takeDiagnostics
  rw [unique_eq_self h]

/-! ### Taking off and replacing a child -/

/-- Two trees that differ in one list of children only. -/
structure Rechild (t t' : RenderTree) (parent : NodeId) (ids : List NodeId) : Prop where
  size_eq : t'.size = t.size
  kind_eq : ∀ id, t'.kind id = t.kind id
  span_eq : ∀ id, (t'.node id).span = (t.node id).span
  diagnostics_eq : ∀ id, (t'.node id).diagnostics = (t.node id).diagnostics
  children_eq : ∀ id, t'.children id = if id = parent then ids else t.children id

/-- A change of the children of a node. -/
theorem rechild_update (g : List NodeId → List NodeId) (h : parent < t.size) :
    Rechild t (t.update parent fun n => { n with children := g n.children }) parent
      (g (t.children parent)) := by
  refine ⟨size_update _ _ _, fun j => ?_, fun j => ?_, fun j => ?_, fun j => ?_⟩
  · unfold kind; rw [node_update]; split <;> rfl
  · rw [node_update]; split <;> rfl
  · rw [node_update]; split <;> rfl
  · unfold children; rw [node_update]
    by_cases hj : j = parent
    · subst hj; simp [h]
    · simp [hj, Ne.symm hj]

theorem rechild_removeChild (t : RenderTree) (parent id : NodeId) :
    Rechild t (t.removeChild parent id).1 parent ((t.children parent).erase id) := by
  have herase := List.erase_eq_eraseIdx (t.children parent) id
  unfold removeChild
  cases hi : (t.children parent).idxOf? id with
  | none =>
    rw [hi] at herase
    refine ⟨rfl, fun _ => rfl, fun _ => rfl, fun _ => rfl, fun j => ?_⟩
    by_cases hj : j = parent
    · rw [if_pos hj, herase, hj]
    · rw [if_neg hj]
  | some place =>
    rw [hi] at herase
    rw [herase]
    have hm : id ∈ t.children parent := by
      by_contra hn
      rw [List.idxOf?_eq_none_iff.2 hn] at hi
      exact absurd hi (by simp)
    exact rechild_update (fun ids => ids.eraseIdx place) (lt_size_of_mem_children hm)

end TagHelpers.RenderTree
