import TagHelpers.Proofs.RenderTree.References
import TagHelpers.Proofs.RenderTree.Sweep
import TagHelpers.Proofs.RenderTree.Walk

/-!
# Trees with loose nodes

A node that is detached keeps its list of children, also if these are attached elsewhere later on.
So the attached nodes may be a tree where the whole array is none. `AttachedTree` asks for no more
than the first. What is said of trees holds for it all the same: emptying the lists of the loose
nodes makes the whole array a tree, and changes nothing that is attached.

* `IsTree.attachedTree`: all trees are covered.
* `AttachedTree.isTree_trim`: the array without the lists of loose nodes is a tree.
* `preorder_trim`, `references_trim`: it has the same attached nodes and the same references.
* `AttachedTree.references_eq`: references are complete, unique and in the order of the document.
-/

namespace TagHelpers.RenderTree

variable {t t' : RenderTree} {a b c p id : NodeId} {n : ℕ} {r : Reference}

/-- **Tree shape of what is attached.** Among the lists of attached nodes, every name stands in at
most one, there once, and that of the root in none; and all of them are names of nodes. -/
structure AttachedTree (t : RenderTree) : Prop where
  root_lt : root < t.size
  nodup_children : ∀ p, t.Reaches root p → (t.children p).Nodup
  parent_unique : ∀ p q c, t.Reaches root p → t.Reaches root q → c ∈ t.children p →
    c ∈ t.children q → p = q
  root_not_mem : ∀ p, t.Reaches root p → root ∉ t.children p
  child_lt : ∀ p, t.Reaches root p → ∀ c ∈ t.children p, c < t.size

/-! ### The attached nodes -/

/-- A walk comes to all attached nodes if their lists name nodes only. -/
theorem mem_preorder_iff_reaches (hroot : root < t.size)
    (hlt : ∀ p ∈ t.preorder, ∀ c ∈ t.children p, c < t.size) :
    b ∈ t.preorder ↔ t.Reaches root b := by
  refine ⟨mem_below_reaches, fun h => ?_⟩
  induction h with
  | refl => exact mem_subtree_of_reaches (Reaches.refl t root) hroot
  | tail hp hc ih => exact mem_subtree_of_reaches (Reaches.tail hp hc) (hlt _ ih _ hc)

theorem AttachedTree.mem_preorder (ht : t.AttachedTree) : b ∈ t.preorder ↔ t.Reaches root b :=
  mem_preorder_iff_reaches ht.root_lt fun p hp => ht.child_lt p (mem_below_reaches hp)

/-- The shape of a tree can be read off the list of its attached nodes. -/
theorem attachedTree_iff : t.AttachedTree ↔ root < t.size ∧ ∀ p ∈ t.preorder,
    (t.children p).Nodup ∧ root ∉ t.children p ∧ (∀ c ∈ t.children p, c < t.size) ∧
      ∀ q ∈ t.preorder, ∀ c ∈ t.children p, c ∈ t.children q → p = q := by
  constructor
  · intro ht
    refine ⟨ht.root_lt, fun p hp => ?_⟩
    have hp := ht.mem_preorder.1 hp
    exact ⟨ht.nodup_children p hp, ht.root_not_mem p hp, ht.child_lt p hp,
      fun q hq c => ht.parent_unique p q c hp (ht.mem_preorder.1 hq)⟩
  · rintro ⟨hroot, h⟩
    have hmem : ∀ {b}, t.Reaches root b → b ∈ t.preorder :=
      (mem_preorder_iff_reaches hroot fun p hp => (h p hp).2.2.1).2
    exact ⟨hroot, fun p hp => (h p (hmem hp)).1,
      fun p q c hp hq => (h p (hmem hp)).2.2.2 q (hmem hq) c,
      fun p hp => (h p (hmem hp)).2.1, fun p hp => (h p (hmem hp)).2.2.1⟩

instance (t : RenderTree) : Decidable t.AttachedTree :=
  decidable_of_iff _ attachedTree_iff.symm

/-- What is attached of a tree has the shape of one. -/
theorem IsTree.attachedTree (ht : t.IsTree) : t.AttachedTree where
  root_lt := ht.root_lt
  nodup_children p _ := ht.nodup_children p
  parent_unique _ _ _ _ _ hp hq := ht.parent_unique hp hq
  root_not_mem _ _ hc := ht.child_ne_root hc rfl
  child_lt _ _ _ hc := ht.lt_of_child hc

/-! ### Without the lists of loose nodes -/

/-- The tree with the lists of its loose nodes emptied. -/
def trim (t : RenderTree) : RenderTree :=
  ⟨t.nodes.mapIdx fun id n => if id ∈ t.preorder then n else { n with children := [] }⟩

@[simp] theorem size_trim (t : RenderTree) : t.trim.size = t.size := by
  simp [size, trim]

theorem node_trim (t : RenderTree) (id : NodeId) :
    t.trim.node id = if id ∈ t.preorder then t.node id else { t.node id with children := [] } := by
  unfold node trim
  simp only [Array.getD_eq_getD_getElem?, Array.getElem?_mapIdx]
  cases t.nodes[id]? with
  | some n => rfl
  | none => split <;> rfl

theorem node_trim_of_mem (h : id ∈ t.preorder) : t.trim.node id = t.node id := by
  rw [node_trim, if_pos h]

theorem children_trim (t : RenderTree) (id : NodeId) :
    t.trim.children id = if id ∈ t.preorder then t.children id else [] := by
  unfold children
  rw [node_trim]
  split <;> rfl

theorem mem_children_trim : c ∈ t.trim.children p ↔ p ∈ t.preorder ∧ c ∈ t.children p := by
  rw [children_trim]
  split
  · rename_i hp; exact (and_iff_right hp).symm
  · rename_i hp; exact iff_of_false List.not_mem_nil fun h => hp h.1

/-- **Without the lists of loose nodes, the whole array is a tree.** -/
theorem AttachedTree.isTree_trim (ht : t.AttachedTree) : t.trim.IsTree := by
  refine IsTree.of_children (t.size_trim ▸ ht.root_lt) (fun p => ?_) (fun p q c hp hq => ?_)
    (fun p hp => ?_) (fun p c hp => ?_)
  · rw [children_trim]
    split
    · rename_i hp; exact ht.nodup_children p (ht.mem_preorder.1 hp)
    · exact List.nodup_nil
  · obtain ⟨hp, hcp⟩ := mem_children_trim.1 hp
    obtain ⟨hq, hcq⟩ := mem_children_trim.1 hq
    exact ht.parent_unique p q c (ht.mem_preorder.1 hp) (ht.mem_preorder.1 hq) hcp hcq
  · obtain ⟨hp, hc⟩ := mem_children_trim.1 hp
    exact ht.root_not_mem p (ht.mem_preorder.1 hp) hc
  · obtain ⟨hp, hc⟩ := mem_children_trim.1 hp
    rw [size_trim]
    exact ht.child_lt p (ht.mem_preorder.1 hp) c hc

/-- Nothing that is attached changes. -/
theorem AttachedTree.children_trim_eq (ht : t.AttachedTree) (h : t.Reaches root b) :
    t.trim.children b = t.children b := by
  rw [children_trim, if_pos (ht.mem_preorder.2 h)]

theorem AttachedTree.preorder_trim (ht : t.AttachedTree) : t.trim.preorder = t.preorder := by
  unfold preorder subtree
  rw [size_trim]
  exact below_congr fun b hb => ht.children_trim_eq hb

theorem AttachedTree.reaches_trim (ht : t.AttachedTree) :
    t.trim.Reaches root b ↔ t.Reaches root b := by
  rw [← ht.isTree_trim.mem_preorder, ht.preorder_trim, ht.mem_preorder]

theorem AttachedTree.referencesByParent_trim (ht : t.AttachedTree) (f : RenderNode → Bool) :
    t.trim.referencesByParent f = t.referencesByParent f := by
  unfold referencesByParent
  rw [ht.preorder_trim]
  refine List.flatMap_congr fun p hp => ?_
  have hp := ht.mem_preorder.1 hp
  rw [ht.children_trim_eq hp]
  congr 1
  refine List.filter_congr fun c hc => ?_
  rw [node_trim_of_mem (ht.mem_preorder.2 (hp.tail hc))]

theorem AttachedTree.references_trim (ht : t.AttachedTree) (f : RenderNode → Bool) :
    t.trim.references f = t.references f := by
  unfold references places
  rw [ht.preorder_trim, ht.referencesByParent_trim, size_trim]

/-! ### References -/

theorem AttachedTree.mem_references (ht : t.AttachedTree) (f : RenderNode → Bool) :
    r ∈ t.references f ↔
      t.Reaches root r.parent ∧ r.node ∈ t.children r.parent ∧ f (t.node r.node) = true := by
  rw [← ht.references_trim, ht.isTree_trim.mem_references, ht.reaches_trim]
  refine and_congr_right fun hp => ?_
  rw [ht.children_trim_eq hp]
  refine and_congr_right fun hc => ?_
  rw [node_trim_of_mem (ht.mem_preorder.2 (hp.tail hc))]

theorem AttachedTree.map_node_references (ht : t.AttachedTree) (f : RenderNode → Bool) :
    (t.references f).map (·.node) =
      t.preorder.filter fun id => id ≠ root ∧ f (t.node id) = true := by
  rw [← ht.references_trim, ht.isTree_trim.map_node_references, ht.preorder_trim]
  refine List.filter_congr fun id hid => ?_
  rw [node_trim_of_mem hid]

/-- A walk depends on the lists that it passes only, and so does its end. -/
theorem EndsWithin.congr (h : t.EndsWithin n a)
    (hc : ∀ b, t.Reaches a b → t'.children b = t.children b) : t'.EndsWithin n a := by
  induction n generalizing a with
  | zero => exact h
  | succ n ih =>
    intro c hm
    rw [hc a (Reaches.refl t a)] at hm
    exact ih (h c hm) fun b hb => hc b (Reaches.head hm hb)

theorem AttachedTree.endsWithin (ht : t.AttachedTree) : t.EndsWithin t.size root := by
  have hend := ht.isTree_trim.endsWithin (Reaches.refl _ root)
  rw [size_trim] at hend
  refine hend.congr fun b hb => ?_
  exact (ht.children_trim_eq (ht.reaches_trim.1 hb)).symm

/-- Adds the references to the children of a node that satisfy a predicate. -/
def referAt (t : RenderTree) (f : RenderNode → Bool) (found : List Reference) (parent : NodeId) :
    List Reference :=
  found ++ ((t.children parent).filter fun child => f (t.node child)).map (⟨parent, ·⟩)

theorem referencesByParent_eq_foldl (t : RenderTree) (f : RenderNode → Bool) :
    t.referencesByParent f = t.preorder.foldl (t.referAt f) [] :=
  List.flatMap_eq_foldl

/-- **References are complete and in the order of the document.** The loop that goes from parent to
parent comes to an end, and so does the one that gives the nodes their places. No reference that is
found is lost when they are sorted by these places. Then they refer to the attached nodes other than
the root that satisfy the predicate, in the order in which the attached nodes are listed, each once;
and each comes with the one attached node in whose list it stands. -/
theorem AttachedTree.references_eq (ht : t.AttachedTree) (f : RenderNode → Bool) :
    Sweeps (fun _ => t.children) (t.referAt f) [root] [] t.preorder (t.referencesByParent f) ∧
    (∃ next, Sweeps (fun _ => t.children) placeAt [root]
      (Array.replicate t.size t.preorder.length, 0) t.preorder (t.places, next)) ∧
    (t.references f).Perm (t.referencesByParent f) ∧
    (t.references f).map (·.node) =
      (t.preorder.filter fun id => id ≠ root ∧ f (t.node id) = true) ∧
    t.preorder.Nodup ∧ (∀ id, id ∈ t.preorder ↔ t.Reaches root id) ∧
    ∀ r ∈ t.references f, t.Reaches root r.parent ∧ r.node ∈ t.children r.parent ∧
      ∀ p, t.Reaches root p → r.node ∈ t.children p → p = r.parent := by
  have htree := ht.isTree_trim
  have hnd : t.preorder.Nodup := ht.preorder_trim ▸ htree.nodup_preorder
  refine ⟨?_, ⟨_, ht.endsWithin.sweeps_children⟩, ?_, ht.map_node_references f, hnd,
    fun id => ht.mem_preorder, fun r hr => ?_⟩
  · rw [referencesByParent_eq_foldl]
    exact ht.endsWithin.sweeps_children
  · rw [← ht.references_trim, ← ht.referencesByParent_trim]
    refine (List.perm_ext_iff_of_nodup (htree.nodup_references f).of_map
      (htree.nodup_referencesByParent f).of_map).2 fun r => ?_
    rw [htree.mem_references, htree.mem_referencesByParent]
  · obtain ⟨hp, hc, -⟩ := (ht.mem_references f).1 hr
    exact ⟨hp, hc, fun p hp' hc' => ht.parent_unique p r.parent r.node hp' hp hc' hc⟩

/-- A document whose element has been taken away, but for what was in it. -/
def Sample.unwrapped : RenderTree where
  nodes := #[
    { kind := .document, children := [2, 4] },
    { kind := .element "p", children := [2] },
    { kind := .codeExpression, children := [3] },
    { kind := .token .code "x" },
    { kind := .htmlContent, children := [5] },
    { kind := .token .html "y" }]

/-- The same document before, in which the element is attached. -/
def Sample.wrapped : RenderTree where
  nodes := #[
    { kind := .document, children := [1, 4] },
    { kind := .element "p", children := [2] },
    { kind := .codeExpression, children := [3] },
    { kind := .token .code "x" },
    { kind := .htmlContent, children := [5] },
    { kind := .token .html "y" }]

theorem references_unwrapped :
    Sample.unwrapped.AttachedTree ∧ ¬ Sample.unwrapped.IsTree ∧
    (Sample.unwrapped.references fun n => n.children = []).map (·.node) = [3, 5] ∧
    Sample.wrapped.IsTree ∧
    (Sample.wrapped.references fun n => n.children ≠ []).map (·.node) = [1, 2, 4] := by
  have hloose : Sample.unwrapped.AttachedTree := by decide
  have htree : Sample.wrapped.IsTree := by decide
  have hrefs := (AttachedTree.references_eq hloose fun n => n.children = []).2.2.2.1
  have hrefs' := (AttachedTree.references_eq htree.attachedTree fun n => n.children ≠ []).2.2.2.1
  exact ⟨hloose, by decide, hrefs.trans (by decide), htree, hrefs'.trans (by decide)⟩

end TagHelpers.RenderTree
