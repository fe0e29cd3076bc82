import TagHelpers.Proofs.RenderTree.Diagnostics

/-!
# The diagnostics of all nodes

A node that is not attached still holds its diagnostics. Counted over all nodes of the array, what
moves diagnostics from one node to another changes nothing, be the nodes attached or not.

* `Reports`: some diagnostics have been created on a node, and others may have been moved there.
* `stock_takeDiagnostics`: what is taken off a node and those below it is what they held.
* `reports_addDiagnostic`, `reports_detachChild`: the two changes that are made while bind
  attributes of one name are resolved.
-/

namespace TagHelpers.RenderTree

variable {t t' t'' : RenderTree} {x id parent : NodeId} {created created' : List Diagnostic}

/-- The diagnostics of all nodes, attached or not. -/
def stock (t : RenderTree) : Multiset Diagnostic := ∑ x ∈ Finset.range t.size, t.bagAt x

/-- `t'` holds the diagnostics of `t` and those that have been created on a node. Of the old ones
some may have been moved to that node, and nothing has been moved to another one. -/
structure Reports (t t' : RenderTree) (parent : NodeId) (created : List Diagnostic) : Prop where
  stock_eq : t'.stock = t.stock + (created : Multiset Diagnostic)
  at_parent : t.bagAt parent + (created : Multiset Diagnostic) ≤ t'.bagAt parent
  elsewhere : ∀ x, x ≠ parent → t'.bagAt x ≤ t.bagAt x

theorem Reports.refl (t : RenderTree) (parent : NodeId) : Reports t t parent [] where
  stock_eq := by simp
  at_parent := by simp
  elsewhere _ _ := le_rfl

theorem Reports.trans (h : Reports t t' parent created) (h' : Reports t' t'' parent created') :
    Reports t t'' parent (created ++ created') where
  stock_eq := by rw [h'.stock_eq, h.stock_eq, ← Multiset.coe_add, add_assoc]
  at_parent := by
    rw [← Multiset.coe_add, ← add_assoc]
    exact (add_le_add_left h.at_parent _).trans h'.at_parent
  elsewhere x hx := (h'.elsewhere x hx).trans (h.elsewhere x hx)

theorem bagAt_of_size_le (h : t.size ≤ x) : t.bagAt x = 0 := by
  unfold bagAt
  rw [node_of_size_le h]
  rfl

/-! ### Adding diagnostics to a node -/

theorem bagAt_update (t : RenderTree) (hp : parent < t.size) (ds : List Diagnostic) (x : NodeId) :
    (t.update parent fun n => { n with diagnostics := n.diagnostics ++ ds }).bagAt x =
      t.bagAt x + if x = parent then (ds : Multiset Diagnostic) else 0 := by
  unfold bagAt
  rw [diagnostics_update]
  by_cases hx : x = parent
  · subst hx
    rw [if_pos ⟨rfl, hp⟩, if_pos rfl, Multiset.coe_add]
  · rw [if_neg fun h => hx h.1.symm, if_neg hx, add_zero]

/-- Diagnostics that are added to a node are added to the stock. -/
theorem stock_update (t : RenderTree) (hp : parent < t.size) (ds : List Diagnostic) :
    (t.update parent fun n => { n with diagnostics := n.diagnostics ++ ds }).stock =
      t.stock + (ds : Multiset Diagnostic) := by
  unfold stock
  rw [size_update, Finset.sum_congr rfl fun x _ => bagAt_update t hp ds x, Finset.sum_add_distrib,
    Finset.sum_ite_eq', if_pos (Finset.mem_range.2 hp)]

theorem reports_addDiagnostic (hp : parent < t.size) (d : Diagnostic) :
    Reports t (t.addDiagnostic parent d) parent [d] where
  stock_eq := stock_update t hp [d]
  at_parent := by
    unfold addDiagnostic
    rw [bagAt_update t hp, if_pos rfl]
  elsewhere x hx := by
    unfold addDiagnostic
    rw [bagAt_update t hp, if_neg hx, add_zero]

/-! ### Taking diagnostics -/

/-- What is taken off a node and those below it, counted node by node. -/
theorem coe_takeDiagnostics_snd (t : RenderTree) (id : NodeId) :
    ((t.takeDiagnostics id).2 : Multiset Diagnostic) =
      ∑ x ∈ (t.subtree id).toFinset, t.bagAt x := by
  have hset : (unique (· == ·) (t.subtree id)).toFinset = (t.subtree id).toFinset := by
    ext x
    simp
  rw [← hset]
  exact coe_flatMap_diagnostics t (nodup_unique _)

theorem bagAt_takeDiagnostics (t : RenderTree) (id x : NodeId) :
    (t.takeDiagnostics id).1.bagAt x = if x ∈ (t.subtree id).toFinset then 0 else t.bagAt x := by
  unfold bagAt
  rw [diagnostics_takeDiagnostics]
  by_cases hx : x ∈ t.subtree id
  · rw [if_pos hx, if_pos (List.mem_toFinset.2 hx)]
    rfl
  · rw [if_neg hx, if_neg fun h => hx (List.mem_toFinset.1 h)]

/-- **What is taken off some nodes is what they held.** -/
theorem stock_takeDiagnostics (t : RenderTree) (id : NodeId) :
    (t.takeDiagnostics id).1.stock + ((t.takeDiagnostics id).2 : Multiset Diagnostic) =
      t.stock := by
  rw [coe_takeDiagnostics_snd]
  set S := (t.subtree id).toFinset
  -- names that no node bears hold nothing
  have htaken : ∑ x ∈ S, t.bagAt x = ∑ x ∈ Finset.range t.size with x ∈ S, t.bagAt x := by
    symm
    refine Finset.sum_subset ?_ ?_
    · intro x hx
      exact (Finset.mem_filter.1 hx).2
    · intro x hx hnot
      refine bagAt_of_size_le ?_
      by_contra hlt
      exact hnot (Finset.mem_filter.2 ⟨Finset.mem_range.2 (not_le.1 hlt), hx⟩)
  have hleft : (t.takeDiagnostics id).1.stock =
      ∑ x ∈ Finset.range t.size with x ∉ S, t.bagAt x := by
    unfold stock
    rw [(sameShape_takeDiagnostics t id).size_eq, Finset.sum_filter]
    refine Finset.sum_congr rfl ?_
    intro x _
    rw [bagAt_takeDiagnostics]
    by_cases hx : x ∈ S
    · rw [if_pos hx, if_neg (not_not.2 hx)]
    · rw [if_neg hx, if_pos hx]
  rw [htaken, hleft, add_comm]
  exact Finset.sum_filter_add_sum_filter_not _ _ _

/-! ### Detaching a child -/

theorem Rechild.bagAt_eq {ids : List NodeId} (h : Rechild t t' parent ids) (x : NodeId) :
    t'.bagAt x = t.bagAt x := by
  unfold bagAt
  rw [h.diagnostics_eq]

theorem Rechild.stock_eq {ids : List NodeId} (h : Rechild t t' parent ids) :
    t'.stock = t.stock := by
  unfold stock
  rw [h.size_eq]
  exact Finset.sum_congr rfl fun x _ => h.bagAt_eq x

/-- What detaching a node does: nothing where it is not a child, and otherwise it is taken off the
list and what is held below it is put on the parent. -/
theorem detachChild_cases (t : RenderTree) (parent id : NodeId) :
    id ∉ t.children parent ∧ (t.detachChild parent id).1 = t ∨
      ∃ t₁, parent < t.size ∧ Rechild t t₁ parent ((t.children parent).erase id) ∧
        (t.detachChild parent id).1 = (t₁.takeDiagnostics id).1.update parent fun n =>
          { n with diagnostics := n.diagnostics ++ (t₁.takeDiagnostics id).2 } := by
  have hrec := rechild_removeChild t parent id
  unfold detachChild
  cases hi : (t.children parent).idxOf? id with
  | none =>
    have hnot : id ∉ t.children parent := List.idxOf?_eq_none_iff.1 hi
    refine .inl ⟨hnot, ?_⟩
    simp [removeChild, hi]
  | some place =>
    have hmem : id ∈ t.children parent := by
      by_contra hnot
      rw [List.idxOf?_eq_none_iff.2 hnot] at hi
      cases hi
    refine .inr ⟨(t.removeChild parent id).1, lt_size_of_mem_children hmem, hrec, ?_⟩
    simp [removeChild, hi]

/-- **Detaching a child creates no diagnostic**, and moves some to the parent at most. -/
theorem reports_detachChild (t : RenderTree) (parent id : NodeId) :
    Reports t (t.detachChild parent id).1 parent [] := by
  rcases detachChild_cases t parent id with ⟨-, heq⟩ | ⟨t₁, hp, hrec, heq⟩
  · rw [heq]
    exact Reports.refl t parent
  · have hp₁ : parent < (t₁.takeDiagnostics id).1.size := by
      rw [(sameShape_takeDiagnostics t₁ id).size_eq, hrec.size_eq]
      exact hp
    rw [heq]
    refine ⟨?_, ?_, ?_⟩
    · rw [stock_update _ hp₁, stock_takeDiagnostics, hrec.stock_eq]
      simp
    · rw [bagAt_update _ hp₁, if_pos rfl, bagAt_takeDiagnostics, coe_takeDiagnostics_snd,
        ← hrec.bagAt_eq parent]
      simp only [Multiset.coe_nil, add_zero]
      -- what the parent held is among what was taken, if it was below its own child
      split
      · rename_i hmem
        rw [zero_add, ← Finset.add_sum_erase _ _ hmem]
        exact Multiset.le_add_right _ _
      · exact Multiset.le_add_right _ _
    · intro x hx
      rw [bagAt_update _ hp₁, if_neg hx, add_zero, bagAt_takeDiagnostics, hrec.bagAt_eq x]
      split
      · exact Multiset.zero_le _
      · exact le_rfl

end TagHelpers.RenderTree
