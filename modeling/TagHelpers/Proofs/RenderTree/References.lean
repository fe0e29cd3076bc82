import TagHelpers.Proofs.RenderTree.Tree

/-!
# References of a tree

In a tree every attached node other than the root has one parent, so it is referred to once. The
places that references are sorted by grow along the order of the document, so sorting the references
lists them along it.

* `pairwise_placeAt`: nodes that are given places one after another are in the order of these.
* `sortByPlace_eq_listAlong`: sorting is listing, along nodes that are in the order of their places.
* `IsTree.references_eq_listAlong`: so the references of a tree are listed node by node.
* `IsTree.mem_references`: the references are the attached children that satisfy the predicate.
* `IsTree.map_node_references`: they are in the order of the document.
* `IsTree.filter_parent_references`: those of one parent are in the order of its children.
-/

namespace TagHelpers.RenderTree

variable {t : RenderTree} {p c id : NodeId} {r : Reference}

/-! ### Places -/

theorem getD_placeAt (s : Array ℕ × ℕ) (id x : NodeId) :
    (placeAt s id).1.getD x 0 = if x = id ∧ id < s.1.size then s.2 else s.1.getD x 0 := by
  simp only [placeAt, Array.getD_eq_getD_getElem?, Array.getElem?_setIfInBounds]
  split_ifs <;> simp_all

@[simp] theorem size_placeAt (s : Array ℕ × ℕ) (id : NodeId) :
    (placeAt s id).1.size = s.1.size :=
  Array.size_setIfInBounds

theorem getD_foldl_placeAt_of_not_mem {ids : List NodeId} {x : NodeId} (hx : x ∉ ids)
    (s : Array ℕ × ℕ) : (ids.foldl placeAt s).1.getD x 0 = s.1.getD x 0 := by
  induction ids generalizing s with
  | nil => rfl
  | cons id ids ih =>
    obtain ⟨hne, hx⟩ := List.ne_and_not_mem_of_not_mem_cons hx
    rw [List.foldl_cons, ih hx, getD_placeAt, if_neg fun h => hne h.1]

/-- Nodes that are given places one after another get places from the next one on, and are in the
order of their places. -/
theorem pairwise_placeAt {ids : List NodeId} (hnd : ids.Nodup) {s : Array ℕ × ℕ}
    (hlt : ∀ id ∈ ids, id < s.1.size) :
    (∀ id ∈ ids, s.2 ≤ (ids.foldl placeAt s).1.getD id 0) ∧
      ids.Pairwise fun a b =>
        (ids.foldl placeAt s).1.getD a 0 < (ids.foldl placeAt s).1.getD b 0 := by
  induction ids generalizing s with
  | nil => exact ⟨List.forall_mem_nil _, .nil⟩
  | cons id ids ih =>
    obtain ⟨hid, hnd⟩ := List.nodup_cons.1 hnd
    obtain ⟨hsize, hlt⟩ := List.forall_mem_cons.1 hlt
    obtain ⟨hle, hpairwise⟩ := ih hnd (s := placeAt s id) (by simpa using hlt)
    have hself : (ids.foldl placeAt (placeAt s id)).1.getD id 0 = s.2 := by
      rw [getD_foldl_placeAt_of_not_mem hid, getD_placeAt, if_pos ⟨rfl, hsize⟩]
    have hnext : (placeAt s id).2 = s.2 + 1 := rfl
    rw [List.foldl_cons]
    refine ⟨List.forall_mem_cons.2 ⟨hself.ge, fun x hx => ?_⟩,
      List.pairwise_cons.2 ⟨fun x hx => ?_, hpairwise⟩⟩
    · have := hle x hx
      omega
    · have := hle x hx
      omega

/-! ### Sorting -/

variable {places : Array ℕ} {rs rs' : List Reference}

theorem insertByPlace_of_le (h : ∀ r' ∈ rs, places.getD r.node 0 ≤ places.getD r'.node 0) :
    insertByPlace places r rs = r :: rs := by
  cases rs with
  | nil => rfl
  | cons r' rs => rw [insertByPlace, if_pos (h r' List.mem_cons_self)]

theorem insertByPlace_append (h : ∀ r' ∈ rs, places.getD r'.node 0 < places.getD r.node 0) :
    insertByPlace places r (rs ++ rs') = rs ++ insertByPlace places r rs' := by
  induction rs with
  | nil => rfl
  | cons r' rs ih =>
    obtain ⟨hr', hrs⟩ := List.forall_mem_cons.1 h
    rw [List.cons_append, insertByPlace, if_neg (Nat.not_le.2 hr'), ih hrs, List.cons_append]

/-- The references of a list, node by node. -/
def listAlong (ids : List NodeId) (rs : List Reference) : List Reference :=
  ids.flatMap fun id => rs.filter (·.node == id)

theorem insertByPlace_listAlong {ids : List NodeId}
    (hids : ids.Pairwise fun a b => places.getD a 0 < places.getD b 0) (hr : r.node ∈ ids) :
    insertByPlace places r (listAlong ids rs) = listAlong ids (r :: rs) := by
  induction ids with
  | nil => cases hr
  | cons id ids ih =>
    obtain ⟨hid, hids⟩ := List.pairwise_cons.1 hids
    have hnode : ∀ r' ∈ rs.filter (·.node == id), r'.node = id := by
      intro r' hr'
      simpa using (List.mem_filter.1 hr').2
    rw [listAlong, listAlong, List.flatMap_cons, List.flatMap_cons]
    by_cases heq : r.node = id
    · -- its node comes first and only once, so it goes to the front
      have hrest : listAlong ids (r :: rs) = listAlong ids rs := by
        refine List.flatMap_congr fun id' hid' => List.filter_cons_of_neg ?_
        have hlt := hid id' hid'
        simp only [heq, beq_iff_eq]
        rintro rfl
        exact lt_irrefl _ hlt
      have hle : ∀ r' ∈ rs.filter (·.node == id) ++ listAlong ids rs,
          places.getD r.node 0 ≤ places.getD r'.node 0 := by
        intro r' hr'
        rw [heq]
        rcases List.mem_append.1 hr' with hr' | hr'
        · rw [hnode r' hr']
        · obtain ⟨id', hid', hr'⟩ := List.mem_flatMap.1 hr'
          obtain rfl : r'.node = id' := by simpa using (List.mem_filter.1 hr').2
          exact (hid _ hid').le
      rw [List.filter_cons_of_pos (by simpa using heq), List.cons_append]
      exact (insertByPlace_of_le hle).trans (by rw [← hrest]; rfl)
    · have hmem : r.node ∈ ids := (List.mem_cons.1 hr).resolve_left heq
      rw [insertByPlace_append fun r' hr' => hnode r' hr' ▸ hid _ hmem,
        List.filter_cons_of_neg (by simpa using heq)]
      exact congrArg _ (ih hids hmem)

/-- **Sorting is listing**, along nodes that are in the order of their places. -/
theorem sortByPlace_eq_listAlong {ids : List NodeId}
    (hids : ids.Pairwise fun a b => places.getD a 0 < places.getD b 0)
    (hrs : ∀ r ∈ rs, r.node ∈ ids) : sortByPlace places rs = listAlong ids rs := by
  induction rs with
  | nil => simp [sortByPlace, listAlong]
  | cons r rs ih =>
    obtain ⟨hr, hrs⟩ := List.forall_mem_cons.1 hrs
    rw [← insertByPlace_listAlong hids hr, ← ih hrs]
    rfl

/-! ### References -/

theorem IsTree.mem_referencesByParent (ht : t.IsTree) (f : RenderNode → Bool) :
    r ∈ t.referencesByParent f ↔
      t.Reaches root r.parent ∧ r.node ∈ t.children r.parent ∧ f (t.node r.node) = true := by
  unfold referencesByParent
  rw [List.mem_flatMap]
  constructor
  · rintro ⟨p, hp, hr⟩
    obtain ⟨c, hc, rfl⟩ := List.mem_map.1 hr
    exact ⟨ht.mem_preorder.1 hp, (List.mem_filter.1 hc).1, (List.mem_filter.1 hc).2⟩
  · rintro ⟨hp, hc, hf⟩
    exact ⟨r.parent, ht.mem_preorder.2 hp,
      List.mem_map.2 ⟨r.node, List.mem_filter.2 ⟨hc, hf⟩, rfl⟩⟩

/-- The places of the attached nodes grow along the order of the document. -/
theorem IsTree.pairwise_places (ht : t.IsTree) :
    t.preorder.Pairwise fun a b => t.places.getD a 0 < t.places.getD b 0 := by
  refine (pairwise_placeAt ht.nodup_preorder fun id hid => ?_).2
  rw [Array.size_replicate]
  exact ht.lt_size_of_attached (ht.mem_preorder.1 hid)

/-- **Sorted references are listed along the order of the document.** -/
theorem IsTree.references_eq_listAlong (ht : t.IsTree) (f : RenderNode → Bool) :
    t.references f = listAlong t.preorder (t.referencesByParent f) := by
  refine sortByPlace_eq_listAlong ht.pairwise_places fun r hr => ?_
  obtain ⟨hp, hc, -⟩ := (ht.mem_referencesByParent f).1 hr
  exact ht.mem_preorder.2 (hp.tail hc)

/-- **The references are the attached children that satisfy the predicate.** -/
theorem IsTree.mem_references (ht : t.IsTree) (f : RenderNode → Bool) :
    r ∈ t.references f ↔
      t.Reaches root r.parent ∧ r.node ∈ t.children r.parent ∧ f (t.node r.node) = true := by
  rw [← ht.mem_referencesByParent f, ht.references_eq_listAlong, listAlong, List.mem_flatMap]
  constructor
  · rintro ⟨id, -, hr⟩
    exact (List.mem_filter.1 hr).1
  · intro hr
    have h := (ht.mem_referencesByParent f).1 hr
    exact ⟨r.node, ht.mem_preorder.2 (h.1.tail h.2.1), List.mem_filter.2 ⟨hr, beq_self_eq_true _⟩⟩

theorem IsTree.nodup_referencesByParent (ht : t.IsTree) (f : RenderNode → Bool) :
    ((t.referencesByParent f).map (·.node)).Nodup := by
  unfold referencesByParent
  rw [List.map_flatMap]
  refine List.nodup_flatMap.2 ⟨fun p _ => ?_, ?_⟩
  · rw [List.map_map]
    exact (List.map_id _).symm ▸ (ht.nodup_children p).filter _
  · refine ht.nodup_preorder.imp_of_mem ?_
    intro p q _ _ hne c hp hq
    simp only [List.map_map, List.mem_map, List.mem_filter, Function.comp_apply] at hp hq
    obtain ⟨c', ⟨hp, -⟩, rfl⟩ := hp
    obtain ⟨c'', ⟨hq, -⟩, rfl⟩ := hq
    exact hne (ht.parent_unique hp hq)

/-- A node is referred to once, if it is a child that satisfies the predicate. -/
theorem IsTree.map_node_filter_referencesByParent (ht : t.IsTree) (f : RenderNode → Bool)
    (hid : t.Reaches root id) :
    ((t.referencesByParent f).filter (·.node == id)).map (·.node) =
      if id ≠ root ∧ f (t.node id) = true then [id] else [] := by
  have hcomp := List.filter_map (l := t.referencesByParent f) (p := (· == id)) (f := (·.node))
  rw [show ((· == id) ∘ fun r : Reference => r.node) = fun r => r.node == id from rfl] at hcomp
  -- no node is referred to twice, so what is left is one reference or none
  rw [← hcomp, List.filter_beq]
  split
  · rename_i h
    rcases hid.cases_parent with he | ⟨p, hp, hc⟩
    · exact absurd he h.1
    · rw [List.count_eq_one_of_mem (ht.nodup_referencesByParent f)]
      · rfl
      · exact List.mem_map.2 ⟨⟨p, id⟩, (ht.mem_referencesByParent f).2 ⟨hp, hc, h.2⟩, rfl⟩
  · rename_i h
    rw [List.count_eq_zero_of_not_mem]
    · rfl
    · intro hm
      obtain ⟨r, hr, rfl⟩ := List.mem_map.1 hm
      obtain ⟨-, hc, hf⟩ := (ht.mem_referencesByParent f).1 hr
      exact h ⟨ht.child_ne_root hc, hf⟩

/-- **References are in the order of the document.** -/
theorem IsTree.map_node_references (ht : t.IsTree) (f : RenderNode → Bool) :
    (t.references f).map (·.node) =
      t.preorder.filter fun id => id ≠ root ∧ f (t.node id) = true := by
  rw [ht.references_eq_listAlong, listAlong, List.map_flatMap]
  rw [List.flatMap_congr fun id hid =>
    ht.map_node_filter_referencesByParent f (ht.mem_preorder.1 hid)]
  induction t.preorder with
  | nil => rfl
  | cons id ids ih => rw [List.flatMap_cons, ih, List.filter_cons]; split <;> simp_all

theorem IsTree.nodup_references (ht : t.IsTree) (f : RenderNode → Bool) :
    ((t.references f).map (·.node)).Nodup := by
  rw [ht.map_node_references f]
  exact ht.nodup_preorder.filter _

/-- **The references of one parent are in the order of its children.** -/
theorem IsTree.filter_parent_references (ht : t.IsTree) (f : RenderNode → Bool)
    (hp : t.Reaches root p) :
    (t.references f).filter (·.parent == p) =
      ((t.children p).filter fun c => f (t.node c)).map fun c => ⟨p, c⟩ := by
  have hnodes : ((t.references f).filter (·.parent == p)).map (·.node) =
      (t.children p).filter fun c => f (t.node c) := by
    calc ((t.references f).filter (·.parent == p)).map (·.node)
        = ((t.references f).filter ((· ∈ t.children p) ∘ (·.node))).map (·.node) := by
          congr 1
          refine List.filter_congr fun r hr => ?_
          obtain ⟨-, hc, -⟩ := (ht.mem_references f).1 hr
          rw [Bool.eq_iff_iff]
          simp only [beq_iff_eq, Function.comp_apply, decide_eq_true_eq]
          exact ⟨fun h => h ▸ hc, fun h => ht.parent_unique hc h⟩
      _ = (t.preorder.filter (· ∈ t.children p)).filter
            fun c => c ≠ root ∧ f (t.node c) = true := by
          rw [← List.filter_map, ht.map_node_references f, List.filter_filter, List.filter_filter]
          simp only [Bool.and_comm]
      _ = (t.children p).filter fun c => f (t.node c) := by
          rw [filter_mem_sublist (ht.children_sublist_preorder hp) ht.nodup_preorder]
          refine List.filter_congr fun c hc => ?_
          simp [ht.child_ne_root hc]
  -- as the parent is the same for all, the nodes are all that there is to compare
  rw [← hnodes, List.map_map]
  conv_lhs => rw [← List.map_id ((t.references f).filter (·.parent == p))]
  refine List.map_congr_left fun r hr => ?_
  have hrp : r.parent = p := by simpa using (List.mem_filter.1 hr).2
  rw [← hrp]
  rfl

end TagHelpers.RenderTree
