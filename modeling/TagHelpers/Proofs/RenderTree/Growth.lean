import TagHelpers.Proofs.RenderTree.Tree

/-!
# Trees that grow from the root on

A tree that is built by adding last children only, each with all that is below it before the next
one, has its nodes in the order of a walk from the root. A `Sprout` is such a tree without the names
of its nodes: `Sprout.lay` lists the nodes once the first name is known.

* `Grows`: what is added below a node. `Grows.append` and `Grows.nest` put additions together.
* `Laid.below_eq`: a walk down a laid out tree passes its names in their order.
* `Shows.isTree`: the result is a tree.
* `Shows.forall₂_preorder`: the attached nodes are those of the sprout, one by one.
-/

namespace TagHelpers

/-- A node that is to be added, with what is to be added below it. -/
inductive Sprout where
  | node (kind : RenderKind) (span : Option Span) (inner : List Sprout)

namespace Sprout

variable {s : Sprout} {ss ss' : List Sprout} {n : ℕ}

/-- What the first node of a sprout is. -/
def kind : Sprout → RenderKind
  | node kind _ _ => kind

/-- What grows below the first node. -/
def inner : Sprout → List Sprout
  | node _ _ inner => inner

mutual

/-- The number of nodes. -/
def size : Sprout → ℕ
  | node _ _ inner => sizeAll inner + 1

/-- The number of nodes of several sprouts. -/
def sizeAll : List Sprout → ℕ
  | [] => 0
  | s :: ss => s.size + sizeAll ss

end

/-- The names of the first nodes, if the sprouts are laid out one after another from a name on. -/
def heads (n : NodeId) : List Sprout → List NodeId
  | [] => []
  | s :: ss => n :: heads (n + s.size) ss

mutual

/-- The nodes of a sprout that is laid out from a name on. -/
def lay (n : NodeId) : Sprout → List RenderNode
  | node kind span inner => { kind, span, children := heads (n + 1) inner } :: layAll (n + 1) inner

/-- The nodes of sprouts that are laid out one after another. -/
def layAll (n : NodeId) : List Sprout → List RenderNode
  | [] => []
  | s :: ss => s.lay n ++ layAll (n + s.size) ss

end

mutual

/-- A sprout and all that is below it, each before what is below it. -/
def walk : Sprout → List Sprout
  | node kind span inner => node kind span inner :: walkAll inner

/-- Sprouts and all that is below them. -/
def walkAll : List Sprout → List Sprout
  | [] => []
  | s :: ss => s.walk ++ walkAll ss

end

theorem heads_append (ss ss' : List Sprout) (n : NodeId) :
    heads n (ss ++ ss') = heads n ss ++ heads (n + sizeAll ss) ss' := by
  induction ss generalizing n with
  | nil => rfl
  | cons s ss ih =>
    rw [List.cons_append, heads, ih, heads, sizeAll, List.cons_append, Nat.add_assoc]

theorem layAll_append (ss ss' : List Sprout) (n : NodeId) :
    layAll n (ss ++ ss') = layAll n ss ++ layAll (n + sizeAll ss) ss' := by
  induction ss generalizing n with
  | nil => rfl
  | cons s ss ih =>
    rw [List.cons_append, layAll, ih, layAll, sizeAll, List.append_assoc, Nat.add_assoc]

theorem walkAll_eq_flatMap (ss : List Sprout) : walkAll ss = ss.flatMap walk := by
  induction ss with
  | nil => rfl
  | cons s ss ih => rw [walkAll, ih, List.flatMap_cons]

theorem walkAll_append (ss ss' : List Sprout) :
    walkAll (ss ++ ss') = walkAll ss ++ walkAll ss' := by
  rw [walkAll_eq_flatMap, List.flatMap_append, ← walkAll_eq_flatMap, ← walkAll_eq_flatMap]

theorem walkAll_flatMap {α : Type} (f : α → List Sprout) (as : List α) :
    walkAll (as.flatMap f) = as.flatMap fun a => walkAll (f a) := by
  simp only [walkAll_eq_flatMap, List.flatMap_assoc]

theorem walkAll_singleton (kind : RenderKind) (span : Option Span) (ss : List Sprout) :
    walkAll [node kind span ss] = node kind span ss :: walkAll ss := by
  rw [walkAll, walkAll, List.append_nil, walk]

theorem mem_walkAll (h : s ∈ ss) : s ∈ walkAll ss := by
  rw [walkAll_eq_flatMap]
  refine List.mem_flatMap.2 ⟨s, h, ?_⟩
  cases s
  rw [walk]
  exact List.mem_cons_self

theorem size_pos (s : Sprout) : 0 < s.size := by
  cases s
  rw [size]
  exact Nat.succ_pos _

theorem sizeOf_lt_of_mem_inner (h : s ∈ ss) (kind : RenderKind) (span : Option Span) :
    sizeOf s < sizeOf (node kind span ss) := by
  have := List.sizeOf_lt_of_mem h
  rw [node.sizeOf_spec]
  omega

/-- Induction from what is below a node to the node. -/
@[elab_as_elim]
theorem induction_inner {P : Sprout → Prop}
    (step : ∀ kind span inner, (∀ s ∈ inner, P s) → P (node kind span inner)) (s : Sprout) : P s :=
  match s with
  | node kind span inner => step kind span inner fun s hs =>
    have := sizeOf_lt_of_mem_inner hs kind span
    induction_inner step s
termination_by sizeOf s

theorem length_layAll (h : ∀ s ∈ ss, ∀ n, (s.lay n).length = s.size) (n : NodeId) :
    (layAll n ss).length = sizeAll ss := by
  induction ss generalizing n with
  | nil => rfl
  | cons s ss ih =>
    rw [layAll, List.length_append, h s List.mem_cons_self,
      ih fun s' hs' => h s' (List.mem_cons_of_mem s hs'), sizeAll]

theorem length_lay (s : Sprout) (n : NodeId) : (s.lay n).length = s.size := by
  induction s using induction_inner generalizing n with
  | step kind span inner ih => rw [lay, List.length_cons, length_layAll ih, size]

end Sprout

/-- A node with more children. -/
def RenderNode.addChildren (ids : List NodeId) (n : RenderNode) : RenderNode :=
  { n with children := n.children ++ ids }

namespace RenderTree

open Sprout

variable {t t' t'' : RenderTree} {parent id : NodeId} {s : Sprout} {ss ss' : List Sprout}
  {kind : RenderKind} {span : Option Span} {n depth : ℕ}

/-! ### Adding below a node -/

/-- `t'` is `t` with sprouts added below a node. -/
structure Grows (t t' : RenderTree) (parent : NodeId) (ss : List Sprout) : Prop where
  parent_lt : parent < t.size
  nodes_eq : t'.nodes.toList =
    t.nodes.toList.modify parent (RenderNode.addChildren (heads t.size ss)) ++ layAll t.size ss

theorem size_eq_length (t : RenderTree) : t.size = t.nodes.toList.length := rfl

theorem Grows.size_eq (h : Grows t t' parent ss) : t'.size = t.size + sizeAll ss := by
  rw [size_eq_length, h.nodes_eq, List.length_append, List.length_modify,
    length_layAll fun s _ => s.length_lay]
  rfl

theorem Grows.refl (h : parent < t.size) : Grows t t parent [] := by
  refine ⟨h, ?_⟩
  have hid : RenderNode.addChildren (heads t.size []) = id := by
    funext n
    simp [RenderNode.addChildren, heads]
  rw [hid, List.modify_id, layAll, List.append_nil]

/-- One addition after another. -/
theorem Grows.append (h : Grows t t' parent ss) (h' : Grows t' t'' parent ss') :
    Grows t t'' parent (ss ++ ss') := by
  have hlt : parent < (t.nodes.toList.modify parent
      (RenderNode.addChildren (heads t.size ss))).length := by
    rw [List.length_modify]
    exact h.parent_lt
  have hadd : RenderNode.addChildren (heads t'.size ss') ∘
      RenderNode.addChildren (heads t.size ss) =
      RenderNode.addChildren (heads t.size (ss ++ ss')) := by
    funext n
    simp only [Function.comp_apply, RenderNode.addChildren, heads_append, h.size_eq,
      List.append_assoc]
  refine ⟨h.parent_lt, ?_⟩
  rw [h'.nodes_eq, h.nodes_eq, modify_append_of_lt hlt, List.modify_modify_eq, hadd,
    layAll_append, h.size_eq, List.append_assoc]

@[simp] theorem size_append (t : RenderTree) (parent : NodeId) (n : RenderNode) :
    (t.append parent n).1.size = t.size + 1 := by
  unfold RenderTree.append
  rw [size_update, size_alloc]

theorem lt_size_append (t : RenderTree) (parent : NodeId) (n : RenderNode) :
    t.size < (t.append parent n).1.size := by
  rw [size_append]
  exact Nat.lt_succ_self _

/-- An addition below a node that is added itself. -/
theorem Grows.nest (hparent : parent < t.size)
    (h : Grows (t.append parent { kind, span }).1 t' t.size ss) :
    Grows t t' parent [.node kind span ss] := by
  have happend : (t.append parent { kind, span }).1.nodes.toList =
      t.nodes.toList.modify parent (RenderNode.addChildren [t.size]) ++
        [({ kind, span } : RenderNode)] := by
    simp only [RenderTree.append, update, alloc, Array.toList_modify, Array.toList_push]
    exact modify_append_of_lt hparent _ _
  have hlast :
      (t.nodes.toList.modify parent (RenderNode.addChildren [t.size])).length = t.size := by
    rw [List.length_modify]
    rfl
  refine ⟨hparent, ?_⟩
  rw [h.nodes_eq, size_append, happend, modify_append_of_eq hlast, List.append_assoc]
  simp [heads, layAll, lay, RenderNode.addChildren]

theorem Grows.foldl {α : Type} {f : RenderTree → α → RenderTree} {g : α → List Sprout}
    (h : ∀ t a, parent < t.size → Grows t (f t a) parent (g a)) (as : List α)
    (hparent : parent < t.size) : Grows t (as.foldl f t) parent (as.flatMap g) := by
  induction as generalizing t with
  | nil => exact Grows.refl hparent
  | cons a as ih =>
    have hstep := h t a hparent
    rw [List.foldl_cons, List.flatMap_cons]
    have hlt : parent < (f t a).size := by
      rw [hstep.size_eq]
      exact Nat.lt_add_right _ hparent
    exact hstep.append (ih hlt)

/-! ### Trees that are laid out -/

/-- That the nodes of a sprout stand in a tree from a name on. -/
def Laid (t : RenderTree) (n : NodeId) (s : Sprout) : Prop :=
  ∃ before after, t.nodes.toList = before ++ (s.lay n ++ after) ∧ before.length = n

/-- That the nodes of sprouts stand in a tree from a name on. -/
def LaidAll (t : RenderTree) (n : NodeId) (ss : List Sprout) : Prop :=
  ∃ before after, t.nodes.toList = before ++ (layAll n ss ++ after) ∧ before.length = n

theorem Laid.node_eq (h : Laid t n (.node kind span ss)) :
    t.node n = { kind, span, children := heads (n + 1) ss } := by
  obtain ⟨before, after, hnodes, rfl⟩ := h
  unfold node
  rw [Array.getD_eq_getD_getElem?, ← Array.getElem?_toList, hnodes, lay, List.cons_append,
    List.getElem?_append_right le_rfl, Nat.sub_self]
  rfl

theorem Laid.laidAll (h : Laid t n (.node kind span ss)) : LaidAll t (n + 1) ss := by
  obtain ⟨before, after, hnodes, rfl⟩ := h
  refine ⟨before ++ [{ kind, span, children := heads (before.length + 1) ss }], after, ?_, ?_⟩
  · rw [hnodes, lay, List.cons_append, List.append_assoc, List.singleton_append]
  · rw [List.length_append, List.length_singleton]

theorem LaidAll.head (h : LaidAll t n (s :: ss)) : Laid t n s := by
  obtain ⟨before, after, hnodes, hn⟩ := h
  refine ⟨before, layAll (n + s.size) ss ++ after, ?_, hn⟩
  rw [hnodes, layAll, List.append_assoc]

theorem LaidAll.tail (h : LaidAll t n (s :: ss)) : LaidAll t (n + s.size) ss := by
  obtain ⟨before, after, hnodes, rfl⟩ := h
  refine ⟨before ++ s.lay before.length, after, ?_, ?_⟩
  · rw [hnodes, layAll, List.append_assoc, List.append_assoc]
  · rw [List.length_append, length_lay]

theorem Laid.size_le (h : Laid t n s) : s.size ≤ t.size := by
  obtain ⟨before, after, hnodes, -⟩ := h
  rw [size_eq_length, hnodes, List.length_append, List.length_append, length_lay]
  omega

/-- The children of a laid out node are the first nodes of what is below it. -/
theorem LaidAll.forall₂_heads (h : LaidAll t n ss) :
    List.Forall₂ (Laid t) (heads n ss) ss := by
  induction ss generalizing n with
  | nil => exact .nil
  | cons s ss ih => exact .cons h.head (ih h.tail)

/-- **A walk down a laid out tree passes its names in their order.** -/
theorem Laid.below_eq (h : Laid t n s) (hdepth : s.size ≤ depth) :
    t.below depth n = List.range' n s.size := by
  induction s using induction_inner generalizing n depth with
  | step kind span inner ih =>
    rw [Sprout.size] at hdepth ⊢
    obtain ⟨depth, rfl⟩ : ∃ k, depth = k + 1 := ⟨depth - 1, by omega⟩
    have hinner : ∀ m, LaidAll t m inner → sizeAll inner ≤ depth →
        (heads m inner).flatMap (t.below depth) = List.range' m (sizeAll inner) := by
      intro m hm hle
      clear h hdepth
      induction inner generalizing m with
      | nil => rfl
      | cons s ss ihss =>
        rw [sizeAll] at hle ⊢
        rw [heads, List.flatMap_cons, ih s List.mem_cons_self hm.head (by omega),
          ihss (fun s' hs' => ih s' (List.mem_cons_of_mem s hs')) _ hm.tail (by omega),
          List.range'_append_1]
    rw [below, children, h.node_eq, hinner (n + 1) h.laidAll (by omega), List.range'_succ]

/-- **The nodes of a laid out tree are those of the sprout**, in the order of a walk. -/
theorem Laid.forall₂_walk (h : Laid t n s) :
    List.Forall₂ (Laid t) (List.range' n s.size) s.walk := by
  induction s using induction_inner generalizing n with
  | step kind span inner ih =>
    have hinner : ∀ m, LaidAll t m inner →
        List.Forall₂ (Laid t) (List.range' m (sizeAll inner)) (Sprout.walkAll inner) := by
      intro m hm
      clear h
      induction inner generalizing m with
      | nil => exact .nil
      | cons s ss ihss =>
        rw [sizeAll, Sprout.walkAll, ← List.range'_append_1]
        exact List.rel_append (ih s List.mem_cons_self hm.head)
          (ihss (fun s' hs' => ih s' (List.mem_cons_of_mem s hs')) _ hm.tail)
    rw [Sprout.size, walk, List.range'_succ]
    exact .cons h (hinner (n + 1) h.laidAll)

/-- Every name but the first stands in one list of children. -/
theorem Laid.flatMap_children_perm (h : Laid t n s) :
    (n :: (List.range' n s.size).flatMap t.children).Perm (List.range' n s.size) := by
  induction s using induction_inner generalizing n with
  | step kind span inner ih =>
    -- the children come first, and before each of them comes what is below the ones before
    have hinner : ∀ m, LaidAll t m inner →
        (heads m inner ++ (List.range' m (sizeAll inner)).flatMap t.children).Perm
          (List.range' m (sizeAll inner)) := by
      intro m hm
      clear h
      induction inner generalizing m with
      | nil => exact .nil
      | cons s ss ihss =>
        have hs := ih s List.mem_cons_self hm.head
        have hss := ihss (fun s' hs' => ih s' (List.mem_cons_of_mem s hs')) _ hm.tail
        rw [sizeAll, heads, ← List.range'_append_1, List.flatMap_append]
        refine List.Perm.trans ?_ (hs.append hss)
        rw [List.cons_append, List.cons_append]
        refine List.Perm.cons m ?_
        rw [← List.append_assoc, ← List.append_assoc]
        exact List.perm_append_comm.append_right _
    have hchildren : t.children n = heads (n + 1) inner := by
      rw [children, h.node_eq]
    rw [Sprout.size, List.range'_succ, List.flatMap_cons, hchildren]
    exact (hinner (n + 1) h.laidAll).cons n

/-! ### Whole trees -/

/-- A tree whose nodes are those of a sprout. -/
def Shows (t : RenderTree) (s : Sprout) : Prop :=
  t.nodes.toList = s.lay root

theorem Shows.laid (h : Shows t s) : Laid t root s :=
  ⟨[], [], by rw [List.nil_append, List.append_nil]; exact h, rfl⟩

theorem Shows.size_eq (h : Shows t s) : t.size = s.size := by
  rw [size_eq_length, h, length_lay]

theorem Shows.preorder_eq (h : Shows t s) : t.preorder = List.range' root s.size :=
  h.laid.below_eq h.size_eq.ge

/-- **The attached nodes are those of the sprout, one by one.** -/
theorem Shows.forall₂_preorder (h : Shows t s) : List.Forall₂ (Laid t) t.preorder s.walk := by
  rw [h.preorder_eq]
  exact h.laid.forall₂_walk

/-- **What grows from the root is a tree.** -/
theorem Shows.isTree (h : Shows t s) : t.IsTree := by
  have hids : t.childIds = (List.range' root s.size).flatMap t.children := by
    unfold childIds
    rw [List.range_eq_range', h.size_eq]
    rfl
  have hperm := h.laid.flatMap_children_perm
  rw [← hids] at hperm
  have hnodup : (root :: t.childIds).Nodup := hperm.nodup_iff.2 List.nodup_range'
  rw [List.nodup_cons] at hnodup
  refine ⟨?_, hnodup.2, hnodup.1, fun c hc => ?_⟩
  · rw [h.size_eq]
    exact s.size_pos
  · have hmem := hperm.subset (List.mem_cons_of_mem root hc)
    rw [List.mem_range'_1] at hmem
    have := hmem.2
    rw [h.size_eq]
    simpa [root] using this

/-- What grows from the document shows the document with all that was added to it. -/
theorem Grows.shows (h : Grows empty t root ss) : Shows t (.node .document none ss) := by
  unfold Shows
  rw [h.nodes_eq]
  rfl

end RenderTree

end TagHelpers
