import TagHelpers.Proofs.RenderTree.Splice
import TagHelpers.Proofs.RenderTree.Sweep

/-!
# Trees that are edited

The operations on a tree check nothing: they take the names of nodes as they come, and a name put in
the wrong list would make a node its own descendant. What keeps a tree a tree is that nodes are
attached below older nodes only, and only where they are not attached already. `Edit` is an
operation that is used in this way.

* `Edit.exists_relists`: an operation changes one list of children at most, and says what it puts
  there.
* `Ascends`: a tree in which every child is younger than its parent. `Edited.ascends`: editing leads
  from the empty tree to such trees only.
* `Ascends.endsWithin`, `Ascends.nodup_subtree`: there a walk down ends and passes no node twice, be
  its start attached or not.
-/

namespace TagHelpers.RenderTree

variable {t t' : RenderTree} {a b c p id parent : NodeId} {ids : List NodeId}

/-! ### Operations -/

/-- **An operation on a tree**, which is used as it should be: nodes are added without children and
below nodes that there are; and what is put in the place of a node are different nodes, younger than
the parent, that stand in no list of children. -/
inductive Edit (t : RenderTree) : RenderTree → Prop
  | alloc {n : RenderNode} : n.children = [] → Edit t (t.alloc n).1
  | append {parent : NodeId} {n : RenderNode} : parent < t.size → n.children = [] →
    Edit t (t.append parent n).1
  | addChild {parent : NodeId} (kind : RenderKind) : parent < t.size →
    Edit t (t.addChild parent kind).1
  | addToken {parent : NodeId} (kind : TokenKind) (content : String) : parent < t.size →
    Edit t (t.addToken parent kind content).1
  | addDiagnostic (id : NodeId) (d : Diagnostic) : Edit t (t.addDiagnostic id d)
  | takeDiagnostics (id : NodeId) : Edit t (t.takeDiagnostics id).1
  | removeChild (parent id : NodeId) : Edit t (t.removeChild parent id).1
  | detachChild (parent id : NodeId) : Edit t (t.detachChild parent id).1
  | replaceChild {parent id : NodeId} {ids : List NodeId} : ids.Nodup →
    (∀ x ∈ ids, parent < x ∧ x < t.size ∧ x ≠ id ∧ ∀ p, x ∉ t.children p) →
    Edit t (t.replaceChild parent id ids).1

/-- A tree that operations lead to, one after another, from the tree of a document alone. -/
def Edited (t : RenderTree) : Prop :=
  Relation.ReflTransGen Edit empty t

/-- **A tree in which children are younger than their parents.** -/
structure Ascends (t : RenderTree) : Prop extends t.IsTree where
  lt_child : ∀ p, ∀ c ∈ t.children p, p < c

theorem ascends_empty : empty.Ascends where
  toIsTree := by decide
  lt_child p c hc := by
    have hp : p = 0 := Nat.lt_one_iff.1 (lt_size_of_mem_children hc)
    subst hp
    exact absurd hc List.not_mem_nil

/-! ### What an operation does to the lists of children -/

/-- `t'` has other children in one list: some that were there, in any order, and some that are
younger than the parent and stood in no list. -/
structure Relists (t t' : RenderTree) (parent : NodeId) (ids : List NodeId) : Prop where
  size_le : t.size ≤ t'.size
  children_eq : ∀ p, t'.children p = if p = parent then ids else t.children p
  nodup : ids.Nodup
  mem : ∀ c ∈ ids, c ∈ t.children parent ∨ (parent < c ∧ c < t'.size ∧ ∀ p, c ∉ t.children p)

theorem Relists.mem_children (h : Relists t t' parent ids) (hc : c ∈ t'.children p) :
    c ∈ t.children p ∨ (p = parent ∧ p < c ∧ c < t'.size ∧ ∀ q, c ∉ t.children q) := by
  rw [h.children_eq] at hc
  split at hc
  · rename_i hp
    subst hp
    exact (h.mem c hc).imp_right fun hnew => ⟨rfl, hnew⟩
  · exact .inl hc

theorem Relists.nodup_children (h : Relists t t' parent ids) (ht : t.IsTree) (p : NodeId) :
    (t'.children p).Nodup := by
  rw [h.children_eq]
  split
  · exact h.nodup
  · exact ht.nodup_children p

theorem Relists.isTree (h : Relists t t' parent ids) (ht : t.IsTree) : t'.IsTree := by
  refine IsTree.of_children (ht.root_lt.trans_le h.size_le) (h.nodup_children ht)
    (fun p q c hp hq => ?_) (fun p hp => ?_) (fun p c hp => ?_)
  · rcases h.mem_children hp with hp | ⟨rfl, -, -, hp⟩
    · rcases h.mem_children hq with hq | ⟨-, -, -, hq⟩
      · exact ht.parent_unique hp hq
      · exact absurd hp (hq p)
    · rcases h.mem_children hq with hq | ⟨rfl, -⟩
      · exact absurd hq (hp q)
      · rfl
  · rcases h.mem_children hp with hp | ⟨-, hlt, -⟩
    · exact ht.child_ne_root hp rfl
    · exact Nat.not_lt_zero p hlt
  · rcases h.mem_children hp with hp | ⟨-, -, hlt, -⟩
    · exact (ht.lt_of_child hp).trans_le h.size_le
    · exact hlt

/-- **A change of one list keeps children younger than their parents.** -/
theorem Relists.ascends (h : Relists t t' parent ids) (ht : t.Ascends) : t'.Ascends where
  toIsTree := h.isTree ht.toIsTree
  lt_child := by
    intro p c hc
    rcases h.mem_children hc with hc | ⟨-, hlt, -⟩
    · exact ht.lt_child p c hc
    · exact hlt

/-- Where no list changes, the list of the root is as good as any. -/
theorem relists_of_children_eq (ht : t.IsTree) (hsize : t.size ≤ t'.size)
    (h : ∀ p, t'.children p = t.children p) : Relists t t' root (t.children root) where
  size_le := hsize
  children_eq p := by
    rw [h]
    split
    · rename_i hp; rw [hp]
    · rfl
  nodup := ht.nodup_children root
  mem _ hc := .inl hc

theorem SameShape.relists (h : SameShape t t') (ht : t.IsTree) :
    Relists t t' root (t.children root) :=
  relists_of_children_eq ht h.size_eq.ge h.children_eq

theorem children_alloc {node : RenderNode} (hn : node.children = []) (p : NodeId) :
    (t.alloc node).1.children p = t.children p := by
  unfold children
  rw [node_alloc]
  split
  · rename_i hp
    rw [hn, hp, node_of_size_le le_rfl]
    rfl
  · rfl

/-- No list of children has the name that is given next. -/
theorem IsTree.size_not_mem_children (ht : t.IsTree) (p : NodeId) : t.size ∉ t.children p :=
  fun hm => lt_irrefl _ (ht.lt_of_child hm)

theorem relists_append {node : RenderNode} (ht : t.IsTree) (hparent : parent < t.size)
    (hn : node.children = []) :
    Relists t (t.append parent node).1 parent (t.children parent ++ [t.size]) := by
  -- the node is added first, and then it is listed
  have halloc : parent < (t.alloc node).1.size := by
    rw [size_alloc]
    exact Nat.lt_succ_of_lt hparent
  have hre : Rechild (t.alloc node).1 (t.append parent node).1 parent
      ((t.alloc node).1.children parent ++ [t.size]) :=
    rechild_update (fun ids => ids ++ [t.size]) halloc
  have hsize : (t.append parent node).1.size = t.size + 1 := by
    rw [hre.size_eq, size_alloc]
  refine ⟨?_, fun p => ?_, ?_, fun c hc => ?_⟩
  · rw [hsize]
    exact Nat.le_succ _
  · rw [hre.children_eq, children_alloc hn, children_alloc hn]
  · rw [← List.concat_eq_append]
    exact (ht.nodup_children parent).concat (ht.size_not_mem_children parent)
  · rcases List.mem_append.1 hc with hc | hc
    · exact .inl hc
    · obtain rfl := List.mem_singleton.1 hc
      exact .inr ⟨hparent, hsize ▸ Nat.lt_succ_self _, ht.size_not_mem_children⟩

theorem relists_removeChild (ht : t.IsTree) (parent id : NodeId) :
    Relists t (t.removeChild parent id).1 parent ((t.children parent).erase id) := by
  have hre := rechild_removeChild t parent id
  exact ⟨hre.size_eq.ge, hre.children_eq, (ht.nodup_children parent).erase id,
    fun _ hc => .inl (List.mem_of_mem_erase hc)⟩

/-- Detaching a child takes it off its list, and else moves diagnostics only. -/
theorem sameShape_detachChild (t : RenderTree) (parent id : NodeId) :
    SameShape (t.removeChild parent id).1 (t.detachChild parent id).1 := by
  unfold detachChild
  obtain ⟨t₁, place⟩ := t.removeChild parent id
  cases place with
  | none => exact SameShape.refl t₁
  | some place =>
    exact (sameShape_takeDiagnostics t₁ id).trans (sameShape_update _ parent
      fun n => n.diagnostics ++ (t₁.takeDiagnostics id).2)

theorem Relists.of_sameShape {t'' : RenderTree} (h : Relists t t' parent ids)
    (h' : SameShape t' t'') : Relists t t'' parent ids :=
  ⟨h.size_le.trans h'.size_eq.ge, fun p => (h'.children_eq p).trans (h.children_eq p), h.nodup,
    fun c hc => (h.mem c hc).imp_right fun ⟨hp, hlt, hnew⟩ => ⟨hp, h'.size_eq ▸ hlt, hnew⟩⟩

theorem relists_replaceChild (ht : t.IsTree) (hid : id ∈ t.children parent) (hids : ids.Nodup)
    (hnew : ∀ x ∈ ids, parent < x ∧ x < t.size ∧ ∀ p, x ∉ t.children p) :
    Relists t (t.replaceChild parent id ids).1 parent (splice id ids (t.children parent)) := by
  have hre := rechild_replaceChild ids ht hid
  refine ⟨hre.size_eq.ge, hre.children_eq, ?_, fun c hc => ?_⟩
  · exact nodup_splice (ht.nodup_children parent) hids fun x hx => (hnew x hx).2.2 parent
  · rcases mem_splice.1 hc with ⟨hc, -⟩ | ⟨-, hc⟩
    · exact .inl hc
    · obtain ⟨hlt, hsize, hfree⟩ := hnew c hc
      exact .inr ⟨hlt, hre.size_eq.symm ▸ hsize, hfree⟩

theorem replaceChild_of_not_mem (hid : id ∉ t.children parent) :
    (t.replaceChild parent id ids).1 = t := by
  unfold replaceChild
  rw [List.idxOf?_eq_none_iff.2 hid]

/-- **What an operation does**: it changes one list of children at most. -/
theorem Edit.exists_relists (h : Edit t t') (ht : t.IsTree) :
    ∃ parent ids, Relists t t' parent ids := by
  cases h with
  | alloc hn =>
    exact ⟨_, _, relists_of_children_eq ht (by simp) (children_alloc hn)⟩
  | append hparent hn => exact ⟨_, _, relists_append ht hparent hn⟩
  | addChild kind hparent => exact ⟨_, _, relists_append ht hparent rfl⟩
  | addToken kind content hparent => exact ⟨_, _, relists_append ht hparent rfl⟩
  | addDiagnostic id d => exact ⟨_, _, (sameShape_addDiagnostic t id d).relists ht⟩
  | takeDiagnostics id => exact ⟨_, _, (sameShape_takeDiagnostics t id).relists ht⟩
  | removeChild parent id => exact ⟨_, _, relists_removeChild ht parent id⟩
  | detachChild parent id =>
    exact ⟨_, _, (relists_removeChild ht parent id).of_sameShape
      (sameShape_detachChild t parent id)⟩
  | @replaceChild parent id ids hids hnew =>
    -- nothing is put in the place of a node that is not there
    by_cases hid : id ∈ t.children parent
    · exact ⟨_, _, relists_replaceChild ht hid hids fun x hx =>
        ⟨(hnew x hx).1, (hnew x hx).2.1, (hnew x hx).2.2.2⟩⟩
    · rw [replaceChild_of_not_mem hid]
      exact ⟨_, _, (SameShape.refl t).relists ht⟩

/-- **Editing keeps children younger than their parents.** -/
theorem Edited.ascends (h : t.Edited) : t.Ascends := by
  induction h with
  | refl => exact ascends_empty
  | tail _ hedit ih =>
    obtain ⟨parent, ids, hre⟩ := hedit.exists_relists ih.toIsTree
    exact hre.ascends ih

/-! ### Walks from any start -/

theorem Ascends.le_of_reaches (ht : t.Ascends) (h : t.Reaches a b) : a ≤ b := by
  induction h with
  | refl => exact le_rfl
  | tail _ hc ih => exact ih.trans (ht.lt_child _ _ hc).le

/-- Names go up on the way down and stay below the number of nodes. -/
theorem Ascends.endsWithin_of_size_le {n a : ℕ} (ht : t.Ascends) (hn : 0 < n)
    (ha : t.size ≤ a + n) : t.EndsWithin n a := by
  induction n generalizing a with
  | zero => exact absurd hn (lt_irrefl 0)
  | succ n ih =>
    intro (c : ℕ) hc
    have hlt : a < c := ht.lt_child a c hc
    have hsize : c < t.size := ht.lt_of_child hc
    exact ih (by omega) (by omega)

/-- **A walk down ends by itself**, wherever it starts. -/
theorem Ascends.endsWithin (ht : t.Ascends) (a : NodeId) : t.EndsWithin t.size a :=
  ht.endsWithin_of_size_le (Nat.zero_lt_of_lt ht.root_lt) (Nat.le_add_left _ _)

/-- **A walk down passes no node twice**, wherever it starts. -/
theorem Ascends.nodup_subtree (ht : t.Ascends) (a : NodeId) : (t.subtree a).Nodup := by
  refine ht.nodup_below fun p _ c hc hr => ?_
  -- what is below a child is younger than the parent
  exact Nat.not_lt.2 (ht.le_of_reaches hr) (ht.lt_child p c hc)

theorem Ascends.mem_subtree (ht : t.Ascends) : b ∈ t.subtree a ↔ t.Reaches a b :=
  ⟨mem_below_reaches, (ht.endsWithin a).mem_below⟩

/-- **An edited tree stays a tree, and what goes down it comes to an end.** Every name stands in one
list of children at most and there once, that of the root in none, and a child is a node younger
than its parent. So the loops that list the attached nodes, put together the content below a node or
take the diagnostics off the nodes below it come to an end. They visit the nodes at and below their
start, each once and each before what is below it, child by child. -/
theorem sweeps_edited (h : t.Edited) :
    (t.childIds.Nodup ∧ root ∉ t.childIds ∧ ∀ p, ∀ c ∈ t.children p, p < c ∧ c < t.size) ∧
    Sweeps (fun _ => t.children) listAt [root] [] t.preorder t.preorder ∧
    ∀ a,
      Sweeps (fun _ => t.children) t.contentAt [a] "" (t.subtree a) (t.content a) ∧
      Sweeps (fun s => s.1.children) takeAt [a] (t, []) (t.subtree a) (t.takeDiagnostics a) ∧
      (t.subtree a).Nodup ∧ (∀ b, b ∈ t.subtree a ↔ t.Reaches a b) ∧
      t.subtree a = a :: (t.children a).flatMap t.subtree := by
  have ht := h.ascends
  refine ⟨⟨ht.nodup, ht.root_not_mem, ?_⟩, (ht.endsWithin root).sweeps_list, fun a => ?_⟩
  · exact fun p c hc => ⟨ht.lt_child p c hc, ht.lt_of_child hc⟩
  · have hend := ht.endsWithin a
    have hnd := ht.nodup_subtree a
    exact ⟨hend.sweeps_content, hend.sweeps_takeDiagnostics hnd, hnd, fun b => ht.mem_subtree,
      hend.subtree_eq⟩

namespace Sample

/-- A paragraph with a token, and an expression with a token that is not attached. -/
def spare : RenderTree :=
  ((((empty.addChild root (.element "p")).1.addToken 1 .html "a").1.alloc
    { kind := .codeExpression }).1.addToken 3 .code "x").1

/-- The paragraph with the expression in the place of its token, and a token behind it. The
paragraph is detached. -/
def loose : RenderTree :=
  (((spare.replaceChild 1 2 [3]).1.addToken 1 .html "b").1.detachChild root 1).1

theorem spare_edited : spare.Edited := by
  have helement : Edit empty (empty.addChild root (.element "p")).1 := .addChild _ (by decide)
  have htoken : Edit _ ((empty.addChild root (.element "p")).1.addToken 1 .html "a").1 :=
    .addToken _ _ (by decide)
  have hspare := (Relation.ReflTransGen.single helement).tail htoken
  exact (hspare.tail (.alloc rfl)).tail (.addToken .code "x" (by decide))

theorem loose_edited : loose.Edited := by
  have hfree : ∀ p, 3 ∉ spare.children p :=
    fun p hp => absurd (mem_childIds.2 ⟨p, hp⟩) (by decide)
  have hreplace : Edit spare (spare.replaceChild 1 2 [3]).1 :=
    .replaceChild (List.nodup_singleton 3)
      (List.forall_mem_singleton.2 ⟨by decide, by decide, by decide, hfree⟩)
  have htoken : Edit _ ((spare.replaceChild 1 2 [3]).1.addToken 1 .html "b").1 :=
    .addToken _ _ (by decide)
  exact ((spare_edited.tail hreplace).tail htoken).tail (.detachChild root 1)

end Sample

theorem sweeps_loose :
    Sample.loose.Edited ∧ Sample.loose.children root = [] ∧
    Sweeps (fun _ => Sample.loose.children) Sample.loose.contentAt [1] "" [1, 3, 4, 5] "xb" := by
  have hsubtree : Sample.loose.subtree 1 = [1, 3, 4, 5] := by decide
  have hcontent : Sample.loose.content 1 = "xb" := by decide
  refine ⟨Sample.loose_edited, by decide, ?_⟩
  have h := ((sweeps_edited Sample.loose_edited).2.2 1).1
  rwa [hsubtree, hcontent] at h

end TagHelpers.RenderTree
