import TagHelpers.Proofs.RenderTree.Access
import Mathlib.Logic.Relation
import Mathlib.Data.Finset.Card
import Mathlib.Data.List.Flatten
import Mathlib.Data.List.Pairwise

/-!
# The shape of a tree

Nodes are named by their place in an array, so nothing but the lists of children makes a tree of
them. `IsTree` says that they do: every name stands in at most one list, and there once.

* `IsTree.total`: two nodes above a third one are above one another, as each node has one parent.
* `AtDepth.lt_size`: an attached node is reached in fewer steps than there are nodes, so a walk
  with that fuel never runs out of it.
* `IsTree.mem_subtree`, `IsTree.mem_preorder`: such a walk finds exactly what is below its start.
* `IsTree.nodup_preorder`: and finds it once.
-/

namespace TagHelpers.RenderTree

variable {t t' : RenderTree} {a b p q c id : NodeId} {n m : ℕ}

/-- All lists of children, one after another. -/
def childIds (t : RenderTree) : List NodeId :=
  (List.range t.size).flatMap t.children

/-- **Tree shape.** Every name stands in at most one list of children, there once, and that of the
root in none; and all of them are names of nodes. -/
structure IsTree (t : RenderTree) : Prop where
  root_lt : root < t.size
  nodup : t.childIds.Nodup
  root_not_mem : root ∉ t.childIds
  child_lt : ∀ c ∈ t.childIds, c < t.size

instance (t : RenderTree) : Decidable t.IsTree :=
  decidable_of_iff (root < t.size ∧ t.childIds.Nodup ∧ root ∉ t.childIds ∧
      ∀ c ∈ t.childIds, c < t.size)
    ⟨fun ⟨h1, h2, h3, h4⟩ => ⟨h1, h2, h3, h4⟩,
      fun h => ⟨h.root_lt, h.nodup, h.root_not_mem, h.child_lt⟩⟩

theorem mem_childIds : c ∈ t.childIds ↔ ∃ p, c ∈ t.children p := by
  unfold childIds
  rw [List.mem_flatMap]
  constructor
  · rintro ⟨p, -, h⟩
    exact ⟨p, h⟩
  · rintro ⟨p, h⟩
    exact ⟨p, List.mem_range.2 (lt_size_of_mem_children h), h⟩

/-- The lists of children of different nodes have nothing in common. -/
theorem nodup_childIds : t.childIds.Nodup ↔
    (∀ p, (t.children p).Nodup) ∧ ∀ p q c, c ∈ t.children p → c ∈ t.children q → p = q := by
  unfold childIds
  rw [List.nodup_flatMap]
  constructor
  · rintro ⟨h1, h2⟩
    refine ⟨fun p => ?_, fun p q c hp hq => ?_⟩
    · by_cases hp : p < t.size
      · exact h1 p (List.mem_range.2 hp)
      · rw [children_of_size_le (not_lt.1 hp)]; exact List.nodup_nil
    · by_contra hne
      have : Std.Symm (Function.onFun List.Disjoint t.children) := ⟨fun _ _ h => h.symm⟩
      exact h2.forall (List.mem_range.2 (lt_size_of_mem_children hp))
        (List.mem_range.2 (lt_size_of_mem_children hq)) hne hp hq
  · rintro ⟨h1, h2⟩
    refine ⟨fun p _ => h1 p, ?_⟩
    refine List.Pairwise.imp_of_mem ?_ List.nodup_range
    intro p q _ _ hne c hp hq
    exact hne (h2 p q c hp hq)

/-- The shape of a tree can be said list by list. -/
theorem IsTree.of_children (hroot : root < t.size) (hnodup : ∀ p, (t.children p).Nodup)
    (hunique : ∀ p q c, c ∈ t.children p → c ∈ t.children q → p = q)
    (hfree : ∀ p, root ∉ t.children p) (hlt : ∀ p, ∀ c ∈ t.children p, c < t.size) :
    t.IsTree where
  root_lt := hroot
  nodup := nodup_childIds.2 ⟨hnodup, hunique⟩
  root_not_mem := by
    intro hm
    obtain ⟨p, hp⟩ := mem_childIds.1 hm
    exact hfree p hp
  child_lt := by
    intro c hm
    obtain ⟨p, hp⟩ := mem_childIds.1 hm
    exact hlt p c hp

theorem IsTree.nodup_children (h : t.IsTree) (p : NodeId) : (t.children p).Nodup :=
  (nodup_childIds.1 h.nodup).1 p

theorem IsTree.parent_unique (h : t.IsTree) (hp : c ∈ t.children p) (hq : c ∈ t.children q) :
    p = q :=
  (nodup_childIds.1 h.nodup).2 p q c hp hq

theorem IsTree.child_ne_root (h : t.IsTree) (hp : c ∈ t.children p) : c ≠ root := by
  rintro rfl
  exact h.root_not_mem (mem_childIds.2 ⟨p, hp⟩)

theorem IsTree.lt_of_child (h : t.IsTree) (hp : c ∈ t.children p) : c < t.size :=
  h.child_lt c (mem_childIds.2 ⟨p, hp⟩)

/-! ### What is below a node -/

/-- A node at or below another one. -/
def Reaches (t : RenderTree) : NodeId → NodeId → Prop :=
  Relation.ReflTransGen fun p c => c ∈ t.children p

theorem Reaches.refl (t : RenderTree) (a : NodeId) : t.Reaches a a :=
  Relation.ReflTransGen.refl

theorem Reaches.trans (h : t.Reaches a b) (h' : t.Reaches b c) : t.Reaches a c :=
  Relation.ReflTransGen.trans h h'

theorem Reaches.tail (h : t.Reaches a p) (hc : c ∈ t.children p) : t.Reaches a c :=
  Relation.ReflTransGen.tail h hc

theorem Reaches.head (hc : c ∈ t.children p) (h : t.Reaches c b) : t.Reaches p b :=
  Relation.ReflTransGen.head hc h

/-- A node below another one is that one or has a parent below it. -/
theorem Reaches.cases_parent (h : t.Reaches a b) :
    b = a ∨ ∃ p, t.Reaches a p ∧ b ∈ t.children p := by
  rcases Relation.ReflTransGen.cases_tail h with h | ⟨p, h1, h2⟩
  · exact Or.inl h
  · exact Or.inr ⟨p, h1, h2⟩

/-- Only the root is above the root. -/
theorem IsTree.eq_root_of_reaches (h : t.IsTree) (hr : t.Reaches a root) : a = root := by
  rcases hr.cases_parent with h1 | ⟨p, -, h2⟩
  · exact h1.symm
  · exact absurd rfl (h.child_ne_root h2)

/-- **Ancestors are in a line.** -/
theorem IsTree.total (h : t.IsTree) (ha : t.Reaches a c) (hb : t.Reaches b c) :
    t.Reaches a b ∨ t.Reaches b a := by
  -- upwards, each node has at most one way to go
  have hu : Relator.RightUnique (Function.swap fun p c => c ∈ t.children p) :=
    fun _ _ _ hp hq => h.parent_unique hp hq
  have h1 := Relation.ReflTransGen.total_of_right_unique hu
    (Relation.reflTransGen_swap.2 ha) (Relation.reflTransGen_swap.2 hb)
  rcases h1 with h1 | h1
  · exact Or.inr (Relation.reflTransGen_swap.1 h1)
  · exact Or.inl (Relation.reflTransGen_swap.1 h1)

/-- The attached nodes are closed upwards. -/
theorem IsTree.attached_of_reaches (h : t.IsTree) (hc : t.Reaches root c) (ha : t.Reaches a c) :
    t.Reaches root a := by
  rcases h.total hc ha with h1 | h1
  · exact h1
  · rw [h.eq_root_of_reaches h1]; exact Reaches.refl t root

theorem IsTree.attached_parent (h : t.IsTree) (hc : t.Reaches root c) (hp : c ∈ t.children p) :
    t.Reaches root p :=
  h.attached_of_reaches hc (Reaches.head hp (Reaches.refl t c))

theorem IsTree.lt_size_of_attached (h : t.IsTree) (ha : t.Reaches root a) : a < t.size := by
  rcases ha.cases_parent with rfl | ⟨p, -, hp⟩
  · exact h.root_lt
  · exact h.lt_of_child hp

/-! ### Trees with the same lists of children -/

theorem reaches_congr (h : ∀ p, t'.children p = t.children p) : t'.Reaches a b ↔ t.Reaches a b := by
  unfold Reaches
  rw [show (fun p c => c ∈ t'.children p) = fun p c => c ∈ t.children p from
    funext fun p => by rw [h p]]

theorem SameShape.reaches_iff (h : SameShape t t') : t'.Reaches a b ↔ t.Reaches a b :=
  reaches_congr h.children_eq

theorem SameShape.isTree (h : SameShape t t') (ht : t.IsTree) : t'.IsTree := by
  have hc : t'.childIds = t.childIds := by
    unfold childIds
    rw [h.size_eq, funext h.children_eq]
  exact ⟨h.size_eq ▸ ht.root_lt, hc ▸ ht.nodup, hc ▸ ht.root_not_mem,
    fun c hm => h.size_eq ▸ ht.child_lt c (hc ▸ hm)⟩

/-! ### Depth -/

/-- A node that is reached from the root in a number of steps. -/
inductive AtDepth (t : RenderTree) : ℕ → NodeId → Prop
  | zero : AtDepth t 0 root
  | succ {n : ℕ} {p c : NodeId} : AtDepth t n p → c ∈ t.children p → AtDepth t (n + 1) c

theorem AtDepth.reaches (h : t.AtDepth n a) : t.Reaches root a := by
  induction h with
  | zero => exact Reaches.refl t root
  | succ _ hc ih => exact ih.tail hc

theorem Reaches.exists_atDepth (h : t.Reaches root a) : ∃ n, t.AtDepth n a := by
  induction h with
  | refl => exact ⟨0, AtDepth.zero⟩
  | tail _ hc ih =>
    obtain ⟨n, hn⟩ := ih
    exact ⟨n + 1, hn.succ hc⟩

/-- A node has one depth. -/
theorem AtDepth.unique (ht : t.IsTree) (h : t.AtDepth n a) (h' : t.AtDepth m a) : n = m := by
  induction h generalizing m with
  | zero =>
    cases h' with
    | zero => rfl
    | succ _ hc => exact absurd rfl (ht.child_ne_root hc)
  | succ hp hc ih =>
    cases h' with
    | zero => exact absurd rfl (ht.child_ne_root hc)
    | succ hp' hc' => rw [ih (ht.parent_unique hc' hc ▸ hp')]

theorem AtDepth.exists_above (h : t.AtDepth n a) (hm : m ≤ n) : ∃ b, t.AtDepth m b := by
  induction h with
  | zero => exact ⟨root, by rw [Nat.le_zero.1 hm]; exact AtDepth.zero⟩
  | @succ n p c hp hc ih =>
    rcases Nat.eq_or_lt_of_le hm with h | h
    · exact ⟨c, h ▸ hp.succ hc⟩
    · exact ih (Nat.lt_succ_iff.1 h)

/-- **Depth is below the number of nodes**: above a node stands one node of each smaller depth. -/
theorem AtDepth.lt_size (ht : t.IsTree) (h : t.AtDepth n a) : n < t.size := by
  -- one node at each depth up to `n`: different ones, as a node has one depth
  choose! f hf using fun m (hm : m ≤ n) => h.exists_above hm
  have hcard : (Finset.range (n + 1)).card ≤ (Finset.range t.size).card := by
    refine Finset.card_le_card_of_injOn f (fun m hm => ?_) (fun m hm m' hm' he => ?_)
    · have hmn : m ≤ n := Nat.lt_succ_iff.1 (Finset.mem_range.1 hm)
      exact Finset.mem_coe.2 (Finset.mem_range.2 (ht.lt_size_of_attached (hf m hmn).reaches))
    · have hm1 := hf m (Nat.lt_succ_iff.1 (Finset.mem_range.1 (Finset.mem_coe.1 hm)))
      have hm2 := hf m' (Nat.lt_succ_iff.1 (Finset.mem_range.1 (Finset.mem_coe.1 hm')))
      exact hm1.unique ht (he ▸ hm2)
  rw [Finset.card_range, Finset.card_range] at hcard
  exact hcard

/-- Going down and staying on one level is staying at one node. -/
theorem AtDepth.reaches_deeper (h : t.AtDepth n a) (hr : t.Reaches a b) :
    b = a ∨ ∃ m, n < m ∧ t.AtDepth m b := by
  induction hr with
  | refl => exact Or.inl rfl
  | tail _ hc ih =>
    rcases ih with rfl | ⟨m, hm, hd⟩
    · exact Or.inr ⟨n + 1, Nat.lt_succ_self n, h.succ hc⟩
    · exact Or.inr ⟨m + 1, Nat.lt_succ_of_lt hm, hd.succ hc⟩

/-- **Below an attached node there is no way back to it.** -/
theorem IsTree.eq_of_reaches_reaches (ht : t.IsTree) (ha : t.Reaches root a) (hab : t.Reaches a b)
    (hba : t.Reaches b a) : b = a := by
  obtain ⟨n, hn⟩ := ha.exists_atDepth
  rcases hn.reaches_deeper hab with h | ⟨m, hm, hd⟩
  · exact h
  · rcases hd.reaches_deeper hba with h | ⟨k, hk, hd'⟩
    · exact h.symm
    · have := hn.unique ht hd'
      omega

theorem IsTree.not_reaches_parent (ht : t.IsTree) (hp : t.Reaches root p) (hc : c ∈ t.children p) :
    ¬ t.Reaches c p := by
  intro hr
  have hpc : t.Reaches p c := (Reaches.refl t p).tail hc
  have he := ht.eq_of_reaches_reaches hp hpc hr
  obtain ⟨n, hn⟩ := hp.exists_atDepth
  have := hn.unique ht (he ▸ hn.succ hc)
  omega

/-! ### Walks -/

/-- A walk down from a node that is over within a number of levels. -/
def EndsWithin (t : RenderTree) : ℕ → NodeId → Prop
  | 0, _ => False
  | n + 1, id => ∀ c ∈ t.children id, t.EndsWithin n c

/-- More fuel than a walk needs changes nothing. -/
theorem EndsWithin.below_eq (h : t.EndsWithin n a) (hm : n ≤ m) : t.below m a = t.below n a := by
  induction n generalizing m a with
  | zero => exact h.elim
  | succ n ih =>
    obtain ⟨m, rfl⟩ : ∃ k, m = k + 1 := ⟨m - 1, by omega⟩
    rw [below, below]
    congr 1
    exact List.flatMap_congr fun c hc => ih (h c hc) (by omega)

theorem mem_below_reaches (h : b ∈ t.below n a) : t.Reaches a b := by
  induction n generalizing a with
  | zero => exact absurd h List.not_mem_nil
  | succ n ih =>
    rw [below, List.mem_cons, List.mem_flatMap] at h
    rcases h with rfl | ⟨c, hc, hb⟩
    · exact Reaches.refl t _
    · exact Reaches.head hc (ih hb)

theorem EndsWithin.mem_below (h : t.EndsWithin n a) (hr : t.Reaches a b) : b ∈ t.below n a := by
  induction n generalizing a with
  | zero => exact h.elim
  | succ n ih =>
    rw [below, List.mem_cons, List.mem_flatMap]
    rcases Relation.ReflTransGen.cases_head hr with rfl | ⟨c, hc, hb⟩
    · exact Or.inl rfl
    · exact Or.inr ⟨c, hc, ih (h c hc) hb⟩

/-- A walk depends on the lists of children that it passes only. -/
theorem below_congr (h : ∀ b, t.Reaches a b → t'.children b = t.children b) :
    t'.below n a = t.below n a := by
  induction n generalizing a with
  | zero => rfl
  | succ n ih =>
    rw [below, below, h a (Reaches.refl t a)]
    congr 1
    exact List.flatMap_congr fun c hc => ih fun b hb => h b (Reaches.head hc hb)

theorem AtDepth.endsWithin (ht : t.IsTree) (h : t.AtDepth n a) (hm : t.size ≤ n + m) :
    t.EndsWithin m a := by
  induction m generalizing n a with
  | zero =>
    have := h.lt_size ht
    omega
  | succ m ih => exact fun c hc => ih (h.succ hc) (by omega)

/-- **Fuel suffices**: a walk down from an attached node ends by itself. -/
theorem IsTree.endsWithin (ht : t.IsTree) (ha : t.Reaches root a) : t.EndsWithin t.size a := by
  obtain ⟨n, hn⟩ := ha.exists_atDepth
  exact hn.endsWithin ht (Nat.le_add_left _ _)

/-- **The nodes below an attached node.** -/
theorem IsTree.mem_subtree (ht : t.IsTree) (ha : t.Reaches root a) :
    b ∈ t.subtree a ↔ t.Reaches a b :=
  ⟨mem_below_reaches, fun h => (ht.endsWithin ha).mem_below h⟩

/-- **The attached nodes.** -/
theorem IsTree.mem_preorder (ht : t.IsTree) : b ∈ t.preorder ↔ t.Reaches root b :=
  ht.mem_subtree (Reaches.refl t root)

/-- A walk that ends by itself passes a node, and then what is below each of its children. -/
theorem EndsWithin.subtree_eq (h : t.EndsWithin t.size a) :
    t.subtree a = a :: (t.children a).flatMap t.subtree := by
  unfold subtree
  cases hs : t.size with
  | zero => rw [hs] at h; exact h.elim
  | succ s =>
    rw [hs] at h
    rw [below]
    congr 1
    exact List.flatMap_congr fun c hc => ((h c hc).below_eq (Nat.le_succ s)).symm

theorem IsTree.subtree_eq (ht : t.IsTree) (ha : t.Reaches root a) :
    t.subtree a = a :: (t.children a).flatMap t.subtree :=
  (ht.endsWithin ha).subtree_eq

/-- A walk passes no node twice if it never comes from a child back to its parent. -/
theorem IsTree.nodup_below (ht : t.IsTree)
    (hback : ∀ p, t.Reaches a p → ∀ c ∈ t.children p, ¬ t.Reaches c p) : (t.below n a).Nodup := by
  induction n generalizing a with
  | zero => exact List.nodup_nil
  | succ n ih =>
    have hself := hback a (Reaches.refl t a)
    -- the way from one child to another one would pass their parent
    have hsibling : ∀ b ∈ t.children a, ∀ c ∈ t.children a, t.Reaches b c → c = b := by
      intro b hb c hc hr
      rcases hr.cases_parent with he | ⟨p, hp, hcp⟩
      · exact he
      · exact absurd (ht.parent_unique hcp hc ▸ hp) (hself b hb)
    rw [RenderTree.below, List.nodup_cons, List.nodup_flatMap]
    refine ⟨fun hm => ?_, fun c hc => ?_, (ht.nodup_children a).imp_of_mem ?_⟩
    · obtain ⟨c, hc, ha⟩ := List.mem_flatMap.1 hm
      exact hself c hc (mem_below_reaches ha)
    · exact ih fun p hp => hback p (Reaches.head hc hp)
    · intro b c hb hc hne x hx hx'
      rcases ht.total (mem_below_reaches hx) (mem_below_reaches hx') with hr | hr
      · exact hne (hsibling b hb c hc hr).symm
      · exact hne (hsibling c hc b hb hr)

theorem IsTree.nodup_subtree (ht : t.IsTree) (ha : t.Reaches root a) : (t.subtree a).Nodup :=
  ht.nodup_below fun _ hp _ hc => ht.not_reaches_parent (ha.trans hp) hc

/-- **Every attached node is listed once.** -/
theorem IsTree.nodup_preorder (ht : t.IsTree) : t.preorder.Nodup :=
  ht.nodup_subtree (Reaches.refl t root)

theorem IsTree.subtree_sublist_preorder (ht : t.IsTree) (ha : t.Reaches root a) :
    (t.subtree a).Sublist t.preorder := by
  induction ha with
  | refl => exact List.Sublist.refl _
  | @tail p c hp hc ih =>
    refine List.Sublist.trans ?_ ih
    rw [ht.subtree_eq hp]
    exact List.Sublist.cons _ (List.sublist_flatten_of_mem (List.mem_map_of_mem hc))

/-- Siblings are listed in their order. -/
theorem IsTree.children_sublist_preorder (ht : t.IsTree) (ha : t.Reaches root a) :
    (t.children a).Sublist t.preorder := by
  refine List.Sublist.trans ?_ (ht.subtree_sublist_preorder ha)
  rw [ht.subtree_eq ha]
  refine List.Sublist.cons _ ?_
  have h := List.Sublist.flatMap_right (t.children a) (f := fun c => [c]) (g := t.subtree)
    fun c hc => by rw [ht.subtree_eq (ha.tail hc)]; exact (List.nil_sublist _).cons_cons c
  rwa [List.flatMap_singleton'] at h

end TagHelpers.RenderTree
