import TagHelpers.Proofs.Bind.Replacements
import TagHelpers.Proofs.RenderTree.Diagnostics

/-!
# The nodes of lowered attributes

Each attribute that a bind attribute stands for takes three new nodes, one below the other: the
attribute, its value and the token that holds its code. `Allocated` says where they are. They are
not attached, and all else is as before.
-/

namespace TagHelpers.RenderTree

variable {t t' : RenderTree} {x p c : ℕ} {span : Span} {as : List LoweredAttribute}
  {ids : List NodeId}

/-- `t'` is `t` with the nodes of attributes behind its own, where `ids` are the nodes of the
attributes themselves. -/
structure Allocated (t t' : RenderTree) (span : Span) (as : List LoweredAttribute)
    (ids : List NodeId) : Prop where
  size_eq : t'.size = t.size + 3 * as.length
  ids_eq : ids = (List.range as.length).map (t.size + 3 * ·)
  old : ∀ x : ℕ, x < t.size → t'.node x = t.node x
  head : ∀ i a, as[i]? = some a → t'.node (t.size + 3 * i) =
    { kind := a.kind, span := some span, children := [t.size + 3 * i + 1] }
  value : ∀ i a, as[i]? = some a → t'.node (t.size + 3 * i + 1) =
    { kind := a.valueKind, children := [t.size + 3 * i + 2] }
  token : ∀ i a, as[i]? = some a → t'.node (t.size + 3 * i + 2) = { kind := .token .code a.code }

theorem size_allocAttribute (span : Span) (t : RenderTree) (a : LoweredAttribute) :
    (t.allocAttribute span a).1.size = t.size + 3 := by
  simp [allocAttribute, addToken, addChild, append]

theorem node_allocAttribute (span : Span) (t : RenderTree) (a : LoweredAttribute) (x : ℕ) :
    (t.allocAttribute span a).1.node x =
      if x = t.size then { kind := a.kind, span := some span, children := [t.size + 1] }
      else if x = t.size + 1 then { kind := a.valueKind, children := [t.size + 2] }
      else if x = t.size + 2 then { kind := .token .code a.code }
      else t.node x := by
  simp only [allocAttribute, addToken, addChild, append, node_update, node_alloc, size_update,
    size_alloc, alloc_snd]
  by_cases h0 : x = t.size
  · subst h0
    have h1 : ¬ t.size = t.size + 1 + 1 := by omega
    have h2 : t.size < t.size + 1 + 1 := by omega
    simp [h1, h2]
  · by_cases h1 : x = t.size + 1
    · subst h1
      simp
    · by_cases h2 : x = t.size + 1 + 1
      · subst h2
        have h1 : ¬ t.size + 1 + 1 = t.size := by omega
        simp [h1]
      · simp [h0, h1, h2, Ne.symm h0, Ne.symm h1]

theorem allocated_allocAttributes (span : Span) (as : List LoweredAttribute) :
    ∀ t : RenderTree, Allocated t (t.allocAttributes span as).1 span as
      (t.allocAttributes span as).2 := by
  induction as with
  | nil => intro t; exact ⟨rfl, rfl, fun _ _ => rfl, by simp, by simp, by simp⟩
  | cons a as ih =>
    intro t
    have hs := size_allocAttribute span t a
    have hn := node_allocAttribute span t a
    have h := ih (t.allocAttribute span a).1
    have hdef : t.allocAttributes span (a :: as) =
        ((allocAttributes span (t.allocAttribute span a).1 as).1,
          t.size :: (allocAttributes span (t.allocAttribute span a).1 as).2) := rfl
    rw [hdef]
    -- the attribute at place `i` of the rest is the one at place `i + 1`, three nodes on
    have hshift : ∀ i, t.size + 3 * (i + 1) = (t.allocAttribute span a).1.size + 3 * i := by
      intro i
      omega
    refine ⟨?_, ?_, fun x hx => ?_, ?_, ?_, ?_⟩
    · rw [h.size_eq, hs, List.length_cons]
      omega
    · rw [List.length_cons, List.range_succ_eq_map, List.map_cons, List.map_map]
      show t.size :: _ = _ :: _
      rw [h.ids_eq]
      exact congrArg _ (List.map_congr_left fun i _ => (hshift i).symm)
    · rw [h.old x (by omega), hn, if_neg (by omega), if_neg (by omega), if_neg (by omega)]
    · intro i b hb
      cases i with
      | zero =>
        obtain rfl : a = b := by simpa using hb
        rw [Nat.mul_zero, Nat.add_zero, h.old _ (by omega), hn, if_pos rfl]
      | succ i => rw [hshift i, h.head i b (by simpa using hb)]
    · intro i b hb
      cases i with
      | zero =>
        obtain rfl : a = b := by simpa using hb
        rw [Nat.mul_zero, Nat.add_zero, h.old _ (by omega), hn, if_neg (by omega), if_pos rfl]
      | succ i => rw [hshift i, h.value i b (by simpa using hb)]
    · intro i b hb
      cases i with
      | zero =>
        obtain rfl : a = b := by simpa using hb
        rw [Nat.mul_zero, Nat.add_zero, h.old _ (by omega), hn, if_neg (by omega),
          if_neg (by omega), if_pos rfl]
      | succ i => rw [hshift i, h.token i b (by simpa using hb)]

/-! ### What the new nodes are -/

/-- A new node is the node of an attribute, of its value or of its token. -/
theorem Allocated.node_cases (h : Allocated t t' span as ids) (hx : t.size ≤ x)
    (hx' : x < t'.size) : ∃ i a, as[i]? = some a ∧
      (x = t.size + 3 * i ∨ x = t.size + 3 * i + 1 ∨ x = t.size + 3 * i + 2) := by
  have hs := h.size_eq
  -- each attribute takes three nodes, so the quotient is its place
  have hi : (x - t.size) / 3 < as.length := by omega
  refine ⟨(x - t.size) / 3, as[(x - t.size) / 3], List.getElem?_eq_getElem hi, ?_⟩
  omega

theorem Allocated.children_old (h : Allocated t t' span as ids) (hx : x < t.size) :
    t'.children x = t.children x := by
  unfold children
  rw [h.old x hx]

/-- A new node has at most one child, the next node, and that is no attribute. -/
theorem Allocated.children_new (h : Allocated t t' span as ids) (hp : t.size ≤ p) :
    t'.children p = [] ∨
      (t'.children p = [p + 1] ∧ p + 1 < t'.size ∧ (p + 1 - t.size) % 3 ≠ 0) := by
  by_cases hp' : p < t'.size
  · obtain ⟨i, a, ha, hi⟩ := h.node_cases hp hp'
    have hlen := (List.getElem?_eq_some_iff.1 ha).1
    have hs := h.size_eq
    unfold children
    rcases hi with rfl | rfl | rfl
    · rw [h.head i a ha]
      exact Or.inr ⟨rfl, by omega, by omega⟩
    · rw [h.value i a ha]
      exact Or.inr ⟨rfl, by omega, by omega⟩
    · rw [h.token i a ha]
      exact Or.inl rfl
  · exact Or.inl (children_of_size_le (not_lt.1 hp'))

theorem Allocated.child_of_new (h : Allocated t t' span as ids) (hp : t.size ≤ p)
    (hc : c ∈ t'.children p) : c = p + 1 ∧ c < t'.size ∧ (c - t.size) % 3 ≠ 0 := by
  rcases h.children_new hp with hn | ⟨hn, hs, hm⟩
  · rw [hn] at hc
    exact absurd hc List.not_mem_nil
  · rw [hn, List.mem_singleton] at hc
    subst hc
    exact ⟨rfl, hs, hm⟩

theorem Allocated.diagnostics_new (h : Allocated t t' span as ids) (hx : t.size ≤ x) :
    (t'.node x).diagnostics = [] := by
  by_cases hx' : x < t'.size
  · obtain ⟨i, a, ha, rfl | rfl | rfl⟩ := h.node_cases hx hx'
    · rw [h.head i a ha]
    · rw [h.value i a ha]
    · rw [h.token i a ha]
  · rw [node_of_size_le (not_lt.1 hx')]
    rfl

theorem Allocated.mem_ids (h : Allocated t t' span as ids) (hx : x ∈ ids) :
    t.size ≤ x ∧ x < t'.size ∧ (x - t.size) % 3 = 0 := by
  rw [h.ids_eq, List.mem_map] at hx
  obtain ⟨i, hi, rfl⟩ := hx
  have hi := List.mem_range.1 hi
  have hs := h.size_eq
  omega

theorem Allocated.nodup_ids (h : Allocated t t' span as ids) : ids.Nodup := by
  rw [h.ids_eq]
  exact List.nodup_range.map fun i j (hij : t.size + 3 * i = t.size + 3 * j) => by omega

/-! ### The tree around them -/

/-- An attribute is in no list of children yet. -/
theorem Allocated.not_mem_children (h : Allocated t t' span as ids) (ht : t.IsTree)
    (hx : x ∈ ids) (p : ℕ) : x ∉ t'.children p := by
  intro hc
  have hm := h.mem_ids hx
  by_cases hp : p < t.size
  · rw [h.children_old hp] at hc
    have hlt : x < t.size := ht.lt_of_child hc
    omega
  · have := h.child_of_new (not_lt.1 hp) hc
    omega

/-- A child of an old node is old, and so is the parent of an old node. -/
theorem Allocated.child_old_iff (h : Allocated t t' span as ids) (ht : t.IsTree)
    (hc : c ∈ t'.children p) : c < t.size ↔ p < t.size := by
  constructor
  · intro hlt
    by_contra hp
    have := h.child_of_new (not_lt.1 hp) hc
    omega
  · intro hp
    rw [h.children_old hp] at hc
    exact ht.lt_of_child hc

theorem Allocated.isTree (h : Allocated t t' span as ids) (ht : t.IsTree) : t'.IsTree := by
  have hroot : (0 : ℕ) < t.size := ht.root_lt
  have hsize := h.size_eq
  refine IsTree.of_children (show (0 : ℕ) < t'.size by omega) (fun p => ?_)
    (fun p q c hp hq => ?_) (fun p hp => ?_) (fun p c hp => ?_)
  · by_cases hp : p < t.size
    · rw [h.children_old hp]
      exact ht.nodup_children p
    · rcases h.children_new (not_lt.1 hp) with hn | ⟨hn, -⟩
      · rw [hn]; exact List.nodup_nil
      · rw [hn]; exact List.nodup_singleton _
  -- an old child has an old parent, and a new one the node before it
  · by_cases hc : c < t.size
    · have hp' := (h.child_old_iff ht hp).1 hc
      have hq' := (h.child_old_iff ht hq).1 hc
      rw [h.children_old hp'] at hp
      rw [h.children_old hq'] at hq
      exact ht.parent_unique hp hq
    · have hp' : ¬ p < t.size := fun hlt => hc ((h.child_old_iff ht hp).2 hlt)
      have hq' : ¬ q < t.size := fun hlt => hc ((h.child_old_iff ht hq).2 hlt)
      have h1 := (h.child_of_new (not_lt.1 hp') hp).1
      have h2 := (h.child_of_new (not_lt.1 hq') hq).1
      exact Nat.succ.inj (h1.symm.trans h2)
  · rw [h.children_old ((h.child_old_iff ht hp).1 ht.root_lt)] at hp
    exact ht.child_ne_root hp rfl
  · by_cases hc : p < t.size
    · have hlt : c < t.size := (h.child_old_iff ht hp).2 hc
      exact lt_of_lt_of_le hlt (show t.size ≤ t'.size by omega)
    · exact (h.child_of_new (not_lt.1 hc) hp).2.1

/-- What is below a new node is new. -/
theorem Allocated.reaches_new (h : Allocated t t' span as ids) (ht : t.IsTree) {r : ℕ}
    (hr : t.size ≤ r) (hx : t'.Reaches r x) : t.size ≤ x := by
  induction hx with
  | refl => exact hr
  | tail _ hc ih => exact not_lt.1 fun hlt => not_lt.2 ih ((h.child_old_iff ht hc).1 hlt)

/-- No old node comes to stand below another one. -/
theorem Allocated.reaches_old (h : Allocated t t' span as ids) (ht : t.IsTree) (hx : x < t.size)
    (hr : t'.Reaches p x) : t.Reaches p x := by
  induction hr with
  | refl => exact Reaches.refl t p
  | tail _ hc ih =>
    have hp := (h.child_old_iff ht hc).1 hx
    rw [h.children_old hp] at hc
    exact (ih hp).tail hc

/-- Nothing new is attached. -/
theorem Allocated.attached_iff (h : Allocated t t' span as ids) (ht : t.IsTree) :
    t'.Reaches root x ↔ t.Reaches root x := by
  constructor
  · intro hx
    induction hx with
    | refl => exact Reaches.refl t root
    | tail _ hc ih =>
      rw [h.children_old (ht.lt_size_of_attached ih)] at hc
      exact ih.tail hc
  · intro hx
    induction hx with
    | refl => exact Reaches.refl t' root
    | @tail p c hp hc ih =>
      rw [← h.children_old (ht.lt_size_of_attached hp)] at hc
      exact ih.tail hc

theorem Allocated.subtree_eq (h : Allocated t t' span as ids) (ht : t.IsTree)
    (hx : t.Reaches root x) : t'.subtree x = t.subtree x := by
  have hsize : t.size ≤ t'.size := by
    rw [h.size_eq]
    exact Nat.le_add_right _ _
  unfold subtree
  rw [below_congr fun b hb => h.children_old (ht.lt_size_of_attached (hx.trans hb)),
    (ht.endsWithin hx).below_eq hsize]

theorem Allocated.bag_eq (h : Allocated t t' span as ids) (ht : t.IsTree) : t'.bag = t.bag := by
  have hatt : t'.attached = t.attached := by
    ext x
    rw [(h.isTree ht).mem_attached, ht.mem_attached, h.attached_iff ht]
  rw [(h.isTree ht).bag_eq_sum, ht.bag_eq_sum, hatt]
  refine Finset.sum_congr rfl fun x hx => ?_
  unfold bagAt
  rw [h.old x (ht.lt_size_of_attached (ht.mem_attached.1 hx))]

end TagHelpers.RenderTree
