import TagHelpers.Proofs.RenderTree.Splice
import Mathlib.Algebra.BigOperators.Group.Finset.Piecewise
import Mathlib.Algebra.Order.Group.Multiset

/-!
# The diagnostics of a tree

Only attached nodes report. Diagnostics are therefore not lost when a node is detached only if they
are moved to a node that stays: `Moves` is a splice that does so, and `Moves.bag_eq` says that the
tree reports the same diagnostics before and after it, in whatever order.
-/

namespace TagHelpers.RenderTree

variable {t t' : RenderTree} {x id parent taker : NodeId} {ids : List NodeId}

/-- The diagnostics that a tree reports, in any order. -/
def bag (t : RenderTree) : Multiset Diagnostic := t.allDiagnostics

/-- The diagnostics of a node, in any order. -/
def bagAt (t : RenderTree) (id : NodeId) : Multiset Diagnostic := (t.node id).diagnostics

/-- The attached nodes. -/
def attached (t : RenderTree) : Finset NodeId := t.preorder.toFinset

theorem IsTree.mem_attached (ht : t.IsTree) : x ∈ t.attached ↔ t.Reaches root x := by
  unfold attached
  rw [List.mem_toFinset, ht.mem_preorder]

/-- The diagnostics of several nodes. -/
theorem coe_flatMap_diagnostics (t : RenderTree) {xs : List NodeId} (h : xs.Nodup) :
    (xs.flatMap (fun i => (t.node i).diagnostics) : Multiset Diagnostic) =
      ∑ i ∈ xs.toFinset, t.bagAt i := by
  rw [List.sum_toFinset _ h]
  induction xs with
  | nil => rfl
  | cons i xs ih =>
    rw [List.flatMap_cons, ← Multiset.coe_add, ih (List.nodup_cons.1 h).2, List.map_cons,
      List.sum_cons]
    rfl

theorem IsTree.bag_eq_sum (ht : t.IsTree) : t.bag = ∑ i ∈ t.attached, t.bagAt i :=
  coe_flatMap_diagnostics t ht.nodup_preorder

/-! ### Adding a diagnostic -/

theorem diagnostics_addDiagnostic (t : RenderTree) (d : Diagnostic) (hid : id < t.size) :
    ((t.addDiagnostic id d).node x).diagnostics =
      (t.node x).diagnostics ++ if x = id then [d] else [] := by
  unfold addDiagnostic
  rw [diagnostics_update]
  by_cases hx : x = id
  · subst hx; simp [hid]
  · simp [hx, Ne.symm hx]

theorem mem_diagnostics_addDiagnostic {d d' : Diagnostic}
    (h : d' ∈ ((t.addDiagnostic id d).node x).diagnostics) :
    d' ∈ (t.node x).diagnostics ∨ x = id ∧ d' = d := by
  unfold addDiagnostic at h
  rw [diagnostics_update] at h
  split_ifs at h with hid
  · rcases List.mem_append.1 h with h | h
    · exact .inl h
    · exact .inr ⟨hid.1.symm, List.mem_singleton.1 h⟩
  · exact .inl h

theorem SameShape.attached_eq (h : SameShape t t') : t'.attached = t.attached := by
  unfold attached preorder
  rw [h.subtree_eq]

/-- A diagnostic on an attached node is reported. -/
theorem IsTree.bag_addDiagnostic (ht : t.IsTree) (d : Diagnostic) (hid : t.Reaches root id) :
    (t.addDiagnostic id d).bag = t.bag + {d} := by
  have hs := sameShape_addDiagnostic t id d
  have hbag : ∀ x, (t.addDiagnostic id d).bagAt x = t.bagAt x + if x = id then {d} else 0 := by
    intro x
    unfold bagAt
    rw [diagnostics_addDiagnostic t d (ht.lt_size_of_attached hid), ← Multiset.coe_add]
    split <;> rfl
  rw [(hs.isTree ht).bag_eq_sum, hs.attached_eq, Finset.sum_congr rfl fun x _ => hbag x,
    Finset.sum_add_distrib, Finset.sum_ite_eq', if_pos (ht.mem_attached.2 hid), ht.bag_eq_sum]

/-- A diagnostic on another node is not. -/
theorem IsTree.bag_addDiagnostic_of_not (ht : t.IsTree) (d : Diagnostic)
    (hid : ¬ t.Reaches root id) : (t.addDiagnostic id d).bag = t.bag := by
  have hs := sameShape_addDiagnostic t id d
  rw [(hs.isTree ht).bag_eq_sum, hs.attached_eq, ht.bag_eq_sum]
  refine Finset.sum_congr rfl fun x hx => ?_
  have hne : id ≠ x := fun he => hid (he ▸ ht.mem_attached.1 hx)
  unfold bagAt addDiagnostic
  rw [diagnostics_update, if_neg fun h => hne h.1]

/-! ### Moving diagnostics -/

/-- A splice that moves the diagnostics below the replaced child: `taker`, the parent or one of the
new nodes, gets them. -/
structure Moves (t t' : RenderTree) (parent id : NodeId) (ids : List NodeId) (taker : NodeId) : Prop
    extends Splices t t' id ids where
  mem_parent : id ∈ t.children parent
  taker_eq : taker = parent ∨ taker ∈ ids
  fresh : ∀ r ∈ ids, ∀ x, t.Reaches r x → ¬ t.Reaches root x ∧ (t.node x).diagnostics = []
  diagnostics_eq : ∀ x, t'.Reaches root x → (t'.node x).diagnostics =
    (t.node x).diagnostics ++
      if x = taker then (t.subtree id).flatMap fun i => (t.node i).diagnostics else []

theorem Moves.attached_iff (h : Moves t t' parent id ids taker) (ht : t.IsTree) :
    t'.Reaches root x ↔ (t.Reaches root x ∧ ¬ t.Reaches id x) ∨
      (t.Reaches root parent ∧ ∃ r ∈ ids, t.Reaches r x) :=
  h.toSplices.attached_iff ht h.mem_parent fun r hr x hx => (h.fresh r hr x hx).1

/-- Where nothing of the splice is attached, nothing attached changes. -/
theorem Moves.attached_iff_of_not (h : Moves t t' parent id ids taker) (ht : t.IsTree)
    (hp : ¬ t.Reaches root parent) : t'.Reaches root x ↔ t.Reaches root x := by
  rw [h.attached_iff ht]
  constructor
  · rintro (⟨hx, -⟩ | ⟨hp', -⟩)
    · exact hx
    · exact absurd hp' hp
  · exact fun hx => Or.inl ⟨hx, fun hr =>
      hp (ht.attached_parent (ht.attached_of_reaches hx hr) h.mem_parent)⟩

theorem Moves.taker_attached (h : Moves t t' parent id ids taker) (ht : t.IsTree) :
    t'.Reaches root taker ↔ t.Reaches root parent := by
  rw [h.attached_iff ht]
  constructor
  · rintro (⟨hx, -⟩ | ⟨hp, -⟩)
    · rcases h.taker_eq with rfl | hm
      · exact hx
      · exact absurd hx (h.fresh taker hm taker (Reaches.refl t taker)).1
    · exact hp
  · intro hp
    rcases h.taker_eq with rfl | hm
    · exact Or.inl ⟨hp, ht.not_reaches_parent hp h.mem_parent⟩
    · exact Or.inr ⟨hp, taker, hm, Reaches.refl t taker⟩

/-- **A move loses no diagnostic and invents none.** -/
theorem Moves.bag_eq (h : Moves t t' parent id ids taker) (ht : t.IsTree) (ht' : t'.IsTree) :
    t'.bag = t.bag := by
  rw [ht'.bag_eq_sum, ht.bag_eq_sum]
  by_cases hp : t.Reaches root parent
  · have hid : t.Reaches root id := hp.tail h.mem_parent
    have hsub : (t.subtree id).toFinset ⊆ t.attached := by
      intro x hx
      rw [List.mem_toFinset, ht.mem_subtree hid] at hx
      exact ht.mem_attached.2 (hid.trans hx)
    have htaken := coe_flatMap_diagnostics t (ht.nodup_subtree hid)
    have hbag : ∀ x ∈ t'.attached, t'.bagAt x =
        t.bagAt x + if x = taker then ∑ i ∈ (t.subtree id).toFinset, t.bagAt i else 0 := by
      intro x hx
      unfold bagAt
      rw [h.diagnostics_eq x (ht'.mem_attached.1 hx), ← Multiset.coe_add]
      split
      · rw [htaken]; rfl
      · rfl
    -- of the attached nodes, those that are new have no diagnostics of their own
    have hrest : ∑ x ∈ t'.attached, t.bagAt x =
        ∑ x ∈ t.attached \ (t.subtree id).toFinset, t.bagAt x := by
      refine (Finset.sum_subset (fun x hx => ?_) fun x hx hn => ?_).symm
      · rw [Finset.mem_sdiff, List.mem_toFinset, ht.mem_subtree hid, ht.mem_attached] at hx
        exact ht'.mem_attached.2 ((h.attached_iff ht).2 (Or.inl hx))
      · rcases (h.attached_iff ht).1 (ht'.mem_attached.1 hx) with hx | ⟨-, r, hr, hx⟩
        · rw [Finset.mem_sdiff, List.mem_toFinset, ht.mem_subtree hid, ht.mem_attached] at hn
          exact absurd hx hn
        · unfold bagAt
          rw [(h.fresh r hr x hx).2]
          rfl
    rw [Finset.sum_congr rfl hbag, Finset.sum_add_distrib, Finset.sum_ite_eq',
      if_pos (ht'.mem_attached.2 ((h.taker_attached ht).2 hp)), hrest, Finset.sum_sdiff hsub]
  · have hatt : t'.attached = t.attached := by
      ext x
      rw [ht'.mem_attached, ht.mem_attached, h.attached_iff_of_not ht hp]
    rw [hatt]
    refine Finset.sum_congr rfl fun x hx => ?_
    have hx' := (h.attached_iff_of_not ht hp).2 (ht.mem_attached.1 hx)
    unfold bagAt
    rw [h.diagnostics_eq x hx', if_neg, List.append_nil]
    rintro rfl
    exact hp ((h.taker_attached ht).1 hx')

/-! ### Detaching a child -/

/-- What is not in any list of children has nothing attached below it. -/
theorem IsTree.not_attached_below_orphan (ht : t.IsTree) (hne : id ≠ root)
    (ho : ∀ p, id ∉ t.children p) (hx : t.Reaches root x) : ¬ t.Reaches id x := by
  intro hr
  rcases (ht.attached_of_reaches hx hr).cases_parent with he | ⟨p, -, hp⟩
  · exact hne he
  · exact ho p hp

/-- **Detaching a child moves the diagnostics below it to its parent.** -/
theorem moves_detachChild (ht : t.IsTree) (hid : id ∈ t.children parent) :
    Moves t (t.detachChild parent id).1 parent id [] parent := by
  have hsp := splices_removeChild ht hid
  have hrec := rechild_removeChild t parent id
  obtain ⟨t₁, place, hrem⟩ : ∃ t₁ place, t.removeChild parent id = (t₁, some place) := by
    unfold removeChild
    cases hi : (t.children parent).idxOf? id with
    | none => exact absurd hid (List.idxOf?_eq_none_iff.1 hi)
    | some place => exact ⟨_, place, rfl⟩
  rw [hrem] at hsp hrec
  have hdef : (t.detachChild parent id).1 = (t₁.takeDiagnostics id).1.update parent fun n =>
      { n with diagnostics := n.diagnostics ++ (t₁.takeDiagnostics id).2 } := by
    unfold detachChild
    rw [hrem]
  have hs₂ := sameShape_takeDiagnostics t₁ id
  have hs := hs₂.trans (sameShape_update (t₁.takeDiagnostics id).1 parent
    fun n => n.diagnostics ++ (t₁.takeDiagnostics id).2)
  have ht₁ : t₁.IsTree := hsp.isTree ht List.nodup_nil (by simp) (by simp) (by simp)
  rw [hdef]
  refine ⟨hsp.of_sameShape hs, hid, Or.inl rfl, by simp, fun x hx => ?_⟩
  rw [hs.reaches_iff] at hx
  have hnot : x ∉ t₁.subtree id := by
    intro hm
    refine ht₁.not_attached_below_orphan (ht.child_ne_root hid) (fun p hp => ?_) hx
      (mem_below_reaches hm)
    rcases hsp.mem_children.1 hp with ⟨-, hne⟩ | ⟨-, hm⟩
    · exact hne rfl
    · exact List.not_mem_nil hm
  rw [diagnostics_update, hs₂.size_eq, hsp.size_eq]
  by_cases hxp : x = parent
  · subst hxp
    -- below the child, the tree is the same with and without it
    have hatt : t.Reaches root x := by
      rcases (hsp.attached_iff ht hid (by simp)).1 hx with ⟨h, -⟩ | ⟨h, -⟩ <;> exact h
    have hsub : t₁.subtree id = t.subtree id := by
      unfold subtree
      rw [hsp.size_eq]
      refine below_congr fun b hb => ?_
      rw [hsp.children_eq]
      refine splice_of_not_mem fun hm => ?_
      exact ht.not_reaches_parent hatt hid (ht.parent_unique hm hid ▸ hb)
    have hnd : (t₁.subtree id).Nodup := hsub ▸ ht.nodup_subtree (hatt.tail hid)
    rw [if_pos ⟨rfl, lt_size_of_mem_children hid⟩, diagnostics_takeDiagnostics, if_neg hnot,
      takeDiagnostics_snd hnd, if_pos rfl, hsub, hrec.diagnostics_eq]
    congr 1
    exact List.flatMap_congr fun i _ => hrec.diagnostics_eq i
  · rw [if_neg fun h => hxp h.1.symm, diagnostics_takeDiagnostics, if_neg hnot, if_neg hxp,
      List.append_nil, hrec.diagnostics_eq]

theorem IsTree.detachChild (ht : t.IsTree) (hid : id ∈ t.children parent) :
    (t.detachChild parent id).1.IsTree :=
  (moves_detachChild ht hid).toSplices.isTree ht List.nodup_nil (by simp) (by simp) (by simp)

end TagHelpers.RenderTree
