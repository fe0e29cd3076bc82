import TagHelpers.Proofs.Bind.Entry

/-!
# What no step undoes

Lowering works in steps that detach nodes, add diagnostics and put new nodes in the place of bind
attributes. `Evolves` collects what all of them keep: no old node is attached anew, and only uses of
bind attributes are detached; an attached node keeps its diagnostics; no new node is the use of a
bind attribute; and the tree goes on reporting what it reported.

* `evolves_addDiagnostic`, `evolves_detachChild`, `evolves_substitute`: the steps.
* `Evolves.trans`: and so any sequence of them.
* `Refers.tail`: bind attributes that are visited one after the other wait for their turn.
-/

namespace TagHelpers.RenderTree

variable {t t' t'' : RenderTree} {x p id parent : NodeId} {e : BindEntry}
  {r : Reference} {refs : List Reference}

/-- A tree after some steps. -/
structure Evolves (t t' : RenderTree) : Prop where
  isTree : t'.IsTree
  size_le : t.size ≤ t'.size
  kind_eq : ∀ x, x < t.size → t'.kind x = t.kind x
  span_eq : ∀ x, x < t.size → (t'.node x).span = (t.node x).span
  mem_children : ∀ p x, x < t.size → x ∈ t'.children p → x ∈ t.children p
  mem_of_plain : ∀ p x, x ∈ t.children p → (t.node x).isBind = false → x ∈ t'.children p
  children_of_plain : ∀ p, p < t.size → (∀ x ∈ t.children p, (t.node x).isBind = false) →
    t'.children p = t.children p
  attached : ∀ x, x < t.size → t'.Reaches root x → t.Reaches root x
  diagnostics_subset : ∀ x, x < t.size → t'.Reaches root x →
    (t.node x).diagnostics ⊆ (t'.node x).diagnostics
  not_isBind : ∀ x, t.size ≤ x → (t'.node x).isBind = false
  bag_le : t.bag ≤ t'.bag

theorem Evolves.refl (ht : t.IsTree) : Evolves t t :=
  ⟨ht, le_rfl, fun _ _ => rfl, fun _ _ => rfl, fun _ _ _ h => h, fun _ _ h _ => h,
    fun _ _ _ => rfl, fun _ _ h => h, fun _ _ _ => List.Subset.refl _,
    fun _ h => isBind_of_size_le h, le_rfl⟩

/-- No node becomes or ceases to be the use of a bind attribute. -/
theorem Evolves.isBind_eq (h : Evolves t t') (x : NodeId) :
    (t'.node x).isBind = (t.node x).isBind := by
  by_cases hx : x < t.size
  · exact isBind_congr (h.kind_eq x hx)
  · rw [h.not_isBind x (not_lt.1 hx), isBind_of_size_le (not_lt.1 hx)]

theorem Evolves.trans (h : Evolves t t') (h' : Evolves t' t'') : Evolves t t'' where
  isTree := h'.isTree
  size_le := h.size_le.trans h'.size_le
  kind_eq x hx := (h'.kind_eq x (hx.trans_le h.size_le)).trans (h.kind_eq x hx)
  span_eq x hx := (h'.span_eq x (hx.trans_le h.size_le)).trans (h.span_eq x hx)
  mem_children p x hx hm :=
    h.mem_children p x hx (h'.mem_children p x (hx.trans_le h.size_le) hm)
  mem_of_plain p x hx hb :=
    h'.mem_of_plain p x (h.mem_of_plain p x hx hb) ((h.isBind_eq x).trans hb)
  children_of_plain p hp hb := by
    have hc := h.children_of_plain p hp hb
    rw [h'.children_of_plain p (hp.trans_le h.size_le) fun x hx => ?_, hc]
    rw [h.isBind_eq]
    exact hb x (hc ▸ hx)
  attached x hx hr := h.attached x hx (h'.attached x (hx.trans_le h.size_le) hr)
  diagnostics_subset x hx hr :=
    List.Subset.trans (h.diagnostics_subset x hx (h'.attached x (hx.trans_le h.size_le) hr))
      (h'.diagnostics_subset x (hx.trans_le h.size_le) hr)
  not_isBind x hx := (h'.isBind_eq x).trans (h.not_isBind x hx)
  bag_le := h.bag_le.trans h'.bag_le

/-- An attached use of a bind attribute is an old node, and was attached before. -/
theorem Evolves.attached_of_isBind (h : Evolves t t') (hx : t'.Reaches root x)
    (hb : (t'.node x).isBind = true) :
    x < t.size ∧ t.Reaches root x ∧ (t.node x).isBind = true := by
  have hlt : x < t.size := by
    by_contra hc
    rw [h.not_isBind x (not_lt.1 hc)] at hb
    exact Bool.false_ne_true hb
  exact ⟨hlt, h.attached x hlt hx, (h.isBind_eq x).symm.trans hb⟩

/-! ### Below bind attributes -/

/-- A node at or below a bind attribute, be it attached or not. -/
def BelowBind (t : RenderTree) (x : NodeId) : Prop :=
  ∃ a, (t.node a).isBind = true ∧ t.Reaches a x

/-- No path to an old node is new. -/
theorem Evolves.reaches (h : Evolves t t') (hx : x < t.size) (hr : t'.Reaches p x) :
    t.Reaches p x := by
  induction hr with
  | refl => exact Reaches.refl t p
  | @tail q x _ hq ih =>
    have hmem := h.mem_children q x hx hq
    exact (ih (lt_size_of_mem_children hmem)).tail hmem

/-- No old node comes to stand below a bind attribute. -/
theorem Evolves.belowBind (h : Evolves t t') (hx : x < t.size) (hb : t'.BelowBind x) :
    t.BelowBind x := by
  obtain ⟨a, ha, hr⟩ := hb
  exact ⟨a, (h.isBind_eq a).symm.trans ha, h.reaches hx hr⟩

/-- What is taken off a tree at and below a bind attribute stood there. -/
theorem IsTree.exists_of_mem_subtree (ht : t.IsTree) (hid : t.Reaches root id)
    (hb : (t.node id).isBind = true) {d : Diagnostic}
    (hd : d ∈ (t.subtree id).flatMap fun i => (t.node i).diagnostics) :
    ∃ y, t.BelowBind y ∧ t.Reaches root y ∧ d ∈ (t.node y).diagnostics := by
  obtain ⟨y, hy, hd⟩ := List.mem_flatMap.1 hd
  have hr := (ht.mem_subtree hid).1 hy
  exact ⟨y, ⟨id, hb, hr⟩, hid.trans hr, hd⟩

/-! ### The steps -/

theorem evolves_addDiagnostic (ht : t.IsTree) (id : NodeId) (d : Diagnostic) :
    Evolves t (t.addDiagnostic id d) := by
  have hs := sameShape_addDiagnostic t id d
  refine ⟨hs.isTree ht, hs.size_eq.ge, fun x _ => hs.kind_eq x, fun x _ => hs.span_eq x,
    fun p x _ hm => by rwa [hs.children_eq] at hm, fun p x hm _ => by rwa [hs.children_eq],
    fun p _ _ => hs.children_eq p, fun x _ hr => hs.reaches_iff.1 hr, fun x _ _ => ?_,
    fun x hx => ?_, ?_⟩
  · unfold addDiagnostic
    rw [diagnostics_update]
    split
    · exact List.subset_append_left _ _
    · exact List.Subset.refl _
  · rw [isBind_congr (hs.kind_eq x)]
    exact isBind_of_size_le hx
  · by_cases hid : t.Reaches root id
    · rw [ht.bag_addDiagnostic d hid]
      exact Multiset.le_add_right _ _
    · rw [ht.bag_addDiagnostic_of_not d hid]

theorem evolves_detachChild (ht : t.IsTree) (hid : id ∈ t.children parent)
    (hb : (t.node id).isBind = true) :
    Evolves t (t.detachChild parent id).1 := by
  have hm := moves_detachChild ht hid
  have ht' := ht.detachChild hid
  refine ⟨ht', hm.size_eq.ge, fun x _ => hm.kind_eq x, fun x _ => hm.span_eq x,
    fun p x _ hx => ?_, fun p x hx hx' => ?_, fun p _ hp => ?_, fun x _ hr => ?_,
    fun x _ hr => ?_, fun x hx => ?_, (hm.bag_eq ht ht').ge⟩
  · rcases hm.toSplices.mem_children.1 hx with ⟨hx, -⟩ | ⟨-, hx⟩
    · exact hx
    · exact absurd hx List.not_mem_nil
  · exact hm.toSplices.mem_children.2 (Or.inl ⟨hx, ne_of_isBind hx' hb⟩)
  · rw [hm.children_eq, splice_of_not_mem fun hm => ne_of_isBind (hp id hm) hb rfl]
  · rcases (hm.attached_iff ht).1 hr with ⟨hr, -⟩ | ⟨-, r, hr, -⟩
    · exact hr
    · exact absurd hr List.not_mem_nil
  · rw [hm.diagnostics_eq x hr]
    exact List.subset_append_left _ _
  · rw [isBind_congr (hm.kind_eq x)]
    exact isBind_of_size_le hx

theorem evolves_noteExtraSegment (ht : t.IsTree) (id : NodeId) (p : Property) :
    Evolves t (t.noteExtraSegment id p) := by
  unfold noteExtraSegment
  split
  · exact evolves_addDiagnostic ht _ _
  · exact Evolves.refl ht

/-- Putting new nodes in the place of an attribute. -/
theorem evolves_substitute {t₁ : RenderTree} {span : Span} {as : List LoweredAttribute}
    {ids : List NodeId} (h : Allocated t t₁ span as ids) (ht : t.IsTree)
    (he : e.node ∈ t.children e.parent) (hb : (t.node e.node).isBind = true) (hne : as ≠ [])
    (hplain : ∀ a ∈ as, ∀ q, a.kind ≠ .property q ∧ a.valueKind ≠ .property q) :
    Evolves t (t₁.substitute e ids) := by
  have hm := moves_substitute h ht he hne
  have ht₁ := h.isTree ht
  -- the new nodes are behind the old ones, so the root is none of them
  have hroot : root ∉ ids := fun hr => not_lt.2 (h.mem_ids hr).1 ht.root_lt
  have ht' : (t₁.substitute e ids).IsTree := hm.toSplices.isTree ht₁ h.nodup_ids
    (fun x hx => (h.mem_ids hx).2.1) hroot fun x hx p => h.not_mem_children ht hx p
  have hsize : t.size ≤ t₁.size := by rw [h.size_eq]; exact Nat.le_add_right _ _
  refine ⟨ht', hm.size_eq ▸ hsize, fun x hx => ?_, fun x hx => ?_, fun p x hx hc => ?_,
    fun p x hx hx' => ?_, fun p hp hx => ?_, fun x hx hr => ?_, fun x hx hr => ?_,
    fun x hx => ?_, ?_⟩
  · rw [hm.kind_eq]
    unfold kind
    rw [h.old x hx]
  · rw [hm.span_eq, h.old x hx]
  · rcases hm.toSplices.mem_children.1 hc with ⟨hc, -⟩ | ⟨-, hc⟩
    · rwa [h.children_old ((h.child_old_iff ht hc).1 hx)] at hc
    · exact absurd hx (not_lt.2 (h.mem_ids hc).1)
  · refine hm.toSplices.mem_children.2 (Or.inl ⟨?_, ne_of_isBind hx' hb⟩)
    rwa [h.children_old (lt_size_of_mem_children hx)]
  · rw [hm.children_eq, h.children_old hp,
      splice_of_not_mem fun hm => ne_of_isBind (hx _ hm) hb rfl]
  · rcases (hm.attached_iff ht₁).1 hr with ⟨hr, -⟩ | ⟨-, r, hrm, hrx⟩
    · exact (h.attached_iff ht).1 hr
    · exact absurd hx (not_lt.2 (h.reaches_new ht (h.mem_ids hrm).1 hrx))
  · rw [hm.diagnostics_eq x hr, h.old x hx]
    exact List.subset_append_left _ _
  · rw [isBind_congr (hm.kind_eq x)]
    by_cases hx' : x < t₁.size
    · -- an attribute, its value or its token, and none of these is a use of a bound attribute
      refine isBind_of_ne_property fun q => ?_
      unfold kind
      obtain ⟨i, a, ha, rfl | rfl | rfl⟩ := h.node_cases hx hx'
      · rw [h.head i a ha]
        exact (hplain a (List.mem_of_getElem? ha) q).1
      · rw [h.value i a ha]
        exact (hplain a (List.mem_of_getElem? ha) q).2
      · rw [h.token i a ha]
        exact nofun
    · exact isBind_of_size_le (not_lt.1 hx')
  · rw [hm.bag_eq ht₁ ht', h.bag_eq ht]

/-! ### References to bind attributes -/

/-- References to different bind attributes, each to a child of its parent. -/
structure Refers (t : RenderTree) (refs : List Reference) : Prop where
  isTree : t.IsTree
  nodup : (refs.map (·.node)).Nodup
  mem_children : ∀ r ∈ refs, r.node ∈ t.children r.parent
  isBind : ∀ r ∈ refs, (t.node r.node).isBind = true

/-- A step that takes no child but the first one off its list leaves the other references. -/
theorem Refers.tail (h : Refers t (r :: refs)) (hev : Evolves t t')
    (hstay : ∀ p, ∀ x ∈ t.children p, x ≠ r.node → x ∈ t'.children p) : Refers t' refs := by
  have hnd := h.nodup
  rw [List.map_cons, List.nodup_cons] at hnd
  refine ⟨hev.isTree, hnd.2, fun s hs => ?_, fun s hs => ?_⟩
  · refine hstay s.parent s.node (h.mem_children s (List.mem_cons_of_mem _ hs)) fun he => ?_
    exact hnd.1 (he ▸ List.mem_map_of_mem hs)
  · exact (hev.isBind_eq _).trans (h.isBind s (List.mem_cons_of_mem _ hs))

end TagHelpers.RenderTree
