import TagHelpers.Proofs.Bind.Evolution

/-!
# What lowering reads

Where no bind attribute stands below another one, the steps of lowering leave everything below a
bind attribute as it is, and everything that is not below one stays attached.

* `attributeCode_congr`: the code of an attribute depends on what is below it only.
* `SameShape.lowered_eq`: it does not depend on diagnostics.
* `Evolves.children_of_inBind`, `Evolves.attached_of_not_inBind`: the two halves of the tree.
* `Evolves.lowered_eq`: a bind attribute stands for the same attributes whenever it is lowered.
-/

namespace TagHelpers.RenderTree

variable {t t' : RenderTree} {x a b : NodeId} {n m : ℕ} {c : Catalog} {e : BindEntry} {p : Property}

/-! ### The code of an attribute -/

theorem content_congr (ht : t.IsTree) (ha : t.Reaches root a) (hsize : t.size ≤ t'.size)
    (h : ∀ b, t.Reaches a b → t'.kind b = t.kind b ∧ t'.children b = t.children b) :
    t'.content a = t.content a := by
  have hsub : t'.subtree a = t.subtree a := by
    unfold subtree
    rw [below_congr fun b hb => (h b hb).2, (ht.endsWithin ha).below_eq hsize]
  unfold content
  rw [hsub]
  congr 1
  refine List.map_congr_left fun b hb => ?_
  rw [(h b (mem_below_reaches hb)).1]

theorem codeBelow_congr (hend : t.EndsWithin n a) (hm : n ≤ m)
    (h : ∀ b, t.Reaches a b →
      t'.kind b = t.kind b ∧ t'.children b = t.children b ∧ t'.content b = t.content b) :
    t'.codeBelow m a = t.codeBelow n a := by
  induction n generalizing m a with
  | zero => exact hend.elim
  | succ n ih =>
    -- the larger tree walks with more fuel than it needs
    obtain ⟨m, rfl⟩ : ∃ k, m = k + 1 := ⟨m - 1, by omega⟩
    rw [codeBelow, codeBelow, (h a (Reaches.refl t a)).2.1]
    congr 1
    refine List.map_congr_left fun child hc => ?_
    have hchild : t.Reaches a child := (Reaches.refl t a).tail hc
    obtain ⟨hk, -, hcontent⟩ := h child hchild
    have hrec := ih (hend child hc) (Nat.le_of_succ_le_succ hm) fun b hb => h b (hchild.trans hb)
    rw [hk, hcontent, hrec]

/-- **The code of an attribute depends on what is below it only.** -/
theorem attributeCode_congr (ht : t.IsTree) (ha : t.Reaches root a) (hsize : t.size ≤ t'.size)
    (h : ∀ b, t.Reaches a b → t'.kind b = t.kind b ∧ t'.children b = t.children b) :
    t'.attributeCode a = t.attributeCode a := by
  refine codeBelow_congr (ht.endsWithin ha) hsize fun b hb => ⟨(h b hb).1, (h b hb).2, ?_⟩
  exact content_congr ht (ha.trans hb) hsize fun b' hb' => h b' (hb.trans hb')

/-! ### Trees that differ in their diagnostics -/

theorem SameShape.content_eq (h : SameShape t t') (a : NodeId) : t'.content a = t.content a := by
  have hkind : t'.kind = t.kind := funext h.kind_eq
  unfold content
  rw [h.subtree_eq, hkind]

theorem SameShape.codeBelow_eq (h : SameShape t t') (n : ℕ) (a : NodeId) :
    t'.codeBelow n a = t.codeBelow n a := by
  induction n generalizing a with
  | zero => rfl
  | succ n ih =>
    rw [codeBelow, codeBelow, h.children_eq]
    congr 1
    refine List.map_congr_left fun child _ => ?_
    rw [h.kind_eq, h.content_eq, ih]

theorem SameShape.attributeCode_eq (h : SameShape t t') (a : NodeId) :
    t'.attributeCode a = t.attributeCode a := by
  unfold attributeCode
  rw [h.size_eq, h.codeBelow_eq]

/-- What a bind attribute stands for does not depend on diagnostics. -/
theorem SameShape.lowered_eq (h : SameShape t t') (c : Catalog) (e : BindEntry) (p : Property) :
    t'.lowered c e p = t.lowered c e p := by
  have hsource : t'.bindSource e = t.bindSource e := by
    unfold bindSource
    rw [funext h.attributeCode_eq]
  unfold lowered
  rw [hsource, h.kind_eq]

/-! ### Bind attributes that do not stand below one another -/

/-- No bind attribute stands below another one. -/
def NoNestedBinds (t : RenderTree) : Prop :=
  ∀ a ∈ t.preorder, (t.node a).isBind = true → ∀ b ∈ t.subtree a, (t.node b).isBind = true → b = a

instance (t : RenderTree) : Decidable t.NoNestedBinds :=
  inferInstanceAs (Decidable (∀ a ∈ t.preorder, (t.node a).isBind = true →
    ∀ b ∈ t.subtree a, (t.node b).isBind = true → b = a))

/-- A node at or below a bind attribute. -/
def InBind (t : RenderTree) (x : NodeId) : Prop :=
  ∃ a ∈ t.preorder, (t.node a).isBind = true ∧ x ∈ t.subtree a

theorem IsTree.inBind_iff (ht : t.IsTree) :
    t.InBind x ↔ ∃ a, t.Reaches root a ∧ (t.node a).isBind = true ∧ t.Reaches a x := by
  unfold InBind
  refine exists_congr fun a => ?_
  rw [ht.mem_preorder]
  refine and_congr_right fun ha => and_congr_right fun _ => ?_
  rw [ht.mem_subtree ha]

theorem IsTree.inBind_of_reaches (ht : t.IsTree) (h : t.InBind a) (hr : t.Reaches a x) :
    t.InBind x := by
  rw [ht.inBind_iff] at h ⊢
  obtain ⟨b, hb, hbind, hba⟩ := h
  exact ⟨b, hb, hbind, hba.trans hr⟩

theorem IsTree.attached_of_inBind (ht : t.IsTree) (h : t.InBind x) : t.Reaches root x := by
  obtain ⟨a, ha, -, hr⟩ := ht.inBind_iff.1 h
  exact ha.trans hr

/-- Below a bind attribute there are no others. -/
theorem NoNestedBinds.plain_child (hn : t.NoNestedBinds) (ht : t.IsTree) (h : t.InBind x)
    (hb : b ∈ t.children x) : (t.node b).isBind = false := by
  obtain ⟨a, ha, hbind, hr⟩ := ht.inBind_iff.1 h
  refine Bool.eq_false_iff.2 fun hbb => ?_
  have hab : b = a := hn a (ht.mem_preorder.2 ha) hbind b ((ht.mem_subtree ha).2 (hr.tail hb)) hbb
  subst hab
  exact ht.not_reaches_parent (ha.trans hr) hb hr

/-- **What is below a bind attribute keeps its children.** -/
theorem Evolves.children_of_inBind (h : Evolves t t') (ht : t.IsTree) (hn : t.NoNestedBinds)
    (hx : t.InBind x) : t'.children x = t.children x :=
  h.children_of_plain x (ht.lt_size_of_attached (ht.attached_of_inBind hx)) fun _ hb =>
    hn.plain_child ht hx hb

/-- **What is not below a bind attribute stays attached.** -/
theorem Evolves.attached_of_not_inBind (h : Evolves t t') (ht : t.IsTree) (hx : t.Reaches root x)
    (hnot : ¬ t.InBind x) : t'.Reaches root x := by
  induction hx with
  | refl => exact Reaches.refl t' root
  | @tail p x hp hx ih =>
    have hpx : t.Reaches p x := (Reaches.refl t p).tail hx
    refine (ih fun hin => hnot (ht.inBind_of_reaches hin hpx)).tail (h.mem_of_plain p x hx ?_)
    exact Bool.eq_false_iff.2 fun hb =>
      hnot (ht.inBind_iff.2 ⟨x, hp.tail hx, hb, Reaches.refl t x⟩)

/-- The parent of a bind attribute is not below another one. -/
theorem NoNestedBinds.parent_not_inBind (hn : t.NoNestedBinds) (ht : t.IsTree)
    (hb : b ∈ t.children x) (hbind : (t.node b).isBind = true) : ¬ t.InBind x := fun hin =>
  Bool.false_ne_true ((hn.plain_child ht hin hb).symm.trans hbind)

/-! ### Outcomes -/

theorem Evolves.attributeCode_eq (h : Evolves t t') (ht : t.IsTree) (hn : t.NoNestedBinds)
    (ha : t.Reaches root a) (hb : (t.node a).isBind = true) :
    t'.attributeCode a = t.attributeCode a := by
  refine attributeCode_congr ht ha h.size_le fun b hab => ⟨?_, ?_⟩
  · exact h.kind_eq b (ht.lt_size_of_attached (ha.trans hab))
  · exact h.children_of_inBind ht hn (ht.inBind_iff.2 ⟨a, ha, hb, hab⟩)

/-- An entry whose attribute and parameters are attached bind attributes. -/
structure Reads (t : RenderTree) (e : BindEntry) : Prop where
  parent_lt : e.parent < t.size
  node : t.Reaches root e.node ∧ (t.node e.node).isBind = true
  event : ∀ id ∈ e.event, t.Reaches root id ∧ (t.node id).isBind = true
  format : ∀ id ∈ e.format, t.Reaches root id ∧ (t.node id).isBind = true

theorem Evolves.bindSource_eq (h : Evolves t t') (ht : t.IsTree) (hn : t.NoNestedBinds)
    (he : t.Reads e) : t'.bindSource e = t.bindSource e := by
  have hformat : e.format.map t'.attributeCode = e.format.map t.attributeCode :=
    Option.map_congr fun id hid =>
      h.attributeCode_eq ht hn (he.format id hid).1 (he.format id hid).2
  have hevent : (e.event.map fun id => Text.trim (Text.trimQuotes (t'.attributeCode id))) =
      e.event.map fun id => Text.trim (Text.trimQuotes (t.attributeCode id)) :=
    Option.map_congr fun id hid => by
      rw [h.attributeCode_eq ht hn (he.event id hid).1 (he.event id hid).2]
  unfold bindSource
  rw [h.attributeCode_eq ht hn he.node.1 he.node.2, hformat, hevent]

/-- **A bind attribute stands for the same attributes whenever it is lowered.** -/
theorem Evolves.lowered_eq (h : Evolves t t') (ht : t.IsTree) (hn : t.NoNestedBinds)
    (he : t.Reads e) : t'.lowered c e p = t.lowered c e p := by
  unfold lowered
  rw [h.bindSource_eq ht hn he, h.kind_eq e.parent he.parent_lt]

end TagHelpers.RenderTree
