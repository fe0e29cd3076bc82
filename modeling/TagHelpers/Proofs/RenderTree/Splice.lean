import TagHelpers.Proofs.RenderTree.Tree

/-!
# Putting nodes in the place of a child

Taking a child off its list and putting other nodes in its place are one change, `Splices`: in the
one list in which the child stands, other nodes stand for it. The child is not attached any more,
and neither is anything below it.

* `Splices.isTree`: the tree stays a tree if the new nodes are attached nowhere else.
* `Splices.attached_iff`: what is attached afterwards.
* `splices_removeChild`, `splices_replaceChild`: the two operations that do this.
-/

namespace TagHelpers.RenderTree

variable {t t' : RenderTree} {p c x id parent : NodeId} {ids : List NodeId}

/-! ### Splicing a list -/

/-- A list with others in the place of an element. -/
def splice (id : NodeId) (ids : List NodeId) (cs : List NodeId) : List NodeId :=
  cs.flatMap fun c => if c = id then ids else [c]

theorem mem_splice {cs : List NodeId} :
    x ∈ splice id ids cs ↔ (x ∈ cs ∧ x ≠ id) ∨ (id ∈ cs ∧ x ∈ ids) := by
  unfold splice
  rw [List.mem_flatMap]
  constructor
  · rintro ⟨c, hc, hx⟩
    by_cases h : c = id
    · rw [if_pos h] at hx
      exact Or.inr ⟨h ▸ hc, hx⟩
    · rw [if_neg h, List.mem_singleton] at hx
      exact Or.inl ⟨hx ▸ hc, hx ▸ h⟩
  · rintro (⟨hx, hne⟩ | ⟨hid, hx⟩)
    · exact ⟨x, hx, by rw [if_neg hne]; exact List.mem_singleton_self x⟩
    · exact ⟨id, hid, by rw [if_pos rfl]; exact hx⟩

theorem splice_of_not_mem {cs : List NodeId} (h : id ∉ cs) : splice id ids cs = cs := by
  have h1 : splice id ids cs = cs.flatMap fun c => [c] := by
    refine List.flatMap_congr fun c hc => if_neg ?_
    rintro rfl
    exact h hc
  rw [h1, List.flatMap_singleton']

theorem splice_self (id : NodeId) (cs : List NodeId) : splice id [id] cs = cs := by
  unfold splice
  conv_rhs => rw [← List.flatMap_singleton' cs]
  refine List.flatMap_congr fun x _ => ?_
  split
  · rename_i h
    rw [h]
  · rfl

theorem nodup_splice {cs : List NodeId} (hc : cs.Nodup) (hids : ids.Nodup)
    (hd : ∀ x ∈ ids, x ∉ cs) : (splice id ids cs).Nodup := by
  unfold splice
  refine List.nodup_flatMap.2 ⟨fun c _ => ?_, hc.imp_of_mem ?_⟩
  · split
    · exact hids
    · exact List.nodup_singleton c
  · intro a b ha hb hne x hxa hxb
    simp only at hxa hxb
    split at hxa
    · split at hxb
      · simp_all
      · exact hd x hxa (List.mem_singleton.1 hxb ▸ hb)
    · rw [List.mem_singleton] at hxa
      subst hxa
      split at hxb
      · exact hd x hxb ha
      · exact hne (List.mem_singleton.1 hxb)

/-- Splicing at the first place where an element stands. -/
theorem take_append_drop_eq_splice {cs : List NodeId} {place : ℕ} (hc : cs.Nodup)
    (h : cs.idxOf? id = some place) :
    cs.take place ++ ids ++ cs.drop (place + 1) = splice id ids cs := by
  obtain ⟨hlt, hget, -⟩ := List.idxOf?_eq_some_iff.1 h
  have hsplit : cs = cs.take place ++ id :: cs.drop (place + 1) := by
    rw [← hget, List.getElem_cons_drop, List.take_append_drop]
  obtain ⟨pre, suf, hpre, hsuf⟩ : ∃ pre suf, pre = cs.take place ∧ suf = cs.drop (place + 1) :=
    ⟨_, _, rfl, rfl⟩
  rw [← hpre, ← hsuf] at hsplit ⊢
  subst hsplit
  have hpn : id ∉ pre := fun hm => (List.nodup_append.1 hc).2.2 id hm id List.mem_cons_self rfl
  have hsn : id ∉ suf := (List.nodup_cons.1 (List.nodup_append.1 hc).2.1).1
  have h1 : splice id ids (pre ++ id :: suf) = splice id ids pre ++ (ids ++ splice id ids suf) := by
    simp [splice]
  rw [h1, splice_of_not_mem hpn, splice_of_not_mem hsn, List.append_assoc]

theorem erase_eq_splice {cs : List NodeId} (hc : cs.Nodup) : cs.erase id = splice id [] cs := by
  rw [List.erase_eq_eraseIdx]
  cases h : cs.idxOf? id with
  | none => exact (splice_of_not_mem (List.idxOf?_eq_none_iff.1 h)).symm
  | some place =>
    rw [← take_append_drop_eq_splice hc h, List.append_nil]
    exact List.eraseIdx_eq_take_drop_succ cs place

/-! ### Splicing a tree -/

/-- `t'` is `t` with the nodes `ids` in the place of the child `id`. Nothing is said of
diagnostics. -/
structure Splices (t t' : RenderTree) (id : NodeId) (ids : List NodeId) : Prop where
  size_eq : t'.size = t.size
  kind_eq : ∀ x, t'.kind x = t.kind x
  span_eq : ∀ x, (t'.node x).span = (t.node x).span
  children_eq : ∀ x, t'.children x = splice id ids (t.children x)

theorem Splices.mem_children (h : Splices t t' id ids) :
    c ∈ t'.children p ↔ (c ∈ t.children p ∧ c ≠ id) ∨ (id ∈ t.children p ∧ c ∈ ids) := by
  rw [h.children_eq]
  exact mem_splice

theorem Splices.of_sameShape {t'' : RenderTree} (h : Splices t t' id ids) (h' : SameShape t' t'') :
    Splices t t'' id ids :=
  ⟨h'.size_eq.trans h.size_eq, fun x => (h'.kind_eq x).trans (h.kind_eq x),
    fun x => (h'.span_eq x).trans (h.span_eq x),
    fun x => (h'.children_eq x).trans (h.children_eq x)⟩

theorem SameShape.splices {t₀ : RenderTree} (h : SameShape t₀ t) (h' : Splices t t' id ids) :
    Splices t₀ t' id ids :=
  ⟨h'.size_eq.trans h.size_eq, fun x => (h'.kind_eq x).trans (h.kind_eq x),
    fun x => (h'.span_eq x).trans (h.span_eq x),
    fun x => (h'.children_eq x).trans (by rw [h.children_eq])⟩

/-- **Splicing keeps the tree a tree** if the new nodes are attached nowhere. -/
theorem Splices.isTree (h : Splices t t' id ids) (ht : t.IsTree) (hids : ids.Nodup)
    (hlt : ∀ x ∈ ids, x < t.size) (hroot : root ∉ ids) (hnew : ∀ x ∈ ids, ∀ p, x ∉ t.children p) :
    t'.IsTree := by
  refine IsTree.of_children (h.size_eq ▸ ht.root_lt) (fun p => ?_) (fun p q c hp hq => ?_)
    (fun p hp => ?_) (fun p c hp => ?_)
  · rw [h.children_eq]
    exact nodup_splice (ht.nodup_children p) hids fun x hx => hnew x hx p
  · rcases h.mem_children.1 hp with ⟨hp, -⟩ | ⟨hp, hc⟩
    · rcases h.mem_children.1 hq with ⟨hq, -⟩ | ⟨-, hc⟩
      · exact ht.parent_unique hp hq
      · exact absurd hp (hnew c hc p)
    · rcases h.mem_children.1 hq with ⟨hq, -⟩ | ⟨hq, -⟩
      · exact absurd hq (hnew c hc q)
      · exact ht.parent_unique hp hq
  · rcases h.mem_children.1 hp with ⟨hp, -⟩ | ⟨-, hc⟩
    · exact ht.child_ne_root hp rfl
    · exact hroot hc
  · rw [h.size_eq]
    rcases h.mem_children.1 hp with ⟨hp, -⟩ | ⟨-, hc⟩
    · exact ht.lt_of_child hp
    · exact hlt c hc

/-- **What is attached after splicing**: what was attached before and is not below the node that is
replaced, and, if that node was attached, what is below the new nodes. -/
theorem Splices.attached_iff (h : Splices t t' id ids) (ht : t.IsTree)
    (hid : id ∈ t.children parent)
    (hnew : ∀ r ∈ ids, ∀ x, t.Reaches r x → ¬ t.Reaches root x) :
    t'.Reaches root x ↔ (t.Reaches root x ∧ ¬ t.Reaches id x) ∨
      (t.Reaches root parent ∧ ∃ r ∈ ids, t.Reaches r x) := by
  constructor
  · intro hx
    induction hx with
    | refl =>
      refine Or.inl ⟨Reaches.refl t root, fun hr => ?_⟩
      exact ht.child_ne_root hid (ht.eq_root_of_reaches hr)
    | @tail y z _ hz ih =>
      rcases h.mem_children.1 hz with ⟨hz, hne⟩ | ⟨hy, hz⟩
      · rcases ih with ⟨h1, h2⟩ | ⟨h1, r, hr, h2⟩
        · refine Or.inl ⟨h1.tail hz, fun hr => ?_⟩
          -- `z` is not the replaced node, so what is above it is above its parent
          rcases hr.cases_parent with he | ⟨q, hq, hzq⟩
          · exact hne he
          · exact h2 (ht.parent_unique hzq hz ▸ hq)
        · exact Or.inr ⟨h1, r, hr, h2.tail hz⟩
      · have hp : y = parent := ht.parent_unique hy hid
        subst hp
        rcases ih with ⟨h1, -⟩ | ⟨h1, -, -, -⟩
        · exact Or.inr ⟨h1, z, hz, Reaches.refl t z⟩
        · exact Or.inr ⟨h1, z, hz, Reaches.refl t z⟩
  · have old : ∀ x, t.Reaches root x → ¬ t.Reaches id x → t'.Reaches root x := by
      intro x hx
      induction hx with
      | refl => intro _; exact Reaches.refl t' root
      | @tail y z _ hz ih =>
        intro hn
        refine (ih fun hr => hn (hr.tail hz)).tail (h.mem_children.2 (Or.inl ⟨hz, ?_⟩))
        rintro rfl
        exact hn (Reaches.refl t z)
    rintro (⟨h1, h2⟩ | ⟨h1, r, hr, h2⟩)
    · exact old x h1 h2
    · have hpar := old parent h1 (ht.not_reaches_parent h1 hid)
      have hroot : t'.Reaches root r := hpar.tail (h.mem_children.2 (Or.inr ⟨hid, hr⟩))
      -- what is below a new node is not attached yet, so nothing there is replaced
      induction h2 with
      | refl => exact hroot
      | @tail y z hy hz ih =>
        refine ih.tail (h.mem_children.2 (Or.inl ⟨hz, ?_⟩))
        rintro rfl
        exact hnew r hr y hy (ht.parent_unique hz hid ▸ h1)

/-! ### The operations -/

theorem rechild_splices (hid : id ∈ t.children parent) (ht : t.IsTree)
    (h : Rechild t t' parent (splice id ids (t.children parent))) : Splices t t' id ids := by
  refine ⟨h.size_eq, h.kind_eq, h.span_eq, fun x => ?_⟩
  rw [h.children_eq]
  split
  · rename_i he; rw [he]
  · rename_i hne
    exact (splice_of_not_mem fun hm => hne (ht.parent_unique hm hid)).symm

theorem splices_removeChild (ht : t.IsTree) (hid : id ∈ t.children parent) :
    Splices t (t.removeChild parent id).1 id [] := by
  have h := rechild_removeChild t parent id
  rw [erase_eq_splice (ht.nodup_children parent)] at h
  exact rechild_splices hid ht h

theorem rechild_replaceChild (ids : List NodeId) (ht : t.IsTree) (hid : id ∈ t.children parent) :
    Rechild t (t.replaceChild parent id ids).1 parent (splice id ids (t.children parent)) := by
  unfold replaceChild
  cases hi : (t.children parent).idxOf? id with
  | none => exact absurd hid (List.idxOf?_eq_none_iff.1 hi)
  | some place =>
    rw [← take_append_drop_eq_splice (ht.nodup_children parent) hi]
    exact rechild_update (fun cs => cs.take place ++ ids ++ cs.drop (place + 1))
      (lt_size_of_mem_children hid)

theorem splices_replaceChild (ht : t.IsTree) (hid : id ∈ t.children parent) :
    Splices t (t.replaceChild parent id ids).1 id ids :=
  rechild_splices hid ht (rechild_replaceChild ids ht hid)

end TagHelpers.RenderTree
