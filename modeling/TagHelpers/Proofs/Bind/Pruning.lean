import TagHelpers.Proofs.Bind.Evolution

/-!
# Pruning

Before any bind attribute is lowered, children are taken off their lists and diagnostics are added,
and nothing else is done. `Prunes` says which children are gone and which diagnostics have been
added to which nodes. The tree reports exactly these in addition, as long as those nodes are
attached.
-/

namespace TagHelpers.RenderTree

variable {t t' t'' : RenderTree} {id parent : NodeId} {gone gone' : Reference → Bool}
  {reports reports' : List (NodeId × Diagnostic)}

/-- A tree without some of its children and with some more diagnostics. -/
structure Prunes (t t' : RenderTree) (gone : Reference → Bool)
    (reports : List (NodeId × Diagnostic)) : Prop where
  evolves : Evolves t t'
  size_eq : t'.size = t.size
  kind_eq : ∀ x, t'.kind x = t.kind x
  span_eq : ∀ x, (t'.node x).span = (t.node x).span
  children_eq : ∀ p, t'.children p = (t.children p).filter fun c => !gone ⟨p, c⟩
  bag_eq : (∀ r ∈ reports, t'.Reaches root r.1) → t'.bag = t.bag + (reports.map (·.2) : Multiset _)
  /-- A diagnostic has been added where it is, or has come from a bind attribute. -/
  origin : ∀ x, t'.Reaches root x → ∀ d ∈ (t'.node x).diagnostics, ∃ y, (y = x ∨ t.BelowBind y) ∧
    (t.Reaches root y ∧ d ∈ (t.node y).diagnostics ∨ (y, d) ∈ reports)
  reported : ∀ r ∈ reports, t'.Reaches root r.1 → r.2 ∈ (t'.node r.1).diagnostics

theorem Prunes.refl (ht : t.IsTree) : Prunes t t (fun _ => false) [] where
  evolves := Evolves.refl ht
  size_eq := rfl
  kind_eq _ := rfl
  span_eq _ := rfl
  children_eq p := by simp
  bag_eq _ := by simp
  origin x hx _ hd := ⟨x, .inl rfl, .inl ⟨hx, hd⟩⟩
  reported _ hr := absurd hr List.not_mem_nil

/-- No node is attached anew. -/
theorem Prunes.attached (h : Prunes t t' gone reports) {x : NodeId} (hx : t'.Reaches root x) :
    t.Reaches root x := by
  have hlt := h.evolves.isTree.lt_size_of_attached hx
  rw [h.size_eq] at hlt
  exact h.evolves.attached x hlt hx

theorem Prunes.belowBind (h : Prunes t t' gone reports) {x : NodeId} (hx : t'.BelowBind x) :
    t.BelowBind x := by
  obtain ⟨a, ha, hr⟩ := hx
  refine ⟨a, (h.evolves.isBind_eq a).symm.trans ha, ?_⟩
  refine Relation.ReflTransGen.mono (fun p c (hc : c ∈ t'.children p) => ?_) a x hr
  rw [h.children_eq] at hc
  exact List.mem_of_mem_filter hc

theorem Prunes.trans (h : Prunes t t' gone reports) (h' : Prunes t' t'' gone' reports') :
    Prunes t t'' (fun r => gone r || gone' r) (reports ++ reports') where
  evolves := h.evolves.trans h'.evolves
  size_eq := h'.size_eq.trans h.size_eq
  kind_eq x := (h'.kind_eq x).trans (h.kind_eq x)
  span_eq x := (h'.span_eq x).trans (h.span_eq x)
  children_eq p := by
    rw [h'.children_eq, h.children_eq, List.filter_filter]
    refine List.filter_congr fun c _ => ?_
    rw [Bool.not_or, Bool.and_comm]
  bag_eq hr := by
    -- what is attached in the end was attached in between
    have h1 : ∀ r ∈ reports, t'.Reaches root r.1 := fun r hm =>
      h'.attached (hr r (List.mem_append_left _ hm))
    have h2 := h'.bag_eq fun r hm => hr r (List.mem_append_right _ hm)
    rw [h2, h.bag_eq h1, List.map_append, ← Multiset.coe_add, add_assoc]
  origin x hx d hd := by
    obtain ⟨y', hy', hd' | hd'⟩ := h'.origin x hx d hd
    · obtain ⟨y, hy, hd⟩ := h.origin y' hd'.1 d hd'.2
      refine ⟨y, ?_, hd.imp_right (List.mem_append_left _)⟩
      rcases hy with rfl | hy
      · exact hy'.imp_right h.belowBind
      · exact .inr hy
    · exact ⟨y', hy'.imp_right h.belowBind, .inr (List.mem_append_right _ hd')⟩
  reported r hr hx := by
    rcases List.mem_append.1 hr with hr | hr
    · have hx' := h'.attached hx
      refine h'.evolves.diagnostics_subset r.1 ?_ hx (h.reported r hr hx')
      exact h.evolves.isTree.lt_size_of_attached hx'
    · exact h'.reported r hr hx

/-- Saying in other words which children are gone. -/
theorem Prunes.congr (h : Prunes t t' gone reports) (gone' : Reference → Bool)
    (hg : ∀ p, ∀ c ∈ t.children p, gone ⟨p, c⟩ = gone' ⟨p, c⟩) : Prunes t t' gone' reports :=
  ⟨h.evolves, h.size_eq, h.kind_eq, h.span_eq, fun p => by
    rw [h.children_eq]
    exact List.filter_congr fun c hc => by rw [hg p c hc], h.bag_eq, h.origin, h.reported⟩

theorem Prunes.mem_children (h : Prunes t t' gone reports) {p c : NodeId} :
    c ∈ t'.children p ↔ c ∈ t.children p ∧ gone ⟨p, c⟩ = false := by
  rw [h.children_eq, List.mem_filter, Bool.not_eq_true']

/-! ### The steps -/

theorem prunes_addDiagnostic (ht : t.IsTree) (id : NodeId) (d : Diagnostic) :
    Prunes t (t.addDiagnostic id d) (fun _ => false) [(id, d)] := by
  have hs := sameShape_addDiagnostic t id d
  refine ⟨evolves_addDiagnostic ht id d, hs.size_eq, hs.kind_eq, hs.span_eq, fun p => ?_,
    fun hr => ?_, fun x hx d' hd' => ⟨x, .inl rfl, ?_⟩, fun r hr hx => ?_⟩
  · rw [hs.children_eq]
    simp
  · have hid := hr (id, d) List.mem_cons_self
    rw [ht.bag_addDiagnostic d (hs.reaches_iff.1 hid)]
    rfl
  · rcases mem_diagnostics_addDiagnostic hd' with hd' | ⟨rfl, rfl⟩
    · exact .inl ⟨hs.reaches_iff.1 hx, hd'⟩
    · exact .inr List.mem_cons_self
  · obtain rfl := List.mem_singleton.1 hr
    rw [diagnostics_addDiagnostic t d (ht.lt_size_of_attached (hs.reaches_iff.1 hx)), if_pos rfl]
    exact List.mem_append_right _ List.mem_cons_self

theorem prunes_detachChild (ht : t.IsTree) (hid : id ∈ t.children parent)
    (hb : (t.node id).isBind = true) :
    Prunes t (t.detachChild parent id).1 (· == ⟨parent, id⟩) [] := by
  have hm := moves_detachChild ht hid
  refine ⟨evolves_detachChild ht hid hb, hm.size_eq, hm.kind_eq, hm.span_eq, fun p => ?_,
    fun _ => ?_, fun x hx d hd => ?_, fun _ hr => absurd hr List.not_mem_nil⟩
  · rw [hm.children_eq]
    -- the child stands in one list, and all the others stay as they are
    by_cases hp : id ∈ t.children p
    · have he : p = parent := ht.parent_unique hp hid
      subst he
      rw [← erase_eq_splice (ht.nodup_children p), (ht.nodup_children p).erase_eq_filter]
      refine List.filter_congr fun c _ => ?_
      rw [Bool.eq_iff_iff]
      simp
    · rw [splice_of_not_mem hp]
      symm
      rw [List.filter_eq_self]
      intro c hc
      simp only [Bool.not_eq_true', beq_eq_false_iff_ne, ne_eq, Reference.mk.injEq, not_and]
      rintro - rfl
      exact hp hc
  · rw [hm.bag_eq ht (ht.detachChild hid)]
    simp
  · have hx' := (evolves_detachChild ht hid hb).attached x
      (hm.size_eq ▸ (ht.detachChild hid).lt_size_of_attached hx) hx
    rw [hm.diagnostics_eq x hx, List.mem_append] at hd
    rcases hd with hd | hd
    · exact ⟨x, .inl rfl, .inl ⟨hx', hd⟩⟩
    · split_ifs at hd with hxp
      · obtain ⟨y, hbelow, hy, hd⟩ := ht.exists_of_mem_subtree ((hxp ▸ hx').tail hid) hb hd
        exact ⟨y, .inr hbelow, .inl ⟨hy, hd⟩⟩
      · cases hd

/-- **Detaching several children.** -/
theorem prunes_detachAll (parent : NodeId) (cs : List BindCandidate) : ∀ t : RenderTree, t.IsTree →
    (cs.map (·.node)).Nodup →
    (∀ b ∈ cs, b.node ∈ t.children parent ∧ (t.node b.node).isBind = true) →
    Prunes t (t.detachAll parent cs)
      (fun r => r.parent == parent && (cs.map (·.node)).contains r.node) [] := by
  induction cs with
  | nil =>
    intro t ht _ _
    exact (Prunes.refl ht).congr _ fun p c _ => by simp
  | cons b cs ih =>
    intro t ht hnd hmem
    rw [List.map_cons, List.nodup_cons] at hnd
    have h1 := prunes_detachChild ht (hmem b List.mem_cons_self).1 (hmem b List.mem_cons_self).2
    have h2 := ih (t.detachChild parent b.node).1 h1.evolves.isTree hnd.2 fun b' hb' => by
      obtain ⟨hm, hbind⟩ := hmem b' (List.mem_cons_of_mem _ hb')
      refine ⟨h1.mem_children.2 ⟨hm, ?_⟩, (h1.evolves.isBind_eq _).trans hbind⟩
      simp only [beq_eq_false_iff_ne, ne_eq, Reference.mk.injEq, true_and]
      exact fun he => hnd.1 (List.mem_map.2 ⟨b', hb', he⟩)
    refine (h1.trans h2).congr _ fun p c _ => ?_
    rw [Bool.eq_iff_iff]
    simp only [Bool.or_eq_true, Bool.and_eq_true, beq_iff_eq, Reference.mk.injEq,
      List.contains_iff_mem, List.map_cons, List.mem_cons]
    tauto

end TagHelpers.RenderTree
