import TagHelpers.Proofs.Bind.Parameters

/-!
# Before lowering

The first half of lowering leaves a tree whose bind attributes are no parameters, have different
names below each parent and have one entry each.

* `evolves_settled`: it works by the steps that undo nothing.
* `isBind_settled`: each attached bind attribute that is left has its entry.
* `refers_settled`: the entries are those of different children of their parents.
* `names_withoutDuplicates`: two bind attributes below a parent have different names.
-/

namespace TagHelpers.RenderTree

open BindCandidate

variable {t : RenderTree} {p x y : NodeId} {e : BindEntry} {r : Reference}

/-- The tree and the entries before anything is lowered. -/
def settled (t : RenderTree) : RenderTree × List BindEntry :=
  let refs := t.withoutDuplicates.references RenderNode.isBind
  refs.foldl foldParameter (t.withoutDuplicates, t.withoutDuplicates.entries refs)

theorem lowerBinds_eq (t : RenderTree) (c : Catalog) :
    t.lowerBinds c = t.settled.2.foldl (lowerEntry c) t.settled.1 := rfl

/-- A bind attribute that is left after duplicates have been resolved is a remaining candidate. -/
theorem exists_remaining (ht : t.IsTree) (hp : t.Reaches root p)
    (hx : x ∈ t.withoutDuplicates.children p) (hb : (t.node x).isBind = true) :
    ∃ b ∈ t.remaining p, b.node = x ∧
      ∃ q, (t.node x).property? = some q ∧ b.name = q.attributeName := by
  have hm : x ∈ (t.remaining p).map (·.node) := by
    rw [← filter_isBind_withoutDuplicates ht hp]
    exact List.mem_filter.2 ⟨hx, hb⟩
  obtain ⟨b, hbm, rfl⟩ := List.mem_map.1 hm
  obtain ⟨-, q, hq, -, hn, -⟩ := mem_bindCandidates.1 ((remaining_sublist _).subset hbm)
  exact ⟨b, hbm, rfl, q, hq, hn⟩

/-- **After duplicates have been resolved, the bind attributes below a parent have different
names.** -/
theorem names_withoutDuplicates (ht : t.IsTree) (hp : t.Reaches root p) {q q' : Property}
    (hx : x ∈ t.withoutDuplicates.children p) (hy : y ∈ t.withoutDuplicates.children p)
    (hbx : (t.node x).isBind = true) (hby : (t.node y).isBind = true)
    (hq : (t.node x).property? = some q) (hq' : (t.node y).property? = some q')
    (h : q.attributeName = q'.attributeName) : x = y := by
  obtain ⟨b, hb, rfl, q₁, hq₁, hn⟩ := exists_remaining ht hp hx hbx
  obtain ⟨b', hb', rfl, q₂, hq₂, hn'⟩ := exists_remaining ht hp hy hby
  obtain rfl : q = q₁ := Option.some.inj (hq.symm.trans hq₁)
  obtain rfl : q' = q₂ := Option.some.inj (hq'.symm.trans hq₂)
  rw [eq_of_mem_remaining hb hb' (hn.trans (h.trans hn'.symm))]

/-! ### The references -/

theorem mem_bindReferences (ht : t.IsTree) :
    r ∈ t.withoutDuplicates.references RenderNode.isBind ↔
      t.withoutDuplicates.Reaches root r.parent ∧ r.node ∈ t.withoutDuplicates.children r.parent ∧
        (t.node r.node).isBind = true := by
  have h1 := prunes_withoutDuplicates ht
  rw [h1.evolves.isTree.mem_references, h1.evolves.isBind_eq]

theorem IsTree.refers_references (ht : t.IsTree) : Refers t (t.references RenderNode.isBind) where
  isTree := ht
  nodup := ht.nodup_references _
  mem_children _ hr := ((ht.mem_references _).1 hr).2.1
  isBind _ hr := ((ht.mem_references _).1 hr).2.2

theorem attached_of_withoutDuplicates (ht : t.IsTree)
    (h : t.withoutDuplicates.Reaches root x) : t.Reaches root x :=
  (prunes_withoutDuplicates ht).attached h

theorem pairwise_apart (ht : t.IsTree) :
    (t.withoutDuplicates.references RenderNode.isBind).Pairwise t.withoutDuplicates.Apart := by
  have h1 := prunes_withoutDuplicates ht
  have hnd := h1.evolves.isTree.nodup_references RenderNode.isBind
  rw [List.Nodup, List.pairwise_map] at hnd
  -- two attributes with one parent and one name would be one and the same
  refine hnd.imp_of_mem fun {r s} hr hs hne e e' he he' => ?_
  obtain ⟨q, hq, -, rfl⟩ := baseEntry?_eq_some.1 he
  obtain ⟨q', hq', -, rfl⟩ := baseEntry?_eq_some.1 he'
  rw [property?_congr (h1.kind_eq _)] at hq hq'
  obtain ⟨hp, hc, hb⟩ := (mem_bindReferences ht).1 hr
  obtain ⟨-, hc', hb'⟩ := (mem_bindReferences ht).1 hs
  refine Bool.eq_false_iff.2 fun hfor => ?_
  simp only [BindEntry.isFor, Bool.and_eq_true, beq_iff_eq] at hfor
  rw [← hfor.1] at hc'
  exact hne (names_withoutDuplicates ht (attached_of_withoutDuplicates ht hp) hc hc' hb hb' hq hq'
    hfor.2)

/-! ### The tree and its entries -/

theorem snd_settled (ht : t.IsTree) :
    t.settled.2 = ((t.withoutDuplicates.references RenderNode.isBind).filterMap
      t.withoutDuplicates.baseEntry?).map
        ((t.withoutDuplicates.references RenderNode.isBind).foldl t.withoutDuplicates.noteUse) := by
  have h1 := prunes_withoutDuplicates ht
  unfold settled
  rw [snd_foldParameters _ _ _ h1.evolves.isTree.refers_references, entries_eq (pairwise_apart ht)]

theorem prunes_settled (ht : t.IsTree) :
    Prunes t.withoutDuplicates t.settled.1
      (fun r => (t.withoutDuplicates.references RenderNode.isBind).contains r &&
        (t.withoutDuplicates.parameterUse? r.node).isSome)
      ((t.withoutDuplicates.references RenderNode.isBind).flatMap
        (t.withoutDuplicates.missingBase (t.withoutDuplicates.entries
          (t.withoutDuplicates.references RenderNode.isBind)))) :=
  prunes_foldParameters _ _ _ (prunes_withoutDuplicates ht).evolves.isTree.refers_references

theorem evolves_settled (ht : t.IsTree) : Evolves t t.settled.1 :=
  (prunes_withoutDuplicates ht).evolves.trans (prunes_settled ht).evolves

theorem mem_settled (ht : t.IsTree) (he : e ∈ t.settled.2) :
    ∃ r ∈ t.withoutDuplicates.references RenderNode.isBind,
      e.parent = r.parent ∧ e.node = r.node ∧
        ∃ q, (t.node r.node).property? = some q ∧ q.resolution.isParameter = false ∧
          e.name = q.attributeName := by
  rw [snd_settled ht] at he
  obtain ⟨e₀, he₀, rfl⟩ := List.mem_map.1 he
  obtain ⟨r, hr, he₀⟩ := List.mem_filterMap.1 he₀
  obtain ⟨q, hq, hpar, rfl⟩ := baseEntry?_eq_some.1 he₀
  rw [property?_congr ((prunes_withoutDuplicates ht).kind_eq _)] at hq
  obtain ⟨h1, h2, h3⟩ := foldl_noteUse_key t.withoutDuplicates
    (t.withoutDuplicates.references RenderNode.isBind)
    { parent := r.parent, node := r.node, name := q.attributeName }
  exact ⟨r, hr, h1, h2, q, hq, hpar, h3⟩

theorem settled_entries (ht : t.IsTree) (he : e ∈ t.settled.2) :
    e.node ∈ t.settled.1.children e.parent ∧ (t.settled.1.node e.node).isBind = true := by
  obtain ⟨r, hr, hp, hn, q, hq, hpar, -⟩ := mem_settled ht he
  obtain ⟨-, hc, hb⟩ := (mem_bindReferences ht).1 hr
  rw [(evolves_settled ht).isBind_eq, hp, hn]
  refine ⟨(prunes_settled ht).mem_children.2 ⟨hc, ?_⟩, hb⟩
  have hnone : t.withoutDuplicates.parameterUse? r.node = none := by
    unfold parameterUse?
    rw [property?_congr ((prunes_withoutDuplicates ht).kind_eq _), hq]
    simpa [Resolution.isParameter] using hpar
  simp only [hnone, Option.isSome_none, Bool.and_false]

theorem nodup_settled (ht : t.IsTree) : (t.settled.2.map (·.node)).Nodup := by
  have h1 := prunes_withoutDuplicates ht
  have hnd := h1.evolves.isTree.nodup_references RenderNode.isBind
  rw [List.Nodup, List.pairwise_map] at hnd
  rw [snd_settled ht, List.map_map, List.Nodup, List.pairwise_map, List.pairwise_filterMap]
  refine hnd.imp fun {r s} hne e he e' he' => ?_
  obtain ⟨q, -, -, rfl⟩ := baseEntry?_eq_some.1 he
  obtain ⟨q', -, -, rfl⟩ := baseEntry?_eq_some.1 he'
  simp only [Function.comp_apply, (foldl_noteUse_key _ _ _).2.1]
  exact hne

/-- **The entries are those of different children of their parents.** -/
theorem refers_settled (ht : t.IsTree) :
    Refers t.settled.1 (t.settled.2.map BindEntry.reference) where
  isTree := (evolves_settled ht).isTree
  nodup := by
    rw [List.map_map]
    exact nodup_settled ht
  mem_children := by
    rintro _ hr
    obtain ⟨e, he, rfl⟩ := List.mem_map.1 hr
    exact (settled_entries ht he).1
  isBind := by
    rintro _ hr
    obtain ⟨e, he, rfl⟩ := List.mem_map.1 hr
    exact (settled_entries ht he).2

/-- **Each attached bind attribute that is left is no parameter and has its entry.** -/
theorem isBind_settled (ht : t.IsTree) (hp : t.settled.1.Reaches root p)
    (hx : x ∈ t.settled.1.children p) (hb : (t.settled.1.node x).isBind = true) :
    t.withoutDuplicates.parameterUse? x = none ∧ ∃ e ∈ t.settled.2, e.node = x := by
  have h2 := prunes_settled ht
  have hp' := h2.attached hp
  obtain ⟨hc, hgone⟩ := h2.mem_children.1 hx
  rw [(evolves_settled ht).isBind_eq] at hb
  have hr : (⟨p, x⟩ : Reference) ∈ t.withoutDuplicates.references RenderNode.isBind :=
    (mem_bindReferences ht).2 ⟨hp', hc, hb⟩
  -- a parameter would have been detached
  have hnone : t.withoutDuplicates.parameterUse? x = none := by
    rw [List.contains_iff_mem.2 hr, Bool.true_and] at hgone
    simpa using hgone
  refine ⟨hnone, ?_⟩
  obtain ⟨q, hq⟩ : ∃ q, (t.withoutDuplicates.node x).property? = some q := by
    rw [property?_congr ((prunes_withoutDuplicates ht).kind_eq x)]
    obtain ⟨b, -, -, q, hq, -⟩ := exists_remaining ht (attached_of_withoutDuplicates ht hp') hc hb
    exact ⟨q, hq⟩
  have hpar : q.resolution.isParameter = false := by
    unfold parameterUse? at hnone
    simpa [hq, Resolution.isParameter] using hnone
  rw [snd_settled ht]
  refine ⟨_, List.mem_map_of_mem (List.mem_filterMap.2 ⟨_, hr, baseEntry?_eq_some.2
    ⟨q, hq, hpar, rfl⟩⟩), (foldl_noteUse_key _ _ _).2.1⟩

end TagHelpers.RenderTree
