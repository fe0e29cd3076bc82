import TagHelpers.Proofs.Bind.Pruning
import TagHelpers.Proofs.RenderTree.References

/-!
# Resolving bind attributes of one name

* `BindCandidate.remaining`: the bind attributes of an element that are left, those that give way
  to none and share their name with no other one of these.
* `prunes_resolveDuplicates`: exactly the others are dropped, and each name that several kept
  attributes share is reported once.
-/

namespace TagHelpers

namespace BindCandidate

variable {cs before : List BindCandidate} {b b' : BindCandidate}

/-- The candidates that give way to none. -/
def kept (cs : List BindCandidate) : List BindCandidate := (dropShadowed [] cs).1

/-- The candidates of a name among those that give way to none. -/
def rivals (cs : List BindCandidate) (name : String) : List BindCandidate :=
  (kept cs).filter (·.name == name)

/-- The names for which none of the candidates can be preferred. -/
def conflicts (cs : List BindCandidate) : List String :=
  (unique (· == ·) ((kept cs).map (·.name))).filter fun name => 1 < (rivals cs name).length

/-- The candidates that are left. -/
def remaining (cs : List BindCandidate) : List BindCandidate :=
  (kept cs).filter fun b => (rivals cs b.name).length ≤ 1

theorem dropShadowed_cons (before : List BindCandidate) (b : BindCandidate)
    (cs : List BindCandidate) :
    dropShadowed before (b :: cs) =
      if (before ++ b :: (dropShadowed (before ++ [b]) cs).1).any b.isShadowedBy then
        ((dropShadowed (before ++ [b]) cs).1, (dropShadowed (before ++ [b]) cs).2 ++ [b])
      else (b :: (dropShadowed (before ++ [b]) cs).1, (dropShadowed (before ++ [b]) cs).2) := rfl

theorem dropShadowed_sublist (cs : List BindCandidate) :
    ∀ before, (dropShadowed before cs).1.Sublist cs := by
  induction cs with
  | nil => intro _; exact List.Sublist.refl _
  | cons b cs ih =>
    intro before
    rw [dropShadowed_cons]
    split
    · exact (ih _).cons b
    · exact (ih _).cons_cons b

/-- Every candidate either stays or is dropped. -/
theorem dropShadowed_perm (cs : List BindCandidate) :
    ∀ before, ((dropShadowed before cs).1 ++ (dropShadowed before cs).2).Perm cs := by
  induction cs with
  | nil => intro _; exact List.Perm.refl _
  | cons b cs ih =>
    intro before
    rw [dropShadowed_cons]
    split
    · simp only
      rw [← List.append_assoc]
      exact List.perm_append_comm.trans ((ih _).cons b)
    · exact (ih _).cons b

theorem kept_sublist (cs : List BindCandidate) : (kept cs).Sublist cs :=
  dropShadowed_sublist cs []

theorem remaining_sublist (cs : List BindCandidate) : (remaining cs).Sublist cs :=
  List.filter_sublist.trans (kept_sublist cs)

/-- **The candidates that are left have different names.** -/
theorem eq_of_mem_remaining (hb : b ∈ remaining cs) (hb' : b' ∈ remaining cs)
    (h : b.name = b'.name) : b = b' := by
  obtain ⟨hk, hl⟩ := List.mem_filter.1 hb
  have hk' := (List.mem_filter.1 hb').1
  have h1 : b ∈ rivals cs b.name := List.mem_filter.2 ⟨hk, beq_self_eq_true _⟩
  have h2 : b' ∈ rivals cs b.name := List.mem_filter.2 ⟨hk', by simp [h]⟩
  obtain ⟨z, hz⟩ : ∃ z, rivals cs b.name = [z] := by
    have hpos := List.length_pos_of_mem h1
    exact List.length_eq_one_iff.1 (by have := of_decide_eq_true hl; omega)
  rw [hz, List.mem_singleton] at h1 h2
  rw [h1, h2]

/-- A candidate is not left if it has given way or if it is one of several of its name. -/
theorem not_mem_remaining_iff (hnd : (cs.map (·.node)).Nodup) (x : NodeId) :
    (x ∈ (dropShadowed [] cs).2.map (·.node) ∨
      x ∈ ((kept cs).filter fun b => 1 < (rivals cs b.name).length).map (·.node)) ↔
    x ∈ cs.map (·.node) ∧ x ∉ (remaining cs).map (·.node) := by
  -- a candidate is kept or dropped, and never both
  have hperm : (kept cs ++ (dropShadowed [] cs).2).Perm cs := dropShadowed_perm cs []
  have hall : ∀ b, b ∈ kept cs ∨ b ∈ (dropShadowed [] cs).2 ↔ b ∈ cs := fun b => by
    rw [← List.mem_append, hperm.mem_iff]
  have hdisj : ((kept cs ++ (dropShadowed [] cs).2).map (·.node)).Nodup :=
    ((hperm.map _).nodup_iff).2 hnd
  rw [List.map_append, List.nodup_append] at hdisj
  constructor
  · rintro (hm | hm)
    · obtain ⟨b, hb, rfl⟩ := List.mem_map.1 hm
      refine ⟨List.mem_map_of_mem ((hall b).1 (Or.inr hb)), fun hr => ?_⟩
      obtain ⟨b', hb', he⟩ := List.mem_map.1 hr
      exact hdisj.2.2 _ (List.mem_map_of_mem (List.mem_filter.1 hb').1) _ hm he
    · obtain ⟨b, hb, rfl⟩ := List.mem_map.1 hm
      obtain ⟨hb, hl⟩ := List.mem_filter.1 hb
      refine ⟨List.mem_map_of_mem ((hall b).1 (Or.inl hb)), fun hr => ?_⟩
      obtain ⟨b', hb', he⟩ := List.mem_map.1 hr
      obtain ⟨hb', hl'⟩ := List.mem_filter.1 hb'
      obtain rfl := List.inj_on_of_nodup_map hdisj.1 hb' hb he
      exact absurd (of_decide_eq_true hl') (not_le.2 (of_decide_eq_true hl))
  · rintro ⟨hm, hr⟩
    obtain ⟨b, hb, rfl⟩ := List.mem_map.1 hm
    rcases (hall b).2 hb with hk | hd
    · refine Or.inr (List.mem_map_of_mem (List.mem_filter.2 ⟨hk, decide_eq_true ?_⟩))
      by_contra hl
      exact hr (List.mem_map_of_mem (List.mem_filter.2 ⟨hk, decide_eq_true (not_lt.1 hl)⟩))
    · exact Or.inl (List.mem_map_of_mem hd)

end BindCandidate

namespace RenderTree

open BindCandidate

variable {t : RenderTree} {parent x : NodeId} {b : BindCandidate} {kept : List BindCandidate}

/-! ### The candidates of an element -/

theorem mem_bindCandidates : b ∈ t.bindCandidates parent ↔
    b.node ∈ t.children parent ∧ ∃ p, (t.node b.node).property? = some p ∧
      p.helper.descriptor.isBind = true ∧ b.name = p.attributeName ∧ b.helper = p.helper := by
  unfold bindCandidates
  rw [List.mem_filterMap]
  constructor
  · rintro ⟨id, hid, h⟩
    split at h
    · rename_i p hp
      split at h
      · rename_i hb
        obtain rfl := Option.some.inj h
        exact ⟨hid, p, hp, hb, rfl, rfl⟩
      · cases h
    · cases h
  · rintro ⟨hid, p, hp, hb, hn, hh⟩
    refine ⟨b.node, hid, ?_⟩
    rw [hp]
    simp only [hb, if_true]
    rw [← hn, ← hh]

/-- The candidates are the children that are uses of bind attributes, in their order. -/
theorem map_node_bindCandidates (t : RenderTree) (parent : NodeId) :
    (t.bindCandidates parent).map (·.node) =
      (t.children parent).filter fun c => (t.node c).isBind := by
  unfold bindCandidates
  induction t.children parent with
  | nil => rfl
  | cons c cs ih =>
    rw [List.filterMap_cons, List.filter_cons]
    unfold RenderNode.isBind at ih ⊢
    cases hp : (t.node c).property? with
    | none => simpa using ih
    | some p =>
      by_cases hb : p.helper.descriptor.isBind = true
      · simpa [hb] using ih
      · simpa [hb] using ih

theorem IsTree.nodup_bindCandidates (ht : t.IsTree) (parent : NodeId) :
    ((t.bindCandidates parent).map (·.node)).Nodup := by
  rw [map_node_bindCandidates]
  exact (ht.nodup_children parent).filter _

/-! ### Dropping candidates -/

/-- The diagnostic of a name that several candidates of an element bear. -/
def conflictReport (t : RenderTree) (parent : NodeId) (kept : List BindCandidate) (name : String) :
    Diagnostic :=
  (Problem.duplicateBind name (String.intercalate ", "
    ((kept.filter (·.name == name)).map (·.helper.descriptor.name)))).report
      (t.node parent).spanOrStub

theorem conflictReport_congr {t' : RenderTree}
    (h : (t'.node parent).span = (t.node parent).span) (kept : List BindCandidate)
    (name : String) : t'.conflictReport parent kept name = t.conflictReport parent kept name := by
  unfold conflictReport
  rw [spanOrStub_congr h]

theorem prunes_resolveConflict (ht : t.IsTree) (name : String) (hnd : (kept.map (·.node)).Nodup)
    (hm : ∀ b ∈ kept, b.name = name →
      b.node ∈ t.children parent ∧ (t.node b.node).isBind = true) :
    Prunes t (resolveConflict parent kept t name)
      (fun r => r.parent == parent && (decide (1 < (kept.filter (·.name == name)).length) &&
        ((kept.filter (·.name == name)).map (·.node)).contains r.node))
      (if 1 < (kept.filter (·.name == name)).length then
        [(parent, t.conflictReport parent kept name)] else []) := by
  unfold resolveConflict
  simp only
  by_cases hl : (kept.filter (·.name == name)).length ≤ 1
  · rw [if_pos hl, if_neg (not_lt.2 hl)]
    exact (Prunes.refl ht).congr _ fun p c _ => by simp [not_lt.2 hl]
  · rw [if_neg hl, if_pos (not_le.1 hl)]
    have h1 := prunes_addDiagnostic ht parent (t.conflictReport parent kept name)
    have h2 := prunes_detachAll parent (kept.filter (·.name == name)) _
      h1.evolves.isTree ((List.filter_sublist.map _).nodup hnd) fun b hb => by
        obtain ⟨hb, hn⟩ := List.mem_filter.1 hb
        obtain ⟨hc, hbind⟩ := hm b hb (eq_of_beq hn)
        exact ⟨h1.mem_children.2 ⟨hc, rfl⟩, (h1.evolves.isBind_eq _).trans hbind⟩
    exact (h1.trans h2).congr _ fun p c _ => by simp [not_le.1 hl]

/-- **Every conflict is reported once, and its candidates are dropped.** -/
theorem prunes_resolveConflicts (parent : NodeId) (kept : List BindCandidate)
    (names : List String) : ∀ t : RenderTree, t.IsTree →
    (kept.map (·.node)).Nodup → names.Nodup →
    (∀ b ∈ kept, b.name ∈ names →
      b.node ∈ t.children parent ∧ (t.node b.node).isBind = true) →
    Prunes t (names.foldl (resolveConflict parent kept) t)
      (fun r => r.parent == parent && ((kept.filter fun b => names.contains b.name &&
        decide (1 < (kept.filter (·.name == b.name)).length)).map (·.node)).contains r.node)
      ((names.filter fun name => 1 < (kept.filter (·.name == name)).length).map fun name =>
        (parent, t.conflictReport parent kept name)) := by
  induction names with
  | nil =>
    intro t ht _ _ _
    exact (Prunes.refl ht).congr _ fun p c _ => by simp
  | cons name names ih =>
    intro t ht hnd hnames hmem
    rw [List.nodup_cons] at hnames
    have h1 := prunes_resolveConflict ht name hnd fun b hb hn =>
      hmem b hb (hn ▸ List.mem_cons_self)
    have h2 := ih _ h1.evolves.isTree hnd hnames.2 fun b hb hn => by
      obtain ⟨hc, hbind⟩ := hmem b hb (List.mem_cons_of_mem _ hn)
      refine ⟨h1.mem_children.2 ⟨hc, ?_⟩, (h1.evolves.isBind_eq _).trans hbind⟩
      -- a candidate of a later name is none of those that have been dropped
      have hnot : b.node ∉ (kept.filter (·.name == name)).map (·.node) := by
        intro hm
        obtain ⟨b', hb', he⟩ := List.mem_map.1 hm
        obtain ⟨hb', hn'⟩ := List.mem_filter.1 hb'
        obtain rfl := List.inj_on_of_nodup_map hnd hb' hb he
        exact hnames.1 (eq_of_beq hn' ▸ hn)
      simp [hnot]
    have hreport : ∀ n, (resolveConflict parent kept t name).conflictReport parent kept n =
        t.conflictReport parent kept n := conflictReport_congr (h1.span_eq parent) kept
    have h := (h1.trans h2).congr (fun r => r.parent == parent &&
      ((kept.filter fun b => (name :: names).contains b.name &&
        decide (1 < (kept.filter (·.name == b.name)).length)).map (·.node)).contains r.node) ?_
    · rw [List.foldl_cons, List.filter_cons]
      simp only [hreport] at h
      split at h <;> simpa [*] using h
    · intro p c _
      rw [Bool.eq_iff_iff]
      simp only [Bool.or_eq_true, Bool.and_eq_true, beq_iff_eq, decide_eq_true_eq,
        List.contains_iff_mem, List.mem_map, List.mem_filter, List.mem_cons]
      constructor
      · rintro (⟨hp, hl, b, ⟨hb, rfl⟩, rfl⟩ | ⟨hp, b, ⟨hb, hn, hl⟩, rfl⟩)
        · exact ⟨hp, b, ⟨hb, Or.inl rfl, hl⟩, rfl⟩
        · exact ⟨hp, b, ⟨hb, Or.inr hn, hl⟩, rfl⟩
      · rintro ⟨hp, b, ⟨hb, rfl | hn, hl⟩, rfl⟩
        · exact Or.inl ⟨hp, hl, b, ⟨hb, rfl⟩, rfl⟩
        · exact Or.inr ⟨hp, b, ⟨hb, hn, hl⟩, rfl⟩

/-- The bind attributes of an element that are left. -/
def remaining (t : RenderTree) (parent : NodeId) : List BindCandidate :=
  BindCandidate.remaining (t.bindCandidates parent)

/-- The conflicts of an element, each with the element and its diagnostic. -/
def conflictReports (t : RenderTree) (parent : NodeId) : List (NodeId × Diagnostic) :=
  (BindCandidate.conflicts (t.bindCandidates parent)).map fun name =>
    (parent, t.conflictReport parent (BindCandidate.kept (t.bindCandidates parent)) name)

/-- **Of the bind attributes of an element, exactly the remaining ones stay**, and each conflict is
reported once. -/
theorem prunes_resolveDuplicates (ht : t.IsTree) (parent : NodeId) :
    Prunes t (t.resolveDuplicates parent)
      (fun r => r.parent == parent && ((t.node r.node).isBind &&
        !((t.remaining parent).map (·.node)).contains r.node))
      (t.conflictReports parent) := by
  set cs := t.bindCandidates parent with hcs
  set dropped := (dropShadowed [] cs).2 with hdropped
  have hperm : (BindCandidate.kept cs ++ dropped).Perm cs := dropShadowed_perm cs []
  have hnd : ((BindCandidate.kept cs ++ dropped).map (·.node)).Nodup :=
    ((hperm.map _).nodup_iff).2 (ht.nodup_bindCandidates parent)
  rw [List.map_append, List.nodup_append] at hnd
  have hchild : ∀ b ∈ cs, b.node ∈ t.children parent ∧ (t.node b.node).isBind = true :=
    fun b hb => List.mem_filter.1 (map_node_bindCandidates t parent ▸ List.mem_map_of_mem hb)
  have hkept : ∀ b ∈ BindCandidate.kept cs, b ∈ cs := fun b hb => (kept_sublist cs).subset hb
  have hdrop : ∀ b ∈ dropped, b ∈ cs := fun b hb => hperm.subset (List.mem_append_right _ hb)
  -- first those that give way are detached, then those of each conflict
  have h1 := prunes_detachAll parent dropped t ht hnd.2.1 fun b hb =>
    hchild b (hdrop b hb)
  have h2 := prunes_resolveConflicts parent (BindCandidate.kept cs)
    (unique (· == ·) ((BindCandidate.kept cs).map (·.name))) _ h1.evolves.isTree hnd.1
    (nodup_unique _) fun b hb _ => by
      obtain ⟨hc, hbind⟩ := hchild b (hkept b hb)
      refine ⟨h1.mem_children.2 ⟨hc, ?_⟩, (h1.evolves.isBind_eq _).trans hbind⟩
      have hnot : b.node ∉ dropped.map (·.node) := fun hm =>
        hnd.2.2 b.node (List.mem_map_of_mem hb) b.node hm rfl
      simp [hnot]
  have hreport : ∀ n, (t.detachAll parent dropped).conflictReport parent (BindCandidate.kept cs) n =
      t.conflictReport parent (BindCandidate.kept cs) n :=
    conflictReport_congr (h1.span_eq parent) _
  have h := h1.trans h2
  simp only [hreport, List.nil_append] at h
  -- the name of every kept candidate is visited
  have hnames : (BindCandidate.kept cs).filter (fun b =>
      (unique (· == ·) ((BindCandidate.kept cs).map (·.name))).contains b.name &&
        decide (1 < (rivals cs b.name).length)) =
      (BindCandidate.kept cs).filter fun b => 1 < (rivals cs b.name).length := by
    refine List.filter_congr fun b hb => ?_
    rw [List.contains_iff_mem.2 (mem_unique.2 (List.mem_map_of_mem hb)), Bool.true_and]
  refine h.congr _ fun p c hc => ?_
  rw [Bool.eq_iff_iff, ← Bool.and_or_distrib_left, Bool.and_eq_true, Bool.and_eq_true]
  refine and_congr_right fun hp => ?_
  obtain rfl : p = parent := eq_of_beq hp
  have hcand : (t.node c).isBind = true ↔ c ∈ cs.map (·.node) := by
    rw [map_node_bindCandidates, List.mem_filter]
    exact ⟨fun hb => ⟨hc, hb⟩, fun hb => hb.2⟩
  have hiff := not_mem_remaining_iff (ht.nodup_bindCandidates p) c
  rw [← hnames] at hiff
  rw [Bool.or_eq_true, List.contains_iff_mem, List.contains_iff_mem, Bool.and_eq_true,
    Bool.not_eq_true', hcand, ← Bool.not_eq_true, List.contains_iff_mem]
  exact hiff

/-! ### All elements -/

/-- The candidates of an element depend on its list of children and on what these are. -/
theorem bindCandidates_congr {t' : RenderTree} (hk : ∀ x, t'.kind x = t.kind x)
    (hc : t'.children parent = t.children parent) :
    t'.bindCandidates parent = t.bindCandidates parent := by
  unfold bindCandidates
  rw [hc]
  refine List.filterMap_congr fun x _ => ?_
  rw [property?_congr (hk x)]

theorem conflictReports_congr {t' : RenderTree} (hk : ∀ x, t'.kind x = t.kind x)
    (hs : (t'.node parent).span = (t.node parent).span)
    (hc : t'.children parent = t.children parent) :
    t'.conflictReports parent = t.conflictReports parent := by
  unfold conflictReports
  rw [bindCandidates_congr hk hc]
  exact List.map_congr_left fun name _ => by rw [conflictReport_congr hs]

/-- **One element after the other**: what happens to one leaves the others as they are. -/
theorem prunes_resolveAll (parents : List NodeId) : ∀ t : RenderTree, t.IsTree → parents.Nodup →
    Prunes t (parents.foldl resolveDuplicates t)
      (fun r => parents.contains r.parent && ((t.node r.node).isBind &&
        !((t.remaining r.parent).map (·.node)).contains r.node))
      (parents.flatMap t.conflictReports) := by
  induction parents with
  | nil =>
    intro t ht _
    exact (Prunes.refl ht).congr _ fun p c _ => by simp
  | cons parent parents ih =>
    intro t ht hnd
    rw [List.nodup_cons] at hnd
    have h1 := prunes_resolveDuplicates ht parent
    have h2 := ih _ h1.evolves.isTree hnd.2
    -- the other elements keep their children
    have hother : ∀ q ∈ parents, (t.resolveDuplicates parent).children q = t.children q := by
      intro q hq
      have hne : q ≠ parent := fun he => hnd.1 (he ▸ hq)
      rw [h1.children_eq, List.filter_eq_self]
      intro c _
      simp [hne]
    have hreports : parents.flatMap (t.resolveDuplicates parent).conflictReports =
        parents.flatMap t.conflictReports :=
      List.flatMap_congr fun q hq => conflictReports_congr h1.kind_eq (h1.span_eq q) (hother q hq)
    have h := h1.trans h2
    rw [hreports, ← List.flatMap_cons] at h
    refine h.congr _ fun p c _ => ?_
    rw [isBind_congr (h1.kind_eq c)]
    by_cases hp : p = parent
    · subst hp
      simp [hnd.1]
    · by_cases hq : p ∈ parents
      · unfold remaining
        rw [bindCandidates_congr h1.kind_eq (hother p hq)]
        simp [hp, hq]
      · simp [hp, hq]

/-- The tree after the bind attributes of one name have been resolved on all elements. -/
def withoutDuplicates (t : RenderTree) : RenderTree :=
  (unique (· == ·) ((t.references RenderNode.isBind).map (·.parent))).foldl resolveDuplicates t

/-- The elements that are visited are those with bind attributes. -/
theorem IsTree.mem_bindParents (ht : t.IsTree) :
    parent ∈ unique (· == ·) ((t.references RenderNode.isBind).map (·.parent)) ↔
      t.Reaches root parent ∧ ∃ x ∈ t.children parent, (t.node x).isBind = true := by
  rw [mem_unique, List.mem_map]
  constructor
  · rintro ⟨r, hr, rfl⟩
    obtain ⟨hp, hc, hb⟩ := (ht.mem_references _).1 hr
    exact ⟨hp, r.node, hc, hb⟩
  · rintro ⟨hp, x, hx, hb⟩
    exact ⟨⟨parent, x⟩, (ht.mem_references _).2 ⟨hp, hx, hb⟩, rfl⟩

theorem prunes_withoutDuplicates (ht : t.IsTree) :
    Prunes t t.withoutDuplicates
      (fun r => t.preorder.contains r.parent && ((t.node r.node).isBind &&
        !((t.remaining r.parent).map (·.node)).contains r.node))
      ((unique (· == ·) ((t.references RenderNode.isBind).map (·.parent))).flatMap
        t.conflictReports) := by
  refine (prunes_resolveAll _ t ht (nodup_unique _)).congr _ fun p x hx => ?_
  cases hb : (t.node x).isBind with
  | false => simp
  | true =>
    congr 1
    rw [Bool.eq_iff_iff, List.contains_iff_mem, List.contains_iff_mem, ht.mem_bindParents,
      ht.mem_preorder]
    exact ⟨fun h => h.1, fun h => ⟨h, x, hx, hb⟩⟩

/-- **The bind attributes of an attached element are then the remaining ones**, in their order. -/
theorem filter_isBind_withoutDuplicates (ht : t.IsTree) (hp : t.Reaches root parent) :
    (t.withoutDuplicates.children parent).filter (fun x => (t.node x).isBind) =
      (t.remaining parent).map (·.node) := by
  have hsub : ((t.remaining parent).map (·.node)).Sublist
      ((t.children parent).filter fun x => (t.node x).isBind) := by
    rw [← map_node_bindCandidates]
    exact (remaining_sublist _).map _
  rw [← filter_mem_sublist hsub ((ht.nodup_children parent).filter _),
    (prunes_withoutDuplicates ht).children_eq, List.filter_filter, List.filter_filter]
  refine List.filter_congr fun x _ => ?_
  have hmem : t.preorder.contains parent = true := List.contains_iff_mem.2 (ht.mem_preorder.2 hp)
  rw [hmem]
  cases (t.node x).isBind <;> simp

end RenderTree

end TagHelpers
