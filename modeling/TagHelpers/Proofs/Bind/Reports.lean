import TagHelpers.Proofs.Bind.Invariants
import TagHelpers.Proofs.Bind.Outcome

/-!
# What lowering reports

Lowering drops no diagnostic. Where no bind attribute stands below another one, what it adds can be
read off the tree as it was.

* `bindReports`: the conflicts of each element, and what is said about each of its remaining bind
  attributes.
* `allDiagnostics_lowerBinds`: exactly these are added.
-/

namespace TagHelpers.RenderTree

open BindCandidate

variable {t t' t₀ : RenderTree} {e : BindEntry} {b : BindCandidate} {p x : NodeId} {c : Catalog}

/-! ### The entries -/

/-- What is reported on an entry. -/
def entryReport (t : RenderTree) (c : Catalog) (e : BindEntry) : List Diagnostic :=
  match (t.node e.node).property? with
  | some q => outcomeReports (t.node e.node).spanOrStub q (t.lowered c e q)
  | none => []

/-- Lowering an entry adds what can be read off the tree as it was. -/
theorem LowersTo.bag_eq_entryReport {q : Property} {ids : List NodeId}
    (h : LowersTo t t' e q ((t.noteExtraSegment e.node q).lowered c e q) ids)
    (hq : (t.node e.node).property? = some q) (he' : e.node ∈ t.children e.parent)
    (ht : t₀.IsTree) (hn : t₀.NoNestedBinds) (hev : Evolves t₀ t) (hread : t₀.Reads e)
    (he : e.node ∈ t₀.children e.parent) :
    t'.bag = t.bag + (t₀.entryReport c e : Multiset Diagnostic) := by
  obtain ⟨hr, hb⟩ := hread.node
  have hlt := ht.lt_size_of_attached hr
  have hq₀ : (t₀.node e.node).property? = some q :=
    (property?_congr (hev.kind_eq _ hlt)).symm.trans hq
  have hparent := hev.attached_of_not_inBind ht (ht.attached_parent hr he)
    (hn.parent_not_inBind ht he hb)
  rw [h.bag_eq (hparent.tail he'), spanOrStub_congr (hev.span_eq _ hlt),
    (hev.trans (evolves_noteExtraSegment hev.isTree e.node q)).lowered_eq ht hn hread]
  unfold entryReport
  rw [hq₀]

theorem bag_foldl_lowerEntry (c : Catalog) (ht : t₀.IsTree) (hn : t₀.NoNestedBinds)
    (es : List BindEntry) : ∀ t : RenderTree, Evolves t₀ t →
    Refers t (es.map BindEntry.reference) →
    (∀ e ∈ es, t₀.Reads e ∧ e.node ∈ t₀.children e.parent) →
    (es.foldl (lowerEntry c) t).bag = t.bag + (es.flatMap (t₀.entryReport c) : Multiset _) := by
  induction es with
  | nil => intro t _ _ _; exact (add_zero _).symm
  | cons e es ih =>
    intro t hev h hreads
    obtain ⟨q, ids, hq, h1, hes⟩ := h.lowerEntry c
    obtain ⟨hread, he⟩ := hreads e List.mem_cons_self
    have hstep := h1.bag_eq_entryReport hq (h.mem_children _ List.mem_cons_self) ht hn hev hread he
    have hrest := ih _ (hev.trans h1.evolves) hes fun e' he' =>
      hreads e' (List.mem_cons_of_mem _ he')
    rw [List.foldl_cons, hrest, hstep, List.flatMap_cons, ← Multiset.coe_add, add_assoc]

/-! ### The remaining bind attributes of an element -/

/-- The report on a remaining parameter, if no remaining bind attribute is the one that it belongs
to. -/
def missingReport (t : RenderTree) (parent : NodeId) (b : BindCandidate) : List Diagnostic :=
  match t.parameterUse? b.node with
  | some (q, _) =>
    if (t.remaining parent).any fun b' =>
      b'.name == q.baseName && (t.baseUse? b'.node).isSome then []
    else [(Problem.parameterWithoutBind q.attributeName q.baseName).report
      (t.node b.node).spanOrStub]
  | none => []

/-- The report on a bind attribute whose name has a third segment. -/
def formatReport (t : RenderTree) (b : BindCandidate) : List Diagnostic :=
  match t.baseUse? b.node with
  | some q =>
    if (BindName.parse? q.attributeName).any (·.hasExtraSegment) then
      [(Problem.unsupportedBindFormat q.attributeName).report (t.node b.node).spanOrStub]
    else []
  | none => []

/-- The report on a bind attribute that cannot be lowered. -/
def failureReport (t : RenderTree) (c : Catalog) (parent : NodeId) (b : BindCandidate) :
    List Diagnostic :=
  match t.baseUse? b.node with
  | some q =>
    match t.lowered c (t.entryOf parent b) q with
    | .error problem => [problem.report (t.node b.node).spanOrStub]
    | .ok _ => []
  | none => []

/-- All that lowering reports. -/
def bindReports (t : RenderTree) (c : Catalog) : List Diagnostic :=
  t.preorder.flatMap fun parent => (t.conflictReports parent).map (·.2) ++
    (t.remaining parent).flatMap fun b =>
      t.missingReport parent b ++ (t.formatReport b ++ t.failureReport c parent b)

/-- There is an entry for a name if one of the remaining bind attributes has it. -/
theorem any_isFor (ht : t.IsTree) (hp : t.withoutDuplicates.Reaches root p) (base : String) :
    ((t.withoutDuplicates.references RenderNode.isBind).filterMap t.baseEntry?).any
      (·.isFor p base) =
    (t.remaining p).any fun b => b.name == base && (t.baseUse? b.node).isSome := by
  rw [Bool.eq_iff_iff, List.any_eq_true, List.any_eq_true]
  constructor
  · rintro ⟨e, he, hfor⟩
    obtain ⟨r, hr, he⟩ := List.mem_filterMap.1 he
    obtain ⟨q, hq, hpar, rfl⟩ := baseEntry?_eq_some.1 he
    simp only [BindEntry.isFor, Bool.and_eq_true, beq_iff_eq] at hfor
    obtain ⟨rfl, rfl⟩ := hfor
    obtain ⟨-, hc, hb⟩ := (mem_bindReferences ht).1 hr
    obtain ⟨b, hb, hnode, q', hq', hn⟩ :=
      exists_remaining ht (attached_of_withoutDuplicates ht hp) hc hb
    obtain rfl : q = q' := Option.some.inj (hq.symm.trans hq')
    refine ⟨b, hb, ?_⟩
    rw [hnode, baseUse?_eq hq]
    simp [hn, hpar]
  · rintro ⟨b, hb, h⟩
    obtain ⟨-, -, q, hq, hn⟩ := property?_remaining hb
    rw [baseUse?_eq hq, Bool.and_eq_true, beq_iff_eq] at h
    have hpar : q.resolution.isParameter = false := by
      by_contra hc
      rw [if_pos (Bool.not_eq_false _ ▸ hc)] at h
      exact Bool.false_ne_true h.2
    refine ⟨_, List.mem_filterMap.2 ⟨_, mem_bindReferences_of_remaining ht hp hb,
      baseEntry?_eq_some.2 ⟨q, hq, hpar, rfl⟩⟩, ?_⟩
    simp [BindEntry.isFor, ← hn, h.1]

/-- The report on a parameter, read off the tree as it was. -/
theorem map_missingBase (ht : t.IsTree) (hp : t.withoutDuplicates.Reaches root p) :
    (t.withoutDuplicates.missingBase
      (t.withoutDuplicates.entries (t.withoutDuplicates.references RenderNode.isBind))
      ⟨p, b.node⟩).map (·.2) = t.missingReport p b := by
  have h1 := prunes_withoutDuplicates ht
  rw [missingBase_congr (h1.kind_eq _) (h1.span_eq _), entries_eq (pairwise_apart ht),
    baseEntry?_withoutDuplicates ht]
  unfold missingBase missingReport
  cases t.parameterUse? b.node with
  | none => rfl
  | some u =>
    simp only
    rw [any_isFor ht hp]
    split <;> rfl

/-- The reports on a bind attribute, read off the tree as it was. -/
theorem flatMap_entryReport (c : Catalog) (hb : b ∈ t.remaining p) :
    ((t.baseEntry? ⟨p, b.node⟩).map t.complete).toList.flatMap (t.entryReport c) =
      t.formatReport b ++ t.failureReport c p b := by
  obtain ⟨-, -, q, hq, -⟩ := property?_remaining hb
  rw [baseEntry?_remaining hb, parameterUse?_eq hq, Option.isSome_map]
  unfold formatReport failureReport
  rw [baseUse?_eq hq]
  cases hpar : q.resolution.parameter with
  | some a => simp [Resolution.isParameter, hpar]
  | none =>
    have hreport : t.entryReport c (t.entryOf p b) = outcomeReports (t.node b.node).spanOrStub q
        (t.lowered c (t.entryOf p b) q) := by
      unfold entryReport
      rw [show (t.node (t.entryOf p b).node).property? = some q from hq]
      rfl
    cases hl : t.lowered c (t.entryOf p b) q <;>
      simp [Resolution.isParameter, hpar, hreport, outcomeReports, hl]

/-! ### All elements -/

/-- The conflicts of all elements. -/
theorem conflictReports_perm (ht : t.IsTree) :
    ((unique (· == ·) ((t.references RenderNode.isBind).map (·.parent))).flatMap
      t.conflictReports).Perm (t.preorder.flatMap t.conflictReports) := by
  set parents := unique (· == ·) ((t.references RenderNode.isBind).map (·.parent)) with hparents
  -- an element that is not visited has no bind attributes, so it has no conflicts either
  have hnone : ∀ p ∈ t.preorder, decide (p ∈ parents) = false → t.conflictReports p = [] := by
    intro p hp hnot
    have hcs : t.bindCandidates p = [] := by
      rw [← List.map_eq_nil_iff, map_node_bindCandidates, List.filter_eq_nil_iff]
      intro x hx hb
      exact (of_decide_eq_false hnot) (ht.mem_bindParents.2 ⟨ht.mem_preorder.1 hp, x, hx, hb⟩)
    unfold conflictReports
    rw [hcs]
    rfl
  rw [← flatMap_filter_eq hnone]
  refine List.Perm.flatMap_right _ ?_
  refine (List.perm_ext_iff_of_nodup (nodup_unique _) (ht.nodup_preorder.filter _)).2 fun p => ?_
  rw [List.mem_filter, decide_eq_true_eq, ht.mem_preorder]
  exact ⟨fun h => ⟨(ht.mem_bindParents.1 h).1, h⟩, fun h => h.2⟩

/-- All that is reported, in the order in which it is reported. -/
theorem bag_lowerBinds (c : Catalog) (ht : t.IsTree) (hn : t.NoNestedBinds) :
    (t.lowerBinds c).bag = t.bag +
      (((unique (· == ·) ((t.references RenderNode.isBind).map (·.parent))).flatMap
        t.conflictReports).map (·.2) : Multiset Diagnostic) +
      (((t.withoutDuplicates.references RenderNode.isBind).flatMap
        (t.withoutDuplicates.missingBase (t.withoutDuplicates.entries
          (t.withoutDuplicates.references RenderNode.isBind)))).map (·.2) : Multiset Diagnostic) +
      (t.settled.2.flatMap (t.entryReport c) : Multiset Diagnostic) := by
  have h1 := prunes_withoutDuplicates ht
  have h2 := prunes_settled ht
  rw [lowerBinds_eq, bag_foldl_lowerEntry c ht hn _ _ (evolves_settled ht) (refers_settled ht)
    fun e he => ?_, h2.bag_eq fun r hr => ?_, h1.bag_eq fun r hr => ?_]
  · obtain ⟨p, hp, hr⟩ := List.mem_flatMap.1 hr
    -- an element with bind attributes is not below one, so it stays attached
    obtain ⟨name, -, rfl⟩ := List.mem_map.1 hr
    obtain ⟨hp, x, hx, hb⟩ := ht.mem_bindParents.1 hp
    exact h1.evolves.attached_of_not_inBind ht hp (hn.parent_not_inBind ht hx hb)
  · obtain ⟨s, hs, hr⟩ := List.mem_flatMap.1 hr
    obtain ⟨hp, hc, hb⟩ := (mem_bindReferences ht).1 hs
    rw [missingBase_fst hr]
    exact (evolves_settled ht).attached_of_not_inBind ht (attached_of_withoutDuplicates ht hp)
      (hn.parent_not_inBind ht (h1.mem_children.1 hc).1 hb)
  · obtain ⟨p, b, hp, hb, -, rfl⟩ := exists_entryOf ht he
    exact ⟨reads_entryOf ht hp hb, (property?_remaining hb).1⟩

theorem flatMap_settled (ht : t.IsTree) (f : BindEntry → List Diagnostic) :
    t.settled.2.flatMap f = (t.withoutDuplicates.references RenderNode.isBind).flatMap fun r =>
      ((t.baseEntry? r).map t.complete).toList.flatMap f := by
  rw [settled_eq ht, List.map_filterMap, List.filterMap_eq_flatMap_toList, List.flatMap_assoc]

/-- What is reported on the references is what is reported on the remaining bind attributes. -/
theorem referenceReports_perm (c : Catalog) (ht : t.IsTree) (hn : t.NoNestedBinds) :
    (((t.withoutDuplicates.references RenderNode.isBind).flatMap
      (t.withoutDuplicates.missingBase (t.withoutDuplicates.entries
        (t.withoutDuplicates.references RenderNode.isBind)))).map (·.2) ++
      t.settled.2.flatMap (t.entryReport c)).Perm
    (t.preorder.flatMap fun p => (t.remaining p).flatMap fun b =>
      t.missingReport p b ++ (t.formatReport b ++ t.failureReport c p b)) := by
  rw [List.map_flatMap, flatMap_settled ht]
  refine (List.flatMap_append_perm _ _ _).trans
    (((references_perm ht hn).flatMap_right _).trans (List.Perm.of_eq ?_))
  rw [List.flatMap_assoc]
  refine List.flatMap_congr fun p hp => ?_
  unfold remainingReferences
  rw [List.flatMap_map]
  refine List.flatMap_congr fun b hb => ?_
  have hp' := attached_of_remaining ht hn (prunes_withoutDuplicates ht).evolves
    (ht.mem_preorder.1 hp) hb
  rw [map_missingBase ht hp', flatMap_entryReport c hb]

/-- **Lowering drops no diagnostic.** Where no bind attribute stands below another one, it adds
exactly these: below each attached element, one for each name that several of the bind attributes
that give way to none share, and for each remaining bind attribute one if it is a parameter without
the attribute that it belongs to, one if its name has a third segment, and one if it cannot be
lowered, which is for its name or for an empty expression. -/
theorem allDiagnostics_lowerBinds (t : RenderTree) (c : Catalog) (ht : t.IsTree) :
    t.allDiagnostics.Subperm (t.lowerBinds c).allDiagnostics ∧
    (t.NoNestedBinds →
      (t.lowerBinds c).allDiagnostics.Perm (t.allDiagnostics ++ t.bindReports c)) ∧
    ∀ parent b, ∀ d ∈ t.failureReport c parent b,
      d.code = .invalidBindName ∨ d.code = .emptyBindExpression := by
  refine ⟨Multiset.coe_le.1 (evolves_lowerBinds c ht).bag_le, fun hn => ?_, fun parent b d hd => ?_⟩
  · refine Multiset.coe_eq_coe.1 ((bag_lowerBinds c ht hn).trans ?_)
    rw [add_assoc, add_assoc, Multiset.coe_add, Multiset.coe_add, ← Multiset.coe_add]
    refine congrArg (t.bag + ·) (Multiset.coe_eq_coe.2 ?_)
    -- reports come phase by phase, and are listed element by element
    unfold bindReports
    refine List.Perm.trans (List.Perm.append ?_ (referenceReports_perm c ht hn))
      (List.flatMap_append_perm _ _ _)
    rw [← List.map_flatMap]
    exact (conflictReports_perm ht).map _
  · unfold failureReport at hd
    split at hd
    · split at hd
      · rename_i q _ problem hl
        rw [List.mem_singleton.1 hd]
        rcases lowered_error hl with rfl | rfl
        · exact Or.inl rfl
        · exact Or.inr rfl
      · exact absurd hd List.not_mem_nil
    · exact absurd hd List.not_mem_nil

/-- Three elements: one with two uses of `bind-value` and a parameter that belongs to neither, one
whose use of `bind-value` can be lowered, and one whose use has no expression. -/
def Sample.flat : RenderTree where
  nodes := #[
    { kind := .document, children := [1, 5, 10] },
    { kind := .element "input", children := [2, 3, 4] },
    { kind := .property value },
    { kind := .property event },
    { kind := .property value },
    { kind := .element "input", children := [6, 7] },
    { kind := .property value, children := [8] },
    { kind := .property event, children := [9] },
    { kind := .token .code "name" },
    { kind := .token .html "onchange" },
    { kind := .element "input", children := [11] },
    { kind := .property value }]

theorem allDiagnostics_flat :
    Sample.flat.IsTree ∧ Sample.flat.NoNestedBinds ∧
      (Sample.flat.bindReports ⟨[]⟩).map (·.code) =
        [.duplicateBind, .parameterWithoutBind, .emptyBindExpression] ∧
      (Sample.flat.lowerBinds ⟨[]⟩).allDiagnostics.Perm
        (Sample.flat.allDiagnostics ++ Sample.flat.bindReports ⟨[]⟩) :=
  ⟨by decide, by decide, by decide +kernel,
    (allDiagnostics_lowerBinds Sample.flat ⟨[]⟩ (by decide)).2.1 (by decide)⟩

end TagHelpers.RenderTree
