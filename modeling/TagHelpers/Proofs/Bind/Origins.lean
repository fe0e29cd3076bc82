import TagHelpers.Proofs.Bind.Reports

/-!
# Where reports stand

What is reported on an element stays there: diagnostics are moved only from bind attributes, and an
element is below none. So it can be read off a node of the lowered tree which of its bind attributes
it reports on.

* `BindCandidate.conflict_or_remaining`: of the candidates of a name one is left, or they conflict.
* `mem_missingReport`: a parameter that is reported on an element is one of its remaining bind
  attributes and has no base among these.
* `conflict_lowerBinds`: a conflict is reported on its element, and none of its candidates is left.
-/

namespace TagHelpers

namespace BindCandidate

variable {cs before : List BindCandidate} {b : BindCandidate} {name : String}

/-! ### Candidates of a name -/

/-- No name loses all its candidates: one that is dropped gives way to another one of its name, and
the ones before it are decided on later. -/
theorem exists_mem_dropShadowed (cs : List BindCandidate) : ∀ before : List BindCandidate,
    (∃ b ∈ before ++ cs, b.name = name) →
    ∃ b ∈ before ++ (dropShadowed before cs).1, b.name = name := by
  induction cs with
  | nil => intro before h; exact h
  | cons c cs ih =>
    intro before h
    have hc : before ++ c :: cs = before ++ [c] ++ cs := by simp
    rw [hc] at h
    obtain ⟨b, hb, hname⟩ := ih (before ++ [c]) h
    rw [dropShadowed_cons]
    split_ifs with hshadow
    · rw [List.append_assoc, List.singleton_append, List.mem_append, List.mem_cons] at hb
      rcases hb with hb | rfl | hb
      · exact ⟨b, List.mem_append_left _ hb, hname⟩
      · obtain ⟨b', hb', hyields⟩ := List.any_eq_true.1 hshadow
        simp only [isShadowedBy, Bool.and_eq_true, bne_iff_ne, beq_iff_eq] at hyields
        rw [List.mem_append, List.mem_cons] at hb'
        refine ⟨b', ?_, hyields.1.2.trans hname⟩
        rcases hb' with hb' | rfl | hb'
        · exact List.mem_append_left _ hb'
        · exact absurd rfl hyields.1.1
        · exact List.mem_append_right _ hb'
      · exact ⟨b, List.mem_append_right _ hb, hname⟩
    · refine ⟨b, ?_, hname⟩
      rwa [List.append_assoc, List.singleton_append] at hb

/-- **Of the candidates of a name one is left, or they conflict.** -/
theorem conflict_or_remaining (hb : b ∈ cs) :
    b.name ∈ conflicts cs ∨ ∃ b' ∈ remaining cs, b'.name = b.name := by
  obtain ⟨b', hb', hname⟩ := exists_mem_dropShadowed cs [] ⟨b, hb, rfl⟩
  have hkept : b' ∈ kept cs := hb'
  by_cases hlen : 1 < (rivals cs b'.name).length
  · refine .inl (List.mem_filter.2 ⟨mem_unique.2 (hname ▸ List.mem_map_of_mem hkept), ?_⟩)
    rw [← hname]
    exact decide_eq_true hlen
  · exact .inr ⟨b', List.mem_filter.2 ⟨hkept, decide_eq_true (not_lt.1 hlen)⟩, hname⟩

theorem ne_of_mem_remaining (hb : b ∈ remaining cs) (hname : name ∈ conflicts cs) :
    b.name ≠ name := by
  rintro rfl
  have hle := of_decide_eq_true (List.mem_filter.1 hb).2
  exact not_le.2 (of_decide_eq_true (List.mem_filter.1 hname).2) hle

end BindCandidate

namespace RenderTree

variable {t t' t₀ : RenderTree} {x y : NodeId} {c : Catalog} {d : Diagnostic} {name : String}
  {P : NodeId → Diagnostic → Prop}

/-! ### Following the reports on parameters -/

/-- That the reports on parameters of attached nodes satisfy a predicate. -/
def MissingReports (t : RenderTree) (P : NodeId → Diagnostic → Prop) : Prop :=
  ∀ x, t.Reaches root x → ∀ d ∈ (t.node x).diagnostics, d.code = .parameterWithoutBind → P x d

theorem Prunes.missingReports {gone : Reference → Bool} {reports : List (NodeId × Diagnostic)}
    (h : Prunes t t' gone reports) (hP : ∀ x d, P x d → ¬ t.BelowBind x)
    (hreports : ∀ r ∈ reports, r.2.code = .parameterWithoutBind → P r.1 r.2)
    (ht : t.MissingReports P) : t'.MissingReports P := by
  intro x hx d hd hcode
  obtain ⟨y, hy, hd⟩ := h.origin x hx d hd
  have hyd : P y d := hd.elim (fun hd => ht y hd.1 d hd.2 hcode) fun hd => hreports (y, d) hd hcode
  rcases hy with rfl | hy
  · exact hyd
  · exact absurd hy (hP y d hyd)

theorem code_of_mem_outcomeReports {e : BindEntry} {q : Property} {span : Span}
    (h : d ∈ outcomeReports span q (t.lowered c e q)) : d.code ≠ .parameterWithoutBind := by
  unfold outcomeReports at h
  rcases List.mem_append.1 h with h | h
  · split_ifs at h
    · rw [List.mem_singleton.1 h]
      exact nofun
    · cases h
  · cases hl : t.lowered c e q with
    | ok as =>
      rw [hl] at h
      cases h
    | error problem =>
      rw [hl] at h
      rw [List.mem_singleton.1 h]
      rcases lowered_error hl with rfl | rfl <;> exact nofun

/-- Lowering moves no report on a parameter, as long as none stands below a bind attribute. -/
theorem missingReports_foldl_lowerEntry (c : Catalog)
    (hP : ∀ x d, P x d → x < t₀.size ∧ ¬ t₀.BelowBind x) (es : List BindEntry) :
    ∀ t : RenderTree, Evolves t₀ t → Refers t (es.map BindEntry.reference) →
    t.MissingReports P → (es.foldl (lowerEntry c) t).MissingReports P := by
  induction es with
  | nil => intro t _ _ h; exact h
  | cons e es ih =>
    intro t hev hrefers h
    obtain ⟨q, ids, -, h1, hes⟩ := hrefers.lowerEntry c
    refine ih _ (hev.trans h1.evolves) hes fun x hx d hd hcode => ?_
    rcases h1.origin x hx d hd with hd | ⟨y, hy, hroot, hd⟩
    · exact absurd hcode (code_of_mem_outcomeReports hd)
    · have hyd := h y hroot d hd hcode
      rcases hy with rfl | hy
      · exact hyd
      · exact absurd (hev.belowBind (hP y d hyd).1 hy) (hP y d hyd).2

theorem IsTree.inBind_of_belowBind (ht : t.IsTree) (hx : t.Reaches root x) (h : t.BelowBind x) :
    t.InBind x := by
  obtain ⟨a, ha, hr⟩ := h
  exact ht.inBind_iff.2 ⟨a, ht.attached_of_reaches hx hr, ha, hr⟩

/-- **A report on a parameter stands on the element that has it.** It is one on a remaining bind
attribute that belongs to none of the others. -/
theorem mem_missingReport (ht : t.IsTree) (hn : t.NoNestedBinds)
    (hnone : ∀ x, (t.node x).diagnostics = []) (c : Catalog) :
    (t.lowerBinds c).MissingReports fun x d =>
      t.Reaches root x ∧ ¬ t.InBind x ∧ ∃ b ∈ t.remaining x, d ∈ t.missingReport x b := by
  have h1 := prunes_withoutDuplicates ht
  have h2 := prunes_settled ht
  have hP : ∀ x d, (t.Reaches root x ∧ ¬ t.InBind x ∧ ∃ b ∈ t.remaining x,
      d ∈ t.missingReport x b) → x < t.size ∧ ¬ t.BelowBind x := fun x d h =>
    ⟨ht.lt_size_of_attached h.1, fun hb => h.2.1 (ht.inBind_of_belowBind h.1 hb)⟩
  rw [lowerBinds_eq]
  refine missingReports_foldl_lowerEntry c hP _ _ (evolves_settled ht) (refers_settled ht) ?_
  refine h2.missingReports (fun x d h hb => (hP x d h).2 (h1.belowBind hb)) (fun r hr _ => ?_) ?_
  · obtain ⟨s, hs, hr⟩ := List.mem_flatMap.1 hr
    obtain ⟨hp, hc, hb⟩ := (mem_bindReferences ht).1 hs
    have hp' := h1.attached hp
    obtain ⟨b, hbm, hnode, -⟩ := exists_remaining ht hp' hc hb
    have hparent : r.1 = s.parent := missingBase_fst hr
    have hreport : r.2 ∈ t.missingReport s.parent b := by
      rw [← map_missingBase ht hp, hnode]
      exact List.mem_map_of_mem hr
    rw [hparent]
    exact ⟨hp', hn.parent_not_inBind ht (h1.mem_children.1 hc).1 hb, b, hbm, hreport⟩
  · refine h1.missingReports (fun x d h => (hP x d h).2) (fun r hr hcode => ?_) ?_
    · obtain ⟨p, -, hr⟩ := List.mem_flatMap.1 hr
      obtain ⟨name, -, rfl⟩ := List.mem_map.1 hr
      cases hcode
    · intro x _ d hd
      rw [hnone] at hd
      cases hd

/-! ### Conflicts -/

/-- **A conflict is reported on its element, and none of its candidates is left.** -/
theorem conflict_lowerBinds (ht : t.IsTree) (hn : t.NoNestedBinds) (c : Catalog)
    (hx : t.Reaches root x) (hname : name ∈ BindCandidate.conflicts (t.bindCandidates x)) :
    t.conflictReport x (BindCandidate.kept (t.bindCandidates x)) name ∈
      ((t.lowerBinds c).node x).diagnostics ∧
    ∀ child ∈ (t.lowerBinds c).children x, ∀ q,
      ((t.lowerBinds c).node child).property? = some q → q.helper.descriptor.isBind = true →
      q.attributeName ≠ name := by
  have h1 := prunes_withoutDuplicates ht
  have hev := evolves_lowerBinds c ht
  have hrest : Evolves t.withoutDuplicates (t.lowerBinds c) :=
    (prunes_settled ht).evolves.trans (evolves_settled_lowerBinds c ht)
  -- an element with a bind attribute is not below one, so it stays attached
  obtain ⟨b, hb, rfl⟩ := List.mem_map.1 (mem_unique.1 (List.mem_filter.1 hname).1)
  have hmem : b.node ∈ (t.children x).filter fun child => (t.node child).isBind := by
    rw [← map_node_bindCandidates]
    exact List.mem_map_of_mem ((BindCandidate.kept_sublist _).subset hb)
  obtain ⟨hc, hbind⟩ := List.mem_filter.1 hmem
  have hnot := hn.parent_not_inBind ht hc hbind
  have hx1 := h1.evolves.attached_of_not_inBind ht hx hnot
  refine ⟨?_, fun child hchild q hq hqbind => ?_⟩
  · refine hrest.diagnostics_subset x (h1.evolves.isTree.lt_size_of_attached hx1)
      (hev.attached_of_not_inBind ht hx hnot) (h1.reported (x, _) ?_ hx1)
    exact List.mem_flatMap.2 ⟨x, ht.mem_bindParents.2 ⟨hx, b.node, hc, hbind⟩,
      List.mem_map.2 ⟨b.name, hname, rfl⟩⟩
  · have hchildbind : ((t.lowerBinds c).node child).isBind = true := by
      unfold RenderNode.isBind
      rw [hq]
      exact hqbind
    have hlt : child < t.size := by
      by_contra hge
      rw [hev.not_isBind child (not_lt.1 hge)] at hchildbind
      cases hchildbind
    have hchild1 := hrest.mem_children x child (h1.size_eq ▸ hlt) hchild
    obtain ⟨b', hb', -, q', hq', hname'⟩ :=
      exists_remaining ht hx hchild1 ((hev.isBind_eq child).symm.trans hchildbind)
    rw [property?_congr (hev.kind_eq child hlt)] at hq
    obtain rfl := Option.some.inj (hq.symm.trans hq')
    rw [← hname']
    exact BindCandidate.ne_of_mem_remaining hb' hname

end RenderTree

end TagHelpers
