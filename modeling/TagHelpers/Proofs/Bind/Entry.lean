import TagHelpers.Proofs.Bind.Allocation

/-!
# Lowering one bind attribute

* `lowered_error`, `lowered_ok`: why a bind attribute stands for nothing, and what it stands for.
* `moves_substitute`: the diagnostics at and below a lowered attribute go to the first node that
  stands for it.
* `lowerEntry_cases`: all that lowering an attribute can do to a tree.
-/

namespace TagHelpers

variable {c : Catalog} {e : BindEntry} {p : Property} {problem : Problem}
  {as : List LoweredAttribute}

/-- The reference to the attribute of an entry. -/
def BindEntry.reference (e : BindEntry) : Reference := ⟨e.parent, e.node⟩

namespace RenderTree

variable {t t' t₁ : RenderTree} {x : NodeId} {span : Span} {ids : List NodeId}

/-! ### What a bind attribute stands for -/

/-- Nothing can be made of a bind attribute for one of two reasons. -/
theorem lowered_error (h : t.lowered c e p = .error problem) :
    problem = .invalidBindName p.attributeName ∨
      problem = .emptyBindExpression p.attributeName := by
  unfold lowered at h
  split at h
  · cases h; exact Or.inl rfl
  · simp only at h
    split at h
    · cases h; exact Or.inr rfl
    · split at h
      · cases h; exact Or.inl rfl
      · cases h

theorem lowered_eq_ok_iff : t.lowered c e p = .ok as ↔
    ∃ name, BindName.parse? p.attributeName = some name ∧
      Text.blank (t.attributeCode e.node) = false ∧
      (t.bindSource e).attributes? p name c (t.kind e.parent) = some as := by
  have hcode : (t.bindSource e).expression = t.attributeCode e.node := rfl
  unfold lowered
  cases BindName.parse? p.attributeName with
  | none => simp
  | some name =>
    simp only [hcode]
    cases Text.blank (t.attributeCode e.node) with
    | true => simp
    | false => cases ha : (t.bindSource e).attributes? p name c (t.kind e.parent) <;> simp [ha]

/-- A bind attribute stands for the attributes of a component or for those of a markup element. -/
theorem lowered_ok (h : t.lowered c e p = .ok as) :
    (∃ tag component valueName, t.kind e.parent = .component tag component ∧
      as = (t.bindSource e).onComponent p component valueName) ∨
    ((∀ tag component, t.kind e.parent ≠ .component tag component) ∧
      ∃ valueName, (t.bindSource e).onElement p c valueName = some as) := by
  obtain ⟨name, -, -, ha⟩ := lowered_eq_ok_iff.1 h
  obtain ⟨valueName, -, ha⟩ := Option.bind_eq_some_iff.1 ha
  unfold BindSource.attributesOn at ha
  split at ha
  · rename_i tag component hk
    exact Or.inl ⟨tag, component, valueName, hk, (Option.some.inj ha).symm⟩
  · rename_i hk
    exact Or.inr ⟨fun tag component => hk tag component, valueName, ha⟩

/-- What a bind attribute stands for is no use of an attribute of a tag helper. -/
theorem not_property_of_lowered (h : t.lowered c e p = .ok as) :
    ∀ a ∈ as, ∀ q, a.kind ≠ .property q ∧ a.valueKind ≠ .property q := by
  rcases lowered_ok h with ⟨tag, component, valueName, -, rfl⟩ | ⟨-, valueName, hel⟩
  · intro a ha q
    unfold BindSource.onComponent at ha
    simp only [List.mem_cons, List.mem_map] at ha
    rcases ha with rfl | rfl | ⟨b, -, rfl⟩ <;> exact ⟨nofun, nofun⟩
  · obtain ⟨name, -, rfl⟩ := Option.map_eq_some_iff.1 hel
    intro a ha q
    simp only [List.mem_cons, List.not_mem_nil, or_false] at ha
    rcases ha with rfl | rfl <;> exact ⟨nofun, nofun⟩

theorem ne_nil_of_lowered (h : t.lowered c e p = .ok as) : as ≠ [] := by
  rcases lowered_ok h with ⟨tag, component, valueName, -, rfl⟩ | ⟨-, valueName, hel⟩
  · exact List.cons_ne_nil _ _
  · obtain ⟨name, -, rfl⟩ := Option.map_eq_some_iff.1 hel
    exact List.cons_ne_nil _ _

/-! ### Putting the new nodes in place -/

theorem Allocated.exists_ids (h : Allocated t t₁ span as ids) (hne : as ≠ []) :
    ∃ rest, ids = t.size :: rest := by
  obtain ⟨a, as, rfl⟩ := List.exists_cons_of_ne_nil hne
  exact ⟨_, by rw [h.ids_eq, List.length_cons, List.range_succ_eq_map, List.map_cons]; rfl⟩

/-- The tree just before the new nodes are put in place. -/
theorem Allocated.substitute_eq (h : Allocated t t₁ span as ids) (hne : as ≠ []) :
    ∃ t₂, SameShape t₁ t₂ ∧ t₁.substitute e ids = (t₂.replaceChild e.parent e.node ids).1 ∧
      ∀ x, (t₂.node x).diagnostics =
        (if x ∈ t₁.subtree e.node then [] else (t₁.node x).diagnostics) ++
          if x = t.size then (t₁.takeDiagnostics e.node).2 else [] := by
  obtain ⟨rest, hids⟩ := h.exists_ids hne
  have hlt : t.size < t₁.size := (h.mem_ids (by rw [hids]; exact List.mem_cons_self)).2.1
  have hs := sameShape_takeDiagnostics t₁ e.node
  refine ⟨(t₁.takeDiagnostics e.node).1.update t.size fun n =>
    { n with diagnostics := n.diagnostics ++ (t₁.takeDiagnostics e.node).2 },
    hs.trans (sameShape_update _ _ _), by rw [hids]; rfl, fun x => ?_⟩
  rw [diagnostics_update, hs.size_eq, diagnostics_takeDiagnostics]
  by_cases hx : x = t.size
  · subst hx
    rw [if_pos ⟨rfl, hlt⟩, if_pos rfl]
  · rw [if_neg fun h => hx h.1.symm, if_neg hx, List.append_nil]

theorem splices_substitute (h : Allocated t t₁ span as ids) (ht : t.IsTree)
    (he : e.node ∈ t.children e.parent) (hne : as ≠ []) :
    Splices t₁ (t₁.substitute e ids) e.node ids := by
  obtain ⟨t₂, hs, heq, -⟩ := h.substitute_eq (e := e) hne
  have he₂ : e.node ∈ t₂.children e.parent := by
    rw [hs.children_eq, h.children_old (lt_size_of_mem_children he)]
    exact he
  rw [heq]
  exact hs.splices (splices_replaceChild (hs.isTree (h.isTree ht)) he₂)

/-- The first new node takes the diagnostics at and below the attribute. -/
theorem diagnostics_substitute (h : Allocated t t₁ span as ids) (ht : t.IsTree)
    (he : e.node ∈ t.children e.parent) (hne : as ≠ []) (x : NodeId) :
    ((t₁.substitute e ids).node x).diagnostics =
      (if x ∈ t₁.subtree e.node then [] else (t₁.node x).diagnostics) ++
        if x = t.size then (t₁.takeDiagnostics e.node).2 else [] := by
  obtain ⟨t₂, hs, heq, hd⟩ := h.substitute_eq (e := e) hne
  have he₂ : e.node ∈ t₂.children e.parent := by
    rw [hs.children_eq, h.children_old (lt_size_of_mem_children he)]
    exact he
  rw [heq, (rechild_replaceChild ids (hs.isTree (h.isTree ht)) he₂).diagnostics_eq, hd]

/-- **The diagnostics at and below a lowered attribute go to the first node that stands for it.** -/
theorem moves_substitute (h : Allocated t t₁ span as ids) (ht : t.IsTree)
    (he : e.node ∈ t.children e.parent) (hne : as ≠ []) :
    Moves t₁ (t₁.substitute e ids) e.parent e.node ids t.size := by
  have ht₁ := h.isTree ht
  have he₁ : e.node ∈ t₁.children e.parent := by
    rw [h.children_old (lt_size_of_mem_children he)]
    exact he
  have hfirst : t.size ∈ ids := by
    obtain ⟨rest, hids⟩ := h.exists_ids hne
    rw [hids]
    exact List.mem_cons_self
  have hfresh : ∀ r ∈ ids, ∀ x, t₁.Reaches r x →
      ¬ t₁.Reaches root x ∧ (t₁.node x).diagnostics = [] := by
    intro r hr x hx
    have hnew := h.reaches_new ht (h.mem_ids hr).1 hx
    refine ⟨fun hroot => ?_, h.diagnostics_new hnew⟩
    exact not_lt.2 hnew (ht.lt_size_of_attached ((h.attached_iff ht).1 hroot))
  have hsp := splices_substitute h ht he hne
  refine ⟨hsp, he₁, Or.inr hfirst, hfresh, fun x hx => ?_⟩
  have hx' := (hsp.attached_iff ht₁ he₁ fun r hr x hx => (hfresh r hr x hx).1).1 hx
  have hnot : ¬ t₁.Reaches e.node x := by
    rcases hx' with ⟨-, hn⟩ | ⟨hp, r, hr, hrx⟩
    · exact hn
    · exact fun hex => (hfresh r hr x hrx).1 ((hp.tail he₁).trans hex)
  have hmem : x ∉ t₁.subtree e.node := fun hm => hnot (mem_below_reaches hm)
  rw [diagnostics_substitute h ht he hne, if_neg hmem]
  by_cases hxt : x = t.size
  · subst hxt
    -- the first new node is attached only where the attribute was
    have hatt : t₁.Reaches root e.node := by
      rcases hx' with ⟨hroot, -⟩ | ⟨hp, -⟩
      · exact absurd hroot (hfresh _ hfirst _ (Reaches.refl _ _)).1
      · exact hp.tail he₁
    rw [if_pos rfl, if_pos rfl, takeDiagnostics_snd (ht₁.nodup_subtree hatt)]
  · rw [if_neg hxt, if_neg hxt]

/-! ### All that lowering can do -/

theorem sameShape_noteExtraSegment (t : RenderTree) (id : NodeId) (p : Property) :
    SameShape t (t.noteExtraSegment id p) := by
  unfold noteExtraSegment
  split
  · exact sameShape_addDiagnostic _ _ _
  · exact SameShape.refl t

/-- **All that lowering an attribute can do**: it may note the name, and either says why the
attribute stays or puts others in its place. -/
theorem lowerEntry_cases (c : Catalog) (hp : (t.node e.node).property? = some p) :
    (∃ problem, (t.noteExtraSegment e.node p).lowered c e p = .error problem ∧
      lowerEntry c t e = (t.noteExtraSegment e.node p).addDiagnostic e.node
        (problem.report (t.node e.node).spanOrStub)) ∨
    ∃ as t₁ ids, (t.noteExtraSegment e.node p).lowered c e p = .ok as ∧
      Allocated (t.noteExtraSegment e.node p) t₁ (t.node e.node).spanOrStub as ids ∧
      lowerEntry c t e = t₁.substitute e ids := by
  cases hl : (t.noteExtraSegment e.node p).lowered c e p with
  | error problem => exact Or.inl ⟨problem, rfl, lowerEntry_of_error hp hl⟩
  | ok as => exact Or.inr ⟨as, _, _, rfl, allocated_allocAttributes _ as _, lowerEntry_of_ok hp hl⟩

end RenderTree

end TagHelpers
