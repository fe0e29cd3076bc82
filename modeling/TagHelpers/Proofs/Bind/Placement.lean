import TagHelpers.Proofs.Bind.Frame
import TagHelpers.Proofs.Bind.Lowering

/-!
# Where lowered attributes stand

What can be said of a lowered attribute in any tree, also in one where a node stands below several
others: `replaced_lowerEntry`. The attributes that it stands for are new nodes, and they stand in a
row where the attribute was.
-/

namespace TagHelpers.RenderTree

variable {t t₁ : RenderTree} {c : Catalog} {e : BindEntry} {p : Property} {id parent : NodeId}
  {span : Span} {as : List LoweredAttribute} {ids : List NodeId}

theorem lt_size_of_kind_ne (h : t.kind id ≠ .document) : id < t.size := by
  by_contra hle
  exact h (by rw [kind, node_of_size_le (not_lt.1 hle)]; rfl)

/-! ### Replacing a child -/

@[simp] theorem size_replaceChild (t : RenderTree) (parent id : NodeId) (ids : List NodeId) :
    (t.replaceChild parent id ids).1.size = t.size := by
  unfold replaceChild
  split
  · rfl
  · exact size_update _ _ _

@[simp] theorem kind_replaceChild (t : RenderTree) (parent id : NodeId) (ids : List NodeId)
    (x : NodeId) : (t.replaceChild parent id ids).1.kind x = t.kind x := by
  unfold replaceChild
  split
  · rfl
  · simp only [kind, node_update]
    split <;> rfl

/-- The first place where a child stands is the one that is filled. -/
theorem children_replaceChild (ids : List NodeId) (h : id ∈ t.children parent) :
    ∃ before after, t.children parent = before ++ id :: after ∧
      (t.replaceChild parent id ids).1.children parent = before ++ ids ++ after := by
  unfold replaceChild
  cases hi : (t.children parent).idxOf? id with
  | none => exact absurd h (List.idxOf?_eq_none_iff.1 hi)
  | some place =>
    obtain ⟨hlt, hplace, -⟩ := List.idxOf?_eq_some_iff.1 hi
    refine ⟨(t.children parent).take place, (t.children parent).drop (place + 1), ?_, ?_⟩
    · rw [← hplace, ← List.drop_eq_getElem_cons hlt, List.take_append_drop]
    · have hr := rechild_update (fun cs => cs.take place ++ ids ++ cs.drop (place + 1))
        (lt_size_of_mem_children h)
      rw [hr.children_eq, if_pos rfl]

/-! ### Lowering -/

/-- The nodes of the attributes `as` stand behind those of `t`, the attributes themselves where a
bind attribute was. -/
structure Replaced (t t' : RenderTree) (e : BindEntry) (as : List LoweredAttribute) : Prop where
  size_eq : t'.size = t.size + 3 * as.length
  kind_eq : ∀ i a, as[i]? = some a → t'.kind (t.size + 3 * i) = a.kind
  children_eq : e.node ∈ t.children e.parent → ∃ before after,
    t.children e.parent = before ++ e.node :: after ∧
    t'.children e.parent = before ++ (List.range as.length).map (t.size + 3 * ·) ++ after

theorem Allocated.replaced (h : Allocated t t₁ span as ids) (hne : as ≠ []) :
    Replaced t (t₁.substitute e ids) e as := by
  obtain ⟨t₂, hs, heq, -⟩ := h.substitute_eq (e := e) hne
  rw [heq]
  refine ⟨?_, fun i a ha => ?_, fun he => ?_⟩
  · rw [size_replaceChild, hs.size_eq, h.size_eq]
  · rw [kind_replaceChild, hs.kind_eq, kind, h.head i a ha]
  · have hc : t₂.children e.parent = t.children e.parent := by
      rw [hs.children_eq, h.children_old (lt_size_of_mem_children he)]
    rw [← hc] at he ⊢
    rw [← h.ids_eq]
    exact children_replaceChild ids he

theorem replaced_lowerEntry (hp : (t.node e.node).property? = some p)
    (hl : t.lowered c e p = .ok as) : Replaced t (lowerEntry c t e) e as := by
  have hs := sameShape_noteExtraSegment t e.node p
  have hln := (hs.lowered_eq c e p).trans hl
  have h := (allocated_allocAttributes (t.node e.node).spanOrStub as
    (t.noteExtraSegment e.node p)).replaced (e := e) (ne_nil_of_lowered hln)
  rw [lowerEntry_of_ok hp hln]
  refine ⟨?_, fun i a ha => ?_, fun he => ?_⟩
  · rw [h.size_eq, hs.size_eq]
  · rw [← hs.size_eq]
    exact h.kind_eq i a ha
  · rw [← hs.children_eq] at he ⊢
    rw [← hs.size_eq]
    exact h.children_eq he

end TagHelpers.RenderTree
