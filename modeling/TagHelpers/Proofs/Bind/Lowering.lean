import TagHelpers.Proofs.Bind.Evolution
import Mathlib.Data.List.Forall2

/-!
# Lowering one bind attribute after the other

`LowersTo` says what lowering one attribute does to a tree: which nodes stand in its place, what
they are, and what is reported. The attributes are lowered one after the other, and none of them
stands in the way of another one.

* `lowersTo_lowerEntry`: the step.
* `unlowered_foldl_lowerEntry`: after all steps, an attribute that is still attached says why.
-/

namespace TagHelpers.RenderTree

variable {t t' t₁ : RenderTree} {x id : NodeId} {c : Catalog} {e : BindEntry} {p : Property}
  {span : Span} {a : LoweredAttribute} {as : List LoweredAttribute} {ids : List NodeId}
  {es : List BindEntry}

/-! ### The nodes of an attribute -/

/-- A node that is an attribute with its value and its code. -/
structure Stands (t : RenderTree) (span : Span) (a : LoweredAttribute) (id : NodeId) : Prop where
  kind_eq : t.kind id = a.kind
  span_eq : (t.node id).span = some span
  code : ∃ value token, t.children id = [value] ∧ t.kind value = a.valueKind ∧
    (t.node value).isBind = false ∧ t.children value = [token] ∧
    t.kind token = .token .code a.code ∧ t.children token = []

/-- No later step touches the nodes of an attribute. -/
theorem Stands.evolves (h : Stands t span a id) (ht : t.IsTree) (hev : Evolves t t') :
    Stands t' span a id := by
  -- no step changes a list of children without bind attributes, and these three are such lists
  obtain ⟨value, token, hid, hkv, hbv, hv, hkt, htok⟩ := h.code
  have hval : value ∈ t.children id := by rw [hid]; exact List.mem_singleton_self _
  have htk : token ∈ t.children value := by rw [hv]; exact List.mem_singleton_self _
  have hlt : id < t.size := lt_size_of_mem_children hval
  have hltv : value < t.size := ht.lt_of_child hval
  have hltt : token < t.size := ht.lt_of_child htk
  have hbt : (t.node token).isBind = false :=
    isBind_of_ne_property fun q => by rw [hkt]; exact nofun
  refine ⟨(hev.kind_eq id hlt).trans h.kind_eq, (hev.span_eq id hlt).trans h.span_eq, value, token,
    ?_, (hev.kind_eq value hltv).trans hkv, (hev.isBind_eq value).trans hbv, ?_,
    (hev.kind_eq token hltt).trans hkt, ?_⟩
  · rw [hev.children_of_plain id hlt, hid]
    intro x hx
    rw [hid, List.mem_singleton] at hx
    rwa [hx]
  · rw [hev.children_of_plain value hltv, hv]
    intro x hx
    rw [hv, List.mem_singleton] at hx
    rwa [hx]
  · rw [hev.children_of_plain token hltt, htok]
    intro x hx
    rw [htok] at hx
    exact absurd hx List.not_mem_nil

/-- The nodes that have been allocated, once they are in place. -/
theorem Allocated.stands (h : Allocated t t₁ span as ids) (hs : Splices t₁ t' id ids)
    (hid : id < t.size) (hplain : ∀ a ∈ as, ∀ q, a.valueKind ≠ .property q) :
    List.Forall₂ (t'.Stands span) as ids := by
  -- the replaced attribute is old, so it is a child of no new node
  have hkeep : ∀ x, t.size ≤ x → t'.children x = t₁.children x := by
    intro x hx
    rw [hs.children_eq, splice_of_not_mem fun hm => ?_]
    have hle : t.size ≤ id := (h.child_of_new hx hm).1 ▸ Nat.le_succ_of_le hx
    exact not_lt.2 hle hid
  refine List.forall₂_iff_get.2 ⟨by rw [h.ids_eq]; simp, fun i hi hi' => ?_⟩
  have ha : as[i]? = some (as.get ⟨i, hi⟩) := List.getElem?_eq_getElem hi
  have hget : ids.get ⟨i, hi'⟩ = t.size + 3 * i := by simp [h.ids_eq]
  rw [hget]
  refine ⟨?_, ?_, t.size + 3 * i + 1, t.size + 3 * i + 2, ?_, ?_, ?_, ?_, ?_, ?_⟩
  · rw [hs.kind_eq]
    unfold kind
    rw [h.head i _ ha]
  · rw [hs.span_eq, h.head i _ ha]
  · rw [hkeep _ (Nat.le_add_right _ _)]
    unfold children
    rw [h.head i _ ha]
  · rw [hs.kind_eq]
    unfold kind
    rw [h.value i _ ha]
  · refine isBind_of_ne_property fun q => ?_
    rw [hs.kind_eq]
    unfold kind
    rw [h.value i _ ha]
    exact hplain _ (List.get_mem _ _) q
  · rw [hkeep _ (by omega)]
    unfold children
    rw [h.value i _ ha]
  · rw [hs.kind_eq]
    unfold kind
    rw [h.token i _ ha]
  · rw [hkeep _ (by omega)]
    unfold children
    rw [h.token i _ ha]

/-! ### One attribute -/

/-- What is reported on a bind attribute: that its name has a third segment, and why it cannot be
lowered. -/
def outcomeReports (span : Span) (p : Property) (o : Except Problem (List LoweredAttribute)) :
    List Diagnostic :=
  (if (BindName.parse? p.attributeName).any (·.hasExtraSegment) then
    [(Problem.unsupportedBindFormat p.attributeName).report span] else []) ++
  match o with
  | .error problem => [problem.report span]
  | .ok _ => []

/-- `t'` is `t` after an attribute has been lowered with outcome `o`, and `ids` stand in its
place. -/
structure LowersTo (t t' : RenderTree) (e : BindEntry) (p : Property)
    (o : Except Problem (List LoweredAttribute)) (ids : List NodeId) : Prop where
  evolves : Evolves t t'
  children_eq : ∀ x, x < t.size → t'.children x = splice e.node ids (t.children x)
  stays : ∀ problem, o = .error problem →
    ids = [e.node] ∧ problem.report (t.node e.node).spanOrStub ∈ (t'.node e.node).diagnostics
  replaced : ∀ as, o = .ok as → ¬ t'.Reaches root e.node ∧ (∀ id ∈ ids, t.size ≤ id) ∧
    List.Forall₂ (t'.Stands (t.node e.node).spanOrStub) as ids
  bag_eq : t.Reaches root e.node →
    t'.bag = t.bag + (outcomeReports (t.node e.node).spanOrStub p o : Multiset Diagnostic)
  /-- A diagnostic that is not new was where it is, or has come from a bind attribute. -/
  origin : ∀ x, t'.Reaches root x → ∀ d ∈ (t'.node x).diagnostics,
    d ∈ outcomeReports (t.node e.node).spanOrStub p o ∨
      ∃ y, (y = x ∨ t.BelowBind y) ∧ t.Reaches root y ∧ d ∈ (t.node y).diagnostics

theorem bag_noteExtraSegment (ht : t.IsTree) (hid : t.Reaches root id) (p : Property) :
    (t.noteExtraSegment id p).bag = t.bag +
      ((if (BindName.parse? p.attributeName).any (·.hasExtraSegment) then
        [(Problem.unsupportedBindFormat p.attributeName).report (t.node id).spanOrStub] else [] :
          List Diagnostic) : Multiset Diagnostic) := by
  unfold noteExtraSegment
  split
  · rw [ht.bag_addDiagnostic _ hid]
    rfl
  · exact (add_zero _).symm

theorem mem_diagnostics_noteExtraSegment {d : Diagnostic}
    (h : d ∈ ((t.noteExtraSegment id p).node x).diagnostics)
    (o : Except Problem (List LoweredAttribute)) :
    d ∈ (t.node x).diagnostics ∨ d ∈ outcomeReports (t.node id).spanOrStub p o := by
  unfold noteExtraSegment at h
  unfold outcomeReports
  split_ifs at h ⊢
  · rcases mem_diagnostics_addDiagnostic h with h | ⟨-, rfl⟩
    · exact .inl h
    · exact .inr (List.mem_append_left _ List.mem_cons_self)
  · exact .inl h

theorem lowersTo_stays (ht : t.IsTree) (he : e.node ∈ t.children e.parent) (p : Property)
    (problem : Problem) :
    LowersTo t ((t.noteExtraSegment e.node p).addDiagnostic e.node
      (problem.report (t.node e.node).spanOrStub)) e p (.error problem) [e.node] := by
  have hn := evolves_noteExtraSegment ht e.node p
  have hs := sameShape_noteExtraSegment t e.node p
  have hs' := hs.trans (sameShape_addDiagnostic (t.noteExtraSegment e.node p) e.node
    (problem.report (t.node e.node).spanOrStub))
  refine ⟨hn.trans (evolves_addDiagnostic hn.isTree _ _), fun x _ => ?_, ?_, nofun, fun hr => ?_,
    fun x hx d hd => ?_⟩
  · rw [splice_self, hs'.children_eq]
  · rintro _ ⟨rfl⟩
    refine ⟨rfl, ?_⟩
    rw [diagnostics_addDiagnostic _ _ (hs.size_eq ▸ ht.lt_of_child he), if_pos rfl]
    exact List.mem_append_right _ (List.mem_singleton_self _)
  · rw [hn.isTree.bag_addDiagnostic _ (hs.reaches_iff.2 hr), bag_noteExtraSegment ht hr, add_assoc]
    rfl
  · rcases mem_diagnostics_addDiagnostic hd with hd | ⟨-, rfl⟩
    · rcases mem_diagnostics_noteExtraSegment hd (.error problem) with hd | hd
      · exact .inr ⟨x, .inl rfl, hs'.reaches_iff.1 hx, hd⟩
      · exact .inl hd
    · exact .inl (List.mem_append_right _ List.mem_cons_self)

/-- Where the diagnostics are from once an attribute has been replaced. -/
theorem Allocated.origin (h : Allocated t t₁ span as ids) (ht : t.IsTree)
    (he : e.node ∈ t.children e.parent) (hb : (t.node e.node).isBind = true) (hne : as ≠ [])
    (hx : (t₁.substitute e ids).Reaches root x) {d : Diagnostic}
    (hd : d ∈ ((t₁.substitute e ids).node x).diagnostics) :
    ∃ y, (y = x ∨ t.BelowBind y) ∧ t.Reaches root y ∧ d ∈ (t.node y).diagnostics := by
  have hm := moves_substitute h ht he hne
  have ht₁ := h.isTree ht
  -- a new node has no diagnostics before it takes those of the attribute
  have hold : ∀ y, d ∈ (t₁.node y).diagnostics → y < t.size ∧ d ∈ (t.node y).diagnostics := by
    intro y hy
    have hlt : y < t.size := by
      by_contra hc
      rw [h.diagnostics_new (not_lt.1 hc)] at hy
      cases hy
    exact ⟨hlt, h.old y hlt ▸ hy⟩
  rw [hm.diagnostics_eq x hx, List.mem_append] at hd
  have hx' := (hm.attached_iff ht₁).1 hx
  rcases hd with hd | hd
  · obtain ⟨hlt, hd⟩ := hold x hd
    rcases hx' with ⟨hroot, -⟩ | ⟨-, r, hr, hrx⟩
    · exact ⟨x, .inl rfl, (h.attached_iff ht).1 hroot, hd⟩
    · exact absurd hlt (not_lt.2 (h.reaches_new ht (h.mem_ids hr).1 hrx))
  · split_ifs at hd with htaker
    · have hparent : t.Reaches root e.parent := by
        rcases hx' with ⟨hroot, -⟩ | ⟨hroot, -⟩
        · have hlt := ht.lt_size_of_attached ((h.attached_iff ht).1 hroot)
          exact absurd htaker hlt.ne
        · exact (h.attached_iff ht).1 hroot
      obtain ⟨y, hy, hd⟩ := List.mem_flatMap.1 hd
      obtain ⟨hlt, hd⟩ := hold y hd
      have hr := h.reaches_old ht hlt (mem_below_reaches hy)
      exact ⟨y, .inr ⟨e.node, hb, hr⟩, (hparent.tail he).trans hr, hd⟩
    · cases hd

theorem lowersTo_replaced (ht : t.IsTree) (he : e.node ∈ t.children e.parent)
    (hb : (t.node e.node).isBind = true)
    (hl : (t.noteExtraSegment e.node p).lowered c e p = .ok as)
    (ha : Allocated (t.noteExtraSegment e.node p) t₁ (t.node e.node).spanOrStub as ids) :
    LowersTo t (t₁.substitute e ids) e p (.ok as) ids := by
  have hn := evolves_noteExtraSegment ht e.node p
  have hs := sameShape_noteExtraSegment t e.node p
  have he' : e.node ∈ (t.noteExtraSegment e.node p).children e.parent := by
    rw [hs.children_eq]; exact he
  have hne := ne_nil_of_lowered hl
  have hplain := not_property_of_lowered hl
  have hm := moves_substitute ha hn.isTree he' hne
  have ht₁ := ha.isTree hn.isTree
  have hev := evolves_substitute ha hn.isTree he' ((hn.isBind_eq e.node).trans hb) hne hplain
  refine ⟨hn.trans hev, fun x hx => ?_, nofun, ?_, fun hr => ?_, fun x hx d hd => ?_⟩
  · rw [hm.children_eq, ha.children_old (hs.size_eq ▸ hx), hs.children_eq]
  · rintro _ ⟨rfl⟩
    refine ⟨fun hr => ?_, fun id hid => hs.size_eq ▸ (ha.mem_ids hid).1,
      ha.stands hm.toSplices (hn.isTree.lt_of_child he') fun a ha q => (hplain a ha q).2⟩
    rcases (hm.attached_iff ht₁).1 hr with ⟨-, hx⟩ | ⟨-, r, hrm, hrx⟩
    · exact hx (Reaches.refl _ _)
    · exact not_lt.2 (ha.reaches_new hn.isTree (ha.mem_ids hrm).1 hrx) (hn.isTree.lt_of_child he')
  · rw [hm.bag_eq ht₁ hev.isTree, ha.bag_eq hn.isTree, bag_noteExtraSegment ht hr]
    unfold outcomeReports
    rw [List.append_nil]
  · obtain ⟨y, hy, hroot, hd⟩ := ha.origin hn.isTree he' ((hn.isBind_eq e.node).trans hb) hne hx hd
    rw [hs.reaches_iff] at hroot
    have hy' : y = x ∨ t.BelowBind y :=
      hy.imp_right (hn.belowBind (ht.lt_size_of_attached hroot))
    rcases mem_diagnostics_noteExtraSegment hd (.ok as) with hd | hd
    · exact .inr ⟨y, hy', hroot, hd⟩
    · exact .inl hd

/-- **What lowering an attribute does.** -/
theorem lowersTo_lowerEntry (c : Catalog) (ht : t.IsTree) (he : e.node ∈ t.children e.parent)
    (hb : (t.node e.node).isBind = true) (hp : (t.node e.node).property? = some p) :
    ∃ ids, LowersTo t (lowerEntry c t e) e p ((t.noteExtraSegment e.node p).lowered c e p) ids := by
  rcases lowerEntry_cases c hp with ⟨problem, hl, h⟩ | ⟨as, t₁, ids, hl, ha, h⟩
  · rw [hl, h]
    exact ⟨[e.node], lowersTo_stays ht he p problem⟩
  · rw [hl, h]
    exact ⟨ids, lowersTo_replaced ht he hb hl ha⟩

/-! ### All attributes -/

/-- **One step**: the first attribute is lowered, and the others stay where they are. -/
theorem Refers.lowerEntry (h : Refers t ((e :: es).map BindEntry.reference)) (c : Catalog) :
    ∃ p ids, (t.node e.node).property? = some p ∧
      LowersTo t (lowerEntry c t e) e p ((t.noteExtraSegment e.node p).lowered c e p) ids ∧
      Refers (RenderTree.lowerEntry c t e) (es.map BindEntry.reference) := by
  have he := h.mem_children e.reference List.mem_cons_self
  have hb := h.isBind e.reference List.mem_cons_self
  obtain ⟨p, hp⟩ := exists_property hb
  obtain ⟨ids, h1⟩ := lowersTo_lowerEntry c h.isTree he hb hp
  refine ⟨p, ids, hp, h1, h.tail h1.evolves fun q x hx hne => ?_⟩
  rw [h1.children_eq _ (lt_size_of_mem_children hx)]
  exact mem_splice.2 (Or.inl ⟨hx, hne⟩)

/-- Whether a node says that it is no proper bind attribute. -/
def Unlowered (n : RenderNode) : Prop :=
  ∃ d ∈ n.diagnostics, d.code = .invalidBindName ∨ d.code = .emptyBindExpression

theorem LowersTo.unlowered (h : LowersTo t t' e p ((t.noteExtraSegment e.node p).lowered c e p) ids)
    (hr : t'.Reaches root e.node) : Unlowered (t'.node e.node) := by
  cases hl : (t.noteExtraSegment e.node p).lowered c e p with
  | error problem =>
    refine ⟨_, (h.stays problem hl).2, ?_⟩
    rcases lowered_error hl with rfl | rfl
    · exact Or.inl rfl
    · exact Or.inr rfl
  | ok as => exact absurd hr (h.replaced as hl).1

theorem evolves_foldl_lowerEntry (c : Catalog) (es : List BindEntry) : ∀ t : RenderTree,
    Refers t (es.map BindEntry.reference) → Evolves t (es.foldl (lowerEntry c) t) := by
  induction es with
  | nil => intro t h; exact Evolves.refl h.isTree
  | cons e es ih =>
    intro t h
    obtain ⟨p, ids, -, h1, hes⟩ := h.lowerEntry c
    exact h1.evolves.trans (ih _ hes)

/-- **After all attributes have been lowered, one that is still attached says why.** -/
theorem unlowered_foldl_lowerEntry (c : Catalog) (es : List BindEntry) : ∀ t : RenderTree,
    Refers t (es.map BindEntry.reference) →
    ∀ e ∈ es, (es.foldl (lowerEntry c) t).Reaches root e.node →
      Unlowered ((es.foldl (lowerEntry c) t).node e.node) := by
  induction es with
  | nil => intro t _ e he; exact absurd he List.not_mem_nil
  | cons e es ih =>
    intro t h e' he' hr
    obtain ⟨p, ids, -, h1, hes⟩ := h.lowerEntry c
    rcases List.mem_cons.1 he' with rfl | he'
    · -- what the first attribute says of itself is not lost by the steps after it
      have hev := evolves_foldl_lowerEntry c es _ hes
      have hlt := (h.isTree.lt_of_child (h.mem_children _ List.mem_cons_self)).trans_le
        h1.evolves.size_le
      obtain ⟨d, hd, hcode⟩ := h1.unlowered (hev.attached _ hlt hr)
      exact ⟨d, hev.diagnostics_subset _ hlt hr hd, hcode⟩
    · exact ih _ hes e' he' hr

end TagHelpers.RenderTree
