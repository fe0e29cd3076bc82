import TagHelpers.Proofs.Bind.Reports

/-!
# Lowering in place

Where no bind attribute stands below another one, lowering replaces each bind attribute by a block
of nodes in its place and touches nothing else.

* `BindSource.InOrder`: what the attributes that a bind attribute stands for are, in their order.
* `foldl_lowerEntry_children`: the blocks that the entries leave, by induction on the entries.
* `substitutes_lowerBinds`: what the block of each child is.
-/

namespace TagHelpers

/-- The attributes that a bind attribute stands for: first its value, then its change handler, and
on a component perhaps the bound expression. -/
def BindSource.InOrder (s : BindSource) (parent : RenderKind) (as : List LoweredAttribute) : Prop :=
  ∃ value change expression, as = value :: change :: expression ∧
    value.code = valueExpression s.expression s.format ∧
    (∃ call, change.code = changeExpression call s.expression s.format) ∧
    (∀ a ∈ expression, a.code = expressionLambda s.expression) ∧
    match parent with
    | .component .. => expression.length ≤ 1 ∧ ∀ a ∈ as, ∃ k, a.kind = .componentAttribute k
    | _ => expression = [] ∧ ∀ a ∈ as, ∃ k, a.kind = .htmlAttribute k

namespace RenderTree

open BindCandidate

variable {t t₀ t' : RenderTree} {e : BindEntry} {b : BindCandidate} {p x : NodeId} {c : Catalog}
  {q : Property} {as : List LoweredAttribute} {ids : List NodeId}

theorem inOrder_of_lowered (h : t.lowered c e q = .ok as) :
    (t.bindSource e).InOrder (t.kind e.parent) as := by
  rcases lowered_ok h with ⟨tag, component, valueName, hk, rfl⟩ | ⟨hk, valueName, hel⟩
  · rw [hk]
    unfold BindSource.InOrder BindSource.onComponent
    refine ⟨_, _, _, rfl, rfl, ⟨_, rfl⟩, ?_, ?_, ?_⟩
    · intro a ha
      obtain ⟨d, -, rfl⟩ := List.mem_map.1 ha
      rfl
    · rw [List.length_map]
      exact Option.length_toList_le
    · intro a ha
      simp only [List.mem_cons, List.mem_map] at ha
      rcases ha with rfl | rfl | ⟨d, -, rfl⟩ <;> exact ⟨_, rfl⟩
  · obtain ⟨changeName, -, rfl⟩ := Option.map_eq_some_iff.1 hel
    refine ⟨_, _, [], rfl, rfl, ⟨some (c.changeCall changeName), rfl⟩,
      fun a ha => absurd ha List.not_mem_nil, ?_⟩
    split
    · rename_i tag component hc
      exact absurd hc (hk tag component)
    · refine ⟨rfl, fun a ha => ?_⟩
      simp only [List.mem_cons, List.not_mem_nil, or_false] at ha
      rcases ha with rfl | rfl <;> exact ⟨_, rfl⟩

/-! ### The blocks of the entries -/

/-- `ids` stand in the place of the attribute of an entry: itself if it cannot be lowered, and
otherwise new nodes that are the attributes it stands for. -/
def Placed (t t' : RenderTree) (c : Catalog) (e : BindEntry) (q : Property) (ids : List NodeId) :
    Prop :=
  match t.lowered c e q with
  | .error _ => ids = [e.node]
  | .ok as => (∀ id ∈ ids, t.size ≤ id) ∧
      List.Forall₂ (t'.Stands (t.node e.node).spanOrStub) as ids

theorem Placed.evolves {t'' : RenderTree} (h : Placed t t' c e q ids) (ht' : t'.IsTree)
    (hev : Evolves t' t'') : Placed t t'' c e q ids := by
  unfold Placed at h ⊢
  split at h
  · exact h
  · exact ⟨h.1, h.2.imp fun _ _ hs => hs.evolves ht' hev⟩

theorem LowersTo.placed (h : LowersTo t t' e q ((t.noteExtraSegment e.node q).lowered c e q) ids)
    (ht : t₀.IsTree) (hn : t₀.NoNestedBinds) (hev : Evolves t₀ t) (he : t₀.Reads e) :
    Placed t₀ t' c e q ids := by
  have hl := (hev.trans (evolves_noteExtraSegment hev.isTree e.node q)).lowered_eq (c := c) (p := q)
    ht hn he
  have hspan := spanOrStub_congr (hev.span_eq _ (ht.lt_size_of_attached he.node.1))
  rw [hl] at h
  unfold Placed
  split
  · rename_i problem ho
    exact (h.stays problem ho).1
  · rename_i as ho
    obtain ⟨-, hnew, hs⟩ := h.replaced as ho
    exact ⟨fun id hid => hev.size_le.trans (hnew id hid), hspan ▸ hs⟩

/-- No later entry is among the nodes that stand in the place of an attribute. -/
theorem LowersTo.not_mem_entries {o : Except Problem (List LoweredAttribute)}
    {es : List BindEntry} (h : LowersTo t t' e q o ids)
    (hes : Refers t ((e :: es).map BindEntry.reference)) :
    ∀ id ∈ ids, id ∉ es.map (·.node) := by
  intro id hid hm
  obtain ⟨e', he', rfl⟩ := List.mem_map.1 hm
  cases o with
  | error problem =>
    rw [(h.stays problem rfl).1, List.mem_singleton] at hid
    have hnd := hes.nodup
    rw [List.map_map, List.map_cons, List.nodup_cons] at hnd
    exact hnd.1 (List.mem_map.2 ⟨e', he', hid⟩)
  | ok as =>
    have hlt := hes.isTree.lt_of_child (hes.mem_children e'.reference
      (List.mem_map_of_mem (List.mem_cons_of_mem _ he')))
    exact not_lt.2 ((h.replaced as rfl).2.1 _ hid) hlt

/-- **Each entry leaves its block**, and all other children stay. -/
theorem foldl_lowerEntry_children (c : Catalog) (ht : t₀.IsTree) (hn : t₀.NoNestedBinds)
    (es : List BindEntry) : ∀ t : RenderTree, Evolves t₀ t →
    Refers t (es.map BindEntry.reference) → (∀ e ∈ es, t₀.Reads e) →
    ∃ block : NodeId → List NodeId,
      (∀ x, x < t.size → (es.foldl (lowerEntry c) t).children x = (t.children x).flatMap block) ∧
      (∀ x, x ∉ es.map (·.node) → block x = [x]) ∧
      ∀ e ∈ es, ∀ q, (t₀.node e.node).property? = some q →
        Placed t₀ (es.foldl (lowerEntry c) t) c e q (block e.node) := by
  induction es with
  | nil =>
    intro t _ _ _
    exact ⟨fun x => [x], fun x _ => (List.flatMap_singleton' _).symm, fun _ _ => rfl, nofun⟩
  | cons e es ih =>
    intro t hev h hreads
    have hread := hreads e List.mem_cons_self
    obtain ⟨q, ids, hq, h1, hes⟩ := h.lowerEntry c
    have hrest := evolves_foldl_lowerEntry c es _ hes
    obtain ⟨block, hchildren, hself, hplaced⟩ := ih (lowerEntry c t e) (hev.trans h1.evolves) hes
      fun e' he' => hreads e' (List.mem_cons_of_mem _ he')
    refine ⟨fun x => if x = e.node then ids else block x, fun x hx => ?_, fun x hx => ?_,
      fun e' he' q' hq' => ?_⟩
    · -- the nodes in the place of this attribute stay where they are
      have hids : ids.flatMap block = ids := by
        conv_rhs => rw [← List.flatMap_singleton' ids]
        exact List.flatMap_congr fun id hid => hself id (h1.not_mem_entries h id hid)
      rw [List.foldl_cons, hchildren x (hx.trans_le h1.evolves.size_le), h1.children_eq x hx]
      unfold splice
      rw [List.flatMap_assoc]
      refine List.flatMap_congr fun y _ => ?_
      split
      · exact hids
      · exact List.flatMap_singleton _ _
    · rw [List.map_cons, List.mem_cons, not_or] at hx
      exact (if_neg hx.1).trans (hself x hx.2)
    · show Placed t₀ _ c e' q' (if e'.node = e.node then ids else block e'.node)
      rcases List.mem_cons.1 he' with rfl | he'
      · have hprop := property?_congr (hev.kind_eq _ (ht.lt_size_of_attached hread.node.1))
        obtain rfl : q' = q := Option.some.inj (hq'.symm.trans (hprop.symm.trans hq))
        rw [if_pos rfl]
        exact (h1.placed ht hn hev hread).evolves h1.evolves.isTree hrest
      · have hnd := h.nodup
        rw [List.map_map, List.map_cons, List.nodup_cons] at hnd
        have hne : e'.node ≠ e.node := fun hne => hnd.1 (List.mem_map.2 ⟨e', he', hne⟩)
        rw [if_neg hne]
        exact hplaced e' he' q' hq'

/-! ### The blocks of all children -/

/-- `t'` is `t` with a block of nodes in the place of each child. -/
structure Substitutes (t t' : RenderTree) (c : Catalog) (block : NodeId → List NodeId) : Prop where
  isTree : t'.IsTree
  children_eq : ∀ p ∈ t.preorder, t'.children p = (t.children p).flatMap block
  /-- A child that is no bind attribute stays. -/
  plain : ∀ p ∈ t.preorder, ∀ x ∈ t.children p, (t.node x).isBind = false → block x = [x]
  /-- A bind attribute that gives way, or that shares its name with others that do not, goes. -/
  dropped : ∀ p ∈ t.preorder, ∀ x ∈ t.children p, (t.node x).isBind = true →
    x ∉ (t.remaining p).map (·.node) → block x = []
  /-- A parameter goes. -/
  parameter : ∀ p ∈ t.preorder, ∀ b ∈ t.remaining p, (t.parameterUse? b.node).isSome = true →
    block b.node = []
  /-- A bind attribute that cannot be lowered stays. -/
  stays : ∀ p ∈ t.preorder, ∀ b ∈ t.remaining p, ∀ q, t.baseUse? b.node = some q →
    ∀ problem, t.lowered c (t.entryOf p b) q = .error problem → block b.node = [b.node]
  /-- In the place of any other bind attribute stand new nodes. -/
  replaced : ∀ p ∈ t.preorder, ∀ b ∈ t.remaining p, ∀ q, t.baseUse? b.node = some q →
    ∀ as, t.lowered c (t.entryOf p b) q = .ok as →
      (∀ id ∈ block b.node, t.size ≤ id) ∧
      List.Forall₂ (t'.Stands (t.node b.node).spanOrStub) as (block b.node) ∧
      (t.bindSource (t.entryOf p b)).InOrder (t.kind p) as
  kind_eq : ∀ x ∈ t.preorder, t'.kind x = t.kind x
  span_eq : ∀ x ∈ t.preorder, (t'.node x).span = (t.node x).span
  below : ∀ x, t.InBind x → t'.children x = t.children x

theorem not_mem_settled_of_dropped (ht : t.IsTree) (hp : t.Reaches root p)
    (hb : (t.node x).isBind = true) (hx : x ∉ (t.remaining p).map (·.node)) :
    x ∉ t.settled.1.children p := by
  intro hm
  have hgone := ((prunes_withoutDuplicates ht).mem_children.1
    ((prunes_settled ht).mem_children.1 hm).1).2
  have hcontains : ((t.remaining p).map (·.node)).contains x = false := by
    rw [← Bool.not_eq_true, List.contains_iff_mem]
    exact hx
  rw [List.contains_iff_mem.2 (ht.mem_preorder.2 hp), hb, hcontains] at hgone
  cases hgone

theorem not_mem_settled_of_parameter (ht : t.IsTree) (hp : t.withoutDuplicates.Reaches root p)
    (hb : b ∈ t.remaining p) (hpar : (t.parameterUse? b.node).isSome = true) :
    b.node ∉ t.settled.1.children p := by
  intro hm
  have hgone := ((prunes_settled ht).mem_children.1 hm).2
  rw [List.contains_iff_mem.2 (mem_bindReferences_of_remaining ht hp hb),
    parameterUse?_congr ((prunes_withoutDuplicates ht).kind_eq _), hpar] at hgone
  cases hgone

theorem property?_of_baseUse? (h : t.baseUse? x = some q) :
    (t.node x).property? = some q ∧ t.parameterUse? x = none := by
  unfold baseUse? at h
  obtain ⟨hq, hpar⟩ := Option.filter_eq_some_iff.1 h
  refine ⟨hq, ?_⟩
  rw [parameterUse?_eq hq]
  simpa [Resolution.isParameter] using hpar

/-- The blocks of the children that are left before anything is lowered. -/
theorem exists_block (c : Catalog) (ht : t.IsTree) (hn : t.NoNestedBinds) :
    ∃ block : NodeId → List NodeId,
      (∀ p ∈ t.preorder, (t.lowerBinds c).children p = (t.children p).flatMap block) ∧
      (∀ p x, x ∈ t.children p → x ∉ t.settled.1.children p → block x = []) ∧
      (∀ p x, x ∈ t.settled.1.children p → x ∉ t.settled.2.map (·.node) → block x = [x]) ∧
      ∀ e ∈ t.settled.2, ∀ q, (t.node e.node).property? = some q →
        Placed t (t.lowerBinds c) c e q (block e.node) := by
  obtain ⟨gone, reports, hprune⟩ : ∃ gone reports, Prunes t t.settled.1 gone reports :=
    ⟨_, _, (prunes_withoutDuplicates ht).trans (prunes_settled ht)⟩
  have hreads : ∀ e ∈ t.settled.2, t.Reads e := fun e he => by
    obtain ⟨p, b, hp, hb, -, rfl⟩ := exists_entryOf ht he
    exact reads_entryOf ht hp hb
  obtain ⟨block, hchildren, hself, hplaced⟩ := foldl_lowerEntry_children c ht hn t.settled.2
    t.settled.1 hprune.evolves (refers_settled ht) hreads
  rw [← lowerBinds_eq] at hchildren hplaced
  -- `block` is about the children that are left; nothing stands for those that are gone
  obtain ⟨block', hleft, hgone⟩ : ∃ block' : NodeId → List NodeId,
      (∀ x ∈ t.settled.1.childIds, block' x = block x) ∧
      ∀ x, x ∉ t.settled.1.childIds → block' x = [] :=
    ⟨fun x => if x ∈ t.settled.1.childIds then block x else [], fun _ h => if_pos h,
      fun _ h => if_neg h⟩
  have hin : ∀ p x, x ∈ t.settled.1.children p → block' x = block x := fun p x hx =>
    hleft x (mem_childIds.2 ⟨p, hx⟩)
  have hout : ∀ p x, x ∈ t.children p → x ∉ t.settled.1.children p → block' x = [] := by
    intro p x hx hnot
    refine hgone x fun hm => hnot ?_
    obtain ⟨p', hp'⟩ := mem_childIds.1 hm
    rwa [ht.parent_unique hx (hprune.evolves.mem_children p' x (ht.lt_of_child hx) hp')]
  refine ⟨block', fun p hp => ?_, hout, fun p x hx hnot => (hin p x hx).trans (hself x hnot),
    fun e he q hq => ?_⟩
  · have hlt : p < t.settled.1.size := by
      rw [hprune.size_eq]
      exact ht.lt_size_of_attached (ht.mem_preorder.1 hp)
    calc (t.lowerBinds c).children p = (t.settled.1.children p).flatMap block := hchildren p hlt
      _ = (t.settled.1.children p).flatMap block' :=
          List.flatMap_congr fun x hx => (hin p x hx).symm
      _ = (t.children p).flatMap block' := by
          rw [hprune.children_eq]
          refine flatMap_filter_eq fun x hx hx' => hout p x hx fun hm => ?_
          rw [hprune.children_eq, List.mem_filter, hx'] at hm
          exact Bool.false_ne_true hm.2
  · rw [hin e.parent e.node (settled_entries ht he).1]
    exact hplaced e he q hq

/-- **Lowering is a substitution in place.** Where no bind attribute stands below another one, the
children of an attached node are replaced one by one: a bind attribute by nothing if it is dropped
or a parameter, by new attributes if it can be lowered, and anything else by itself. All attached
nodes keep what they are, and what is at or below a bind attribute keeps its children. -/
theorem substitutes_lowerBinds (t : RenderTree) (c : Catalog) (ht : t.IsTree)
    (hn : t.NoNestedBinds) : ∃ block, Substitutes t (t.lowerBinds c) c block := by
  have hev := evolves_lowerBinds c ht
  obtain ⟨block, hchildren, hout, hself, hplaced⟩ := exists_block c ht hn
  -- an element with remaining bind attributes is below none, so it is visited
  have hattached : ∀ p ∈ t.preorder, ∀ b ∈ t.remaining p, t.withoutDuplicates.Reaches root p :=
    fun p hp b hb => attached_of_remaining ht hn (prunes_withoutDuplicates ht).evolves
      (ht.mem_preorder.1 hp) hb
  have hbase : ∀ p ∈ t.preorder, ∀ b ∈ t.remaining p, ∀ q, t.baseUse? b.node = some q →
      Placed t (t.lowerBinds c) c (t.entryOf p b) q (block b.node) := by
    intro p hp b hb q hq
    obtain ⟨hprop, hnone⟩ := property?_of_baseUse? hq
    exact hplaced _ (entryOf_mem ht (hattached p hp b hb) hb hnone) q hprop
  refine ⟨block, hev.isTree, hchildren, fun p hp x hx hb => ?_, fun p hp x hx hb hnot => ?_,
    fun p hp b hb hpar => ?_, fun p hp b hb q hq problem hl => ?_, fun p hp b hb q hq as hl => ?_,
    fun x hx => ?_, fun x hx => ?_, fun x hx => hev.children_of_inBind ht hn hx⟩
  · refine hself p x ((evolves_settled ht).mem_of_plain p x hx hb) fun hm => ?_
    obtain ⟨e, he, rfl⟩ := List.mem_map.1 hm
    have hbind := (settled_entries ht he).2
    rw [(evolves_settled ht).isBind_eq, hb] at hbind
    exact Bool.false_ne_true hbind
  · exact hout p x hx (not_mem_settled_of_dropped ht (ht.mem_preorder.1 hp) hb hnot)
  · exact hout p b.node (property?_remaining hb).1
      (not_mem_settled_of_parameter ht (hattached p hp b hb) hb hpar)
  · have h := hbase p hp b hb q hq
    unfold Placed at h
    rwa [hl] at h
  · have h := hbase p hp b hb q hq
    unfold Placed at h
    rw [hl] at h
    exact ⟨h.1, h.2, inOrder_of_lowered hl⟩
  · exact hev.kind_eq x (ht.lt_size_of_attached (ht.mem_preorder.1 hx))
  · exact hev.span_eq x (ht.lt_size_of_attached (ht.mem_preorder.1 hx))

theorem substitutes_flat :
    Sample.flat.IsTree ∧ Sample.flat.NoNestedBinds ∧
      ∃ block, Substitutes Sample.flat (Sample.flat.lowerBinds ⟨[]⟩) ⟨[]⟩ block :=
  ⟨by decide, by decide, substitutes_lowerBinds Sample.flat ⟨[]⟩ (by decide) (by decide)⟩

end RenderTree

end TagHelpers
