import TagHelpers.Proofs.Bind.Origins
import TagHelpers.Proofs.RenderTree.Stock
import Mathlib.Data.List.Perm.Basic

/-!
# No name is dropped silently

Of the bind attributes of one name on an element one stays, or the name is reported and none stays.
This holds of any array of nodes: nothing here needs that they make a tree.

* `BindCandidate.not_isShadowedBy`: of the candidates that give way to none, none gives way to
  another one.
* `BindCandidate.mem_conflicts`, `BindCandidate.mem_remaining`: what becomes of a name is decided by
  how many candidates of it give way to none.
* `Drops`: some children have been taken off the list of an element, and some diagnostics have been
  created on it.
* `children_resolveDuplicates_perm`: the children that stay are the remaining candidates and those
  that are no bind attributes.
* `settles_resolveDuplicates`: what becomes of each name.
-/

namespace TagHelpers

namespace BindCandidate

variable {cs before : List BindCandidate} {b b' : BindCandidate} {name : String}

/-! ### Candidates that give way to none -/

/-- A candidate that is kept gives way to none that is kept or was there before it. -/
theorem not_isShadowedBy_dropShadowed (cs : List BindCandidate) : ∀ before : List BindCandidate,
    ∀ b ∈ (dropShadowed before cs).1, ∀ b' ∈ before ++ (dropShadowed before cs).1,
      b.isShadowedBy b' = false := by
  induction cs with
  | nil => intro before b hb; exact absurd hb List.not_mem_nil
  | cons c cs ih =>
    intro before b hb b' hb'
    rw [dropShadowed_cons] at hb hb'
    have hih := ih (before ++ [c])
    split_ifs at hb hb' with hshadow
    · refine hih b hb b' ?_
      rcases List.mem_append.1 hb' with hb' | hb'
      · exact List.mem_append_left _ (List.mem_append_left _ hb')
      · exact List.mem_append_right _ hb'
    · rcases List.mem_cons.1 hb with rfl | hb
      · have hall := List.any_eq_false.1 (Bool.eq_false_iff.2 hshadow) b' hb'
        exact Bool.eq_false_iff.2 hall
      · refine hih b hb b' ?_
        rwa [List.append_assoc, List.singleton_append]

/-- **None of the kept candidates gives way to another one.** -/
theorem not_isShadowedBy (hb : b ∈ kept cs) (hb' : b' ∈ kept cs) : b.isShadowedBy b' = false :=
  not_isShadowedBy_dropShadowed cs [] b hb b' hb'

/-! ### What becomes of a name -/

theorem mem_rivals : b ∈ rivals cs name ↔ b ∈ kept cs ∧ b.name = name := by
  unfold rivals
  rw [List.mem_filter, beq_iff_eq]

/-- A name is in conflict if several candidates of it are kept. -/
theorem mem_conflicts : name ∈ conflicts cs ↔ 1 < (rivals cs name).length := by
  unfold conflicts
  rw [List.mem_filter, decide_eq_true_eq, mem_unique]
  refine ⟨fun h => h.2, fun h => ⟨?_, h⟩⟩
  obtain ⟨b, hb⟩ := List.exists_mem_of_length_pos (Nat.zero_lt_of_lt h)
  obtain ⟨hkept, rfl⟩ := mem_rivals.1 hb
  exact List.mem_map_of_mem hkept

/-- A candidate is left if it is the only one of its name that is kept. -/
theorem mem_remaining : b ∈ remaining cs ↔ rivals cs b.name = [b] := by
  unfold remaining
  rw [List.mem_filter, decide_eq_true_eq]
  constructor
  · rintro ⟨hkept, hle⟩
    have hb : b ∈ rivals cs b.name := mem_rivals.2 ⟨hkept, rfl⟩
    have hpos := List.length_pos_of_mem hb
    obtain ⟨c, hc⟩ := List.length_eq_one_iff.1 (show (rivals cs b.name).length = 1 by omega)
    rw [hc, List.mem_singleton] at hb
    rw [hc, hb]
  · intro h
    have hb : b ∈ rivals cs b.name := by rw [h]; exact List.mem_singleton_self b
    refine ⟨(mem_rivals.1 hb).1, ?_⟩
    rw [h]
    exact le_rfl

/-- A candidate that is left is the only one of its name. -/
theorem filter_remaining (hb : b ∈ remaining cs) :
    (remaining cs).filter (·.name == b.name) = [b] := by
  have hrivals := mem_remaining.1 hb
  rw [← hrivals]
  unfold remaining
  rw [List.filter_filter]
  refine List.filter_congr fun c _ => ?_
  by_cases hc : c.name = b.name
  · simp [hc, hrivals]
  · simp [hc]

theorem nodup_conflicts (cs : List BindCandidate) : (conflicts cs).Nodup :=
  (nodup_unique _).filter _

/-- The kept candidates of several names, name by name. -/
theorem flatMap_rivals_perm (cs : List BindCandidate) (names : List String) (h : names.Nodup) :
    (names.flatMap (rivals cs)).Perm ((kept cs).filter fun b => names.contains b.name) := by
  induction names with
  | nil => simp
  | cons name names ih =>
    obtain ⟨hname, hnames⟩ := List.nodup_cons.1 h
    rw [List.flatMap_cons]
    -- the candidates of the first name apart from those of the others
    have hsplit := List.filter_append_perm (fun b : BindCandidate => b.name == name)
      ((kept cs).filter fun b => (name :: names).contains b.name)
    have hfirst : ((kept cs).filter fun b => (name :: names).contains b.name).filter
        (fun b => b.name == name) = rivals cs name := by
      unfold rivals
      rw [List.filter_filter]
      refine List.filter_congr fun b _ => ?_
      by_cases hb : b.name = name <;> simp [hb]
    have hrest : ((kept cs).filter fun b => (name :: names).contains b.name).filter
        (fun b => !(b.name == name)) = (kept cs).filter fun b => names.contains b.name := by
      rw [List.filter_filter]
      refine List.filter_congr fun b _ => ?_
      by_cases hb : b.name = name
      · simp [hb, hname]
      · simp [hb]
    rw [hfirst, hrest] at hsplit
    exact ((ih hnames).append_left _).trans hsplit

/-- **Every candidate is left, has given way or is one of those in conflict.** -/
theorem remaining_append_perm (cs : List BindCandidate) :
    (remaining cs ++ ((dropShadowed [] cs).2 ++ (conflicts cs).flatMap (rivals cs))).Perm cs := by
  have hconflicts : (kept cs).filter (fun b => !decide ((rivals cs b.name).length ≤ 1)) =
      (kept cs).filter fun b => (conflicts cs).contains b.name := by
    refine List.filter_congr fun b _ => ?_
    rw [Bool.eq_iff_iff, List.contains_iff_mem, mem_conflicts]
    simp
  have hkept : (remaining cs ++ (conflicts cs).flatMap (rivals cs)).Perm (kept cs) := by
    have hsplit := List.filter_append_perm
      (fun b : BindCandidate => decide ((rivals cs b.name).length ≤ 1)) (kept cs)
    rw [hconflicts] at hsplit
    exact ((flatMap_rivals_perm cs _ (nodup_conflicts cs)).append_left _).trans hsplit
  have hall : (kept cs ++ (dropShadowed [] cs).2).Perm cs := dropShadowed_perm cs []
  refine (List.perm_append_comm.append_left (remaining cs)).trans ?_
  rw [← List.append_assoc]
  exact (hkept.append_right _).trans hall

end BindCandidate

namespace RenderTree

open BindCandidate

variable {t t' t'' : RenderTree} {x parent : NodeId} {b b' : BindCandidate} {name : String}
  {gone gone' : List NodeId} {created created' : List Diagnostic}

/-! ### Taking children off an element -/

/-- `t'` is `t` after children of an element have been taken off its list one after the other and
diagnostics have been created on it. -/
structure Drops (t t' : RenderTree) (parent : NodeId) (gone : List NodeId)
    (created : List Diagnostic) : Prop extends Reports t t' parent created where
  size_eq : t'.size = t.size
  span_eq : (t'.node parent).span = (t.node parent).span
  children_eq : t'.children parent = (t.children parent).diff gone

theorem Drops.refl (t : RenderTree) (parent : NodeId) : Drops t t parent [] [] where
  toReports := Reports.refl t parent
  size_eq := rfl
  span_eq := rfl
  children_eq := (List.diff_nil _).symm

theorem Drops.trans (h : Drops t t' parent gone created) (h' : Drops t' t'' parent gone' created') :
    Drops t t'' parent (gone ++ gone') (created ++ created') where
  toReports := h.toReports.trans h'.toReports
  size_eq := h'.size_eq.trans h.size_eq
  span_eq := h'.span_eq.trans h.span_eq
  children_eq := by rw [h'.children_eq, h.children_eq, List.diff_append]

theorem drops_addDiagnostic (hp : parent < t.size) (d : Diagnostic) :
    Drops t (t.addDiagnostic parent d) parent [] [d] where
  toReports := reports_addDiagnostic hp d
  size_eq := (sameShape_addDiagnostic t parent d).size_eq
  span_eq := (sameShape_addDiagnostic t parent d).span_eq parent
  children_eq := (sameShape_addDiagnostic t parent d).children_eq parent

theorem drops_detachChild (t : RenderTree) (parent id : NodeId) :
    Drops t (t.detachChild parent id).1 parent [id] [] := by
  have hreports := reports_detachChild t parent id
  rcases detachChild_cases t parent id with ⟨hnot, heq⟩ | ⟨t₁, -, hrec, heq⟩
  · refine ⟨hreports, ?_, ?_, ?_⟩
    · rw [heq]
    · rw [heq]
    · rw [heq, List.diff_cons, List.diff_nil, List.erase_of_not_mem hnot]
  · have hshape := (sameShape_takeDiagnostics t₁ id).trans
      (sameShape_update (t₁.takeDiagnostics id).1 parent
        fun n => n.diagnostics ++ (t₁.takeDiagnostics id).2)
    rw [← heq] at hshape
    refine ⟨hreports, hshape.size_eq.trans hrec.size_eq,
      (hshape.span_eq parent).trans (hrec.span_eq parent), ?_⟩
    rw [hshape.children_eq, hrec.children_eq, if_pos rfl, List.diff_cons, List.diff_nil]

/-- **Detaching several children**, each at the first place where it stands. -/
theorem drops_detachAll (parent : NodeId) (cs : List BindCandidate) : ∀ t : RenderTree,
    Drops t (t.detachAll parent cs) parent (cs.map (·.node)) [] := by
  induction cs with
  | nil => intro t; exact Drops.refl t parent
  | cons b cs ih =>
    intro t
    exact (drops_detachChild t parent b.node).trans (ih _)

/-- The candidates of a name are dropped and reported if there are several. -/
theorem drops_resolveConflict (hp : parent < t.size) (kept : List BindCandidate) (name : String) :
    Drops t (resolveConflict parent kept t name) parent
      (if 1 < (kept.filter (·.name == name)).length then
        (kept.filter (·.name == name)).map (·.node) else [])
      (if 1 < (kept.filter (·.name == name)).length then [t.conflictReport parent kept name]
        else []) := by
  unfold resolveConflict
  simp only
  by_cases hl : (kept.filter (·.name == name)).length ≤ 1
  · rw [if_pos hl, if_neg (not_lt.2 hl), if_neg (not_lt.2 hl)]
    exact Drops.refl t parent
  · rw [if_neg hl, if_pos (not_le.1 hl), if_pos (not_le.1 hl)]
    exact (drops_addDiagnostic hp _).trans (drops_detachAll parent _ _)

/-- **One name after the other.** -/
theorem drops_resolveConflicts (parent : NodeId) (kept : List BindCandidate)
    (names : List String) : ∀ t : RenderTree, parent < t.size →
    Drops t (names.foldl (resolveConflict parent kept) t) parent
      ((names.filter fun name => 1 < (kept.filter (·.name == name)).length).flatMap fun name =>
        (kept.filter (·.name == name)).map (·.node))
      ((names.filter fun name => 1 < (kept.filter (·.name == name)).length).map
        (t.conflictReport parent kept)) := by
  induction names with
  | nil => intro t _; exact Drops.refl t parent
  | cons name names ih =>
    intro t hp
    have hfirst := drops_resolveConflict hp kept name
    have hrest := ih _ (hfirst.size_eq.symm ▸ hp)
    have hreport : (resolveConflict parent kept t name).conflictReport parent kept =
        t.conflictReport parent kept := funext (conflictReport_congr hfirst.span_eq kept)
    rw [hreport] at hrest
    have h := hfirst.trans hrest
    rw [List.foldl_cons]
    by_cases hl : 1 < (kept.filter (·.name == name)).length
    · rw [if_pos hl, if_pos hl] at h
      rw [List.filter_cons, if_pos (by simpa using hl)]
      exact h
    · rw [if_neg hl, if_neg hl] at h
      rw [List.filter_cons, if_neg (by simpa using hl)]
      exact h

/-- **What resolving takes off an element**: the candidates that give way and, name by name, those
in conflict, which are reported. -/
theorem drops_resolveDuplicates (t : RenderTree) (parent : NodeId) :
    Drops t (t.resolveDuplicates parent) parent
      (((dropShadowed [] (t.bindCandidates parent)).2 ++
        (conflicts (t.bindCandidates parent)).flatMap (rivals (t.bindCandidates parent))).map
          (·.node))
      ((conflicts (t.bindCandidates parent)).map
        (t.conflictReport parent (kept (t.bindCandidates parent)))) := by
  by_cases hp : parent < t.size
  · have hdropped := drops_detachAll parent (dropShadowed [] (t.bindCandidates parent)).2 t
    have hreport : (t.detachAll parent (dropShadowed [] (t.bindCandidates parent)).2).conflictReport
        parent (kept (t.bindCandidates parent)) =
          t.conflictReport parent (kept (t.bindCandidates parent)) :=
      funext (conflictReport_congr hdropped.span_eq _)
    have hnames := drops_resolveConflicts parent (kept (t.bindCandidates parent))
      (unique (· == ·) ((kept (t.bindCandidates parent)).map (·.name))) _
      (hdropped.size_eq.symm ▸ hp)
    rw [hreport] at hnames
    rw [List.map_append, List.map_flatMap]
    exact hdropped.trans hnames
  · have hnone : t.bindCandidates parent = [] := by
      unfold bindCandidates
      rw [children_of_size_le (not_lt.1 hp)]
      rfl
    unfold resolveDuplicates
    rw [hnone]
    exact Drops.refl t parent

/-- The children that are left are those that are no bind attributes, and the remaining ones of those
that are. -/
theorem children_resolveDuplicates_perm (t : RenderTree) (parent : NodeId) :
    ((t.resolveDuplicates parent).children parent).Perm
      (((t.children parent).filter fun x => !(t.node x).isBind) ++
        (t.remaining parent).map (·.node)) := by
  set gone := ((dropShadowed [] (t.bindCandidates parent)).2 ++
    (conflicts (t.bindCandidates parent)).flatMap (rivals (t.bindCandidates parent))).map (·.node)
    with hgone
  have hcandidates : ((t.remaining parent).map (·.node) ++ gone).Perm
      ((t.children parent).filter fun x => (t.node x).isBind) := by
    rw [hgone, ← List.map_append, ← map_node_bindCandidates]
    exact (remaining_append_perm _).map _
  have hchildren : (((t.children parent).filter fun x => !(t.node x).isBind) ++
      (t.remaining parent).map (·.node) ++ gone).Perm (t.children parent) := by
    rw [List.append_assoc]
    exact (hcandidates.append_left _).trans (List.perm_append_comm.trans
      (List.filter_append_perm _ _))
  rw [(drops_resolveDuplicates t parent).children_eq, ← hgone, ← Multiset.coe_eq_coe,
    ← Multiset.coe_sub, ← Multiset.coe_eq_coe.2 hchildren, ← Multiset.coe_add,
    add_tsub_cancel_right]

/-! ### What becomes of each name -/

/-- The children of an element that are bind attributes of a name. -/
def bearers (t : RenderTree) (parent : NodeId) (name : String) : List NodeId :=
  ((t.bindCandidates parent).filter (·.name == name)).map (·.node)

/-- A candidate of an element is determined by its node. -/
theorem eq_of_node_eq (hb : b ∈ t.bindCandidates parent) (hb' : b' ∈ t.bindCandidates parent)
    (h : b.node = b'.node) : b = b' := by
  obtain ⟨-, p, hp, -, hname, hhelper⟩ := mem_bindCandidates.1 hb
  obtain ⟨-, p', hp', -, hname', hhelper'⟩ := mem_bindCandidates.1 hb'
  rw [h, hp'] at hp
  obtain rfl := Option.some.inj hp
  cases b
  cases b'
  simp_all

theorem mem_bearers (hb : b ∈ t.bindCandidates parent) :
    b.node ∈ t.bearers parent name ↔ b.name = name := by
  unfold bearers
  rw [List.mem_map]
  constructor
  · rintro ⟨b', hb', hnode⟩
    obtain ⟨hmem, hname⟩ := List.mem_filter.1 hb'
    rw [← eq_of_node_eq hmem hb hnode]
    exact eq_of_beq hname
  · intro hname
    exact ⟨b, List.mem_filter.2 ⟨hb, beq_iff_eq.2 hname⟩, rfl⟩

theorem isBind_of_mem_bearers (hx : x ∈ t.bearers parent name) : (t.node x).isBind = true := by
  obtain ⟨b, hb, rfl⟩ := List.mem_map.1 hx
  have hmem := List.mem_map_of_mem (f := (·.node)) (List.mem_filter.1 hb).1
  rw [map_node_bindCandidates] at hmem
  exact (List.mem_filter.1 hmem).2

/-- Of the children of a name, those of its remaining candidates stay. -/
theorem filter_bearers_perm (t : RenderTree) (parent : NodeId) (name : String) :
    (((t.resolveDuplicates parent).children parent).filter
      fun x => (t.bearers parent name).contains x).Perm
        (((t.remaining parent).filter (·.name == name)).map (·.node)) := by
  have hothers : (((t.children parent).filter fun x => !(t.node x).isBind).filter
      fun x => (t.bearers parent name).contains x) = [] := by
    refine List.filter_eq_nil_iff.2 fun x hx hc => ?_
    have hbind := isBind_of_mem_bearers (List.contains_iff_mem.1 hc)
    simpa [hbind] using (List.mem_filter.1 hx).2
  have hremaining : ((t.remaining parent).map (·.node)).filter
      (fun x => (t.bearers parent name).contains x) =
        ((t.remaining parent).filter (·.name == name)).map (·.node) := by
    rw [List.filter_map]
    congr 1
    refine List.filter_congr fun b hb => ?_
    have hmem : b ∈ t.bindCandidates parent := (remaining_sublist _).subset hb
    rw [Bool.eq_iff_iff, Function.comp_apply, List.contains_iff_mem, mem_bearers hmem, beq_iff_eq]
  have h := (children_resolveDuplicates_perm t parent).filter
    fun x => (t.bearers parent name).contains x
  rwa [List.filter_append, hothers, hremaining, List.nil_append] at h

/-- Bind attributes of one name that are in conflict. -/
structure Conflict where
  name : String
  members : List BindCandidate

/-- The diagnostic of a conflict on an element with the given span. -/
def Conflict.report (span : Span) (c : Conflict) : Diagnostic :=
  (Problem.duplicateBind c.name
    (String.intercalate ", " (c.members.map (·.helper.descriptor.name)))).report span

/-- That the members of a conflict are two or more bind attributes of its name, in the order of the
candidates, none of which gives way to another one. -/
structure Conflict.IsGenuine (c : Conflict) (cs : List BindCandidate) : Prop where
  sublist : c.members.Sublist cs
  name_eq : ∀ b ∈ c.members, b.name = c.name
  two_le : 2 ≤ c.members.length
  unshadowed : ∀ b ∈ c.members, ∀ b' ∈ c.members, b.isShadowedBy b' = false

/-- That `t'` is `t` with the bind attributes of an element resolved up to the given conflicts. -/
structure Settles (t t' : RenderTree) (parent : NodeId) (conflicts : List Conflict) : Prop where
  nodup : (conflicts.map (·.name)).Nodup
  genuine : ∀ c ∈ conflicts, c.IsGenuine (t.bindCandidates parent)
  reports : Reports t t' parent (conflicts.map (Conflict.report (t.node parent).spanOrStub))
  /-- one child of a name that is not in conflict stays -/
  one : ∀ b ∈ t.bindCandidates parent, b.name ∉ conflicts.map (·.name) →
    ∃ x, (t'.children parent).filter (fun x => (t.bearers parent b.name).contains x) = [x]
  /-- none of a name that is in conflict does -/
  none : ∀ c ∈ conflicts,
    (t'.children parent).filter (fun x => (t.bearers parent c.name).contains x) = []
  sublist : (t'.children parent).Sublist (t.children parent)
  others : (t'.children parent).filter (fun x => !(t.node x).isBind) =
    (t.children parent).filter fun x => !(t.node x).isBind

theorem isGenuine_rivals {cs : List BindCandidate} (h : name ∈ conflicts cs) :
    Conflict.IsGenuine ⟨name, rivals cs name⟩ cs where
  sublist := List.filter_sublist.trans (kept_sublist cs)
  name_eq _ hb := (mem_rivals.1 hb).2
  two_le := mem_conflicts.1 h
  unshadowed _ hb _ hb' := not_isShadowedBy (mem_rivals.1 hb).1 (mem_rivals.1 hb').1

/-- The children that are no bind attributes stay where they are. -/
theorem filter_not_isBind_resolveDuplicates (t : RenderTree) (parent : NodeId) :
    ((t.resolveDuplicates parent).children parent).filter (fun x => !(t.node x).isBind) =
      (t.children parent).filter fun x => !(t.node x).isBind := by
  have hremaining : ((t.remaining parent).map (·.node)).filter (fun x => !(t.node x).isBind) =
      [] := by
    refine List.filter_eq_nil_iff.2 fun x hx => ?_
    have hmem := ((remaining_sublist _).map _).subset hx
    rw [map_node_bindCandidates] at hmem
    simpa using (List.mem_filter.1 hmem).2
  have hperm := (children_resolveDuplicates_perm t parent).filter fun x => !(t.node x).isBind
  rw [List.filter_append, hremaining, List.append_nil, List.filter_filter] at hperm
  simp only [Bool.and_self] at hperm
  refine List.Sublist.eq_of_length ?_ hperm.length_eq
  rw [(drops_resolveDuplicates t parent).children_eq]
  exact (List.diff_sublist _ _).filter _

/-- **No name is dropped silently.** On any element, and for each name that bind attributes of it
bear, exactly one of these stays, or none stays and the name is reported once, on that element, with
two or more of them of which none gives way to another. Nothing else is reported, all other children
stay, and what stays keeps its order. -/
theorem settles_resolveDuplicates (t : RenderTree) (parent : NodeId) :
    ∃ conflicts, Settles t (t.resolveDuplicates parent) parent conflicts := by
  let cs := t.bindCandidates parent
  have hnames : ((conflicts cs).map fun name => Conflict.mk name (rivals cs name)).map (·.name) =
      conflicts cs := by
    rw [List.map_map]
    exact List.map_id _
  refine ⟨(conflicts cs).map fun name => ⟨name, rivals cs name⟩, ?_, ?_, ?_, ?_, ?_, ?_, ?_⟩
  · rw [hnames]
    exact nodup_conflicts cs
  · intro c hc
    obtain ⟨name, hname, rfl⟩ := List.mem_map.1 hc
    exact isGenuine_rivals hname
  · rw [List.map_map]
    exact (drops_resolveDuplicates t parent).toReports
  · intro b hb hname
    rw [hnames] at hname
    obtain ⟨b', hb', heq⟩ := (conflict_or_remaining hb).resolve_left hname
    have hperm := filter_bearers_perm t parent b'.name
    rw [show (t.remaining parent).filter (·.name == b'.name) = [b'] from filter_remaining hb',
      heq] at hperm
    exact ⟨b'.node, List.perm_singleton.1 hperm⟩
  · intro c hc
    obtain ⟨name, hname, rfl⟩ := List.mem_map.1 hc
    have hnone : (t.remaining parent).filter (·.name == name) = [] :=
      List.filter_eq_nil_iff.2 fun b hb h => ne_of_mem_remaining hb hname (eq_of_beq h)
    have hperm := filter_bearers_perm t parent name
    rw [hnone] at hperm
    exact hperm.eq_nil
  · rw [(drops_resolveDuplicates t parent).children_eq]
    exact List.diff_sublist _ _
  · exact filter_not_isBind_resolveDuplicates t parent

end RenderTree

end TagHelpers
