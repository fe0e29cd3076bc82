import TagHelpers.Proofs.Bind.Expansion
import TagHelpers.Proofs.Bind.Invariants
import TagHelpers.Proofs.RenderTree.Walk

/-!
# Lowering again

A bind attribute that has not been lowered is not lowered by a second run either: the reason for
which it has been left is still there.

* `HasCode`: what it takes for the code of an attribute not to be blank, in any tree.
* `hasCode_foldl_lowerEntry`: lowering adds code only where there is some. A blank attribute stays
  blank, whatever has been lowered below it.
* `unlowerable_foldl_lowerEntry`: so every reason lasts.
* `saysAgain_lowerBinds`: a second run finds nothing to drop, to fold or to lower.
-/

namespace TagHelpers

/-- An entry without its parameters, as it is found once they have been folded. -/
def BindEntry.bare (e : BindEntry) : BindEntry where
  parent := e.parent
  node := e.node
  name := e.name

/-! ### Candidates of different names -/

namespace BindCandidate

variable {cs : List BindCandidate} {b b' : BindCandidate}

theorem not_isShadowedBy_of_names (h : (cs.map (·.name)).Nodup) (hb : b ∈ cs) (hb' : b' ∈ cs) :
    b.isShadowedBy b' = false := by
  unfold isShadowedBy
  by_cases hname : b'.name = b.name
  · rw [List.inj_on_of_nodup_map h hb' hb hname]
    simp
  · simp [hname]

theorem dropShadowed_eq_self (cs : List BindCandidate) : ∀ before : List BindCandidate,
    ((before ++ cs).map (·.name)).Nodup → dropShadowed before cs = (cs, []) := by
  induction cs with
  | nil => intro _ _; rfl
  | cons b cs ih =>
    intro before h
    have hrest := ih (before ++ [b]) (by rwa [List.append_assoc])
    have hnone : (before ++ b :: cs).any b.isShadowedBy = false := by
      refine List.any_eq_false.2 fun b' hb' => Bool.eq_false_iff.1 ?_
      exact not_isShadowedBy_of_names h (List.mem_append_right _ List.mem_cons_self) hb'
    rw [dropShadowed_cons, hrest, hnone]
    rfl

theorem length_filter_name_le (h : (cs.map (·.name)).Nodup) (name : String) :
    (cs.filter (·.name == name)).length ≤ 1 := by
  have hcount := List.nodup_iff_count_le_one.1 h name
  rwa [List.count, List.countP_map, List.countP_eq_length_filter] at hcount

end BindCandidate

/-! ### Code that is not blank -/

namespace RenderKind

/-- Whether a node adds code of its own that is not blank. -/
def writes : RenderKind → Bool
  | .htmlContent | .htmlValue _ | .token .html _ => true
  | .token .code s => !Text.blank s
  | _ => false

/-- Whether the code of a node is that of its children. -/
def isPassed : RenderKind → Bool
  | .htmlContent | .htmlValue _ | .token .. => false
  | _ => true

end RenderKind

namespace RenderTree

variable {t t' : RenderTree} {a b x : NodeId} {n : ℕ} {c : Catalog} {e : BindEntry} {p : Property}
  {o : Except Problem (List LoweredAttribute)} {ids : List NodeId}

/-- An attribute with code below it that is not blank. -/
inductive HasCode (t : RenderTree) : NodeId → Prop
  | here {a b : NodeId} (hb : b ∈ t.children a) (h : (t.kind b).writes = true) : HasCode t a
  | inside {a b : NodeId} (hb : b ∈ t.children a) (h : (t.kind b).isPassed = true)
    (hc : HasCode t b) : HasCode t a

theorem blank_codeBelow_succ (t : RenderTree) (n : ℕ) (a : NodeId) :
    Text.blank (t.codeBelow (n + 1) a) = false ↔ ∃ b ∈ t.children a, (t.kind b).writes = true ∨
      ((t.kind b).isPassed = true ∧ Text.blank (t.codeBelow n b) = false) := by
  rw [codeBelow, Text.blank_join, List.all_map, List.all_eq_false]
  refine exists_congr fun b => and_congr_right fun _ => ?_
  cases hk : t.kind b with
  | token kind s =>
    cases kind <;> simp [hk, RenderKind.writes, RenderKind.isPassed, Text.blank_literal]
  | _ => simp [hk, RenderKind.writes, RenderKind.isPassed, Text.blank_literal]

theorem hasCode_of_codeBelow (h : Text.blank (t.codeBelow n a) = false) : t.HasCode a := by
  induction n generalizing a with
  | zero => cases h
  | succ n ih =>
    obtain ⟨b, hb, hw | ⟨hpass, hcode⟩⟩ := (blank_codeBelow_succ t n a).1 h
    · exact .here hb hw
    · exact .inside hb hpass (ih hcode)

/-- A node below another that passes on the code of its children. -/
def Passes (t : RenderTree) (a b : NodeId) : Prop :=
  b ∈ t.children a ∧ (t.kind b).isPassed = true

theorem hasCode_iff : t.HasCode a ↔
    ∃ b, Relation.ReflTransGen t.Passes a b ∧ ∃ w ∈ t.children b, (t.kind w).writes = true := by
  constructor
  · intro h
    induction h with
    | here hb hw => exact ⟨_, .refl, _, hb, hw⟩
    | inside hb hpass _ ih =>
      obtain ⟨d, hd, hw⟩ := ih
      exact ⟨d, .head ⟨hb, hpass⟩ hd, hw⟩
  · rintro ⟨b, hab, w, hw, hwrites⟩
    induction hab using Relation.ReflTransGen.head_induction_on with
    | refl => exact .here hw hwrites
    | head hxy _ ih => exact .inside hxy.1 hxy.2 ih

theorem blank_codeBelow_of_walk {w : NodeId} (h : Walk t.Passes n a b) (hw : w ∈ t.children b)
    (hwrites : (t.kind w).writes = true) : Text.blank (t.codeBelow n a) = false := by
  induction n generalizing a with
  | zero => exact h.elim
  | succ n ih =>
    rw [blank_codeBelow_succ]
    rcases h with rfl | ⟨d, had, hdb⟩
    · exact ⟨w, hw, .inl hwrites⟩
    · exact ⟨d, had.1, .inr ⟨had.2, ih hdb⟩⟩

/-- All code below an attribute is found, in any tree. -/
theorem HasCode.blank_attributeCode (h : t.HasCode a) : Text.blank (t.attributeCode a) = false := by
  obtain ⟨b, hab, w, hw, hwrites⟩ := hasCode_iff.1 h
  have hwalk := Walk.of_reaches (fun _ _ h => lt_size_of_mem_children h.1)
    (lt_size_of_mem_children hw) hab
  exact blank_codeBelow_of_walk hwalk hw hwrites

/-! ### Lowering adds code only where there is some -/

/-- A child after an attribute has been lowered was there before, or stands in its place. -/
theorem LowersTo.child_cases (h : LowersTo t t' e p o ids) (hx : x < t.size)
    (hb : b ∈ t'.children x) :
    b ∈ t.children x ∨ ((∃ as, o = .ok as) ∧ e.node ∈ t.children x) := by
  rw [h.children_eq x hx] at hb
  rcases mem_splice.1 hb with ⟨hb, -⟩ | ⟨he, hb⟩
  · exact .inl hb
  · cases o with
    | error problem =>
      rw [(h.stays problem rfl).1, List.mem_singleton] at hb
      exact .inl (hb ▸ he)
    | ok as => exact .inr ⟨⟨as, rfl⟩, he⟩

theorem LowersTo.hasCode (h : LowersTo t t' e p o ids) (ht : t.IsTree)
    (hp : (t.node e.node).property? = some p) (hcode : ∀ as, o = .ok as → t.HasCode e.node)
    (hx : x < t.size) (hc : t'.HasCode x) : t.HasCode x := by
  have hpass : (t.kind e.node).isPassed = true := by
    rw [kind_of_property? hp]
    rfl
  induction hc with
  | here hb hw =>
    rcases h.child_cases hx hb with hb | ⟨⟨as, ho⟩, he⟩
    · rw [h.evolves.kind_eq _ (ht.lt_of_child hb)] at hw
      exact .here hb hw
    · exact .inside he hpass (hcode as ho)
  | inside hb hk _ ih =>
    rcases h.child_cases hx hb with hb | ⟨⟨as, ho⟩, he⟩
    · have hlt := ht.lt_of_child hb
      rw [h.evolves.kind_eq _ hlt] at hk
      exact .inside hb hk (ih hlt)
    · exact .inside he hpass (hcode as ho)

/-- **Lowering adds code only where there is some.** -/
theorem hasCode_foldl_lowerEntry (c : Catalog) (es : List BindEntry) : ∀ t : RenderTree,
    Refers t (es.map BindEntry.reference) →
    ∀ x, x < t.size → (es.foldl (lowerEntry c) t).HasCode x → t.HasCode x := by
  induction es with
  | nil => intro t _ x _ hc; exact hc
  | cons e es ih =>
    intro t h x hx hc
    obtain ⟨p, ids, hp, h1, hes⟩ := h.lowerEntry c
    have hc' := ih _ hes x (hx.trans_le h1.evolves.size_le) hc
    refine h1.hasCode h.isTree hp (fun as ho => ?_) hx hc'
    -- an attribute without code is not lowered
    rw [(sameShape_noteExtraSegment t e.node p).lowered_eq] at ho
    obtain ⟨-, -, hcode, -⟩ := lowered_eq_ok_iff.1 ho
    exact hasCode_of_codeBelow hcode

/-! ### Reasons last -/

/-- A reason lasts as long as no code is added, also without the parameters. -/
theorem Unlowerable.evolves (h : t.Unlowerable e p) (hev : Evolves t t')
    (he : e.node ∈ t.children e.parent) (hcode : t'.HasCode e.node → t.HasCode e.node) :
    t'.Unlowerable e.bare p := by
  cases h with
  | name h => exact .name h
  | blank h =>
    refine .blank (Bool.of_not_eq_false fun hnot => ?_)
    have hfalse := (hcode (hasCode_of_codeBelow hnot)).blank_attributeCode
    exact Bool.false_ne_true (hfalse.symm.trans h)
  | value h hname => exact .value h hname
  | change hparent _ h =>
    refine .change (fun tag component => ?_) nofun h
    have hkind := hev.kind_eq e.parent (lt_size_of_mem_children he)
    exact hkind ▸ hparent tag component

/-- **Every reason lasts**: an attribute that is still attached after all have been lowered could
not be lowered now either. -/
theorem unlowerable_foldl_lowerEntry (c : Catalog) (es : List BindEntry) : ∀ t : RenderTree,
    Refers t (es.map BindEntry.reference) →
    ∀ e ∈ es, ∀ p, (t.node e.node).property? = some p →
      (es.foldl (lowerEntry c) t).Reaches root e.node →
      (es.foldl (lowerEntry c) t).Unlowerable e.bare p := by
  induction es with
  | nil => intro t _ e he; exact absurd he List.not_mem_nil
  | cons e es ih =>
    intro t h e' he' p' hp' hr
    obtain ⟨p, ids, hp, h1, hes⟩ := h.lowerEntry c
    have hev := evolves_foldl_lowerEntry c es _ hes
    rcases List.mem_cons.1 he' with rfl | he'
    · obtain rfl : p = p' := Option.some.inj (hp.symm.trans hp')
      have hmem := h.mem_children _ List.mem_cons_self
      have hlt := (h.isTree.lt_of_child hmem).trans_le h1.evolves.size_le
      -- it would not be attached any more if it had been lowered
      rw [(sameShape_noteExtraSegment t e'.node p).lowered_eq] at h1
      cases hl : t.lowered c e' p with
      | error problem =>
        exact (unlowerable_of_lowered hl).evolves (h1.evolves.trans hev) hmem
          (hasCode_foldl_lowerEntry c (e' :: es) t h _ (h.isTree.lt_of_child hmem))
      | ok as => exact absurd (hev.attached _ hlt hr) (h1.replaced as hl).1
    · have hlt : e'.node < t.size := h.isTree.lt_of_child
        (h.mem_children _ (List.mem_cons_of_mem _ (List.mem_map_of_mem he')))
      refine ih _ hes e' he' p' ?_ hr
      rw [property?_congr (h1.evolves.kind_eq _ hlt)]
      exact hp'

/-! ### Nothing to drop or to fold -/

/-- Bind attributes of different names stay as they are. -/
theorem resolveDuplicates_eq_self (h : ((t.bindCandidates x).map (·.name)).Nodup) :
    t.resolveDuplicates x = t := by
  unfold resolveDuplicates
  rw [BindCandidate.dropShadowed_eq_self (t.bindCandidates x) [] h]
  refine foldl_eq_self fun name _ => ?_
  unfold resolveConflict
  exact if_pos (BindCandidate.length_filter_name_le h name)

theorem IsTree.nodup_names (ht : t.IsTree)
    (h : ∀ y ∈ t.children x, ∀ z ∈ t.children x, ∀ q q', (t.node y).isBind = true →
      (t.node z).isBind = true → (t.node y).property? = some q → (t.node z).property? = some q' →
      q.attributeName = q'.attributeName → y = z) :
    ((t.bindCandidates x).map (·.name)).Nodup := by
  have hnodes := ht.nodup_bindCandidates x
  refine List.Nodup.map_on (fun b hb b' hb' hname => ?_) hnodes.of_map
  have hbind : ∀ b ∈ t.bindCandidates x, b.node ∈ t.children x ∧ (t.node b.node).isBind = true :=
    fun b hb => List.mem_filter.1 (map_node_bindCandidates t x ▸ List.mem_map_of_mem hb)
  obtain ⟨-, q, hq, -, hn, -⟩ := mem_bindCandidates.1 hb
  obtain ⟨-, q', hq', -, hn', -⟩ := mem_bindCandidates.1 hb'
  refine List.inj_on_of_nodup_map hnodes hb hb' ?_
  exact h _ (hbind b hb).1 _ (hbind b' hb').1 q q' (hbind b hb).2 (hbind b' hb').2 hq hq'
    (hn.symm.trans (hname.trans hn'))

/-- **A second run finds no duplicates.** -/
theorem withoutDuplicates_lowerBinds (c : Catalog) (ht : t.IsTree) :
    (t.lowerBinds c).withoutDuplicates = t.lowerBinds c := by
  have htree := (evolves_lowerBinds c ht).isTree
  refine foldl_eq_self fun parent hparent => resolveDuplicates_eq_self (htree.nodup_names ?_)
  intro y hy z hz q q' hby hbz hq hq' hname
  exact names_lowerBinds c ht (htree.mem_bindParents.1 hparent).1 hy hz hby hbz hq hq' hname

/-- Where there are neither duplicates nor parameters, each bind attribute has a bare entry. -/
theorem settled_eq_self (ht : t.IsTree) (hdup : t.withoutDuplicates = t)
    (hnone : ∀ r ∈ t.references RenderNode.isBind, t.parameterUse? r.node = none) :
    t.settled = (t, (t.references RenderNode.isBind).filterMap t.baseEntry?) := by
  have hentries := entries_eq (pairwise_apart ht)
  unfold settled
  rw [hdup] at hentries ⊢
  simp only
  rw [hentries]
  exact foldl_eq_self fun r hr => foldParameter_of_none (hnone r hr) _

/-- **A second run finds no parameters.** -/
theorem parameterUse?_lowerBinds (c : Catalog) (ht : t.IsTree) :
    ∀ r ∈ (t.lowerBinds c).references RenderNode.isBind,
      (t.lowerBinds c).parameterUse? r.node = none := by
  intro r hr
  obtain ⟨hp, hx, hb⟩ := ((evolves_lowerBinds c ht).isTree.mem_references _).1 hr
  exact (unlowered_lowerBinds c ht hp hx hb).1

theorem fst_settled_lowerBinds (c : Catalog) (ht : t.IsTree) :
    (t.lowerBinds c).settled.1 = t.lowerBinds c := by
  rw [settled_eq_self (evolves_lowerBinds c ht).isTree (withoutDuplicates_lowerBinds c ht)
    (parameterUse?_lowerBinds c ht)]

/-- What an entry of a second run is. -/
theorem mem_settled_lowerBinds (c : Catalog) (ht : t.IsTree)
    (he : e ∈ (t.lowerBinds c).settled.2) :
    e.reference ∈ (t.lowerBinds c).references RenderNode.isBind ∧
      ∃ q, ((t.lowerBinds c).node e.node).property? = some q ∧
        e = { parent := e.parent, node := e.node, name := q.attributeName } := by
  rw [settled_eq_self (evolves_lowerBinds c ht).isTree (withoutDuplicates_lowerBinds c ht)
    (parameterUse?_lowerBinds c ht)] at he
  simp only [List.mem_filterMap] at he
  obtain ⟨r, hr, he⟩ := he
  obtain ⟨q, hq, -, rfl⟩ := baseEntry?_eq_some.1 he
  exact ⟨hr, q, hq, rfl⟩

/-- **A second run lowers nothing.** -/
theorem unlowerable_lowerBinds (c : Catalog) (ht : t.IsTree)
    (he : e ∈ (t.lowerBinds c).settled.2) :
    ∃ q, ((t.lowerBinds c).node e.node).property? = some q ∧ (t.lowerBinds c).Unlowerable e q := by
  obtain ⟨hr, q, hq, heq⟩ := mem_settled_lowerBinds c ht he
  obtain ⟨hroot, hx, hb⟩ := ((evolves_lowerBinds c ht).isTree.mem_references _).1 hr
  obtain ⟨hroot', hx', hb'⟩ := settled_of_lowerBinds c ht hroot hx hb
  -- the entry is that of the first run, without its parameters
  obtain ⟨-, e₁, he₁, hnode⟩ := isBind_settled ht hroot' hx' hb'
  obtain ⟨r₁, -, -, hnode₁, q₁, hq₁, -, hname⟩ := mem_settled ht he₁
  have hmem := (settled_entries ht he₁).1
  have hq' : (t.node e₁.node).property? = some q := by
    rw [hnode, ← property?_lowerBinds c ht hb]
    exact hq
  rw [← hnode₁] at hq₁
  obtain rfl : q = q₁ := Option.some.inj (hq'.symm.trans hq₁)
  have hparent : e₁.parent = e.parent := by
    rw [← hnode] at hx'
    exact (evolves_settled ht).isTree.parent_unique hmem hx'
  have hbare : e₁.bare = e := by
    unfold BindEntry.bare
    rw [heq, hparent, hnode, hname]
    rfl
  have hprop : (t.settled.1.node e₁.node).property? = some q := by
    have hkind := ((prunes_withoutDuplicates ht).trans (prunes_settled ht)).kind_eq e₁.node
    rw [property?_congr hkind]
    exact hq'
  have hattached : (t.lowerBinds c).Reaches root e₁.node := by
    rw [hnode]
    exact hroot.tail hx
  refine ⟨q, hq, ?_⟩
  rw [lowerBinds_eq] at hattached
  rw [← hbare, lowerBinds_eq]
  exact unlowerable_foldl_lowerEntry c _ _ (refers_settled ht) e₁ he₁ q hprop hattached

/-- The entries of a second run are those of the attached bind attributes. -/
theorem mem_map_settled_lowerBinds (c : Catalog) (ht : t.IsTree) :
    x ∈ (t.lowerBinds c).settled.2.map (·.node) ↔
      x ∈ (t.lowerBinds c).preorder ∧ x ≠ root ∧ ((t.lowerBinds c).node x).isBind = true := by
  have htree := (evolves_lowerBinds c ht).isTree
  rw [htree.mem_preorder]
  constructor
  · intro hx
    obtain ⟨e, he, rfl⟩ := List.mem_map.1 hx
    obtain ⟨hroot, hc, hb⟩ := (htree.mem_references _).1 (mem_settled_lowerBinds c ht he).1
    exact ⟨hroot.tail hc, htree.child_ne_root hc, hb⟩
  · rintro ⟨hroot, hne, hb⟩
    obtain ⟨parent, hparent, hc⟩ := hroot.cases_parent.resolve_left hne
    rw [← fst_settled_lowerBinds c ht] at hparent hc hb
    obtain ⟨-, e, he, rfl⟩ := isBind_settled htree hparent hc hb
    exact List.mem_map_of_mem he

/-! ### The second run -/

/-- Lowering attributes none of which can be lowered: each of them says why, and nothing else
changes. -/
theorem foldl_lowerEntry_of_error (c : Catalog) (es : List BindEntry) : ∀ t : RenderTree,
    (es.map (·.node)).Nodup →
    (∀ e ∈ es, e.node < t.size ∧ ∃ p problem, (t.node e.node).property? = some p ∧
      t.lowered c e p = .error problem) →
    SameShape t (es.foldl (lowerEntry c) t) ∧
    (∀ e ∈ es, ∃ p problem, (t.node e.node).property? = some p ∧
      ((es.foldl (lowerEntry c) t).node e.node).diagnostics = (t.node e.node).diagnostics ++
        outcomeReports (t.node e.node).spanOrStub p (.error problem)) ∧
    ∀ x ∉ es.map (·.node),
      ((es.foldl (lowerEntry c) t).node x).diagnostics = (t.node x).diagnostics := by
  induction es with
  | nil =>
    intro t _ _
    exact ⟨SameShape.refl t, fun e he => absurd he List.not_mem_nil, fun _ _ => rfl⟩
  | cons e es ih =>
    intro t hnd h
    rw [List.map_cons, List.nodup_cons] at hnd
    obtain ⟨hlt, p, problem, hp, hl⟩ := h e List.mem_cons_self
    have h1 := reported_lowerEntry hlt hp hl
    have hs := h1.shape
    obtain ⟨hs', hsay, hsilent⟩ := ih (lowerEntry c t e) hnd.2 fun e' he' => by
      obtain ⟨hlt', p', problem', hp', hl'⟩ := h e' (List.mem_cons_of_mem _ he')
      refine ⟨hs.size_eq.symm ▸ hlt', p', problem', ?_, (hs.lowered_eq c e' p').trans hl'⟩
      rw [property?_congr (hs.kind_eq _)]
      exact hp'
    have hother : ∀ x, x ≠ e.node →
        ((lowerEntry c t e).node x).diagnostics = (t.node x).diagnostics := by
      intro x hx
      rw [h1.diagnostics_eq, if_neg hx, List.append_nil]
    refine ⟨hs.trans hs', fun e' he' => ?_, fun x hx => ?_⟩
    · rcases List.mem_cons.1 he' with rfl | he'
      · refine ⟨p, problem, hp, ?_⟩
        rw [List.foldl_cons, hsilent _ hnd.1, h1.diagnostics_eq, if_pos rfl]
      · obtain ⟨p', problem', hp', hd⟩ := hsay e' he'
        have hne : e'.node ≠ e.node := fun he => hnd.1 (he ▸ List.mem_map_of_mem he')
        rw [property?_congr (hs.kind_eq _)] at hp'
        rw [hother _ hne, spanOrStub_congr (hs.span_eq _)] at hd
        exact ⟨p', problem', hp', hd⟩
    · rw [List.map_cons, List.mem_cons, not_or] at hx
      rw [List.foldl_cons, hsilent x hx.2, hother x hx.1]

/-- `t'` is `t` after each bind attribute that had been left has said once more why. -/
structure SaysAgain (t t' : RenderTree) : Prop where
  shape : SameShape t t'
  again : ∀ x ∈ t.preorder, x ≠ root → (t.node x).isBind = true → Unlowered (t.node x) ∧
    ∃ q problem, t.kind x = .property q ∧ (t'.node x).diagnostics =
      (t.node x).diagnostics ++ outcomeReports (t.node x).spanOrStub q (.error problem)
  silent : ∀ x, (x ∈ t.preorder → x = root ∨ (t.node x).isBind = false) →
    (t'.node x).diagnostics = (t.node x).diagnostics

/-- **Lowering again changes no more than diagnostics.** A second run allocates no node and leaves
every node its kind, its span and its children. The bind attributes that the first run has left say
once more why, and no other node says anything. -/
theorem saysAgain_lowerBinds (t : RenderTree) (c : Catalog) (ht : t.IsTree) :
    SaysAgain (t.lowerBinds c) ((t.lowerBinds c).lowerBinds c) := by
  have htree := (evolves_lowerBinds c ht).isTree
  have hfst := fst_settled_lowerBinds c ht
  have hfail : ∀ e ∈ (t.lowerBinds c).settled.2, e.node < (t.lowerBinds c).size ∧
      ∃ p problem, ((t.lowerBinds c).node e.node).property? = some p ∧
        (t.lowerBinds c).lowered c e p = .error problem := by
    intro e he
    obtain ⟨-, hmem, -⟩ := (htree.mem_references _).1 (mem_settled_lowerBinds c ht he).1
    obtain ⟨q, hq, hu⟩ := unlowerable_lowerBinds c ht he
    obtain ⟨problem, hl⟩ := (lowered_eq_error_iff _ c e q).2 hu
    exact ⟨htree.lt_of_child hmem, q, problem, hq, hl⟩
  obtain ⟨hshape, hsay, hsilent⟩ := foldl_lowerEntry_of_error c _ _ (nodup_settled htree) hfail
  rw [lowerBinds_eq (t.lowerBinds c) c, hfst]
  refine ⟨hshape, fun x hx hne hb => ?_, fun x hx => hsilent x fun hm => ?_⟩
  · obtain ⟨parent, hparent, hc⟩ := (htree.mem_preorder.1 hx).cases_parent.resolve_left hne
    obtain ⟨e, he, rfl⟩ := List.mem_map.1 ((mem_map_settled_lowerBinds c ht).2 ⟨hx, hne, hb⟩)
    obtain ⟨q, problem, hq, hd⟩ := hsay e he
    exact ⟨(unlowered_lowerBinds c ht hparent hc hb).2, q, problem, kind_of_property? hq, hd⟩
  · obtain ⟨hpre, hne, hb⟩ := (mem_map_settled_lowerBinds c ht).1 hm
    rcases hx hpre with hroot | hplain
    · exact hne hroot
    · exact Bool.false_ne_true (hplain.symm.trans hb)

/-- An element with a use of `bind-value` and its parameter, where another use stands below the
first one. Neither of them has code. -/
def Sample.stuck : RenderTree where
  nodes := #[
    { kind := .document, children := [1] },
    { kind := .element "input", children := [2, 3] },
    { kind := .property value, children := [5] },
    { kind := .property event, children := [4] },
    { kind := .token .html "onchange" },
    { kind := .codeExpression, children := [6] },
    { kind := .property value, children := [7] },
    { kind := .token .code " " }]

theorem saysAgain_stuck :
    Sample.stuck.IsTree ∧
      (Sample.stuck.lowerBinds ⟨[]⟩).allDiagnostics.map (·.code) =
        [.emptyBindExpression, .emptyBindExpression] ∧
      SaysAgain (Sample.stuck.lowerBinds ⟨[]⟩) ((Sample.stuck.lowerBinds ⟨[]⟩).lowerBinds ⟨[]⟩) :=
  ⟨by decide, by decide +kernel, saysAgain_lowerBinds Sample.stuck ⟨[]⟩ (by decide)⟩

end RenderTree

end TagHelpers
