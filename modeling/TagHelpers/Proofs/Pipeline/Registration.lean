import TagHelpers.Pipeline.Engine
import Mathlib.Data.List.Sort

/-!
# Registering passes

An engine keeps its passes sorted by their order, so in which order they were registered matters
only among passes of equal order. The four passes of the library have different orders.

* `pairwise_registered`, `perm_registered`: the passes of an engine are those that were registered,
  sorted.
* `registered_perm`: for passes of the library they are the same for every order of registration.
* `outcome_runPasses`: which pass refuses to run is decided by which passes there are and by the
  document as it was before the run.
* `diagnostics_runPasses`: a run adds diagnostics at the end.
-/

namespace TagHelpers

/-- The passes of the library. -/
def Pass.stages : List Pass := [.scan, .bindTags, .classify, .lowerBinds]

namespace Engine

variable {p q : Pass} {ps qs : List Pass} {d d' : Document} {options : Options}
  {e : Option PipelineError}

/-- An engine without passes after some have been registered. -/
def registered (options : Options) (ps : List Pass) : Engine :=
  ps.foldl register { options }

/-! ### Sorted by order -/

theorem perm_insertPass (p : Pass) (ps : List Pass) : (insertPass p ps).Perm (p :: ps) := by
  induction ps with
  | nil => exact List.Perm.refl _
  | cons q ps ih =>
    simp only [insertPass]
    split
    · exact (ih.cons q).trans (List.Perm.swap p q ps)
    · exact List.Perm.refl _

/-- A pass is put where the passes stay sorted. -/
theorem pairwise_insertPass (h : ps.Pairwise (·.order ≤ ·.order)) :
    (insertPass p ps).Pairwise (·.order ≤ ·.order) := by
  induction ps with
  | nil => exact List.pairwise_singleton _ _
  | cons q ps ih =>
    obtain ⟨hq, hps⟩ := List.pairwise_cons.1 h
    simp only [insertPass]
    split
    · rename_i hle
      refine List.pairwise_cons.2 ⟨?_, ih hps⟩
      intro r hr
      rcases List.mem_cons.1 ((perm_insertPass p ps).mem_iff.1 hr) with rfl | hr
      · exact hle
      · exact hq r hr
    · rename_i hle
      refine List.pairwise_cons.2 ⟨?_, h⟩
      intro r hr
      rcases List.mem_cons.1 hr with rfl | hr
      · omega
      · have := hq r hr
        omega

theorem options_foldl_register (ps : List Pass) :
    ∀ eng : Engine, (ps.foldl register eng).options = eng.options := by
  induction ps with
  | nil => intro eng; rfl
  | cons p ps ih => intro eng; rw [List.foldl_cons, ih]; rfl

theorem perm_foldl_register (ps : List Pass) :
    ∀ eng : Engine, (ps.foldl register eng).passes.Perm (ps ++ eng.passes) := by
  induction ps with
  | nil => intro eng; exact List.Perm.refl _
  | cons p ps ih =>
    intro eng
    have hstep : (ps ++ (eng.register p).passes).Perm (ps ++ p :: eng.passes) :=
      (perm_insertPass p eng.passes).append_left ps
    exact ((ih (eng.register p)).trans hstep).trans List.perm_middle

theorem pairwise_foldl_register (ps : List Pass) :
    ∀ eng : Engine, eng.passes.Pairwise (·.order ≤ ·.order) →
      (ps.foldl register eng).passes.Pairwise (·.order ≤ ·.order) := by
  induction ps with
  | nil => intro eng h; exact h
  | cons p ps ih => intro eng h; exact ih (eng.register p) (pairwise_insertPass h)

@[simp] theorem options_registered (options : Options) (ps : List Pass) :
    (registered options ps).options = options :=
  options_foldl_register ps _

/-- **Nothing is lost and nothing is doubled.** -/
theorem perm_registered (options : Options) (ps : List Pass) :
    (registered options ps).passes.Perm ps := by
  have h := perm_foldl_register ps { options }
  rwa [List.append_nil] at h

/-- **The passes of an engine are sorted by their order.** -/
theorem pairwise_registered (options : Options) (ps : List Pass) :
    (registered options ps).passes.Pairwise (·.order ≤ ·.order) :=
  pairwise_foldl_register ps _ List.Pairwise.nil

/-- The passes of the library are told apart by their order. -/
theorem eq_of_order_eq (hp : p ∈ Pass.stages) (hq : q ∈ Pass.stages) (h : p.order = q.order) :
    p = q := by
  have hnd : (Pass.stages.map (·.order)).Nodup := by decide
  exact List.inj_on_of_nodup_map hnd hp hq h

/-- **The order of registration does not matter** for the passes of the library. -/
theorem registered_perm (options : Options) (hps : ∀ p ∈ ps, p ∈ Pass.stages) (h : qs.Perm ps) :
    registered options qs = registered options ps := by
  have hperm : (registered options qs).passes.Perm (registered options ps).passes :=
    ((perm_registered options qs).trans h).trans (perm_registered options ps).symm
  have hmem : ∀ p ∈ (registered options ps).passes, p ∈ Pass.stages := by
    intro p hp
    exact hps p ((perm_registered options ps).mem_iff.1 hp)
  have hpasses : (registered options qs).passes = (registered options ps).passes := by
    refine List.Perm.eq_of_pairwise ?_ (pairwise_registered options qs)
      (pairwise_registered options ps) hperm
    intro p q hp hq hpq hqp
    exact eq_of_order_eq (hmem p (hperm.mem_iff.1 hp)) (hmem q hq) (le_antisymm hpq hqp)
  calc registered options qs
      = ⟨(registered options qs).options, (registered options qs).passes⟩ := rfl
    _ = ⟨(registered options ps).options, (registered options ps).passes⟩ := by
      rw [hpasses, options_registered, options_registered]
    _ = registered options ps := rfl

/-! ### What a pass does -/

/-- A document after a pass that could run. -/
structure Advances (p : Pass) (d d' : Document) : Prop where
  kind_eq : d'.kind = d.kind
  path_eq : d'.path = d.path
  selection_eq_none : d'.selection = none ↔ p ≠ .scan ∧ d.selection = none
  tree_eq_none : d'.tree = none ↔ p ≠ .classify ∧ d.tree = none
  diagnostics : d.diagnostics <+: d'.diagnostics
  selected : p = .bindTags → d.selection ≠ none
  classified : p = .lowerBinds → d.kind.isComponent = true → d.tree ≠ none

/-- Why a pass cannot run on a document. -/
inductive Refuses (p : Pass) (d : Document) : PipelineError → Prop
  | missingSelection : p = .bindTags → d.selection = none → Refuses p d .missingSelection
  | missingTree : p = .lowerBinds → d.kind.isComponent = true → d.tree = none →
    Refuses p d (.missingTree d.path)

theorem ne_of_order_ne (h : p.order ≠ q.order) : p ≠ q := by
  rintro rfl
  exact h rfl

theorem run_scan (options : Options) (d : Document) :
    ∃ d', Pass.scan.run options d = .ok d' ∧ Advances .scan d d' := by
  refine ⟨_, rfl, rfl, rfl, ?_, ?_, List.prefix_append _ _, ?_, ?_⟩
  · simp
  · exact ⟨fun h => ⟨ne_of_order_ne (by decide), h⟩, fun h => h.2⟩
  · exact fun h => absurd h (ne_of_order_ne (by decide))
  · exact fun h => absurd h (ne_of_order_ne (by decide))

theorem run_classify (options : Options) (d : Document) :
    ∃ d', Pass.classify.run options d = .ok d' ∧ Advances .classify d d' := by
  refine ⟨_, rfl, rfl, rfl, ?_, ?_, List.prefix_refl _, ?_, ?_⟩
  · exact ⟨fun h => ⟨ne_of_order_ne (by decide), h⟩, fun h => h.2⟩
  · simp
  · exact fun h => absurd h (ne_of_order_ne (by decide))
  · exact fun h => absurd h (ne_of_order_ne (by decide))

/-- Tags are bound where tag helpers have been selected. -/
theorem run_bindTags {s : Selection} (hs : d.selection = some s) :
    ∃ d', Pass.bindTags.run options d = .ok d' ∧ Advances .bindTags d d' := by
  have hrun : ∃ d', Pass.bindTags.run options d = .ok d' ∧ d'.kind = d.kind ∧ d'.path = d.path ∧
      d'.selection = some s ∧ d'.tree = d.tree ∧ d.diagnostics <+: d'.diagnostics := by
    simp only [Pass.bindTags, hs]
    split
    · exact ⟨d, rfl, rfl, rfl, hs, rfl, List.prefix_refl _⟩
    · exact ⟨_, rfl, rfl, rfl, rfl, rfl, List.prefix_append _ _⟩
  obtain ⟨d', hok, hkind, hpath, hsel, htree, hdiag⟩ := hrun
  refine ⟨d', hok, hkind, hpath, ?_, ?_, hdiag, ?_, ?_⟩
  · simp [hsel, hs]
  · rw [htree]
    exact ⟨fun h => ⟨ne_of_order_ne (by decide), h⟩, fun h => h.2⟩
  · simp [hs]
  · exact fun h => absurd h (ne_of_order_ne (by decide))

/-- Bind attributes are lowered where there is a render tree, or where there is nothing to lower. -/
theorem run_lowerBinds (h : d.kind.isComponent = true → d.tree ≠ none) :
    ∃ d', Pass.lowerBinds.run options d = .ok d' ∧ Advances .lowerBinds d d' := by
  have hrun : ∃ d', Pass.lowerBinds.run options d = .ok d' ∧ d'.kind = d.kind ∧ d'.path = d.path ∧
      d'.selection = d.selection ∧ (d'.tree = none ↔ d.tree = none) ∧
      d'.diagnostics = d.diagnostics := by
    simp only [Pass.lowerBinds]
    split
    · rename_i hkind
      obtain ⟨t, ht⟩ := Option.ne_none_iff_exists'.1 (h hkind)
      simp only [ht]
      exact ⟨_, rfl, rfl, rfl, rfl, by simp, rfl⟩
    · exact ⟨d, rfl, rfl, rfl, rfl, Iff.rfl, rfl⟩
  obtain ⟨d', hok, hkind, hpath, hsel, htree, hdiag⟩ := hrun
  refine ⟨d', hok, hkind, hpath, ?_, ?_, hdiag ▸ List.prefix_refl _, ?_, fun _ => h⟩
  · rw [hsel]
    exact ⟨fun h => ⟨ne_of_order_ne (by decide), h⟩, fun h => h.2⟩
  · rw [htree]
    exact ⟨fun h => ⟨ne_of_order_ne (by decide), h⟩, fun h => h.2⟩
  · exact fun h => absurd h (ne_of_order_ne (by decide))

/-- **What a pass of the library does**: it runs, or it lacks what an earlier one makes. -/
theorem run_stage (hp : p ∈ Pass.stages) (options : Options) (d : Document) :
    (∃ d', p.run options d = .ok d' ∧ Advances p d d') ∨
      ∃ err, p.run options d = .error err ∧ Refuses p d err := by
  simp only [Pass.stages, List.mem_cons, List.not_mem_nil, or_false] at hp
  rcases hp with rfl | rfl | rfl | rfl
  · exact .inl (run_scan options d)
  · cases hs : d.selection with
    | none => exact .inr ⟨_, by simp [Pass.bindTags, hs], .missingSelection rfl hs⟩
    | some s => exact .inl (run_bindTags hs)
  · exact .inl (run_classify options d)
  · by_cases h : d.kind.isComponent = true ∧ d.tree = none
    · exact .inr ⟨_, by simp [Pass.lowerBinds, h.1, h.2], .missingTree rfl h.1 h.2⟩
    · exact .inl (run_lowerBinds fun hkind htree => h ⟨hkind, htree⟩)

/-! ### What a run comes to -/

/-- The tags of a document are to be bound, yet its tag helpers neither are nor will be selected. -/
def LacksSelection (ps : List Pass) (d : Document) : Prop :=
  Pass.bindTags ∈ ps ∧ Pass.scan ∉ ps ∧ d.selection = none

/-- The bind attributes of a component document are to be lowered, yet it has no render tree and
will get none. -/
def LacksTree (ps : List Pass) (d : Document) : Prop :=
  Pass.lowerBinds ∈ ps ∧ d.kind.isComponent = true ∧ Pass.classify ∉ ps ∧ d.tree = none

/-- How a run of passes ends: that there is no selection is found out first. -/
inductive Outcome (ps : List Pass) (d : Document) : Option PipelineError → Prop
  | missingSelection : LacksSelection ps d → Outcome ps d (some .missingSelection)
  | missingTree : ¬ LacksSelection ps d → LacksTree ps d → Outcome ps d (some (.missingTree d.path))
  | done : ¬ LacksSelection ps d → ¬ LacksTree ps d → Outcome ps d none

theorem Outcome.congr (h : Outcome ps d e) (hs : LacksSelection qs d' ↔ LacksSelection ps d)
    (ht : LacksTree qs d' ↔ LacksTree ps d) (hpath : d'.path = d.path) : Outcome qs d' e := by
  cases h with
  | missingSelection h => exact .missingSelection (hs.2 h)
  | missingTree h h' => rw [← hpath]; exact .missingTree (mt hs.1 h) (ht.2 h')
  | done h h' => exact .done (mt hs.1 h) (mt ht.1 h')

/-- What a pass leaves to do is what there was to do. -/
theorem Outcome.advances (h : Outcome ps d' e) (hd : Advances p d d') : Outcome (p :: ps) d e := by
  refine h.congr ?_ ?_ hd.path_eq.symm
  · unfold LacksSelection
    rw [hd.selection_eq_none, List.mem_cons, List.mem_cons]
    constructor
    · rintro ⟨hb | hb, hs, hsel⟩
      · exact absurd hsel (hd.selected hb.symm)
      · exact ⟨hb, fun h => hs (.inr h), fun h => hs (.inl h.symm), hsel⟩
    · rintro ⟨hb, hs, hp, hsel⟩
      exact ⟨.inr hb, fun h => h.elim (fun h => hp h.symm) hs, hsel⟩
  · unfold LacksTree
    rw [hd.tree_eq_none, hd.kind_eq, List.mem_cons, List.mem_cons]
    constructor
    · rintro ⟨hb | hb, hkind, hc, htree⟩
      · exact absurd htree (hd.classified hb.symm hkind)
      · exact ⟨hb, hkind, fun h => hc (.inr h), fun h => hc (.inl h.symm), htree⟩
    · rintro ⟨hb, hkind, hc, hp, htree⟩
      exact ⟨.inr hb, hkind, fun h => h.elim (fun h => hp h.symm) hc, htree⟩

theorem not_mem_cons_of_order_lt (h : ∀ r ∈ ps, p.order ≤ r.order) (hlt : q.order < p.order) :
    q ∉ p :: ps := by
  intro hq
  rcases List.mem_cons.1 hq with rfl | hq
  · omega
  · have := h q hq
    omega

/-- A pass that cannot run ends the run, and no later pass would have helped it. -/
theorem Outcome.refuses {err : PipelineError} (h : Refuses p d err)
    (hps : ∀ r ∈ ps, p.order ≤ r.order) : Outcome (p :: ps) d (some err) := by
  cases h with
  | missingSelection hp hsel =>
    subst hp
    exact .missingSelection ⟨List.mem_cons_self, not_mem_cons_of_order_lt hps (by decide), hsel⟩
  | missingTree hp hkind htree =>
    subst hp
    refine .missingTree ?_ ⟨List.mem_cons_self, hkind, ?_, htree⟩
    · exact fun h => not_mem_cons_of_order_lt hps (by decide) h.1
    · exact not_mem_cons_of_order_lt hps (by decide)

/-- **How a run ends** can be said before it. -/
theorem outcome_runPasses (options : Options) (ps : List Pass) : ∀ d : Document,
    (∀ p ∈ ps, p ∈ Pass.stages) → ps.Pairwise (·.order ≤ ·.order) →
    Outcome ps d (runPasses options ps d).2 := by
  induction ps with
  | nil =>
    intro d _ _
    exact .done (fun h => List.not_mem_nil h.1) fun h => List.not_mem_nil h.1
  | cons p ps ih =>
    intro d hps hsorted
    obtain ⟨hp, hsorted⟩ := List.pairwise_cons.1 hsorted
    rcases run_stage (hps p List.mem_cons_self) options d with ⟨d', hrun, hd⟩ | ⟨err, hrun, hd⟩
    · simp only [runPasses, hrun]
      exact (ih d' (fun q hq => hps q (List.mem_cons_of_mem _ hq)) hsorted).advances hd
    · simp only [runPasses, hrun]
      exact .refuses hd hp

/-- **A run adds diagnostics at the end**, also one that fails. -/
theorem diagnostics_runPasses (options : Options) (ps : List Pass) : ∀ d : Document,
    (∀ p ∈ ps, p ∈ Pass.stages) → d.diagnostics <+: (runPasses options ps d).1.diagnostics := by
  induction ps with
  | nil => intro d _; exact List.prefix_refl _
  | cons p ps ih =>
    intro d hps
    rcases run_stage (hps p List.mem_cons_self) options d with ⟨d', hrun, hd⟩ | ⟨err, hrun, -⟩
    · simp only [runPasses, hrun]
      exact hd.diagnostics.trans (ih d' fun q hq => hps q (List.mem_cons_of_mem _ hq))
    · simp only [runPasses, hrun]
      exact List.prefix_refl _

theorem outcome_registered (options : Options) (hps : ∀ p ∈ ps, p ∈ Pass.stages) (d : Document) :
    Outcome ps d ((registered options ps).process d).2 := by
  have hperm := perm_registered options ps
  have hrun := outcome_runPasses (registered options ps).options (registered options ps).passes d
    (fun p hp => hps p (hperm.mem_iff.1 hp)) (pairwise_registered options ps)
  refine hrun.congr ?_ ?_ rfl
  · unfold LacksSelection
    rw [hperm.mem_iff, hperm.mem_iff]
  · unfold LacksTree
    rw [hperm.mem_iff, hperm.mem_iff]

/-- **The order of registration does not matter.** Whatever passes of the library are registered,
and however often, every order of registration leads to the same document and the same error. There
is no selection if tags are to be bound, no pass selects tag helpers and none have been selected
before; otherwise there is no render tree if the bind attributes of a component document are to be
lowered, no pass makes one and none has been made before; otherwise the run succeeds. Diagnostics
are added at the end. -/
theorem process_registered (options : Options) (ps : List Pass) (hps : ∀ p ∈ ps, p ∈ Pass.stages)
    (d : Document) :
    (∀ qs : List Pass, qs.Perm ps →
      (registered options qs).process d = (registered options ps).process d) ∧
    (((registered options ps).process d).2 = some .missingSelection ↔ LacksSelection ps d) ∧
    (¬ LacksSelection ps d →
      (((registered options ps).process d).2 = some (.missingTree d.path) ↔ LacksTree ps d)) ∧
    (¬ LacksSelection ps d → ¬ LacksTree ps d → ((registered options ps).process d).2 = none) ∧
    d.diagnostics <+: ((registered options ps).process d).1.diagnostics := by
  refine ⟨?_, ?_⟩
  · intro qs hqs
    rw [registered_perm options hps hqs]
  have hdiag : d.diagnostics <+: ((registered options ps).process d).1.diagnostics :=
    diagnostics_runPasses _ _ d fun p hp => hps p ((perm_registered options ps).mem_iff.1 hp)
  have hout := outcome_registered options hps d
  generalize ((registered options ps).process d).2 = e at hout
  cases hout with
  | missingSelection h => simp [h, hdiag]
  | missingTree h h' => simp [h, h', hdiag]
  | done h h' => simp [h, h', hdiag]

/-- A component document whose tags are bound and whose bind attributes are to be lowered, though no
pass makes a render tree. -/
def Sample.unclassified : Document where
  catalog := {}
  path := "Pages/Index"
  kind := .component
  markup := .block [] ⟨0, 0⟩

theorem process_unclassified :
    (∀ p ∈ [Pass.scan, .bindTags, .lowerBinds], p ∈ Pass.stages) ∧
    [Pass.lowerBinds, .scan, .bindTags].Perm [.scan, .bindTags, .lowerBinds] ∧
    (registered {} [.lowerBinds, .scan, .bindTags]).process Sample.unclassified =
      (registered {} [.scan, .bindTags, .lowerBinds]).process Sample.unclassified ∧
    ((registered {} [.scan, .bindTags, .lowerBinds]).process Sample.unclassified).2 =
      some (.missingTree "Pages/Index") := by
  have hmem : ∀ p ∈ [Pass.scan, .bindTags, .lowerBinds], p ∈ Pass.stages := by simp [Pass.stages]
  have hperm : [Pass.lowerBinds, .scan, .bindTags].Perm [.scan, .bindTags, .lowerBinds] :=
    (List.perm_append_singleton Pass.lowerBinds [.scan, .bindTags]).symm
  have hsel : ¬ LacksSelection [.scan, .bindTags, .lowerBinds] Sample.unclassified :=
    fun h => h.2.1 List.mem_cons_self
  have htree : LacksTree [.scan, .bindTags, .lowerBinds] Sample.unclassified := by
    refine ⟨by simp, rfl, ?_, rfl⟩
    intro h
    have horder : Pass.classify.order ∈ [100, 200, 1100] := List.mem_map_of_mem h
    exact absurd horder (by decide)
  have h := process_registered {} [.scan, .bindTags, .lowerBinds] hmem Sample.unclassified
  exact ⟨hmem, hperm, h.1 _ hperm, (h.2.2.1 hsel).2 htree⟩

end Engine

end TagHelpers
