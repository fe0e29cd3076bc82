import TagHelpers.Proofs.Markup.Reporting
import TagHelpers.Proofs.Markup.Visits

/-!
# Faulty tag helpers are reported once

The diagnostics of a tag helper itself come with the first element that is bound to it, and never
again, however many elements are. They stand among what is wrong with the tree: the diagnostics of a
tree are those problems and the diagnostics of each tag helper, interleaved. Tag helpers count by
their place in the catalog, so of two that are declared alike each is reported.

* `Node.interleaves_origins`: where the diagnostics of a tree come from.
* `Node.binds_of_findSome?`: a tag helper is found at the first element that it binds.
* `Node.origins_bindElements`: what each tag helper adds to the diagnostics of a tree.
-/

namespace TagHelpers

namespace Node

variable {tree : Node} {binder : Binder} {options : Options}

/-- What is wrong with a tree, apart from its tag helpers. -/
def problems (binder : Binder) (options : Options) (tree : Node) : List Diagnostic :=
  (tree.findings binder options none).filterMap Finding.problem?

/-- The diagnostics of a tree are what is wrong with it and what each tag helper adds. -/
theorem interleaves_origins (tree : Node) (binder : Binder) (options : Options) :
    Interleaves (fun origin : Option TagHelper => origin.elim (tree.problems binder options)
      (ownDiagnostics (tree.findings binder options none))) (tree.bindElements binder options).2 := by
  rw [bindElements_eq]
  refine (interleaves_report [] (tree.findings binder options none)).congr fun origin => ?_
  cases origin with
  | none => rfl
  | some h => rw [Option.elim_some, Option.elim_some, if_neg List.not_mem_nil]

/-- A tag helper is found in a tree where it is found on a visit first. -/
theorem findSome?_spanOf?_findings (h : TagHelper) :
    (tree.findings binder options none).findSome? (Finding.spanOf? h) =
      tree.visits.findSome? fun v =>
        (v.2.tagFindings binder options (contextAt binder none tree v.1)).findSome?
          (Finding.spanOf? h) := by
  have hproblem : ∀ d : Option Diagnostic,
      (d.toList.map Finding.problem).findSome? (Finding.spanOf? h) = none := by
    intro d
    cases d <;> rfl
  rw [findings_eq_flatMap_visits]
  generalize tree.visits = vs
  induction vs with
  | nil => rfl
  | cons v vs ih =>
    rw [List.flatMap_cons, List.findSome?_append, List.findSome?_append, hproblem, Option.none_or,
      ih, List.findSome?_cons]
    cases (v.2.tagFindings binder options (contextAt binder none tree v.1)).findSome?
      (Finding.spanOf? h) <;> rfl

/-- A tag helper that is not found binds no element. -/
theorem not_binds_of_findSome? {h : TagHelper}
    (hnone : (tree.findings binder options none).findSome? (Finding.spanOf? h) = none)
    (path : List ℕ) (tag : StartTag) : ¬ tree.Binds (tree.bindTags binder none) path tag h := by
  intro hbinds
  obtain ⟨node, hv⟩ := hbinds.exists_mem_visits
  rw [findSome?_spanOf?_findings, List.findSome?_eq_none_iff] at hnone
  exact Finding.helper_not_mem_of_findSome? (hnone _ hv)
    ((helper_mem_tagFindings hv).2 ⟨tag, hbinds, rfl⟩)

/-- A tag helper is found at the first element that it binds. -/
theorem binds_of_findSome? {h : TagHelper} {span : Span}
    (hspan : (tree.findings binder options none).findSome? (Finding.spanOf? h) = some span) :
    ∃ path tag, tree.Binds (tree.bindTags binder none) path tag h ∧ span = tag.name.span ∧
      ∀ path' tag', tree.Binds (tree.bindTags binder none) path' tag' h →
        path' = path ∨ List.Lex (· < ·) path path' := by
  have hsorted := tree.pairwise_visits
  rw [findSome?_spanOf?_findings] at hspan
  obtain ⟨before, v, after, hvisits, hv, hbefore⟩ := List.findSome?_eq_some_iff.1 hspan
  have hmem : v ∈ tree.visits := by rw [hvisits]; exact List.mem_append_right _ List.mem_cons_self
  obtain ⟨tag, hbinds, htag⟩ :=
    (helper_mem_tagFindings hmem).1 (Finding.helper_mem_of_findSome? hv)
  refine ⟨v.1, tag, hbinds, htag, fun path' tag' hbinds' => ?_⟩
  obtain ⟨node, hv'⟩ := hbinds'.exists_mem_visits
  have hfound : .helper h tag'.name.span ∈
      node.tagFindings binder options (contextAt binder none tree path') :=
    (helper_mem_tagFindings hv').2 ⟨tag', hbinds', rfl⟩
  -- the other element is not visited before the first one
  rw [hvisits, List.mem_append, List.mem_cons] at hv'
  rcases hv' with hv' | rfl | hv'
  · exact absurd hfound (Finding.helper_not_mem_of_findSome? (hbefore _ hv'))
  · exact .inl rfl
  · rw [hvisits, List.pairwise_append, List.pairwise_cons] at hsorted
    exact .inr (hsorted.2.1.1 _ hv')

/-- A tag helper adds its diagnostics at the first element that it binds, and none if it binds
none. -/
theorem ownDiagnostics_findings (tree : Node) (binder : Binder) (options : Options)
    (h : TagHelper) :
    (∃ path tag, tree.Binds (tree.bindTags binder none) path tag h ∧
      (∀ path' tag', tree.Binds (tree.bindTags binder none) path' tag' h →
        path' = path ∨ List.Lex (· < ·) path path') ∧
      ownDiagnostics (tree.findings binder options none) h = h.diagnosticsAt tag.name.span) ∨
    (∀ path tag, ¬ tree.Binds (tree.bindTags binder none) path tag h) ∧
      ownDiagnostics (tree.findings binder options none) h = [] := by
  rw [ownDiagnostics]
  cases hspan : (tree.findings binder options none).findSome? (Finding.spanOf? h) with
  | none => exact .inr ⟨not_binds_of_findSome? hspan, rfl⟩
  | some span =>
    obtain ⟨path, tag, hbinds, rfl, hfirst⟩ := binds_of_findSome? hspan
    exact .inl ⟨path, tag, hbinds, hfirst, rfl⟩

/-- **A tag helper is reported once.** The diagnostics of a tree are what is wrong with the tree
itself and what each tag helper adds. A tag helper that some visited element gets bound to adds its
own diagnostics, in their order and at the name of the first such element. Any other adds none. What
two tag helpers add is there twice, even if they are declared alike. -/
theorem origins_bindElements (tree : Node) (binder : Binder) (options : Options) :
    ∃ own : TagHelper → List Diagnostic,
      Interleaves (fun origin : Option TagHelper => origin.elim (tree.problems binder options) own)
        (tree.bindElements binder options).2 ∧
      (∀ h h' : TagHelper, h ≠ h' →
        (own h ++ own h').Subperm (tree.bindElements binder options).2) ∧
      ∀ h : TagHelper,
        (∃ path tag, tree.Binds (tree.bindElements binder options).1 path tag h ∧
          (∀ path' tag', tree.Binds (tree.bindElements binder options).1 path' tag' h →
            path' = path ∨ List.Lex (· < ·) path path') ∧
          own h = h.descriptor.diagnostics.map fun d => { d with span := tag.name.span }) ∨
        (∀ path tag, ¬ tree.Binds (tree.bindElements binder options).1 path tag h) ∧
          own h = [] := by
  have horigins := tree.interleaves_origins binder options
  refine ⟨_, horigins, fun h h' hne => horigins.subperm fun heq => hne (Option.some.inj heq), ?_⟩
  rw [bindElements_eq]
  exact tree.ownDiagnostics_findings binder options

end Node

namespace Sample

/-- A tag helper for `p` that is itself faulty, in two ways. -/
def faulty (place : ℕ) : TagHelper where
  place := place
  descriptor :=
    { kind := .classic, name := "Paragraph", assemblyName := "Library"
      rules := [{ tagName := "p" }]
      diagnostics :=
        [Problem.malformedAttributeList.report .stub, (Problem.codeInTag "p").report ⟨8, 9⟩] }

/-- The element `<p/>`, its name standing at a span. -/
def emptyParagraph (name : Span) : Node :=
  .element ⟨⟨"<", .stub⟩, ⟨"p", name⟩, ⟨"/>", .stub⟩, .stub⟩ [] [] none none .stub

/-- Two of these elements. -/
def paragraphs : Node := .block [emptyParagraph ⟨1, 2⟩, emptyParagraph ⟨5, 6⟩] .stub

/-- What is reported about a faulty tag helper at a span. -/
def faults (span : Span) : List Diagnostic :=
  [Problem.malformedAttributeList.report span, (Problem.codeInTag "p").report span]

end Sample

/-- Of two faulty tag helpers that are declared alike and bind both paragraphs, each is reported at
the first one. -/
theorem Node.origins_bindElements_paragraphs :
    (Sample.paragraphs.bindElements (.ofHelpers none [Sample.faulty 0, Sample.faulty 1]) {}).2 =
      Sample.faults ⟨1, 2⟩ ++ Sample.faults ⟨1, 2⟩ ∧
    ∃ own : TagHelper → List Diagnostic,
      Interleaves (fun origin : Option TagHelper =>
        origin.elim (Sample.paragraphs.problems
          (.ofHelpers none [Sample.faulty 0, Sample.faulty 1]) {}) own)
        (Sample.faults ⟨1, 2⟩ ++ Sample.faults ⟨1, 2⟩) ∧
      ∀ h ∈ [Sample.faulty 0, Sample.faulty 1], own h = Sample.faults ⟨1, 2⟩ := by
  have hreport : (Sample.paragraphs.bindElements
      (.ofHelpers none [Sample.faulty 0, Sample.faulty 1]) {}).2 =
        Sample.faults ⟨1, 2⟩ ++ Sample.faults ⟨1, 2⟩ := by decide +kernel
  obtain ⟨own, horigins, -, hown⟩ := Sample.paragraphs.origins_bindElements
    (.ofHelpers none [Sample.faulty 0, Sample.faulty 1]) {}
  refine ⟨hreport, own, hreport ▸ horigins, fun h hh => ?_⟩
  have hbinds : Sample.paragraphs.Binds (Sample.paragraphs.bindElements
      (.ofHelpers none [Sample.faulty 0, Sample.faulty 1]) {}).1 [0]
        ⟨⟨"<", .stub⟩, ⟨"p", ⟨1, 2⟩⟩, ⟨"/>", .stub⟩, .stub⟩ h :=
    ⟨⟨[], [], none, .stub, .step rfl rfl (.here _)⟩, [], [], none,
      ⟨.selfClosing, [Sample.faulty 0, Sample.faulty 1]⟩, .stub, rfl, hh⟩
  rcases hown h with ⟨path, tag, hbound, hfirst, hfaults⟩ | ⟨hnone, -⟩
  · obtain ⟨⟨attributes, children, endTag, span, hreach⟩, -⟩ := hbound
    have hat := hreach.at?_eq
    have hpath : path = [0] := by
      rcases hfirst _ _ hbinds with hpath | hlex
      · exact hpath.symm
      · cases hlex with
        | nil => cases hat
        | rel hlt => exact absurd hlt (Nat.not_lt_zero _)
        | cons hlex => cases hlex
    subst hpath
    cases hat
    rw [hfaults]
    simp only [List.mem_cons, List.not_mem_nil, or_false] at hh
    rcases hh with rfl | rfl <;> rfl
  · exact absurd hbinds (hnone _ _)

end TagHelpers
